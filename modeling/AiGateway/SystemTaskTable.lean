import AiGateway.Table

/-! The rows of the system tasks, with the unique indexes of their table, and the statements that
insert and update them. -/
namespace AiGateway.SysTask

open List

inductive SystemTaskStatus
  | pending | running | succeeded | failed
deriving DecidableEq

/-- `activeSystemTaskStatuses`. -/
def SystemTaskStatus.active : SystemTaskStatus → Bool
  | .pending | .running => true
  | .succeeded | .failed => false

def Terminal : Type := { s : SystemTaskStatus // s.active = false }

structure SystemTask where
  id : Int
  taskID : String
  type : String
  status : SystemTaskStatus
  activeKey : Option String
  payload : String
  state : String
  result : String
  error : String
  lockedBy : String
  createdAt : Int
  updatedAt : Int
deriving DecidableEq

structure SystemTaskLock where
  type : String
  taskID : String
  lockedBy : String
  lockedUntil : Int
  updatedAt : Int
deriving DecidableEq

/-- The `SET` list of an `UPDATE` of tasks: ids and types stay, and the active key stays or
is cleared. -/
structure Assignment where
  set : SystemTask → SystemTask
  id : ∀ r, (set r).id = r.id
  taskID : ∀ r, (set r).taskID = r.taskID
  type : ∀ r, (set r).type = r.type
  activeKey : ∀ r, (set r).activeKey = r.activeKey ∨ (set r).activeKey = none

/-- `system_tasks` with its unique indexes on `task_id` and `active_key`. -/
structure Tasks where
  table : Table SystemTask.id
  taskIDs : (table.rows.map SystemTask.taskID).Nodup
  activeKeys : (table.rows.filterMap SystemTask.activeKey).Nodup

namespace Tasks

def rows (t : Tasks) : List SystemTask := t.table.rows

def empty : Tasks := ⟨.empty, nodup_nil, nodup_nil⟩

def written (p : SystemTask → Bool) (a : Assignment) (r : SystemTask) : SystemTask :=
  if p r then a.set r else r

variable (p : SystemTask → Bool)

variable {a : Assignment}

theorem written_cases (a : Assignment) (r : SystemTask) :
    p r = true ∧ written p a r = a.set r ∨ p r = false ∧ written p a r = r := by
  cases hp : p r with
  | true => exact .inl ⟨rfl, by simp [written, hp]⟩
  | false => exact .inr ⟨rfl, by simp [written, hp]⟩

theorem written_same {β : Type*} {f : SystemTask → β} (h : ∀ r, f (a.set r) = f r) (r : SystemTask) :
    f (written p a r) = f r := by
  rcases written_cases p a r with ⟨_, he⟩ | ⟨_, he⟩
  · rw [he, h]
  · rw [he]

theorem written_id (a : Assignment) : ∀ r, (written p a r).id = r.id := written_same p a.id

theorem written_taskID (a : Assignment) : ∀ r, (written p a r).taskID = r.taskID := written_same p a.taskID

theorem written_type (a : Assignment) : ∀ r, (written p a r).type = r.type := written_same p a.type

theorem written_activeKey (a : Assignment) (r : SystemTask) :
    (written p a r).activeKey = r.activeKey ∨ (written p a r).activeKey = none := by
  rcases written_cases p a r with ⟨_, he⟩ | ⟨_, he⟩
  · rw [he]
    exact a.activeKey r
  · rw [he]
    exact .inl rfl

theorem activeKeys_sublist (f : SystemTask → SystemTask)
    (hf : ∀ r, (f r).activeKey = r.activeKey ∨ (f r).activeKey = none) (rows : List SystemTask) :
    ((rows.map f).filterMap SystemTask.activeKey).Sublist (rows.filterMap SystemTask.activeKey) := by
  induction rows with
  | nil => exact List.Sublist.refl _
  | cons r rows ih =>
    rw [map_cons]
    rcases hf r with he | he
    · cases hk : r.activeKey with
      | none => rw [filterMap_cons_none (he.trans hk), filterMap_cons_none hk]; exact ih
      | some k => rw [filterMap_cons_some (he.trans hk), filterMap_cons_some hk]; exact ih.cons_cons k
    · rw [filterMap_cons_none he]
      cases hk : r.activeKey with
      | none => rw [filterMap_cons_none hk]; exact ih
      | some k => rw [filterMap_cons_some hk]; exact ih.cons k

def updateWhere (t : Tasks) (p : SystemTask → Bool) (a : Assignment) : Tasks where
  table := t.table.update (written p a) (written_id p a)
  taskIDs := by
    have hmap := Table.map_key_map t.table.rows (written_taskID p a)
    exact hmap ▸ t.taskIDs
  activeKeys := t.activeKeys.sublist (activeKeys_sublist _ (written_activeKey p a) _)

variable {t : Tasks} {r : SystemTask}

theorem mem_updateWhere {p : SystemTask → Bool} :
    r ∈ (t.updateWhere p a).rows ↔ ∃ old ∈ t.rows, written p a old = r :=
  mem_map

theorem updateWhere_none {p : SystemTask → Bool} (h : t.rows.any p = false) : t.updateWhere p a = t := by
  have hsame (r : SystemTask) (hr : r ∈ t.rows) : written p a r = id r := by
    rcases written_cases p a r with ⟨hp, _⟩ | ⟨_, he⟩
    · exact absurd (any_eq_true.mpr ⟨r, hr, hp⟩) (by rw [h]; exact Bool.false_ne_true)
    · exact he
  have hrows : t.table.rows.map (written p a) = t.table.rows := (map_congr_left hsame).trans (map_id _)
  obtain ⟨⟨_, _⟩, _⟩ := t
  simp only [updateWhere, Table.update]
  congr 2

def nextID (t : Tasks) : Int := (t.rows.map SystemTask.id).foldr max 0+1

theorem lt_nextID (h : r ∈ t.rows) : r.id < t.nextID := by
  have hle (ids : List Int) (i : Int) (hi : i ∈ ids) : i ≤ ids.foldr max 0 := by
    induction ids with
    | nil => cases hi
    | cons j ids ih =>
      rw [foldr_cons]
      rcases mem_cons.mp hi with rfl | hi
      · omega
      · have hrest := ih hi
        omega
  have hmax := hle _ _ (mem_map_of_mem (f := SystemTask.id) h)
  unfold nextID
  omega

def Accepts (t : Tasks) (r : SystemTask) : Prop :=
  r.id ∉ t.rows.map SystemTask.id ∧ r.taskID ∉ t.rows.map SystemTask.taskID ∧
    ∀ k ∈ r.activeKey, k ∉ t.rows.filterMap SystemTask.activeKey

instance (t : Tasks) (r : SystemTask) : Decidable (t.Accepts r) :=
  inferInstanceAs (Decidable (_ ∧ _ ∧ _))

theorem nodup_concat {α : Type*} {l : List α} {a : α} (hl : l.Nodup) (ha : a ∉ l) : (l ++ [a]).Nodup := by
  rw [← concat_eq_append]
  exact hl.concat ha

/-- `INSERT INTO system_tasks`. A row that an index refuses is not stored. -/
def insert (t : Tasks) (r : SystemTask) : Tasks :=
  if h : t.Accepts r then
    { table := ⟨t.rows ++ [r], by
        rw [map_append]
        exact nodup_concat t.table.unique h.1⟩
      taskIDs := by
        rw [map_append]
        exact nodup_concat t.taskIDs h.2.1
      activeKeys := by
        rw [filterMap_append]
        cases hk : r.activeKey with
        | none =>
          have hnone : [r].filterMap SystemTask.activeKey = [] := by simp [hk]
          rw [hnone, append_nil]
          exact t.activeKeys
        | some k =>
          have hone : [r].filterMap SystemTask.activeKey = [k] := by simp [hk]
          rw [hone]
          exact nodup_concat t.activeKeys (h.2.2 k hk) }
  else t

theorem rows_insert (h : t.Accepts r) : (t.insert r).rows = t.rows ++ [r] := by
  rw [insert, dif_pos h]
  rfl

theorem insert_refused (h : ¬ t.Accepts r) : t.insert r = t := by
  rw [insert, dif_neg h]

theorem mem_insert {x : SystemTask} (hx : x ∈ (t.insert r).rows) : x ∈ t.rows ∨ x = r := by
  by_cases h : t.Accepts r
  · rw [rows_insert h] at hx
    simpa using hx
  · rw [insert_refused h] at hx
    exact .inl hx

theorem mem_insert_of_mem {x : SystemTask} (hx : x ∈ t.rows) : x ∈ (t.insert r).rows := by
  by_cases h : t.Accepts r
  · rw [rows_insert h]
    exact mem_append_left _ hx
  · rw [insert_refused h]
    exact hx

section
variable {r' : SystemTask} (h : r ∈ t.rows) (h' : r' ∈ t.rows)
include h h'

theorem eq_of_taskID (he : r.taskID = r'.taskID) : r = r' :=
  inj_on_of_nodup_map t.taskIDs h h' he

theorem eq_of_id (he : r.id = r'.id) : r = r' :=
  t.table.eq_of_key h h' he

theorem eq_of_activeKey {k : String} (hk : r.activeKey = some k) (hk' : r'.activeKey = some k) :
    r = r' := by
  have hnd := t.activeKeys.map (Option.some_injective _)
  rw [map_filterMap_some_eq_filter_map_isSome, filter_map] at hnd
  exact inj_on_of_nodup_map hnd (mem_filter.mpr ⟨h, by simp [hk]⟩) (mem_filter.mpr ⟨h', by simp [hk']⟩)
    (hk.trans hk'.symm)

end

end Tasks

end AiGateway.SysTask
