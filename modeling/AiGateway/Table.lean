import Mathlib.Algebra.Order.BigOperators.Group.List
import Mathlib.Algebra.Order.Ring.Int
import Mathlib.Data.List.Nodup

/-! A table of rows with a primary key. The uniqueness of the key is part of the
type, so a lookup by key and a scan of the rows see the same row. Last, fault plans: which of the named
statements of a procedure the environment refuses, and with which error. -/
namespace AiGateway

open List

structure Table {K R : Type*} (key : R → K) where
  rows : List R
  unique : (rows.map key).Nodup

namespace Table

variable {K R : Type*} {key : R → K}

def empty : Table key := ⟨[], nodup_nil⟩

def single (row : R) : Table key := ⟨[row], nodup_singleton _⟩

theorem map_key_map (rows : List R) {f : R → R} (hf : ∀ r, key (f r) = key r) :
    (rows.map f).map key = rows.map key := by
  rw [map_map]
  apply map_congr_left
  intro x _
  exact hf x

def update (t : Table key) (f : R → R) (hf : ∀ r, key (f r) = key r) : Table key where
  rows := t.rows.map f
  unique := by
    rw [map_key_map t.rows hf]
    exact t.unique

theorem update_same {t : Table key} {f : R → R} {hf : ∀ r, key (f r) = key r} (h : ∀ r ∈ t.rows, f r = r) :
    t.update f hf = t := by
  have hrows : t.rows.map f = t.rows := (map_congr_left h).trans (map_id' _)
  simp only [update, hrows]

theorem update_self (t : Table key) : t.update (fun r => r) (fun _ => rfl) = t :=
  update_same (fun _ _ => rfl)

def updateWhere (t : Table key) (p : R → Bool) (f : R → R) (hf : ∀ r, key (f r) = key r) : Table key :=
  t.update (fun r => if p r then f r else r) (by
    intro r
    split
    · exact hf r
    · rfl)

def total (f : R → Int) (t : Table key) : Int := (t.rows.map f).sum

variable (f : R → Int)

theorem total_update (t : Table key) (g : R → R) (hg : ∀ r, key (g r) = key r) :
    (t.update g hg).total f = t.total (fun r => f (g r)) := by
  simp only [total, update, map_map]
  rfl

theorem total_zero (t : Table key) : t.total (fun _ => 0) = 0 := by
  simp [total]

variable {x r : R} {k : K} {t : Table key}

theorem eq_of_key (t : Table key) {y : R} (hx : x ∈ t.rows) (hy : y ∈ t.rows) (h : key x = key y) : x = y :=
  inj_on_of_nodup_map t.unique hx hy h

variable [DecidableEq K]

def find (t : Table key) (k : K) : Option R :=
  t.rows.find? (fun r => key r = k)

theorem key_replace (r x : R) : key (if key x = key r then r else x) = key x := by
  by_cases hx : key x = key r <;> simp [hx]

/-- `UPDATE` of the row with the key of `r`; a row that is gone is not recreated. -/
def save (t : Table key) (r : R) : Table key where
  rows := t.rows.map (fun x => if key x = key r then r else x)
  unique := by
    rw [map_key_map t.rows (key_replace r)]
    exact t.unique

def insert (t : Table key) (r : R) : Table key :=
  if h : key r ∈ t.rows.map key then t
  else ⟨t.rows ++ [r], by
    rw [map_append, map_singleton, ← concat_eq_append]
    exact t.unique.concat h⟩

def delete (t : Table key) (k : K) : Table key where
  rows := t.rows.filter (fun r => key r ≠ k)
  unique := t.unique.sublist (filter_sublist.map key)

def deleteWhere (t : Table key) (p : R → Bool) : Table key where
  rows := t.rows.filter (fun r => !p r)
  unique := t.unique.sublist (filter_sublist.map key)

variable (t)

theorem find_update (f : R → R) (hf : ∀ r, key (f r) = key r) (k : K) :
    (t.update f hf).find k = (t.find k).map f := by
  simp only [find, update, find?_map]
  congr 1
  apply congrArg (fun p => t.rows.find? p)
  funext x
  simp [hf]

def modify (t : Table key) (k : K) (f : R → R) (hf : ∀ r, key (f r) = key r) : Table key :=
  t.update (fun r => if key r = k then f r else r) (by
    intro r
    split
    · exact hf r
    · rfl)

theorem find_some_iff (k : K) (r : R) : t.find k = some r ↔ r ∈ t.rows ∧ key r = k := by
  constructor
  · intro h
    exact ⟨mem_of_find?_eq_some h, by simpa using find?_some h⟩
  · rintro ⟨hr, rfl⟩
    obtain ⟨x, hx⟩ := Option.isSome_iff_exists.mp
      (find?_isSome (p := fun x => decide (key x = key r)) |>.mpr ⟨r, hr, by simp⟩)
    have hxr : x = r := eq_of_key t (mem_of_find?_eq_some hx) hr (by simpa using find?_some hx)
    exact hxr ▸ hx

theorem find_mem (r : R) (hr : r ∈ t.rows) : t.find (key r) = some r :=
  (find_some_iff t (key r) r).mpr ⟨hr, rfl⟩

theorem find_key (h : t.find k = some r) : key r = k :=
  ((find_some_iff t k r).mp h).2

theorem map_find (k k₀ : K) (g : R → R) : (t.find k).map (fun x => if key x = k₀ then g x else x) =
    if k = k₀ then (t.find k).map g else t.find k := by
  cases h : t.find k with
  | none => split <;> rfl
  | some => rw [Option.map_some, Option.map_some, find_key t h, apply_ite some]

theorem find_modify (f : R → R) (hf : ∀ r, key (f r) = key r) (k' : K) :
    (t.modify k f hf).find k' = if k' = k then (t.find k').map f else t.find k' := by
  rw [modify, find_update, map_find]

theorem find_save (r : R) (k : K) :
    (t.save r).find k = if k = key r then (t.find k).map (fun _ => r) else t.find k := by
  rw [← map_find]
  exact find_update t _ (key_replace r) k

theorem find_save_of_key {old : R} (hk : key r = k) (h : t.find k = some old) :
    (t.save r).find k = some r := by
  rw [find_save, if_pos hk.symm, h]
  rfl

theorem find_save_of_ne (hk : k ≠ key r) : (t.save r).find k = t.find k := by
  rw [find_save, if_neg hk]

variable {t}

theorem find_of_save (h : (t.save r).find k = none) : t.find k = none := by
  rw [find_save] at h
  split at h
  · exact Option.map_eq_none_iff.mp h
  · exact h

theorem find_save_some (h : (t.save r).find k = some x) :
    (k = key r ∧ x = r) ∨ (k ≠ key r ∧ t.find k = some x) := by
  rw [find_save] at h
  split at h
  · next hk =>
    obtain ⟨_, _, rfl⟩ := Option.map_eq_some_iff.mp h
    exact .inl ⟨hk, rfl⟩
  · next hk => exact .inr ⟨hk, h⟩

theorem save_save_restore (t : Table key) (r r' : R) (hr : t.find (key r) = some r)
    (hk : key r' = key r) : (t.save r').save r = t := by
  have hrows : ((t.save r').save r).rows = t.rows := by
    simp only [save, map_map]
    conv_rhs => rw [← map_id t.rows]
    apply map_congr_left
    intro x hx
    by_cases hxr : key x = key r
    · have hm := (find_some_iff t (key r) r).mp hr
      have hxe : x = r := eq_of_key t hx hm.1 hxr
      simp [hk, hxe]
    · simp [hk, hxr]
  cases t
  simpa [save] using hrows

theorem key_notMem (h : t.find k = none) : k ∉ t.rows.map key := by
  intro hm
  obtain ⟨x, hx, hk⟩ := mem_map.mp hm
  have hf := find_mem t x hx
  rw [hk, h] at hf
  cases hf

theorem find_insert (t : Table key) (r : R) (k : K) (hr : t.find (key r) = none) :
    (t.insert r).find k = if k = key r then some r else t.find k := by
  have hn := key_notMem hr
  simp only [find, insert, dif_neg hn, find?_append]
  by_cases hk : k = key r
  · subst hk
    have hz : t.rows.find? (fun x => decide (key x = key r)) = none := hr
    simp [hz]
  · simp [hk, Ne.symm hk]

theorem insert_of_find {old : R} (h : t.find (key r) = some old) : t.insert r = t := by
  obtain ⟨hm, hk⟩ := (find_some_iff t (key r) old).mp h
  have hmem : key r ∈ t.rows.map key := hk ▸ mem_map_of_mem hm
  rw [insert, dif_pos hmem]

theorem find_insert_of_ne (t : Table key) (hk : k ≠ key r) : (t.insert r).find k = t.find k := by
  cases hr : t.find (key r) with
  | none => rw [find_insert t r k hr, if_neg hk]
  | some => rw [insert_of_find hr]

theorem mem_save (h : x ∈ (t.save r).rows) : x = r ∨ x ∈ t.rows ∧ key x ≠ key r := by
  rcases find_save_some (find_mem _ x h) with ⟨_, he⟩ | ⟨hk, hx⟩
  · exact .inl he
  · exact .inr ⟨((find_some_iff t _ x).mp hx).1, hk⟩

theorem forall_save {P : R → Prop} (h : ∀ x ∈ t.rows, P x) (hr : P r) : ∀ x ∈ (t.save r).rows, P x := by
  intro x hx
  rcases mem_save hx with rfl | ⟨hin, _⟩
  · exact hr
  · exact h x hin

theorem mem_save_of_ne (h : x ∈ t.rows) (hk : key x ≠ key r) : x ∈ (t.save r).rows :=
  mem_map.mpr ⟨x, h, if_neg hk⟩

theorem mem_delete : x ∈ (t.delete k).rows ↔ x ∈ t.rows ∧ key x ≠ k := by
  simp [delete]

theorem find_delete (k k' : K) : (t.delete k).find k' = if k' = k then none else t.find k' := by
  apply Option.ext
  intro r
  rw [find_some_iff, mem_delete]
  split
  · next hk => simp [hk]
  · next hk =>
    rw [find_some_iff]
    exact ⟨fun h => ⟨h.1.1, h.2⟩, fun h => ⟨⟨h.1, fun he => hk (h.2.symm.trans he)⟩, h.2⟩⟩

omit [DecidableEq K] in
theorem mem_deleteWhere {p : R → Bool} : x ∈ (t.deleteWhere p).rows ↔ x ∈ t.rows ∧ p x = false := by
  simp [deleteWhere]

omit [DecidableEq K] in
theorem deleteWhere_none {p : R → Bool} (h : ∀ x ∈ t.rows, p x = false) : t.deleteWhere p = t := by
  have hrows : t.rows.filter (fun r => !p r) = t.rows := filter_eq_self.mpr (fun x hx => by simp [h x hx])
  simp only [deleteWhere, hrows]

theorem find_deleteWhere_some {p : R → Bool} :
    (t.deleteWhere p).find k = some r ↔ t.find k = some r ∧ p r = false := by
  rw [find_some_iff, find_some_iff, mem_deleteWhere, and_right_comm]

theorem insert_rows (hr : key r ∉ t.rows.map key) : (t.insert r).rows = t.rows ++ [r] := by
  rw [insert, dif_neg hr]

theorem mem_insert (hr : t.find (key r) = none) (h : x ∈ (t.insert r).rows) : x = r ∨ x ∈ t.rows := by
  have hx := find_mem _ x h
  rw [find_insert _ _ _ hr] at hx
  split at hx
  · exact .inl (Option.some.inj hx).symm
  · exact .inr ((find_some_iff t _ x).mp hx).1

theorem forall_insert {P : R → Prop} (h : ∀ x ∈ t.rows, P x) (hr : P r) : ∀ x ∈ (t.insert r).rows, P x := by
  intro x hx
  cases hf : t.find (key r) with
  | none =>
    rcases mem_insert hf hx with rfl | hin
    · exact hr
    · exact h x hin
  | some =>
    rw [insert_of_find hf] at hx
    exact h x hx

theorem sum_map_replace (r old : R) (rows : List R) (hnd : (rows.map key).Nodup) (hold : old ∈ rows)
    (hk : key old = key r) :
    ((rows.map (fun x => if key x = key r then r else x)).map f).sum = (rows.map f).sum-f old+f r := by
  induction rows with
  | nil => cases hold
  | cons x rows ih =>
    rw [map_cons, nodup_cons] at hnd
    simp only [map_cons, sum_cons]
    rcases mem_cons.mp hold with rfl | hin
    · -- No other row has the key, so the rest of the table stays as it is.
      have hrest : rows.map (fun x => if key x = key r then r else x) = rows := by
        conv_rhs => rw [← map_id rows]
        apply map_congr_left
        intro y hy
        have hne : key y ≠ key r := fun he => hnd.1 (hk ▸ he ▸ mem_map_of_mem hy)
        simp [hne]
      rw [hrest, if_pos hk]
      omega
    · have hne : key x ≠ key r := fun he => hnd.1 (he ▸ hk ▸ mem_map_of_mem hin)
      rw [if_neg hne, ih hnd.2 hin]
      omega

variable (t)

theorem total_save {old : R} (h : t.find (key r) = some old) :
    (t.save r).total f = t.total f-f old+f r := by
  obtain ⟨hm, hk⟩ := (find_some_iff t (key r) old).mp h
  exact sum_map_replace f r old t.rows t.unique hm hk

theorem total_insert (h : t.find (key r) = none) :
    (t.insert r).total f = t.total f+f r := by
  rw [total, insert_rows (key_notMem h), map_append, sum_append]
  simp [total]

theorem le_total (h : t.find k = some r) (hf : ∀ x ∈ t.rows, 0 ≤ f x) :
    f r ≤ t.total f := by
  obtain ⟨hm, _⟩ := (find_some_iff t k r).mp h
  apply single_le_sum
  · intro y hy
    obtain ⟨x, hx, rfl⟩ := mem_map.mp hy
    exact hf x hx
  · exact mem_map_of_mem hm

theorem find_updateWhere (p : R → Bool) (f : R → R) (hf : ∀ r, key (f r) = key r) (k : K) :
    (t.updateWhere p f hf).find k = (t.find k).map (fun r => if p r then f r else r) :=
  find_update t _ _ k

theorem filter_key (hr : r ∈ t.rows) : t.rows.filter (fun x => key x = key r) = [r] := by
  classical
  have hsame : t.rows.filter (fun x => key x = key r) = t.rows.filter (fun x => x = r) :=
    filter_congr (fun x hx => decide_eq_decide.mpr ⟨eq_of_key t hx hr, congrArg key⟩)
  rw [hsame, filter_eq, count_eq_one_of_mem (t.unique.of_map key) hr]
  rfl

variable {t}

def insertAll (t : Table key) (rs : List R) : Table key := rs.foldl insert t

theorem mem_insertAll {rs : List R} (hnd : (rs.map key).Nodup) (hnew : ∀ r ∈ rs, t.find (key r) = none)
    (x : R) : x ∈ (t.insertAll rs).rows ↔ x ∈ t.rows ∨ x ∈ rs := by
  induction rs generalizing t with
  | nil => simp [insertAll]
  | cons r rs ih =>
    rw [map_cons, nodup_cons] at hnd
    have hr : t.find (key r) = none := hnew r mem_cons_self
    have hrest (y : R) (hy : y ∈ rs) : (t.insert r).find (key y) = none := by
      have hne : key y ≠ key r := fun he => hnd.1 (he ▸ mem_map_of_mem hy)
      rw [find_insert_of_ne t hne]
      exact hnew y (mem_cons_of_mem r hy)
    have hrows : (t.insert r).rows = t.rows ++ [r] := insert_rows (key_notMem hr)
    rw [insertAll, foldl_cons, ← insertAll, ih hnd.2 hrest, hrows]
    simp only [mem_append, mem_cons, not_mem_nil, false_or, or_assoc]

end Table

end AiGateway

namespace AiGateway.Fault

universe u

variable {σ ε : Type*} {α β : Type u}

def never : σ → Option ε := fun _ => none

def attempt (fails : σ → Option ε) (s : σ) : Except ε Unit :=
  match fails s with
  | none => .ok ()
  | some e => .error e

@[simp] theorem attempt_never (s : σ) : attempt (never : σ → Option ε) s = .ok () := rfl

theorem bind_eq_ok {x : Except ε α} {f : α → Except ε β} {b : β} (h : (x >>= f) = .ok b) :
    ∃ a, x = .ok a ∧ f a = .ok b := by
  cases x with
  | error => cases h
  | ok a => exact ⟨a, rfl, h⟩

@[simp] theorem ok_bind (a : α) (f : α → Except ε β) : (Except.ok a >>= f) = f a := rfl

theorem eq_ok_of_isOk {r : Except ε Unit} (h : r.isOk = true) : r = .ok () := by
  cases r with
  | error => cases h
  | ok => rfl

end AiGateway.Fault
