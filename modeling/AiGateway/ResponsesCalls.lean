import AiGateway.Interleave
import AiGateway.ResponsesStream
import Mathlib.Data.List.Nodup

/-! The function calls of a Responses stream, and what a client collects of them from the chat chunks. -/
namespace AiGateway.Responses

open AiGateway.Convert (Chunk ToolCallResponse)
open AiGateway.GoText (trimSpace)
open List

/-! The calls that the items describe. -/

structure Call where
  key : Key
  id : String
  callId : String
  name : String
  arguments : String
deriving DecidableEq

def Proper (item : ResponsesOutput) : Prop := ∀ t ∈ [item.id, item.callId, item.name], t ≠ "" ∧ trimSpace t = t

instance (item : ResponsesOutput) : Decidable (Proper item) :=
  inferInstanceAs (Decidable (∀ t ∈ [item.id, item.callId, item.name], t ≠ "" ∧ trimSpace t = t))

/-- The item is about the same call, and its arguments go on where those of the call are. -/
def Call.Continues (c : Call) (item : ResponsesOutput) : Prop :=
  c.callId = item.callId ∧ c.name = item.name ∧
    (item.arguments = "" ∨ c.arguments.toList <+: item.arguments.toList)

instance (c : Call) (item : ResponsesOutput) : Decidable (c.Continues item) :=
  inferInstanceAs (Decidable (_ ∧ _ ∧ (_ ∨ _)))

def Call.ofItem (key : Key) (item : ResponsesOutput) : Call :=
  ⟨key, item.id, item.callId, item.name, item.arguments⟩

def Call.repeated (c : Call) (item : ResponsesOutput) : Call :=
  if item.arguments = "" then c else { c with arguments := item.arguments }

/-- The calls after an item: the one it repeats goes on, or a new one comes behind the others. -/
def recordCall (same : Call → Bool) (key : Key) (item : ResponsesOutput) (calls : List Call) : List Call :=
  if calls.any same then calls.map (fun c => if same c then c.repeated item else c) else calls ++ [.ofItem key item]

def extendCall (same : Call → Bool) (delta : String) (calls : List Call) : List Call :=
  calls.map (fun c => if same c then { c with arguments := c.arguments ++ delta } else c)

/-! The calls that a client collects. -/

structure CollectedCall where
  index : ℕ
  id : String
  name : String
  arguments : String
deriving DecidableEq

def CollectedCall.join (t : CollectedCall) (f : ToolCallResponse) : CollectedCall :=
  { t with
    id := if t.id = "" then f.id else t.id
    name := t.name ++ f.name
    arguments := t.arguments ++ f.arguments }

def collect (ts : List CollectedCall) (f : ToolCallResponse) : List CollectedCall :=
  if ts.any (fun t => t.index = f.index.getD 0) then
    ts.map (fun t => if t.index = f.index.getD 0 then t.join f else t)
  else ts ++ [⟨f.index.getD 0, f.id, f.name, f.arguments⟩]

def toolCallsOf (cs : List Chunk) : List ToolCallResponse := cs.flatMap (fun c => c.delta.toolCalls)

def collected (cs : List Chunk) : List CollectedCall := (toolCallsOf cs).foldl collect []

def numbered (calls : List Call) : List CollectedCall :=
  calls.mapIdx (fun i c => ⟨i, c.callId, c.name, c.arguments⟩)

variable {α : Type*} {i : ℕ} {l : List α}

theorem map_ite_eq_set {p : α → Bool} {a : α} (f : α → α) (hi : l[i]? = some a)
    (hp : ∀ j x, l[j]? = some x → (p x = true ↔ j = i)) :
    l.map (fun x => if p x then f x else x) = l.set i (f a) := by
  apply ext_getElem?
  intro j
  rw [getElem?_map, getElem?_set]
  by_cases hj : i = j
  · subst hj
    have hlt : i < l.length := (List.getElem?_eq_some_iff.mp hi).1
    rw [hi, Option.map_some, if_pos ((hp i a hi).mpr rfl), if_pos rfl, if_pos hlt]
  · rw [if_neg hj]
    cases hx : l[j]? with
    | none => rfl
    | some x => rw [Option.map_some, if_neg (fun h => hj ((hp j x hx).mp h).symm)]

theorem any_iff_getElem? {p : α → Bool} :
    l.any p = true ↔ ∃ (i : ℕ) (a : α), l[i]? = some a ∧ p a = true := by
  rw [any_eq_true]
  constructor
  · rintro ⟨a, ha, hp⟩
    obtain ⟨i, hi⟩ := mem_iff_getElem?.mp ha
    exact ⟨i, a, hi, hp⟩
  · rintro ⟨i, a, hi, hp⟩
    exact ⟨a, mem_of_getElem? hi, hp⟩

theorem set_self {a : α} (h : l[i]? = some a) : l.set i a = l := by
  obtain ⟨hlt, rfl⟩ := List.getElem?_eq_some_iff.mp h
  exact set_getElem_self hlt

theorem map_set_same {β : Type*} {f : α → β} {a b : α} (h : l[i]? = some a) (hf : f b = f a) :
    (l.set i b).map f = l.map f := by
  rw [map_set, hf]
  apply set_self
  rw [getElem?_map, h]
  rfl

theorem nodup_map_iff {β : Type*} {f : α → β} (h : (l.map f).Nodup) {j : ℕ} {a b : α} (hi : l[i]? = some a)
    (hj : l[j]? = some b) : f b = f a ↔ j = i := by
  constructor
  · intro he
    obtain ⟨hilt, rfl⟩ := List.getElem?_eq_some_iff.mp hi
    obtain ⟨hjlt, rfl⟩ := List.getElem?_eq_some_iff.mp hj
    have hilt' : i < (l.map f).length := by rwa [length_map]
    have hjlt' : j < (l.map f).length := by rwa [length_map]
    have heq : (l.map f)[j] = (l.map f)[i] := by
      rw [getElem_map, getElem_map, he]
    exact h.getElem_inj_iff.mp heq
  · rintro rfl
    rw [hi] at hj
    cases hj
    rfl

variable {calls : List Call}

/-- An item repeats the one call with its key or has a new one. -/
theorem recordCall_cases (hkeys : (calls.map Call.key).Nodup) (key : Key) (item : ResponsesOutput) :
    (∃ i c, calls[i]? = some c ∧ c.key = key ∧
      recordCall (fun c => c.key = key) key item calls = calls.set i (c.repeated item)) ∨
    key ∉ calls.map Call.key ∧ recordCall (fun c => c.key = key) key item calls = calls ++ [.ofItem key item] := by
  by_cases hany : calls.any (fun c => c.key = key) = true
  · obtain ⟨i, c, hi, hc⟩ := any_iff_getElem?.mp hany
    have hkey : c.key = key := of_decide_eq_true hc
    refine .inl ⟨i, c, hi, hkey, ?_⟩
    rw [recordCall, if_pos hany]
    apply map_ite_eq_set (fun c => c.repeated item) hi
    intro j d hj
    rw [decide_eq_true_iff, ← hkey]
    exact nodup_map_iff hkeys hi hj
  · refine .inr ⟨?_, if_neg hany⟩
    intro hmem
    obtain ⟨c, hc, hck⟩ := mem_map.mp hmem
    exact hany (any_eq_true.mpr ⟨c, hc, decide_eq_true hck⟩)

theorem getElem?_numbered : (numbered calls)[i]? = calls[i]?.map (fun c => ⟨i, c.callId, c.name, c.arguments⟩) :=
  getElem?_mapIdx

theorem index_numbered {t : CollectedCall} (h : (numbered calls)[i]? = some t) : t.index = i := by
  rw [getElem?_numbered, Option.map_eq_some_iff] at h
  obtain ⟨c, -, rfl⟩ := h
  rfl

theorem collect_new (c : Call) :
    collect (numbered calls) ⟨some calls.length, c.callId, c.name, c.arguments⟩ = numbered (calls ++ [c]) := by
  have hnone : ¬ (numbered calls).any (fun t => t.index = calls.length) = true := by
    rw [any_iff_getElem?]
    rintro ⟨i, t, ht, hindex⟩
    have hlt : i < (numbered calls).length := (List.getElem?_eq_some_iff.mp ht).1
    rw [numbered, length_mapIdx] at hlt
    rw [index_numbered ht] at hindex
    exact absurd (of_decide_eq_true hindex) (Nat.ne_of_lt hlt)
  have hcollect : collect (numbered calls) ⟨some calls.length, c.callId, c.name, c.arguments⟩ =
      numbered calls ++ [⟨calls.length, c.callId, c.name, c.arguments⟩] := if_neg hnone
  rw [hcollect, numbered, numbered, mapIdx_concat]

theorem collect_more {c : Call} (hi : calls[i]? = some c) (hid : c.callId ≠ "") (rest : String) :
    collect (numbered calls) ⟨some i, c.callId, "", rest⟩ =
      numbered (calls.set i { c with arguments := c.arguments ++ rest }) := by
  have hat : (numbered calls)[i]? = some ⟨i, c.callId, c.name, c.arguments⟩ := by
    rw [getElem?_numbered, hi]
    rfl
  have hindex (j : ℕ) (t : CollectedCall) (ht : (numbered calls)[j]? = some t) :
      decide (t.index = i) = true ↔ j = i := by
    rw [index_numbered ht]
    exact decide_eq_true_iff
  have hsome : (numbered calls).any (fun t => t.index = i) = true :=
    any_iff_getElem?.mpr ⟨i, _, hat, decide_eq_true rfl⟩
  have hcollect : collect (numbered calls) ⟨some i, c.callId, "", rest⟩ =
      (numbered calls).map (fun t => if decide (t.index = i) then t.join ⟨some i, c.callId, "", rest⟩ else t) := by
    rw [collect, Option.getD_some, if_pos hsome]
    simp only [decide_eq_true_eq]
  rw [hcollect, map_ite_eq_set _ hat hindex, CollectedCall.join, if_neg hid, String.append_empty, numbered, numbered,
    mapIdx_set]

end AiGateway.Responses
