import Mathlib.Algebra.Order.Ring.Nat
import Mathlib.Tactic.Common

/-! One key of a Redis server, a list or a counter, on a clock that counts milliseconds. A command finds
no value once the deadline has passed. -/
namespace AiGateway.RedisKey

structure Entry (V : Type*) where
  value : V
  deadline : Option ℕ
deriving DecidableEq

abbrev Slot (V : Type*) := Option (Entry V)

variable {V : Type*} {now now' : ℕ}

def Entry.expired (e : Entry V) (now : ℕ) : Bool :=
  match e.deadline with
  | none => false
  | some d => d < now

def live (now : ℕ) : Slot V → Slot V
  | none => none
  | some e => if e.expired now then none else some e

def expire (now : ℕ) (slot : Slot V) (ttl : ℕ) : Slot V :=
  match live now slot with
  | none => none
  | some e => if ttl = 0 then none else some { e with deadline := some (now+ttl) }

/-- The reply to `TTL key`: seconds, rounded to the nearest one. -/
def ttl (now : ℕ) (slot : Slot V) : Int :=
  match live now slot with
  | none => -2
  | some e =>
    match e.deadline with
    | none => -1
    | some d => ((d-now+500)/1000 : ℕ)

section Lists

variable {α : Type*}

/-- The elements of the list of the key. A key that is not there is an empty list. -/
def elements (now : ℕ) (slot : Slot (List α)) : List α :=
  match live now slot with
  | none => []
  | some e => e.value

def llen (now : ℕ) (slot : Slot (List α)) : ℕ := (elements now slot).length

def lindexLast (now : ℕ) (slot : Slot (List α)) : Option α := (elements now slot).getLast?

def lpush (now : ℕ) (slot : Slot (List α)) (a : α) : Slot (List α) :=
  match live now slot with
  | none => some ⟨[a], none⟩
  | some e => some { e with value := a :: e.value }

/-- `LTRIM key 0 count-1`. The index `-1` is that of the last element, so nothing is trimmed
with the count zero. -/
def ltrim (now : ℕ) (slot : Slot (List α)) (count : ℕ) : Slot (List α) :=
  match live now slot with
  | none => none
  | some e => if count = 0 then some e else some { e with value := e.value.take count }

end Lists

section Counters

def set (now : ℕ) (value : V) (ttl : ℕ) : Slot V :=
  some ⟨value, if ttl = 0 then none else some (now+ttl)⟩

def incrby (now : ℕ) (slot : Slot ℕ) (delta : ℕ) : Slot ℕ :=
  match live now slot with
  | none => some ⟨delta, none⟩
  | some e => some { e with value := e.value+delta }

end Counters

variable {e : Entry V} {slot : Slot V}

theorem live_eq_some_iff : live now slot = some e ↔ slot = some e ∧ ∀ d ∈ e.deadline, now ≤ d := by
  have hexpired (e : Entry V) : e.expired now = true ↔ ¬ ∀ d ∈ e.deadline, now ≤ d := by
    unfold Entry.expired
    cases e.deadline <;> simp
  cases slot with
  | none => simp [live]
  | some e' =>
    simp only [live, hexpired, ite_not, Option.ite_none_right_eq_some, Option.some.injEq]
    exact ⟨fun h => ⟨h.2, h.2 ▸ h.1⟩, fun h => ⟨h.1 ▸ h.2, h.1⟩⟩

theorem live_later (now' : ℕ) (h : live now slot = some e) :
    live now' slot = some e ∨ live now' slot = none ∧ ∃ d ∈ e.deadline, d < now' := by
  obtain ⟨rfl, _⟩ := live_eq_some_iff.mp h
  by_cases hd : ∀ d ∈ e.deadline, now' ≤ d
  · exact .inl (live_eq_some_iff.mpr ⟨rfl, hd⟩)
  · right
    refine ⟨Option.eq_none_iff_forall_ne_some.mpr fun e' he' => ?_, by simpa using hd⟩
    obtain ⟨he, hd'⟩ := live_eq_some_iff.mp he'
    exact hd (Option.some.inj he ▸ hd')

theorem live_later_none (hnow : now ≤ now') (h : live now slot = none) : live now' slot = none := by
  rw [Option.eq_none_iff_forall_ne_some] at h ⊢
  intro e he
  obtain ⟨hslot, hd⟩ := live_eq_some_iff.mp he
  exact h e (live_eq_some_iff.mpr ⟨hslot, fun d hmem => hnow.trans (hd d hmem)⟩)

theorem live_some (h : ∀ d ∈ e.deadline, now ≤ d) : live now (some e) = some e :=
  live_eq_some_iff.mpr ⟨rfl, h⟩

theorem live_write (h : live now slot = some e) (value : V) :
    live now (some { e with value := value }) = some { e with value := value } :=
  live_some (live_eq_some_iff.mp h).2

theorem live_expire {ttl : ℕ} (h : live now slot = some e) (httl : ttl ≠ 0) :
    live now (expire now slot ttl) = some { e with deadline := some (now+ttl) } := by
  simp only [expire, h, if_neg httl]
  apply live_some
  intro d hd
  cases hd
  exact Nat.le_add_right now ttl

end AiGateway.RedisKey
