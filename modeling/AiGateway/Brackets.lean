import Mathlib.Data.List.Basic
import Mathlib.Data.List.Induction
import Mathlib.Tactic.Common

/-! Marks that start, use and stop what they name. Several names may be open side by side; the marks of
each one are a start, any number of uses and a stop. -/
namespace AiGateway.Brackets

open List

variable {ι : Type*}

inductive Mark (ι : Type*)
  | start (i : ι)
  | delta (i : ι)
  | stop (i : ι)

def Mark.index : Mark ι → ι
  | .start i | .delta i | .stop i => i

variable (i : ι)

@[simp] theorem Mark.index_start : (Mark.start i).index = i := rfl

@[simp] theorem Mark.index_delta : (Mark.delta i).index = i := rfl

@[simp] theorem Mark.index_stop : (Mark.stop i).index = i := rfl

inductive Phase
  | fresh
  | live
  | gone
  | bad
deriving DecidableEq

def Phase.next : Phase → Mark ι → Phase
  | .fresh, .start _ => .live
  | .live, .delta _ => .live
  | .live, .stop _ => .gone
  | _, _ => .bad

theorem next_bad (m : Mark ι) : Phase.bad.next m = .bad := by
  cases m <;> rfl

theorem foldl_next_replicate (n : ℕ) : (replicate n (Mark.delta i)).foldl Phase.next .live = .live := by
  induction n with
  | zero => rfl
  | succ n ih => exact ih

variable [DecidableEq ι]

def Phase.at (i : ι) (p : Phase) (m : Mark ι) : Phase :=
  if m.index = i then p.next m else p

def phase (i : ι) (marks : List (Mark ι)) : Phase :=
  marks.foldl (Phase.at i) .fresh

def marksAt (i : ι) (marks : List (Mark ι)) : List (Mark ι) :=
  marks.filter (fun m => m.index = i)

variable (marks : List (Mark ι))

/-- Every name that is marked is started once, used after that and stopped once after the uses. -/
def WellBracketed : Prop :=
  ∀ i, marksAt i marks = [] ∨ ∃ n, marksAt i marks = .start i :: replicate n (.delta i) ++ [.stop i]

variable {xs : List (Mark ι)}

theorem phase_append (xs ys : List (Mark ι)) : phase i (xs ++ ys) = ys.foldl (Phase.at i) (phase i xs) :=
  foldl_append

theorem phase_concat (m : Mark ι) : phase i (xs ++ [m]) = if m.index = i then (phase i xs).next m else phase i xs :=
  phase_append i xs [m]

theorem foldl_bad : marks.foldl (Phase.at i) .bad = .bad := by
  induction marks with
  | nil => rfl
  | cons m marks ih =>
    have hm : Phase.at i .bad m = .bad := by
      rw [Phase.at, next_bad, ite_self]
    rw [foldl_cons, hm, ih]

theorem phase_bad_append {i : ι} (h : phase i xs = .bad) (ys : List (Mark ι)) : phase i (xs ++ ys) = .bad := by
  rw [phase_append, h, foldl_bad]

theorem foldl_other {i : ι} {marks : List (Mark ι)} (p : Phase) (h : ∀ m ∈ marks, m.index ≠ i) :
    marks.foldl (Phase.at i) p = p := by
  induction marks with
  | nil => rfl
  | cons m marks ih =>
    have hm : Phase.at i p m = p := if_neg (h m mem_cons_self)
    rw [foldl_cons, hm]
    exact ih (fun m hm => h m (mem_cons_of_mem _ hm))

def Phase.Shows (i : ι) (marks : List (Mark ι)) : Phase → Prop
  | .fresh => marks = []
  | .live => ∃ n, marks = .start i :: replicate n (.delta i)
  | .gone => ∃ n, marks = .start i :: replicate n (.delta i) ++ [.stop i]
  | .bad => True

theorem marksAt_concat (m : Mark ι) :
    marksAt i (xs ++ [m]) = if m.index = i then marksAt i xs ++ [m] else marksAt i xs := by
  rw [marksAt, filter_append, filter_singleton]
  by_cases hm : m.index = i <;> simp [hm, marksAt]

theorem shows_phase : (phase i marks).Shows i (marksAt i marks) := by
  induction marks using reverseRecOn with
  | nil => rfl
  | append_singleton xs m ih =>
    rw [phase_concat, marksAt_concat]
    split
    · next hm =>
      cases hp : phase i xs with
      | fresh =>
        rw [hp] at ih
        cases m with
        | start j => exact ⟨0, by rw [show marksAt i xs = [] from ih, ← show j = i from hm]; rfl⟩
        | delta | stop => trivial
      | live =>
        rw [hp] at ih
        obtain ⟨n, hn⟩ := ih
        cases m with
        | start => trivial
        | delta j =>
          refine ⟨n+1, ?_⟩
          rw [hn, ← show j = i from hm, replicate_succ', cons_append]
        | stop j => exact ⟨n, by rw [hn, ← show j = i from hm]⟩
      | gone => cases m <;> trivial
      | bad =>
        rw [next_bad]
        trivial
    · exact ih

theorem phase_eq_foldl_marksAt :
    phase i marks = (marksAt i marks).foldl Phase.next .fresh := by
  induction marks using reverseRecOn with
  | nil => rfl
  | append_singleton xs m ih =>
    rw [phase_concat, marksAt_concat]
    split
    · rw [foldl_append, ← ih]
      rfl
    · exact ih

theorem wellBracketed_iff :
    WellBracketed marks ↔ ∀ i, phase i marks = .fresh ∨ phase i marks = .gone := by
  apply forall_congr'
  intro i
  have hshows := shows_phase i marks
  constructor
  · rintro (hnil | ⟨n, hn⟩)
    · left
      rw [phase_eq_foldl_marksAt, hnil]
      rfl
    · right
      rw [phase_eq_foldl_marksAt, hn, foldl_append, foldl_cons]
      change Phase.next (foldl Phase.next .live _) (.stop i) = .gone
      rw [foldl_next_replicate]
      rfl
  · rintro (hfresh | hgone)
    · rw [hfresh] at hshows
      exact .inl hshows
    · rw [hgone] at hshows
      exact .inr hshows

/-! Names that are numbers, used in order: those below a base are closed, above it some are open. -/

structure Laid (base : ℕ) (opened : ℕ → Prop) (marks : List (Mark ℕ)) : Prop where
  gone : ∀ i < base, phase i marks = .gone
  live : ∀ i, base ≤ i → opened i → phase i marks = .live
  fresh : ∀ i, base ≤ i → ¬ opened i → phase i marks = .fresh

theorem laid_nil : Laid 0 (fun _ => False) [] :=
  ⟨fun _ h => absurd h (Nat.not_lt_zero _), fun _ _ h => h.elim, fun _ _ _ => rfl⟩

namespace Laid

variable {base : ℕ} {opened : ℕ → Prop} {marks : List (Mark ℕ)}

section
variable (h : Laid base opened marks)
include h

theorem congr {opened' : ℕ → Prop} (ho : ∀ i, base ≤ i → (opened' i ↔ opened i)) :
    Laid base opened' marks :=
  ⟨h.gone, fun i hi h' => h.live i hi ((ho i hi).mp h'),
    fun i hi h' => h.fresh i hi (fun hi' => h' ((ho i hi).mpr hi'))⟩

theorem start {i : ℕ} (hi : base ≤ i) (hnew : ¬ opened i) :
    Laid base (fun j => j = i ∨ opened j) (marks ++ [.start i]) := by
  refine ⟨?_, ?_, ?_⟩
  · intro j hj
    rw [phase_concat, Mark.index_start, if_neg (by omega), h.gone j hj]
  · intro j hj hopen
    rw [phase_concat, Mark.index_start]
    rcases hopen with rfl | hopen
    · rw [if_pos rfl, h.fresh j hj hnew]
      rfl
    · rw [if_neg (by rintro rfl; exact hnew hopen), h.live j hj hopen]
  · intro j hj hopen
    rw [not_or] at hopen
    rw [phase_concat, if_neg (by rintro rfl; exact hopen.1 rfl), h.fresh j hj hopen.2]

theorem delta {i : ℕ} (hi : base ≤ i) (hopen : opened i) : Laid base opened (marks ++ [.delta i]) := by
  have hsame (j : ℕ) : phase j (marks ++ [.delta i]) = phase j marks := by
    rw [phase_concat]
    split
    · next hj =>
      cases hj
      rw [Mark.index_delta, h.live i hi hopen]
      rfl
    · rfl
  exact ⟨fun j hj => (hsame j).trans (h.gone j hj), fun j hj ho => (hsame j).trans (h.live j hj ho),
    fun j hj ho => (hsame j).trans (h.fresh j hj ho)⟩

theorem stop (hopen : opened base) : Laid (base+1) opened (marks ++ [.stop base]) := by
  refine ⟨?_, ?_, ?_⟩
  · intro j hj
    rw [phase_concat, Mark.index_stop]
    by_cases hb : base = j
    · rw [if_pos hb, ← hb, h.live base (Nat.le_refl _) hopen]
      rfl
    · rw [if_neg hb, h.gone j (by omega)]
  · intro j hj ho
    rw [phase_concat, Mark.index_stop, if_neg (by omega), h.live j (by omega) ho]
  · intro j hj ho
    rw [phase_concat, Mark.index_stop, if_neg (by omega), h.fresh j (by omega) ho]

theorem stops (n : ℕ) (hopen : ∀ k < n, opened (base+k)) :
    Laid (base+n) opened (marks ++ (range n).map (fun k => .stop (base+k))) := by
  induction n with
  | zero => simpa using h
  | succ n ih =>
    have hn := ih (fun k hk => hopen k (by omega))
    rw [range_succ, map_append, ← append_assoc]
    exact hn.stop (hopen n (by omega))

theorem bad_start {i : ℕ} (hi : base ≤ i) (hopen : opened i) : phase i (marks ++ [.start i]) = .bad := by
  rw [phase_concat, if_pos (Mark.index_start i), h.live i hi hopen]
  rfl

theorem bad_delta {i : ℕ} (hi : base ≤ i) (hopen : ¬ opened i) : phase i (marks ++ [.delta i]) = .bad := by
  rw [phase_concat, if_pos (Mark.index_delta i), h.fresh i hi hopen]
  rfl

theorem bad_stops {n k : ℕ} (hk : k < n) (hopen : ¬ opened (base+k)) :
    phase (base+k) (marks ++ (range n).map (fun k => .stop (base+k))) = .bad := by
  obtain ⟨m, rfl⟩ : ∃ m, n = k+1+m := ⟨n-(k+1), by omega⟩
  have hother : ∀ m' ∈ (range k).map (fun j => Mark.stop (base+j)), m'.index ≠ base+k := by
    intro m' hm'
    obtain ⟨j, hj, rfl⟩ := mem_map.mp hm'
    have hlt := mem_range.mp hj
    change base+j ≠ base+k
    omega
  have hbefore : phase (base+k) (marks ++ (range k).map (fun j => .stop (base+j))) = .fresh := by
    rw [phase_append, foldl_other _ hother]
    exact h.fresh _ (Nat.le_add_right _ _) hopen
  have hbad : phase (base+k) (marks ++ (range (k+1)).map (fun j => .stop (base+j))) = .bad := by
    rw [range_succ, map_append, ← append_assoc, map_singleton, phase_concat, if_pos (Mark.index_stop _), hbefore]
    rfl
  rw [range_add, map_append, ← append_assoc]
  exact phase_bad_append hbad _

end

theorem wellBracketed (h : Laid base (fun _ => False) marks) : WellBracketed marks := by
  rw [wellBracketed_iff]
  intro i
  rcases Nat.lt_or_ge i base with hi | hi
  · exact .inr (h.gone i hi)
  · exact .inl (h.fresh i hi id)

end Laid

theorem not_wellBracketed {marks : List (Mark ℕ)} (h : ∃ i, phase i marks = .bad) : ¬ WellBracketed marks := by
  obtain ⟨i, hi⟩ := h
  intro hw
  rcases (wellBracketed_iff marks).mp hw i with hp | hp <;> cases hi.symm.trans hp

end AiGateway.Brackets
