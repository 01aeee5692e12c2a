import Mathlib.Algebra.BigOperators.Group.Finset.Piecewise
import Mathlib.Algebra.Order.Ring.Int
import Mathlib.Tactic.Common
import Mathlib.Tactic.Ring

/-! Choosing by weight: a draw is reduced by one weight after the other until a test stops the loop. -/
namespace AiGateway.WeightedPick

open List

variable {α : Type*}

def pick (stop : Int → Bool) (weight : α → ℕ) : List α → Int → Option α
  | [], _ => none
  | x :: xs, r => if stop (r-weight x) then some x else pick stop weight xs (r-weight x)

def total (weight : α → ℕ) (l : List α) : ℕ := (l.map weight).sum

variable {stop : Int → Bool} {weight : α → ℕ}

theorem total_nil : total weight [] = 0 := rfl

theorem total_cons (x : α) (l : List α) : total weight (x :: l) = weight x+total weight l := by
  rw [total, map_cons, sum_cons, ← total]

variable {l : List α} {x : α}

theorem total_eq_zero : total weight l = 0 ↔ ∀ x ∈ l, weight x = 0 := by
  induction l with
  | nil => simp [total_nil]
  | cons x l ih => rw [total_cons, Nat.add_eq_zero_iff, ih, forall_mem_cons]

theorem total_affine (f a : ℕ) : total (fun x => weight x*f+a) l = total weight l*f+l.length*a := by
  induction l with
  | nil => simp [total_nil]
  | cons x l ih =>
    rw [total_cons, total_cons, ih, length_cons]
    ring

theorem pick_mem {r : Int} (h : pick stop weight l r = some x) : x ∈ l := by
  induction l generalizing r with
  | nil => cases h
  | cons y l ih =>
    rw [pick] at h
    split at h
    · exact Option.some.inj h ▸ mem_cons_self
    · exact mem_cons_of_mem y (ih h)

/-- A draw below the sum of the weights runs out before the list does. -/
theorem pick_isSome (hneg : ∀ r < 0, stop r = true) {r : Int} (hr : r < total weight l) (hl : l ≠ []) :
    ∃ x, pick stop weight l r = some x := by
  induction l generalizing r with
  | nil => exact absurd rfl hl
  | cons y l ih =>
    rw [pick]
    by_cases hstop : stop (r-weight y) = true
    · exact ⟨y, if_pos hstop⟩
    · rw [if_neg hstop]
      rw [total_cons] at hr
      have hrest : r-weight y < total weight l := by
        push_cast at hr
        omega
      apply ih hrest
      rintro rfl
      apply hstop
      apply hneg
      simpa [total] using hrest

/-- An element is chosen by a draw that is still `d` when the loop reaches it. -/
theorem exists_pick (stop : Int → Bool) {d : ℕ} (hgo : ∀ n : ℕ, stop (n+d) = false)
    (hstop : stop (d-weight x) = true) (hd : d < weight x) (hx : x ∈ l) : ∃ r : ℕ, r < total weight l ∧
      pick stop weight l r = some x := by
  suffices h : ∃ n : ℕ, n+d < total weight l ∧ pick stop weight l ((n+d : ℕ) : Int) = some x from
    h.elim (fun n hn => ⟨n+d, hn⟩)
  induction hx with
  | head l =>
    refine ⟨0, ?_, ?_⟩
    · rw [total_cons]
      omega
    · rw [zero_add, pick, if_pos hstop]
  | tail y _ ih =>
    obtain ⟨n, hlt, hpick⟩ := ih
    refine ⟨weight y+n, ?_, ?_⟩
    · rw [total_cons]
      omega
    · have hrest : ((weight y+n+d : ℕ) : Int)-weight y = (n+d : ℕ) := by omega
      have hnext : ¬ stop (n+d : ℕ) = true := by simp [hgo]
      rw [pick, hrest, if_neg hnext, hpick]

theorem pick_pos {r : Int} (hr : 0 ≤ r) (h : pick (fun r => r < 0) weight l r = some x) : 0 < weight x := by
  induction l generalizing r with
  | nil => cases h
  | cons y l ih =>
    rw [pick] at h
    split at h
    · next hneg =>
      have hlt : r-weight y < 0 := of_decide_eq_true hneg
      obtain rfl := Option.some.inj h
      omega
    · next hneg =>
      have hle : ¬ r-weight y < 0 := fun hlt => hneg (decide_eq_true hlt)
      exact ih (by omega) h

theorem pick_head {y : α} {r : ℕ} (hr : r < weight y) :
    pick (fun r => r < 0) weight (y :: l) (r : Int) = some y := by
  rw [pick, if_pos]
  apply decide_eq_true
  omega

/-- Stopping at zero, the first element is chosen by one draw more than its weight. -/
theorem pick_head_of_le {y : α} {r : ℕ} (hr : r ≤ weight y) :
    pick (fun r => r ≤ 0) weight (y :: l) (r : Int) = some y := by
  rw [pick, if_pos]
  apply decide_eq_true
  omega

theorem pick_tail (y : α) (r : ℕ) :
    pick (fun r => r < 0) weight (y :: l) ((weight y+r : ℕ) : Int) = pick (fun r => r < 0) weight l r := by
  have hrest : ((weight y+r : ℕ) : Int)-weight y = r := by
    push_cast
    omega
  have hgo : ¬ decide ((r : Int) < 0) = true := by simp
  rw [pick, hrest, if_neg hgo]

/-- Over all draws below the sum of the weights, every occurrence of an element is chosen as often
as its weight says. -/
theorem countP_pick [DecidableEq α] :
    (range (total weight l)).countP (fun r : ℕ => pick (fun r => r < 0) weight l (r : Int) = some x) =
      l.count x*weight x := by
  induction l with
  | nil => simp [total_nil]
  | cons y l ih =>
    rw [total_cons, range_add, countP_append, countP_map, count_cons, add_mul]
    -- the draws below the first weight stop there, the others go on with the rest of the list
    have hhead : (range (weight y)).countP (fun r : ℕ => pick (fun r => r < 0) weight (y :: l) (r : Int) = some x) =
        (if (y == x) = true then 1 else 0)*weight x := by
      have hsame : (range (weight y)).countP (fun r : ℕ => pick (fun r => r < 0) weight (y :: l) (r : Int) = some x) =
          (range (weight y)).countP (fun _ => decide (some y = some x)) := by
        apply countP_congr
        intro r hr
        rw [pick_head (mem_range.mp hr)]
      rw [hsame]
      by_cases hyx : y = x
      · subst hyx
        simp
      · simp [hyx]
    have htail : (range (total weight l)).countP
          ((fun r : ℕ => decide (pick (fun r => r < 0) weight (y :: l) (r : Int) = some x)) ∘ (weight y + ·)) =
        l.count x*weight x := by
      rw [← ih]
      apply countP_congr
      intro r _
      rw [Function.comp, pick_tail]
    rw [hhead, htail]
    ring

theorem sum_countP_le {β : Type*} [DecidableEq β] {answer : α → β} {s : Finset α} (hinj : Set.InjOn answer s)
    (f : ℕ → β) (n : ℕ) : ∑ x ∈ s, (range n).countP (fun r => f r = answer x) ≤ n := by
  induction n with
  | zero => simp
  | succ n ih =>
    simp only [range_succ, countP_append, Finset.sum_add_distrib]
    have hlast : ∑ x ∈ s, countP (fun r => decide (f r = answer x)) [n] ≤ 1 := by
      simp only [countP_singleton, decide_eq_true_eq, ← Finset.card_filter, Finset.card_le_one, Finset.mem_filter]
      rintro x ⟨hx, hfx⟩ y ⟨hy, hfy⟩
      exact hinj hx hy (hfx.symm.trans hfy)
    omega

section Wrap

/-- The 64-bit integers of the source, which wrap around. -/
def wrap (n : Int) : Int := n.bmod (2^64)

theorem wrap_lt (n : Int) : wrap n < 2^63 := by
  have hlt := Int.bmod_lt (x := n) (m := 2^64) (by decide)
  exact hlt

theorem wrap_eq {n : Int} (hge : -2^63 ≤ n) (hlt : n < 2^63) : wrap n = n :=
  Int.bmod_eq_of_le (by omega) (by omega)

/-- The choice with wrapping subtractions. -/
def pickInt (stop : Int → Bool) (weight : α → ℕ) : List α → Int → Option α
  | [], _ => none
  | x :: xs, r => if stop (wrap (r-weight x)) then some x else pickInt stop weight xs (wrap (r-weight x))

theorem pickInt_eq (hneg : ∀ r < 0, stop r = true) (hfit : total weight l < 2^63) {r : ℕ} (hr : r < 2^63) :
    pickInt stop weight l r = pick stop weight l r := by
  induction l generalizing r with
  | nil => rfl
  | cons x l ih =>
    rw [total_cons] at hfit
    rw [pickInt, pick, wrap_eq (by omega) (by omega)]
    by_cases hstop : stop (r-weight x) = true
    · rw [if_pos hstop, if_pos hstop]
    · have hle : weight x ≤ r := by
        by_contra hlt
        exact hstop (hneg _ (by omega))
      rw [if_neg hstop, if_neg hstop, ← Int.ofNat_sub hle]
      exact ih (by omega) (by omega)

end Wrap

end AiGateway.WeightedPick
