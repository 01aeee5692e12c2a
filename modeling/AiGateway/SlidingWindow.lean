import Mathlib.Algebra.Order.Ring.Nat
import Mathlib.Data.List.Basic
import Mathlib.Tactic.Common

/-! Logs of moments, the newest one first, and how many of them fall into a window of time. A
limiter remembers the newest entries of such a log. -/
namespace AiGateway.SlidingWindow

open List Option

def countIn (t W : ℕ) (log : List ℕ) : ℕ := log.countP (fun x => t ≤ x && x < t+W)

/-- Of an entry and the `N`-th one before it, the latter is at least `W` older. -/
def Spaced (N W : ℕ) (log : List ℕ) : Prop :=
  ∀ i a b, log[i]? = some a → log[i+N]? = some b → b+W ≤ a

variable {N W now now' : ℕ} {log : List ℕ}

theorem Spaced.nil : Spaced N W [] := by
  intro i a b ha
  simp at ha

theorem Spaced.tail {a : ℕ} (h : Spaced N W (a :: log)) : Spaced N W log := by
  intro i x y hx hy
  apply h (i+1) x y
  · simpa using hx
  · have hi : i+1+N = i+N+1 := by omega
    rw [hi, getElem?_cons_succ]
    exact hy

theorem Spaced.cons {a : ℕ} (hN : 1 ≤ N) (h : Spaced N W log) (ha : ∀ x, log[N-1]? = some x → x+W ≤ a) :
    Spaced N W (a :: log) := by
  intro i x y hx hy
  cases i with
  | zero =>
    have hi : 0+N = N-1+1 := by omega
    rw [getElem?_cons_zero, some.injEq] at hx
    rw [hi, getElem?_cons_succ] at hy
    subst hx
    exact ha y hy
  | succ i =>
    have hi : i+1+N = i+N+1 := by omega
    rw [getElem?_cons_succ] at hx
    rw [hi, getElem?_cons_succ] at hy
    exact h i x y hx hy

theorem countIn_le (hN : 1 ≤ N) (t : ℕ) (hsort : log.Pairwise (· ≥ ·)) (hspaced : Spaced N W log) :
    countIn t W log ≤ N := by
  induction log with
  | nil => exact Nat.zero_le N
  | cons a log ih =>
    rw [pairwise_cons] at hsort
    have hrest := ih hsort.2 hspaced.tail
    rw [countIn, countP_cons]
    by_cases ha : (t ≤ a && a < t+W) = true
    · -- From the `N`-th entry on, the log is before the window.
      have hold : (log.drop (N-1)).countP (fun x => t ≤ x && x < t+W) = 0 := by
        rw [countP_eq_zero]
        intro x hx hin
        have hlen : N-1 < log.length := by
          by_contra hge
          rw [drop_eq_nil_of_le (Nat.not_lt.mp hge)] at hx
          cases hx
        have hgap : log[N-1]+W ≤ a := by
          apply hspaced 0 a log[N-1] rfl
          have hN' : 0+N = N-1+1 := by omega
          rw [hN', getElem?_cons_succ]
          exact getElem?_eq_getElem hlen
        have hle : x ≤ log[N-1] := by
          have hdrop := hsort.2.sublist (drop_sublist (N-1) log)
          rw [drop_eq_getElem_cons hlen] at hx hdrop
          rcases mem_cons.mp hx with rfl | hx
          · exact le_rfl
          · exact (pairwise_cons.mp hdrop).1 x hx
        simp only [Bool.and_eq_true, decide_eq_true_eq] at ha hin
        omega
      have hnew : (log.take (N-1)).countP (fun x => t ≤ x && x < t+W) ≤ N-1 := by
        apply countP_le_length.trans
        rw [length_take]
        exact Nat.min_le_left _ _
      have hsplit : log.countP (fun x => t ≤ x && x < t+W) = (log.take (N-1)).countP (fun x => t ≤ x && x < t+W)+
            (log.drop (N-1)).countP (fun x => t ≤ x && x < t+W) := by
        rw [← countP_append, take_append_drop]
      rw [if_pos ha, hsplit, hold]
      omega
    · rw [if_neg ha]
      exact hrest

/-- A limiter for `N` entries in `W` keeps `value` of the log `value ++ older`: as long as it
keeps fewer than `N`, what it has dropped has left the window. -/
structure Kept (N W now : ℕ) (value older : List ℕ) : Prop where
  sorted : (value ++ older).Pairwise (· ≥ ·)
  past : ∀ x ∈ value ++ older, x ≤ now
  spaced : Spaced N W (value ++ older)
  few : value.length ≤ N
  dropped : value.length < N → ∀ x ∈ older, x+W ≤ now

variable {value older : List ℕ}

theorem Kept.empty (N W now : ℕ) : Kept N W now [] [] where
  sorted := List.Pairwise.nil
  past := by simp
  spaced := Spaced.nil
  few := Nat.zero_le N
  dropped := by simp

theorem Kept.mono (h : Kept N W now value older) (hnow : now ≤ now') : Kept N W now' value older where
  sorted := h.sorted
  past := fun x hx => (h.past x hx).trans hnow
  spaced := h.spaced
  few := h.few
  dropped := fun hlt x hx => (h.dropped hlt x hx).trans hnow

theorem Kept.lose (h : Kept N W now value older) (hN : 1 ≤ N) (hold : ∀ x ∈ value, x+W ≤ now) :
    Kept N W now [] (value ++ older) where
  sorted := h.sorted
  past := h.past
  spaced := h.spaced
  few := Nat.zero_le N
  dropped := by
    intro _ x hx
    rcases mem_append.mp hx with hx | hx
    · exact hold x hx
    · rcases Nat.lt_or_eq_of_le h.few with hlt | heq
      · exact h.dropped hlt x hx
      · -- What was dropped before is older than what was kept.
        obtain ⟨y, hy⟩ : ∃ y, y ∈ value := exists_mem_of_length_pos (by omega)
        have hxy : x ≤ y := (pairwise_append.mp h.sorted).2.2 y hy x hx
        have hnow := hold y hy
        omega

theorem getElem?_last {x : ℕ} (hN : 1 ≤ N) (hlen : value.length = N) (hlast : value.getLast? = some x) :
    (value ++ older)[N-1]? = some x := by
  rw [getElem?_append_left (by omega), ← hlast, getLast?_eq_getElem?, hlen]

/-- A new entry is admissible: fewer than `N` are kept, or the last one of them is old. -/
def Admits (N W now : ℕ) (value : List ℕ) : Prop :=
  value.length < N ∨ ∃ x, value.getLast? = some x ∧ x+W ≤ now

theorem Admits.mono (h : Admits N W now value) (hnow : now ≤ now') : Admits N W now' value := by
  rcases h with hlt | ⟨x, hx, hle⟩
  · exact .inl hlt
  · exact .inr ⟨x, hx, hle.trans hnow⟩

theorem Kept.spaced_push (h : Kept N W now value older) (hN : 1 ≤ N) (ha : Admits N W now value) :
    Spaced N W (now :: (value ++ older)) := by
  apply h.spaced.cons hN
  intro y hy
  rcases Nat.lt_or_eq_of_le h.few with hlt | heq
  · -- The `N`-th entry is one that was dropped.
    rw [getElem?_append_right (by omega)] at hy
    exact h.dropped hlt y (mem_of_getElem? hy)
  · rcases ha with hlt | ⟨x, hx, hle⟩
    · omega
    · rw [getElem?_last hN heq hx, some.injEq] at hy
      subst hy
      exact hle

/-- After a new entry, the `N` newest ones are kept. The entry may be a little old itself. -/
theorem Kept.push {a : ℕ} (h : Kept N W now value older) (ha : a ≤ now) (hlast : ∀ x ∈ value ++ older, x ≤ a)
    (hspaced : Spaced N W (a :: (value ++ older))) :
    Kept N W now ((a :: value).take N) ((a :: value).drop N ++ older) := by
  have hsplit : (a :: value).take N ++ ((a :: value).drop N ++ older) = a :: (value ++ older) := by
    rw [← append_assoc, take_append_drop, cons_append]
  refine ⟨?_, ?_, ?_, ?_, ?_⟩
  · rw [hsplit]
    exact pairwise_cons.mpr ⟨hlast, h.sorted⟩
  · rw [hsplit]
    exact forall_mem_cons.mpr ⟨ha, h.past⟩
  · rw [hsplit]
    exact hspaced
  · rw [length_take]
    exact Nat.min_le_left _ _
  · intro hlt x hx
    rw [length_take, length_cons] at hlt
    have hfew : value.length < N := by omega
    have hdrop : (a :: value).drop N = [] := drop_eq_nil_of_le (by rw [length_cons]; omega)
    rw [hdrop, nil_append] at hx
    exact h.dropped hfew x hx

theorem Kept.countIn_le (h : Kept N W now value older) (hN : 1 ≤ N) (t : ℕ) : countIn t W (value ++ older) ≤ N :=
  SlidingWindow.countIn_le hN t h.sorted h.spaced

end AiGateway.SlidingWindow
