import Mathlib.Data.Int.CardIntervalMod
import Mathlib.Data.List.Rotate

/-! Places served in turn: a scan that goes round from behind the last place served and stops at the
first open one. -/
namespace AiGateway.RoundRobin

open List

variable (p : ℕ → Bool) (n : ℕ)

/-- The open places among the first `n`. -/
def places : List ℕ := (range n).filter p

def scan (start : ℕ) : Option ℕ := ((range n).map (fun i => (start+i) % n)).find? p

/-- Which of the open places is due when a scan starts at `start`. -/
def turn (opened : List ℕ) (start : ℕ) : ℕ := opened.countP (· < start)

variable {p n}

theorem places_succ : places p (n+1) = places p n ++ if p n then [n] else [] := by
  rw [places, range_succ, filter_append, filter_singleton]
  cases p n <;> rfl

theorem places_split {start : ℕ} (hs : start ≤ n) :
    places p n = places p start ++ ((range n).drop start).filter p ∧
      turn (places p n) start = (places p start).length := by
  have hbefore : ((range n).take start).filter p = places p start := by
    rw [take_range, min_eq_left hs, places]
  have hplaces : places p n = places p start ++ ((range n).drop start).filter p := by
    rw [← hbefore, ← filter_append, take_append_drop, places]
  refine ⟨hplaces, ?_⟩
  have hin : (places p start).countP (· < start) = (places p start).length := by
    rw [countP_eq_length]
    intro i hi
    simpa using (mem_filter.mp hi).1
  have hout : (((range n).drop start).filter p).countP (· < start) = 0 := by
    rw [countP_eq_zero]
    intro i hi
    have := (mem_filter.mp hi).1
    rw [range_eq_range', drop_range', mem_range'_1] at this
    simpa using this.1
  rw [turn, hplaces, countP_append, hin, hout, Nat.add_zero]

theorem scan_eq {start : ℕ} (hs : start < n) :
    scan p n start = (places p n)[turn (places p n) start % (places p n).length]? := by
  obtain ⟨hplaces, hturn⟩ := places_split (p := p) hs.le
  have hround : (range n).map (fun i => (start+i) % n) = (range n).drop start ++ range start := by
    have htake : (range n).take start = range start := by rw [take_range, min_eq_left hs.le]
    rw [← htake, ← rotate_eq_drop_append_take (by simpa using hs.le)]
    apply ext_getElem (by simp)
    intro i hi hi'
    simp [getElem_rotate, Nat.add_comm]
  rw [hturn, scan, hround, ← head?_filter, filter_append, ← places, ← rotate_append_length_eq,
    ← hplaces, ← rotate_mod,
    head?_eq_getElem?]
  cases places p n with
  | nil => simp
  | cons => rw [getElem?_rotate (by simp), Nat.zero_add, Nat.mod_mod]

theorem length_places {i j : ℕ} (h : (places p n)[j]? = some i) : i < n ∧ (places p (i+1)).length = j+1 := by
  induction n with
  | zero => simp [places] at h
  | succ n ih =>
    rw [places_succ] at h
    rcases lt_or_ge j (places p n).length with hj | hj
    · rw [getElem?_append_left hj] at h
      exact ⟨(ih h).1.trans n.lt_succ_self, (ih h).2⟩
    · rw [getElem?_append_right hj] at h
      by_cases hp : p n
      · obtain ⟨hlt, rfl⟩ : j - (places p n).length < 1 ∧ n = i := by simpa [hp, getElem?_eq_some_iff] using h
        exact ⟨n.lt_succ_self, by rw [places_succ, if_pos hp, length_append, length_singleton]; omega⟩
      · simp [hp] at h

theorem turn_next {start i : ℕ} (hs : start < n) (h : scan p n start = some i) :
    turn (places p n) ((i+1) % n) ≡ turn (places p n) start+1 [MOD (places p n).length] := by
  rw [scan_eq hs] at h
  obtain ⟨hi, hlength⟩ := length_places h
  have hround : turn (places p n) ((i+1) % n) ≡ (places p (i+1)).length [MOD (places p n).length] := by
    rcases (show i+1 ≤ n from hi).lt_or_eq with hlt | heq
    · rw [Nat.mod_eq_of_lt hlt, (places_split hlt.le).2]
    · rw [heq, Nat.mod_self, (places_split n.zero_le).2]
      exact (Nat.modEq_zero_iff_dvd.mpr (dvd_refl _)).symm
  rw [hlength] at hround
  exact hround.trans ((Nat.mod_modEq _ _).add_right 1)

end AiGateway.RoundRobin
