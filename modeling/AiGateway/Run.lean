import Mathlib.Data.List.Basic

/-! Runs of a deterministic machine. A disabled action leaves the state alone, so
every list of actions is a run and every prefix of a run is one. -/
namespace AiGateway.Run

variable {S A : Type*}

def exec (step : S → A → S) (s : S) (as : List A) : S :=
  as.foldl step s

@[simp] theorem exec_nil (step : S → A → S) (s : S) : exec step s [] = s := rfl

@[simp] theorem exec_cons (step : S → A → S) (s : S) (a : A) (as : List A) :
    exec step s (a :: as) = exec step (step s a) as := rfl

theorem exec_append (step : S → A → S) (s : S) (as bs : List A) :
    exec step s (as ++ bs) = exec step (exec step s as) bs :=
  List.foldl_append

def Along (step : S → A → S) (ok : S → A → Prop) : S → List A → Prop
  | _, [] => True
  | s, a :: as => ok s a ∧ Along step ok (step s a) as

instance Along.decidable (step : S → A → S) (ok : S → A → Prop) [∀ s a, Decidable (ok s a)] :
    ∀ s as, Decidable (Along step ok s as)
  | _, [] => .isTrue trivial
  | s, a :: as => @instDecidableAnd _ _ _ (Along.decidable step ok (step s a) as)

variable {step : S → A → S} {ok : S → A → Prop} {as : List A}

theorem along_append {s : S} {bs : List A} :
    Along step ok s (as ++ bs) ↔ Along step ok s as ∧ Along step ok (exec step s as) bs := by
  induction as generalizing s with
  | nil => simp [Along]
  | cons a as ih =>
    rw [List.cons_append, Along, Along, ih, exec_cons, and_assoc]

theorem along_and {ok' : S → A → Prop} {s : S} (h : Along step ok s as) (h' : Along step ok' s as) :
    Along step (fun s a => ok s a ∧ ok' s a) s as := by
  induction as generalizing s with
  | nil => trivial
  | cons a as ih => exact ⟨⟨h.1, h'.1⟩, ih h.2 h'.2⟩

/-- Two conditions on steps that say the same where an invariant holds, which they keep. -/
theorem along_congr {ok' : S → A → Prop} (I : S → Prop) (hstep : ∀ s a, I s → ok s a → I (step s a))
    (hiff : ∀ s a, I s → (ok s a ↔ ok' s a)) {s : S} (hs : I s) :
    Along step ok s as ↔ Along step ok' s as := by
  induction as generalizing s with
  | nil => exact Iff.rfl
  | cons a as ih =>
    constructor
    · rintro ⟨ha, has⟩
      exact ⟨(hiff s a hs).mp ha, (ih (hstep s a hs ha)).mp has⟩
    · rintro ⟨ha, has⟩
      have hok := (hiff s a hs).mpr ha
      exact ⟨hok, (ih (hstep s a hs hok)).mpr has⟩

theorem exec_invariant (I : S → Prop) (hstep : ∀ s a, I s → ok s a → I (step s a)) (s : S) (as : List A)
    (hs : I s) (ha : Along step ok s as) : I (exec step s as) := by
  induction as generalizing s with
  | nil => exact hs
  | cons a as ih => exact ih (step s a) (hstep s a hs ha.1) ha.2

theorem exec_invariant_all (I : S → Prop) (hstep : ∀ s a, I s → I (step s a)) (s : S)
    (as : List A) (hs : I s) : I (exec step s as) := by
  induction as generalizing s with
  | nil => exact hs
  | cons a as ih => exact ih (step s a) (hstep s a hs)

def count (step : S → A → S) (P : S → A → Bool) : S → List A → ℕ
  | _, [] => 0
  | s, a :: as => (if P s a then 1 else 0)+count step P (step s a) as

def trace {B : Type*} (step : S → A → S) (out : S → A → List B) : S → List A → List B
  | _, [] => []
  | s, a :: as => out s a ++ trace step out (step s a) as

theorem trace_invariant {B : Type*} {out : S → A → List B} (I : S → List B → Prop)
    (hstep : ∀ s bs a, I s bs → ok s a → I (step s a) (bs ++ out s a)) {s : S} {bs : List B} (hs : I s bs)
    (ha : Along step ok s as) : I (exec step s as) (bs ++ trace step out s as) := by
  induction as generalizing s bs with
  | nil => rwa [trace, List.append_nil]
  | cons a as ih =>
    rw [trace, ← List.append_assoc]
    exact ih (hstep s bs a hs ha.1) ha.2

section Places

variable {α : Type*} {l : List α} {a b : α} {i j : ℕ}

theorem getElem?_concat_some (h : (l ++ [a])[i]? = some b) : l[i]? = some b ∨ i = l.length ∧ a = b := by
  by_cases hlt : i < l.length
  · rw [List.getElem?_append_left hlt] at h
    exact .inl h
  · rw [List.getElem?_append_right (Nat.not_lt.mp hlt), List.getElem?_singleton] at h
    split_ifs at h with hi
    exact .inr ⟨by omega, Option.some.inj h⟩

theorem getElem?_set_some (h : (l.set i a)[j]? = some b) : i = j ∧ a = b ∨ i ≠ j ∧ l[j]? = some b := by
  rw [List.getElem?_set] at h
  split_ifs at h with hij
  · exact .inl ⟨hij, Option.some.inj h⟩
  · exact .inr ⟨hij, h⟩

variable {P : α → Prop} (h : ∀ x ∈ l, P x) (ha : P a)
include h ha

theorem forall_mem_concat : ∀ x ∈ l ++ [a], P x :=
  List.forall_mem_append.mpr ⟨h, List.forall_mem_singleton.mpr ha⟩

theorem forall_mem_set (i : ℕ) : ∀ x ∈ l.set i a, P x := by
  intro x hx
  rcases List.mem_or_eq_of_mem_set hx with hx | rfl
  · exact h x hx
  · exact ha

end Places

section Once

variable {step : S → A → S} {ok : S → A → Prop} {P : S → A → Bool} (I Q : S → Prop)
  (hstep : ∀ s a, I s → ok s a → I (step s a)) (hP : ∀ s a, I s → ok s a → P s a = true → ¬ Q s)

include hstep hP

theorem count_eq_zero (hQ : ∀ s a, I s → ok s a → Q s → Q (step s a)) (s : S) (as : List A) (hs : I s)
    (hq : Q s)
    (ha : Along step ok s as) : count step P s as = 0 := by
  induction as generalizing s with
  | nil => rfl
  | cons a as ih =>
    have hnot : ¬ P s a = true := fun hp => hP s a hs ha.1 hp hq
    rw [count, if_neg hnot, ih (step s a) (hstep s a hs ha.1) (hQ s a hs ha.1 hq) ha.2]

/-- What can only happen before `Q` holds, and makes it hold for good, happens at most once. -/
theorem count_le_one (hmakes : ∀ s a, I s → ok s a → P s a = true → Q (step s a))
    (hQ : ∀ s a, I s → ok s a → Q s → Q (step s a)) (s : S) (as : List A) (hs : I s)
    (ha : Along step ok s as) : count step P s as ≤ 1 := by
  induction as generalizing s with
  | nil => exact Nat.zero_le 1
  | cons a as ih =>
    have hnext := hstep s a hs ha.1
    rw [count]
    split
    · next hp =>
      have hzero := count_eq_zero I Q hstep hP hQ (step s a) as hnext (hmakes s a hs ha.1 hp) ha.2
      omega
    · have hrest := ih (step s a) hnext ha.2
      omega

end Once

end AiGateway.Run
