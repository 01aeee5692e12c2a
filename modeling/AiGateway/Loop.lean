import Mathlib.Order.Basic
import Mathlib.Tactic.Common

/-! A loop whose body either goes on with a new state or ends with a result. Each round gets
an input from outside. `run` gives up when its fuel is used up. -/
namespace AiGateway.Loop

variable {S I R : Type*}

def run (body : S → I → S ⊕ R) : ℕ → (ℕ → I) → S → Option R
  | 0, _, _ => none
  | fuel+1, inputs, s =>
    match body s (inputs 0) with
    | .inl s' => run body fuel (fun n => inputs (n+1)) s'
    | .inr r => some r

/-- A loop with an invariant and a measure that falls in every round ends, with every fuel
above the measure, and its result satisfies the postcondition. -/
theorem run_ends {body : S → I → S ⊕ R} (inv : S → Prop) (measure : S → ℕ) (post : R → Prop)
    (hgo : ∀ s i s', inv s → body s i = .inl s' → inv s' ∧ measure s' < measure s)
    (hend : ∀ s i r, inv s → body s i = .inr r → post r) (s : S) (hs : inv s) (inputs : ℕ → I) :
    ∃ r, post r ∧ ∀ fuel, measure s < fuel → run body fuel inputs s = some r := by
  induction hm : measure s using Nat.strongRecOn generalizing s inputs with
  | _ n ih =>
    subst hm
    cases hb : body s (inputs 0) with
    | inl s' =>
      obtain ⟨hs', hlt⟩ := hgo s _ s' hs hb
      obtain ⟨r, hr, hrun⟩ := ih (measure s') hlt s' hs' (fun n => inputs (n+1)) rfl
      refine ⟨r, hr, ?_⟩
      intro fuel hf
      cases fuel with
      | zero => omega
      | succ fuel =>
        simp only [run, hb]
        exact hrun fuel (by omega)
    | inr r =>
      refine ⟨r, hend s _ r hs hb, ?_⟩
      intro fuel hf
      cases fuel with
      | zero => omega
      | succ => simp only [run, hb]

theorem run_post {body : S → I → S ⊕ R} (inv : S → Prop) (post : R → Prop)
    (hgo : ∀ s i s', inv s → body s i = .inl s' → inv s')
    (hend : ∀ s i r, inv s → body s i = .inr r → post r) {s : S} (hs : inv s) {inputs : ℕ → I}
    {fuel : ℕ} {r : R}
    (h : run body fuel inputs s = some r) : post r := by
  induction fuel generalizing s inputs with
  | zero => cases h
  | succ fuel ih =>
    cases hb : body s (inputs 0) with
    | inl s' =>
      simp only [run, hb] at h
      exact ih (hgo s _ s' hs hb) h
    | inr r' =>
      simp only [run, hb, Option.some.injEq] at h
      subst h
      exact hend s _ r' hs hb

end AiGateway.Loop
