import AiGateway.Interleave

/-! Processes that do not overlap: one finds `Idle` when it begins, keeps `Busy` while it is under way
and leaves `Idle` behind. -/
namespace AiGateway.Exclusive

open Interleave List

inductive Phase
  | waiting
  | underway
  | finished
deriving DecidableEq

structure Condition (S L C I E : Type*) where
  call : S → C → Prop
  run : S → L → I → Prop
  env : S → E → Prop
  during : S → L → E → Prop

variable {S L C I E : Type*}

def Condition.Ok (ok : Condition S L C I E) (phase : L → Phase) (x : System S L) : Action C I E → Prop
  | .call c => ok.call x.shared c
  | .run i input => ∀ l ∈ x.procs[i]?, ok.run x.shared l input ∧
      (phase l = .waiting → ∀ b ∈ x.procs, phase b ≠ .underway)
  | .env e => ok.env x.shared e ∧ ∀ l ∈ x.procs, phase l = .underway → ok.during x.shared l e

instance Condition.Ok.decidable (ok : Condition S L C I E) (phase : L → Phase) [∀ s c, Decidable (ok.call s c)]
    [∀ s l input, Decidable (ok.run s l input)] [∀ s e, Decidable (ok.env s e)]
    [∀ s l e, Decidable (ok.during s l e)] (x : System S L) (a : Action C I E) : Decidable (ok.Ok phase x a) := by
  cases a <;> unfold Condition.Ok <;> infer_instance

section

variable (phase : L → Phase) (Idle : S → Prop) (Busy : S → L → Prop)

def Leaves (out : S × L) : Prop :=
  if phase out.2 = .underway then Busy out.1 out.2 else Idle out.1

structure Keeps (m : Machine S L C I E) (ok : Condition S L C I E) : Prop where
  call : ∀ {s c}, ok.call s c → phase (m.start c s) = .waiting
  first : ∀ {s l input}, phase l = .waiting → ok.run s l input → Idle s →
    Leaves phase Idle Busy (m.next l s input)
  run : ∀ {s l input}, phase l = .underway → ok.run s l input → Busy s l →
    Leaves phase Idle Busy (m.next l s input)
  stop : ∀ {s l input}, phase l = .finished → m.next l s input = (s, l)
  env : ∀ {s e}, ok.env s e → Idle s → Idle (m.env s e)
  during : ∀ {s l e}, phase l = .underway → ok.env s e → ok.during s l e → Busy s l → Busy (m.env s e) l

inductive Holds (x : System S L) : Prop
  | idle (hnone : ∀ l ∈ x.procs, phase l ≠ .underway) (h : Idle x.shared)
  | busy (i : ℕ) (l : L) (hl : x.procs[i]? = some l) (hp : phase l = .underway)
      (hothers : ∀ j b, i ≠ j → x.procs[j]? = some b → phase b ≠ .underway) (h : Busy x.shared l)

end

variable {phase : L → Phase} {Idle : S → Prop} {Busy : S → L → Prop} {m : Machine S L C I E}
  {ok : Condition S L C I E}

theorem leaves_busy {s : S} {l : L} (hp : phase l = .underway) (h : Busy s l) : Leaves phase Idle Busy (s, l) := by
  rw [Leaves, if_pos hp]
  exact h

theorem leaves_idle {s : S} {l : L} (hp : phase l ≠ .underway) (h : Idle s) : Leaves phase Idle Busy (s, l) := by
  rw [Leaves, if_neg hp]
  exact h

theorem Holds.initial {s : S} (h : Idle s) : Holds phase Idle Busy ⟨s, []⟩ :=
  .idle (by simp) h

theorem Holds.call (hk : Keeps phase Idle Busy m ok) {x : System S L} (h : Holds phase Idle Busy x) {c : C}
    (hc : ok.call x.shared c) : Holds phase Idle Busy (m.step x (.call c)) := by
  have hwait := hk.call hc
  cases h with
  | idle hall hi =>
    refine .idle (Run.forall_mem_concat hall ?_) hi
    rw [hwait]
    decide
  | busy i l hl hp hothers hb =>
    have hlt : i < x.procs.length := (List.getElem?_eq_some_iff.mp hl).1
    refine .busy i l ?_ hp ?_ hb
    · rw [Machine.step, getElem?_append_left hlt]
      exact hl
    · intro j b hij hj
      rcases Run.getElem?_concat_some hj with hj | ⟨_, rfl⟩
      · exact hothers j b hij hj
      · rw [hwait]
        decide

theorem Holds.of_leaves {x : System S L} {i : ℕ} {l : L} {input : I} (hl : x.procs[i]? = some l)
    (hothers : ∀ j b, i ≠ j → x.procs[j]? = some b → phase b ≠ .underway)
    (h : Leaves phase Idle Busy (m.next l x.shared input)) : Holds phase Idle Busy (m.step x (.run i input)) := by
  have hlt : i < x.procs.length := (List.getElem?_eq_some_iff.mp hl).1
  rw [Machine.step_run input hl]
  unfold Leaves at h
  split at h
  · next hp =>
    refine .busy i _ (getElem?_set_self hlt) hp ?_ h
    intro j b hij hj
    rcases Run.getElem?_set_some hj with ⟨hji, _⟩ | ⟨_, hb⟩
    · exact absurd hji hij
    · exact hothers j b hij hb
  · next hp =>
    refine .idle ?_ h
    intro b hb
    obtain ⟨j, hj⟩ := mem_iff_getElem?.mp hb
    rcases Run.getElem?_set_some hj with ⟨_, rfl⟩ | ⟨hij, hb⟩
    · exact hp
    · exact hothers j b hij hb

section
variable {x : System S L} (hk : Keeps phase Idle Busy m ok) (h : Holds phase Idle Busy x)
include hk h

theorem Holds.run_step {i : ℕ} {l : L} {input : I} (hl : x.procs[i]? = some l)
    (hok : ok.run x.shared l input) (halone : phase l = .waiting → ∀ b ∈ x.procs, phase b ≠ .underway) :
    Holds phase Idle Busy (m.step x (.run i input)) := by
  cases hp : phase l with
  | finished =>
    have hsame : x.procs.set i l = x.procs := by
      obtain ⟨hlt, rfl⟩ := List.getElem?_eq_some_iff.mp hl
      exact set_getElem_self hlt
    rw [Machine.step_run input hl, hk.stop hp, hsame]
    exact h
  | waiting =>
    have hnone := halone hp
    cases h with
    | idle _ hi => exact .of_leaves hl (fun _ b _ hb => hnone b (mem_of_getElem? hb)) (hk.first hp hok hi)
    | busy j b hb hbusy => exact absurd hbusy (hnone b (mem_of_getElem? hb))
  | underway =>
    cases h with
    | idle hnone => exact absurd hp (hnone l (mem_of_getElem? hl))
    | busy j b hb hbusy hothers hbz =>
      -- The process of the step is the one that is under way.
      have hij : j = i := by
        by_contra hne
        exact hothers i l hne hl hp
      subst hij
      rw [hl, Option.some.injEq] at hb
      subst hb
      exact .of_leaves hl hothers (hk.run hp hok hbz)

theorem Holds.step (a : Action C I E) (ha : ok.Ok phase x a) : Holds phase Idle Busy (m.step x a) := by
  cases a with
  | call => exact h.call hk ha
  | run i input =>
    cases hl : x.procs[i]? with
    | none =>
      rw [Machine.step_run_none input hl]
      exact h
    | some l => exact h.run_step hk hl (ha l hl).1 (ha l hl).2
  | env =>
    cases h with
    | idle hnone hi => exact .idle hnone (hk.env ha.1 hi)
    | busy i l hl hp hothers hb =>
      exact .busy i l hl hp hothers (hk.during hp ha.1 (ha.2 l (mem_of_getElem? hl) hp) hb)

/-- The assertion holds after every run in which processes do not overlap. -/
theorem Holds.run (as : List (Action C I E)) (ha : Run.Along m.step (ok.Ok phase) x as) :
    Holds phase Idle Busy (Run.exec m.step x as) :=
  Run.exec_invariant (Holds phase Idle Busy) (fun _ a hx hok => hx.step hk a hok) x as h ha

end

end AiGateway.Exclusive
