import AiGateway.Run
import Mathlib.Algebra.Order.BigOperators.Group.List
import Mathlib.Algebra.Order.Ring.Nat
import Mathlib.Tactic.Common

/-! Processes over a shared state. A step of a process is atomic; calls begin at any time, and the
environment changes the shared state between the steps. -/
namespace AiGateway.Interleave

open List Option Run

structure System (S L : Type*) where
  shared : S
  procs : List L

inductive Action (C I E : Type*)
  | call (c : C)
  -- The next step of one process, with what the environment decides about it.
  | run (i : ℕ) (input : I)
  | env (e : E)
deriving DecidableEq

structure Machine (S L C I E : Type*) where
  start : C → S → L
  next : L → S → I → S × L
  env : S → E → S

variable {S L C I E : Type*}

namespace Machine

def step (m : Machine S L C I E) (x : System S L) : Action C I E → System S L
  | .call c => { x with procs := x.procs ++ [m.start c x.shared] }
  | .run i input =>
    match x.procs[i]? with
    | none => x
    | some l => ⟨(m.next l x.shared input).1, x.procs.set i (m.next l x.shared input).2⟩
  | .env e => { x with shared := m.env x.shared e }

variable {m : Machine S L C I E}

theorem step_run {x : System S L} {i : ℕ} {l : L} (input : I) (h : x.procs[i]? = some l) :
    m.step x (.run i input) = ⟨(m.next l x.shared input).1, x.procs.set i (m.next l x.shared input).2⟩ := by
  simp only [step, h]

theorem step_run_none {x : System S L} {i : ℕ} (input : I) (h : x.procs[i]? = none) :
    m.step x (.run i input) = x := by
  simp only [step, h]

end Machine

structure Guard (S L C I E : Type*) where
  call : S → C → Prop
  run : S → L → I → Prop
  env : S → E → Prop

def Guard.all : Guard S L C I E := ⟨fun _ _ => True, fun _ _ _ => True, fun _ _ => True⟩

def Guard.Ok (ok : Guard S L C I E) (x : System S L) : Action C I E → Prop
  | .call c => ok.call x.shared c
  | .run i input => ∀ l ∈ x.procs[i]?, ok.run x.shared l input
  | .env e => ok.env x.shared e

abbrev Guard.decideOk (ok : Guard S L C I E) (call : ∀ s c, Decidable (ok.call s c))
    (run : ∀ s l input, Decidable (ok.run s l input)) (env : ∀ s e, Decidable (ok.env s e)) (x : System S L) :
    (a : Action C I E) → Decidable (ok.Ok x a)
  | .call c => call x.shared c
  | .run i input => inferInstanceAs (Decidable (∀ l ∈ x.procs[i]?, ok.run x.shared l input))
  | .env e => env x.shared e

theorem Guard.all_ok (x : System S L) (a : Action C I E) : Guard.all.Ok x a := by
  cases a with
  | call => trivial
  | run => exact fun _ _ => trivial
  | env => trivial

/-- What is to hold of the shared state, of each process, of any two processes, and of the
amounts `value` of the shared state that the processes hold between them. -/
structure Assertion (S L κ : Type*) where
  shared : S → Prop
  own : S → L → Prop
  pair : S → L → L → Prop
  value : S → κ → ℕ
  weight : L → κ → ℕ

section Sums

variable {α : Type*} (f : α → ℕ)

theorem sum_map_set {l : List α} {i : ℕ} {a : α} (h : l[i]? = some a) (b : α) :
    ((l.set i b).map f).sum+f a = (l.map f).sum+f b := by
  induction l generalizing i with
  | nil => cases h
  | cons x l ih =>
    cases i with
    | zero =>
      rw [getElem?_cons_zero, some.injEq] at h
      subst h
      simp only [set_cons_zero, map_cons, sum_cons]
      omega
    | succ =>
      rw [getElem?_cons_succ] at h
      have hrest := ih h
      simp only [set_cons_succ, map_cons, sum_cons]
      omega

theorem le_sum_map {l : List α} {i : ℕ} {a : α} (h : l[i]? = some a) : f a ≤ (l.map f).sum :=
  single_le_sum (fun _ _ => Nat.zero_le _) _ (mem_map_of_mem (mem_of_getElem? h))

theorem add_le_sum_map {l : List α} {i j : ℕ} {a b : α} (hij : i ≠ j) (ha : l[i]? = some a)
    (hb : l[j]? = some b) :
    f a+f b ≤ (l.map f).sum := by
  obtain ⟨hi, rfl⟩ := List.getElem?_eq_some_iff.mp ha
  have hmem : b ∈ l.eraseIdx i := mem_eraseIdx_iff_getElem?.mpr ⟨j, hij.symm, hb⟩
  have hsum := ((getElem_cons_eraseIdx_perm hi).map f).sum_eq
  have hle : f b ≤ ((l.eraseIdx i).map f).sum := single_le_sum (fun _ _ => Nat.zero_le _) _ (mem_map_of_mem hmem)
  rw [map_cons, sum_cons] at hsum
  omega

end Sums

variable {κ : Type*} {m : Machine S L C I E} {ok : Guard S L C I E} {A : Assertion S L κ}

structure Holds (A : Assertion S L κ) (x : System S L) : Prop where
  shared : A.shared x.shared
  own : ∀ (i : ℕ) l, x.procs[i]? = some l → A.own x.shared l
  pair : ∀ (i j : ℕ) a b, i ≠ j → x.procs[i]? = some a → x.procs[j]? = some b → A.pair x.shared a b
  total : ∀ k, (x.procs.map (fun l => A.weight l k)).sum = A.value x.shared k

/-- What has to be shown of the single steps. A step keeps the assertions of its own
process, and it does not disturb those of the others. -/
structure Keeps (m : Machine S L C I E) (ok : Guard S L C I E) (A : Assertion S L κ) : Prop where
  symm : ∀ {s a b}, A.pair s a b → A.pair s b a
  call : ∀ {s c}, A.shared s → ok.call s c → A.own s (m.start c s) ∧ ∀ k, A.weight (m.start c s) k = 0
  call_pair : ∀ {s c l}, A.shared s → ok.call s c → A.own s l → A.pair s l (m.start c s)
  run : ∀ {s l input}, A.shared s → A.own s l → (∀ k, A.weight l k ≤ A.value s k) → ok.run s l input →
    A.shared (m.next l s input).1 ∧ A.own (m.next l s input).1 (m.next l s input).2 ∧
      ∀ k, A.value (m.next l s input).1 k+A.weight l k = A.value s k+A.weight (m.next l s input).2 k
  other : ∀ {s l input b}, A.shared s → A.own s l → A.own s b → A.pair s l b →
    (∀ k, A.weight l k+A.weight b k ≤ A.value s k) → ok.run s l input →
    A.own (m.next l s input).1 b ∧ A.pair (m.next l s input).1 (m.next l s input).2 b
  others : ∀ {s l input a b}, A.shared s → A.own s l → A.own s a → A.own s b → A.pair s l a →
    A.pair s l b →
    A.pair s a b → ok.run s l input → A.pair (m.next l s input).1 a b
  env : ∀ {s e}, A.shared s → ok.env s e → A.shared (m.env s e) ∧ ∀ k, A.value (m.env s e) k = A.value s k
  env_own : ∀ {s e l}, A.shared s → ok.env s e → A.own s l → A.own (m.env s e) l
  env_pair : ∀ {s e a b}, A.shared s → ok.env s e → A.pair s a b → A.pair (m.env s e) a b

theorem Holds.initial {s : S} (hs : A.shared s) (hv : ∀ k, A.value s k = 0) : Holds A ⟨s, []⟩ :=
  ⟨hs, nofun, nofun, fun k => (hv k).symm⟩

section
variable {x : System S L} (hk : Keeps m ok A) (h : Holds A x)
include hk h

theorem Holds.call {c : C} (hc : ok.call x.shared c) : Holds A (m.step x (.call c)) := by
  obtain ⟨hown, hzero⟩ := hk.call h.shared hc
  refine ⟨h.shared, ?_, ?_, ?_⟩
  · intro i l hi
    rcases getElem?_concat_some hi with hi | ⟨_, rfl⟩
    · exact h.own i l hi
    · exact hown
  · intro i j a b hij ha hb
    rcases getElem?_concat_some ha with ha | ⟨hia, rfl⟩
    · rcases getElem?_concat_some hb with hb | ⟨_, rfl⟩
      · exact h.pair i j a b hij ha hb
      · exact hk.call_pair h.shared hc (h.own i a ha)
    · rcases getElem?_concat_some hb with hb | ⟨hjb, _⟩
      · exact hk.symm (hk.call_pair h.shared hc (h.own j b hb))
      · exact absurd (hia.trans hjb.symm) hij
  · intro k
    have hk := h.total k
    simp only [Machine.step, map_append, map_singleton, sum_append, sum_singleton, hzero k]
    omega

theorem Holds.run_step {i : ℕ} {input : I} {l : L} (hl : x.procs[i]? = some l)
    (hok : ok.run x.shared l input) : Holds A (m.step x (.run i input)) := by
  have hw (k : κ) : A.weight l k ≤ A.value x.shared k := by
    rw [← h.total k]
    exact le_sum_map (fun l => A.weight l k) hl
  obtain ⟨hs, hown, hsum⟩ := hk.run h.shared (h.own i l hl) hw hok
  -- What the step leaves to each of the other processes.
  have hother (j : ℕ) (b : L) (hij : i ≠ j) (hb : x.procs[j]? = some b) :=
    hk.other h.shared (h.own i l hl) (h.own j b hb) (h.pair i j l b hij hl hb)
      (fun k => by
        rw [← h.total k]
        exact add_le_sum_map (fun l => A.weight l k) hij hl hb) hok
  rw [Machine.step_run input hl]
  refine ⟨hs, ?_, ?_, ?_⟩
  · intro j b hj
    rcases getElem?_set_some hj with ⟨_, rfl⟩ | ⟨hij, hb⟩
    · exact hown
    · exact (hother j b hij hb).1
  · intro j j' a b hjj ha hb
    rcases getElem?_set_some ha with ⟨hia, rfl⟩ | ⟨hia, ha⟩
    · rcases getElem?_set_some hb with ⟨hib, _⟩ | ⟨hib, hb⟩
      · exact absurd (hia.symm.trans hib) hjj
      · exact (hother j' b hib hb).2
    · rcases getElem?_set_some hb with ⟨_, rfl⟩ | ⟨hib, hb⟩
      · exact hk.symm (hother j a hia ha).2
      · exact hk.others h.shared (h.own i l hl) (h.own j a ha) (h.own j' b hb) (h.pair i j l a hia hl ha)
          (h.pair i j' l b hib hl hb) (h.pair j j' a b hjj ha hb) hok
  · intro k
    have hset := sum_map_set (fun l => A.weight l k) hl (m.next l x.shared input).2
    have htotal := h.total k
    have hstep := hsum k
    dsimp only at hset ⊢
    omega

theorem Holds.step (a : Action C I E) (ha : ok.Ok x a) : Holds A (m.step x a) := by
  cases a with
  | call => exact h.call hk ha
  | run i input =>
    cases hl : x.procs[i]? with
    | none =>
      rw [Machine.step_run_none input hl]
      exact h
    | some l => exact h.run_step hk hl (ha l hl)
  | env =>
    obtain ⟨hs, hv⟩ := hk.env h.shared ha
    exact ⟨hs, fun i l hi => hk.env_own h.shared ha (h.own i l hi),
      fun i j a b hij hi hj => hk.env_pair h.shared ha (h.pair i j a b hij hi hj),
      fun k => (h.total k).trans (hv k).symm⟩

theorem Holds.run (as : List (Action C I E)) (ha : Along m.step ok.Ok x as) : Holds A (exec m.step x as) :=
  exec_invariant (Holds A) (fun _ a hx hok => hx.step hk a hok) x as h ha

end

theorem Holds.run_all (hk : Keeps m Guard.all A) {x : System S L} (h : Holds A x) (as : List (Action C I E)) :
    Holds A (exec m.step x as) :=
  exec_invariant_all (Holds A) (fun y a hy => hy.step hk a (Guard.all_ok y a)) x as h

end AiGateway.Interleave
