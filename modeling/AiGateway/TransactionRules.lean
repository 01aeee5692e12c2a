import AiGateway.ReadCommitted
import Mathlib.Algebra.BigOperators.Group.List.Basic
import Mathlib.Algebra.Order.Group.Int
import Mathlib.Data.List.Induction
import Mathlib.Tactic.Abel

/-! Rules for programs of transactions under read-committed isolation: chained transactions, an item that
is closed at most once, a value that is added to, and work that is owed after a commit. -/
namespace AiGateway.ReadCommitted.Program

open List Run

variable {D W K L R : Type*} (p : Program D W K L R)

variable {x : System D W L R}

section Chain

variable [DecidableEq K]

variable (follow : R → Option L)

def chain (x : System D W L R) (a : ℕ × Option String) : System D W L R :=
  match x.txs[a.1]?, (p.step x a).txs[a.1]? with
  | some (.active _ _), some (.finished (.ok r)) =>
    match follow r with
    | some l => { p.step x a with txs := (p.step x a).txs.set a.1 (.active l []) }
    | none => p.step x a
  | _, _ => p.step x a

theorem chain_cases (x : System D W L R) (a : ℕ × Option String) : p.chain follow x a = p.step x a ∨
      ∃ l ws r l', x.txs[a.1]? = some (.active l ws) ∧ p.next l (p.view x.db ws) a.2 = .commit r ∧
        follow r = some l' ∧
        p.chain follow x a = ⟨p.view x.db ws, x.txs.set a.1 (.active l' []), x.log ++ [r]⟩ := by
  unfold chain
  split
  · next l ws r hi hdone =>
    split
    · next l' hf =>
      right
      have hlt : a.1 < x.txs.length := (List.getElem?_eq_some_iff.mp hi).1
      have hcase := p.step_case x a
      generalize p.step x a = y at hcase hdone
      cases hcase with
      | idle =>
        rw [hi] at hdone
        cases hdone
      | goto | write | rollback => simp [getElem?_set_self hlt] at hdone
      | @commit l₀ ws₀ r₀ hi' hn =>
        have hr : r₀ = r := by simpa [getElem?_set_self hlt] using hdone
        subst hr
        exact ⟨l₀, ws₀, r₀, l', hi', hn, hf, by simp⟩
    · exact .inl rfl
  · exact .inl rfl

theorem chain_db (x : System D W L R) (a : ℕ × Option String) :
    (p.chain follow x a).db = x.db ∨ ∃ l ws, x.txs[a.1]? = some (.active l ws) ∧
    (p.chain follow x a).db = p.view x.db ws := by
  rcases p.chain_cases follow x a with he | ⟨l, ws, _, _, hi, _, _, he⟩
  · rw [he]
    rcases step_db (p := p) x a with ⟨hdb, _⟩ | ⟨l, ws, _, hi, _, hs⟩
    · exact .inl hdb
    · rw [hs]
      exact .inr ⟨l, ws, hi, rfl⟩
  · rw [he]
    exact .inr ⟨l, ws, hi, rfl⟩

variable {p follow} {ok : L → D → Prop} {I : D → List R → Prop} {J : D → L → List W → Prop}

section
variable (hk : p.Keeps ok I J)
  (hfollow : ∀ {db log l ws f r l'}, I db log → J db l ws → p.next l (p.view db ws) f = .commit r →
    follow r = some l' → J (p.view db ws) l' [])
  (h : p.Inv I J x)
include hk hfollow h

/-- The invariant of a program is one of its chains when a commit establishes it for what
follows. -/
theorem Inv.chain (a : ℕ × Option String) (ha : p.StepOk ok x a) : p.Inv I J (p.chain follow x a) := by
  rcases p.chain_cases follow x a with he | ⟨l, ws, r, l', hi, hn, hf, he⟩
  · rw [he]
    exact Inv.step hk h a ha
  · -- First the commit, then the new transaction takes its place without any lock.
    have hj := h.running a.1 l ws hi
    have hcommit : p.Inv I J ⟨p.view x.db ws, x.txs.set a.1 (.finished (.ok r)), x.log ++ [r]⟩ :=
      h.set_finished hi _ _ _ (hk.commit h.data hj hn) (fun l' ws' hj' hap => hk.others h.data hj hn hj' hap)
    have hset := hcommit.set (i := a.1) (hfollow h.data hj hn hf) fun _ _ _ _ _ => nofun
    rwa [he, ← set_set]

theorem Inv.run_chain (as : List (ℕ × Option String)) (ha : Along (p.chain follow) (p.StepOk ok) x as) :
    p.Inv I J (exec (p.chain follow) x as) :=
  exec_invariant (p.Inv I J) (fun _ a hx hok => Inv.chain hk hfollow hx a hok) x as h ha

end

end Chain

section View

variable {p} {T : Type*} {f : D → T} {k : K}

theorem view_frame (hframe : ∀ db w, p.lock w ≠ k → f (p.apply db w) = f db) (db : D) (ws : List W)
    (hws : ∀ w ∈ ws, p.lock w ≠ k) : f (p.view db ws) = f db := by
  induction ws using reverseRecOn with
  | nil => rfl
  | append_singleton ws w ih =>
    rw [view_concat, hframe _ w (hws w (by simp))]
    exact ih (fun v hv => hws v (mem_append_left _ hv))

theorem view_apart (hframe : ∀ db w, p.lock w ≠ k → f (p.apply db w) = f db) (db : D) {ws ws' : List W}
    (hap : ∀ w ∈ ws, ∀ w' ∈ ws', p.lock w ≠ p.lock w') {v : W} (hv : v ∈ ws') (hvk : p.lock v = k) :
    f (p.view db ws) = f db :=
  view_frame hframe db ws (fun w hw hwk => hap w hw v hv (hwk.trans hvk.symm))

end View

/-- An item under the lock `k` that is open or not. A transaction that has closed it, and not
yet committed, is `closing`; its result `closes`. -/
structure ClosesOnce (k : K) (isOpen : D → Bool) (closing : L → Bool) (closes : R → Bool)
    (ok : L → D → Prop) : Prop where
  frame : ∀ db w, p.lock w ≠ k → isOpen (p.apply db w) = isOpen db
  goto : ∀ {l db f l'}, p.next l db f = .goto l' → closing l' = closing l
  other : ∀ {l db f w l'}, p.next l db f = .write w l' → p.lock w ≠ k → closing l' = closing l
  close : ∀ {l db f w l'}, p.next l db f = .write w l' → p.lock w = k →
    closing l = false ∧ closing l' = true ∧ (∀ db', isOpen (p.apply db' w) = false) ∧
      (ok l db → isOpen db = true)
  commit : ∀ {l db f r}, p.next l db f = .commit r → closes r = closing l

namespace ClosesOnce

variable {p} {k : K} {isOpen : D → Bool} {closing : L → Bool} {closes : R → Bool} {ok : L → D → Prop}

/-- A closing transaction holds the lock on an item that is still open for the others. -/
def Running (p : Program D W K L R) (k : K) (isOpen : D → Bool) (closing : L → Bool) (db : D) (l : L)
    (ws : List W) : Prop :=
  (closing l = true → isOpen db = true ∧ (∃ w ∈ ws, p.lock w = k) ∧
    ∀ db', isOpen (p.view db' ws) = false) ∧
    (closing l = false → ∀ w ∈ ws, p.lock w ≠ k)

def Closed (isOpen : D → Bool) (closes : R → Bool) (db₀ db : D) (log : List R) : Prop :=
  log.countP closes+(isOpen db).toNat = (isOpen db₀).toNat

theorem keeps (h : p.ClosesOnce k isOpen closing closes ok) (db₀ : D) :
    p.Keeps ok (Closed isOpen closes db₀) (Running p k isOpen closing) where
  goto := by
    intro db log l ws f l' _ hJ _ hn
    have hc := h.goto hn
    exact ⟨fun h' => hJ.1 (hc.symm.trans h'), fun h' => hJ.2 (hc.symm.trans h')⟩
  write := by
    intro db log l ws f w l' _ hJ hok hn
    by_cases hk : p.lock w = k
    · obtain ⟨hbefore, hafter, hcloses, hopen⟩ := h.close hn hk
      refine ⟨fun _ => ⟨?_, ⟨w, by simp, hk⟩, ?_⟩, fun hf => absurd (hafter.symm.trans hf) (by decide)⟩
      · -- The transaction sees the committed item.
        rw [← view_frame h.frame db ws (hJ.2 hbefore)]
        exact hopen hok
      · intro db'
        rw [view_concat]
        exact hcloses _
    · have hc := h.other hn hk
      refine ⟨fun h' => ?_, fun h' => ?_⟩
      · obtain ⟨hopen, ⟨v, hv, hvk⟩, hclosed⟩ := hJ.1 (hc.symm.trans h')
        refine ⟨hopen, ⟨v, mem_append_left _ hv, hvk⟩, ?_⟩
        intro db'
        rw [view_concat, h.frame _ w hk]
        exact hclosed db'
      · exact Run.forall_mem_concat (hJ.2 (hc.symm.trans h')) hk
  commit := by
    intro db log l ws f r hI hJ hn
    have hc := h.commit hn
    unfold Closed at hI ⊢
    rw [countP_append, countP_singleton, hc]
    cases hl : closing l with
    | true =>
      obtain ⟨hopen, _, hclosed⟩ := hJ.1 hl
      rw [hclosed db]
      rw [hopen] at hI
      simpa using hI
    | false =>
      rw [view_frame h.frame db ws (hJ.2 hl)]
      simpa using hI
  others := by
    intro db log l ws f r l' ws' _ _ _ hJ' hap
    refine ⟨fun h' => ?_, hJ'.2⟩
    obtain ⟨hopen, ⟨v, hv, hvk⟩, hclosed⟩ := hJ'.1 h'
    refine ⟨?_, ⟨v, hv, hvk⟩, hclosed⟩
    rw [view_apart h.frame db hap hv hvk]
    exact hopen

theorem Running.begin {db : D} {l : L} (hl : closing l = false) : Running p k isOpen closing db l [] :=
  ⟨fun h => absurd (hl.symm.trans h) (by decide), fun _ _ hw => by cases hw⟩

/-- Writes that change anything that only writes under the lock can change close the item. -/
theorem Running.closed_of_ne {T : Type*} {f : D → T}
    (hf : ∀ db w, p.lock w ≠ k → f (p.apply db w) = f db) {db : D} {l : L}
    {ws : List W} (hJ : Running p k isOpen closing db l ws) (hne : f (p.view db ws) ≠ f db) :
    isOpen db = true ∧ isOpen (p.view db ws) = false := by
  cases hl : closing l with
  | true =>
    obtain ⟨hopen, _, hclosed⟩ := hJ.1 hl
    exact ⟨hopen, hclosed db⟩
  | false => exact absurd (view_frame hf db ws (hJ.2 hl)) hne

end ClosesOnce

/-- A value under the lock `k`. A transaction has added `pending` to what it sees, and its
result says what it has added. -/
structure AddsTo {G : Type*} [AddCommGroup G] (k : K) (value : D → Option G) (pending : L → G) (gain : R → G)
    (ok : L → D → Prop) : Prop where
  congr : ∀ {db db'} w, value db = value db' → value (p.apply db w) = value (p.apply db' w)
  frame : ∀ db w, p.lock w ≠ k → value (p.apply db w) = value db
  goto : ∀ {l db f l'}, p.next l db f = .goto l' → pending l' = pending l
  other : ∀ {l db f w l'}, p.next l db f = .write w l' → p.lock w ≠ k → pending l' = pending l
  own : ∀ {l db f w l'}, p.next l db f = .write w l' → p.lock w = k → ok l db →
    value (p.apply db w) = (value db).map (fun v => v+(pending l'-pending l))
  commit : ∀ {l db f r}, p.next l db f = .commit r → gain r = pending l

namespace AddsTo

variable {p} {G : Type*} [AddCommGroup G] {k : K} {value : D → Option G} {pending : L → G}
  {gain : R → G} {ok : L → D → Prop}

def Running (p : Program D W K L R) (k : K) (value : D → Option G) (pending : L → G) (db : D) (l : L)
    (ws : List W) : Prop :=
  value (p.view db ws) = (value db).map (fun v => v+pending l) ∧ ((∀ w ∈ ws, p.lock w ≠ k) → pending l = 0)

def Total (value : D → Option G) (gain : R → G) (db₀ db : D) (log : List R) : Prop :=
  value db = (value db₀).map (fun v => v+(log.map gain).sum)

theorem view_congr (h : p.AddsTo k value pending gain ok) {db db' : D} (hv : value db = value db') (ws : List W) :
    value (p.view db ws) = value (p.view db' ws) := by
  induction ws using reverseRecOn with
  | nil => exact hv
  | append_singleton ws w ih =>
    rw [view_concat, view_concat]
    exact h.congr w ih

theorem keeps (h : p.AddsTo k value pending gain ok) (db₀ : D) :
    p.Keeps ok (Total value gain db₀) (Running p k value pending) where
  goto := by
    intro db log l ws f l' _ hJ _ hn
    unfold Running
    rw [h.goto hn]
    exact hJ
  write := by
    intro db log l ws f w l' _ hJ hok hn
    by_cases hk : p.lock w = k
    · refine ⟨?_, fun hnone => absurd hk (hnone w (by simp))⟩
      rw [view_concat, h.own hn hk hok, hJ.1, Option.map_map]
      congr 1
      funext v
      simp only [Function.comp_apply]
      abel
    · unfold Running
      rw [view_concat, h.frame _ w hk, h.other hn hk]
      exact ⟨hJ.1, fun hnone => hJ.2 (fun v hv => hnone v (mem_append_left _ hv))⟩
  commit := by
    intro db log l ws f r hI hJ hn
    unfold Total at hI ⊢
    rw [hJ.1, hI, Option.map_map, map_append, sum_append]
    congr 1
    funext v
    simp only [Function.comp_apply, map_cons, map_nil, sum_cons, sum_nil, h.commit hn]
    abel
  others := by
    intro db log l ws f r l' ws' _ _ _ hJ' hap
    refine ⟨?_, hJ'.2⟩
    by_cases hown : ∀ w ∈ ws', p.lock w ≠ k
    · rw [view_frame h.frame _ ws' hown, hJ'.2 hown]
      simp
    · -- This transaction holds the lock, so the value it was computed from has not moved.
      push Not at hown
      obtain ⟨v, hv, hvk⟩ := hown
      have hsame := view_apart h.frame db hap hv hvk
      rw [h.view_congr hsame ws', hsame]
      exact hJ'.1

theorem Running.begin {db : D} {l : L} (hl : pending l = 0) : Running p k value pending db l [] := by
  refine ⟨?_, fun _ => hl⟩
  simp [hl]

end AddsTo

/-- Every commit adds no more to `done` than it adds to `allowed` or takes from what its
transaction owes; what follows it may owe again. -/
structure Owes (follow : R → Option L) (owes : L → Int) (done allowed : R → Int) : Prop where
  goto : ∀ {l db f l'}, p.next l db f = .goto l' → owes l' ≤ owes l
  write : ∀ {l db f w l'}, p.next l db f = .write w l' → owes l' ≤ owes l
  nonneg : ∀ l, 0 ≤ owes l
  commit : ∀ {l db f r}, p.next l db f = .commit r → done r+((follow r).elim 0 owes) ≤ allowed r+owes l

namespace Owes

variable [DecidableEq K] {p} {follow : R → Option L} {owes : L → Int} {done allowed : R → Int}

def owed (owes : L → Int) : Tx W L R → Int
  | .active l _ => owes l
  | .finished _ => 0

theorem sum_set {i : ℕ} {t t' : Tx W L R} (h : x.txs[i]? = some t) :
    ((x.txs.set i t').map (owed owes)).sum = (x.txs.map (owed owes)).sum-owed owes t+owed owes t' := by
  obtain ⟨hn, rfl⟩ := List.getElem?_eq_some_iff.mp h
  have hlen : i < (x.txs.map (owed owes)).length := by simpa using hn
  rw [map_set, sum_set', dif_pos hlen, getElem_map]
  abel

/-- What was done and what is still owed is covered by what was allowed. -/
def Covered (owes : L → Int) (done allowed : R → Int) (x : System D W L R) : Prop :=
  (x.log.map done).sum+(x.txs.map (owed owes)).sum ≤ (x.log.map allowed).sum

theorem chain (h : p.Owes follow owes done allowed) (hx : Covered owes done allowed x)
    (a : ℕ × Option String) : Covered owes done allowed (p.chain follow x a) := by
  unfold Covered at hx ⊢
  rcases p.chain_cases follow x a with he | ⟨l, ws, r, l', hi, hn, hf, he⟩
  · rw [he]
    have hcase := p.step_case x a
    generalize p.step x a = y at hcase
    cases hcase
    case idle => exact hx
    case' goto hi hn => have hle := h.goto hn
    case' write hi hn => have hle := h.write hn
    case' rollback l ws e hi hn => have hnonneg := h.nonneg l
    case' commit l ws r hi hn =>
      have hle := h.commit hn
      have hrest : 0 ≤ (follow r).elim 0 owes := by
        cases follow r with
        | none => exact le_refl 0
        | some l' => exact h.nonneg l'
    all_goals
      rw [sum_set hi]
      simp only [owed, map_append, sum_append, map_cons, map_nil, sum_cons, sum_nil]
      omega
  · have hle := h.commit hn
    rw [hf, Option.elim_some] at hle
    rw [he, sum_set hi]
    simp only [owed, map_append, sum_append, map_cons, map_nil, sum_cons, sum_nil]
    omega

theorem run (h : p.Owes follow owes done allowed) (hx : Covered owes done allowed x)
    (as : List (ℕ × Option String)) : Covered owes done allowed (exec (p.chain follow) x as) :=
  exec_invariant_all (Covered owes done allowed) (fun _ a hx => h.chain hx a) x as hx

end Owes

end AiGateway.ReadCommitted.Program
