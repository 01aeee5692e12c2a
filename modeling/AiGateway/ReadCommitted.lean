import AiGateway.Run
import Mathlib.Tactic.Common

/-! Transactions under read-committed isolation. A statement reads the committed database with the
transaction's own writes on top; a write takes a lock until the transaction ends. Reads take none. -/
namespace AiGateway.ReadCommitted

open List Run

inductive Effect (W L R : Type*)
  | goto (l : L)
  | write (w : W) (l : L)
  | commit (r : R)
  | rollback (e : String)

def Effect.map {W L L' R R' : Type*} (f : L → L') (g : R → R') : Effect W L R → Effect W L' R'
  | .goto l => .goto (f l)
  | .write w l => .write w (f l)
  | .commit r => .commit (g r)
  | .rollback e => .rollback e

namespace Effect

variable {W L L' R R' : Type*} {f : L → L'} {g : R → R'} {e : Effect W L R}

theorem map_eq_goto {l' : L'} (h : e.map f g = .goto l') : ∃ l, e = .goto l ∧ f l = l' := by
  cases e with
  | goto l => exact ⟨l, rfl, by simpa [map] using h⟩
  | write | commit | rollback => cases h

theorem map_eq_write {w : W} {l' : L'} (h : e.map f g = .write w l') : ∃ l, e = .write w l ∧ f l = l' := by
  cases e with
  | goto => cases h
  | write v l =>
    obtain ⟨rfl, hl⟩ : v = w ∧ f l = l' := by simpa [map] using h
    exact ⟨l, rfl, hl⟩
  | commit | rollback => cases h

theorem map_eq_commit {r' : R'} (h : e.map f g = .commit r') : ∃ r, e = .commit r ∧ g r = r' := by
  cases e with
  | goto | write => cases h
  | commit r => exact ⟨r, rfl, by simpa [map] using h⟩
  | rollback => cases h

end Effect

/-- The database `D`, its writes `W` with their locks `K`, the local states `L` of a
transaction and its results `R`. The last argument of `next` is the error with which the
environment makes the statement fail. -/
structure Program (D W K L R : Type*) where
  apply : D → W → D
  lock : W → K
  next : L → D → Option String → Effect W L R

inductive Tx (W L R : Type*)
  | active (l : L) (writes : List W)
  | finished (result : Except String R)

/-- The committed database, the transactions, and the results of those that have
committed, in the order of their commits. -/
structure System (D W L R : Type*) where
  db : D
  txs : List (Tx W L R)
  log : List R

def System.initial {D W L R : Type*} (db : D) (ls : List L) : System D W L R :=
  ⟨db, ls.map (fun l => .active l []), []⟩

namespace Program

variable {D W K L R : Type*} (p : Program D W K L R)

def view (db : D) (writes : List W) : D := writes.foldl p.apply db

@[simp] theorem view_nil (db : D) : p.view db [] = db := rfl

theorem view_concat (db : D) (ws : List W) (w : W) : p.view db (ws ++ [w]) = p.apply (p.view db ws) w := by
  rw [view, foldl_append]
  rfl

section Step

variable [DecidableEq K]

def holds (k : K) : Tx W L R → Bool
  | .active _ ws => ws.any (fun w => p.lock w = k)
  | .finished _ => false

def free (txs : List (Tx W L R)) (i : ℕ) (k : K) : Bool :=
  (txs.eraseIdx i).all (fun t => !p.holds k t)

def step (x : System D W L R) (a : ℕ × Option String) : System D W L R :=
  match x.txs[a.1]? with
  | some (.active l ws) =>
    match p.next l (p.view x.db ws) a.2 with
    | .goto l' => { x with txs := x.txs.set a.1 (.active l' ws) }
    | .write w l' =>
      if p.free x.txs a.1 (p.lock w) then { x with txs := x.txs.set a.1 (.active l' (ws ++ [w])) } else x
    | .commit r => ⟨p.view x.db ws, x.txs.set a.1 (.finished (.ok r)), x.log ++ [r]⟩
    | .rollback e => { x with txs := x.txs.set a.1 (.finished (.error e)) }
  | _ => x

end Step

def Apart (ws ws' : List W) : Prop := ∀ w ∈ ws, ∀ w' ∈ ws', p.lock w ≠ p.lock w'

/-- What has to be shown for an invariant `I` of the committed data and `J` of each running transaction, when every
statement executed meets `ok`. -/
structure Keeps (ok : L → D → Prop) (I : D → List R → Prop) (J : D → L → List W → Prop) : Prop where
  goto : ∀ {db log l ws f l'}, I db log → J db l ws → ok l (p.view db ws) →
    p.next l (p.view db ws) f = .goto l' → J db l' ws
  write : ∀ {db log l ws f w l'}, I db log → J db l ws → ok l (p.view db ws) →
    p.next l (p.view db ws) f = .write w l' → J db l' (ws ++ [w])
  commit : ∀ {db log l ws f r}, I db log → J db l ws →
    p.next l (p.view db ws) f = .commit r → I (p.view db ws) (log ++ [r])
  others : ∀ {db log l ws f r l' ws'}, I db log → J db l ws → p.next l (p.view db ws) f = .commit r →
    J db l' ws' → p.Apart ws ws' → J (p.view db ws) l' ws'

structure Inv (I : D → List R → Prop) (J : D → L → List W → Prop) (x : System D W L R) : Prop where
  data : I x.db x.log
  running : ∀ (i : ℕ) l ws, x.txs[i]? = some (.active l ws) → J x.db l ws
  apart : ∀ (i j : ℕ) l ws l' ws', i ≠ j → x.txs[i]? = some (.active l ws) →
    x.txs[j]? = some (.active l' ws') →
    p.Apart ws ws'

def StepOk (ok : L → D → Prop) (x : System D W L R) (a : ℕ × Option String) : Prop :=
  match x.txs[a.1]? with
  | some (.active l ws) => ok l (p.view x.db ws)
  | _ => True

instance (ok : L → D → Prop) [∀ l db, Decidable (ok l db)] (x : System D W L R) (a : ℕ × Option String) :
    Decidable (p.StepOk ok x a) := by
  unfold StepOk
  split <;> infer_instance

variable {p} {ok : L → D → Prop} {I : D → List R → Prop} {J : D → L → List W → Prop}

variable {txs : List (Tx W L R)} {i : ℕ} {ws : List W} {x : System D W L R}

theorem Apart.symm {ws' : List W} (h : p.Apart ws ws') : p.Apart ws' ws := fun w hw w' hw' => (h w' hw' w hw).symm

theorem Inv.set (h : p.Inv I J x) {l' : L} {ws' : List W} (hj : J x.db l' ws')
    (hnew : ∀ (j : ℕ) l ws, i ≠ j → x.txs[j]? = some (.active l ws) → p.Apart ws' ws) :
    p.Inv I J { x with txs := x.txs.set i (.active l' ws') } := by
  refine ⟨h.data, ?_, ?_⟩
  · intro j lj wj hjt
    rcases getElem?_set_some hjt with ⟨_, he⟩ | ⟨_, hold⟩
    · cases he
      exact hj
    · exact h.running j lj wj hold
  · intro a b la wa lb wb hab ha hb
    rcases getElem?_set_some ha with ⟨hia, he⟩ | ⟨hia, hoa⟩
    · cases he
      rcases getElem?_set_some hb with ⟨hib, _⟩ | ⟨hib, hob⟩
      · exact absurd (hia.symm.trans hib) hab
      · exact hnew b lb wb hib hob
    · rcases getElem?_set_some hb with ⟨hib, he⟩ | ⟨_, hob⟩
      · cases he
        exact (hnew a la wa hia hoa).symm
      · exact h.apart a b la wa lb wb hab hoa hob

theorem Inv.set_active (h : p.Inv I J x) {l l' : L} {ws' : List W}
    (hi : x.txs[i]? = some (.active l ws)) (hj : J x.db l' ws')
    (hws : ∀ w ∈ ws', w ∈ ws ∨ ∀ (j : ℕ) l'' ws'', j ≠ i → x.txs[j]? = some (.active l'' ws'') →
      ∀ w'' ∈ ws'', p.lock w'' ≠ p.lock w) : p.Inv I J { x with txs := x.txs.set i (.active l' ws') } := by
  -- Old locks were apart before; a new one was free when it was taken.
  refine h.set hj fun j lj wj hij hj w hw w' hw' => ?_
  rcases hws w hw with hin | hfree
  · exact h.apart i j l ws lj wj hij hi hj w hin w' hw'
  · exact Ne.symm (hfree j lj wj (Ne.symm hij) hj w' hw')

theorem Inv.set_finished (h : p.Inv I J x) {l : L}
    (hi : x.txs[i]? = some (.active l ws)) (db : D) (log : List R) (result : Except String R) (hdata : I db log)
    (hj : ∀ l' ws', J x.db l' ws' → p.Apart ws ws' → J db l' ws') :
    p.Inv I J ⟨db, x.txs.set i (.finished result), log⟩ := by
  refine ⟨hdata, ?_, ?_⟩
  · intro j lj wj hjt
    rcases getElem?_set_some hjt with ⟨_, he⟩ | ⟨hij, hold⟩
    · cases he
    · exact hj lj wj (h.running j lj wj hold) (h.apart i j l ws lj wj hij hi hold)
  · intro a b la wa lb wb hab ha hb
    rcases getElem?_set_some ha with ⟨_, he⟩ | ⟨_, hoa⟩
    · cases he
    · rcases getElem?_set_some hb with ⟨_, he⟩ | ⟨_, hob⟩
      · cases he
      · exact h.apart a b la wa lb wb hab hoa hob

theorem Inv.initial {db : D} {ls : List L} (hI : I db []) (hJ : ∀ l ∈ ls, J db l []) :
    p.Inv I J (System.initial db ls) := by
  have hat (i : ℕ) (l : L) (ws : List W) (h : (System.initial db ls : System D W L R).txs[i]? = some (.active l ws)) :
      l ∈ ls ∧ ws = [] := by
    simp only [System.initial, getElem?_map, Option.map_eq_some_iff] at h
    obtain ⟨l', hl', he⟩ := h
    cases he
    exact ⟨mem_of_getElem? hl', rfl⟩
  refine ⟨hI, ?_, ?_⟩
  · intro i l ws hi
    obtain ⟨hl, rfl⟩ := hat i l ws hi
    exact hJ l hl
  · intro i j l ws l' ws' _ hi _ w hw
    obtain ⟨_, rfl⟩ := hat i l ws hi
    cases hw

variable [DecidableEq K]

theorem free_iff {k : K} (h : p.free txs i k = true) :
    ∀ (j : ℕ) l ws, j ≠ i → txs[j]? = some (.active l ws) → ∀ w ∈ ws, p.lock w ≠ k := by
  intro j l ws hji hj w hw hk
  -- The holder would be among the other transactions.
  have hmem : .active l ws ∈ txs.eraseIdx i := mem_eraseIdx_iff_getElem?.mpr ⟨j, hji, hj⟩
  have hnot := all_eq_true.mp h _ hmem
  have hholds : p.holds k (.active l ws : Tx W L R) = true := by
    rw [holds, any_eq_true]
    exact ⟨w, hw, by simpa using hk⟩
  rw [hholds] at hnot
  cases hnot

theorem Inv.step (hk : p.Keeps ok I J) (h : p.Inv I J x) (a : ℕ × Option String)
    (ha : p.StepOk ok x a) : p.Inv I J (p.step x a) := by
  unfold StepOk at ha
  unfold Program.step
  split
  · next l ws hi =>
    rw [hi] at ha
    have hj := h.running a.1 l ws hi
    split
    · next l' hn =>
      exact h.set_active hi (hk.goto h.data hj ha hn) (fun w hw => .inl hw)
    · next w l' hn =>
      split
      · next hfree =>
        exact h.set_active hi (hk.write h.data hj ha hn)
          (Run.forall_mem_concat (fun _ hv => .inl hv) (.inr (free_iff hfree)))
      · exact h
    · next r hn =>
      -- Only here does the committed database change under the other transactions.
      exact h.set_finished hi _ _ _ (hk.commit h.data hj hn)
        (fun l' ws' hj' hap => hk.others h.data hj hn hj' hap)
    · next e hn =>
      -- A rollback drops the writes.
      exact h.set_finished hi _ _ _ h.data (fun _ _ hj' _ => hj')
  · exact h

theorem Inv.run (hk : p.Keeps ok I J) (h : p.Inv I J x) (as : List (ℕ × Option String))
    (ha : Along p.step (p.StepOk ok) x as) : p.Inv I J (exec p.step x as) :=
  exec_invariant (p.Inv I J) (fun _ a hx hok => Inv.step hk hx a hok) x as h ha

variable (p)

inductive StepCase (x : System D W L R) (a : ℕ × Option String) : System D W L R → Prop
  | idle : StepCase x a x
  | goto {l : L} {ws : List W} {l' : L} (hi : x.txs[a.1]? = some (.active l ws))
      (hn : p.next l (p.view x.db ws) a.2 = .goto l') : StepCase x a { x with txs := x.txs.set a.1 (.active l' ws) }
  | write {l : L} {ws : List W} {w : W} {l' : L} (hi : x.txs[a.1]? = some (.active l ws))
      (hn : p.next l (p.view x.db ws) a.2 = .write w l') : StepCase x a
        { x with txs := x.txs.set a.1 (.active l' (ws ++ [w])) }
  | commit {l : L} {ws : List W} {r : R} (hi : x.txs[a.1]? = some (.active l ws))
      (hn : p.next l (p.view x.db ws) a.2 = .commit r) :
      StepCase x a ⟨p.view x.db ws, x.txs.set a.1 (.finished (.ok r)), x.log ++ [r]⟩
  | rollback {l : L} {ws : List W} {e : String} (hi : x.txs[a.1]? = some (.active l ws))
      (hn : p.next l (p.view x.db ws) a.2 = .rollback e) : StepCase x a
        { x with txs := x.txs.set a.1 (.finished (.error e)) }

theorem step_case (x : System D W L R) (a : ℕ × Option String) : p.StepCase x a (p.step x a) := by
  unfold Program.step
  split
  · next l ws hi =>
    split
    · next l' hn => exact .goto hi hn
    · next w l' hn =>
      split
      · exact .write hi hn
      · exact .idle
    · next r hn => exact .commit hi hn
    · next e hn => exact .rollback hi hn
  · exact .idle

variable {p}

theorem step_db (x : System D W L R) (a : ℕ × Option String) :
    ((p.step x a).db = x.db ∧ (p.step x a).log = x.log) ∨
      ∃ l ws r, x.txs[a.1]? = some (.active l ws) ∧ p.next l (p.view x.db ws) a.2 = .commit r ∧
        p.step x a = ⟨p.view x.db ws, x.txs.set a.1 (.finished (.ok r)), x.log ++ [r]⟩ := by
  have hcase := p.step_case x a
  generalize p.step x a = y at hcase ⊢
  cases hcase with
  | idle | goto | write | rollback => exact .inl ⟨rfl, rfl⟩
  | commit hi hn => exact .inr ⟨_, _, _, hi, hn, rfl⟩

theorem finished_mem_log (db : D) (ls : List L) (as : List (ℕ × Option String)) (r : R) :
    .finished (.ok r) ∈ (exec p.step (System.initial db ls) as).txs →
      r ∈ (exec p.step (System.initial db ls) as).log := by
  apply exec_invariant_all (fun x : System D W L R => .finished (.ok r) ∈ x.txs → r ∈ x.log)
  · intro x a hx h
    have hcase := p.step_case x a
    generalize p.step x a = y at hcase h ⊢
    cases hcase with
    | idle => exact hx h
    | goto | write | rollback => exact hx ((mem_or_eq_of_mem_set h).resolve_right nofun)
    | commit =>
      rcases mem_or_eq_of_mem_set h with h | h
      · exact mem_append_left _ (hx h)
      · cases h
        exact mem_append_right _ (mem_singleton_self _)
  · intro h
    obtain ⟨l, _, hl⟩ := mem_map.mp h
    cases hl

/-- A system of one transaction comes to `y` when nothing fails. -/
def Leads (p : Program D W K L R) (x y : System D W L R) : Prop :=
  ∃ n, exec p.step x (List.replicate n (0, none)) = y

theorem Leads.refl (x : System D W L R) : p.Leads x x := ⟨0, rfl⟩

theorem Leads.head {y : System D W L R} (h : p.Leads (p.step x (0, none)) y) : p.Leads x y := by
  obtain ⟨n, hn⟩ := h
  exact ⟨n+1, hn⟩

section Alone

variable {db : D} {l : L} {ws : List W} {log : List R} {y : System D W L R}

/-- What the next effect has to leave for the system to come to `y`. -/
def After (p : Program D W K L R) (db : D) (ws : List W) (log : List R) (y : System D W L R) : Effect W L R → Prop
  | .goto l' => p.Leads ⟨db, [.active l' ws], log⟩ y
  | .write w l' => p.Leads ⟨db, [.active l' (ws ++ [w])], log⟩ y
  | .commit r => ⟨p.view db ws, [.finished (.ok r)], log ++ [r]⟩ = y
  | .rollback e => ⟨db, [.finished (.error e)], log⟩ = y

theorem Leads.next (h : p.After db ws log y (p.next l (p.view db ws) none)) :
    p.Leads ⟨db, [.active l ws], log⟩ y := by
  apply Leads.head
  cases hn : p.next l (p.view db ws) none with
  | goto | write =>
    rw [hn] at h
    simpa [step, hn, free, After] using h
  | commit | rollback =>
    rw [hn] at h
    obtain rfl := h
    simpa [step, hn] using Leads.refl _

end Alone

end Program

end AiGateway.ReadCommitted
