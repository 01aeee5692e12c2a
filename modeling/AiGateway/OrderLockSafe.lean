import AiGateway.OrderLockInvariant

/-! What the lock of an order guarantees in every interleaving, and how long its entry stays in the
map. -/
namespace AiGateway.OrderLock

open Interleave (System Holds Guard)
open List Run

def Attended (x : System Memory Pc) : Prop :=
  ∀ t r, x.shared.orderLocks t = some r → ∃ (i : ℕ) (pc : Pc), x.procs[i]? = some pc ∧ pc.uses = some (t, r)

variable {r : ℕ}

theorem next_uses {m : Memory} {pc : Pc} (hk : Knows m pc) {t : String} (h : pc.uses = some (t, r)) :
    (next pc m ()).2.uses = some (t, r) ∨ pc = .delete t r ∨ pc = .check t r ∧ (m.heap r).refCount ≠ 0 := by
  cases pc with
  | lockMutex t' r' =>
    left
    cases hl : (m.heap r').locked <;> simp only [next, hl] <;> exact h
  | find =>
    left
    cases h
    simp only [next, hk.uses t r rfl]
    rfl
  | unlockMutex t' r' found =>
    left
    cases h
    obtain rfl := hk.same t r found rfl
    rfl
  | relockCreate =>
    left
    cases hc : m.createLock <;> simp only [next, hc] <;> exact h
  | check =>
    cases h
    by_cases hz : (m.heap r).refCount = 0
    · left
      simp only [next, hz, if_true]
      rfl
    · exact .inr (.inr ⟨rfl, hz⟩)
  | delete =>
    cases h
    exact .inr (.inl rfl)
  | increment | unlockCreate | locked | decrement => exact .inl h
  | _ => cases h

theorem next_entry_new {m : Memory} {pc : Pc} {t : String} (h : (next pc m ()).1.orderLocks t = some r) :
    m.orderLocks t = some r ∨ (next pc m ()).2.uses = some (t, r) := by
  rcases next_orderLocks m pc with hmap | ⟨t', _, hmap, huses⟩ | ⟨t', _, _, hmap⟩ <;> rw [hmap] at h
  · exact .inl h
  · by_cases ht : t = t'
    · subst ht
      rw [Function.update_self] at h
      exact .inr (huses.trans (by rw [Option.some.inj h]))
    · exact .inl (by rwa [Function.update_of_ne ht] at h)
  · by_cases ht : t = t'
    · subst ht
      rw [Function.update_self] at h
      cases h
    · exact .inl (by rwa [Function.update_of_ne ht] at h)

theorem counted_exists {x : System Memory Pc} (h : Holds locking x) (hr : (x.shared.heap r).refCount ≠ 0) :
    ∃ (i : ℕ) (pc : Pc), x.procs[i]? = some pc ∧ ∃ t, pc.counted = some (t, r) := by
  have hpos : 0 < (x.procs.map (fun pc => pc.weight (.reference r))).sum := by
    have htotal : (x.procs.map (fun pc => pc.weight (.reference r))).sum = (x.shared.heap r).refCount.toNat :=
      h.total (.reference r)
    have hnonneg := h.shared.nonneg r
    omega
  obtain ⟨n, hn, hne⟩ := exists_mem_ne_zero_of_sum_ne_zero (Nat.pos_iff_ne_zero.mp hpos)
  obtain ⟨pc, hpc, rfl⟩ := mem_map.mp hn
  obtain ⟨i, hi⟩ := mem_iff_getElem?.mp hpc
  refine ⟨i, pc, hi, ?_⟩
  cases hc : pc.counted with
  | none => simp [Pc.weight, hc] at hne
  | some p =>
    obtain ⟨t, r'⟩ := p
    by_cases he : r' = r
    · exact ⟨t, by rw [he]⟩
    · simp [Pc.weight, hc, he] at hne

theorem uses_of_counted {pc : Pc} {t : String} (h : pc.counted = some (t, r)) : pc.uses = some (t, r) := by
  cases pc <;> first | exact h | cases h

theorem Attended.step {x : System Memory Pc} (hinv : Holds locking x) (h : Attended x) (a : Action) :
    Attended (machine.step x a) := by
  cases a with
  | call =>
    intro t r ho
    obtain ⟨i, pc, hi, hu⟩ := h t r ho
    obtain ⟨hlt, _⟩ := List.getElem?_eq_some_iff.mp hi
    exact ⟨i, pc, (getElem?_append_left hlt).trans hi, hu⟩
  | env e => exact nomatch e
  | run j input =>
    cases hj : x.procs[j]? with
    | none =>
      rw [Interleave.Machine.step_run_none input hj]
      exact h
    | some pc =>
      rw [Interleave.Machine.step_run input hj]
      intro t r ho
      obtain ⟨hlt, _⟩ := List.getElem?_eq_some_iff.mp hj
      have hknows := hinv.own j pc hj
      have hself : (x.procs.set j (next pc x.shared ()).2)[j]? = some (next pc x.shared ()).2 :=
        getElem?_set_self hlt
      rcases next_entry_new ho with hold | hnew
      · obtain ⟨i, b, hi, hu⟩ := h t r hold
        by_cases hij : j = i
        · subst hij
          cases hj.symm.trans hi
          rcases next_uses hknows hu with hu' | rfl | ⟨rfl, hne⟩
          · exact ⟨j, _, hself, hu'⟩
          · -- A deleted entry is not there any more.
            exact absurd ho (by simp [machine, next])
          · -- Another thread is counted, so it uses the entry.
            obtain ⟨i, b, hi, t', hc⟩ := counted_exists hinv hne
            have hub := uses_of_counted hc
            have ht : t' = t := hinv.shared.inj t' t r ((hinv.own i b hi).uses t' r hub) hold
            have hij : j ≠ i := by
              intro he
              subst he
              cases hj.symm.trans hi
              cases hc
            exact ⟨i, b, (getElem?_set_ne hij).trans hi, ht ▸ hub⟩
        · exact ⟨i, b, (getElem?_set_ne hij).trans hi, hu⟩
      · exact ⟨j, _, hself, hnew⟩

theorem attended_run (as : List Action) : Attended (exec machine.step initial as) := by
  have hboth := exec_invariant_all (fun x => Holds locking x ∧ Attended x)
    (fun x a hx => ⟨hx.1.step locking_kept a (Guard.all_ok x a), hx.2.step hx.1 a⟩) initial as
    ⟨locking_run [], fun t r h => by cases h⟩
  exact hboth.2

/-- In every interleaving two threads do not hold the lock of one order, `UnlockOrder` releases the mutex that its
caller acquired, and an entry of the map belongs to a thread between its lookup and the end of its `UnlockOrder`. -/
theorem order_lock_safe (as : List Action) : (∀ (i j : ℕ) (a b : Pc) (t : String) (r r' : ℕ), i ≠ j →
      (exec machine.step initial as).procs[i]? = some a → (exec machine.step initial as).procs[j]? = some b →
      a.holds = some (t, r) → b.holds ≠ some (t, r')) ∧ (∀ (i : ℕ) (t : String) (r found : ℕ),
      (exec machine.step initial as).procs[i]? = some (.unlockMutex t r found) →
      found = r ∧ ((exec machine.step initial as).shared.heap found).locked = true ∧
        ((machine.step (exec machine.step initial as) (.run i ())).shared.heap r).locked = false) ∧
    (∀ (i : ℕ) (t : String) (r : ℕ), (exec machine.step initial as).procs[i]? = some (.find t r) →
      (machine.step (exec machine.step initial as) (.run i ())).procs[i]? = some (.unlockMutex t r r)) ∧
    ∀ (t : String) (r : ℕ), (exec machine.step initial as).shared.orderLocks t = some r →
      ∃ (i : ℕ) (pc : Pc), (exec machine.step initial as).procs[i]? = some pc ∧ pc.uses = some (t, r) := by
  have hinv := locking_run as
  have hattended := attended_run as
  generalize exec machine.step initial as = x at hinv hattended ⊢
  refine ⟨?_, ?_, ?_, hattended⟩
  · intro i j a b t r r' hij ha hb hra hrb
    -- Both mutexes are the one of the trade number, and it is locked once.
    have huse (pc : Pc) (r : ℕ) (h : pc.holds = some (t, r)) : pc.uses = some (t, r) := by
      cases pc <;> first | exact h | cases h
    have hka := (hinv.own i a ha).uses t r (huse a r hra)
    have hkb := (hinv.own j b hb).uses t r' (huse b r' hrb)
    rw [hka, Option.some.injEq] at hkb
    subst hkb
    have htwo := Interleave.add_le_sum_map (fun pc => Pc.weight pc (.mutex r)) hij ha hb
    have htotal : (x.procs.map (fun pc => Pc.weight pc (.mutex r))).sum =
        x.shared.value (.mutex r) := hinv.total (.mutex r)
    have hone := value_mutex_le x.shared r
    simp only [Pc.weight, hra, hrb, Option.map_some, if_true] at htwo
    simp only [Pc.weight] at htotal
    omega
  · intro i t r found hi
    obtain rfl := (hinv.own i _ hi).same t r found rfl
    have hle := Interleave.le_sum_map (fun pc => Pc.weight pc (.mutex found)) hi
    have htotal : (x.procs.map (fun pc => Pc.weight pc (.mutex found))).sum =
        x.shared.value (.mutex found) := hinv.total (.mutex found)
    refine ⟨rfl, ?_, ?_⟩
    · cases hl : (x.shared.heap found).locked with
      | true => rfl
      | false =>
        rw [htotal] at hle
        simp [Memory.value, hl, Pc.weight, Pc.holds] at hle
    · rw [Interleave.Machine.step_run () hi]
      change ((x.shared.modify found (setLocked false)).heap found).locked = false
      rw [heap_modify, if_pos rfl]
      rfl
  · intro i t r hi
    obtain ⟨hlt, _⟩ := List.getElem?_eq_some_iff.mp hi
    have ho := (hinv.own i _ hi).uses t r rfl
    rw [Interleave.Machine.step_run () hi]
    have hnext : (machine.next (.find t r) x.shared ()).2 = .unlockMutex t r r := by
      change (next (.find t r) x.shared ()).2 = .unlockMutex t r r
      simp only [next, ho]
    rw [hnext]
    exact getElem?_set_self hlt

def Pc.holdsOrWaits (t : String) : Pc → Bool
  | .lockCreate t' | .load t' | .store t' | .increment t' _ | .unlockCreate t' _ | .lockMutex t' _ | .locked t' _ |
    .find t' _ | .unlockMutex t' _ _ => t' = t
  | _ => false

/-- One thread locks an order and has released its mutex, but is not yet counted off. -/
def releasedOrder : List Action := .call "order" :: List.replicate 9 (.run 0 ())

/-- The entry is still there, and no thread holds the order or waits for it. -/
theorem entry_outlives_release :
    ¬ ∀ (as : List Action) (t : String) (r : ℕ), (exec machine.step initial as).shared.orderLocks t = some r →
      ∃ pc ∈ (exec machine.step initial as).procs, pc.holdsOrWaits t = true := by
  intro h
  have hentry : (exec machine.step initial releasedOrder).shared.orderLocks "order" = some 0 := by decide
  obtain ⟨pc, hpc, hw⟩ := h releasedOrder "order" 0 hentry
  have hall : ∀ pc ∈ (exec machine.step initial releasedOrder).procs, pc.holdsOrWaits "order" = false := by
    decide
  rw [hall pc hpc] at hw
  cases hw

end AiGateway.OrderLock
