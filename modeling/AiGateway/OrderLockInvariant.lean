import AiGateway.OrderLock

/-! The resources that threads hold: `createLock`, the mutexes, and their references. -/
namespace AiGateway.OrderLock

open Interleave (Assertion Keeps Holds Guard)
open Option

inductive Resource
  | createLock
  | mutex (r : ℕ)
  | reference (r : ℕ)
deriving DecidableEq

def Memory.value (m : Memory) : Resource → ℕ
  | .createLock => m.createLock.toNat
  | .mutex r => (m.heap r).locked.toNat
  | .reference r => (m.heap r).refCount.toNat

def Pc.inSection : Pc → Bool
  | .load _ | .store _ | .increment _ _ | .unlockCreate _ _ | .decrement _ _ | .check _ _ | .delete _ _
      | .leave _ => true
  | _ => false

def Pc.holds : Pc → Option (String × ℕ)
  | .locked t r | .find t r | .unlockMutex t r _ => some (t, r)
  | _ => none

def Pc.counted : Pc → Option (String × ℕ)
  | .unlockCreate t r | .lockMutex t r | .locked t r | .find t r | .unlockMutex t r _ | .relockCreate t r |
    .decrement t r => some (t, r)
  | _ => none

/-- The mutex that the thread works with, from its lookup in `LockOrder` on. -/
def Pc.uses : Pc → Option (String × ℕ)
  | .increment t r | .unlockCreate t r | .lockMutex t r | .locked t r | .find t r | .unlockMutex t r _ |
    .relockCreate t r | .decrement t r | .check t r | .delete t r => some (t, r)
  | _ => none

def Pc.weight (pc : Pc) : Resource → ℕ
  | .createLock => pc.inSection.toNat
  | .mutex r => if pc.holds.map Prod.snd = some r then 1 else 0
  | .reference r => if pc.counted.map Prod.snd = some r then 1 else 0

/-- The map names mutexes that were allocated, each for one trade number; no count is
negative; and free addresses are blank. -/
structure WellFormed (m : Memory) : Prop where
  allocated : ∀ t r, m.orderLocks t = some r → r < m.free
  inj : ∀ t t' r, m.orderLocks t = some r → m.orderLocks t' = some r → t = t'
  nonneg : ∀ r, 0 ≤ (m.heap r).refCount
  blank : ∀ r, m.free ≤ r → m.heap r = ⟨false, 0⟩

structure Knows (m : Memory) (pc : Pc) : Prop where
  uses : ∀ t r, pc.uses = some (t, r) → m.orderLocks t = some r
  absent : ∀ t, pc = .store t → m.orderLocks t = none
  same : ∀ t r found, pc = .unlockMutex t r found → found = r
  zero : ∀ t r, pc = .delete t r → (m.heap r).refCount = 0

/-- The assertion of the locks: the map is in order, every thread's mutex is the one of its
trade number, and the flags and counts are those of the threads. -/
def locking : Assertion Memory Pc Resource where
  shared := WellFormed
  own := Knows
  pair _ _ _ := True
  value := Memory.value
  weight := Pc.weight

section Heap

variable (m : Memory) (r r' : ℕ) (f : RefCountedMutex → RefCountedMutex)

theorem heap_modify : (m.modify r f).heap r' = if r' = r then f (m.heap r') else m.heap r' := by
  by_cases h : r' = r
  · subst h
    simp [Memory.modify]
  · simp [Memory.modify, h]

theorem value_modify (k : Resource) :
    (m.modify r f).value k = match k with
      | .createLock => m.value .createLock
      | .mutex r' => if r' = r then (f (m.heap r)).locked.toNat else m.value (.mutex r')
      | .reference r' => if r' = r then (f (m.heap r)).refCount.toNat else m.value (.reference r') := by
  cases k with
  | createLock => rfl
  | mutex r' | reference r' => by_cases h : r' = r <;> simp [Memory.value, heap_modify, h]

variable {m}

theorem WellFormed.modify (h : WellFormed m) {r : ℕ} (hr : r < m.free) {f : RefCountedMutex → RefCountedMutex}
    (hf : 0 ≤ (f (m.heap r)).refCount) : WellFormed (m.modify r f) := by
  refine ⟨h.allocated, h.inj, ?_, ?_⟩
  · intro r'
    rw [heap_modify]
    split
    · next he =>
      subst he
      exact hf
    · exact h.nonneg r'
  · intro r' hle
    have hne : r' ≠ r := by
      have hle : m.free ≤ r' := hle
      omega
    rw [heap_modify, if_neg hne]
    exact h.blank r' hle

theorem WellFormed.store (h : WellFormed m) (t : String) : WellFormed (m.store t) := by
  -- The new mutex is in no other entry, because it was not allocated.
  have hnew (t' : String) (r : ℕ) (hr : (m.store t).orderLocks t' = some r) :
      t' = t ∧ r = m.free ∨ t' ≠ t ∧ m.orderLocks t' = some r ∧ r < m.free := by
    by_cases ht : t' = t
    · subst ht
      have he : m.free = r := by simpa [Memory.store] using hr
      exact .inl ⟨rfl, he.symm⟩
    · have he : m.orderLocks t' = some r := by simpa [Memory.store, ht] using hr
      exact .inr ⟨ht, he, h.allocated t' r he⟩
  refine ⟨?_, ?_, ?_, ?_⟩
  · intro t' r hr
    change r < m.free+1
    rcases hnew t' r hr with ⟨_, he⟩ | ⟨_, _, hlt⟩ <;> omega
  · intro t' t'' r hr hr'
    rcases hnew t' r hr with ⟨he, hf⟩ | ⟨_, ho, hlt⟩
    · rcases hnew t'' r hr' with ⟨he', _⟩ | ⟨_, _, hlt'⟩
      · rw [he, he']
      · omega
    · rcases hnew t'' r hr' with ⟨_, hf'⟩ | ⟨_, ho', _⟩
      · omega
      · exact h.inj t' t'' r ho ho'
  · intro r
    by_cases hr : r = m.free
    · simp [Memory.store, hr]
    · simpa [Memory.store, hr] using h.nonneg r
  · intro r hle
    have hle : m.free+1 ≤ r := hle
    have hne : r ≠ m.free := by omega
    have hold := h.blank r (by omega)
    simpa [Memory.store, hne] using hold

theorem WellFormed.delete (h : WellFormed m) (t : String) :
    WellFormed { m with orderLocks := Function.update m.orderLocks t none } := by
  have hold (t' : String) (r : ℕ) (hr : Function.update m.orderLocks t none t' = some r) :
      m.orderLocks t' = some r := by
    by_cases ht : t' = t
    · subst ht
      simp at hr
    · simpa [ht] using hr
  refine ⟨?_, ?_, h.nonneg, h.blank⟩
  · intro t' r hr
    exact h.allocated t' r (hold t' r hr)
  · intro t' t'' r hr hr'
    exact h.inj t' t'' r (hold t' r hr) (hold t'' r hr')

end Heap

variable {m : Memory} {pc : Pc}

theorem Knows.of_uses {t : String} {r : ℕ} (hp : pc.uses = some (t, r))
    (ho : m.orderLocks t = some r) (hs : ∀ t' r' found, pc = .unlockMutex t' r' found → found = r')
    (hz : ∀ t' r', pc = .delete t' r' → (m.heap r').refCount = 0) : Knows m pc := by
  refine ⟨?_, ?_, hs, hz⟩
  · intro t' r' he
    rw [hp] at he
    cases he
    exact ho
  · intro t' he
    subst he
    cases hp

theorem Knows.of_free (hp : pc.uses = none) (ha : ∀ t, pc = .store t → m.orderLocks t = none) : Knows m pc := by
  refine ⟨?_, ha, ?_, ?_⟩
  · intro t r he
    rw [hp] at he
    cases he
  · intro t r found he
    subst he
    cases hp
  · intro t r he
    subst he
    cases hp

structure Kept (m : Memory) (pc : Pc) (m' : Memory) (pc' : Pc) : Prop where
  wellFormed : WellFormed m'
  knows : Knows m' pc'
  total : ∀ k, m'.value k+pc.weight k = m.value k+pc'.weight k

section Steps

variable {m : Memory} {pc pc' : Pc} {r : ℕ}

theorem Kept.flag (hm : WellFormed m) {b : Bool} (hk : Knows { m with createLock := b } pc')
    (hs : b.toNat+pc.inSection.toNat = m.createLock.toNat+pc'.inSection.toNat) (hh : pc.holds = pc'.holds)
    (hc : pc.counted = pc'.counted) : Kept m pc { m with createLock := b } pc' := by
  refine ⟨⟨hm.allocated, hm.inj, hm.nonneg, hm.blank⟩, hk, ?_⟩
  intro k
  cases k with
  | createLock => exact hs
  | mutex => simp only [Memory.value, Pc.weight, hh]
  | reference => simp only [Memory.value, Pc.weight, hc]

theorem Kept.read (hm : WellFormed m) (hk : Knows m pc') (hs : pc.inSection = pc'.inSection)
    (hh : pc.holds = pc'.holds) (hc : pc.counted = pc'.counted) : Kept m pc m pc' :=
  .flag hm hk (by rw [hs]) hh hc

theorem Kept.modify (hm : WellFormed m) (hr : r < m.free) {f : RefCountedMutex → RefCountedMutex}
    (hf : 0 ≤ (f (m.heap r)).refCount) (hk : Knows (m.modify r f) pc') (hs : pc.inSection = pc'.inSection)
    (hmutex : (f (m.heap r)).locked.toNat+pc.weight (.mutex r) = m.value (.mutex r)+pc'.weight (.mutex r))
    (href : (f (m.heap r)).refCount.toNat+pc.weight (.reference r) = m.value (.reference r)+pc'.weight (.reference r))
    (hother : ∀ r', r' ≠ r → pc.weight (.mutex r') = pc'.weight (.mutex r') ∧
      pc.weight (.reference r') = pc'.weight (.reference r')) : Kept m pc (m.modify r f) pc' := by
  refine ⟨hm.modify hr hf, hk, ?_⟩
  intro k
  rw [value_modify]
  cases k with
  | createLock => simp only [Pc.weight, hs]
  | mutex r' =>
    by_cases he : r' = r
    · subst he
      simpa using hmutex
    · simp only [if_neg he, (hother r' he).1]
  | reference r' =>
    by_cases he : r' = r
    · subst he
      simpa using href
    · simp only [if_neg he, (hother r' he).2]

theorem Kept.store (hm : WellFormed m) (t : String) : Kept m (.store t) (m.store t) (.increment t m.free) := by
  have hstored : (m.store t).orderLocks t = some m.free := by simp [Memory.store]
  refine ⟨hm.store t, .of_uses rfl hstored nofun nofun, ?_⟩
  intro k
  have hblank := hm.blank m.free le_rfl
  cases k with
  | createLock => simp [Memory.store, Memory.value, Pc.weight, Pc.inSection]
  | mutex r =>
    by_cases hr : r = m.free <;> simp [Memory.store, Memory.value, Pc.weight, Pc.holds, hr, hblank]
  | reference r =>
    by_cases hr : r = m.free <;> simp [Memory.store, Memory.value, Pc.weight, Pc.counted, hr, hblank]

end Steps

theorem next_keeps (hm : WellFormed m) (hk : Knows m pc)
    (hw : ∀ k, pc.weight k ≤ m.value k) : Kept m pc (next pc m ()).1 (next pc m ()).2 := by
  -- The flag is set while a thread is in a section.
  have hexit (hs : pc.inSection = true) : false.toNat+pc.inSection.toNat = m.createLock.toNat+false.toNat := by
    have hle := hw .createLock
    have hone : m.createLock.toNat ≤ 1 := Bool.toNat_le _
    simp only [Pc.weight, Memory.value, hs, Bool.toNat_true, Bool.toNat_false] at hle ⊢
    omega
  cases pc with
  | lockCreate =>
    cases hc : m.createLock with
    | true =>
      simp only [next, hc, if_true]
      exact .read hm hk rfl rfl rfl
    | false =>
      simp only [next, hc]
      exact .flag hm (.of_free rfl nofun) (by rw [hc]; rfl) rfl rfl
  | load t =>
    cases ho : m.orderLocks t with
    | some =>
      simp only [next, ho]
      exact .read hm (.of_uses rfl ho nofun nofun) rfl rfl rfl
    | none =>
      simp only [next, ho]
      refine .read hm (.of_free rfl ?_) rfl rfl rfl
      intro t' he
      cases he
      exact ho
  | store t => exact .store hm t
  | increment t r | decrement t r =>
    have ho := hk.uses t r rfl
    have hpos := hm.nonneg r
    -- A thread that leaves is counted, so the count is positive.
    have hcounted := hw (.reference r)
    simp only [Pc.weight, Pc.counted, map_some, map_none, reduceCtorEq, if_true, if_false, Memory.value] at hcounted
    simp only [next]
    refine .modify hm (hm.allocated t r ho) (by change 0 ≤ (m.heap r).refCount+_; omega)
      (.of_uses rfl ho nofun nofun) rfl rfl ?_ ?_
    · simp only [Pc.weight, Pc.counted, Memory.value, addReference, map_some, map_none, reduceCtorEq,
        if_true, if_false]
      omega
    · intro r' hr
      simp [Pc.weight, Pc.holds, Pc.counted, Ne.symm hr]
  | unlockCreate t r =>
    have ho := hk.uses t r rfl
    exact .flag hm (.of_uses rfl ho nofun nofun) (hexit rfl) rfl rfl
  | lockMutex t r =>
    have ho := hk.uses t r rfl
    cases hl : (m.heap r).locked with
    | true =>
      simp only [next, hl, if_true]
      exact .read hm hk rfl rfl rfl
    | false =>
      simp only [next, hl]
      refine .modify hm (hm.allocated t r ho) (hm.nonneg r) (.of_uses rfl ho nofun nofun) rfl ?_ rfl ?_
      · simp [Memory.value, Pc.weight, Pc.holds, setLocked, hl]
      · intro r' hr
        simp [Pc.weight, Pc.holds, Pc.counted, Ne.symm hr]
  | locked t r =>
    have ho := hk.uses t r rfl
    exact .read hm (.of_uses rfl ho nofun nofun) rfl rfl rfl
  | find t r =>
    have ho := hk.uses t r rfl
    simp only [next, ho]
    refine .read hm (.of_uses rfl ho ?_ nofun) rfl rfl rfl
    intro t' r' found he
    cases he
    rfl
  | unlockMutex t r found =>
    have ho := hk.uses t r rfl
    obtain rfl := hk.same t r found rfl
    -- The thread's own weight says that the mutex is locked.
    have hlocked := hw (.mutex found)
    have hone : (m.heap found).locked.toNat ≤ 1 := Bool.toNat_le _
    simp only [next]
    refine .modify hm (hm.allocated t found ho) (hm.nonneg found) (.of_uses rfl ho nofun nofun) rfl ?_ rfl ?_
    · simp only [Memory.value, Pc.weight, Pc.holds, setLocked, map_some, map_none, reduceCtorEq, if_true, if_false,
        Bool.toNat_false] at hlocked ⊢
      omega
    · intro r' hr
      simp [Pc.weight, Pc.holds, Pc.counted, Ne.symm hr]
  | relockCreate t r =>
    have ho := hk.uses t r rfl
    cases hc : m.createLock with
    | true =>
      simp only [next, hc, if_true]
      exact .read hm hk rfl rfl rfl
    | false =>
      simp only [next, hc]
      exact .flag hm (.of_uses rfl ho nofun nofun) (by rw [hc]; rfl) rfl rfl
  | check t r =>
    have ho := hk.uses t r rfl
    by_cases hz : (m.heap r).refCount = 0
    · simp only [next, hz, if_true]
      refine .read hm (.of_uses rfl ho nofun ?_) rfl rfl rfl
      intro t' r' he
      cases he
      exact hz
    · simp only [next, hz, if_false]
      exact .read hm (.of_free rfl nofun) rfl rfl rfl
  | delete t =>
    refine ⟨hm.delete t, .of_free rfl nofun, ?_⟩
    intro k
    cases k <;> rfl
  | leave => exact .flag hm (.of_free rfl nofun) (hexit rfl) rfl rfl
  | returned => exact .read hm hk rfl rfl rfl

theorem next_orderLocks (m : Memory) (pc : Pc) : (next pc m ()).1.orderLocks = m.orderLocks ∨
    (∃ t, pc = .store t ∧ (next pc m ()).1.orderLocks = Function.update m.orderLocks t (some m.free) ∧
      (next pc m ()).2.uses = some (t, m.free)) ∨
    ∃ t r, pc = .delete t r ∧ (next pc m ()).1.orderLocks = Function.update m.orderLocks t none := by
  cases pc with
  | store t => exact .inr (.inl ⟨t, rfl, rfl, rfl⟩)
  | delete t r => exact .inr (.inr ⟨t, r, rfl, rfl⟩)
  | lockCreate | load | lockMutex | find | relockCreate | check =>
    left
    rw [next]
    split <;> rfl
  | _ => exact .inl rfl

theorem next_frame (h : pc.inSection = false) :
    (next pc m ()).1.orderLocks = m.orderLocks ∧ ∀ r, ((next pc m ()).1.heap r).refCount = (m.heap r).refCount := by
  have hlock (r : ℕ) (b : Bool) (r' : ℕ) :
      ((m.modify r (setLocked b)).heap r').refCount = (m.heap r').refCount := by
    rw [heap_modify]
    split <;> rfl
  constructor
  · rcases next_orderLocks m pc with hmap | ⟨t, rfl, _⟩ | ⟨t, r, rfl, _⟩
    · exact hmap
    · cases h
    · cases h
  cases pc with
  | lockMutex t r =>
    rw [next]
    split
    · exact fun _ => rfl
    · exact hlock r true
  | lockCreate | find | relockCreate =>
    rw [next]
    split <;> exact fun _ => rfl
  | unlockMutex t r found => exact hlock found false
  | locked | returned => exact fun _ => rfl
  | _ => cases h

theorem counted_of_uses (h : pc.inSection = false) : pc.counted = pc.uses := by
  cases pc <;> first | rfl | cases h

theorem next_entry (hk : Knows m pc) {t : String} {r : ℕ} (ho : m.orderLocks t = some r) :
    (next pc m ()).1.orderLocks t = some r ∨ pc = .delete t r := by
  rcases next_orderLocks m pc with hmap | ⟨t', rfl, hmap, _⟩ | ⟨t', r', rfl, hmap⟩
  · exact .inl (hmap ▸ ho)
  · have hne : t ≠ t' := by
      rintro rfl
      cases (hk.absent t rfl).symm.trans ho
    exact .inl (by rw [hmap, Function.update_of_ne hne, ho])
  · by_cases ht : t = t'
    · subst ht
      cases ho.symm.trans (hk.uses t r' rfl)
      exact .inr rfl
    · exact .inl (by rw [hmap, Function.update_of_ne ht, ho])

theorem value_createLock_le (m : Memory) : m.value .createLock ≤ 1 := Bool.toNat_le _

theorem value_mutex_le (m : Memory) (r : ℕ) : m.value (.mutex r) ≤ 1 := Bool.toNat_le _

theorem next_other {b : Pc} (hk : Knows m pc) (hb : Knows m b)
    (hw : ∀ k, pc.weight k+b.weight k ≤ m.value k) : Knows (next pc m ()).1 b := by
  cases hs : b.inSection with
  | true =>
    -- The other thread is in no section now.
    have hout : pc.inSection = false := by
      have hle := hw .createLock
      have hone := value_createLock_le m
      simp only [Pc.weight, hs, Bool.toNat_true] at hle
      cases hp : pc.inSection with
      | false => rfl
      | true =>
        rw [hp, Bool.toNat_true] at hle
        omega
    obtain ⟨hmap, hcount⟩ := next_frame hout
    refine ⟨?_, ?_, hb.same, ?_⟩
    · intro t r hu
      rw [hmap]
      exact hb.uses t r hu
    · intro t ht
      rw [hmap]
      exact hb.absent t ht
    · intro t r hd
      rw [hcount]
      exact hb.zero t r hd
  | false =>
    refine ⟨?_, ?_, hb.same, ?_⟩
    · intro t r hu
      rcases next_entry hk (hb.uses t r hu) with ho | rfl
      · exact ho
      · -- The thread is counted, but the entry is deleted only at count zero.
        have hle := hw (.reference r)
        have hzero := hk.zero t r rfl
        have hcounted : b.counted.map Prod.snd = some r := by
          rw [counted_of_uses hs, hu]
          rfl
        simp only [Pc.weight, hcounted, if_true, Memory.value, hzero, Int.toNat_zero] at hle
        omega
    · intro t ht
      subst ht
      cases hs
    · intro t r hd
      subst hd
      cases hs

theorem locking_kept : Keeps machine Guard.all locking where
  symm _ := trivial
  call {m t} _ _ := by
    refine ⟨.of_free rfl nofun, ?_⟩
    intro k
    change (Pc.lockCreate t).weight k = 0
    cases k <;> simp [Pc.weight, Pc.inSection, Pc.holds, Pc.counted]
  call_pair _ _ _ := trivial
  run hm hk hw _ := by
    have hkept := next_keeps hm hk hw
    exact ⟨hkept.wellFormed, hkept.knows, hkept.total⟩
  other _ hk hb _ hw _ := ⟨next_other hk hb hw, trivial⟩
  others _ _ _ _ _ _ _ _ := trivial
  env {_ e} _ _ := nomatch e
  env_own {_ e _} _ _ _ := nomatch e
  env_pair {_ e _ _} _ _ _ := nomatch e

theorem locking_run (as : List Action) : Holds locking (Run.exec machine.step initial as) := by
  refine Holds.run_all locking_kept (Holds.initial ⟨?_, ?_, fun _ => le_rfl, fun _ _ => rfl⟩ ?_) as
  · intro t r h
    cases h
  · intro t t' r h
    cases h
  · intro k
    cases k <;> rfl

end AiGateway.OrderLock
