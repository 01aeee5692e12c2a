import AiGateway.SystemTaskLease

/-! The lease discipline over whole runs: of the claims of one type one at most has a lease that lasts. -/
namespace AiGateway.SysTask

open Interleave (Assertion Keeps Holds)
open List Table

variable {t : String}

section Stable

variable {db : Db} {pc : Pc} {w : Write}

section
variable (h : Admissible db pc w)
include h

theorem Admissible.keeps_named : Named (w.apply db) := by
  intro r hr hrun
  rcases h.running hr hrun with ⟨old, hold, holdrun, hs⟩ | ⟨_, hset⟩
  · obtain ⟨l, hl, ht⟩ := h.named old hold holdrun
    rcases h.lock_after hl with ⟨l', hl', hext⟩ | hlost
    · exact ⟨l', hs.type ▸ hl', (hext.taskID.trans ht).trans hs.taskID.symm⟩
    · exact absurd ht.symm (hlost.idle old hold holdrun (find_key _ hl).symm)
  · obtain ⟨l, hl, ht, _⟩ := hset.holding.lock
    exact ⟨l, by rw [hset.locks, hset.type]; exact hl, ht⟩

theorem Admissible.keeps_unexpired {ty : String} {now : Int} (hnow : now ≤ db.clock)
    (hun : Unexpired db ty now) : Unexpired (w.apply db) ty now := by
  intro r hr hrun hty l hl
  rcases h.running hr hrun with ⟨old, hold, holdrun, hs⟩ | ⟨c, hset⟩
  · rcases h.lock_before hl with ⟨l', hl', hext⟩ | ⟨hquiet, _⟩
    · have hle := hun old hold holdrun (hs.type.symm.trans hty) l' hl'
      have hext := hext.lockedUntil
      omega
    · exact absurd (hs.type.symm.trans hty) (hquiet old hold holdrun)
  · -- The lease of the claim that has set a task running lasts.
    obtain ⟨l', hl', _, _, huntil⟩ := hset.holding.lock
    rw [hset.locks, ← hty, hset.type, hl'] at hl
    have hontime := hset.ontime
    cases hl
    omega

theorem Admissible.keeps_swept {now : Int} {lock : SystemTaskLock} (hnow : now ≤ db.clock)
    (hs : Swept db now lock) : Swept (w.apply db) now lock := by
  intro l hl hstale r hr hrun ht
  obtain ⟨hty, hlt, hlb, huntil⟩ : l.type = lock.type ∧ l.taskID = lock.taskID ∧ l.lockedBy = lock.lockedBy ∧
      l.lockedUntil < now := by
    simpa [SystemTaskLock.stale] using hstale
  rcases h.lock_before hl with ⟨old, hold, hext⟩ | ⟨hquiet, htasks⟩
  · have hlonger := hext.lockedUntil
    have holdkey := find_key _ hold
    have holdtask : old.taskID = lock.taskID := hext.taskID.symm.trans hlt
    have holdstale : lock.stale now old = true := by
      have holdby : old.lockedBy = lock.lockedBy := hext.lockedBy.symm.trans hlb
      have holduntil : old.lockedUntil < now := by omega
      simp [SystemTaskLock.stale, holdkey, holdtask, holdby, holduntil]
    rcases h.running hr hrun with ⟨r', hr', hrun', hsame⟩ | ⟨c, hset⟩
    · exact hs old hold holdstale r' hr' hrun' (hsame.taskID.symm.trans ht)
    · -- The claim's lock would be the stale one, but its lease lasts.
      obtain ⟨l', hl', _, _, huntil'⟩ := hset.holding.lock
      obtain ⟨r', hr', hpending, htask'⟩ := hset.pending
      obtain ⟨r'', hr'', htask'', htype''⟩ := h.tables.named _ _ hold
      have hsame : r'' = r' := Tasks.eq_of_taskID hr'' hr' (by rw [htask'', htask', holdtask, ht])
      have htype : lock.type = c.taskType := by
        rw [← htype'', hsame]
        exact (isPending_iff.mp hpending).2.1
      rw [htype, hl'] at hold
      have hontime := hset.ontime
      cases hold
      omega
  · have hcons := h.tables.apply (h.found.names h.write)
    obtain ⟨r', hr', ht', hty'⟩ := hcons.named _ _ hl
    have hsame : r' = r := Tasks.eq_of_taskID hr' hr (ht'.trans (hlt.trans ht.symm))
    rw [htasks] at hr
    exact hquiet r hr hrun (hsame ▸ hty')

theorem Admissible.keeps_holding {c : Claim} (hfound : Found db c t)
    (hpair : ∀ c' t', pc.holding = some (c', t') → c'.taskType = c.taskType → db.clock ≤ c'.lockUntil →
      Done db t' ∨ Done db t)
    (hontime : db.clock ≤ c.lockUntil) (hh : Done db t ∨ Holding db c t) :
    Done (w.apply db) t ∨ Holding (w.apply db) c t := by
  rcases hh with hdone | hholding
  · exact .inl (hdone.apply w)
  · obtain ⟨l, hl, ht, hlb, huntil⟩ := hholding.lock
    by_cases hdone : Done db t
    · exact .inl (hdone.apply w)
    rcases h.lock_after hl with ⟨l', hl', hext⟩ | hlost
    · right
      have hlonger := hext.lockedUntil
      refine ⟨⟨l', hl', hext.taskID.trans ht, hext.lockedBy.trans hlb, by omega⟩, ?_⟩
      intro r hr hrun hty
      rcases h.running hr hrun with ⟨old, hold, holdrun, hs⟩ | ⟨c', hset⟩
      · exact hholding.quiet old hold holdrun (hs.type.symm.trans hty)
      · have hholder : pc.holding = some (c', r.taskID) := by
          rw [hset.pc]
          rfl
        rcases hpair c' r.taskID hholder (hset.type.symm.trans hty) hset.ontime with hd | hd
        · exact hset.not_done hd
        · exact hdone hd
    · -- While the lease lasts, only a release takes the lock, and it is for the same task.
      rcases hlost.why with hexpired | hrel
      · omega
      · rw [ht] at hrel
        rcases hrel with ⟨c', _, rfl⟩ | ⟨_, rfl⟩
        · obtain ⟨_, hr, _, hty, htask⟩ := hfound
          have hty' := Found.row (htask ▸ h.found c' t rfl) hr
          rcases hpair c' t rfl (hty'.symm.trans hty) h.ok with hd | hd <;> exact absurd hd hdone
        · exact absurd h.relies hdone

end

end Stable

variable {db : Db}

theorem Admissible.keeps_relies {pc b : Pc} {w : Write} (h : Admissible db pc w) (hfound : FoundBy db b)
    (hpair : Exclusive db pc b) (hb : Relies db b) : Relies (w.apply db) b := by
  have hhold (c : Claim) (t : String) (hholder : b.holding = some (c, t)) (hclaim : b.claiming = some (c, t))
      (hh : db.clock ≤ c.lockUntil → Done db t ∨ Holding db c t) :
      (w.apply db).clock ≤ c.lockUntil → Done (w.apply db) t ∨ Holding (w.apply db) c t := by
    intro hontime
    rw [Write.apply_clock] at hontime
    refine h.keeps_holding (hfound c t hclaim) ?_ hontime (hh hontime)
    intro c' t' hc' hty hontime'
    exact hpair c' t' c t hc' hholder hty hontime' hontime
  cases b with
  | claimSelect =>
    rw [Relies, Write.apply_clock]
    exact hb
  | claimInsert | claimExisting | claimTakeOver =>
    rw [Relies, Write.apply_clock]
    exact ⟨hb.1, h.keeps_unexpired hb.1 hb.2⟩
  | claimMark c t | claimSetRunning c t | claimRelease c t => exact hhold c t rfl rfl hb
  | finishRelease => exact Done.apply hb w
  | release => exact hb
  | expireSelect | expireMark => rw [Relies, Write.apply_clock]; exact hb
  | expireDelete => rw [Relies, Write.apply_clock]; exact ⟨hb.1, h.keeps_swept hb.1 hb.2⟩
  | create | claimReload | updateState | renew | finish | returned => trivial

theorem Exclusive.apply {a b : Pc} (h : Exclusive db a b) (w : Write) : Exclusive (w.apply db) a b := by
  intro c t c' t' ha hb hty hc hc'
  rw [Write.apply_clock] at hc hc'
  rcases h c t c' t' ha hb hty hc hc' with hd | hd
  · exact .inl (hd.apply w)
  · exact .inr (hd.apply w)

theorem Consistent.quiet_of_pending (h : Consistent db) {r : SystemTask} (hr : r ∈ db.tasks.rows)
    (hp : r.status = .pending) : Quiet db r.type := by
  intro r' hr' hrun hty
  have hk := h.active r hr (by rw [hp]; rfl)
  have hk' := h.active r' hr' (by rw [hrun]; rfl)
  rw [hty] at hk'
  have he := Tasks.eq_of_activeKey hr hr' hk hk'
  rw [he, hrun] at hp
  cases hp

theorem holding_inserted (hn : Named db) {c : Claim} (hnone : db.locks.find c.taskType = none) :
    Holding ((Write.insertLock ⟨c.taskType, t, c.runnerID, c.lockUntil, c.now⟩).apply db) c t := by
  refine ⟨⟨⟨c.taskType, t, c.runnerID, c.lockUntil, c.now⟩, ?_, rfl, rfl, le_rfl⟩, hn.quiet hnone⟩
  change (db.locks.insert _).find c.taskType = _
  rw [find_insert _ _ _ hnone, if_pos rfl]

theorem holding_taken {c : Claim} (hun : Unexpired db c.taskType c.now)
    (ha : (Write.takeOver c.taskType t c.runnerID c.now c.lockUntil).affects db = true) :
    Holding ((Write.takeOver c.taskType t c.runnerID c.now c.lockUntil).apply db) c t := by
  obtain ⟨old, hold, hp⟩ := any_eq_true.mp ha
  obtain ⟨hty, hlt⟩ : old.type = c.taskType ∧ old.lockedUntil < c.now := by
    simpa [SystemTaskLock.expired] using hp
  have hfind : db.locks.find c.taskType = some old := (find_some_iff _ _ _).mpr ⟨hold, hty⟩
  refine ⟨⟨old.take c.taskType t c.runnerID c.now c.lockUntil, ?_, ?_⟩, hun.quiet hfind hlt⟩
  · change (SysTask.takeOver db.locks _ _ _ _ _).find c.taskType = _
    rw [SysTask.takeOver, find_update, hfind]
    rfl
  · rw [SystemTaskLock.take, if_pos hp]
    exact ⟨rfl, rfl, le_rfl⟩

theorem done_of_finish {lockedBy : String} {status : Terminal} {resultText errorMessage : String} {now : Int}
    (ha : (Write.finish t lockedBy status resultText errorMessage now).affects db = true) :
    Done ((Write.finish t lockedBy status resultText errorMessage now).apply db) t := by
  obtain ⟨old, hold, hp⟩ := any_eq_true.mp ha
  refine ⟨(setFinished status resultText errorMessage now).set old, ?_, (isHeld_iff.mp hp).1, status.2⟩
  exact Tasks.mem_updateWhere.mpr ⟨old, hold, by simp [Tasks.written, hp]⟩

theorem mark_idle {r : SystemTask} (hr : r ∈ ((Write.markLeaseExpired t).apply db).tasks.rows)
    (hrun : r.status = .running) : r.taskID ≠ t := by
  obtain ⟨old, _, rfl⟩ := Tasks.mem_updateWhere.mp hr
  rcases Tasks.written_cases (isRunning t) (setLeaseExpired db.clock) old with ⟨_, he⟩ | ⟨hp, he⟩
  · rw [he] at hrun
    cases hrun
  · rw [he] at hrun ⊢
    intro ht
    rw [isRunning_iff.mpr ⟨ht, hrun⟩] at hp
    cases hp

def leases : Assertion Db Pc Unit where
  shared db := Consistent db ∧ Named db
  own db pc := FoundBy db pc ∧ Relies db pc
  pair := Exclusive
  value _ _ := 0
  weight _ _ := 0

theorem Holding.mark {c : Claim} (h : Holding db c t) (expired : String) :
    Holding ((Write.markLeaseExpired expired).apply db) c t := by
  refine ⟨h.lock, ?_⟩
  intro r hr hrun
  cases Write.row hr with
  | kept hold => exact h.quiet r hold hrun
  | marked => cases hrun

theorem Goes.relies {db' : Db} {pc pc' : Pc} (h : Goes db pc db' pc') (hdb : Consistent db) (hn : Named db)
    (hr : Relies db pc) : Relies db' pc' := by
  cases h with
  | returns => trivial
  | select hf =>
    obtain ⟨_, hty, hp⟩ := isPending_iff.mp (find?_some hf)
    refine ⟨hr, ?_⟩
    intro r hrow hrun hty' l _
    exact absurd (hty'.trans hty.symm) (hdb.quiet_of_pending (mem_of_find?_eq_some hf) hp r hrow hrun)
  | insert hf => exact fun _ => .inr (holding_inserted hn hf)
  | refused | existing => exact hr
  | takeOver ha hpc =>
    rcases hpc with rfl | rfl <;> exact fun _ => .inr (holding_taken hr.2 ha)
  | @mark c t expired =>
    intro hontime
    rcases hr hontime with hdone | hholding
    · exact .inl (hdone.apply _)
    · exact .inr (hholding.mark expired)
  | markFails => exact hr
  | setRunning => trivial
  | notRunning => exact hr
  | finish ha => exact done_of_finish ha
  | sweep => exact hr
  | sweepMark => exact ⟨hr, fun _ _ _ r hrow hrun => mark_idle hrow hrun⟩
  | sweepDelete => exact hr.1

theorem Goes.holding {db' : Db} {pc pc' : Pc} (h : Goes db pc db' pc') {c : Claim} (hc : pc'.holding = some (c, t)) :
    pc.holding = some (c, t) ∨ pc = .claimInsert c t ∧ db.locks.find c.taskType = none ∨
      (∃ existing, pc = .claimTakeOver c t existing) ∧
        db.locks.rows.any (SystemTaskLock.expired c.taskType c.now) = true := by
  cases h with
  | insert hf =>
    cases hc
    exact .inr (.inl ⟨rfl, hf⟩)
  | takeOver ha hpc =>
    rcases hpc with rfl | rfl <;> cases hc <;> exact .inr (.inr ⟨⟨_, rfl⟩, ha⟩)
  | mark | markFails | notRunning => exact .inl hc
  | _ => cases hc

theorem exclusive_next {pc b : Pc} {fails : Bool} (hr : Relies db pc) (hb : Relies db b)
    (hpair : Exclusive db pc b) : Exclusive db (next pc db fails).2 b := by
  intro c t c' t' hc hc' hty hontime hontime'
  -- The other claim's lock stands, or its task is done.
  have hother : Done db t' ∨ Holding db c' t' := by
    cases b <;> cases hc' <;> exact hb hontime'
  rcases (next_goes pc db fails).holding hc with hold | ⟨rfl, hnone⟩ | ⟨⟨existing, rfl⟩, hany⟩
  · exact hpair c t c' t' hold hc' hty hontime hontime'
  · rcases hother with hdone | hholding
    · exact .inr hdone
    · obtain ⟨l, hl, _⟩ := hholding.lock
      rw [← hty, hnone] at hl
      cases hl
  · rcases hother with hdone | hholding
    · exact .inr hdone
    · obtain ⟨l, hl, _, _, huntil⟩ := hholding.lock
      obtain ⟨old, hold, hp⟩ := any_eq_true.mp hany
      obtain ⟨holdty, hlt⟩ : old.type = c.taskType ∧ old.lockedUntil < c.now := by
        simpa [SystemTaskLock.expired] using hp
      have hfind : db.locks.find c'.taskType = some old :=
        (find_some_iff _ _ _).mpr ⟨hold, holdty.trans hty⟩
      rw [hfind] at hl
      have hnow := hr.1
      cases hl
      omega

theorem Exclusive.symm {a b : Pc} (h : Exclusive db a b) : Exclusive db b a := by
  intro c t c' t' ha hb hty hc hc'
  exact (h c' t' c t hb ha hty.symm hc' hc).symm

theorem start_holding (call : Call) : (start call db).holding = none := by
  cases call <;> rfl

theorem start_relies {call : Call} (h : leaseOk.call db call) : Relies db (start call db) := by
  cases call with
  | createSystemTask => trivial
  | claimSystemTask => exact le_refl db.clock
  | updateSystemTaskState | renewSystemTaskLock | finishSystemTask => trivial
  | releaseSystemTaskLock | expireStaleSystemTaskLocks => exact h

theorem clock_le_tick (db : Db) (ticks : ℕ) : db.clock ≤ (machine.env db ticks).clock := by
  change db.clock ≤ db.clock+ticks
  omega

theorem Relies.tick {pc : Pc} (h : Relies db pc) (ticks : ℕ) : Relies (machine.env db ticks) pc := by
  have hclock := clock_le_tick db ticks
  have hhold (c : Claim) (t : String) (hh : db.clock ≤ c.lockUntil → Done db t ∨ Holding db c t) :
      (machine.env db ticks).clock ≤ c.lockUntil →
        Done (machine.env db ticks) t ∨ Holding (machine.env db ticks) c t := by
    intro hle
    rcases hh (hclock.trans hle) with hd | hd
    · exact .inl hd
    · exact .inr ⟨hd.lock, hd.quiet⟩
  cases pc with
  | claimSelect => exact le_trans h hclock
  | claimInsert | claimExisting | claimTakeOver => exact ⟨h.1.trans hclock, h.2⟩
  | claimMark c t | claimSetRunning c t | claimRelease c t => exact hhold c t h
  | finishRelease | release => exact h
  | expireSelect | expireMark => exact le_trans h hclock
  | expireDelete => exact ⟨h.1.trans hclock, h.2⟩
  | _ => trivial

theorem leases_kept : Keeps machine leaseOk leases where
  symm h := h.symm
  call {db call} hdb hok := by
    exact ⟨⟨(bookkeeping_kept.call hdb.1 trivial).1, start_relies hok⟩, fun _ => rfl⟩
  call_pair {db call l} _ _ _ := by
    intro c t c' t' _ hb
    rw [show (machine.start call db).holding = none from start_holding call] at hb
    cases hb
  run {db pc fails} hdb hpc _ hok := by
    have htables : Consistent (next pc db fails).1 :=
      (bookkeeping_kept.run hdb.1 hpc.1 (fun _ => le_rfl) trivial).1
    have hnamed : Named (next pc db fails).1 :=
      next_keeps hdb.2 (fun w hw => Admissible.keeps_named ⟨hdb.1, hdb.2, hpc.1, hpc.2, hok, hw⟩) fails
    exact ⟨⟨htables, hnamed⟩, ⟨hpc.1.next fails, (next_goes pc db fails).relies hdb.1 hdb.2 hpc.2⟩,
      fun _ => rfl⟩
  other {db pc fails b} hdb hpc hb hpair _ hok := by
    have hexcl : Exclusive db (next pc db fails).2 b := exclusive_next hpc.2 hb.2 hpair
    refine next_keeps (P := fun db' => (FoundBy db' b ∧ Relies db' b) ∧ Exclusive db' (next pc db fails).2 b)
      ⟨hb, hexcl⟩ ?_ fails
    intro w hw
    have hadm : Admissible db pc w := ⟨hdb.1, hdb.2, hpc.1, hpc.2, hok, hw⟩
    exact ⟨⟨hb.1.apply w, hadm.keeps_relies hb.1 hpair hb.2⟩, hexcl.apply w⟩
  others {_ _ fails a b} _ _ _ _ _ _ hab _ :=
    next_keeps (P := fun db => Exclusive db a b) hab (fun w _ => hab.apply w) fails
  env hdb _ := ⟨⟨⟨hdb.1.active, hdb.1.idle, hdb.1.named⟩, hdb.2⟩, fun _ => rfl⟩
  env_own {db ticks pc} _ _ h := ⟨h.1, h.2.tick ticks⟩
  env_pair {db ticks a b} _ _ h := by
    intro c t c' t' ha hb hty hc hc'
    have hclock := clock_le_tick db ticks
    exact h c t c' t' ha hb hty (hclock.trans hc) (hclock.trans hc')

theorem leases_run (clock : Int) (as : List Action) (hok : Run.Along machine.step leaseOk.Ok (initial clock) as) :
    Holds leases (Run.exec machine.step (initial clock) as) := by
  refine Holds.run leases_kept (Holds.initial ⟨consistent_empty clock, ?_⟩ (fun _ => rfl)) as hok
  intro r hr
  cases hr

end AiGateway.SysTask
