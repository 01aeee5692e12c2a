import AiGateway.SystemTaskWrites

/-! Active keys and guarded writes: one active row for each type, finished rows stay as they are, and
only the runner with the lock of a task writes its state or result. -/
namespace AiGateway.SysTask

open Run List
open Interleave (System Assertion Keeps Holds Guard)

structure Consistent (db : Db) : Prop where
  active : ∀ r ∈ db.tasks.rows, r.status.active = true → r.activeKey = some r.type
  idle : ∀ r ∈ db.tasks.rows, r.status.active = false → r.activeKey = none
  named : ∀ ty l, db.locks.find ty = some l → ∃ r ∈ db.tasks.rows, r.taskID = l.taskID ∧ r.type = ty

/-- The claim and the task it is for, from the first query on. -/
def Pc.claiming : Pc → Option (Claim × String)
  | .claimInsert c taskID | .claimExisting c taskID | .claimTakeOver c taskID _ | .claimMark c taskID _ |
    .claimSetRunning c taskID | .claimRelease c taskID _ => some (c, taskID)
  | _ => none

def Found (db : Db) (c : Claim) (taskID : String) : Prop :=
  ∃ r ∈ db.tasks.rows, r.id = c.id ∧ r.type = c.taskType ∧ r.taskID = taskID

def FoundBy (db : Db) (pc : Pc) : Prop := ∀ c taskID, pc.claiming = some (c, taskID) → Found db c taskID

variable {db : Db} {taskID : String} {r : SystemTask}

theorem Found.apply {c : Claim} (h : Found db c taskID) (w : Write) : Found (w.apply db) c taskID := by
  obtain ⟨r, hr, hid, hty, htask⟩ := h
  obtain ⟨r', hr', hs⟩ := w.keeps_task hr
  exact ⟨r', hr', hs.id.trans hid, hs.type.trans hty, hs.taskID.trans htask⟩

variable {pc : Pc}

theorem FoundBy.apply (h : FoundBy db pc) (w : Write) : FoundBy (w.apply db) pc :=
  fun c taskID hc => (h c taskID hc).apply w

def Write.Names (db : Db) : Write → Prop
  | .insertLock lock => ∃ r ∈ db.tasks.rows, r.taskID = lock.taskID ∧ r.type = lock.type
  | .takeOver taskType taskID _ _ _ => ∃ r ∈ db.tasks.rows, r.taskID = taskID ∧ r.type = taskType
  | _ => True

theorem Found.names {c : Claim} (h : Found db c taskID) :
    ∃ r ∈ db.tasks.rows, r.taskID = taskID ∧ r.type = c.taskType := by
  obtain ⟨r, hr, _, hty, htask⟩ := h
  exact ⟨r, hr, htask, hty⟩

theorem FoundBy.names {w : Write} (h : FoundBy db pc) (hw : pc.write = some w) : w.Names db := by
  cases pc with
  | claimInsert c taskID | claimTakeOver c taskID =>
    cases hw
    exact (h c taskID rfl).names
  | _ => first | (cases hw; trivial) | cases hw

variable {lockedBy : String}

theorem isHeld_iff {now : Int} : isHeld db taskID lockedBy now r = true ↔
      r.taskID = taskID ∧ r.status = .running ∧ r.lockedBy = lockedBy ∧
        db.leased r.taskID lockedBy now = true := by
  simp [isHeld]

theorem isRunning_iff : isRunning taskID r = true ↔ r.taskID = taskID ∧ r.status = .running := by
  simp [isRunning]

theorem isPending_iff {id : Int} {taskType : String} :
    isPending id taskType r = true ↔ r.id = id ∧ r.type = taskType ∧ r.status = .pending := by
  simp [isPending]

theorem Consistent.apply (h : Consistent db) {w : Write} (hn : w.Names db) : Consistent (w.apply db) := by
  refine ⟨?_, ?_, ?_⟩
  · intro r hr hactive
    cases Write.row hr with
    | kept hold => exact h.active r hold hactive
    | created => rfl
    | marked => cases hactive
    | running old hold hp =>
      have hpending := (isPending_iff.mp hp).2.2
      exact h.active old hold (by rw [hpending]; rfl)
    | state old hold => exact h.active old hold hactive
    | @finished _ _ status _ _ _ old hold hp => exact absurd hactive (by simp [setFinished, status.2])
  · intro r hr hidle
    cases Write.row hr with
    | kept hold => exact h.idle r hold hidle
    | created => cases hidle
    | marked => rfl
    | running => cases hidle
    | state old hold => exact h.idle old hold hidle
    | finished => rfl
  · intro ty l hl
    -- The task of the lock is still there after the write.
    have hkeep (t : String) (hex : ∃ r ∈ db.tasks.rows, r.taskID = t ∧ r.type = ty) :
        ∃ r ∈ (w.apply db).tasks.rows, r.taskID = t ∧ r.type = ty := by
      obtain ⟨r, hr, htask, hty⟩ := hex
      obtain ⟨r', hr', hs⟩ := w.keeps_task hr
      exact ⟨r', hr', hs.taskID.trans htask, hs.type.trans hty⟩
    cases Write.lock hl with
    | kept hold => exact hkeep _ (h.named ty l hold)
    | inserted hnone ht => exact hkeep _ (ht ▸ hn)
    | @taken taskType _ _ now _ old hold hp =>
      have hty : old.type = taskType ∧ old.lockedUntil < now := by simpa [SystemTaskLock.expired] using hp
      have hkey := Table.find_key _ hold
      exact hkeep _ (hty.1.symm.trans hkey ▸ hn)
    | renewed old hold => exact hkeep _ (h.named ty old hold)

theorem consistent_empty (clock : Int) : Consistent (.empty clock) := ⟨nofun, nofun, nofun⟩

theorem Goes.claiming {db' : Db} {pc' : Pc} (h : Goes db pc db' pc') {c : Claim}
    (hc : pc'.claiming = some (c, taskID)) :
    pc.claiming = some (c, taskID) ∨ pc = .claimSelect c ∧
      ∃ r, db.tasks.rows.find? (isPending c.id c.taskType) = some r ∧
      r.taskID = taskID := by
  cases h with
  | select hf =>
    cases hc
    exact .inr ⟨rfl, _, hf, rfl⟩
  | takeOver ha hpc =>
    left
    rcases hpc with rfl | rfl <;> exact hc
  | insert | refused | existing | mark | markFails | notRunning => exact .inl hc
  | _ => cases hc

theorem FoundBy.next (h : FoundBy db pc) (fails : Bool) :
    FoundBy (next pc db fails).1 (next pc db fails).2 := by
  intro c taskID hc
  have hfound : Found db c taskID := by
    rcases (next_goes pc db fails).claiming hc with hold | ⟨_, r, hf, rfl⟩
    · exact h c taskID hold
    · obtain ⟨hid, hty, _⟩ := isPending_iff.mp (find?_some hf)
      exact ⟨r, mem_of_find?_eq_some hf, hid, hty, rfl⟩
  exact next_keeps (P := fun db => Found db c taskID) hfound (fun w _ => hfound.apply w) fails

def bookkeeping : Assertion Db Pc Unit where
  shared := Consistent
  own := FoundBy
  pair _ _ _ := True
  value _ _ := 0
  weight _ _ := 0

theorem start_claiming (call : Call) (db : Db) : (start call db).claiming = none := by
  cases call <;> rfl

theorem bookkeeping_kept : Keeps machine Guard.all bookkeeping where
  symm _ := trivial
  call {db call} _ _ := by
    refine ⟨?_, fun _ => rfl⟩
    intro c taskID hc
    rw [show (machine.start call db).claiming = none from start_claiming call db] at hc
    cases hc
  call_pair _ _ _ := trivial
  run {db pc fails} hdb hpc _ _ := by
    have htables : Consistent (next pc db fails).1 := next_keeps hdb (fun _ hw => hdb.apply (hpc.names hw)) fails
    exact ⟨htables, FoundBy.next hpc fails, fun _ => rfl⟩
  other {_ _ fails b} _ _ hb _ _ _ :=
    ⟨next_keeps (P := fun db => FoundBy db b) hb (fun w _ => hb.apply w) fails, trivial⟩
  others _ _ _ _ _ _ _ _ := trivial
  env h _ := ⟨⟨h.active, h.idle, h.named⟩, fun _ => rfl⟩
  env_own _ _ h := h
  env_pair _ _ h := h

theorem bookkeeping_run (clock : Int) (as : List Action) :
    Holds bookkeeping (exec machine.step (initial clock) as) :=
  Holds.run_all bookkeeping_kept (Holds.initial (consistent_empty clock) (fun _ => rfl)) as

theorem keeps_done {x : System Db Pc} (hdone : r.status.active = false)
    (h : r ∈ x.shared.tasks.rows) (as : List Action) : r ∈ (exec machine.step x as).shared.tasks.rows := by
  apply exec_invariant_all (fun x : System Db Pc => r ∈ x.shared.tasks.rows)
  · intro y a hy
    cases a with
    | call | env => exact hy
    | run i fails =>
      cases hpc : y.procs[i]? with
      | none =>
        rw [Interleave.Machine.step_run_none fails hpc]
        exact hy
      | some pc =>
        rw [Interleave.Machine.step_run fails hpc]
        exact next_keeps (P := fun db => r ∈ db.tasks.rows) hy (fun w _ => w.keeps_done hy hdone) fails
  · exact h

/-- The statement by which `UpdateSystemTaskState` or `FinishSystemTask` succeeds: the call
is by `lockedBy` for `taskID`, and it read the time `now` when it began. -/
inductive Succeeds (db : Db) (fails : Bool) : Pc → String → String → Int → Prop
  | update {taskID lockedBy stateText now}
    (h : (next (.updateState taskID lockedBy stateText now) db fails).2 = .returned (.done none)) :
    Succeeds db fails (.updateState taskID lockedBy stateText now) taskID lockedBy now
  | finish {taskID lockedBy status resultText errorMessage now}
    (h : (next (.finish taskID lockedBy status resultText errorMessage now) db fails).2 =
      .finishRelease taskID lockedBy) :
    Succeeds db fails (.finish taskID lockedBy status resultText errorMessage now) taskID lockedBy now

theorem Succeeds.held {fails : Bool} {now : Int} (h : Succeeds db fails pc taskID lockedBy now) :
    ∃ r ∈ db.tasks.rows, isHeld db taskID lockedBy now r = true := by
  cases h with
  | update h | finish h =>
    cases fails with
    | true => cases h
    | false =>
      cases ha : db.tasks.rows.any (isHeld db taskID lockedBy now) with
      | true => exact any_eq_true.mp ha
      | false =>
        simp only [next, execute, Write.affects, ha] at h
        cases h

/-- A successful call is made by the runner of the row, who has the lock of the task's type. -/
theorem Consistent.guarded (h : Consistent db) {fails : Bool} {now : Int}
    (hs : Succeeds db fails pc taskID lockedBy now) :
    ∃ r ∈ db.tasks.rows, r.taskID = taskID ∧ r.status = .running ∧ r.lockedBy = lockedBy ∧
      ∃ l, db.locks.find r.type = some l ∧ l.taskID = taskID ∧ l.lockedBy = lockedBy ∧
        now ≤ l.lockedUntil := by
  obtain ⟨r, hr, hp⟩ := hs.held
  obtain ⟨htask, hstatus, hby, hleased⟩ := isHeld_iff.mp hp
  obtain ⟨l, hl, hlock⟩ := any_eq_true.mp hleased
  obtain ⟨hlt, hlb, huntil⟩ : l.taskID = r.taskID ∧ l.lockedBy = lockedBy ∧ now ≤ l.lockedUntil := by
    simpa using hlock
  -- The lock is the one of the task's type, because a lock names a task of its own type.
  have hfind := Table.find_mem db.locks l hl
  obtain ⟨r', hr', htask', hty'⟩ := h.named l.type l hfind
  have hrow : r' = r := Tasks.eq_of_taskID hr' hr (htask'.trans hlt)
  have hty : r.type = l.type := hrow ▸ hty'
  exact ⟨r, hr, htask, hstatus, hby, l, hty ▸ hfind, hlt.trans htask, hlb, huntil⟩

/-- In every interleaving a type has one active row at most, a finished row never changes, and a successful update or
finish is made by the row's runner, who has the lock of the type. -/
theorem active_rows_and_guarded_writes (clock : Int) (as : List Action) :
    (∀ r ∈ (exec machine.step (initial clock) as).shared.tasks.rows,
      r.status.active = true ↔ r.activeKey = some r.type) ∧
    (∀ r ∈ (exec machine.step (initial clock) as).shared.tasks.rows,
      ∀ r' ∈ (exec machine.step (initial clock) as).shared.tasks.rows,
      r.status.active = true → r'.status.active = true → r.type = r'.type → r = r') ∧
    (∀ r ∈ (exec machine.step (initial clock) as).shared.tasks.rows, r.status.active = false →
      ∀ (bs : List Action), ∀ r' ∈ (exec machine.step (initial clock) (as ++ bs)).shared.tasks.rows,
        r'.id = r.id → r' = r) ∧ ∀ (i : ℕ) (pc : Pc) (fails : Bool) (taskID lockedBy : String) (now : Int),
      (exec machine.step (initial clock) as).procs[i]? = some pc →
      Succeeds (exec machine.step (initial clock) as).shared fails pc taskID lockedBy now →
      ∃ r ∈ (exec machine.step (initial clock) as).shared.tasks.rows,
        r.taskID = taskID ∧ r.status = .running ∧ r.lockedBy = lockedBy ∧
        ∃ l, (exec machine.step (initial clock) as).shared.locks.find r.type = some l ∧
          l.taskID = taskID ∧ l.lockedBy = lockedBy ∧ now ≤ l.lockedUntil := by
  have hinv := (bookkeeping_run clock as).shared
  have hkey (r : SystemTask) (hr : r ∈ (exec machine.step (initial clock) as).shared.tasks.rows) :
      r.status.active = true ↔ r.activeKey = some r.type := by
    refine ⟨hinv.active r hr, ?_⟩
    intro hk
    cases hs : r.status.active with
    | true => rfl
    | false => exact absurd (hinv.idle r hr hs) (by simp [hk])
  refine ⟨hkey, ?_, ?_, ?_⟩
  · intro r hr r' hr' ha ha' hty
    apply Tasks.eq_of_activeKey hr hr' ((hkey r hr).mp ha)
    rw [hty]
    exact (hkey r' hr').mp ha'
  · intro r hr hdone bs r' hr' hid
    rw [exec_append] at hr'
    exact Tasks.eq_of_id hr' (keeps_done hdone hr bs) hid
  · intro i pc fails taskID lockedBy now _ hs
    exact hinv.guarded hs

/-- A runner claims a task until 10. -/
def claimedTask : List Action :=
  [.call (.createSystemTask "systask_1" "log_cleanup" "" ""), .run 0 false,
    .call (.claimSystemTask 1 "log_cleanup" "runner_a" 10), .run 1 false, .run 1 false, .run 1 false, .run 1 false]

/-- It begins to finish the task at 0, and its `UPDATE` is sent at 11. -/
def stalledFinish : List Action :=
  claimedTask ++ [.call (.finishSystemTask "systask_1" "runner_a" ⟨.succeeded, rfl⟩ "" ""), .env 11]

/-- The finish succeeds although no lease lasts any longer: the lock has not been taken over,
and its end is compared with the time read before the stall. -/
theorem finish_after_lease_end :
    ¬ ∀ (clock : Int) (as : List Action) (i : ℕ) (pc : Pc) (fails : Bool) (taskID lockedBy : String) (now : Int),
      (exec machine.step (initial clock) as).procs[i]? = some pc →
      Succeeds (exec machine.step (initial clock) as).shared fails pc taskID lockedBy now →
      ∃ l ∈ (exec machine.step (initial clock) as).shared.locks.rows, l.taskID = taskID ∧
        l.lockedBy = lockedBy ∧
          (exec machine.step (initial clock) as).shared.clock ≤ l.lockedUntil := by
  intro h
  obtain ⟨l, hl, _, _, huntil⟩ := h 0 stalledFinish 2 _ false "systask_1" "runner_a" 0 rfl (.finish rfl)
  have hall : ∀ l ∈ (exec machine.step (initial 0) stalledFinish).shared.locks.rows, l.lockedUntil < 11 := by
    decide
  have hlt := hall l hl
  have hclock : (exec machine.step (initial 0) stalledFinish).shared.clock = 11 := rfl
  omega

end AiGateway.SysTask
