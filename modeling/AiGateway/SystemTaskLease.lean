import AiGateway.SystemTaskActive

/-! Leases and running tasks. If no claim goes on after the end of the lease it asked for, every running
task is named by the lock of its type. -/
namespace AiGateway.SysTask

open Interleave (Guard)
open Table

def Named (db : Db) : Prop :=
  ∀ r ∈ db.tasks.rows, r.status = .running → ∃ l, db.locks.find r.type = some l ∧ l.taskID = r.taskID

def Done (db : Db) (taskID : String) : Prop := ∃ r ∈ db.tasks.rows, r.taskID = taskID ∧ r.status.active = false

def Quiet (db : Db) (ty : String) : Prop := ∀ r ∈ db.tasks.rows, r.status = .running → r.type ≠ ty

/-- No running task of the type has a lease that ended before `now`. -/
def Unexpired (db : Db) (ty : String) (now : Int) : Prop :=
  ∀ r ∈ db.tasks.rows, r.status = .running → r.type = ty → ∀ l, db.locks.find ty = some l →
    now ≤ l.lockedUntil

/-- The claim has the lock, and it is the only one to set a task of the type running. -/
structure Holding (db : Db) (c : Claim) (taskID : String) : Prop where
  lock : ∃ l, db.locks.find c.taskType = some l ∧ l.taskID = taskID ∧ l.lockedBy = c.runnerID ∧
    c.lockUntil ≤ l.lockedUntil
  quiet : Quiet db c.taskType

/-- The lock that a sweep is about to delete names no running task. -/
def Swept (db : Db) (now : Int) (lock : SystemTaskLock) : Prop :=
  ∀ l, db.locks.find lock.type = some l → lock.stale now l = true →
    ∀ r ∈ db.tasks.rows, r.status = .running → r.taskID ≠ lock.taskID

def Relies (db : Db) : Pc → Prop
  | .claimSelect c => c.now ≤ db.clock
  | .claimInsert c _ | .claimExisting c _ | .claimTakeOver c _ _ => c.now ≤ db.clock ∧ Unexpired db c.taskType c.now
  | .claimMark c taskID _ | .claimSetRunning c taskID | .claimRelease c taskID _ =>
    db.clock ≤ c.lockUntil → Done db taskID ∨ Holding db c taskID
  | .finishRelease taskID _ => Done db taskID
  | .release _ _ => False
  | .expireSelect now | .expireMark now _ _ => now ≤ db.clock
  | .expireDelete now lock _ => now ≤ db.clock ∧ Swept db now lock
  | _ => True

/-- The claim and its task, from the acquisition of the lock on. -/
def Pc.holding : Pc → Option (Claim × String)
  | .claimMark c taskID _ | .claimSetRunning c taskID | .claimRelease c taskID _ => some (c, taskID)
  | _ => none

/-- Of two claims of one type, one at most has a lease that lasts. -/
def Exclusive (db : Db) (a b : Pc) : Prop :=
  ∀ c t c' t', a.holding = some (c, t) → b.holding = some (c', t') → c.taskType = c'.taskType →
    db.clock ≤ c.lockUntil → db.clock ≤ c'.lockUntil → Done db t ∨ Done db t'

/-- A claim sets its task running, or gives the lock back, before its lease ends; a renewal
does not shorten a lease; a sweep is given a time that has come; and no lock is released
but by a claim or a finish. -/
def leaseOk : Guard Db Pc Call Bool ℕ where
  call db
    | .expireStaleSystemTaskLocks now => now ≤ db.clock
    | .releaseSystemTaskLock _ _ => False
    | _ => True
  run db pc _ :=
    match pc with
    | .claimSetRunning c _ | .claimRelease c _ _ => db.clock ≤ c.lockUntil
    | .renew taskID lockedBy now lockUntil => ∀ l ∈ db.locks.rows, l.held taskID lockedBy now →
        l.lockedUntil ≤ lockUntil
    | _ => True
  env _ _ := True

theorem Done.apply {db : Db} {taskID : String} (h : Done db taskID) (w : Write) : Done (w.apply db) taskID := by
  obtain ⟨r, hr, ht, hdone⟩ := h
  exact ⟨r, w.keeps_done hr hdone, ht, hdone⟩

variable {r : SystemTask} {l : SystemTaskLock}

theorem Done.inactive {db : Db} {taskID : String} {status : SystemTaskStatus} (h : Done db taskID)
    (hr : r ∈ db.tasks.rows) (ht : r.taskID = taskID) (hs : r.status = status) : status.active = false := by
  obtain ⟨_, hr', ht', hdone⟩ := h
  rw [← hs, ← Tasks.eq_of_taskID hr' hr (ht'.trans ht.symm)]
  exact hdone

theorem Found.row {db : Db} {c : Claim} (h : Found db c r.taskID) (hr : r ∈ db.tasks.rows) : r.type = c.taskType := by
  obtain ⟨_, hr', _, hty, ht⟩ := h
  rw [← Tasks.eq_of_taskID hr' hr ht]
  exact hty

variable {ty : String}

theorem Named.quiet {db : Db} (h : Named db) (hl : db.locks.find ty = none) : Quiet db ty := by
  intro r hr hrun hty
  obtain ⟨_, hf, _⟩ := h r hr hrun
  rw [hty, hl] at hf
  cases hf

theorem Unexpired.quiet {db : Db} {now : Int} (h : Unexpired db ty now) (hl : db.locks.find ty = some l)
    (hlt : l.lockedUntil < now) : Quiet db ty := by
  intro r hr hrun hty
  have hle := h r hr hrun hty l hl
  omega

section Statement

variable {db : Db} {pc : Pc} {fails : Bool} {w : Write}

/-- What the call that writes knows: the tables are in order, its own assertions hold, and
the statement is admissible. -/
structure Admissible (db : Db) (pc : Pc) (w : Write) : Prop where
  tables : Consistent db
  named : Named db
  found : FoundBy db pc
  relies : Relies db pc
  ok : leaseOk.run db pc false
  write : pc.write = some w

structure Extends (l l' : SystemTaskLock) : Prop where
  taskID : l'.taskID = l.taskID
  lockedBy : l'.lockedBy = l.lockedBy
  lockedUntil : l.lockedUntil ≤ l'.lockedUntil

theorem Extends.refl (l : SystemTaskLock) : Extends l l := ⟨rfl, rfl, le_rfl⟩

/-- The claim that has set the task `r` running just now. -/
structure SetRunning (db : Db) (pc : Pc) (w : Write) (c : Claim) (r : SystemTask) : Prop where
  pc : pc = .claimSetRunning c r.taskID
  locks : (w.apply db).locks = db.locks
  holding : Holding db c r.taskID
  type : r.type = c.taskType
  ontime : db.clock ≤ c.lockUntil
  pending : ∃ old ∈ db.tasks.rows, isPending c.id c.taskType old = true ∧ old.taskID = r.taskID

theorem SetRunning.not_done {c : Claim} (h : SetRunning db pc w c r) : ¬ Done db r.taskID := by
  intro hd
  obtain ⟨_, hold, hp, ht⟩ := h.pending
  cases hd.inactive hold ht (isPending_iff.mp hp).2.2

theorem Admissible.running (h : Admissible db pc w) (hr : r ∈ (w.apply db).tasks.rows) (hrun : r.status = .running) :
    (∃ old ∈ db.tasks.rows, old.status = .running ∧ SameTask old r) ∨ ∃ c, SetRunning db pc w c r := by
  cases Write.row hr with
  | kept hold => exact .inl ⟨r, hold, hrun, .refl r⟩
  | created | marked => cases hrun
  | state old hold hp => exact .inl ⟨old, hold, (isHeld_iff.mp hp).2.1, rfl, rfl, rfl⟩
  | @finished _ _ status _ _ _ old hold hp =>
    have hactive := status.2
    have hs : status.1 = .running := hrun
    rw [hs] at hactive
    cases hactive
  | running old hold hp =>
    -- Only a claim sends this update, and it is the claim of just this row.
    right
    have hw := h.write
    cases pc with
    | claimSetRunning c taskID =>
      cases hw
      obtain ⟨hid, hty, hpending⟩ := isPending_iff.mp hp
      obtain ⟨r', hr', hid', _, ht'⟩ := h.found c taskID rfl
      have hrow : r' = old := Tasks.eq_of_id hr' hold (hid'.trans hid.symm)
      have htask : old.taskID = taskID := hrow ▸ ht'
      have hontime : db.clock ≤ c.lockUntil := h.ok
      refine ⟨c, by rw [← htask]; rfl, rfl, ?_, hty, hontime, old, hold, hp, rfl⟩
      rcases h.relies hontime with hdone | hholding
      · cases hdone.inactive hold htask hpending
      · exact htask ▸ hholding
    | _ => cases hw

theorem Admissible.lock_before (h : Admissible db pc w) (hl : (w.apply db).locks.find ty = some l) :
    (∃ old, db.locks.find ty = some old ∧ Extends old l) ∨ Quiet db ty ∧ (w.apply db).tasks = db.tasks := by
  cases Write.lock hl with
  | kept hold => exact .inl ⟨l, hold, .refl l⟩
  | inserted hnone => exact .inr ⟨h.named.quiet hnone, rfl⟩
  | taken old hold hp =>
    right
    have hw := h.write
    cases pc with
    | claimTakeOver c =>
      cases hw
      obtain ⟨hty, hlt⟩ : old.type = c.taskType ∧ old.lockedUntil < c.now := by
        simpa [SystemTaskLock.expired] using hp
      have hkey : c.taskType = ty := hty.symm.trans (find_key _ hold)
      have hrelies := h.relies.2
      rw [hkey] at hrelies
      exact ⟨hrelies.quiet hold hlt, rfl⟩
    | _ => cases hw
  | renewed old hold hp =>
    left
    have hw := h.write
    cases pc with
    | renew =>
      cases hw
      have hle := h.ok old ((find_some_iff _ _ _).mp hold).1 hp
      exact ⟨old, hold, rfl, rfl, hle⟩
    | _ => cases hw

def Releases (pc : Pc) (taskID : String) : Prop :=
  (∃ c err, pc = .claimRelease c taskID err) ∨ ∃ lockedBy, pc = .finishRelease taskID lockedBy

/-- A lock goes only when no task runs under it, and while its lease lasts only by its release. -/
structure Lost (db : Db) (pc : Pc) (l : SystemTaskLock) : Prop where
  idle : ∀ r ∈ db.tasks.rows, r.status = .running → r.type = l.type → r.taskID ≠ l.taskID
  why : l.lockedUntil < db.clock ∨ Releases pc l.taskID

theorem Admissible.release (h : Admissible db pc w) (hr : Releases pc l.taskID) : Lost db pc l := by
  refine ⟨?_, .inr hr⟩
  intro r hrow hrun _ ht
  rcases hr with ⟨c, _, rfl⟩ | ⟨_, rfl⟩
  · rcases h.relies h.ok with hdone | hholding
    · cases hdone.inactive hrow ht hrun
    · exact hholding.quiet r hrow hrun (Found.row (ht ▸ h.found c l.taskID rfl) hrow)
  · cases Done.inactive h.relies hrow ht hrun

theorem Admissible.lock_after (h : Admissible db pc w) (hl : db.locks.find ty = some l) :
    (∃ l', (w.apply db).locks.find ty = some l' ∧ Extends l l') ∨ Lost db pc l := by
  have hkey := find_key _ hl
  have hmem := ((find_some_iff _ _ _).mp hl).1
  have hw := h.write
  cases w with
  | insertLock lock =>
    left
    by_cases hty : ty = lock.type
    · have hfull : db.locks.find lock.type = some l := hty ▸ hl
      refine ⟨l, ?_, .refl l⟩
      change (db.locks.insert lock).find ty = some l
      rw [insert_of_find hfull]
      exact hl
    · exact ⟨l, (find_insert_of_ne _ hty).trans hl, .refl l⟩
  | takeOver taskType taskID lockedBy now lockUntil =>
    have hfind : (SysTask.takeOver db.locks taskType taskID lockedBy now lockUntil).find ty =
        some (l.take taskType taskID lockedBy now lockUntil) := by
      rw [SysTask.takeOver, find_update, hl]
      rfl
    rw [SystemTaskLock.take] at hfind
    split at hfind
    · next hp =>
      -- The claim relies on no running task having an expired lease.
      right
      obtain ⟨hty, hlt⟩ : l.type = taskType ∧ l.lockedUntil < now := by
        simpa [SystemTaskLock.expired] using hp
      cases pc with
      | claimTakeOver c =>
        cases hw
        obtain ⟨hnow, hun⟩ := h.relies
        have hquiet : Quiet db c.taskType := hun.quiet (by rw [← hty, hkey]; exact hl) hlt
        refine ⟨?_, .inl (by omega)⟩
        intro r hr hrun hrt _
        exact hquiet r hr hrun (hrt.trans hty)
      | _ => cases hw
    · exact .inl ⟨l, hfind, .refl l⟩
  | renew taskID lockedBy now lockUntil =>
    left
    have hfind : (SysTask.renew db.locks taskID lockedBy now lockUntil).find ty =
        some (l.extend taskID lockedBy now lockUntil) := by
      rw [SysTask.renew, find_update, hl]
      rfl
    rw [SystemTaskLock.extend] at hfind
    split at hfind
    · next hp =>
      cases pc with
      | renew =>
        cases hw
        exact ⟨_, hfind, rfl, rfl, h.ok l hmem hp⟩
      | _ => cases hw
    · exact ⟨l, hfind, .refl l⟩
  | deleteStale lock now =>
    cases hp : lock.stale now l with
    | false => exact .inl ⟨l, find_deleteWhere_some.mpr ⟨hl, hp⟩, .refl l⟩
    | true =>
      right
      obtain ⟨hty, ht, _, hlt⟩ : l.type = lock.type ∧ l.taskID = lock.taskID ∧ l.lockedBy = lock.lockedBy ∧
          l.lockedUntil < now := by
        simpa [SystemTaskLock.stale] using hp
      cases pc with
      | expireDelete =>
        cases hw
        obtain ⟨hnow, hswept⟩ := h.relies
        refine ⟨?_, .inl (by omega)⟩
        intro r hr hrun _ he
        exact hswept l (by rw [← hty, hkey]; exact hl) hp r hr hrun (he.trans ht)
      | _ => cases hw
  | release taskID lockedBy =>
    cases hp : SystemTaskLock.ownedBy taskID lockedBy l with
    | false => exact .inl ⟨l, find_deleteWhere_some.mpr ⟨hl, hp⟩, .refl l⟩
    | true =>
      right
      obtain ⟨ht, _⟩ : l.taskID = taskID ∧ l.lockedBy = lockedBy := by
        simpa [SystemTaskLock.ownedBy] using hp
      apply h.release
      cases pc with
      | claimRelease c taskID' err =>
        cases hw
        exact .inl ⟨c, err, by rw [ht]⟩
      | finishRelease =>
        cases hw
        exact .inr ⟨lockedBy, by rw [ht]⟩
      | release => exact h.relies.elim
      | _ => cases hw
  | insertTask | markLeaseExpired | setRunning | setState | finish => exact .inl ⟨l, hl, .refl l⟩

end Statement

end AiGateway.SysTask
