import AiGateway.SystemTask

/-! What the writes do: a step of a call does one write at most, and for each write it is said which
rows and which locks it leaves. -/
namespace AiGateway.SysTask

open Option Table

def Pc.write : Pc → Option Write
  | .create taskID taskType payloadText stateText => some (.insertTask taskID taskType payloadText stateText)
  | .claimInsert c taskID => some (.insertLock ⟨c.taskType, taskID, c.runnerID, c.lockUntil, c.now⟩)
  | .claimTakeOver c taskID _ => some (.takeOver c.taskType taskID c.runnerID c.now c.lockUntil)
  | .claimMark _ _ expired => some (.markLeaseExpired expired)
  | .claimSetRunning c _ => some (.setRunning c.id c.taskType c.runnerID c.now)
  | .claimRelease c taskID _ => some (.release taskID c.runnerID)
  | .updateState taskID lockedBy stateText now => some (.setState taskID lockedBy stateText now)
  | .renew taskID lockedBy now lockUntil => some (.renew taskID lockedBy now lockUntil)
  | .finish taskID lockedBy status resultText errorMessage now =>
    some (.finish taskID lockedBy status resultText errorMessage now)
  | .finishRelease taskID lockedBy => some (.release taskID lockedBy)
  | .release taskID lockedBy => some (.release taskID lockedBy)
  | .expireMark _ lock _ => some (.markLeaseExpired lock.taskID)
  | .expireDelete now lock _ => some (.deleteStale lock now)
  | .claimSelect _ | .claimExisting _ _ | .claimReload _ | .expireSelect _ | .returned _ => none

theorem next_keeps {P : Db → Prop} {pc : Pc} {db : Db} (h : P db) (hwrite : ∀ w, pc.write = some w →
    P (w.apply db))
    (fails : Bool) : P (next pc db fails).1 := by
  cases hw : pc.write with
  | none =>
    have hsame : (next pc db fails).1 = db := by
      cases pc <;> first | rfl | cases hw
    rw [hsame]
    exact h
  | some w =>
    have hex : ∃ onError k, next pc db fails = execute db fails w onError k := by
      cases pc <;> cases hw <;> simp only [next] <;> exact ⟨_, _, rfl⟩
    obtain ⟨_, _, he⟩ := hex
    rw [he]
    cases fails with
    | true => exact h
    | false => exact hwrite w hw

/-- Where a call goes with its next statement. A statement that fails, or that no row meets, leaves
the tables as they are; what the tables are when the call returns is not said here. -/
inductive Goes (db : Db) : Pc → Db → Pc → Prop
  | returns {pc db' r} : Goes db pc db' (.returned r)
  | select {c task} (h : db.tasks.rows.find? (isPending c.id c.taskType) = some task) :
    Goes db (.claimSelect c) db (.claimInsert c task.taskID)
  | insert {c taskID} (h : db.locks.find c.taskType = none) :
    Goes db (.claimInsert c taskID)
      ((Write.insertLock ⟨c.taskType, taskID, c.runnerID, c.lockUntil, c.now⟩).apply db) (.claimSetRunning c taskID)
  | refused {c taskID} : Goes db (.claimInsert c taskID) db (.claimExisting c taskID)
  | existing {c taskID existing} : Goes db (.claimExisting c taskID) db (.claimTakeOver c taskID existing)
  | takeOver {c taskID existing pc'}
    (h : (Write.takeOver c.taskType taskID c.runnerID c.now c.lockUntil).affects db = true)
    (hpc : pc' = .claimMark c taskID existing ∨ pc' = .claimSetRunning c taskID) :
    Goes db (.claimTakeOver c taskID existing)
      ((Write.takeOver c.taskType taskID c.runnerID c.now c.lockUntil).apply db) pc'
  | mark {c taskID expired} :
    Goes db (.claimMark c taskID expired) ((Write.markLeaseExpired expired).apply db) (.claimSetRunning c taskID)
  | markFails {c taskID expired err} : Goes db (.claimMark c taskID expired) db (.claimRelease c taskID err)
  | setRunning {c taskID} :
    Goes db (.claimSetRunning c taskID) ((Write.setRunning c.id c.taskType c.runnerID c.now).apply db) (.claimReload c)
  | notRunning {c taskID err} : Goes db (.claimSetRunning c taskID) db (.claimRelease c taskID err)
  | finish {taskID lockedBy status resultText errorMessage now}
    (h : (Write.finish taskID lockedBy status resultText errorMessage now).affects db = true) :
    Goes db (.finish taskID lockedBy status resultText errorMessage now)
      ((Write.finish taskID lockedBy status resultText errorMessage now).apply db) (.finishRelease taskID lockedBy)
  | sweep {now lock rest} : Goes db (.expireSelect now) db (.expireMark now lock rest)
  | sweepMark {now lock rest} :
    Goes db (.expireMark now lock rest) ((Write.markLeaseExpired lock.taskID).apply db) (.expireDelete now lock rest)
  | sweepDelete {now lock lock' rest} :
    Goes db (.expireDelete now lock (lock' :: rest)) ((Write.deleteStale lock now).apply db)
      (.expireMark now lock' rest)

variable (pc : Pc)

theorem next_goes_failed (db : Db) : Goes db pc (next pc db true).1 (next pc db true).2 := by
  cases pc with
  | claimInsert => exact .refused
  | claimMark => exact .markFails
  | claimSetRunning => exact .notRunning
  | _ => exact .returns

theorem next_goes_executed (db : Db) : Goes db pc (next pc db false).1 (next pc db false).2 := by
  cases pc with
  | claimSelect c =>
    cases hf : db.tasks.rows.find? (isPending c.id c.taskType) with
    | none =>
      simp only [next, query, hf]
      exact .returns
    | some =>
      simp only [next, query, hf]
      exact .select hf
  | claimInsert c taskID =>
    cases hf : db.locks.find c.taskType with
    | none =>
      simp only [next, execute, Write.affects, hf, isNone_none]
      exact .insert hf
    | some =>
      -- The insert is refused, and the table is the same.
      have hsame : (Write.insertLock ⟨c.taskType, taskID, c.runnerID, c.lockUntil, c.now⟩).apply db = db := by
        rw [Write.apply, insert_of_find hf]
      simp only [next, execute, Write.affects, hf, isNone_some, Bool.false_eq_true, if_false, hsame]
      exact .refused
  | claimExisting c =>
    cases hf : db.locks.find c.taskType with
    | none =>
      simp only [next, query, hf]
      exact .returns
    | some =>
      simp only [next, query, hf, Bool.false_eq_true, if_false]
      split
      · exact .returns
      · exact .existing
  | claimTakeOver c taskID =>
    cases ha : (Write.takeOver c.taskType taskID c.runnerID c.now c.lockUntil).affects db with
    | false =>
      simp only [next, execute, ha]
      exact .returns
    | true =>
      simp only [next, execute, ha, Bool.false_eq_true, if_false, if_true, Pc.acquired]
      split
      · exact .takeOver ha (.inl rfl)
      · exact .takeOver ha (.inr rfl)
  | claimSetRunning c =>
    cases ha : db.tasks.rows.any (isPending c.id c.taskType) with
    | true =>
      simp only [next, execute, Write.affects, ha]
      exact .setRunning
    | false =>
      have hsame : (Write.setRunning c.id c.taskType c.runnerID c.now).apply db = db := by
        rw [Write.apply, Tasks.updateWhere_none ha]
      simp only [next, execute, Write.affects, ha, Bool.false_eq_true, if_false, hsame]
      exact .notRunning
  | claimReload c =>
    cases hf : db.tasks.table.find c.id with
    | none | some =>
      simp only [next, query, hf]
      exact .returns
  | finish taskID lockedBy status resultText errorMessage now =>
    cases ha : (Write.finish taskID lockedBy status resultText errorMessage now).affects db with
    | false =>
      simp only [next, execute, ha]
      exact .returns
    | true =>
      simp only [next, execute, ha]
      exact .finish ha
  | expireSelect now =>
    simp only [next, query]
    cases db.locks.rows.filter (fun l => l.lockedUntil < now) with
    | nil => exact .returns
    | cons => exact .sweep
  | expireDelete now lock rest =>
    cases rest with
    | nil => exact .returns
    | cons => exact .sweepDelete
  | claimMark => exact .mark
  | expireMark => exact .sweepMark
  | _ => exact .returns

theorem next_goes (db : Db) (fails : Bool) : Goes db pc (next pc db fails).1 (next pc db fails).2 := by
  cases fails with
  | true => exact next_goes_failed pc db
  | false => exact next_goes_executed pc db

@[simp] theorem Write.apply_clock (db : Db) (w : Write) : (w.apply db).clock = db.clock := by
  cases w <;> rfl

/-- The row is the same task. -/
structure SameTask (r r' : SystemTask) : Prop where
  id : r'.id = r.id
  taskID : r'.taskID = r.taskID
  type : r'.type = r.type

theorem SameTask.refl (r : SystemTask) : SameTask r r := ⟨rfl, rfl, rfl⟩

theorem SameTask.written (p : SystemTask → Bool) (a : Assignment) (r : SystemTask) :
    SameTask r (Tasks.written p a r) :=
  ⟨Tasks.written_id p a r, Tasks.written_taskID p a r, Tasks.written_type p a r⟩

/-- Where a row comes from: it was there, it is new, or an `UPDATE` wrote it. -/
inductive RowWrite (db : Db) : Write → SystemTask → Prop
  | kept {w r} (h : r ∈ db.tasks.rows) : RowWrite db w r
  | created {taskID taskType payloadText stateText} :
    RowWrite db (.insertTask taskID taskType payloadText stateText) (newTask db taskID taskType payloadText stateText)
  | marked {taskID} (old) (h : old ∈ db.tasks.rows) (hp : isRunning taskID old = true) :
    RowWrite db (.markLeaseExpired taskID) ((setLeaseExpired db.clock).set old)
  | running {id taskType runnerID now} (old) (h : old ∈ db.tasks.rows) (hp : isPending id taskType old = true) :
    RowWrite db (.setRunning id taskType runnerID now) ((SysTask.setRunning runnerID now).set old)
  | state {taskID lockedBy stateText now} (old) (h : old ∈ db.tasks.rows)
    (hp : isHeld db taskID lockedBy now old = true) :
    RowWrite db (.setState taskID lockedBy stateText now) ((SysTask.setState stateText now).set old)
  | finished {taskID lockedBy status resultText errorMessage now} (old) (h : old ∈ db.tasks.rows)
    (hp : isHeld db taskID lockedBy now old = true) :
    RowWrite db (.finish taskID lockedBy status resultText errorMessage now)
      ((setFinished status resultText errorMessage now).set old)

variable {r : SystemTask}

theorem Tasks.mem_updateWhere_cases {t : Tasks} {p : SystemTask → Bool} {a : Assignment}
    (h : r ∈ (t.updateWhere p a).rows) : r ∈ t.rows ∨ ∃ old ∈ t.rows, p old = true ∧ r = a.set old := by
  obtain ⟨old, hold, rfl⟩ := Tasks.mem_updateWhere.mp h
  rcases Tasks.written_cases p a old with ⟨hp, he⟩ | ⟨_, he⟩
  · exact .inr ⟨old, hold, hp, he⟩
  · rw [he]
    exact .inl hold

variable {db : Db}

theorem Write.row {w : Write} (h : r ∈ (w.apply db).tasks.rows) : RowWrite db w r := by
  have hupdate {p : SystemTask → Bool} {a : Assignment} (h : r ∈ (db.tasks.updateWhere p a).rows)
      (hwrote : ∀ old ∈ db.tasks.rows, p old = true → RowWrite db w (a.set old)) : RowWrite db w r := by
    rcases Tasks.mem_updateWhere_cases h with h | ⟨old, hold, hp, rfl⟩
    · exact .kept h
    · exact hwrote old hold hp
  cases w with
  | insertTask =>
    rcases Tasks.mem_insert h with h | rfl
    · exact .kept h
    · exact .created
  | markLeaseExpired => exact hupdate h .marked
  | setRunning => exact hupdate h .running
  | setState => exact hupdate h .state
  | finish => exact hupdate h .finished
  | insertLock | takeOver | renew | deleteStale | release => exact .kept h

theorem Write.keeps_task (w : Write) (h : r ∈ db.tasks.rows) :
    ∃ r' ∈ (w.apply db).tasks.rows, SameTask r r' := by
  have hupdate (p : SystemTask → Bool) (a : Assignment) : ∃ r' ∈ (db.tasks.updateWhere p a).rows, SameTask r r' :=
    ⟨_, Tasks.mem_updateWhere.mpr ⟨r, h, rfl⟩, .written p a r⟩
  cases w with
  | insertTask => exact ⟨r, Tasks.mem_insert_of_mem h, .refl r⟩
  | markLeaseExpired | setRunning | setState | finish => exact hupdate _ _
  | insertLock | takeOver | renew | deleteStale | release => exact ⟨r, h, .refl r⟩

theorem Write.keeps_done (w : Write) (h : r ∈ db.tasks.rows) (hdone : r.status.active = false) :
    r ∈ (w.apply db).tasks.rows := by
  have hupdate (p : SystemTask → Bool) (a : Assignment) (hp : p r = false) :
      r ∈ (db.tasks.updateWhere p a).rows := by
    refine Tasks.mem_updateWhere.mpr ⟨r, h, ?_⟩
    simp [Tasks.written, hp]
  have hrunning : r.status ≠ .running := by
    intro he
    rw [he] at hdone
    cases hdone
  have hpending : r.status ≠ .pending := by
    intro he
    rw [he] at hdone
    cases hdone
  cases w with
  | insertTask => exact Tasks.mem_insert_of_mem h
  | markLeaseExpired => exact hupdate _ _ (by simp [isRunning, hrunning])
  | setRunning => exact hupdate _ _ (by simp [isPending, hpending])
  | setState | finish => exact hupdate _ _ (by simp [isHeld, hrunning])
  | insertLock | takeOver | renew | deleteStale | release => exact h

inductive LockWrite (db : Db) (ty : String) : Write → SystemTaskLock → Prop
  | kept {w l} (h : db.locks.find ty = some l) : LockWrite db ty w l
  | inserted {lock} (h : db.locks.find ty = none) (ht : lock.type = ty) : LockWrite db ty (.insertLock lock) lock
  | taken {taskType taskID lockedBy now lockUntil} (old) (h : db.locks.find ty = some old)
    (hp : old.expired taskType now = true) :
    LockWrite db ty (.takeOver taskType taskID lockedBy now lockUntil)
      { old with taskID := taskID, lockedBy := lockedBy, lockedUntil := lockUntil, updatedAt := now }
  | renewed {taskID lockedBy now lockUntil} (old) (h : db.locks.find ty = some old)
    (hp : old.held taskID lockedBy now = true) :
    LockWrite db ty (.renew taskID lockedBy now lockUntil) { old with lockedUntil := lockUntil, updatedAt := now }

theorem Write.lock {w : Write} {ty : String} {l : SystemTaskLock} (h : (w.apply db).locks.find ty = some l) :
    LockWrite db ty w l := by
  cases w with
  | insertLock lock =>
    change (db.locks.insert lock).find ty = some l at h
    cases hf : db.locks.find lock.type with
    | some =>
      rw [insert_of_find hf] at h
      exact .kept h
    | none =>
      rw [find_insert _ _ _ hf] at h
      split at h
      · next hty =>
        cases h
        exact .inserted (hty ▸ hf) hty.symm
      · exact .kept h
  | takeOver taskType taskID lockedBy now lockUntil =>
    change (SysTask.takeOver db.locks taskType taskID lockedBy now lockUntil).find ty = some l at h
    rw [SysTask.takeOver, find_update, map_eq_some_iff] at h
    obtain ⟨old, hold, rfl⟩ := h
    rw [SystemTaskLock.take]
    split
    · next hp => exact .taken old hold hp
    · exact .kept hold
  | renew taskID lockedBy now lockUntil =>
    change (SysTask.renew db.locks taskID lockedBy now lockUntil).find ty = some l at h
    rw [SysTask.renew, find_update, map_eq_some_iff] at h
    obtain ⟨old, hold, rfl⟩ := h
    rw [SystemTaskLock.extend]
    split
    · next hp => exact .renewed old hold hp
    · exact .kept hold
  | deleteStale | release => exact .kept (find_deleteWhere_some.mp h).1
  | insertTask | markLeaseExpired | setRunning | setState | finish => exact .kept h

end AiGateway.SysTask
