import AiGateway.Interleave
import AiGateway.SystemTaskTable

/-! System tasks. The right to run a type of task is a lock row with a lease. Between two statements of a
call other calls may run, and a call may stall. -/
namespace AiGateway.SysTask

open Interleave (Machine System)

structure Db where
  tasks : Tasks
  locks : Table SystemTaskLock.type
  clock : Int

def Db.empty (clock : Int) : Db := ⟨.empty, .empty, clock⟩

inductive Write
  | insertTask (taskID taskType payloadText stateText : String)
  | insertLock (lock : SystemTaskLock)
  | takeOver (taskType taskID lockedBy : String) (now lockUntil : Int)
  | markLeaseExpired (taskID : String)
  | setRunning (id : Int) (taskType runnerID : String) (now : Int)
  | setState (taskID lockedBy stateText : String) (now : Int)
  | renew (taskID lockedBy : String) (now lockUntil : Int)
  | deleteStale (lock : SystemTaskLock) (now : Int)
  | release (taskID lockedBy : String)
  | finish (taskID lockedBy : String) (status : Terminal) (resultText errorMessage : String) (now : Int)

variable (db : Db)

/-- `EXISTS (SELECT 1 FROM system_task_locks ...)`: the runner has a lock for the task whose
lease has not run out at `now`. -/
def Db.leased (taskID lockedBy : String) (now : Int) : Bool :=
  db.locks.rows.any (fun l => l.taskID = taskID ∧ l.lockedBy = lockedBy ∧ now ≤ l.lockedUntil)

/-- The row of `CreateSystemTask`, with the times of `BeforeCreate`. -/
def newTask (taskID taskType payloadText stateText : String) : SystemTask :=
  ⟨db.tasks.nextID, taskID, taskType, .pending, some taskType, payloadText, stateText, "", "", "",
    db.clock, db.clock⟩

def setRunning (runnerID : String) (now : Int) : Assignment where
  set r := { r with status := .running, lockedBy := runnerID, updatedAt := now }
  id _ := rfl
  taskID _ := rfl
  type _ := rfl
  activeKey _ := Or.inl rfl

def setState (stateText : String) (now : Int) : Assignment where
  set r := { r with state := stateText, updatedAt := now }
  id _ := rfl
  taskID _ := rfl
  type _ := rfl
  activeKey _ := Or.inl rfl

def setLeaseExpired (now : Int) : Assignment where
  set r := { r with status := .failed, activeKey := none, error := "task lease expired", updatedAt := now }
  id _ := rfl
  taskID _ := rfl
  type _ := rfl
  activeKey _ := Or.inr rfl

def setFinished (status : Terminal) (resultText errorMessage : String) (now : Int) : Assignment where
  set r := { r with
    status := status.1, activeKey := none, result := resultText, error := errorMessage, updatedAt := now }
  id _ := rfl
  taskID _ := rfl
  type _ := rfl
  activeKey _ := Or.inr rfl

def isPending (id : Int) (taskType : String) (r : SystemTask) : Bool :=
  r.id = id ∧ r.type = taskType ∧ r.status = .pending

def isRunning (taskID : String) (r : SystemTask) : Bool := r.taskID = taskID ∧ r.status = .running

/-- The guard of `UpdateSystemTaskState` and `FinishSystemTask`. -/
def isHeld (taskID lockedBy : String) (now : Int) (r : SystemTask) : Bool :=
  r.taskID = taskID ∧ r.status = .running ∧ r.lockedBy = lockedBy ∧ db.leased r.taskID lockedBy now

def SystemTaskLock.expired (taskType : String) (now : Int) (l : SystemTaskLock) : Bool :=
  l.type = taskType ∧ l.lockedUntil < now

def SystemTaskLock.held (taskID lockedBy : String) (now : Int) (l : SystemTaskLock) : Bool :=
  l.taskID = taskID ∧ l.lockedBy = lockedBy ∧ now ≤ l.lockedUntil

def SystemTaskLock.stale (lock : SystemTaskLock) (now : Int) (l : SystemTaskLock) : Bool :=
  l.type = lock.type ∧ l.taskID = lock.taskID ∧ l.lockedBy = lock.lockedBy ∧ l.lockedUntil < now

def SystemTaskLock.ownedBy (taskID lockedBy : String) (l : SystemTaskLock) : Bool :=
  l.taskID = taskID ∧ l.lockedBy = lockedBy

def SystemTaskLock.take (taskType taskID lockedBy : String) (now lockUntil : Int) (l : SystemTaskLock) :
    SystemTaskLock :=
  if l.expired taskType now then
    { l with taskID := taskID, lockedBy := lockedBy, lockedUntil := lockUntil, updatedAt := now }
  else l

def SystemTaskLock.extend (taskID lockedBy : String) (now lockUntil : Int) (l : SystemTaskLock) : SystemTaskLock :=
  if l.held taskID lockedBy now then { l with lockedUntil := lockUntil, updatedAt := now } else l

theorem SystemTaskLock.take_type (taskType taskID lockedBy : String) (now lockUntil : Int) (l : SystemTaskLock) :
    (l.take taskType taskID lockedBy now lockUntil).type = l.type := by
  unfold SystemTaskLock.take
  split <;> rfl

theorem SystemTaskLock.extend_type (taskID lockedBy : String) (now lockUntil : Int) (l : SystemTaskLock) :
    (l.extend taskID lockedBy now lockUntil).type = l.type := by
  unfold SystemTaskLock.extend
  split <;> rfl

/-- The takeover `UPDATE` of `acquireSystemTaskLock`. -/
def takeOver (locks : Table SystemTaskLock.type) (taskType taskID lockedBy : String) (now lockUntil : Int) :
    Table SystemTaskLock.type :=
  locks.update (SystemTaskLock.take taskType taskID lockedBy now lockUntil)
    (SystemTaskLock.take_type taskType taskID lockedBy now lockUntil)

/-- The `UPDATE` of `RenewSystemTaskLock`. -/
def renew (locks : Table SystemTaskLock.type) (taskID lockedBy : String) (now lockUntil : Int) :
    Table SystemTaskLock.type :=
  locks.update (SystemTaskLock.extend taskID lockedBy now lockUntil)
    (SystemTaskLock.extend_type taskID lockedBy now lockUntil)

def Write.apply : Write → Db
  | .insertTask taskID taskType payloadText stateText =>
    { db with tasks := db.tasks.insert (newTask db taskID taskType payloadText stateText) }
  | .insertLock lock => { db with locks := db.locks.insert lock }
  | .takeOver taskType taskID lockedBy now lockUntil =>
    { db with locks := SysTask.takeOver db.locks taskType taskID lockedBy now lockUntil }
  | .markLeaseExpired taskID =>
    { db with tasks := db.tasks.updateWhere (isRunning taskID) (setLeaseExpired db.clock) }
  | .setRunning id taskType runnerID now =>
    { db with tasks := db.tasks.updateWhere (isPending id taskType) (SysTask.setRunning runnerID now) }
  | .setState taskID lockedBy stateText now =>
    { db with tasks := db.tasks.updateWhere (isHeld db taskID lockedBy now) (SysTask.setState stateText now) }
  | .renew taskID lockedBy now lockUntil =>
    { db with locks := SysTask.renew db.locks taskID lockedBy now lockUntil }
  | .deleteStale lock now => { db with locks := db.locks.deleteWhere (lock.stale now) }
  | .release taskID lockedBy => { db with locks := db.locks.deleteWhere (SystemTaskLock.ownedBy taskID lockedBy) }
  | .finish taskID lockedBy status resultText errorMessage now =>
    let assignment := setFinished status resultText errorMessage now
    { db with tasks := db.tasks.updateWhere (isHeld db taskID lockedBy now) assignment }

def Write.affects : Write → Bool
  | .insertTask taskID taskType payloadText stateText =>
      db.tasks.Accepts (newTask db taskID taskType payloadText stateText)
  | .insertLock lock => (db.locks.find lock.type).isNone
  | .takeOver taskType _ _ now _ => db.locks.rows.any (SystemTaskLock.expired taskType now)
  | .markLeaseExpired taskID => db.tasks.rows.any (isRunning taskID)
  | .setRunning id taskType _ _ => db.tasks.rows.any (isPending id taskType)
  | .setState taskID lockedBy _ now => db.tasks.rows.any (isHeld db taskID lockedBy now)
  | .renew taskID lockedBy now _ => db.locks.rows.any (SystemTaskLock.held taskID lockedBy now)
  | .deleteStale lock now => db.locks.rows.any (lock.stale now)
  | .release taskID lockedBy => db.locks.rows.any (SystemTaskLock.ownedBy taskID lockedBy)
  | .finish taskID lockedBy _ _ _ now => db.tasks.rows.any (isHeld db taskID lockedBy now)

inductive Err
  -- The database refused the statement or did not answer.
  | database
  | duplicatedKey
  | recordNotFound
  | systemTaskLockLost
deriving DecidableEq

inductive Returned
  | created (result : Except Err SystemTask)
  | claimed (task : Option SystemTask) (claimed : Bool) (err : Option Err)
  | done (err : Option Err)

/-- The arguments of `ClaimSystemTask` and the time that it reads first. -/
structure Claim where
  id : Int
  taskType : String
  runnerID : String
  lockUntil : Int
  now : Int
deriving DecidableEq

inductive Pc
  | create (taskID taskType payloadText stateText : String)
  | claimSelect (c : Claim)
  | claimInsert (c : Claim) (taskID : String)
  | claimExisting (c : Claim) (taskID : String)
  | claimTakeOver (c : Claim) (taskID existing : String)
  | claimMark (c : Claim) (taskID expired : String)
  | claimSetRunning (c : Claim) (taskID : String)
  | claimRelease (c : Claim) (taskID : String) (err : Option Err)
  | claimReload (c : Claim)
  | updateState (taskID lockedBy stateText : String) (now : Int)
  | renew (taskID lockedBy : String) (now lockUntil : Int)
  | finish (taskID lockedBy : String) (status : Terminal) (resultText errorMessage : String) (now : Int)
  | finishRelease (taskID lockedBy : String)
  | release (taskID lockedBy : String)
  | expireSelect (now : Int)
  | expireMark (now : Int) (lock : SystemTaskLock) (rest : List SystemTaskLock)
  | expireDelete (now : Int) (lock : SystemTaskLock) (rest : List SystemTaskLock)
  | returned (r : Returned)

def Pc.answer (lost : Option Err) (affected : Bool) : Pc := .returned (.done (if affected then none else lost))

/-- The head of the loop of `ExpireStaleSystemTaskLocks`. -/
def Pc.expireNext (now : Int) : List SystemTaskLock → Pc
  | [] => .returned (.done none)
  | lock :: rest => .expireMark now lock rest

def Pc.acquired (c : Claim) (taskID expired : String) : Pc :=
  if expired ≠ "" ∧ expired ≠ taskID then .claimMark c taskID expired else .claimSetRunning c taskID

/-- The statement fails, or it is executed and the call goes on with its answer. -/
def execute (fails : Bool) (w : Write) (onError : Pc) (k : Bool → Pc) : Db × Pc :=
  if fails then (db, onError) else (w.apply db, k (w.affects db))

def query (fails : Bool) (onError onAnswer : Pc) : Db × Pc :=
  (db, if fails then onError else onAnswer)

def Pc.unclaimed (err : Option Err) : Pc := .returned (.claimed none false err)

def next (pc : Pc) (db : Db) (fails : Bool) : Db × Pc :=
  match pc with
  | .create taskID taskType payloadText stateText =>
    execute db fails (.insertTask taskID taskType payloadText stateText) (.returned (.created (.error .database)))
      (fun accepted => .returned (.created
        (if accepted then .ok (newTask db taskID taskType payloadText stateText) else .error .duplicatedKey)))
  | .claimSelect c =>
    query db fails (.unclaimed (some .database))
      (match db.tasks.rows.find? (isPending c.id c.taskType) with
      | none => .unclaimed none
      | some task => .claimInsert c task.taskID)
  | .claimInsert c taskID =>
    -- Any error of the insert leads to the lookup of the lock that is in the way.
    execute db fails (.insertLock ⟨c.taskType, taskID, c.runnerID, c.lockUntil, c.now⟩) (.claimExisting c taskID)
      (fun accepted => if accepted then .acquired c taskID "" else .claimExisting c taskID)
  | .claimExisting c taskID =>
    query db fails (.unclaimed (some .database))
      (match db.locks.find c.taskType with
      | none => .unclaimed none
      | some existing =>
        if c.now ≤ existing.lockedUntil then .unclaimed none else .claimTakeOver c taskID existing.taskID)
  | .claimTakeOver c taskID existing =>
    execute db fails (.takeOver c.taskType taskID c.runnerID c.now c.lockUntil) (.unclaimed (some .database))
      (fun affected => if affected then .acquired c taskID existing else .unclaimed none)
  | .claimMark c taskID expired =>
    execute db fails (.markLeaseExpired expired) (.claimRelease c taskID (some .database))
      (fun _ => .claimSetRunning c taskID)
  | .claimSetRunning c taskID =>
    execute db fails (.setRunning c.id c.taskType c.runnerID c.now) (.claimRelease c taskID (some .database))
      (fun affected => if affected then .claimReload c else .claimRelease c taskID none)
  | .claimRelease c taskID err =>
    -- The error of this release is dropped.
    execute db fails (.release taskID c.runnerID) (.unclaimed err) (fun _ => .unclaimed err)
  | .claimReload c =>
    query db fails (.unclaimed (some .database))
      (match db.tasks.table.find c.id with
      | none => .unclaimed (some .recordNotFound)
      | some task => .returned (.claimed (some task) true none))
  | .updateState taskID lockedBy stateText now =>
    execute db fails (.setState taskID lockedBy stateText now) (.returned (.done (some .database)))
      (.answer (some .systemTaskLockLost))
  | .renew taskID lockedBy now lockUntil =>
    execute db fails (.renew taskID lockedBy now lockUntil) (.returned (.done (some .database)))
      (.answer (some .systemTaskLockLost))
  | .finish taskID lockedBy status resultText errorMessage now =>
    execute db fails (.finish taskID lockedBy status resultText errorMessage now) (.returned (.done (some .database)))
      (fun affected =>
        if affected then .finishRelease taskID lockedBy else .returned (.done (some .systemTaskLockLost)))
  | .finishRelease taskID lockedBy =>
    execute db fails (.release taskID lockedBy) (.returned (.done (some .database))) (.answer none)
  | .release taskID lockedBy =>
    execute db fails (.release taskID lockedBy) (.returned (.done (some .database))) (.answer none)
  | .expireSelect now =>
    query db fails (.returned (.done (some .database)))
      (.expireNext now (db.locks.rows.filter (fun l => l.lockedUntil < now)))
  | .expireMark now lock rest =>
    execute db fails (.markLeaseExpired lock.taskID) (.returned (.done (some .database)))
      (fun _ => .expireDelete now lock rest)
  | .expireDelete now lock rest =>
    execute db fails (.deleteStale lock now) (.returned (.done (some .database))) (fun _ => .expireNext now rest)
  | .returned r => (db, .returned r)

inductive Call
  | createSystemTask (taskID taskType payload state : String)
  | claimSystemTask (id : Int) (taskType runnerID : String) (lockUntil : Int)
  | updateSystemTaskState (taskID lockedBy state : String)
  | renewSystemTaskLock (taskID lockedBy : String) (lockUntil : Int)
  | finishSystemTask (taskID lockedBy : String) (status : Terminal) (resultPayload errorMessage : String)
  | releaseSystemTaskLock (taskID lockedBy : String)
  | expireStaleSystemTaskLocks (now : Int)

def start (call : Call) (db : Db) : Pc :=
  match call with
  | .createSystemTask taskID taskType payload state => .create taskID taskType payload state
  | .claimSystemTask id taskType runnerID lockUntil => .claimSelect ⟨id, taskType, runnerID, lockUntil, db.clock⟩
  | .updateSystemTaskState taskID lockedBy state => .updateState taskID lockedBy state db.clock
  | .renewSystemTaskLock taskID lockedBy lockUntil => .renew taskID lockedBy db.clock lockUntil
  | .finishSystemTask taskID lockedBy status result errorMessage =>
      .finish taskID lockedBy status result errorMessage db.clock
  | .releaseSystemTaskLock taskID lockedBy => .release taskID lockedBy
  | .expireStaleSystemTaskLocks now => .expireSelect now

def machine : Machine Db Pc Call Bool ℕ where
  start := start
  next := next
  env db ticks := { db with clock := db.clock+ticks }

abbrev Action := Interleave.Action Call Bool ℕ

def initial (clock : Int) : System Db Pc := ⟨.empty clock, []⟩

end AiGateway.SysTask
