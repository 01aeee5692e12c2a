import AiGateway.BillingSession

/-! The rows of asynchronous tasks and the statements that read and write them. -/
namespace AiGateway.Tasks
open Billing List Table

/-- A status is free text upstream; only some texts have a meaning. -/
inductive TaskStatus
  | notStart | submitted | queued | inProgress | failure | success | unknown
  | other (text : String)
deriving DecidableEq

def TaskStatus.empty : TaskStatus := .other ""

def TaskStatus.done (s : TaskStatus) : Bool := s = .success ∨ s = .failure

inductive TaskPlatform
  | midjourney | suno
  | other (name : String)
deriving DecidableEq

structure TaskPrivateData where
  key : String := ""
  upstreamTaskId : String := ""
  resultUrl : String := ""
  billingSource : Option BillingSource := none
  subscriptionId : Int := 0
  tokenId : Int := 0
  perCallBilling : Bool := false
deriving DecidableEq

structure Task where
  id : Int
  taskId : String
  platform : TaskPlatform
  userId : Int
  channelId : Int
  quota : Int
  action : String := ""
  status : TaskStatus := .notStart
  failReason : String := ""
  submitTime : Int
  startTime : Int := 0
  finishTime : Int := 0
  progress : String := "0%"
  privateData : TaskPrivateData := {}
  data : List UInt8 := []
deriving DecidableEq

abbrev Rows := Table Task.id

def getUpstreamTaskId (t : Task) : String :=
  if t.privateData.upstreamTaskId ≠ "" then t.privateData.upstreamTaskId else t.taskId

def snapshotEqual (a b : Task) : Bool :=
  a.status = b.status ∧ a.progress = b.progress ∧ a.startTime = b.startTime ∧ a.finishTime = b.finishTime ∧
    a.failReason = b.failReason ∧ a.privateData.resultUrl = b.privateData.resultUrl ∧ a.data = b.data

variable (rows : Rows)

/-- The compare-and-swap write: the whole row, if its stored status is still `fromStatus`. -/
def updateWithStatus (t : Task) (fromStatus : TaskStatus) : Bool × Rows :=
  match rows.find t.id with
  -- No row is affected.
  | none => (false, rows)
  | some r => if r.status = fromStatus then (true, rows.save t) else (false, rows)

def failed (failReason : Option String) (t : Task) : Task :=
  { t with status := .failure, progress := "100%", failReason := failReason.getD t.failReason }

def taskBulkUpdateByID (ids : List Int) (failReason : Option String) : Rows :=
  rows.update (fun t => if t.id ∈ ids then failed failReason t else t) (by
    intro t
    split <;> rfl)

def unfinished (t : Task) : Bool :=
  -- A row at 100% is never polled again, whatever its status.
  t.progress ≠ "100%" ∧ t.status ≠ .failure ∧ t.status ≠ .success

def getAllUnFinishSyncTasks (limit : ℕ) : List Task :=
  ((rows.rows.filter (fun t => unfinished t)).insertionSort (fun a b => a.id ≤ b.id)).take limit

def getTimedOutUnfinishedTasks (cutoff : Int) (limit : ℕ) : List Task :=
  ((rows.rows.filter (fun t => unfinished t ∧ t.submitTime < cutoff)).insertionSort
    (fun a b => a.submitTime ≤ b.submitTime)).take limit

def getByTaskId (userId : Int) (taskId : String) : Option Task :=
  if taskId = "" then none else rows.rows.find? (fun t => t.userId = userId ∧ t.taskId = taskId)

theorem unfinished_of_mem {rows : Rows} {p : Task → Bool} (hp : ∀ t, p t → unfinished t)
    {r : Task → Task → Prop}
    [DecidableRel r] {limit : ℕ} {t : Task} (h : t ∈ ((rows.rows.filter p).insertionSort r).take limit) :
    rows.find t.id = some t ∧ t.status.done = false := by
  have hm := mem_of_mem_take h
  rw [mem_insertionSort, mem_filter] at hm
  have hu := hp t hm.2
  simp only [unfinished, ne_eq, decide_eq_true_eq] at hu
  exact ⟨find_mem rows t hm.1, by simp [TaskStatus.done, hu.2.1, hu.2.2]⟩

theorem find_of_getByTaskId {rows : Rows} {userId : Int} {taskId : String} {t : Task}
    (h : getByTaskId rows userId taskId = some t) : rows.find t.id = some t := by
  unfold getByTaskId at h
  split at h
  · cases h
  · exact find_mem rows t (mem_of_find?_eq_some h)

theorem updateWithStatus_eq {rows : Rows} {t r : Task} {fromStatus : TaskStatus} (h : rows.find t.id = some r) :
    updateWithStatus rows t fromStatus = if r.status = fromStatus then (true, rows.save t) else (false, rows) := by
  simp only [updateWithStatus, h]

theorem find_bulk (ids : List Int) (failReason : Option String) (id : Int) :
    (taskBulkUpdateByID rows ids failReason).find id =
      (rows.find id).map (fun t => if t.id ∈ ids then failed failReason t else t) :=
  find_update rows _ _ id

end AiGateway.Tasks
