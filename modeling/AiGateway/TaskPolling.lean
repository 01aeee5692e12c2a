import AiGateway.BillingFunding
import AiGateway.Run
import AiGateway.Task

/-! Polling passes, timeout sweeps and real-time fetches, each from the tasks it has
loaded to the rows it writes and the billing it calls for: the refund of a failed task and the recalculation
of a finished one. -/
namespace AiGateway.Tasks
open Billing Fault

def taskIsSubscription (t : Task) : Bool :=
  t.privateData.billingSource = some .subscription ∧ 0 < t.privateData.subscriptionId

/-- A positive delta charges the funding source of the task, a negative one refunds it. -/
def taskAdjustFunding (env : Env) (t : Task) (delta : Int) (st : Store) : Except String Store :=
  if taskIsSubscription t then postConsumeDelta env .charge t.privateData.subscriptionId delta st
  else adjustUser env .charge t.userId delta st

/-- `tokenKey` is what the token's row says now; a deleted token has none. Errors are
only logged. -/
def taskAdjustTokenQuota (env : Env) (tokenKey : String) (t : Task) (delta : Int) (st : Store) : Store :=
  if t.privateData.tokenId ≤ 0 ∨ delta = 0 then st
  else if tokenKey = "" then st
  else match (if 0 < delta then decreaseTokenQuota env .charge t.privateData.tokenId delta st
      else increaseTokenQuota env .charge t.privateData.tokenId (-delta) st) with
    | .ok st => st
    | .error _ => st

def refundTaskQuota (env : Env) (tokenKey : String) (t : Task) (st : Store) : Store :=
  if t.quota = 0 then st
  else match taskAdjustFunding env t (-t.quota) st with
    | .error _ => st
    | .ok st => taskAdjustTokenQuota env tokenKey t (-t.quota) st

def recalculateTaskQuota (env : Env) (tokenKey : String) (t : Task) (actualQuota : Int) (st : Store) :
    Task × Store :=
  if actualQuota ≤ 0 then (t, st)
  else
    let quotaDelta := actualQuota-t.quota
    if quotaDelta = 0 then (t, st)
    else match taskAdjustFunding env t quotaDelta st with
      | .error _ => (t, st)
      | .ok st => ({ t with quota := actualQuota }, taskAdjustTokenQuota env tokenKey t quotaDelta st)

structure Payment where
  userId : Int
  billingSource : Option BillingSource
  subscriptionId : Int
  tokenId : Int
deriving DecidableEq

def Task.payment (t : Task) : Payment :=
  ⟨t.userId, t.privateData.billingSource, t.privateData.subscriptionId, t.privateData.tokenId⟩

inductive BillingCall
  | refund (t : Task)
  | recalculate (t : Task) (actualQuota : Int)
deriving DecidableEq

/-- `RefundTaskQuota` returns at once when there is nothing to refund. -/
def refundCall (t : Task) : List BillingCall :=
  if t.quota = 0 then [] else [.refund t]

structure PollEnv where
  now : Int
  taskTimeoutMinutes : Int
  buildProxyUrl : String → String

def legacyTaskCutoff : Int := 1740182400

def isLegacy (t : Task) : Bool := 0 < t.submitTime ∧ t.submitTime < legacyTaskCutoff

variable (env : PollEnv)

def timedOut (t : Task) : Task :=
  { t with
    status := .failure, progress := "100%", finishTime := env.now
    failReason := if isLegacy t then "任务超时（旧系统遗留任务，不进行退款，请联系管理员）"
      else s!"任务超时（{env.taskTimeoutMinutes}分钟）" }

/-- One round of the loop of `sweepTimedOutTasks`. -/
def sweepTask (t : Task) (rows : Rows) : Rows × List BillingCall :=
  -- The task may have moved on since the sweep has read it.
  let (won, rows) := updateWithStatus rows (timedOut env t) t.status
  (rows, if won ∧ ¬ isLegacy t then refundCall (timedOut env t) else [])

structure SunoDataResponse where
  taskId : String
  status : TaskStatus := .empty
  failReason : String := ""
  submitTime : Int := 0
  startTime : Int := 0
  finishTime : Int := 0
  data : List UInt8 := []
deriving DecidableEq

def taskNeedsUpdate (old : Task) (new : SunoDataResponse) : Bool :=
  old.submitTime ≠ new.submitTime ∨ old.startTime ≠ new.startTime ∨ old.finishTime ≠ new.finishTime ∨
  old.status ≠ new.status ∨ old.failReason ≠ new.failReason ∨
  (old.status.done ∧ old.progress ≠ "100%") ∨ ¬ old.data.isPerm new.data

def sunoFailed (t : Task) (item : SunoDataResponse) : Bool :=
  item.failReason ≠ "" ∨ (if item.status ≠ .empty then item.status else t.status) = .failure

def sunoUpdated (t : Task) (item : SunoDataResponse) : Task :=
  { t with
    status := if item.status ≠ .empty then item.status else t.status
    failReason := if item.failReason ≠ "" then item.failReason else t.failReason
    submitTime := if item.submitTime ≠ 0 then item.submitTime else t.submitTime
    startTime := if item.startTime ≠ 0 then item.startTime else t.startTime
    finishTime := if item.finishTime ≠ 0 then item.finishTime else t.finishTime
    -- A reason alone counts as a failure, but does not change the status.
    progress := if sunoFailed t item ∨ item.status = .success then "100%" else t.progress
    data := item.data }

/-- One round of the loop of `updateSunoTasks`. The row is saved whatever it holds now. -/
def updateSunoTask (t : Task) (item : SunoDataResponse) (rows : Rows) : Task × Rows × List BillingCall :=
  if taskNeedsUpdate t item then
    let t' := sunoUpdated t item
    (t', rows.save t', if sunoFailed t item then refundCall t' else [])
  else (t, rows, [])

structure TaskInfo where
  status : TaskStatus
  reason : String := ""
  url : String := ""
  progress : String := ""
  totalTokens : Int := 0
deriving DecidableEq

def failTaskInfo (reason : String) : TaskInfo := { status := .failure, reason := reason }

inductive ErrorBody
  | unreadable | rateLimited | openaiError | unrecognized
deriving DecidableEq

/-- An upstream answer to a video poll: what was parsed, if anything, the redacted body,
and what the adaptor and the token recalculation would bill for it. -/
structure VideoAnswer where
  result : Option TaskInfo
  data : List UInt8 := []
  errorBody : ErrorBody := .unrecognized
  adaptorQuota : Int := 0
  tokenQuota : Option Int := none
deriving DecidableEq

/-- A body without a status is a failure unless it is a rate limit or not even JSON. -/
def effectiveResult (a : VideoAnswer) (info : TaskInfo) : Option TaskInfo :=
  if info.status ≠ .empty then some info
  else match a.errorBody with
    | .unreadable => some info
    | .rateLimited => none
    | .openaiError => some (failTaskInfo "upstream returned error")
    | .unrecognized => some (failTaskInfo "upstream returned unrecognized message")

def resultUrl (t : Task) (url : String) : String :=
  if url.startsWith "data:" then env.buildProxyUrl t.taskId
  else if url ≠ "" then url
  else env.buildProxyUrl t.taskId

def applyResult (t : Task) (info : TaskInfo) : Option Task :=
  let withProgress (t : Task) : Task := if info.progress ≠ "" then { t with progress := info.progress } else t
  match info.status with
  | .submitted => some (withProgress { t with status := .submitted, progress := "10%" })
  | .queued => some (withProgress { t with status := .queued, progress := "20%" })
  | .inProgress => some (withProgress { t with
      status := .inProgress, progress := "30%"
      startTime := if t.startTime = 0 then env.now else t.startTime })
  | .success => some (withProgress { t with
      status := .success, progress := "100%"
      finishTime := if t.finishTime = 0 then env.now else t.finishTime
      privateData := { t.privateData with resultUrl := resultUrl env t info.url } })
  | .failure => some { t with
      status := .failure, progress := "100%"
      finishTime := if t.finishTime = 0 then env.now else t.finishTime
      failReason := info.reason }
  | _ => none

def recalculateCall (t : Task) (actualQuota : Int) : Task × List BillingCall :=
  -- The task in memory takes over the actual quota, the row does not.
  if actualQuota ≤ 0 ∨ actualQuota = t.quota then (t, [])
  else ({ t with quota := actualQuota }, [.recalculate t actualQuota])

def settleTaskBillingOnComplete (a : VideoAnswer) (info : TaskInfo) (t : Task) : Task × List BillingCall :=
  -- The price of a call is fixed; otherwise the adaptor's quota goes before the tokens.
  if t.privateData.perCallBilling then (t, [])
  else if 0 < a.adaptorQuota then recalculateCall t a.adaptorQuota
  else if 0 < info.totalTokens then
    match a.tokenQuota with
    | none => (t, [])
    | some actualQuota => recalculateCall t actualQuota
  else (t, [])

def billResult (a : VideoAnswer) (info : TaskInfo) (t : Task) : Task × List BillingCall :=
  match info.status with
  | .success => settleTaskBillingOnComplete a info t
  | .failure => (t, refundCall t)
  | _ => (t, [])

def updateVideoSingleTask (a : VideoAnswer) (t : Task) (rows : Rows) :
    Task × Rows × List BillingCall :=
  match a.result with
  | none => (t, rows, [])
  | some info =>
    -- The task in memory has the data even when the rest of the answer is dropped.
    let read := { t with data := a.data }
    match effectiveResult a info with
    | none => (read, rows, [])
    | some info =>
      match applyResult env read info with
      -- A status the switch does not know: the error leaves it in memory only.
      | none => ({ read with status := info.status }, rows, [])
      | some t' =>
        let (won, rows') := if snapshotEqual t t' then (false, rows) else updateWithStatus rows t' t.status
        -- Only a transition into a final status is lost to another process; a task that had
        -- this status already is billed again.
        if t'.status.done ∧ t.status ≠ t'.status ∧ ¬ won then (t', rows', [])
        else
          let (t', calls) := billResult a info t'
          (t', rows', calls)

/-- The task in memory after a real-time fetch; a data URI is not kept as the result. -/
def fetchedTask (t : Task) (info : TaskInfo) : Task :=
  let status := if info.status ≠ .empty then info.status else t.status
  let url := if info.url.startsWith "data:" then t.privateData.resultUrl
    else if info.url ≠ "" then info.url
    else if status = .success then env.buildProxyUrl t.taskId
    else t.privateData.resultUrl
  { t with
    status := status
    progress := if info.progress ≠ "" then info.progress else t.progress
    privateData := { t.privateData with resultUrl := url } }

def tryRealtimeFetch (t : Task) (answer : Option TaskInfo) (rows : Rows) : Rows :=
  match answer with
  | none => rows
  | some info =>
    let t' := fetchedTask env t info
    if snapshotEqual t t' then rows else (updateWithStatus rows t' t.status).2

end AiGateway.Tasks
