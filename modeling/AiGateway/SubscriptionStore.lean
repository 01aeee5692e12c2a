import AiGateway.GoText
import AiGateway.SubscriptionPlan
import Mathlib.Data.List.Sort

/-! The transactions on subscription usage. One that fails returns no database, which is its rollback;
`RefundSubscriptionPreConsume` is not one transaction. -/
namespace AiGateway.Subscription
open GoText Fault

inductive RecordStatus
  | consumed | refunded
deriving DecidableEq

structure SubscriptionPreConsumeRecord where
  requestId : String
  userId : Int
  userSubscriptionId : Int
  preConsumed : Int
  status : RecordStatus
deriving DecidableEq

structure SubDb where
  subs : Table UserSubscription.id
  records : Table SubscriptionPreConsumeRecord.requestId

structure Config where
  plans : Int → Option SubscriptionPlan
  utcOffset : Int

structure SubscriptionPreConsumeResult where
  userSubscriptionId : Int
  preConsumed : Int
  amountTotal : Int
  amountUsedBefore : Int
  amountUsedAfter : Int
deriving DecidableEq

inductive Stmt
  | findRecord | findRecordSub | findCandidates | findPlan (sub : Int) | saveReset (sub : Int)
  | createRecord (sub : Int) | findDuplicate | saveCharge (sub : Int) | preConsumeCommit
  | findDelta | saveDelta | deltaCommit | resetCommit (sub : Int)
  | findRefund | saveRefund | refundCommit
deriving DecidableEq

variable (cfg : Config)

def getSubscriptionPlanById (id : Int) : Except String SubscriptionPlan :=
  if id ≤ 0 then .error "invalid plan id"
  else match cfg.plans id with
    | none => .error "record not found"
    | some plan => .ok plan

def candidates (db : SubDb) (userId now : Int) : List UserSubscription :=
  (db.subs.rows.filter (fun s => s.userId = userId ∧ s.status = .active ∧ now < s.endTime)).insertionSort
    (fun a b => a.endTime < b.endTime ∨ (a.endTime = b.endTime ∧ a.id ≤ b.id))

variable (fails : Stmt → Option String)

/-- `maybeResetUserSubscriptionWithPlanTx`: the row in memory and the database. -/
def maybeResetUserSubscription (now : Int)
    (plan : SubscriptionPlan) (sub : UserSubscription) (db : SubDb) :
    Except String (UserSubscription × SubDb) :=
  match resetStep cfg.utcOffset plan sub now with
  | .keep => .ok (sub, db)
  -- The loop of the source would not end; nothing after it happens.
  | .hang => .error "the reset schedule stands still"
  | r => do
    attempt fails (.saveReset sub.id)
    return (r.apply sub, { db with subs := db.subs.save (r.apply sub) })

/-- Insert the record of the charge and charge the row, or answer from the record
that another call inserted first. -/
def chargeCandidate (requestId : String) (userId amount : Int)
    (sub : UserSubscription) (db : SubDb) : Except String (SubscriptionPreConsumeResult × SubDb) :=
  let refused : Option String := match fails (.createRecord sub.id) with
    | some e => some e
    | none => (db.records.find requestId).map (fun _ => "UNIQUE constraint failed: request_id")
  match refused with
  | some e =>
    -- Whatever made the insert fail, a record of the request answers the call.
    match fails .findDuplicate, db.records.find requestId with
    | none, some dup =>
      if dup.status = .refunded then .error "subscription pre-consume already refunded"
      -- The answer names this candidate, not the row of the record.
      else .ok (⟨sub.id, dup.preConsumed, sub.amountTotal, sub.amountUsed, sub.amountUsed⟩, db)
    | _, _ => .error e
  | none => do
    attempt fails (.saveCharge sub.id)
    return (⟨sub.id, amount, sub.amountTotal, sub.amountUsed, sub.amountUsed+amount⟩,
      { subs := db.subs.save { sub with amountUsed := sub.amountUsed+amount }
        records := db.records.insert ⟨requestId, userId, sub.id, amount, .consumed⟩ })

def preConsumeLoop (cfg : Config) (fails : Stmt → Option String) (requestId : String)
    (userId amount now : Int) :
    List UserSubscription → SubDb → Except String (SubscriptionPreConsumeResult × SubDb)
  | [], _ => .error s!"subscription quota insufficient, need={amount}"
  | candidate :: rest, db => do
    attempt fails (.findPlan candidate.id)
    let plan ← getSubscriptionPlanById cfg candidate.planId
    let (sub, db) ← maybeResetUserSubscription cfg fails now plan candidate db
    -- A total of zero is no limit.
    if 0 < sub.amountTotal ∧ sub.amountTotal-sub.amountUsed < amount then
      preConsumeLoop cfg fails requestId userId amount now rest db
    else chargeCandidate fails requestId userId amount sub db

def preConsumeBody (requestId : String)
    (userId amount now : Int) (db : SubDb) : Except String (SubscriptionPreConsumeResult × SubDb) := do
  attempt fails .findRecord
  match db.records.find requestId with
  | some existing =>
    if existing.status = .refunded then .error "subscription pre-consume already refunded"
    else do
      attempt fails .findRecordSub
      match db.subs.find existing.userSubscriptionId with
      | none => .error "record not found"
      | some sub =>
        return (⟨sub.id, existing.preConsumed, sub.amountTotal, sub.amountUsed, sub.amountUsed⟩, db)
  | none =>
    -- A failing query and an empty answer are not told apart.
    if (fails .findCandidates).isSome ∨ candidates db userId now = [] then
      .error "no active subscription"
    else preConsumeLoop cfg fails requestId userId amount now (candidates db userId now) db

def preConsumeUserSubscription (requestId : String)
    (userId amount now : Int) (db : SubDb) : Except String (SubscriptionPreConsumeResult × SubDb) :=
  if userId ≤ 0 then .error "invalid userId"
  else if trimSpace requestId = "" then .error "requestId is empty"
  else if amount ≤ 0 then .error "amount must be > 0"
  else do
    let res ← preConsumeBody cfg fails requestId userId amount now db
    attempt fails .preConsumeCommit
    return res

/-- The transaction of one row in `ResetDueSubscriptions`, and what it adds to the reset
count. A row that is no longer due, or whose plan cannot be read, is skipped. -/
def resetDueSubscription (id now : Int) (db : SubDb) :
    Except String (SubDb × ℕ) :=
  match db.subs.find id with
  | none => .ok (db, 0)
  | some sub =>
    if 0 < sub.nextResetTime ∧ sub.nextResetTime ≤ now then
      match (do attempt fails (.findPlan id); getSubscriptionPlanById cfg sub.planId) with
      | .error _ => .ok (db, 0)
      | .ok plan => do
        let (_, db) ← maybeResetUserSubscription cfg fails now plan sub db
        attempt fails (.resetCommit id)
        return (db, 1)
    else .ok (db, 0)

def clampUsed (used delta : Int) : Int :=
  if used+delta < 0 then 0 else used+delta

def postConsumeUserSubscriptionDelta (userSubscriptionId delta : Int)
    (db : SubDb) : Except String SubDb :=
  if userSubscriptionId ≤ 0 then .error "invalid userSubscriptionId"
  else if delta = 0 then .ok db
  else do
    attempt fails .findDelta
    match db.subs.find userSubscriptionId with
    | none => .error "record not found"
    | some sub =>
      let newUsed := clampUsed sub.amountUsed delta
      if 0 < sub.amountTotal ∧ sub.amountTotal < newUsed then
        .error s!"subscription used exceeds total, used={newUsed} total={sub.amountTotal}"
      else do
        attempt fails .saveDelta
        attempt fails .deltaCommit
        return { db with subs := db.subs.save { sub with amountUsed := newUsed } }

/-- The delta is applied in a transaction of its own, which has committed before the
record is saved and the outer transaction commits. -/
def refundSubscriptionPreConsume (requestId : String) (db : SubDb) :
    Except String Unit × SubDb :=
  if trimSpace requestId = "" then (.error "requestId is empty", db)
  else match fails .findRefund, db.records.find requestId with
    | some e, _ => (.error e, db)
    | none, none => (.error "record not found", db)
    | none, some record =>
      -- A repeated call has nothing left to do.
      if record.status = .refunded then (attempt fails .refundCommit, db)
      else
        let delta := if record.preConsumed ≤ 0 then .ok db
          else postConsumeUserSubscriptionDelta fails record.userSubscriptionId (-record.preConsumed) db
        match delta with
        | .error e => (.error e, db)
        | .ok db =>
          match (do attempt fails .saveRefund; attempt fails .refundCommit : Except String Unit) with
          | .error e => (.error e, db)
          | .ok _ => (.ok (), { db with records := db.records.save { record with status := .refunded } })

/-- The loop of `refundWithRetry`: `n` attempts are left, `i` were made. -/
def retryLoop (fn : ℕ → SubDb → Except String Unit × SubDb) :
    ℕ → ℕ → Except String Unit → SubDb → Except String Unit × SubDb
  | 0, _, last, db => (last, db)
  | n+1, i, _, db =>
    match fn i db with
    | (.ok _, db) => (.ok (), db)
    | (.error e, db) => retryLoop fn n (i+1) (.error e) db

def maxAttempts : ℕ := 3

def refundWithRetry (fn : ℕ → SubDb → Except String Unit × SubDb) (db : SubDb) :
    Except String Unit × SubDb :=
  retryLoop fn maxAttempts 0 (.ok ()) db

def hasActiveUserSubscription (db : SubDb) (userId now : Int) : Except String Bool :=
  if userId ≤ 0 then .error "invalid userId"
  else .ok (db.subs.rows.any (fun s => s.userId = userId ∧ s.status = .active ∧ now < s.endTime))

def userActiveSubscriptionsAllowWalletOverflow (db : SubDb) (userId now : Int) : Except String Bool :=
  if userId ≤ 0 then .error "invalid userId"
  else .ok (!db.subs.rows.any (fun s => s.userId = userId ∧ s.status = .active ∧ now < s.endTime ∧
    s.allowWalletOverflow = false))

end AiGateway.Subscription
