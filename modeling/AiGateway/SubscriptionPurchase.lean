import AiGateway.Interleave
import AiGateway.Payment
import AiGateway.SubscriptionGroup

/-! Purchases of subscriptions, side by side, under read-committed isolation. The `FOR UPDATE` option of
the selects has no effect. A statement that reads is a step of its own and sees what is committed. What a
transaction writes is seen by the others when it commits, and the rows are locked until then, so its
writes are made in the step that commits; any step may fail and roll the transaction back. What has been
checked of a row that was read goes with the row. -/
namespace AiGateway.SubscriptionPurchase
open GoText Interleave Subscription
open Payment (TopUpStatus)

structure OfferedPlan extends SubscriptionPlan where
  enabled : Bool := true
  priceAmount : ℚ := 0
  allowBalancePay : Option Bool := none
deriving DecidableEq

structure SubscriptionOrder where
  tradeNo : String
  userId : Int
  planId : Int
  money : ℚ := 0
  paymentMethod : String := ""
  paymentProvider : String := ""
  status : TopUpStatus := .pending
  createTime : Int := 0
  completeTime : Int := 0
  providerPayload : String := ""
deriving DecidableEq

/-- An order as a transaction has read it, after the check of its status. -/
structure PendingOrder extends SubscriptionOrder where
  pending : status = .pending

structure PurchaseDb where
  orders : Table SubscriptionOrder.tradeNo
  users : Users
  groups : GroupDb

structure PurchaseConfig where
  plans : Table (fun plan : OfferedPlan => plan.id)
  utcOffset : Int
  quotaPerUnit : ℚ

/-- A plan as it is on offer; the plans are not edited here. -/
structure PurchaseConfig.Plan (cfg : PurchaseConfig) extends OfferedPlan where
  offered : cfg.plans.find id = some toOfferedPlan

def PurchaseConfig.getSubscriptionPlanById (cfg : PurchaseConfig) (id : Int) : Except String cfg.Plan :=
  if id ≤ 0 then .error "invalid plan id"
  else match hfind : cfg.plans.find id with
    | none => .error "record not found"
    | some plan => .ok ⟨plan, (Table.find_key _ hfind).symm ▸ hfind⟩

def calcSubscriptionBalanceQuota (cfg : PurchaseConfig) (priceAmount : ℚ) : Except String Int :=
  if priceAmount ≤ 0 then .ok 0
  else if cfg.quotaPerUnit ≤ 0 then .error "额度单位配置错误"
  else .ok ⌈priceAmount*cfg.quotaPerUnit⌉

/-- The arguments of `CompleteSubscriptionOrder`. -/
structure Completing where
  tradeNo : String
  providerPayload : String := ""
  expectedPaymentProvider : String := ""
  actualPaymentMethod : String := ""

section Purchase

variable (cfg : PurchaseConfig)

variable (plan : OfferedPlan)

/-- What a purchase from the wallet costs. -/
structure Price where
  requiredQuota : Int
  price : calcSubscriptionBalanceQuota cfg plan.priceAmount = .ok requiredQuota

/-- A price with the quota that the user was read with, after the check that it is enough. -/
structure Funded extends Price cfg plan where
  quota : Int
  enough : 0 < requiredQuota → requiredQuota ≤ quota

inductive Payer
  | order (a : Completing) (o : PendingOrder)
  | balance (b : Funded cfg plan) (tradeNo : String)

/-- A call of `CreateUserSubscriptionFromPlanTx`. -/
structure Purchase where
  now : Int
  userId : Int
  plan : cfg.Plan
  payer : Payer cfg plan.toOfferedPlan

/-- A purchase with the number of subscriptions that was counted, after the check of the limit. -/
structure Allowed extends Purchase cfg where
  counted : ℕ
  within : 0 < plan.maxPurchasePerUser → (counted : Int) < plan.maxPurchasePerUser

inductive Answer
  | nothing
  | completed (tradeNo : String) (userId planId : Int)
  | expired (tradeNo : String)
  | purchased (tradeNo : String) (userId planId charged : Int)
deriving DecidableEq

/-- The next statement of a call, or how it has ended. -/
inductive Statement
  -- `CompleteSubscriptionOrder`
  | findOrder (now : Int) (a : Completing)
  | findOrderPlan (now : Int) (a : Completing) (o : PendingOrder)
  -- `ExpireSubscriptionOrder`
  | findExpiring (now : Int) (tradeNo expectedPaymentProvider : String)
  | commitExpired (now : Int) (o : PendingOrder)
  -- `PurchaseSubscriptionWithBalance`
  | findBalancePlan (now userId planId : Int) (tradeNo : String)
  | findBuyer (now userId : Int) (plan : cfg.Plan) (p : Price cfg plan.toOfferedPlan) (tradeNo : String)
  -- `CreateUserSubscriptionFromPlanTx`
  | countSubscriptions (b : Purchase cfg)
  | readGroup (b : Allowed cfg) (endUnix : Int)
  -- The writes; the group that was found if it is to be raised.
  | commit (b : Allowed cfg) (endUnix : Int) (currentGroup : Option String)
  | ended (r : Except String Answer)

end Purchase

variable {cfg : PurchaseConfig}

def subscriptionsOf (groups : GroupDb) (userId planId : Int) : ℕ :=
  groups.subs.rows.countP (fun s => s.userId = userId ∧ s.planId = planId)

def completedOrder (now : Int) (a : Completing) (o : SubscriptionOrder) : SubscriptionOrder :=
  { o with
    status := .success
    completeTime := now
    providerPayload := if a.providerPayload ≠ "" then a.providerPayload else o.providerPayload
    paymentMethod := if a.actualPaymentMethod ≠ "" then a.actualPaymentMethod else o.paymentMethod }

def expiredOrder (now : Int) (o : SubscriptionOrder) : SubscriptionOrder :=
  { o with status := .expired, completeTime := now }

def balanceOrder (b : Purchase cfg) (requiredQuota : Int) (tradeNo : String) : SubscriptionOrder where
  tradeNo := tradeNo
  userId := b.userId
  planId := b.plan.id
  money := b.plan.priceAmount
  paymentMethod := "balance"
  paymentProvider := "balance"
  status := .success
  createTime := b.now
  completeTime := b.now
  providerPayload := s!"charged_quota={requiredQuota}"

/-- The part of `CreateUserSubscriptionFromPlanTx` after the limit. -/
def raise (b : Allowed cfg) : Statement cfg :=
  match calcPlanEndTime cfg.utcOffset b.now b.plan.toSubscriptionPlan with
  | .error e => .ended (.error e)
  | .ok endUnix =>
    if trimSpace b.plan.upgradeGroup = "" then .commit b endUnix none else .readGroup b endUnix

def create (b : Purchase cfg) : Statement cfg :=
  if b.plan.id = 0 then .ended (.error "invalid plan")
  else if b.userId ≤ 0 then .ended (.error "invalid user id")
  else if hlimit : 0 < b.plan.maxPurchasePerUser then .countSubscriptions b
  else raise ⟨b, 0, fun hpos => absurd hpos hlimit⟩

/-- The order that a call names, if it has come from the expected provider. -/
def findOrder (db : PurchaseDb) (tradeNo expectedPaymentProvider : String) : Except String SubscriptionOrder :=
  if tradeNo = "" then .error "tradeNo is empty"
  else match db.orders.find tradeNo with
    | none => .error "subscription order not found"
    | some o =>
      if expectedPaymentProvider ≠ "" ∧ o.paymentProvider ≠ expectedPaymentProvider then
        .error "payment method mismatch"
      else .ok o

def read (db : PurchaseDb) : Statement cfg → Statement cfg
  | .findOrder now a =>
    match findOrder db a.tradeNo a.expectedPaymentProvider with
    | .error e => .ended (.error e)
    | .ok o =>
      if o.status = .success then .ended (.ok .nothing)
      else if hpending : o.status = .pending then .findOrderPlan now a ⟨o, hpending⟩
      else .ended (.error "subscription order status invalid")
  | .findOrderPlan now a o =>
    match cfg.getSubscriptionPlanById o.planId with
    | .error e => .ended (.error e)
    | .ok plan => create ⟨now, o.userId, plan, .order a o⟩
  | .findExpiring now tradeNo expectedPaymentProvider =>
    match findOrder db tradeNo expectedPaymentProvider with
    | .error e => .ended (.error e)
    | .ok o =>
      if hpending : o.status = .pending then .commitExpired now ⟨o, hpending⟩
      else .ended (.ok .nothing)
  | .findBalancePlan now userId planId tradeNo =>
    if userId ≤ 0 ∨ planId ≤ 0 then .ended (.error "invalid userId or planId")
    else match cfg.getSubscriptionPlanById planId with
      | .error e => .ended (.error e)
      | .ok plan =>
        if !plan.enabled then .ended (.error "套餐未启用")
        else if plan.priceAmount < 0 then .ended (.error "套餐价格不能为负数")
        else if plan.allowBalancePay = some false then .ended (.error "该套餐不允许使用余额兑换")
        else match hprice : calcSubscriptionBalanceQuota cfg plan.priceAmount with
          | .error e => .ended (.error e)
          | .ok requiredQuota => .findBuyer now userId plan ⟨requiredQuota, hprice⟩ tradeNo
  | .findBuyer now userId plan p tradeNo =>
    match db.users.find userId with
    | none => .ended (.error "record not found")
    | some user =>
      if hlow : 0 < p.requiredQuota ∧ user.quota < p.requiredQuota then .ended (.error "余额不足")
      else create ⟨now, userId, plan,
        .balance ⟨p, user.quota, fun hpos => not_lt.mp (fun hlt => hlow ⟨hpos, hlt⟩)⟩ tradeNo⟩
  | .countSubscriptions b =>
    if hlimit : b.plan.maxPurchasePerUser ≤ (subscriptionsOf db.groups b.userId b.plan.id : Int) then
      .ended (.error "已达到该套餐购买上限")
    else raise ⟨b, subscriptionsOf db.groups b.userId b.plan.id, fun _ => not_le.mp hlimit⟩
  | .readGroup b endUnix =>
    let currentGroup := db.groups.group b.userId
    .commit b endUnix (if currentGroup ≠ trimSpace b.plan.upgradeGroup then some currentGroup else none)
  | l => l

/-- The subscription of a purchase, and the group of the user. -/
def subscribe (b : Allowed cfg) (endUnix : Int) (currentGroup : Option String) (groups : GroupDb) : GroupDb :=
  let raised := match currentGroup with
    | some _ => groups.setGroup b.userId (trimSpace b.plan.upgradeGroup)
    | none => groups
  raised.create
    (purchasedSubscription cfg.utcOffset b.userId b.plan.toSubscriptionPlan b.now endUnix (currentGroup.getD ""))

/-- The row of `top_ups` that goes with an order is left out: its statements only can fail. -/
def write (db : PurchaseDb) : Statement cfg → Except String (Answer × PurchaseDb)
  | .commitExpired now o =>
    .ok (.expired o.tradeNo, { db with orders := db.orders.save (expiredOrder now o.toSubscriptionOrder) })
  | .commit b endUnix currentGroup =>
    let groups := subscribe b endUnix currentGroup db.groups
    match b.payer with
    | .order a o =>
      .ok (.completed o.tradeNo b.userId b.plan.id,
        { db with groups, orders := db.orders.save (completedOrder b.now a o.toSubscriptionOrder) })
    | .balance p tradeNo =>
      let users := if 0 < p.requiredQuota then
          db.users.modify b.userId (fun u => { u with quota := u.quota-p.requiredQuota }) (fun _ => rfl)
        else db.users
      match db.orders.find tradeNo with
      | some _ => .error "UNIQUE constraint failed: trade_no"
      | none => .ok (.purchased tradeNo b.userId b.plan.id p.requiredQuota,
          { orders := db.orders.insert (balanceOrder b.toPurchase p.requiredQuota tradeNo), users, groups })
  | _ => .error ""

structure State where
  db : PurchaseDb
  log : List Answer

def next (l : Statement cfg) (s : State) (fault : Option String) : State × Statement cfg :=
  match fault, l with
  | _, .ended r => (s, .ended r)
  | some _, .findOrder .. | some _, .findExpiring .. => (s, .ended (.error "subscription order not found"))
  | some err, _ => (s, .ended (.error err))
  | none, .commit .. | none, .commitExpired .. =>
    match write s.db l with
    | .error e => (s, .ended (.error e))
    | .ok (r, db) => (⟨db, s.log ++ [r]⟩, .ended (.ok r))
  | none, _ => (s, read s.db l)

/-- A request. The trade number of a purchase from the wallet is drawn at random. -/
inductive PurchaseCall
  | complete (now : Int) (a : Completing)
  | expire (now : Int) (tradeNo expectedPaymentProvider : String)
  | purchase (now userId planId : Int) (tradeNo : String)

def machine (cfg : PurchaseConfig) : Machine State (Statement cfg) PurchaseCall (Option String) Empty where
  start
    | .complete now a, _ => .findOrder now a
    | .expire now tradeNo provider, _ => .findExpiring now tradeNo provider
    | .purchase now userId planId tradeNo, _ => .findBalancePlan now userId planId tradeNo
  next := next
  env _ e := nomatch e

end AiGateway.SubscriptionPurchase
