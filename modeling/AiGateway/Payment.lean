import AiGateway.BatchUpdate
import AiGateway.Rounding

/-! Top-up orders, redemption codes, and the handlers that credit them to a user. Amounts of
money are the exact decimals of the columns. -/
namespace AiGateway.Payment
open Fault Rounding

inductive PaymentProvider
  | epay | stripe | creem | waffo | waffoPancake
  | other (name : String)
deriving DecidableEq

inductive TopUpStatus
  | pending | success | failed | expired
deriving DecidableEq

structure TopUp where
  tradeNo : String
  userId : Int
  amount : Int
  money : ℚ
  paymentMethod : String := ""
  paymentProvider : PaymentProvider
  completeTime : Int := 0
  status : TopUpStatus := .pending
deriving DecidableEq

inductive RedemptionStatus
  | enabled | disabled | used
deriving DecidableEq

structure Redemption where
  key : String
  id : Int
  status : RedemptionStatus := .enabled
  quota : Int
  redeemedTime : Int := 0
  usedUserId : Int := 0
  expiredTime : Int := 0
deriving DecidableEq

structure PaymentDb where
  topUps : Table TopUp.tradeNo
  redemptions : Table Redemption.key
  users : Users

/-- `intColumn` is what the integer column holds once a number is assigned to it; a database
may refuse one that is not whole. -/
structure Settings where
  quotaPerUnit : ℚ
  intColumn : ℚ → Option Int

inductive Amount
  | units (n : Int) | real (x : ℚ)
deriving DecidableEq

variable (cfg : Settings)

def Amount.addTo (quota : Int) : Amount → Option Int
  | .units n => some (quota+n)
  | .real x => cfg.intColumn (quota+x)

def Amount.positive : Amount → Bool
  | .units n => 0 < n
  | .real x => 0 < x

inductive Ref
  | order (tradeNo : String) | code (key : String)
deriving DecidableEq

structure Credit where
  ref : Ref
  userId : Int
  amount : Amount
  quota : Int
deriving DecidableEq

inductive PayStmt
  | findOrder | saveOrder | findUser | creditUser | commit
deriving DecidableEq

/-- What a handler notes about the payer in the same statement that adds the quota. -/
inductive Contact
  | none | stripeCustomer (id : String) | email (address : String)
deriving DecidableEq

def Contact.note (u : User) : Contact → User
  | .none => u
  | .stripeCustomer id => { u with stripeCustomer := id }
  -- An address the user has is kept.
  | .email address => if address ≠ "" ∧ u.email = "" then { u with email := address } else u

structure Completion where
  provider : Option PaymentProvider
  -- A second call for a successful order is answered like the first.
  successIsDone : Bool
  positiveOnly : Bool
  quota : Settings → TopUp → Amount
  contact : Contact
  noTradeNo : String := "未提供支付单号"
  notPending : String := "充值订单状态错误"
  failure : Option String := some "充值失败，请稍后重试"

def creditUser (ref : Ref) (userId : Int) (amount : Amount) (contact : Contact) (db : PaymentDb) :
    Except String (Option Credit × PaymentDb) :=
  match db.users.find userId with
  | none => .ok (none, db)
  | some u =>
    match amount.addTo cfg u.quota with
    | none => .error "invalid value for column quota"
    | some quota => .ok (some ⟨ref, userId, amount, quota-u.quota⟩,
        { db with users := db.users.save { contact.note u with quota := quota } })

def Completion.accept (k : Completion) (cfg : Settings) (t : TopUp) : Except String (Option Amount) :=
  if k.provider.any (fun p => t.paymentProvider ≠ p) then .error "payment method mismatch"
  else if k.successIsDone ∧ t.status = .success then .ok none
  else if t.status ≠ .pending then .error k.notPending
  else if k.positiveOnly ∧ ¬ (k.quota cfg t).positive then .error "无效的充值额度"
  else .ok (some (k.quota cfg t))

def findPayer (contact : Contact) (fails : PayStmt → Option String) (userId : Int) (db : PaymentDb) :
    Except String Unit :=
  match contact with
  | .email address =>
    if address = "" then .ok ()
    else match fails .findUser, db.users.find userId with
      | none, some _ => .ok ()
      | some e, _ => .error e
      | none, none => .error "record not found"
  | _ => .ok ()

def completed (now : Int) (t : TopUp) : TopUp := { t with completeTime := now, status := .success }

def completeBody (k : Completion) (fails : PayStmt → Option String) (tradeNo : String) (now : Int)
    (db : PaymentDb) : Except String (Option Credit × PaymentDb) :=
  match fails .findOrder, db.topUps.find tradeNo with
  | some _, _ => .error "充值订单不存在"
  | none, none => .error "充值订单不存在"
  | none, some t => do
    match ← k.accept cfg t with
    | none =>
      attempt fails .commit
      return (none, db)
    | some amount =>
      attempt fails .saveOrder
      let db := { db with topUps := db.topUps.save (completed now t) }
      findPayer k.contact fails t.userId db
      attempt fails .creditUser
      let out ← creditUser cfg (.order tradeNo) t.userId amount k.contact db
      attempt fails .commit
      return out

def Completion.report {α : Type} (k : Completion) : Except String α → Except String α
  | .ok out => .ok out
  | .error e => .error (k.failure.getD e)

/-- A handler that completes an order; an error has rolled the transaction back. -/
def completeTopUp (k : Completion) (fails : PayStmt → Option String) (tradeNo : String) (now : Int)
    (db : PaymentDb) : Except String (Option Credit × PaymentDb) :=
  if tradeNo = "" then .error k.noTradeNo else k.report (completeBody cfg k fails tradeNo now db)

def unitsOf (t : TopUp) : Int := intPart (t.amount*cfg.quotaPerUnit)

def recharge (customerId : String) : Completion where
  provider := some .stripe
  successIsDone := false
  positiveOnly := false
  quota := fun cfg t => .real (t.money*cfg.quotaPerUnit)
  contact := .stripeCustomer customerId

def rechargeCreem (customerEmail : String) : Completion where
  provider := some .creem
  successIsDone := false
  positiveOnly := false
  -- The amount of a Creem order is a quota.
  quota := fun _ t => .units t.amount
  contact := .email customerEmail

def rechargeWaffo : Completion where
  provider := some .waffo
  successIsDone := true
  positiveOnly := true
  quota := fun cfg t => .units (unitsOf cfg t)
  contact := .none

def rechargeWaffoPancake : Completion where
  provider := some .waffoPancake
  successIsDone := true
  positiveOnly := true
  quota := fun cfg t => .units (unitsOf cfg t)
  contact := .none

def manualCompleteTopUp : Completion where
  provider := none
  successIsDone := true
  positiveOnly := true
  quota := fun cfg t => .units (if t.paymentProvider = .stripe then
    intPart (t.money*cfg.quotaPerUnit) else unitsOf cfg t)
  contact := .none
  noTradeNo := "未提供订单号"
  notPending := "订单状态不是待支付，无法补单"
  failure := none

/-- The payment callback of Epay: the order and the user are written one after the other,
without a transaction around them. -/
def epayNotify (fails : PayStmt → Option String) (tradeNo payType : String) (db : PaymentDb) :
    Option Credit × PaymentDb :=
  match fails .findOrder, db.topUps.find tradeNo with
  | some _, _ => (none, db)
  | none, none => (none, db)
  | none, some t =>
    if t.paymentProvider ≠ .epay ∨ t.status ≠ .pending ∨ (fails .saveOrder).isSome then (none, db)
    else
      let db := { db with topUps := db.topUps.save { t with paymentMethod := payType, status := .success } }
      -- `IncreaseUserQuota` refuses a negative quota.
      if unitsOf cfg t < 0 ∨ (fails .creditUser).isSome then (none, db)
      else match creditUser cfg (.order tradeNo) t.userId (.units (unitsOf cfg t)) .none db with
        | .ok out => out
        | .error _ => (none, db)

def providerQuota (t : TopUp) : Amount :=
  match t.paymentProvider with
  | .stripe => .real (t.money*cfg.quotaPerUnit)
  | .creem => .units t.amount
  | _ => .units (unitsOf cfg t)

def sessionAsyncPaymentFailed (fails : PayStmt → Option String) (tradeNo : String) (db : PaymentDb) : PaymentDb :=
  match fails .findOrder, db.topUps.find tradeNo with
  | some _, _ => db
  | none, none => db
  | none, some t =>
    if t.paymentProvider ≠ .stripe ∨ t.status ≠ .pending ∨ (fails .saveOrder).isSome then db
    else { db with topUps := db.topUps.save { t with status := .failed } }

def updatePendingTopUpStatus (fails : PayStmt → Option String) (tradeNo : String)
    (expectedPaymentProvider : Option PaymentProvider) (targetStatus : TopUpStatus) (db : PaymentDb) :
    Except String PaymentDb :=
  if tradeNo = "" then .error "未提供支付单号"
  else match fails .findOrder, db.topUps.find tradeNo with
    | some _, _ => .error "topup not found"
    | none, none => .error "topup not found"
    | none, some t =>
      if expectedPaymentProvider.any (fun p => t.paymentProvider ≠ p) then .error "payment method mismatch"
      else if t.status ≠ .pending then .error "topup status invalid"
      else do
        attempt fails .saveOrder
        attempt fails .commit
        return { db with topUps := db.topUps.save { t with status := targetStatus } }

def used (userId now : Int) (r : Redemption) : Redemption :=
  { r with redeemedTime := now, status := .used, usedUserId := userId }

section Spec

variable {cfg : Settings} {db : PaymentDb}

variable {out : Option Credit × PaymentDb} {k : Completion} {fails : PayStmt → Option String}

theorem creditUser_ok {ref : Ref} {userId : Int} {amount : Amount} {contact : Contact}
    (h : creditUser cfg ref userId amount contact db = .ok out) : (db.users.find userId = none ∧ out = (none, db)) ∨
      ∃ u quota, db.users.find userId = some u ∧ amount.addTo cfg u.quota = some quota ∧
        out = (some ⟨ref, userId, amount, quota-u.quota⟩,
          { db with users := db.users.save { contact.note u with quota := quota } }) := by
  unfold creditUser at h
  split at h
  · next hu => exact .inl ⟨hu, (Except.ok.inj h).symm⟩
  · next u hu =>
    split at h
    · cases h
    · next quota hq => exact .inr ⟨u, quota, hu, hq, (Except.ok.inj h).symm⟩

theorem Completion.accept_some {t : TopUp} {amount : Amount} (h : k.accept cfg t = .ok (some amount)) :
    t.status = .pending ∧ (∀ p, k.provider = some p → t.paymentProvider = p) ∧ amount = k.quota cfg t := by
  unfold accept at h
  repeat' split at h
  all_goals cases h
  next hp _ hpending _ =>
    refine ⟨not_not.mp hpending, ?_, rfl⟩
    intro p hk
    simpa [hk] using hp

theorem completeBody_ok {tradeNo : String} {now : Int} (h : completeBody cfg k fails tradeNo now db = .ok out) :
    out = (none, db) ∨ ∃ t, db.topUps.find tradeNo = some t ∧ t.status = .pending ∧
      (∀ p, k.provider = some p → t.paymentProvider = p) ∧
      creditUser cfg (.order tradeNo) t.userId (k.quota cfg t) k.contact
        { db with topUps := db.topUps.save (completed now t) } = .ok out := by
  unfold completeBody at h
  split at h
  · cases h
  · cases h
  · next t _ ht =>
    obtain ⟨accepted, haccept, h⟩ := bind_eq_ok h
    cases accepted with
    | none =>
      obtain ⟨_, _, h⟩ := bind_eq_ok h
      exact .inl (Except.ok.inj h).symm
    | some =>
      obtain ⟨hpending, hprovider, rfl⟩ := Completion.accept_some haccept
      obtain ⟨_, _, h⟩ := bind_eq_ok h
      obtain ⟨_, _, h⟩ := bind_eq_ok h
      obtain ⟨_, _, h⟩ := bind_eq_ok h
      obtain ⟨_, hcredit, h⟩ := bind_eq_ok h
      obtain ⟨_, _, h⟩ := bind_eq_ok h
      have hout := Except.ok.inj h
      exact .inr ⟨t, ht, hpending, hprovider, hout ▸ hcredit⟩

theorem completeBody_of_ok {tradeNo : String} {now : Int} (h : completeTopUp cfg k fails tradeNo now db = .ok out) :
    completeBody cfg k fails tradeNo now db = .ok out := by
  unfold completeTopUp at h
  split at h
  · cases h
  · cases hbody : completeBody cfg k fails tradeNo now db with
    | error =>
      rw [hbody] at h
      cases h
    | ok =>
      rw [hbody] at h
      cases h
      rfl

end Spec

end AiGateway.Payment
