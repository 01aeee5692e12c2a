import AiGateway.PaymentCredit
import AiGateway.TransactionRules

/-! The payment handlers statement by statement. The `FOR UPDATE` option of their selects has no
effect; `Save` writes the whole row that was read. -/
namespace AiGateway.Payment
open ReadCommitted Option

inductive Write
  | saveOrder (t : TopUp)
  | saveCode (r : Redemption)
  | credit (userId : Int) (amount : Amount) (contact : Contact)

inductive Lock
  | ref (r : Ref)
  | user (id : Int)
deriving DecidableEq

def Write.lock : Write → Lock
  | .saveOrder t => .ref (.order t.tradeNo)
  | .saveCode r => .ref (.code r.key)
  | .credit userId _ _ => .user userId

/-- The columns that the `UPDATE` of the user sets. -/
def Contact.assign (u : User) : Contact → User
  | .none => u
  | .stripeCustomer id => { u with stripeCustomer := id }
  | .email address => { u with email := address }

def credited (cfg : Settings) (amount : Amount) (contact : Contact) (u : User) : User :=
  { contact.assign u with quota := (amount.addTo cfg u.quota).getD u.quota }

theorem credited_id (cfg : Settings) (amount : Amount) (contact : Contact) (u : User) :
    (credited cfg amount contact u).id = u.id := by
  cases contact <;> rfl

def Write.apply (cfg : Settings) (db : PaymentDb) : Write → PaymentDb
  | .saveOrder t => { db with topUps := db.topUps.save t }
  | .saveCode r => { db with redemptions := db.redemptions.save r }
  | .credit userId amount contact =>
    { db with users := db.users.modify userId (credited cfg amount contact) (credited_id cfg amount contact) }

inductive Closing
  | failed | expired
deriving DecidableEq

def Closing.status : Closing → TopUpStatus
  | .failed => .failed
  | .expired => .expired

/-- An order as a transaction has read it, after the check of its status. -/
structure PendingTopUp extends TopUp where
  pending : status = .pending

/-- A code as a transaction has read it, after the check of its status. -/
structure EnabledCode extends Redemption where
  enabled : status = .enabled

inductive Statement
  -- A completion in one transaction.
  | findOrder (k : Completion) (tradeNo : String) (now : Int)
  | saveOrder (k : Completion) (t : PendingTopUp) (now : Int)
  | findPayer (k : Completion) (t : TopUp)
  | creditOrder (k : Completion) (t : TopUp) (contact : Contact)
  | commitOrder (t : TopUp) (quota : Int)
  | alreadyDone
  -- The notification of Epay: two statements that commit by themselves.
  | findEpay (tradeNo payType : String)
  | saveEpay (t : PendingTopUp) (payType : String)
  | commitEpay (t : TopUp)
  | creditEpay (t : TopUp)
  | commitCredit (t : TopUp) (quota : Int)
  -- A payment that did not come about.
  | findPending (expected : PaymentProvider) (tradeNo : String) (target : Closing)
  | savePending (t : PendingTopUp) (target : Closing)
  | commitPending (t : TopUp) (target : Closing)
  -- `Redeem`.
  | findCode (key : String) (userId now : Int)
  | creditCode (r : EnabledCode) (userId now : Int)
  | saveCode (r : EnabledCode) (userId now quota : Int)
  | commitCode (r : Redemption) (userId quota : Int)

inductive Answer
  | nothing
  | completed (ref : Ref) (userId quota : Int)
  | saved (t : TopUp)
  | credited (tradeNo : String) (userId quota : Int)
  | closed (tradeNo : String) (target : Closing)
deriving DecidableEq

def sent (fault : Option String) (e : Effect Write Statement Answer) : Effect Write Statement Answer :=
  match fault with
  | some err => .rollback err
  | none => e

/-- `UPDATE users SET quota = quota + ...`, and what follows with the change of the quota. A
user that is gone is no error. -/
def nextCredit (cfg : Settings) (db : PaymentDb) (fault : Option String) (userId : Int)
    (amount : Amount) (contact : Contact)
    (l : Int → Statement) : Effect Write Statement Answer :=
  match fault, db.users.find userId with
  | some err, _ => .rollback err
  | none, none => .goto (l 0)
  | none, some u =>
    match amount.addTo cfg u.quota with
    | none => .rollback "invalid value for column quota"
    | some quota => .write (.credit userId amount contact) (l (quota-u.quota))

def next (cfg : Settings) (db : PaymentDb) (fault : Option String) : Statement → Effect Write Statement Answer
  | .findOrder k tradeNo now =>
    if tradeNo = "" then .rollback k.noTradeNo
    else match fault, db.topUps.find tradeNo with
      | some _, _ => .rollback (k.failure.getD "充值订单不存在")
      | none, none => .rollback (k.failure.getD "充值订单不存在")
      | none, some t =>
        match haccept : k.accept cfg t with
        | .error e => .rollback (k.failure.getD e)
        | .ok none => .goto .alreadyDone
        | .ok (some _) => .goto (.saveOrder k ⟨t, (Completion.accept_some haccept).1⟩ now)
  | .saveOrder k t now => sent fault (.write (.saveOrder (completed now t.toTopUp)) (.findPayer k t.toTopUp))
  | .findPayer k t =>
    match k.contact with
    | .email address =>
      if address = "" then .goto (.creditOrder k t .none)
      else match fault, db.users.find t.userId with
        | some err, _ => .rollback (k.failure.getD err)
        | none, none => .rollback (k.failure.getD "record not found")
        | none, some u => .goto (.creditOrder k t (if u.email = "" then .email address else .none))
    | contact => .goto (.creditOrder k t contact)
  | .creditOrder k t contact => nextCredit cfg db fault t.userId (k.quota cfg t) contact (.commitOrder t)
  | .commitOrder t quota => sent fault (.commit (.completed (.order t.tradeNo) t.userId quota))
  | .alreadyDone => sent fault (.commit .nothing)
  | .findEpay tradeNo payType =>
    match fault, db.topUps.find tradeNo with
    | some err, _ => .rollback err
    | none, none => .rollback "record not found"
    | none, some t =>
      if hpending : t.paymentProvider = .epay ∧ t.status = .pending then .goto (.saveEpay ⟨t, hpending.2⟩ payType)
      else .rollback ""
  | .saveEpay t payType =>
    sent fault (.write (.saveOrder { t.toTopUp with paymentMethod := payType, status := .success })
      (.commitEpay t.toTopUp))
  | .commitEpay t => sent fault (.commit (.saved t))
  | .creditEpay t =>
    if unitsOf cfg t < 0 then .rollback "quota 不能为负数！"
    else nextCredit cfg db fault t.userId (.units (unitsOf cfg t)) .none (.commitCredit t)
  | .commitCredit t quota => sent fault (.commit (.credited t.tradeNo t.userId quota))
  | .findPending expected tradeNo target =>
    if tradeNo = "" then .rollback "未提供支付单号"
    else match fault, db.topUps.find tradeNo with
      | some _, _ => .rollback "topup not found"
      | none, none => .rollback "topup not found"
      | none, some t =>
        if t.paymentProvider ≠ expected then .rollback "payment method mismatch"
        else if hpending : t.status = .pending then .goto (.savePending ⟨t, hpending⟩ target)
        else .rollback "topup status invalid"
  | .savePending t target =>
    sent fault (.write (.saveOrder { t.toTopUp with status := target.status }) (.commitPending t.toTopUp target))
  | .commitPending t target => sent fault (.commit (.closed t.tradeNo target))
  | .findCode key userId now =>
    if key = "" then .rollback "未提供兑换码"
    else if userId = 0 then .rollback "无效的 user id"
    else match fault, db.redemptions.find key with
      | some _, _ => .rollback "redeem.failed"
      | none, none => .rollback "redeem.failed"
      | none, some r =>
        if hvalid : r.status = .enabled ∧ ¬ (r.expiredTime ≠ 0 ∧ r.expiredTime < now) then
          .goto (.creditCode ⟨r, hvalid.1⟩ userId now)
        else .rollback "redeem.failed"
  | .creditCode r userId now => nextCredit cfg db fault userId (.units r.quota) .none (.saveCode r userId now)
  | .saveCode r userId now quota =>
    sent fault (.write (.saveCode (used userId now r.toRedemption)) (.commitCode r.toRedemption userId quota))
  | .commitCode r userId quota => sent fault (.commit (.completed (.code r.key) userId quota))

def program (cfg : Settings) : Program PaymentDb Write Lock Statement Answer where
  apply := Write.apply cfg
  lock := Write.lock
  next := fun l db fault => next cfg db fault l

def follow : Answer → Option Statement
  | .saved t => some (.creditEpay t)
  | _ => none

inductive Call
  | complete (k : Completion) (tradeNo : String) (now : Int)
  | epayNotify (tradeNo payType : String)
  | close (expected : PaymentProvider) (tradeNo : String) (target : Closing)
  | redeem (key : String) (userId now : Int)

def Call.first : Call → Statement
  | .complete k tradeNo now => .findOrder k tradeNo now
  | .epayNotify tradeNo payType => .findEpay tradeNo payType
  | .close expected tradeNo target => .findPending expected tradeNo target
  | .redeem key userId now => .findCode key userId now

inductive Status
  | order (s : TopUpStatus)
  | code (s : RedemptionStatus)
deriving DecidableEq

def statusOf (ref : Ref) (db : PaymentDb) : Option Status :=
  match ref with
  | .order tradeNo => (db.topUps.find tradeNo).map (fun t => .order t.status)
  | .code key => (db.redemptions.find key).map (fun r => .code r.status)

def Ref.openStatus : Ref → Status
  | .order _ => .order .pending
  | .code _ => .code .enabled

def isOpen (ref : Ref) (db : PaymentDb) : Bool := statusOf ref db = some ref.openStatus

/-- The item whose save the transaction has made and not committed. -/
def Statement.closing : Statement → Option Ref
  | .findPayer _ t => some (.order t.tradeNo)
  | .creditOrder _ t _ => some (.order t.tradeNo)
  | .commitOrder t _ => some (.order t.tradeNo)
  | .commitEpay t => some (.order t.tradeNo)
  | .commitPending t _ => some (.order t.tradeNo)
  | .commitCode r _ _ => some (.code r.key)
  | _ => none

/-- The change of the user's quota that the transaction has written and not committed. -/
def Statement.pending (id : Int) : Statement → Int
  | .commitOrder t quota => if t.userId = id then quota else 0
  | .commitCredit t quota => if t.userId = id then quota else 0
  | .saveCode _ userId _ quota => if userId = id then quota else 0
  | .commitCode _ userId quota => if userId = id then quota else 0
  | _ => 0

def Statement.owes (ref : Ref) : Statement → Int
  | .creditEpay t => if ref = .order t.tradeNo then 1 else 0
  | .commitCredit t _ => if ref = .order t.tradeNo then 1 else 0
  | _ => 0

def Answer.closes : Answer → Option Ref
  | .completed ref _ _ => some ref
  | .saved t => some (.order t.tradeNo)
  | .closed tradeNo _ => some (.order tradeNo)
  | _ => none

def Answer.credits : Answer → Option Ref
  | .completed ref _ _ => some ref
  | .credited tradeNo _ _ => some (.order tradeNo)
  | _ => none

def Answer.gain (id : Int) : Answer → Int
  | .completed _ userId quota => if userId = id then quota else 0
  | .credited _ userId quota => if userId = id then quota else 0
  | _ => 0

/-- A save finds the row that the transaction has read. -/
def NotStale : Statement → PaymentDb → Prop
  | .saveOrder _ t _, db => db.topUps.find t.tradeNo = some t.toTopUp
  | .saveEpay t _, db => db.topUps.find t.tradeNo = some t.toTopUp
  | .savePending t _, db => db.topUps.find t.tradeNo = some t.toTopUp
  | .saveCode r _ _ _, db => db.redemptions.find r.key = some r.toRedemption
  | _, _ => True

instance (l : Statement) (db : PaymentDb) : Decidable (NotStale l db) := by
  unfold NotStale
  split <;> infer_instance

section Effects

variable {cfg : Settings} {db : PaymentDb} {l l' : Statement} {f : Option String}

def Statement.reads : Statement → Bool
  | .findOrder _ _ _ | .findPayer _ _ | .findEpay _ _ | .findPending _ _ _ | .findCode _ _ _ => true
  | _ => false

/-- The transaction has the same to commit at `l'` as at `l`. -/
def Statement.Level (l l' : Statement) : Prop :=
  l'.closing = l.closing ∧ (∀ id, l'.pending id = l.pending id) ∧ ∀ ref, l'.owes ref = l.owes ref

theorem isOpen_saveOrder (t : TopUp) (ht : t.status ≠ .pending) :
    isOpen (.order t.tradeNo) (Write.apply cfg db (.saveOrder t)) = false := by
  simp only [isOpen, statusOf, Write.apply, Table.find_save, if_true, map_map]
  cases db.topUps.find t.tradeNo with
  | none => rfl
  | some => simpa [Ref.openStatus] using ht

theorem isOpen_saveCode (r : Redemption) (hr : r.status ≠ .enabled) :
    isOpen (.code r.key) (Write.apply cfg db (.saveCode r)) = false := by
  simp only [isOpen, statusOf, Write.apply, Table.find_save, if_true, map_map]
  cases db.redemptions.find r.key with
  | none => rfl
  | some => simpa [Ref.openStatus] using hr

theorem PendingTopUp.isOpen {t : PendingTopUp} (h : db.topUps.find t.tradeNo = some t.toTopUp) :
    isOpen (.order t.tradeNo) db = true := by
  simp only [Payment.isOpen, statusOf, h, map_some, t.pending]
  rfl

theorem EnabledCode.isOpen {r : EnabledCode} (h : db.redemptions.find r.key = some r.toRedemption) :
    isOpen (.code r.key) db = true := by
  simp only [Payment.isOpen, statusOf, h, map_some, r.enabled]
  rfl

inductive WriteSpec (cfg : Settings) (l : Statement) (db : PaymentDb) : Write → Statement → Prop
  | close {w : Write} {l' : Statement} (ref : Ref) (hlock : w.lock = .ref ref) (hbefore : l.closing = none)
      (hafter : l'.closing = some ref) (hcloses : ∀ db', isOpen ref (w.apply cfg db') = false)
      (hopen : NotStale l db → isOpen ref db = true) (hpending : ∀ id, l'.pending id = l.pending id)
      (howes : ∀ ref, l'.owes ref = l.owes ref) : WriteSpec cfg l db w l'
  | credit {l' : Statement} (userId : Int) (amount : Amount) (contact : Contact) (u : User) (quota : Int)
      (huser : db.users.find userId = some u) (hadd : amount.addTo cfg u.quota = some quota)
        (hclosing : l'.closing = l.closing)
      (hbefore : ∀ id, l.pending id = 0) (hafter : ∀ id, l'.pending id = if userId = id then quota-u.quota else 0)
      (howes : ∀ ref, l'.owes ref = l.owes ref) : WriteSpec cfg l db (.credit userId amount contact) l'

inductive Does (cfg : Settings) (db : PaymentDb) (l : Statement) : Effect Write Statement Answer → Prop
  | rollback (e : String) : Does cfg db l (.rollback e)
  | goto {l' : Statement} (level : l.Level l') : Does cfg db l (.goto l')
  | write {w : Write} {l' : Statement} (spec : WriteSpec cfg l db w l') : Does cfg db l (.write w l')
  | commit {r : Answer} (closes : r.closes = l.closing) (gain : ∀ id, r.gain id = l.pending id)
      (credits : ∀ ref, (if r.credits = some ref then 1 else 0)+(follow r).elim 0 (Statement.owes ref) ≤
        (if r.closes = some ref then 1 else 0)+l.owes ref) : Does cfg db l (.commit r)

theorem Does.sent {e : Effect Write Statement Answer} (h : Does cfg db l e) : Does cfg db l (sent f e) := by
  cases f with
  | none => exact h
  | some err => exact .rollback err

theorem next_reads (hl : l.reads = true) : Does cfg db l (next cfg db f l) := by
  cases l with
  | findOrder | findPayer | findEpay | findPending | findCode =>
    -- A branch ends the transaction, or goes on with the same to commit.
    simp only [next]
    repeat' split
    all_goals first | exact .rollback _ | exact .goto ⟨rfl, fun _ => rfl, fun _ => rfl⟩
  | _ => cases hl

theorem nextCredit_does {userId : Int} {amount : Amount} {contact : Contact} {k : Int → Statement}
    (hclosing : ∀ q, (k q).closing = l.closing) (hbefore : ∀ id, l.pending id = 0)
    (hafter : ∀ q id, (k q).pending id = if userId = id then q else 0)
    (howes : ∀ q ref, (k q).owes ref = l.owes ref) :
    Does cfg db l (nextCredit cfg db f userId amount contact k) := by
  unfold nextCredit
  split
  · exact .rollback _
  · refine .goto ⟨hclosing 0, fun id => ?_, howes 0⟩
    rw [hafter, hbefore, ite_self]
  · next u hu =>
    split
    · exact .rollback _
    · next quota hq => exact .write (.credit userId _ _ u quota hu hq (hclosing _) hbefore (hafter _) (howes _))

theorem next_does (cfg : Settings) (db : PaymentDb) (l : Statement) (f : Option String) :
    Does cfg db l ((program cfg).next l db f) := by
  change Does cfg db l (next cfg db f l)
  cases l with
  | findOrder | findPayer | findEpay | findPending | findCode => exact next_reads rfl
  | saveOrder k t now =>
    exact Does.sent (.write (.close (.order t.tradeNo) rfl rfl rfl
      (fun db' => isOpen_saveOrder (completed now t.toTopUp) nofun) PendingTopUp.isOpen (fun _ => rfl) (fun _ => rfl)))
  | saveEpay t payType =>
    exact Does.sent (.write (.close (.order t.tradeNo) rfl rfl rfl
      (fun db' => isOpen_saveOrder { t.toTopUp with paymentMethod := payType, status := .success } nofun)
      PendingTopUp.isOpen (fun _ => rfl) (fun _ => rfl)))
  | savePending t target =>
    have hfinal : target.status ≠ .pending := by cases target <;> nofun
    exact Does.sent (.write (.close (.order t.tradeNo) rfl rfl rfl
      (fun db' => isOpen_saveOrder { t.toTopUp with status := target.status } hfinal) PendingTopUp.isOpen
      (fun _ => rfl) (fun _ => rfl)))
  | saveCode r userId now =>
    exact Does.sent (.write (.close (.code r.key) rfl rfl rfl
      (fun db' => isOpen_saveCode (used userId now r.toRedemption) nofun) EnabledCode.isOpen
        (fun _ => rfl) (fun _ => rfl)))
  | creditOrder | creditCode =>
    simp only [next]
    exact nextCredit_does (fun _ => rfl) (fun _ => rfl) (fun _ _ => rfl) (fun _ _ => rfl)
  | creditEpay =>
    simp only [next]
    split
    · exact .rollback _
    · exact nextCredit_does (fun _ => rfl) (fun _ => rfl) (fun _ _ => rfl) (fun _ _ => rfl)
  | commitOrder | alreadyDone | commitCode =>
    exact Does.sent (.commit rfl (fun _ => rfl) (fun _ => le_refl _))
  | commitEpay | commitCredit =>
    refine Does.sent (.commit rfl (fun _ => rfl) (fun ref => ?_))
    simp only [Answer.credits, Answer.closes, follow, elim_some, elim_none, Statement.owes, reduceCtorEq,
      if_false, some.injEq, eq_comm]
    omega
  | commitPending =>
    refine Does.sent (.commit rfl (fun _ => rfl) (fun ref => ?_))
    simp only [Answer.credits, follow, elim_none, Statement.owes, reduceCtorEq, if_false]
    split <;> decide

theorem goto_spec (h : (program cfg).next l db f = .goto l') :
    l'.closing = l.closing ∧ (∀ id, l'.pending id = l.pending id) ∧ ∀ ref, l'.owes ref = l.owes ref := by
  cases h ▸ next_does cfg db l f with
  | goto level => exact level

theorem write_spec {w : Write} (h : (program cfg).next l db f = .write w l') : WriteSpec cfg l db w l' := by
  cases h ▸ next_does cfg db l f with
  | write spec => exact spec

theorem commit_spec {r : Answer} (h : (program cfg).next l db f = .commit r) :
    r.closes = l.closing ∧ (∀ id, r.gain id = l.pending id) ∧ ∀ ref,
      (if r.credits = some ref then 1 else 0)+(follow r).elim 0 (Statement.owes ref) ≤
        (if r.closes = some ref then 1 else 0)+l.owes ref := by
  cases h ▸ next_does cfg db l f with
  | commit closes gain credits => exact ⟨closes, gain, credits⟩

end Effects

end AiGateway.Payment
