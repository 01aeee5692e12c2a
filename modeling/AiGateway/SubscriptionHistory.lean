import AiGateway.Run
import AiGateway.SubscriptionGroupSpec

/-! Histories of the operations that move a user between groups, and the condition under which the
group is given back. -/
namespace AiGateway.Subscription
open GoText Fault

/-- The user's subscriptions that are active and have an upgrade group, ended or not. -/
def GroupDb.upgradesOf (db : GroupDb) (u : Int) : List UserSubscription :=
  db.subs.rows.filter (fun s => s.userId = u ∧ s.status = .active ∧ s.upgradeGroup ≠ "")

theorem GroupDb.mem_upgradesOf {db : GroupDb} {u : Int} {s : UserSubscription} :
    s ∈ db.upgradesOf u ↔ s ∈ db.subs.rows ∧ s.userId = u ∧ s.status = .active ∧ s.upgradeGroup ≠ "" := by
  simp [upgradesOf]

/-- The database, the group the user had before the first subscription of the current chain
of overlapping upgrades, and the time of the last operation. -/
structure GroupHistory where
  db : GroupDb
  base : String
  clock : Int

def GroupHistory.initial (u : Int) (groups : Int → Option String) : GroupHistory where
  db := ⟨groups, Table.empty, 1, fresh_nil⟩
  base := (groups u).getD ""
  clock := 0

inductive GroupAction
  | purchase (userId : Int) (plan : SubscriptionPlan) (now : Int) (fails : GroupStmt → Option String)
  | invalidate (id now : Int) (fails : GroupStmt → Option String)
  | delete (id now : Int) (fails : GroupStmt → Option String)
  | sweep (limit : Int) (order : MapOrder) (now : Int) (fails : GroupStmt → Option String)

def purchaseTx (off : Int) (fails : GroupStmt → Option String) (userId : Int) (plan : SubscriptionPlan) (now : Int)
    (db : GroupDb) : Except String (UserSubscription × GroupDb) := do
  let created ← createUserSubscriptionFromPlan off fails userId plan now db
  attempt fails (.commit userId)
  return created

theorem purchaseTx_ok {off userId now : Int} {fails : GroupStmt → Option String} {plan : SubscriptionPlan}
    {db : GroupDb} {created : UserSubscription × GroupDb} (h : purchaseTx off fails userId plan now db = .ok created) :
    createUserSubscriptionFromPlan off fails userId plan now db = .ok created := by
  obtain ⟨_, hcreate, hcommit⟩ := bind_eq_ok h
  obtain ⟨_, _, hdone⟩ := bind_eq_ok hcommit
  cases hdone
  exact hcreate

def beginsChain (u userId now : Int) (sub : UserSubscription) (db : GroupDb) : Bool :=
  userId = u ∧ sub.upgradeGroup ≠ "" ∧ ∀ s ∈ db.upgradesOf u, s.endTime ≤ now

def GroupHistory.step (off u : Int) (x : GroupHistory) : GroupAction → GroupHistory
  | .purchase userId plan now fails =>
    match purchaseTx off fails userId plan now x.db with
    | .error _ => { x with clock := now }
    -- The base is the group before this purchase when the purchase begins a chain.
    | .ok (sub, db) => ⟨db, if beginsChain u userId now sub x.db then x.db.group u else x.base, now⟩
  | .invalidate id now fails =>
    match adminInvalidateUserSubscription fails id now x.db with
    | .error _ => { x with clock := now }
    | .ok (_, db) => { x with db := db, clock := now }
  | .delete id now fails =>
    match adminDeleteUserSubscription fails id now x.db with
    | .error _ => { x with clock := now }
    | .ok (_, db) => { x with db := db, clock := now }
  | .sweep limit order now fails =>
    { x with db := (expireDueSubscriptions fails order limit now x.db).2, clock := now }

/-- The plan has no downgrade group, and an upgrade leaves the row that raised the user the
last one of the chain to end: a renewal ends before it, and an upgrade from the group the
chain began with ends after all others. -/
def PurchaseOk (off u : Int) (plan : SubscriptionPlan) (now : Int) (x : GroupHistory) : Prop :=
  trimSpace plan.downgradeGroup = "" ∧ match calcPlanEndTime off now plan with
    | .error _ => True
    | .ok endUnix => trimSpace plan.upgradeGroup ≠ "" → now < endUnix ∧
        if trimSpace plan.upgradeGroup = x.db.group u then
          x.db.group u = x.base ∨ ∃ s ∈ x.db.upgradesOf u, endUnix < s.endTime
        else x.db.group u = x.base ∧ ∀ s ∈ x.db.upgradesOf u, s.endTime ≤ endUnix

/-- The last one to end is cancelled or deleted only when no other is unexpired. -/
def RemoveOk (u id now : Int) (x : GroupHistory) : Prop :=
  ∀ sub ∈ x.db.upgradesOf u, sub.id = id → x.db.group u = x.base ∨
    (∃ s ∈ x.db.upgradesOf u, endRank sub < endRank s) ∨ ∀ s ∈ x.db.upgradesOf u, s.id ≠ id →
      s.endTime ≤ now

/-- The clock does not go back, and the sweep's query for the row that decides succeeds. -/
def UpgradeOk (off u : Int) (x : GroupHistory) : GroupAction → Prop
  | .purchase userId plan now _ => x.clock ≤ now ∧ (userId = u → PurchaseOk off u plan now x)
  | .invalidate id now _ => x.clock ≤ now ∧ RemoveOk u id now x
  | .delete id now _ => x.clock ≤ now ∧ RemoveOk u id now x
  | .sweep _ _ now fails => x.clock ≤ now ∧ fails (.findExpired u) = none

instance (off u : Int) (plan : SubscriptionPlan) (now : Int) (x : GroupHistory) :
    Decidable (PurchaseOk off u plan now x) := by
  unfold PurchaseOk
  cases calcPlanEndTime off now plan <;> infer_instance

instance (u id now : Int) (x : GroupHistory) : Decidable (RemoveOk u id now x) := by
  unfold RemoveOk
  infer_instance

instance (off u : Int) (x : GroupHistory) (a : GroupAction) : Decidable (UpgradeOk off u x a) := by
  cases a <;> unfold UpgradeOk <;> infer_instance

/-- No upgrade of the user is unexpired, and the sweep has processed all ended rows. -/
def GroupHistory.Settled (u now : Int) (x : GroupHistory) : Prop :=
  (∀ s ∈ x.db.upgradesOf u, s.endTime ≤ now) ∧ ∀ s ∈ x.db.subs.rows, s.userId = u → s.status = .active →
    now < s.endTime

instance (u now : Int) (x : GroupHistory) : Decidable (x.Settled u now) := by
  unfold GroupHistory.Settled
  infer_instance

end AiGateway.Subscription
