import AiGateway.GoText
import AiGateway.SubscriptionPlan
import Mathlib.Data.List.MinMax
import Mathlib.Data.List.Sort
import Mathlib.Data.Prod.Lex

/-! The user's group. A purchase raises it and notes the group it found; the end of the subscription
reads that note to give the group back. -/
namespace AiGateway.Subscription
open GoText Fault List

inductive GroupStmt
  | countPurchases | createSub | findSub | updateSub | deleteSub | findDue
  | readGroup (userId : Int) | updateGroup (userId : Int) | markExpired (userId : Int)
  | findActive (userId : Int) | findExpired (userId : Int) | commit (userId : Int)
deriving DecidableEq

structure GroupDb where
  groups : Int → Option String
  subs : Table UserSubscription.id
  nextId : Int
  fresh : ∀ id ∈ subs.rows.map UserSubscription.id, id < nextId

theorem fresh_nil : ∀ id ∈ ([] : List Int), id < 1 := by simp

namespace GroupDb

def group (db : GroupDb) (userId : Int) : String := (db.groups userId).getD ""

def setGroup (db : GroupDb) (userId : Int) (group : String) : GroupDb :=
  { db with groups := fun id => if id = userId then (db.groups id).map (fun _ => group) else db.groups id }

def save (db : GroupDb) (sub : UserSubscription) : GroupDb :=
  { db with
    subs := db.subs.save sub
    fresh := by
      intro id hid
      rw [Table.save, Table.map_key_map db.subs.rows (Table.key_replace sub)] at hid
      exact db.fresh id hid }

def delete (db : GroupDb) (id : Int) : GroupDb :=
  { db with
    subs := db.subs.delete id
    fresh := by
      intro k hk
      exact db.fresh k ((filter_sublist.map UserSubscription.id).subset hk) }

variable (db : GroupDb)

theorem nextId_notMem : db.nextId ∉ db.subs.rows.map UserSubscription.id := by
  intro h
  have hlt := db.fresh db.nextId h
  omega

def create (db : GroupDb) (sub : UserSubscription) : GroupDb :=
  { db with
    subs := db.subs.insert { sub with id := db.nextId }
    nextId := db.nextId+1
    fresh := by
      intro id hid
      rw [Table.insert_rows db.nextId_notMem, map_append, mem_append] at hid
      rcases hid with hold | hnew
      · have hlt := db.fresh id hold
        omega
      · rw [map_singleton, mem_singleton] at hnew
        have he : id = db.nextId := hnew
        omega }

def expire (db : GroupDb) (p : UserSubscription → Bool) : GroupDb :=
  let mark (s : UserSubscription) : UserSubscription := if p s then { s with status := .expired } else s
  have hmark : ∀ s, (mark s).id = s.id := by
    intro s
    by_cases h : p s = true <;> simp [mark, h]
  { db with
    subs := db.subs.update mark hmark
    fresh := by
      intro id hid
      rw [Table.update, Table.map_key_map db.subs.rows hmark] at hid
      exact db.fresh id hid }

@[simp] theorem save_groups (sub : UserSubscription) : (db.save sub).groups = db.groups := rfl

theorem setGroup_of_ne {u v : Int} (h : u ≠ v) (g : String) :
    (db.setGroup v g).groups u = db.groups u := if_neg h

theorem group_setGroup {u : Int} (hu : (db.groups u).isSome = true) (g : String) :
    (db.setGroup u g).group u = g := by
  obtain ⟨_, hold⟩ := Option.isSome_iff_exists.mp hu
  simp [group, setGroup, hold]

theorem isSome_setGroup (u v : Int) (g : String) :
    ((db.setGroup v g).groups u).isSome = (db.groups u).isSome := by
  by_cases h : u = v <;> simp [setGroup, h]

theorem mem_create (sub s : UserSubscription) :
    s ∈ (db.create sub).subs.rows ↔ s ∈ db.subs.rows ∨ s = { sub with id := db.nextId } := by
  have hrows : (db.create sub).subs.rows = db.subs.rows ++ [{ sub with id := db.nextId }] :=
    Table.insert_rows db.nextId_notMem
  rw [hrows, mem_append, mem_singleton]

theorem mem_expire (p : UserSubscription → Bool) (s : UserSubscription) : s ∈ (db.expire p).subs.rows ↔
      (s ∈ db.subs.rows ∧ p s = false) ∨ ∃ r ∈ db.subs.rows, p r = true ∧
        s = { r with status := .expired } := by
  constructor
  · intro hs
    obtain ⟨r, hr, rfl⟩ := mem_map.mp hs
    cases hp : p r with
    | true => exact .inr ⟨r, hr, hp, if_pos rfl⟩
    | false => exact .inl ⟨hr, hp⟩
  · rintro (⟨hs, hp⟩ | ⟨r, hr, hp, rfl⟩)
    · exact mem_map.mpr ⟨s, hs, by simp [hp]⟩
    · exact mem_map.mpr ⟨r, hr, by simp [hp]⟩

end GroupDb

/-! ### The transactions -/

variable (fails : GroupStmt → Option String)

def getUserGroupById (userId : Int) (db : GroupDb) : Except String String :=
  if userId ≤ 0 then .error "invalid userId"
  else do
    attempt fails (.readGroup userId)
    return db.group userId

/-- The user still has another subscription that keeps the group. A query that fails
counts as one that found nothing. -/
def activeUpgrade (userId now : Int) (other : UserSubscription → Bool)
    (db : GroupDb) : Bool :=
  (fails (.findActive userId)).isNone && db.subs.rows.any (fun s => other s &&
    decide (s.userId = userId ∧ s.status = .active ∧ now < s.endTime ∧ s.upgradeGroup ≠ ""))

def downgradeUserGroupForSubscription (sub : UserSubscription) (now : Int)
    (db : GroupDb) : Except String (String × GroupDb) :=
  let downgradeGroup := trimSpace sub.downgradeGroup
  let upgradeGroup := trimSpace sub.upgradeGroup
  if downgradeGroup = "" ∧ upgradeGroup = "" then .ok ("", db)
  else do
    let currentGroup ← getUserGroupById fails sub.userId db
    -- Another upgrade that still runs keeps the group, whichever group that one is for.
    if activeUpgrade fails sub.userId now (fun s => s.id ≠ sub.id) db then .ok ("", db)
    -- The user has been moved elsewhere since.
    else if downgradeGroup = "" ∧ currentGroup ≠ upgradeGroup then .ok ("", db)
    else
      let target := if downgradeGroup = "" then trimSpace sub.prevUserGroup else downgradeGroup
      if target = "" ∨ target = currentGroup then .ok ("", db)
      else do
        attempt fails (.updateGroup sub.userId)
        return (target, db.setGroup sub.userId target)

def checkPurchaseLimit (userId : Int) (plan : SubscriptionPlan)
    (db : GroupDb) : Except String Unit :=
  if 0 < plan.maxPurchasePerUser then do
    attempt fails .countPurchases
    -- Ended and cancelled purchases count too.
    if plan.maxPurchasePerUser ≤ (db.subs.rows.countP (fun s => s.userId = userId ∧ s.planId = plan.id) : Int) then
      .error "已达到该套餐购买上限"
    else .ok ()
  else .ok ()

/-- Move the user to the plan's group. The group the user is taken from is noted, and
nothing is noted for a user who is in the plan's group already. -/
def raiseGroup (userId : Int) (upgradeGroup : String) (db : GroupDb) :
    Except String (String × GroupDb) :=
  if upgradeGroup = "" then .ok ("", db)
  else do
    let currentGroup ← getUserGroupById fails userId db
    if currentGroup ≠ upgradeGroup then do
      attempt fails (.updateGroup userId)
      return (currentGroup, db.setGroup userId upgradeGroup)
    -- A renewal: the new row has no note of the group before the upgrade.
    else .ok ("", db)

def purchasedSubscription (off userId : Int) (plan : SubscriptionPlan) (now endUnix : Int) (prevGroup : String) :
    UserSubscription :=
  let nextReset := calcNextResetTime off now plan endUnix
  { id := 0
    userId := userId
    planId := plan.id
    amountTotal := plan.totalAmount
    amountUsed := 0
    startTime := now
    endTime := endUnix
    status := .active
    lastResetTime := if 0 < nextReset then now else 0
    nextResetTime := nextReset
    upgradeGroup := trimSpace plan.upgradeGroup
    prevUserGroup := prevGroup
    downgradeGroup := trimSpace plan.downgradeGroup
    allowWalletOverflow := plan.allowWalletOverflow.getD true }

def createUserSubscriptionFromPlan (off : Int) (fails : GroupStmt → Option String) (userId : Int)
    (plan : SubscriptionPlan) (now : Int) (db : GroupDb) : Except String (UserSubscription × GroupDb) :=
  if plan.id = 0 then .error "invalid plan"
  else if userId ≤ 0 then .error "invalid user id"
  else do
    checkPurchaseLimit fails userId plan db
    let endUnix ← calcPlanEndTime off now plan
    let (prevGroup, db) ← raiseGroup fails userId (trimSpace plan.upgradeGroup) db
    attempt fails .createSub
    let sub := purchasedSubscription off userId plan now endUnix prevGroup
    return ({ sub with id := db.nextId }, db.create sub)

def rollbackMessage (target : String) : String :=
  if target ≠ "" then s!"用户分组将回退到 {target}" else ""

/-- The row is cancelled before the group is looked at, so it does not keep the group itself. -/
def adminInvalidateUserSubscription (id now : Int) (db : GroupDb) :
    Except String (String × GroupDb) :=
  if id ≤ 0 then .error "invalid userSubscriptionId"
  else do
    attempt fails .findSub
    match db.subs.find id with
    | none => .error "record not found"
    | some sub => do
      attempt fails .updateSub
      let sub := { sub with status := .cancelled, endTime := now }
      let (target, db) ← downgradeUserGroupForSubscription fails sub now (db.save sub)
      attempt fails (.commit sub.userId)
      return (rollbackMessage target, db)

def adminDeleteUserSubscription (id now : Int) (db : GroupDb) :
    Except String (String × GroupDb) :=
  if id ≤ 0 then .error "invalid userSubscriptionId"
  else do
    attempt fails .findSub
    match db.subs.find id with
    | none => .error "record not found"
    | some sub => do
      let (target, db) ← downgradeUserGroupForSubscription fails sub now db
      attempt fails .deleteSub
      attempt fails (.commit sub.userId)
      return (rollbackMessage target, db.delete id)

def ended (now : Int) (s : UserSubscription) : Bool := s.status = .active ∧ 0 < s.endTime ∧ s.endTime ≤ now

def endRank (s : UserSubscription) : Int ×ₗ Int := toLex (s.endTime, s.id)

-- The order by way of the linear one on `Int`, so that the choice below can be computed.
local instance endRankOrder : Preorder (Int ×ₗ Int) := (Prod.Lex.instLinearOrder Int Int).toPreorder

/-- The expired subscription that ended last among those that name a group. A query that
fails counts as one that found nothing. -/
def lastExpired (userId : Int) (db : GroupDb) : Option UserSubscription :=
  if (fails (.findExpired userId)).isSome then none
  -- The row is chosen by its groups, whether or not it has a note to give back.
  else (db.subs.rows.filter (fun s => s.userId = userId ∧ s.status = .expired ∧
    (s.downgradeGroup ≠ "" ∨ s.upgradeGroup ≠ ""))).argmax endRank

def expiryTarget (last : UserSubscription) (currentGroup : String) : String :=
  let upgradeGroup := trimSpace last.upgradeGroup
  let prevGroup := trimSpace last.prevUserGroup
  if trimSpace last.downgradeGroup ≠ "" then trimSpace last.downgradeGroup
  -- Without a note there is nothing to give back.
  else if upgradeGroup = "" ∨ prevGroup = "" then ""
  else if currentGroup ≠ upgradeGroup then ""
  else prevGroup

/-- The rest of a user's transaction in the sweep, once the ended rows are marked. -/
def revertExpired (userId now : Int) (db : GroupDb) : Except String GroupDb :=
  if activeUpgrade fails userId now (fun _ => true) db then .ok db
  else match lastExpired fails userId db with
    | none => .ok db
    | some last => do
      let currentGroup ← getUserGroupById fails userId db
      let target := expiryTarget last currentGroup
      if target = "" ∨ target = currentGroup then .ok db
      else do
        attempt fails (.updateGroup userId)
        return db.setGroup userId target

/-- A user's transaction in the sweep. The rows it marked are counted even if it is rolled
back afterwards. -/
def expireUserSubscriptions (userId now : Int) (db : GroupDb) :
    ℕ × Except String GroupDb :=
  let due (s : UserSubscription) : Bool := s.userId = userId && ended now s
  match fails (.markExpired userId) with
  | some e => (0, .error e)
  | none => (db.subs.rows.countP due, do
      let db ← revertExpired fails userId now (db.expire due)
      attempt fails (.commit userId)
      return db)

def expireUsers (fails : GroupStmt → Option String) (now : Int) :
    List Int → ℕ → GroupDb → (ℕ × Option String) × GroupDb
  | [], expiredCount, db => ((expiredCount, none), db)
  | userId :: userIds, expiredCount, db =>
    match expireUserSubscriptions fails userId now db with
    | (n, .error e) => ((expiredCount+n, some e), db)
    | (n, .ok db) => expireUsers fails now userIds (expiredCount+n) db

structure MapOrder where
  arrange : List Int → List Int
  perm : ∀ keys, (arrange keys).Perm keys

def expireDueSubscriptions (order : MapOrder) (limit now : Int) (db : GroupDb) :
    (ℕ × Option String) × GroupDb :=
  let limit := if limit ≤ 0 then 200 else limit
  match fails .findDue with
  | some e => ((0, some e), db)
  | none =>
    let subs := ((db.subs.rows.filter (ended now)).insertionSort
      (fun a b => a.endTime < b.endTime ∨ (a.endTime = b.endTime ∧ a.id ≤ b.id))).take limit.toNat
    let userIds := ((subs.map UserSubscription.userId).filter (fun userId => 0 < userId)).dedup
    expireUsers fails now (order.arrange userIds) 0 db

end AiGateway.Subscription
