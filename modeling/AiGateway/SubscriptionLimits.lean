import AiGateway.SubscriptionPurchase

/-! Purchases side by side, when each commit finds what the checks behind it have read. -/
namespace AiGateway.SubscriptionPurchase
open Subscription List Table Run Interleave

def isOpen (tradeNo : String) (orders : Table SubscriptionOrder.tradeNo) : Bool :=
  (orders.find tradeNo).any (fun o => o.status = .pending)

def quotaOf (users : Users) (userId : Int) : Option Int := (users.find userId).map User.quota

namespace Answer

/-- The order that a result has completed, or that it says has expired. -/
def closes : Answer → Option String
  | .completed tradeNo _ _ | .expired tradeNo => some tradeNo
  | _ => none

def quota (userId : Int) : Answer → Int
  | .purchased _ user _ charged => if user = userId then -charged else 0
  | _ => 0

/-- The subscriptions of a plan that a result has brought the user. -/
def subscriptions (userId planId : Int) : Answer → ℕ
  | .completed _ user plan | .purchased _ user plan _ => if user = userId ∧ plan = planId then 1 else 0
  | _ => 0

def Priced (cfg : PurchaseConfig) : Answer → Prop
  | .purchased _ _ planId charged =>
    ∃ plan ∈ cfg.plans.find planId, calcSubscriptionBalanceQuota cfg plan.priceAmount = .ok charged
  | _ => True

end Answer

variable {cfg : PurchaseConfig} {db : PurchaseDb}

/-- The order that is paid, or the quota of the user, is as it was read. -/
def PaidAsRead (db : PurchaseDb) (userId : Int) {plan : OfferedPlan} : Payer cfg plan → Bool
  | .order _ o => db.orders.find o.tradeNo = some o.toSubscriptionOrder
  | .balance p _ => quotaOf db.users userId = some p.quota

/-- What the checks of a transaction have read is still there when it commits. -/
def AsRead (db : PurchaseDb) : Statement cfg → Bool
  | .commitExpired _ o => db.orders.find o.tradeNo = some o.toSubscriptionOrder
  | .commit b _ _ => PaidAsRead db b.userId b.payer ∧
      (0 < b.plan.maxPurchasePerUser → subscriptionsOf db.groups b.userId b.plan.id = b.counted)
  | _ => true

def asRead (cfg : PurchaseConfig) : Guard State (Statement cfg) PurchaseCall (Option String) Empty :=
  ⟨fun _ _ => True, fun s l _ => AsRead s.db l, fun _ _ => True⟩

instance (x : System State (Statement cfg)) (a : Action PurchaseCall (Option String) Empty) :
    Decidable ((asRead cfg).Ok x a) :=
  (asRead cfg).decideOk (fun _ _ => .isTrue trivial) (fun _ _ _ => instDecidableEqBool _ _)
    (fun _ _ => .isTrue trivial) x a

/-- The tables `db₀` and what was committed give the tables of the state. -/
structure Settled (cfg : PurchaseConfig) (db₀ : PurchaseDb) (s : State) : Prop where
  -- An order closes at most once, and only if it was open.
  closed : ∀ tradeNo, s.log.countP (fun r => r.closes = some tradeNo)+(isOpen tradeNo s.db.orders).toNat =
    (isOpen tradeNo db₀.orders).toNat
  subscriptions : ∀ userId planId, subscriptionsOf s.db.groups userId planId =
    subscriptionsOf db₀.groups userId planId+(s.log.map (Answer.subscriptions userId planId)).sum
  limit : ∀ userId planId, ∀ plan ∈ cfg.plans.find planId, 0 < plan.maxPurchasePerUser →
    (subscriptionsOf s.db.groups userId planId : Int) ≤
      max (subscriptionsOf db₀.groups userId planId : Int) plan.maxPurchasePerUser
  quota : ∀ userId, quotaOf s.db.users userId =
    (quotaOf db₀.users userId).map (fun q => q+(s.log.map (Answer.quota userId)).sum)
  nonneg : ∀ userId, (∀ q ∈ quotaOf db₀.users userId, 0 ≤ q) → ∀ q ∈ quotaOf s.db.users userId, 0 ≤ q
  priced : ∀ r ∈ s.log, r.Priced cfg

section Writes

variable {orders : Table SubscriptionOrder.tradeNo}

/-- A save of the order that was read closes it. -/
theorem closed_save {o : PendingOrder} (o' : SubscriptionOrder) (hkey : o'.tradeNo = o.tradeNo)
    (hfinal : o'.status ≠ .pending) (hread : orders.find o.tradeNo = some o.toSubscriptionOrder) (tradeNo : String) :
    (decide (some o.tradeNo = some tradeNo)).toNat+(isOpen tradeNo (orders.save o')).toNat =
      (isOpen tradeNo orders).toNat := by
  rw [isOpen, isOpen]
  by_cases he : tradeNo = o.tradeNo
  · subst he
    rw [find_save_of_key _ hkey hread, hread]
    simp [hfinal, o.pending]
  · have hne : tradeNo ≠ o'.tradeNo := hkey ▸ he
    rw [find_save_of_ne _ hne]
    simp [Ne.symm he]

/-- An order that is inserted was never open. -/
theorem isOpen_insert {o : SubscriptionOrder} (hfind : orders.find o.tradeNo = none) (hfinal : o.status ≠ .pending)
    (tradeNo : String) : isOpen tradeNo (orders.insert o) = isOpen tradeNo orders := by
  rw [isOpen, isOpen]
  by_cases he : tradeNo = o.tradeNo
  · subst he
    rw [find_insert _ _ _ hfind, if_pos rfl, hfind]
    simp [hfinal]
  · rw [find_insert_of_ne _ he]

theorem subscriptionsOf_subscribe (b : Allowed cfg) (endUnix : Int) (currentGroup : Option String)
    (groups : GroupDb) (userId planId : Int) :
    subscriptionsOf (subscribe b endUnix currentGroup groups) userId planId = subscriptionsOf groups userId planId+
      if b.userId = userId ∧ b.plan.id = planId then 1 else 0 := by
  have hcreate (raised : GroupDb) (sub : UserSubscription) : subscriptionsOf (raised.create sub) userId planId =
      subscriptionsOf raised userId planId+if sub.userId = userId ∧ sub.planId = planId then 1 else 0 := by
    have hrows : (raised.create sub).subs.rows = raised.subs.rows ++ [{ sub with id := raised.nextId }] :=
      insert_rows raised.nextId_notMem
    rw [subscriptionsOf, hrows, countP_append, countP_singleton]
    simp only [decide_eq_true_eq]
    rfl
  unfold subscribe
  rw [hcreate]
  cases currentGroup <;> rfl

theorem limit_subscribe {groups : GroupDb} (b : Allowed cfg) (endUnix : Int) (currentGroup : Option String)
    (hcounted : 0 < b.plan.maxPurchasePerUser → subscriptionsOf groups b.userId b.plan.id = b.counted)
    (userId planId : Int) : ∀ plan ∈ cfg.plans.find planId, 0 < plan.maxPurchasePerUser →
      (subscriptionsOf (subscribe b endUnix currentGroup groups) userId planId : Int) ≤
        max (subscriptionsOf groups userId planId : Int) plan.maxPurchasePerUser := by
  intro plan hplan hpos
  rw [subscriptionsOf_subscribe]
  split
  · next hown =>
    obtain ⟨rfl, rfl⟩ := hown
    cases b.plan.offered.symm.trans hplan
    have hwithin := b.within hpos
    have hcount := hcounted hpos
    omega
  · exact le_max_left _ _

theorem calcSubscriptionBalanceQuota_nonneg {price : ℚ} {quota : Int}
    (h : calcSubscriptionBalanceQuota cfg price = .ok quota) : 0 ≤ quota := by
  rw [calcSubscriptionBalanceQuota] at h
  split at h
  · cases h
    exact le_refl 0
  · next hprice =>
    split at h
    · cases h
    · next hunit =>
      cases h
      exact Int.ceil_nonneg (mul_nonneg (not_le.mp hprice).le (not_le.mp hunit).le)

/-- No update is made for a price of zero. -/
theorem quotaOf_charge {plan : OfferedPlan} (p : Price cfg plan) (users : Users) (id userId : Int) :
    quotaOf (if 0 < p.requiredQuota then
      users.modify id (fun u => { u with quota := u.quota-p.requiredQuota }) (fun _ => rfl) else users) userId =
      (quotaOf users userId).map (fun q => q+if id = userId then -p.requiredQuota else 0) := by
  have hnonneg := calcSubscriptionBalanceQuota_nonneg p.price
  by_cases hpos : 0 < p.requiredQuota
  · rw [if_pos hpos, quotaOf, find_modify, quotaOf]
    by_cases he : userId = id
    · simp [he, sub_eq_add_neg, Function.comp_def]
    · simp [he, Ne.symm he, Function.comp_def]
  · have hzero : p.requiredQuota = 0 := by omega
    rw [if_neg hpos, hzero]
    simp

/-- A commit of what was read. -/
theorem write_settled {l : Statement cfg} {r : Answer} {db' : PurchaseDb} (h : write db l = .ok (r, db'))
    (hread : AsRead db l) : Settled cfg db ⟨db', [r]⟩ := by
  cases l with
  | commitExpired now o =>
    cases h
    exact ⟨closed_save (expiredOrder now o.toSubscriptionOrder) rfl (by simp [expiredOrder])
        (of_decide_eq_true hread), fun _ _ => rfl, fun _ _ _ _ _ => le_max_left _ _, fun _ => by simp [Answer.quota],
      fun _ h => h, forall_mem_singleton.mpr trivial⟩
  | commit b endUnix currentGroup =>
    obtain ⟨hpaid, hcounted⟩ := of_decide_eq_true hread
    have hadd := subscriptionsOf_subscribe b endUnix currentGroup db.groups
    have hlimit := limit_subscribe b endUnix currentGroup hcounted
    simp only [write] at h
    split at h
    · next a o hpayer =>
      cases h
      rw [hpayer] at hpaid
      exact ⟨closed_save (completedOrder b.now a o.toSubscriptionOrder) rfl (by simp [completedOrder])
        (of_decide_eq_true hpaid), hadd, hlimit, fun _ => by simp [Answer.quota], fun _ h => h,
        forall_mem_singleton.mpr trivial⟩
    · next p tradeNo hpayer =>
      rw [hpayer] at hpaid
      split at h
      · cases h
      · next hfind =>
        cases h
        have hquota := quotaOf_charge p.toPrice db.users b.userId
        refine ⟨fun t => ?_, hadd, hlimit, fun userId => by simpa [Answer.quota] using hquota userId, ?_,
          forall_mem_singleton.mpr ⟨b.plan.toOfferedPlan, b.plan.offered, p.price⟩⟩
        · rw [isOpen_insert (o := balanceOrder b.toPurchase p.requiredQuota tradeNo) hfind (by simp [balanceOrder])]
          exact Nat.zero_add _
        · intro userId hnonneg q hq
          obtain ⟨old, hold, rfl⟩ := Option.map_eq_some_iff.mp ((hquota userId).symm.trans hq)
          have hold' := hnonneg old hold
          split
          · next he =>
            subst he
            obtain rfl := Option.some.inj ((of_decide_eq_true hpaid).symm.trans hold)
            have henough := p.enough
            omega
          · omega
  | _ => cases h

end Writes

namespace Settled

theorem initial : Settled cfg db ⟨db, []⟩ where
  closed _ := Nat.zero_add _
  subscriptions _ _ := rfl
  limit _ _ _ _ _ := le_max_left _ _
  quota userId := by simp
  nonneg _ h := h
  priced _ h := absurd h not_mem_nil

variable {s : State} (h : Settled cfg db s)

include h

theorem commit {r : Answer} {db' : PurchaseDb} (hc : Settled cfg s.db ⟨db', [r]⟩) :
    Settled cfg db ⟨db', s.log ++ [r]⟩ where
  closed tradeNo := by
    rw [countP_append, Nat.add_assoc, hc.closed tradeNo, h.closed tradeNo]
  subscriptions userId planId := by
    rw [hc.subscriptions, h.subscriptions, map_append, sum_append, Nat.add_assoc]
  limit userId planId plan hplan hpos :=
    (hc.limit userId planId plan hplan hpos).trans (max_le (h.limit userId planId plan hplan hpos) (le_max_right _ _))
  quota userId := by
    rw [hc.quota, h.quota, Option.map_map, map_append, sum_append]
    simp only [Function.comp_def, Int.add_assoc]
  nonneg userId hstart := hc.nonneg userId (h.nonneg userId hstart)
  priced := forall_mem_append.mpr ⟨h.priced, hc.priced⟩

theorem next {l : Statement cfg} (hread : AsRead s.db l) (fault : Option String) :
    Settled cfg db (next l s fault).1 := by
  unfold SubscriptionPurchase.next
  split <;> try exact h
  all_goals
    split
    · exact h
    · next hwrite => exact h.commit (write_settled hwrite hread)

end Settled

/-- When each commit finds what the checks behind it have read, an order is completed or expires at most
once, the subscriptions of a user are within the limits, and the wallet has paid exactly the purchases,
whatever the interleaving. -/
theorem purchases_within_limits (cfg : PurchaseConfig) (db : PurchaseDb)
    (as : List (Action PurchaseCall (Option String) Empty))
    (hok : Along (machine cfg).step (asRead cfg).Ok ⟨⟨db, []⟩, []⟩ as) :
    Settled cfg db (exec (machine cfg).step ⟨⟨db, []⟩, []⟩ as).shared := by
  refine exec_invariant (fun x => Settled cfg db x.shared) ?_ _ as Settled.initial hok
  intro x a hx hread
  cases a with
  | call => exact hx
  | env e => cases e
  | run i fault =>
    unfold Machine.step
    simp only
    split
    · exact hx
    · next l hl => exact hx.next (hread l hl) fault

def samplePlans (limit : Int) : PurchaseConfig where
  plans := empty.insert { id := 1, durationUnit := .custom, customSeconds := 1000, maxPurchasePerUser := limit
                          priceAmount := 2 }
  utcOffset := 0
  quotaPerUnit := 10

def sampleDb : PurchaseDb where
  orders := (empty.insert { tradeNo := "T1", userId := 1, planId := 1 }).insert
    { tradeNo := "T2", userId := 1, planId := 1 }
  users := empty.insert { id := 1, quota := 30 }
  groups := ⟨fun _ => some "default", empty, 1, fresh_nil⟩

def sampleActions (calls : List PurchaseCall) (steps : List ℕ) : List (Action PurchaseCall (Option String) Empty) :=
  calls.map .call ++ steps.map (fun i => .run i none)

def sampleRun (limit : Int) (calls : List PurchaseCall) (steps : List ℕ) : State :=
  (exec (machine (samplePlans limit)).step ⟨⟨sampleDb, []⟩, []⟩ (sampleActions calls steps)).shared

/-- The wallet pays, the completion of an order is refused for the limit, and the order expires. -/
theorem purchases_within_limits_sample :
    let calls : List PurchaseCall := [.purchase 100 1 1 "B1", .complete 200 ⟨"T1", "", "", ""⟩, .expire 300 "T1" ""]
    let steps := [0, 0, 0, 0, 1, 1, 1, 2, 2]
    (sampleRun 1 calls steps).log = [.purchased "B1" 1 1 20, .expired "T1"] ∧
      Settled (samplePlans 1) sampleDb (sampleRun 1 calls steps) := by
  intro calls steps
  exact ⟨by decide +kernel, purchases_within_limits (samplePlans 1) sampleDb _ (by decide +kernel)⟩

/-- An order is completed twice, or is completed and expires; two orders exceed the limit of a plan; two purchases
overdraw the wallet. -/
theorem purchases_beyond_limits :
    (sampleRun 0 [.complete 100 ⟨"T1", "", "", ""⟩, .complete 100 ⟨"T1", "", "", ""⟩] [0, 1, 0, 0, 1, 1]).log =
      [.completed "T1" 1 1, .completed "T1" 1 1] ∧
    (sampleRun 0 [.complete 100 ⟨"T1", "", "", ""⟩, .expire 100 "T1" ""] [0, 1, 0, 0, 1]).log =
      [.completed "T1" 1 1, .expired "T1"] ∧
    subscriptionsOf (sampleRun 1 [.complete 100 ⟨"T1", "", "", ""⟩, .complete 100 ⟨"T2", "", "", ""⟩]
      [0, 0, 0, 1, 1, 1, 0, 1]).db.groups 1 1 = 2 ∧
    quotaOf (sampleRun 0 [.purchase 100 1 1 "B1", .purchase 100 1 1 "B2"] [0, 0, 1, 1, 0, 1]).db.users 1 =
      some (-10) := by
  decide +kernel

end AiGateway.SubscriptionPurchase
