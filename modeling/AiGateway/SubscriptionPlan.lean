import AiGateway.Table

/-! Subscription plans, the rows of `user_subscriptions`, and the periodic quota
reset. Times are Unix seconds; the local zone is a fixed offset from UTC. -/
namespace AiGateway.Subscription

inductive ResetPeriod
  | never | daily | weekly | monthly | custom
deriving DecidableEq

inductive DurationUnit
  | year | month | day | hour | custom
deriving DecidableEq

inductive SubscriptionStatus
  | active | expired | cancelled
deriving DecidableEq

structure SubscriptionPlan where
  id : Int
  title : String := ""
  durationUnit : DurationUnit := .month
  durationValue : Int := 1
  customSeconds : Int := 0
  allowWalletOverflow : Option Bool := none
  maxPurchasePerUser : Int := 0
  upgradeGroup : String := ""
  downgradeGroup : String := ""
  totalAmount : Int := 0
  quotaResetPeriod : ResetPeriod := .never
  quotaResetCustomSeconds : Int := 0
deriving DecidableEq

structure UserSubscription where
  id : Int
  userId : Int
  planId : Int
  amountTotal : Int := 0
  amountUsed : Int := 0
  startTime : Int := 0
  endTime : Int := 0
  status : SubscriptionStatus := .active
  lastResetTime : Int := 0
  nextResetTime : Int := 0
  upgradeGroup : String := ""
  prevUserGroup : String := ""
  downgradeGroup : String := ""
  allowWalletOverflow : Bool := true
deriving DecidableEq

/-- Days since 1970-01-01 of the first of a month; months outside 1..12 roll into
the neighbouring years, as `time.Date` rolls them. -/
def daysOfMonth (year month : Int) : Int :=
  let y := year+(month-1)/12
  let m := (month-1)%12+1
  let y' := if m ≤ 2 then y-1 else y
  let era := y'/400
  let yoe := y'-era*400
  let doy := (153*(if m > 2 then m-3 else m+9)+2)/5
  era*146097+(yoe*365+yoe/4-yoe/100+doy)-719468

def civilOfDays (days : Int) : Int × Int × Int :=
  let z := days+719468
  let era := z/146097
  let doe := z-era*146097
  let yoe := (doe-doe/1460+doe/36524-doe/146096)/365
  let doy := doe-(365*yoe+yoe/4-yoe/100)
  let mp := (5*doy+2)/153
  let m := if mp < 10 then mp+3 else mp-9
  (yoe+era*400+(if m ≤ 2 then 1 else 0), m, doy-(153*mp+2)/5+1)

/-- `time.Duration(secs) * time.Second` in whole seconds; the product wraps at 64 bits. -/
def durationSeconds (secs : Int) : Int :=
  (Int.bmod (secs*1000000000) (2^64))/1000000000

def calcPlanEndTime (off start : Int) (plan : SubscriptionPlan) : Except String Int :=
  let day := (start+off)/86400
  let (y, m, d) := civilOfDays day
  let secs := (start+off)%86400
  if plan.durationValue ≤ 0 ∧ plan.durationUnit ≠ .custom then .error "duration_value must be > 0"
  else match plan.durationUnit with
    | .year => .ok ((daysOfMonth (y+plan.durationValue) m+(d-1))*86400+secs-off)
    | .month => .ok ((daysOfMonth y (m+plan.durationValue)+(d-1))*86400+secs-off)
    | .day => .ok (start+durationSeconds (plan.durationValue*86400))
    | .hour => .ok (start+durationSeconds (plan.durationValue*3600))
    | .custom =>
      if plan.customSeconds ≤ 0 then .error "custom_seconds must be > 0"
      else .ok (start+durationSeconds plan.customSeconds)

def calcNextResetTime (off base : Int) (plan : SubscriptionPlan) (endUnix : Int) : Int :=
  let day := (base+off)/86400
  -- Sunday is 0 and becomes 7, so that the next Monday is `8 - weekday` days away.
  let weekday := if (day+4)%7 = 0 then 7 else (day+4)%7
  let (y, m, _) := civilOfDays day
  let next := match plan.quotaResetPeriod with
    | .never => 0
    | .daily => (day+1)*86400-off
    | .weekly => (day+(8-weekday))*86400-off
    | .monthly => daysOfMonth y (m+1)*86400-off
    | .custom =>
      if plan.quotaResetCustomSeconds ≤ 0 then 0
      else base+durationSeconds plan.quotaResetCustomSeconds
  if plan.quotaResetPeriod = .never ∨ (plan.quotaResetPeriod = .custom ∧ plan.quotaResetCustomSeconds ≤ 0) then 0
  else if 0 < endUnix ∧ endUnix < next then 0
  else next

/-- The catch-up loop over due resets: whether it advanced, the last reset point and
the next one. A schedule that stands still would spin forever and yields `none`. -/
def advanceReset (off : Int) (plan : SubscriptionPlan) (endTime now : Int) :
    ℕ → Bool → Int → Int → Option (Bool × Int × Int)
  | 0, _, _, _ => none
  | fuel+1, advanced, base, next =>
    if 0 < next ∧ next ≤ now then
      advanceReset off plan endTime now fuel true next (calcNextResetTime off next plan endTime)
    else some (advanced, base, next)

inductive ResetStep
  | keep
  | clock (last next : Int)
  | zero (last next : Int)
  | hang
deriving DecidableEq

def resetStep (off : Int) (plan : SubscriptionPlan) (sub : UserSubscription) (now : Int) : ResetStep :=
  if 0 < sub.nextResetTime ∧ now < sub.nextResetTime then .keep
  else if plan.quotaResetPeriod = .never then .keep
  else
    let base := if sub.lastResetTime ≤ 0 then sub.startTime else sub.lastResetTime
    match advanceReset off plan sub.endTime now (now.toNat+base.toNat+2) false base
        (calcNextResetTime off base plan sub.endTime) with
    | none => .hang
    | some (false, last, next) =>
      if sub.nextResetTime = 0 ∧ 0 < next then .clock last next else .keep
    | some (true, last, next) => .zero last next

/-- The row after `maybeResetUserSubscriptionWithPlanTx`. -/
def ResetStep.apply (sub : UserSubscription) : ResetStep → UserSubscription
  | .keep => sub
  | .clock last next => { sub with nextResetTime := next, lastResetTime := last }
  | .zero last next => { sub with amountUsed := 0, lastResetTime := last, nextResetTime := next }
  | .hang => sub

variable (sub : UserSubscription)

@[simp] theorem ResetStep.apply_id (r : ResetStep) : (r.apply sub).id = sub.id := by
  cases r <;> rfl

@[simp] theorem ResetStep.apply_amountTotal (r : ResetStep) :
    (r.apply sub).amountTotal = sub.amountTotal := by
  cases r <;> rfl

theorem ResetStep.apply_amountUsed (r : ResetStep) :
    (r.apply sub).amountUsed = sub.amountUsed ∨ (∃ last next, r = .zero last next) ∧
    (r.apply sub).amountUsed = 0 := by
  cases r with
  | zero last next => exact .inr ⟨⟨last, next, rfl⟩, rfl⟩
  | keep | clock | hang => exact .inl rfl

end AiGateway.Subscription
