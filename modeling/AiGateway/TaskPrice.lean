import AiGateway.GoJson
import AiGateway.GoText
import AiGateway.PriceHelper

/-! The price of an asynchronous task: what it takes over from an earlier task, the price of the call, the
ratios of the adaptor, and the settlement by tokens. Prices and ratios are exact. -/
namespace AiGateway.TaskPrice
open Pricing Rounding List

/-- A `map[string]float64`: its entries, in some order. -/
structure RatioMap where
  entries : List (String × ℚ)
  nodup : (entries.map Prod.fst).Nodup

namespace RatioMap

def empty : RatioMap := ⟨[], nodup_nil⟩

def lookup (m : RatioMap) (key : String) : Option ℚ := m.entries.lookup key

def set (m : RatioMap) (key : String) (ratio : ℚ) : RatioMap where
  entries := GoMap.set m.entries key ratio
  nodup := by
    rw [GoMap.set, GoMap.delete, map_cons, nodup_cons]
    refine ⟨?_, ?_⟩
    · intro hkey
      obtain ⟨e, he, hek⟩ := mem_map.mp hkey
      exact of_decide_eq_true (mem_filter.mp he).2 hek
    · exact m.nodup.sublist (filter_sublist.map _)

def addOtherRatio (m : RatioMap) (key : String) (ratio : ℚ) : RatioMap :=
  if ratio ≤ 0 then m else m.set key ratio

def addAll (m : RatioMap) (entries : List (String × ℚ)) : RatioMap :=
  entries.foldl (fun m e => m.addOtherRatio e.1 e.2) m

end RatioMap

/-- The order in which a loop ranges over a map. -/
structure Ranging where
  visit : RatioMap → List (String × ℚ)
  perm : ∀ m, (visit m).Perm m.entries

def Ranging.ratios (order : Ranging) (m : RatioMap) : List ℚ := (order.visit m).map Prod.snd

structure TaskSetting where
  setting : Setting
  -- `GetDefaultModelPriceMap`
  defaultModelPrice : String → Option ℚ
  taskPricePatches : List String

variable (s : TaskSetting)

def TaskSetting.patched (modelName : String) : Bool := modelName ∈ s.taskPricePatches

inductive TaskAction
  | remix
  | other (name : String)
deriving DecidableEq

/-- `TaskBillingContext`. -/
structure BillingContext where
  modelPrice : ℚ
  groupRatio : ℚ
  modelRatio : ℚ
  otherRatios : RatioMap
  originModelName : String
  perCallBilling : Bool

/-- The columns of a task that pricing reads. `data` is the decoded reply of the upstream. -/
structure PricedTask where
  userId : Int
  group : String
  originModelName : String
  upstreamModelName : String
  channelId : Int
  billingContext : Option BillingContext
  quota : Int
  data : Json

/-- `RelayInfo` of a task. `quota` and `otherRatios` are the fields of its `PriceData` that only tasks
use, and `billing` is the quota of its billing session. -/
structure TaskRelay where
  info : RelayInfo
  userId : Int
  upstreamModelName : String
  action : TaskAction
  originTaskId : String
  channelId : Int
  quota : Int
  otherRatios : RatioMap
  billing : Option Int

structure TaskError where
  code : String
  statusCode : Int
deriving DecidableEq

/-! The earlier task. -/

structure Request where
  path : String
  videoId : String

def dataString (data : Json) (key : String) : String :=
  match data with
  | .object fields => ((fields.lookup key).bind Json.string?).getD ""
  | _ => ""

def deriveModelName (origin : PricedTask) : String :=
  if origin.originModelName ≠ "" then origin.originModelName
  else if origin.upstreamModelName ≠ "" then origin.upstreamModelName
  else dataString origin.data "model"

def sizedRatios (m : RatioMap) (seconds : Int) (size : String) : RatioMap :=
  let m := (m.set "seconds" (if seconds ≤ 0 then 4 else seconds : Int)).set "size" 1
  if size = "1792x1024" ∨ size = "1024x1792" then m.set "size" (1666667/1000000) else m

def originRatios (order : Ranging) (m : RatioMap) (origin : PricedTask) : RatioMap :=
  match origin.billingContext with
  | some context => m.addAll (order.visit context.otherRatios)
  -- Nothing is stored with an old task but the reply of the upstream.
  | none => sizedRatios m (GoText.atoi (dataString origin.data "seconds")) (dataString origin.data "size")

def takeOver (order : Ranging) (t : TaskRelay) (origin : PricedTask) : TaskRelay :=
  let name := if t.info.originModelName = "" then deriveModelName origin else t.info.originModelName
  let t := { t with info := { t.info with originModelName := name }, channelId := origin.channelId }
  if t.action = .remix then { t with otherRatios := originRatios order t.otherRatios origin } else t

/-- The price of a model and whether it is fixed; without one, the ratio of the model. -/
def perCallPrice (info : RelayInfo) : Except PriceError (ℚ × ℚ × Bool) :=
  match (s.setting.modelPrice info.originModelName).or (s.defaultModelPrice info.originModelName) with
  | some price => .ok (price, 0, true)
  | none =>
    match s.setting.modelRatio info.originModelName with
    | (modelRatio, success, matchName) =>
      if !success && !info.acceptUnsetRatioModel then .error (.notConfigured matchName) else .ok (-1, modelRatio, false)

def modelPriceHelperPerCall (autoGroup : Option String) (info : RelayInfo) :
    RelayInfo × Except PriceError (PriceData × Int) :=
  let (groupRatioInfo, info) := handleGroupRatio s.setting autoGroup info
  (info, do
    let (modelPrice, modelRatio, usePrice) ← perCallPrice s info
    -- Without a fixed price, half of the ratio is charged in advance.
    let price := if usePrice then modelPrice else modelRatio/2
    let free := !s.setting.enableFreeModelPreConsume && (groupRatioInfo.groupRatio = 0 || price = 0)
    let quota := if free then 0 else intPart (price*s.setting.ratios.quotaPerUnit*groupRatioInfo.groupRatio)
    return ({ freeModel := free, modelPrice := modelPrice, modelRatio := modelRatio, usePrice := usePrice,
              groupRatioInfo := groupRatioInfo }, quota))

/-- The billing hooks of an adaptor. -/
structure TaskAdaptor where
  estimateBilling : TaskRelay → RatioMap
  adjustBillingOnSubmit : TaskRelay → RatioMap

/-- `EstimateBilling` of the Sora adaptor, for the seconds, the duration and the size of the request. -/
def soraEstimateBilling (req : Option (String × Int × String)) (t : TaskRelay) : RatioMap :=
  match t.action, req with
  | .remix, _ | .other _, none => .empty
  | .other _, some (secondsText, duration, size) =>
    let seconds := GoText.atoi secondsText
    let seconds := if seconds = 0 then duration else seconds
    sizedRatios .empty seconds size

def applyOtherRatios (ratios : List ℚ) (quota : Int) : Int :=
  ratios.foldl (fun quota ra => if ra ≠ 1 then intPart (quota*ra) else quota) quota

def recalcQuotaFromRatios (quota : Int) (otherRatios ratios : List ℚ) : Int :=
  let baseQuota := otherRatios.foldl (fun quota ra => if ra ≠ 1 ∧ 0 < ra then intPart (quota/ra) else quota) quota
  intPart (ratios.foldl (fun (result : ℚ) ra => if ra ≠ 1 then result*ra else result) baseQuota)

/-- What else happens in a call of `RelayTaskSubmit`: the errors, the value of `auto_group`, the text of
`CoverTaskActionToModelName`, and the order of each loop over a map. -/
structure Submission where
  adaptor : TaskAdaptor
  early : Option TaskError
  autoGroup : Option String
  coverName : String
  preConsume : Int → Option TaskError
  late : Option TaskError
  estimated : Ranging
  applied : Ranging
  undone : Ranging
  adjusted : Ranging

variable (sub : Submission)

def Submission.modelName (t : TaskRelay) : String :=
  if t.info.originModelName = "" then sub.coverName else t.info.originModelName

def reprice (t : TaskRelay) : TaskRelay × Option PriceError :=
  match modelPriceHelperPerCall s sub.autoGroup { t.info with originModelName := sub.modelName t } with
  | (info, .error e) => ({ t with info := info }, some e)
  | (info, .ok (priceData, quota)) =>
    ({ t with info := { info with priceData := priceData }, quota := quota, otherRatios := .empty }, none)

def estimate (t : TaskRelay) : TaskRelay :=
  { t with otherRatios := t.otherRatios.addAll (sub.estimated.visit (sub.adaptor.estimateBilling t)) }

def multiply (t : TaskRelay) : TaskRelay :=
  if s.patched t.info.originModelName then t
  else { t with quota := applyOtherRatios (sub.applied.ratios t.otherRatios) t.quota }

def preCharge (t : TaskRelay) : Except TaskError TaskRelay :=
  if t.billing.isSome || t.info.priceData.freeModel then .ok t
  else
    match sub.preConsume t.quota with
    | some e => .error e
    | none => .ok { t with billing := some t.quota }

def adjust (t : TaskRelay) : TaskRelay :=
  let adjustedRatios := sub.adaptor.adjustBillingOnSubmit t
  if adjustedRatios.entries.isEmpty then t
  else { t with
    quota := recalcQuotaFromRatios t.quota (sub.undone.ratios t.otherRatios) (sub.adjusted.ratios adjustedRatios)
    otherRatios := adjustedRatios }

/-- One attempt. The quota of the result is that of the price data in the end. -/
def relayTaskSubmit (t : TaskRelay) : TaskRelay × Option TaskError :=
  match sub.early with
  | some e => (t, some e)
  | none =>
    match reprice s sub t with
    | (t, some _) => (t, some ⟨"model_price_error", 400⟩)
    | (t, none) =>
      match preCharge sub (multiply s sub (estimate sub t)) with
      | .error e => (t, some e)
      | .ok t =>
        match sub.late with
        | some e => (t, some e)
        | none => (adjust sub t, none)

/-- The task that `RelayTask` stores after a submission. `data` is the reply of the upstream. -/
def storeTask (t : TaskRelay) (data : Json) : PricedTask where
  userId := t.userId
  group := t.info.usingGroup
  originModelName := t.info.originModelName
  upstreamModelName := t.upstreamModelName
  channelId := t.channelId
  billingContext := some {
    modelPrice := t.info.priceData.modelPrice
    groupRatio := t.info.priceData.groupRatioInfo.groupRatio
    modelRatio := t.info.priceData.modelRatio
    otherRatios := t.otherRatios
    originModelName := t.info.originModelName
    perCallBilling := s.patched t.info.originModelName || t.info.priceData.usePrice }
  quota := t.quota
  data := data

/-! The settlement by tokens. -/

def taskModelName (task : PricedTask) : String :=
  match task.billingContext with
  | some context => if context.originModelName ≠ "" then context.originModelName else task.originModelName
  | none => task.originModelName

/-- The terms of a settlement by tokens, with the ratios that are multiplied. -/
structure TokenTerms where
  modelRatio : ℚ
  groupRatio : ℚ
  otherRatios : List (String × ℚ)
deriving DecidableEq

def TokenTerms.quota (terms : TokenTerms) (totalTokens : Int) : Int :=
  intPart (totalTokens*terms.modelRatio*terms.groupRatio*(terms.otherRatios.map Prod.snd).prod)

/-- The group of the settlement: that of the task, or else the one the user has by then. -/
def settlementGroup (userGroup : Option String) (task : PricedTask) : String :=
  if task.group = "" then userGroup.getD "" else task.group

/-- `RecalculateTaskQuotaByTokens` up to the quota it goes on with. `userGroup` is what the row of the
user says. -/
def recalculateTaskQuotaByTokens (order : Ranging) (userGroup : Option String) (task : PricedTask)
    (totalTokens : Int) : Option TokenTerms :=
  if totalTokens ≤ 0 then none
  else
    match s.setting.modelRatio (taskModelName task) with
    | (modelRatio, hasRatioSetting, _) =>
      if !hasRatioSetting || modelRatio ≤ 0 then none
      else
        let group := settlementGroup userGroup task
        if group = "" then none
        else
          let finalGroupRatio :=
            match s.setting.ratios.groupGroupRatio group group with
            | some userGroupRatio => userGroupRatio
            | none => s.setting.ratios.groupRatio group
          let otherRatios :=
            match task.billingContext with
            | none => []
            | some context => (order.visit context.otherRatios).filter (fun e => e.2 ≠ 1 ∧ 0 < e.2)
          some ⟨modelRatio, finalGroupRatio, otherRatios⟩

end AiGateway.TaskPrice
