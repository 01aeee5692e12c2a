import AiGateway.AudioQuota
import AiGateway.BillingRun

/-! Realtime sessions: every usage report is charged when it arrives, and the sum of the
reports is settled when the connection ends. -/
namespace AiGateway.Billing
open Subscription GoText Fault Audio Rounding

variable (env : Env)

/-- The funding's part of `PostConsumeQuota`. -/
def postConsumeFunding (info : RelayInfo) (quota : Int) (st : Store) :
    Except String (RelayInfo × Store) :=
  if info.billingSource = some .subscription then
    -- A wallet is written even for a quota of zero, a subscription is not.
    if info.subscriptionId = 0 then .error "subscription id is missing"
    else if quota = 0 then .ok (info, st)
    else do
      let st ← postConsumeDelta env .charge info.subscriptionId quota st
      return ({ info with subscriptionPostDelta := info.subscriptionPostDelta+quota }, st)
  else do
    let st ← adjustUser env .charge info.userId quota st
    return (info, st)

/-- The funding is charged before the token, and stays charged when the token fails. -/
def postConsumeQuota (info : RelayInfo) (quota : Int) (st : Store) :
    Except String Unit × RelayInfo × Store :=
  match postConsumeFunding env info quota st with
  | .error e => (.error e, info, st)
  | .ok (info, st1) =>
    match adjustToken env .charge info quota st1 with
    | .error e => (.error e, info, st1)
    | .ok st2 => (.ok (), info, st2)

inductive Payer
  | session (s : BillingSession)
  | plain (info : RelayInfo)

def Payer.relayInfo : Payer → RelayInfo
  | .session s => s.relayInfo
  | .plain info => info

def Payer.withInfo (info : RelayInfo) : Payer → Payer
  | .session s => .session { s with relayInfo := info }
  | .plain _ => .plain info

def settleBilling (payer : Payer) (actualQuota : Int) (st : Store) :
    Except String Unit × Payer × Store :=
  match payer with
  | .session s =>
    let (r, s, st) := settle env s actualQuota st
    (r, .session s, st)
  -- Without a session the difference is charged directly.
  | .plain info =>
    let quotaDelta := actualQuota-info.finalPreConsumedQuota
    if quotaDelta = 0 then (.ok (), .plain info, st)
    else
      let (r, info, st) := postConsumeQuota env info quotaDelta st
      (r, .plain info, st)

structure PriceData where
  usePrice : Bool
  modelPrice : ℚ
  modelRatio : ℚ
  groupRatio : ℚ

structure WssContext where
  ratios : RatioSetting
  originModelName : String
  upstreamModelName : String
  usingGroup : String
  userGroup : String
  autoGroup : Option String
  usePrice : Bool
  priceData : PriceData
  tokenUnlimited : Bool
  tieredSettle : RealtimeUsage → Option Int

variable (w : WssContext)

def preWssTerms : Terms :=
  let usingGroup := w.autoGroup.getD w.usingGroup
  { modelName := w.originModelName
    modelRatio := w.ratios.modelRatio w.originModelName
    groupRatio := (w.ratios.groupGroupRatio w.userGroup usingGroup).getD (w.ratios.groupRatio usingGroup) }

def preWssConsumeQuota (w : WssContext) (usage : RealtimeUsage) (info : RelayInfo) (st : Store) :
    Except String Unit × RelayInfo × Store :=
  -- A model with a price is paid once, at the end.
  if w.usePrice then (.ok (), info, st)
  else match getUserQuota env info.userId st, getTokenQuota env .charge info.tokenId st with
    | .error e, _ => (.error e, info, st)
    | .ok _, .error e => (.error e, info, st)
    | .ok userQuota, .ok remain =>
      let quota := (preWssTerms w).quota w.ratios usage
      -- The wallet is checked even when a subscription pays.
      if userQuota < quota then
        (.error (notEnough "user" s!"user quota: {env.formatQuota userQuota}" (env.formatQuota quota)), info, st)
      else if !w.tokenUnlimited ∧ remain < quota then
        (.error (tokenNotEnough env remain quota), info, st)
      else postConsumeQuota env info quota st

def postWssQuotaInfo (modelName : String) (usage : RealtimeUsage) : QuotaInfo where
  inputDetails := ⟨usage.inputTextTokens, usage.inputAudioTokens⟩
  outputDetails := ⟨usage.outputTextTokens, usage.outputAudioTokens⟩
  modelName := modelName
  usePrice := w.priceData.usePrice
  modelRatio := w.priceData.modelRatio
  groupRatio := w.priceData.groupRatio

def postWssQuota (modelName : String) (usage : RealtimeUsage) : Int :=
  -- Tiered billing, if the model has it, replaces the ratios.
  let quota := (w.tieredSettle usage).getD (calculateAudioQuota w.ratios (postWssQuotaInfo w modelName usage))
  -- No tokens at all means that the upstream failed.
  if usage.totalTokens = 0 then 0 else quota

def postWssConsumeQuota (w : WssContext) (modelName : String) (usage : RealtimeUsage)
    (payer : Payer) (st : Store) : Except String Unit × Payer × Store :=
  settleBilling env payer (postWssQuota w modelName usage) st

structure WssState where
  payer : Payer
  store : Store
  sumUsage : RealtimeUsage

def WssState.start (payer : Payer) (st : Store) : WssState := ⟨payer, st, 0⟩

structure Report where
  env : Env
  usage : RealtimeUsage

/-- The report counts into the sum whether or not it can be charged. -/
def preConsumeUsage (x : WssState) (r : Report) : Except String Unit × WssState :=
  let (res, info, st) := preWssConsumeQuota r.env w r.usage x.payer.relayInfo x.store
  (res, ⟨x.payer.withInfo info, st, x.sumUsage+r.usage⟩)

/-- `WssHelper` after the connection has ended. -/
def wssFinish (w : WssContext) (x : WssState) : Except String Unit × WssState :=
  let (res, payer, st) := postWssConsumeQuota env w w.upstreamModelName x.sumUsage x.payer x.store
  (res, { x with payer := payer, store := st })

/-- The session is billed by ratio, and the reports and the final settlement use the
same ratios. -/
structure ByRatio (t : Terms) : Prop where
  noPrice : w.usePrice = false
  noFinalPrice : w.priceData.usePrice = false
  noTiers : ∀ usage, w.tieredSettle usage = none
  reports : ∀ usage, (preWssTerms w).quota w.ratios usage = t.quota w.ratios usage
  final : t = ⟨w.upstreamModelName, w.priceData.modelRatio, w.priceData.groupRatio⟩

def reportStep (x : WssState) (r : Report) : WssState := (preConsumeUsage w x r).2

def ReportOk (x : WssState) (r : Report) : Prop := (preConsumeUsage w x r).1 = .ok ()

def reportedQuota (t : Terms) (reports : List Report) : Int :=
  (reports.map (fun r => t.quota w.ratios r.usage)).sum

end AiGateway.Billing
