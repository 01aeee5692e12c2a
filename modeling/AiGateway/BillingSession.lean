import AiGateway.SubscriptionStore
import Mathlib.Logic.Function.Basic

/-! The billing session of one request: pre-consume, reserve, settle and refund over
a wallet or a subscription and the request's token. -/
namespace AiGateway.Billing
open Subscription GoText Fault

structure Store where
  userQuota : Int → Int
  tokenQuota : Int → Int
  sub : SubDb

def Store.addUser (st : Store) (id delta : Int) : Store :=
  { st with userQuota := Function.update st.userQuota id (st.userQuota id+delta) }

def Store.addToken (st : Store) (id delta : Int) : Store :=
  { st with tokenQuota := Function.update st.tokenQuota id (st.tokenQuota id+delta) }

inductive BillingSource
  | wallet | subscription
deriving DecidableEq

inductive ErrorCode
  | queryDataError | insufficientUserQuota | preConsumeTokenQuotaFailed | updateDataError
deriving DecidableEq

structure ApiError where
  code : ErrorCode
  message : String
deriving DecidableEq

inductive Site
  | opening (src : BillingSource) | rollbackOpening (src : BillingSource)
  | reserve | rollbackReserve | settle | refund (attempt : ℕ) | refundExtra | charge
deriving DecidableEq

inductive Step
  | readUserQuota | countActive | countStrict
  | user (site : Site) | findToken (site : Site) | token (site : Site)
  | sub (site : Site) (stmt : Stmt)
deriving DecidableEq

/-- What a call sees beside the balances: failing steps, what the Redis cache answers,
the request context, the clocks of the database and of the process, and settings. -/
structure Env where
  fails : Step → Option String
  cachedUserQuota : Option Int
  cachedTokenQuota : Option Int
  contextTokenQuota : Int
  trustQuota : Int
  now : Int
  clock : Int
  cfg : Config
  formatQuota : Int → String

structure RelayInfo where
  userId : Int
  tokenId : Int
  requestId : String
  tokenUnlimited : Bool := false
  isPlayground : Bool := false
  forcePreConsume : Bool := false
  billingPreference : String := ""
  userQuota : Int := 0
  finalPreConsumedQuota : Int := 0
  billingSource : Option BillingSource := none
  subscriptionId : Int := 0
  subscriptionPreConsumed : Int := 0
  subscriptionPostDelta : Int := 0
  subscriptionAmountTotal : Int := 0
  subscriptionAmountUsedAfterPreConsume : Int := 0
deriving DecidableEq

structure WalletFunding where
  userId : Int
  consumed : Int := 0
deriving DecidableEq

structure SubscriptionFunding where
  requestId : String
  userId : Int
  amount : Int
  subscriptionId : Int := 0
  preConsumed : Int := 0
  amountTotal : Int := 0
  amountUsedAfter : Int := 0
deriving DecidableEq

inductive FundingSource
  | wallet (w : WalletFunding)
  | subscription (s : SubscriptionFunding)
deriving DecidableEq

def FundingSource.source : FundingSource → BillingSource
  | .wallet _ => .wallet
  | .subscription _ => .subscription

structure BillingSession where
  relayInfo : RelayInfo
  funding : FundingSource
  preConsumedQuota : Int := 0
  tokenConsumed : Int := 0
  extraReserved : Int := 0
  trusted : Bool := false
  fundingSettled : Bool := false
  settled : Bool := false
  refunded : Bool := false
deriving DecidableEq

variable (env : Env)

/-- The writes of a quota refuse a negative amount. -/
def changeQuota (step : Step) (quota : Int) (changed : Store) : Except String Store :=
  if quota < 0 then .error "quota 不能为负数！"
  else do
    attempt env.fails step
    return changed

def increaseUserQuota (site : Site) (id quota : Int) (st : Store) : Except String Store :=
  changeQuota env (.user site) quota (st.addUser id quota)

def decreaseUserQuota (site : Site) (id quota : Int) (st : Store) : Except String Store :=
  changeQuota env (.user site) quota (st.addUser id (-quota))

def increaseTokenQuota (site : Site) (id quota : Int) (st : Store) : Except String Store :=
  changeQuota env (.token site) quota (st.addToken id quota)

def decreaseTokenQuota (site : Site) (id quota : Int) (st : Store) : Except String Store :=
  changeQuota env (.token site) quota (st.addToken id (-quota))

def adjustUser (site : Site) (id delta : Int) (st : Store) : Except String Store :=
  if 0 < delta then decreaseUserQuota env site id delta st
  else increaseUserQuota env site id (-delta) st

def getUserQuota (id : Int) (st : Store) : Except String Int :=
  -- The cache is asked first and may be behind the row.
  match env.cachedUserQuota with
  | some quota => .ok quota
  | none => do
    attempt env.fails .readUserQuota
    return st.userQuota id

/-- The remaining quota that `GetTokenByKey` reports for the request's token. -/
def getTokenQuota (site : Site) (id : Int) (st : Store) : Except String Int :=
  match env.cachedTokenQuota with
  | some quota => .ok quota
  | none => do
    attempt env.fails (.findToken site)
    return st.tokenQuota id

def notEnough (what left need : String) : String := s!"{what} quota is not enough, {left}, need quota: {need}"

def tokenNotEnough (remain quota : Int) : String :=
  notEnough "token" s!"token remain quota: {env.formatQuota remain}" (env.formatQuota quota)

def preConsumeTokenQuota (site : Site) (info : RelayInfo) (quota : Int) (st : Store) :
    Except String Store :=
  if quota < 0 then .error "quota 不能为负数！"
  -- A playground request has no token.
  else if info.isPlayground then .ok st
  else do
    let remain ← getTokenQuota env site info.tokenId st
    if !info.tokenUnlimited ∧ remain < quota then .error (tokenNotEnough env remain quota)
    else decreaseTokenQuota env site info.tokenId quota st

/-- `PostConsumeUserSubscriptionDelta` as a step on the whole store. -/
def postConsumeDelta (site : Site) (id delta : Int) (st : Store) : Except String Store := do
  let db ← postConsumeUserSubscriptionDelta (fun s => env.fails (.sub site s)) id delta st.sub
  return { st with sub := db }

def FundingSource.preConsume (amount : Int) (st : Store) :
    FundingSource → Except String (FundingSource × Store)
  | .wallet w =>
    if amount ≤ 0 then .ok (.wallet w, st)
    else do
      let st ← decreaseUserQuota env (.opening .wallet) w.userId amount st
      return (.wallet { w with consumed := amount }, st)
  | .subscription s => do
    -- The argument is ignored: the amount was fixed when the funding was built.
    let (res, db) ← preConsumeUserSubscription env.cfg
      (fun t => env.fails (.sub (.opening .subscription) t)) s.requestId s.userId s.amount env.now st.sub
    return (.subscription { s with
      subscriptionId := res.userSubscriptionId
      preConsumed := res.preConsumed
      amountTotal := res.amountTotal
      amountUsedAfter := res.amountUsedAfter }, { st with sub := db })

def FundingSource.settle (delta : Int) (st : Store) : FundingSource → Except String Store
  | .wallet w =>
    if delta = 0 then .ok st else adjustUser env .settle w.userId delta st
  | .subscription s =>
    if delta = 0 then .ok st else postConsumeDelta env .settle s.subscriptionId delta st

/-- Errors of a refund are only logged. -/
def FundingSource.refund (st : Store) : FundingSource → Store
  | .wallet w =>
    if w.consumed ≤ 0 then st
    else match increaseUserQuota env (.refund 0) w.userId w.consumed st with
      | .ok st => st
      | .error _ => st
  | .subscription s =>
    if s.preConsumed ≤ 0 then st
    else { st with sub := (refundWithRetry (fun i =>
      refundSubscriptionPreConsume (fun t => env.fails (.sub (.refund i) t)) s.requestId) st.sub).2 }

variable (s : BillingSession)

def shouldTrust : Bool :=
  -- Asynchronous tasks always pre-consume.
  if s.relayInfo.forcePreConsume then false
  else if env.trustQuota ≤ 0 then false
  else if !s.relayInfo.tokenUnlimited ∧ env.contextTokenQuota ≤ env.trustQuota then false
  else match s.funding.source with
    | .wallet => decide (env.trustQuota < s.relayInfo.userQuota)
    -- A subscription needs a record of its pre-consume, so it cannot go without.
    | .subscription => false

def syncRelayInfo : BillingSession :=
  let info := { s.relayInfo with
    finalPreConsumedQuota := s.preConsumedQuota, billingSource := some s.funding.source }
  match s.funding with
  | .subscription f => { s with relayInfo := { info with
      subscriptionId := f.subscriptionId
      -- What was reserved later counts into both amounts.
      subscriptionPreConsumed := f.preConsumed+s.extraReserved
      subscriptionPostDelta := 0
      subscriptionAmountTotal := f.amountTotal
      subscriptionAmountUsedAfterPreConsume := f.amountUsedAfter+s.extraReserved } }
  | .wallet _ => { s with relayInfo := { info with subscriptionId := 0, subscriptionPreConsumed := 0 } }

/-- The error of a failed funding step; the text decides whether the caller may fall back. -/
def fundingError (message : String) : ApiError :=
  if contains message "no active subscription" || contains message "subscription quota insufficient" then
    ⟨.insufficientUserQuota, s!"订阅额度不足或未配置订阅: {message}"⟩
  else ⟨.updateDataError, message⟩

/-- Give the token back what the failed attempt took; a failure here is only logged. -/
def rollbackToken (src : BillingSource) (info : RelayInfo) (tokenConsumed : Int) (st : Store) :
    Store :=
  if 0 < tokenConsumed ∧ !info.isPlayground then
    match increaseTokenQuota env (.rollbackOpening src) info.tokenId tokenConsumed st with
    | .ok st => st
    | .error _ => st
  else st

def preConsume (env : Env) (s : BillingSession) (quota : Int) (st : Store) :
    Except ApiError BillingSession × Store :=
  let trusted := shouldTrust env s
  -- A trusted session takes nothing in advance.
  let effectiveQuota := if trusted then 0 else quota
  let charge := if 0 < effectiveQuota then
      preConsumeTokenQuota env (.opening s.funding.source) s.relayInfo effectiveQuota st
    else .ok st
  match charge with
  | .error e => (.error ⟨.preConsumeTokenQuotaFailed, e⟩, st)
  | .ok st1 =>
    let tokenConsumed := if 0 < effectiveQuota then effectiveQuota else 0
    -- The token is charged by now and is given back when the funding refuses.
    match s.funding.preConsume env effectiveQuota st1 with
    | .error e =>
      (.error (fundingError e), rollbackToken env s.funding.source s.relayInfo tokenConsumed st1)
    | .ok (funding, st2) =>
      (.ok (syncRelayInfo { s with
        trusted := trusted, tokenConsumed := tokenConsumed
        funding := funding, preConsumedQuota := effectiveQuota }), st2)

def tryWallet (info : RelayInfo) (quota : Int) (st : Store) :
    Except ApiError BillingSession × Store :=
  match getUserQuota env info.userId st with
  | .error e => (.error ⟨.queryDataError, e⟩, st)
  | .ok userQuota =>
    if userQuota ≤ 0 then
      (.error ⟨.insufficientUserQuota, s!"用户额度不足, 剩余额度: {env.formatQuota userQuota}"⟩, st)
    -- The check reads the quota the wallet had, the update below does not look at it again.
    else if userQuota-quota < 0 then
      (.error ⟨.insufficientUserQuota,
        s!"预扣费额度失败, 用户剩余额度: {env.formatQuota userQuota}, 需要预扣费额度: {env.formatQuota quota}"⟩,
          st)
    else preConsume env { relayInfo := { info with userQuota := userQuota }
                          funding := .wallet { userId := info.userId } } quota st

def trySubscription (info : RelayInfo) (quota : Int) (st : Store) :
    Except ApiError BillingSession × Store :=
  -- A free request pre-consumes one, to have a record.
  let subConsume := if quota ≤ 0 then 1 else quota
  preConsume env { relayInfo := info
                   funding := .subscription
                     { requestId := info.requestId, userId := info.userId, amount := subConsume } }
    subConsume st

inductive BillingPreference
  | subscriptionOnly | walletOnly | walletFirst | subscriptionFirst
deriving DecidableEq

def normalizeBillingPreference (pref : String) : BillingPreference :=
  if trimSpace pref = "subscription_only" then .subscriptionOnly
  else if trimSpace pref = "wallet_only" then .walletOnly
  else if trimSpace pref = "wallet_first" then .walletFirst
  else .subscriptionFirst

def newBillingSession (info : RelayInfo) (quota : Int) (st : Store) :
    Except ApiError BillingSession × Store :=
  match normalizeBillingPreference info.billingPreference with
  | .subscriptionOnly => trySubscription env info quota st
  | .walletOnly => tryWallet env info quota st
  | .walletFirst =>
    match tryWallet env info quota st with
    | (.ok s, st) => (.ok s, st)
    | (.error e, st) =>
      -- Only a lack of quota moves on to the other source.
      if e.code = .insufficientUserQuota then trySubscription env info quota st else (.error e, st)
  | .subscriptionFirst =>
    match (do
        let hasSub ← hasActiveUserSubscription st.sub info.userId env.clock
        attempt env.fails .countActive
        return hasSub) with
    | .error e => (.error ⟨.queryDataError, e⟩, st)
    | .ok false => tryWallet env info quota st
    | .ok true =>
      match trySubscription env info quota st with
      | (.ok s, st) => (.ok s, st)
      | (.error e, st) =>
        -- A plan may forbid to go on with the wallet when the subscription is used up.
        if e.code ≠ .insufficientUserQuota then (.error e, st)
        else match (do
            let allow ← userActiveSubscriptionsAllowWalletOverflow st.sub info.userId env.clock
            attempt env.fails .countStrict
            return allow) with
          | .error e => (.error ⟨.queryDataError, e⟩, st)
          | .ok true => tryWallet env info quota st
          | .ok false => (.error e, st)

def reserveFunding (delta : Int) (st : Store) :
    Except ApiError (FundingSource × Store) :=
  match s.funding with
  | .wallet w =>
    match decreaseUserQuota env .reserve w.userId delta st with
    | .error e => .error ⟨.updateDataError, e⟩
    | .ok st => .ok (.wallet { w with consumed := w.consumed+delta }, st)
  | .subscription f =>
    match postConsumeDelta env .reserve f.subscriptionId delta st with
    | .error e => .error ⟨.insufficientUserQuota, s!"订阅额度不足或未配置订阅: {e}"⟩
    | .ok st => .ok (.subscription f, st)

variable (funding : FundingSource)

def rollbackFundingReserve (delta : Int) (st : Store) :
    FundingSource × Store :=
  match funding with
  | .wallet w =>
    match increaseUserQuota env .rollbackReserve w.userId delta st with
    -- Without the update the funding goes on counting the delta as consumed.
    | .error _ => (.wallet w, st)
    | .ok st => (.wallet { w with consumed := w.consumed-delta }, st)
  | .subscription f =>
    match postConsumeDelta env .rollbackReserve f.subscriptionId (-delta) st with
    | .error _ => (.subscription f, st)
    | .ok st => (.subscription f, st)

def reserveToken (info : RelayInfo) (delta : Int) (st : Store) : Except ApiError Store :=
  if delta ≤ 0 ∨ info.isPlayground then .ok st
  else match preConsumeTokenQuota env .reserve info delta st with
    | .error e => .error ⟨.preConsumeTokenQuotaFailed, e⟩
    | .ok st => .ok st

def reserve (env : Env) (s : BillingSession) (targetQuota : Int) (st : Store) :
    Except ApiError Unit × BillingSession × Store :=
  -- A session that has ended, or never pre-consumes, has nothing to reserve.
  if s.settled ∨ s.refunded ∨ s.trusted ∨ targetQuota ≤ s.preConsumedQuota then (.ok (), s, st)
  else
    let delta := targetQuota-s.preConsumedQuota
    match reserveFunding env s delta st with
    | .error e => (.error e, s, st)
    | .ok (funding, st1) =>
      match reserveToken env s.relayInfo delta st1 with
      | .error e =>
        let (funding, st2) := rollbackFundingReserve env funding delta st1
        (.error e, { s with funding := funding }, st2)
      | .ok st2 =>
        (.ok (), syncRelayInfo { s with
          funding := funding
          preConsumedQuota := s.preConsumedQuota+delta
          tokenConsumed := s.tokenConsumed+delta
          extraReserved := s.extraReserved+delta }, st2)

def adjustToken (site : Site) (info : RelayInfo) (delta : Int) (st : Store) : Except String Store :=
  if info.isPlayground then .ok st
  else if 0 < delta then decreaseTokenQuota env site info.tokenId delta st
  else increaseTokenQuota env site info.tokenId (-delta) st

def addPostDelta (delta : Int) (info : RelayInfo) : RelayInfo :=
  match funding with
  | .subscription _ => { info with subscriptionPostDelta := info.subscriptionPostDelta+delta }
  | .wallet _ => info

def settle (env : Env) (s : BillingSession) (actualQuota : Int) (st : Store) :
    Except String Unit × BillingSession × Store :=
  if s.settled then (.ok (), s, st)
  else
    let delta := actualQuota-s.preConsumedQuota
    if delta = 0 then (.ok (), { s with settled := true }, st)
    -- The funding is settled once even if the call is repeated.
    else match (if s.fundingSettled then .ok st else s.funding.settle env delta st) with
      | .error e => (.error e, s, st)
      | .ok st1 =>
        let s := { s with
          fundingSettled := true, settled := true
          relayInfo := addPostDelta s.funding delta s.relayInfo }
        -- The funding is committed, so a token error is reported but settles all the same.
        match adjustToken env .settle s.relayInfo delta st1 with
        | .error e => (.error e, s, st1)
        | .ok st2 => (.ok (), s, st2)

def needsRefund : Bool :=
  if s.settled ∨ s.refunded ∨ s.fundingSettled then false
  else if 0 < s.tokenConsumed then true
  -- A subscription can have pre-consumed although the token was not charged.
  else match s.funding with
    | .subscription f => decide (0 < f.preConsumed)
    | .wallet _ => false

structure RefundJob where
  tokenId : Int
  isPlayground : Bool
  tokenConsumed : Int
  extraReserved : Int
  subscriptionId : Int
deriving DecidableEq

def refund : BillingSession × Option RefundJob :=
  if s.settled ∨ s.refunded ∨ !needsRefund s then (s, none)
  else ({ s with refunded := true },
    some ⟨s.relayInfo.tokenId, s.relayInfo.isPlayground, s.tokenConsumed, s.extraReserved,
      s.relayInfo.subscriptionId⟩)

def refundExtra (job : RefundJob) (st : Store) : Store :=
  if 0 < job.extraReserved ∧ funding.source = .subscription ∧ 0 < job.subscriptionId then
    match postConsumeDelta env .refundExtra job.subscriptionId (-job.extraReserved) st with
    | .ok st => st
    | .error _ => st
  else st

def refundToken (job : RefundJob) (st : Store) : Store :=
  if 0 < job.tokenConsumed ∧ !job.isPlayground then
    match increaseTokenQuota env (.refund 0) job.tokenId job.tokenConsumed st with
    | .ok st => st
    | .error _ => st
  else st

def runRefund (job : RefundJob) (st : Store) : Store :=
  -- Each part goes on when the one before it has failed.
  let st := funding.refund env st
  let st := refundExtra env funding job st
  refundToken env job st

def failAt (step : Step) : Step → Option String :=
  fun s => if s = step then some "connection refused" else none

def sampleStore : Store where
  userQuota := fun _ => 1000
  tokenQuota := fun _ => 1000
  sub :=
    { subs := ⟨[{ id := 1, userId := 1, planId := 1, amountTotal := 100, endTime := 5000 }], by decide⟩
      records := Table.empty }

def sampleEnv : Env where
  fails := never
  cachedUserQuota := none
  cachedTokenQuota := none
  contextTokenQuota := 0
  trustQuota := 5000000
  now := 1000
  clock := 1000
  cfg := { plans := fun id => if id = 1 then some { id := 1 } else none, utcOffset := 0 }
  formatQuota := fun q => toString q

def sampleInfo : RelayInfo := { userId := 1, tokenId := 1, requestId := "req-1" }

def sampleFunding : SubscriptionFunding := { requestId := "req-1", userId := 1, amount := 10 }

end AiGateway.Billing
