import AiGateway.PriceHelper

/-! The final charge of a request: by ratio, by price or by billing expression, for text, audio
and realtime usage. Decimals are exact. -/
namespace AiGateway.Pricing
open Rounding Audio

structure Usage where
  promptTokens : Int
  completionTokens : Int
  totalTokens : Int
  cachedTokens : Int := 0
  cachedCreationTokens : Int := 0
  textTokens : Int := 0
  imageTokens : Int := 0
  audioTokens : Int := 0
  completionTextTokens : Int := 0
  completionImageTokens : Int := 0
  completionAudioTokens : Int := 0
  claudeCacheCreation5mTokens : Int := 0
  claudeCacheCreation1hTokens : Int := 0
  usageSemantic : String := ""
  usageSource : String := ""
  cost : ℚ := 0

structure ToolUse where
  -- `ResponsesUsageInfo`: the calls of `web_search_preview` and of `file_search`
  responses : Option (Int × Int) := none
  claudeWebSearchRequests : Int := 0
  -- Quality and size of an image generation call
  imageGenerationCall : Option (String × String) := none

structure ToolSetting where
  toolPrice : String → ℚ
  toolPriceForModel : String → String → ℚ
  gptImage1PriceOnceCall : String → String → ℚ
  geminiInputAudioPrice : String → ℚ
  defaultModelRatio : String → Option ℚ
  -- `UsedVars`
  usedVars : String → String → Bool

structure Served where
  estimatePromptTokens : Int
  -- `GetFinalRequestRelayFormat() == RelayFormatClaude`
  finalFormatClaude : Bool
  -- `ChannelType == ChannelTypeOpenRouter`
  openRouter : Bool
  tools : ToolUse

def usageSemanticFromUsage (sv : Served) (usage : Option Usage) : String :=
  match usage with
  | some u => if u.usageSemantic ≠ "" then u.usageSemantic else if sv.finalFormatClaude then "anthropic" else "openai"
  | none => if sv.finalFormatClaude then "anthropic" else "openai"

def isLegacyClaudeDerivedOpenAIUsage (sv : Served) (u : Usage) : Bool :=
  !sv.finalFormatClaude && u.usageSource = "" && u.usageSemantic = "" &&
    (0 < u.claudeCacheCreation5mTokens || 0 < u.claudeCacheCreation1hTokens)

/-- `calculateTextToolCallSurcharge`. -/
def toolCallSurcharge (ts : ToolSetting) (quotaPerUnit : ℚ) (modelName : String) (groupRatio : ℚ)
    (tools : ToolUse) : ℚ :=
  let webSearch :=
    match tools.responses with
    | some (calls, _) =>
      if 0 < calls then ts.toolPriceForModel "web_search_preview" modelName*calls/1000*groupRatio*quotaPerUnit else 0
    | none =>
      if "search-preview".toList <:+ modelName.toList then
        ts.toolPriceForModel "web_search_preview" modelName/1000*groupRatio*quotaPerUnit
      else 0
  let claudeWebSearch :=
    if 0 < tools.claudeWebSearchRequests then
      ts.toolPrice "web_search"/1000*groupRatio*quotaPerUnit*tools.claudeWebSearchRequests
    else 0
  let fileSearch :=
    match tools.responses with
    | some (_, calls) => if 0 < calls then ts.toolPrice "file_search"*calls/1000*groupRatio*quotaPerUnit else 0
    | none => 0
  let imageGeneration :=
    match tools.imageGenerationCall with
    | some (quality, size) => ts.gptImage1PriceOnceCall quality size*groupRatio*quotaPerUnit
    | none => 0
  webSearch+claudeWebSearch+fileSearch+imageGeneration

def calcOpenRouterCacheCreateTokens (quotaPerUnit : ℚ) (u : Usage) (pd : PriceData) : Int :=
  if pd.cacheCreationRatio = 1 then 0
  else
    let quotaPrice := pd.modelRatio/quotaPerUnit
    roundAway ((u.cost-u.promptTokens*quotaPrice+u.cachedTokens*(quotaPrice-quotaPrice*pd.cacheRatio)-
      u.completionTokens*(quotaPrice*pd.completionRatio))/(quotaPrice*pd.cacheCreationRatio-quotaPrice))

def hasCustomModelRatio (ts : ToolSetting) (modelName : String) (currentRatio : ℚ) : Bool :=
  match ts.defaultModelRatio modelName with
  | none => true
  | some ratio => currentRatio ≠ ratio

structure TextCounts where
  promptTokens : Int
  cacheCreationTokens : Int

variable (s : Setting)

def textCounts (ts : ToolSetting) (sv : Served) (info : RelayInfo) (claude : Bool)
    (u : Usage) : TextCounts :=
  if sv.openRouter && claude then
    let prompt := u.promptTokens-u.cachedTokens
    let custom := info.priceData.usePrice || hasCustomModelRatio ts info.originModelName info.priceData.modelRatio
    let creation :=
      if u.cachedCreationTokens = 0 ∧ info.priceData.cacheCreationRatio ≠ 1 ∧ !custom then
        let maybe := calcOpenRouterCacheCreateTokens s.ratios.quotaPerUnit u info.priceData
        if 0 ≤ maybe ∧ maybe ≤ prompt then maybe else u.cachedCreationTokens
      else u.cachedCreationTokens
    ⟨prompt-creation, creation⟩
  else ⟨u.promptTokens, u.cachedCreationTokens⟩

def promptQuota (ts : ToolSetting) (info : RelayInfo) (claude legacy : Bool) (counts : TextCounts) (u : Usage) : ℚ :=
  let pd := info.priceData
  let inside := !claude && !legacy
  let base : ℚ := counts.promptTokens
  let base := if u.cachedTokens ≠ 0 ∧ inside then base-u.cachedTokens else base
  let split := 0 < u.claudeCacheCreation5mTokens ∨ 0 < u.claudeCacheCreation1hTokens
  let base := if (counts.cacheCreationTokens ≠ 0 ∨ split) ∧ inside then base-counts.cacheCreationTokens else base
  let creation : ℚ :=
    if counts.cacheCreationTokens ≠ 0 ∨ split then
      if inside then counts.cacheCreationTokens*pd.cacheCreationRatio
      else
        let remaining := max 0 (counts.cacheCreationTokens-u.claudeCacheCreation5mTokens-u.claudeCacheCreation1hTokens)
        remaining*pd.cacheCreationRatio+u.claudeCacheCreation5mTokens*pd.cacheCreation5mRatio+
          u.claudeCacheCreation1hTokens*pd.cacheCreation1hRatio
    else 0
  let base := if u.imageTokens ≠ 0 then base-u.imageTokens else base
  let base := if u.audioTokens ≠ 0 ∧ 0 < ts.geminiInputAudioPrice info.originModelName then
    base-u.audioTokens else base
  base+u.cachedTokens*pd.cacheRatio+u.imageTokens*pd.imageRatio+creation

def audioInputQuota (ts : ToolSetting) (info : RelayInfo) (u : Usage) : ℚ :=
  let price := ts.geminiInputAudioPrice info.originModelName
  if u.audioTokens ≠ 0 ∧ 0 < price then
    price/1000000*u.audioTokens*info.priceData.groupRatioInfo.groupRatio*s.ratios.quotaPerUnit
  else 0

structure TextQuotaSummary where
  totalTokens : Int
  claude : Bool
  toolCallSurchargeQuota : ℚ
  quota : Int

def calculateTextQuotaSummary (ts : ToolSetting) (sv : Served) (info : RelayInfo) (usage : Option Usage) :
    TextQuotaSummary :=
  let pd := info.priceData
  let groupRatio := pd.groupRatioInfo.groupRatio
  let claude : Bool := usageSemanticFromUsage sv usage = "anthropic"
  -- Without a usage the estimated prompt is charged.
  let u := usage.getD
    { promptTokens := sv.estimatePromptTokens, completionTokens := 0, totalTokens := sv.estimatePromptTokens }
  let legacy := (usage.map (isLegacyClaudeDerivedOpenAIUsage sv)).getD false
  let counts := textCounts s ts sv info claude u
  let ratio := pd.modelRatio*groupRatio
  let surcharge := toolCallSurcharge ts s.ratios.quotaPerUnit info.originModelName groupRatio sv.tools
  let quota : Int :=
    if pd.usePrice then
      roundAway ((pd.modelPrice*s.ratios.quotaPerUnit*groupRatio+surcharge)*pd.otherRatios.prod)
    else
      let quota := (promptQuota ts info claude legacy counts u+u.completionTokens*pd.completionRatio)*ratio
      let quota := (quota+surcharge+audioInputQuota s ts info u)*pd.otherRatios.prod
      roundAway (if ratio ≠ 0 ∧ quota ≤ 0 then 1 else quota)
  let totalTokens := u.promptTokens+u.completionTokens
  { totalTokens := totalTokens
    claude := claude
    toolCallSurchargeQuota := surcharge
    quota := if totalTokens = 0 then 0 else if ratio ≠ 0 ∧ quota = 0 then 1 else quota }

def buildTieredTokenParams (u : Usage) (claude : Bool) (usedVars : String → Bool) : TokenParams :=
  let cr : ℚ := u.cachedTokens
  let cc5m : ℚ := if u.usageSemantic = "anthropic" then u.claudeCacheCreation5mTokens else u.cachedCreationTokens
  let cc1h : ℚ := if u.usageSemantic = "anthropic" then u.claudeCacheCreation1hTokens else 0
  let inside (name : String) (tokens : ℚ) : ℚ := if !claude && usedVars name then tokens else 0
  let p : ℚ := u.promptTokens-inside "cr" cr-inside "cc" cc5m-inside "cc1h" cc1h-inside "img" u.imageTokens-
    inside "ai" u.audioTokens
  let c : ℚ := u.completionTokens-inside "img_o" u.completionImageTokens-inside "ao" u.completionAudioTokens
  { p := max 0 p
    c := max 0 c
    len := if claude then u.promptTokens+cr+cc5m+cc1h else u.promptTokens
    cr := cr
    cc := cc5m
    cc1h := cc1h
    img := u.imageTokens
    imgO := u.completionImageTokens
    ai := u.audioTokens
    ao := u.completionAudioTokens }

/-- The quota of a settlement by expression, and the quota before the group ratio if the
expression could be run. -/
structure TieredSettlement where
  quota : Int
  actualQuotaBeforeGroup : Option ℚ
deriving DecidableEq

/-- `TryTieredSettle`, with `ComputeTieredQuotaWithRequest`. -/
def tryTieredSettle (info : RelayInfo) (params : TokenParams) : Option TieredSettlement :=
  match info.tieredBillingSnapshot with
  | none => none
  | some snap =>
    match s.runExpr snap.exprString params with
    | some cost =>
      let quotaBeforeGroup := cost/1000000*snap.quotaPerUnit
      some ⟨roundAway (quotaBeforeGroup*snap.groupRatio), some quotaBeforeGroup⟩
    | none =>
      if info.finalPreConsumedQuota ≤ 0 then some ⟨snap.estimatedQuotaAfterGroup, none⟩
      else some ⟨info.finalPreConsumedQuota, none⟩

def composeTieredTextQuota (info : RelayInfo) (summary : TextQuotaSummary) (t : TieredSettlement) : Int :=
  if summary.toolCallSurchargeQuota = 0 then t.quota
  else
    match t.actualQuotaBeforeGroup, info.tieredBillingSnapshot with
    | some before, some snap => roundAway (before*snap.groupRatio+summary.toolCallSurchargeQuota)
    | _, _ => t.quota+roundAway summary.toolCallSurchargeQuota

def tieredVars (ts : ToolSetting) (info : RelayInfo) (name : String) : Bool :=
  match info.tieredBillingSnapshot with
  | none => false
  | some snap => ts.usedVars snap.exprString name

/-- What `PostTextConsumeQuota` settles. -/
def postTextQuota (ts : ToolSetting) (sv : Served) (info : RelayInfo) (usage : Option Usage) : Int :=
  let summary := calculateTextQuotaSummary s ts sv info usage
  match usage with
  | none => summary.quota
  | some u =>
    match tryTieredSettle s info (buildTieredTokenParams u summary.claude (tieredVars ts info)) with
    | none => summary.quota
    | some t => composeTieredTextQuota info summary t

/-- What `PostAudioConsumeQuota` settles. -/
def postAudioQuota (ts : ToolSetting) (info : RelayInfo) (u : Usage) : Int :=
  let quotaInfo : QuotaInfo :=
    { inputDetails := ⟨u.textTokens, u.audioTokens⟩
      outputDetails := ⟨u.completionTextTokens, u.completionAudioTokens⟩
      modelName := info.originModelName
      usePrice := info.priceData.usePrice
      modelRatio := info.priceData.modelRatio
      groupRatio := info.priceData.groupRatioInfo.groupRatio }
  let quota :=
    match tryTieredSettle s info (buildTieredTokenParams u false (tieredVars ts info)) with
    | none => calculateAudioQuota s.ratios quotaInfo
    | some t => t.quota
  if u.totalTokens = 0 then 0 else quota

/-- What `PostWssConsumeQuota` settles. -/
def postWssQuota (info : RelayInfo) (modelName : String) (u : RealtimeUsage) : Int :=
  let quotaInfo : QuotaInfo :=
    { inputDetails := ⟨u.inputTextTokens, u.inputAudioTokens⟩
      outputDetails := ⟨u.outputTextTokens, u.outputAudioTokens⟩
      modelName := modelName
      usePrice := info.priceData.usePrice
      modelRatio := info.priceData.modelRatio
      groupRatio := info.priceData.groupRatioInfo.groupRatio }
  let quota :=
    match tryTieredSettle s info { p := u.inputTokens, c := u.outputTokens, len := u.inputTokens } with
    | none => calculateAudioQuota s.ratios quotaInfo
    | some t => t.quota
  if u.totalTokens = 0 then 0 else quota

inductive FinalUsage
  | text (sv : Served) (usage : Option Usage)
  | audio (usage : Usage)
  | wss (modelName : String) (usage : RealtimeUsage)

def settledQuota (ts : ToolSetting) (info : RelayInfo) : FinalUsage → Int
  | .text sv usage => postTextQuota s ts sv info usage
  | .audio usage => postAudioQuota s ts info usage
  | .wss modelName usage => postWssQuota s info modelName usage

end AiGateway.Pricing
