import AiGateway.AudioQuota

/-! The price of a relayed request before it is sent, and the snapshot that the settlement uses. Ratios
and prices are exact. -/
namespace AiGateway.Pricing
open Rounding Option

structure GroupRatioInfo where
  groupRatio : ℚ
  groupSpecialRatio : ℚ
  hasSpecialRatio : Bool
deriving DecidableEq

structure PriceData where
  freeModel : Bool := false
  modelPrice : ℚ := 0
  modelRatio : ℚ := 0
  completionRatio : ℚ := 0
  cacheRatio : ℚ := 0
  cacheCreationRatio : ℚ := 0
  cacheCreation5mRatio : ℚ := 0
  cacheCreation1hRatio : ℚ := 0
  imageRatio : ℚ := 0
  -- The values of the map `OtherRatios`
  otherRatios : List ℚ := []
  usePrice : Bool := false
  quotaToPreConsume : Int := 0
  groupRatioInfo : GroupRatioInfo

structure TokenParams where
  p : ℚ
  c : ℚ
  len : ℚ
  cr : ℚ := 0
  cc : ℚ := 0
  cc1h : ℚ := 0
  img : ℚ := 0
  imgO : ℚ := 0
  ai : ℚ := 0
  ao : ℚ := 0
deriving DecidableEq

structure BillingSnapshot where
  exprString : String
  groupRatio : ℚ
  estimatedQuotaAfterGroup : Int
  quotaPerUnit : ℚ
deriving DecidableEq

structure Setting where
  ratios : Audio.RatioSetting
  -- `GetModelPrice`
  modelPrice : String → Option ℚ
  -- `GetModelRatio`: the ratio, whether it is set, and the name that was matched
  modelRatio : String → ℚ × Bool × String
  cacheRatio : String → ℚ
  createCacheRatio : String → ℚ
  imageRatio : String → ℚ
  preConsumedQuota : Int
  enableFreeModelPreConsume : Bool
  -- `GetBillingMode(name) == "tiered_expr"`
  tieredExpr : String → Bool
  billingExpr : String → Option String
  -- `RunExprWithRequest` for the request at hand; none is an error
  runExpr : String → TokenParams → Option ℚ

structure RelayInfo where
  originModelName : String
  userGroup : String
  usingGroup : String
  acceptUnsetRatioModel : Bool
  finalPreConsumedQuota : Int
  priceData : PriceData
  tieredBillingSnapshot : Option BillingSnapshot

variable (s : Setting)

def Setting.ratioFor (userGroup group : String) : ℚ :=
  (s.ratios.groupGroupRatio userGroup group).getD (s.ratios.groupRatio group)

def handleGroupRatio (autoGroup : Option String) (info : RelayInfo) : GroupRatioInfo × RelayInfo :=
  let info :=
    match autoGroup with
    | none => info
    | some group => { info with usingGroup := group }
  match s.ratios.groupGroupRatio info.userGroup info.usingGroup with
  | some ratio => (⟨ratio, ratio, true⟩, info)
  | none => (⟨s.ratios.groupRatio info.usingGroup, -1, false⟩, info)

theorem handleGroupRatio_ratio (group : String) (info : RelayInfo) :
    (handleGroupRatio s (some group) info).1.groupRatio = s.ratioFor info.userGroup group := by
  rw [handleGroupRatio, Setting.ratioFor]
  cases s.ratios.groupGroupRatio info.userGroup group with
  | none => simp only [getD_none]
  | some => simp only [getD_some]

theorem handleGroupRatio_info (autoGroup : Option String) (info : RelayInfo) :
    (handleGroupRatio s autoGroup info).2 = { info with usingGroup := autoGroup.getD info.usingGroup } := by
  cases autoGroup with
  | none =>
    rw [handleGroupRatio]
    cases s.ratios.groupGroupRatio info.userGroup info.usingGroup <;> simp only [getD_none]
  | some group =>
    rw [handleGroupRatio]
    cases s.ratios.groupGroupRatio info.userGroup group <;> simp only [getD_some]

inductive PriceError
  -- `modelPriceNotConfiguredError`
  | notConfigured (matchName : String)
  | noExpression
  | expressionFailed
deriving DecidableEq

/-- `TokenCountMeta`, as far as it counts for the price. -/
structure Meta where
  maxTokens : Int
  imagePriceRatio : ℚ

def claudeCacheCreation1hMultiplier : ℚ := 8/5

def modelPriceHelperTiered (info : RelayInfo) (promptTokens : Int) (tokenMeta : Meta)
    (groupRatioInfo : GroupRatioInfo) : Except PriceError RelayInfo :=
  match s.billingExpr info.originModelName with
  | none => .error .noExpression
  | some expr =>
    match s.runExpr expr { p := promptTokens, c := tokenMeta.maxTokens, len := promptTokens } with
    | none => .error .expressionFailed
    | some rawCost =>
      let quotaBeforeGroup := rawCost/1000000*s.ratios.quotaPerUnit
      let free := !s.enableFreeModelPreConsume && groupRatioInfo.groupRatio = 0
      let preConsumedQuota := if free then 0 else roundAway (quotaBeforeGroup*groupRatioInfo.groupRatio)
      let snapshot : BillingSnapshot := ⟨expr, groupRatioInfo.groupRatio, preConsumedQuota, s.ratios.quotaPerUnit⟩
      let priceData : PriceData :=
        { freeModel := free, groupRatioInfo := groupRatioInfo, quotaToPreConsume := preConsumedQuota }
      .ok { info with priceData := priceData, tieredBillingSnapshot := some snapshot }

def priceDataByPrice (price : ℚ) (tokenMeta : Meta) (groupRatioInfo : GroupRatioInfo) : PriceData :=
  let modelPrice := if tokenMeta.imagePriceRatio ≠ 0 then price*tokenMeta.imagePriceRatio else price
  let free := !s.enableFreeModelPreConsume && (groupRatioInfo.groupRatio = 0 || modelPrice = 0)
  { freeModel := free
    modelPrice := modelPrice
    groupRatioInfo := groupRatioInfo
    usePrice := true
    quotaToPreConsume :=
      if free then 0 else intPart (modelPrice*s.ratios.quotaPerUnit*groupRatioInfo.groupRatio) }

def priceDataByRatio (modelName : String) (modelRatio : ℚ) (promptTokens : Int) (tokenMeta : Meta)
    (groupRatioInfo : GroupRatioInfo) : PriceData :=
  let preConsumedTokens := max promptTokens s.preConsumedQuota+tokenMeta.maxTokens
  let free := !s.enableFreeModelPreConsume && (groupRatioInfo.groupRatio = 0 || modelRatio = 0)
  { freeModel := free
    modelPrice := -1
    modelRatio := modelRatio
    completionRatio := s.ratios.completionRatio modelName
    cacheRatio := s.cacheRatio modelName
    cacheCreationRatio := s.createCacheRatio modelName
    cacheCreation5mRatio := s.createCacheRatio modelName
    cacheCreation1hRatio := s.createCacheRatio modelName*claudeCacheCreation1hMultiplier
    imageRatio := s.imageRatio modelName
    groupRatioInfo := groupRatioInfo
    quotaToPreConsume :=
      if free then 0 else intPart (preConsumedTokens*(modelRatio*groupRatioInfo.groupRatio)) }

def modelPriceHelper (autoGroup : Option String) (info : RelayInfo) (promptTokens : Int)
    (tokenMeta : Meta) : Except PriceError RelayInfo :=
  let (groupRatioInfo, info) := handleGroupRatio s autoGroup info
  if s.tieredExpr info.originModelName then modelPriceHelperTiered s info promptTokens tokenMeta groupRatioInfo
  else
    match s.modelPrice info.originModelName with
    | some price => .ok { info with priceData := priceDataByPrice s price tokenMeta groupRatioInfo }
    | none =>
      match s.modelRatio info.originModelName with
      | (modelRatio, success, matchName) =>
        if !success && !info.acceptUnsetRatioModel then .error (.notConfigured matchName)
        else
          .ok { info with
            priceData := priceDataByRatio s info.originModelName modelRatio promptTokens tokenMeta groupRatioInfo }

/-- What is known of a request that has been priced: its group ratio is the one of the
automatic group, and a snapshot, where there is one, has frozen it. -/
theorem modelPriceHelper_spec {s : Setting} {group : String} {info info' : RelayInfo} {promptTokens : Int}
    {tokenMeta : Meta} (hnew : info.tieredBillingSnapshot = none)
    (h : modelPriceHelper s (some group) info promptTokens tokenMeta = .ok info') : info'.userGroup = info.userGroup ∧
      info'.priceData.groupRatioInfo.groupRatio = s.ratioFor info.userGroup group ∧
      ∀ snap, info'.tieredBillingSnapshot = some snap → snap.groupRatio = s.ratioFor info.userGroup group := by
  have hratio := handleGroupRatio_ratio s group info
  have hinfo := handleGroupRatio_info s (some group) info
  rw [modelPriceHelper] at h
  cases hg : handleGroupRatio s (some group) info with
  | mk =>
    rw [hg] at hratio hinfo
    simp only [getD_some] at hratio hinfo
    subst hinfo
    simp only [hg, modelPriceHelperTiered] at h
    repeat' split at h
    all_goals cases h
    all_goals
      refine ⟨rfl, hratio, ?_⟩
      intro snap hsnap
      first
      | exact absurd (hnew.symm.trans hsnap) (by simp)
      | cases hsnap
        exact hratio

end AiGateway.Pricing
