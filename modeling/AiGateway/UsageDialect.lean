import AiGateway.ServingGroup

/-! Two dialects of usage. Anthropic reports the prompt without its cached parts, OpenAI with
them: what is charged, and how often a billing expression counts a token. -/
namespace AiGateway.Pricing
open Rounding

/-- Only tokens are charged, and cache creations of either lifetime at one ratio. -/
structure TokensOnly (s : Setting) (ts : ToolSetting) (info : RelayInfo) (sv : Served) : Prop where
  noPrice : info.priceData.usePrice = false
  noOtherRatios : info.priceData.otherRatios = []
  notOpenRouter : sv.openRouter = false
  noSurcharge : toolCallSurcharge ts s.ratios.quotaPerUnit info.originModelName
    info.priceData.groupRatioInfo.groupRatio sv.tools = 0
  creation5m : info.priceData.cacheCreation5mRatio = info.priceData.cacheCreationRatio
  creation1h : info.priceData.cacheCreation1hRatio = info.priceData.cacheCreationRatio
  nonneg : 0 ≤ info.priceData.modelRatio ∧ 0 ≤ info.priceData.groupRatioInfo.groupRatio ∧
    0 ≤ info.priceData.cacheRatio ∧ 0 ≤ info.priceData.cacheCreationRatio ∧ 0 ≤ info.priceData.completionRatio

/-- Uncached input `p`, cache reads `r`, cache creations `k` and completions `o`. -/
structure ReportsAnthropic (sv : Served) (u : Usage) (p r k o : ℕ) : Prop where
  semantic : usageSemanticFromUsage sv (some u) = "anthropic"
  prompt : u.promptTokens = p
  cached : u.cachedTokens = r
  creation : u.cachedCreationTokens = k
  split : 0 ≤ u.claudeCacheCreation5mTokens ∧ 0 ≤ u.claudeCacheCreation1hTokens ∧
    u.claudeCacheCreation5mTokens+u.claudeCacheCreation1hTokens ≤ k
  completion : u.completionTokens = o
  plain : u.imageTokens = 0 ∧ u.audioTokens = 0

structure ReportsOpenAI (sv : Served) (u : Usage) (p r k o : ℕ) : Prop where
  semantic : usageSemanticFromUsage sv (some u) = "openai"
  prompt : u.promptTokens = p+r+k
  cached : u.cachedTokens = r
  creation : u.cachedCreationTokens = k
  split : u.claudeCacheCreation5mTokens = 0 ∧ u.claudeCacheCreation1hTokens = 0
  completion : u.completionTokens = o
  plain : u.imageTokens = 0 ∧ u.audioTokens = 0

def tokenPrice (pd : PriceData) (p r k o : ℕ) : ℚ :=
  (p+r*pd.cacheRatio+k*pd.cacheCreationRatio+o*pd.completionRatio)*pd.modelRatio*pd.groupRatioInfo.groupRatio

def tokenQuota (pd : PriceData) (p r k o : ℕ) : Int :=
  let quota := roundAway (tokenPrice pd p r k o)
  if pd.modelRatio ≠ 0 ∧ pd.groupRatioInfo.groupRatio ≠ 0 ∧ quota < 1 then 1 else quota

section
variable {s : Setting} {ts : ToolSetting} {info : RelayInfo} {sv : Served} {u : Usage} {p r k o : ℕ}

theorem tokenPrice_nonneg (hc : TokensOnly s ts info sv) : 0 ≤ tokenPrice info.priceData p r k o := by
  obtain ⟨hm, hg, hr, hk, ho⟩ := hc.nonneg
  unfold tokenPrice
  positivity

theorem quota_eq_tokenQuota (hc : TokensOnly s ts info sv) (htotal : u.promptTokens+u.completionTokens ≠ 0)
    (ho : u.completionTokens = o) (haudio : u.audioTokens = 0)
    (hprompt : promptQuota ts info (usageSemanticFromUsage sv (some u) = "anthropic")
      (isLegacyClaudeDerivedOpenAIUsage sv u) ⟨u.promptTokens, u.cachedCreationTokens⟩ u =
      p+r*info.priceData.cacheRatio+k*info.priceData.cacheCreationRatio) :
    (calculateTextQuotaSummary s ts sv info (some u)).quota = tokenQuota info.priceData p r k o := by
  have hprice := tokenPrice_nonneg (p := p) (r := r) (k := k) (o := o) hc
  have hround := roundAway_nonneg hprice
  have hone : roundAway 1 = 1 := by norm_num [roundAway]
  have hzero (h : tokenPrice info.priceData p r k o ≤ 0) : roundAway (tokenPrice info.priceData p r k o) = 0 := by
    rw [le_antisymm h hprice]
    norm_num [roundAway]
  have hcounts : textCounts s ts sv info (usageSemanticFromUsage sv (some u) = "anthropic") u =
      ⟨u.promptTokens, u.cachedCreationTokens⟩ := by
    simp [textCounts, hc.notOpenRouter]
  have hquota : (promptQuota ts info (usageSemanticFromUsage sv (some u) = "anthropic")
      (isLegacyClaudeDerivedOpenAIUsage sv u) ⟨u.promptTokens, u.cachedCreationTokens⟩ u+
      u.completionTokens*info.priceData.completionRatio)*
      (info.priceData.modelRatio*info.priceData.groupRatioInfo.groupRatio) = tokenPrice info.priceData p r k o := by
    rw [hprompt, ho, tokenPrice, ← mul_assoc]
    rfl
  simp only [calculateTextQuotaSummary, Option.getD_some, Option.map_some, hcounts, hc.noPrice, hc.noSurcharge,
    hc.noOtherRatios, hquota, audioInputQuota, haudio, ne_eq, not_true_eq_false, false_and, if_false, add_zero,
    List.prod_nil, mul_one, Bool.false_eq_true, htotal, mul_eq_zero, not_or, tokenQuota]
  split_ifs <;> grind

theorem promptQuota_anthropic (hc : TokensOnly s ts info sv) (hu : ReportsAnthropic sv u p r k o) (legacy : Bool) :
    promptQuota ts info true legacy ⟨u.promptTokens, u.cachedCreationTokens⟩ u =
      p+r*info.priceData.cacheRatio+k*info.priceData.cacheCreationRatio := by
  obtain ⟨h5, h1, hsum⟩ := hu.split
  have hrest : max 0 ((k : Int)-u.claudeCacheCreation5mTokens-u.claudeCacheCreation1hTokens) =
      k-u.claudeCacheCreation5mTokens-u.claudeCacheCreation1hTokens := max_eq_right (by omega)
  simp only [promptQuota, hu.prompt, hu.cached, hu.creation, hu.plain.1, hu.plain.2, hc.creation5m, hc.creation1h,
    hrest, Bool.not_true, Bool.false_and, Bool.false_eq_true, and_false, if_false, false_and, ne_eq, not_true_eq_false]
  split_ifs
  · push_cast
    ring
  · have hk : k = 0 := by omega
    simp [hk]

theorem promptQuota_openAI (hu : ReportsOpenAI sv u p r k o) :
    promptQuota ts info false false ⟨u.promptTokens, u.cachedCreationTokens⟩ u =
      p+r*info.priceData.cacheRatio+k*info.priceData.cacheCreationRatio := by
  simp only [promptQuota, hu.prompt, hu.cached, hu.creation, hu.plain.1, hu.plain.2, hu.split.1, hu.split.2,
    Bool.not_false, Bool.and_self]
  by_cases hr : r = 0 <;> by_cases hk : k = 0 <;> simp [hr, hk]
  ring

/-- Either dialect is charged the rounded price of its tokens. -/
theorem dialects_charged_alike {sv' : Served} {v : Usage} (hc : TokensOnly s ts info sv)
    (hc' : TokensOnly s ts info sv') (hpos : 0 < p+o) (hu : ReportsAnthropic sv u p r k o)
    (hv : ReportsOpenAI sv' v p r k o) :
    (calculateTextQuotaSummary s ts sv info (some u)).quota = tokenQuota info.priceData p r k o ∧
      (calculateTextQuotaSummary s ts sv' info (some v)).quota = tokenQuota info.priceData p r k o := by
  constructor
  · apply quota_eq_tokenQuota hc _ hu.completion hu.plain.2
    · rw [decide_eq_true hu.semantic]
      exact promptQuota_anthropic hc hu _
    · rw [hu.prompt, hu.completion]
      omega
  · have hlegacy : isLegacyClaudeDerivedOpenAIUsage sv' v = false := by
      simp [isLegacyClaudeDerivedOpenAIUsage, hv.split.1, hv.split.2]
    apply quota_eq_tokenQuota hc' _ hv.completion hv.plain.2
    · rw [hv.semantic, hlegacy]
      exact promptQuota_openAI hv
    · rw [hv.prompt, hv.completion]
      omega

end

/-- A tenth of the price for cache reads, five quarters of it for cache creations. -/
def cachedInfo : RelayInfo :=
  { RelayLoop.sampleInfo "chat" with
    priceData := { modelRatio := 1/2, completionRatio := 4, cacheRatio := 1/10, cacheCreationRatio := 5/4
                   cacheCreation5mRatio := 5/4, cacheCreation1hRatio := 5/4, groupRatioInfo := ⟨1, -1, false⟩ } }

theorem dialects_charged_alike_sample :
    let quota (claude : Bool) (u : Usage) := (calculateTextQuotaSummary RelayLoop.sampleSetting RelayLoop.sampleTools
      ⟨0, claude, false, {}⟩ cachedInfo (some u)).quota
    quota true { promptTokens := 10, completionTokens := 20, totalTokens := 30, cachedTokens := 1000
                 cachedCreationTokens := 200, claudeCacheCreation5mTokens := 50, claudeCacheCreation1hTokens := 100 } =
        tokenQuota cachedInfo.priceData 10 1000 200 20 ∧
      quota false { promptTokens := 1210, completionTokens := 20, totalTokens := 1230, cachedTokens := 1000
                    cachedCreationTokens := 200 } = tokenQuota cachedInfo.priceData 10 1000 200 20 := by
  have hc (claude : Bool) : TokensOnly RelayLoop.sampleSetting RelayLoop.sampleTools cachedInfo
      ⟨0, claude, false, {}⟩ :=
        ⟨rfl, rfl, rfl, by cases claude <;> decide +kernel, rfl, rfl, by norm_num [cachedInfo]⟩
  exact dialects_charged_alike (hc true) (hc false) (by decide)
    ⟨rfl, rfl, rfl, rfl, by decide, rfl, rfl, rfl⟩ ⟨rfl, rfl, rfl, rfl, ⟨rfl, rfl⟩, rfl, rfl, rfl⟩

/-- All cache creations: the larger of the aggregate and of the 5m/1h split. -/
def Usage.cacheCreations (u : Usage) : Int :=
  max u.cachedCreationTokens (u.claudeCacheCreation5mTokens+u.claudeCacheCreation1hTokens)

structure Usage.NonNegative (u : Usage) : Prop where
  prompt : 0 ≤ u.promptTokens
  completion : 0 ≤ u.completionTokens
  cached : 0 ≤ u.cachedTokens
  creation : 0 ≤ u.cachedCreationTokens
  creation5m : 0 ≤ u.claudeCacheCreation5mTokens
  creation1h : 0 ≤ u.claudeCacheCreation1hTokens
  image : 0 ≤ u.imageTokens ∧ 0 ≤ u.completionImageTokens
  audio : 0 ≤ u.audioTokens ∧ 0 ≤ u.completionAudioTokens

/-- The parts of the prompt and of the completion are parts. -/
structure Usage.Fits (u : Usage) : Prop where
  prompt : u.cachedTokens+u.cacheCreations+u.imageTokens+u.audioTokens ≤ u.promptTokens
  completion : u.completionImageTokens+u.completionAudioTokens ≤ u.completionTokens

/-- The tokens of a category, if the expression has a variable of their own for them. -/
def priced (usedVars : String → Bool) (name : String) (tokens : ℚ) : ℚ :=
  if usedVars name then tokens else 0

structure CountedOnce (u : Usage) (claude : Bool) (usedVars : String → Bool) (t : TokenParams) : Prop where
  creations : t.cc+t.cc1h = u.cacheCreations
  prompt : claude = false → t.p+priced usedVars "cr" t.cr+priced usedVars "cc" t.cc+priced usedVars "cc1h" t.cc1h+
    priced usedVars "img" t.img+priced usedVars "ai" t.ai = u.promptTokens
  completion : claude = false →
    t.c+priced usedVars "img_o" t.imgO+priced usedVars "ao" t.ao = u.completionTokens
  anthropic : claude = true → t.p = u.promptTokens ∧ t.len = u.promptTokens+u.cachedTokens+u.cacheCreations

theorem priced_le (usedVars : String → Bool) (name : String) {tokens : ℚ} (h : 0 ≤ tokens) :
    priced usedVars name tokens ≤ tokens := by
  unfold priced
  split
  · exact le_rfl
  · exact h

/-- The split is used in Anthropic semantics, the aggregate otherwise. -/
def Usage.SplitComplete (u : Usage) : Prop :=
  if u.usageSemantic = "anthropic" then
    u.cachedCreationTokens ≤ u.claudeCacheCreation5mTokens+u.claudeCacheCreation1hTokens
  else u.claudeCacheCreation5mTokens+u.claudeCacheCreation1hTokens ≤ u.cachedCreationTokens

section
variable {u : Usage} (claude : Bool) (usedVars : String → Bool)

theorem creations_nonneg (h0 : u.NonNegative) : 0 ≤ (buildTieredTokenParams u claude usedVars).cc ∧
    0 ≤ (buildTieredTokenParams u claude usedVars).cc1h := by
  simp only [buildTieredTokenParams]
  split_ifs
  · exact ⟨Int.cast_nonneg h0.creation5m, Int.cast_nonneg h0.creation1h⟩
  · exact ⟨Int.cast_nonneg h0.creation, le_rfl⟩

theorem creations_iff : (buildTieredTokenParams u claude usedVars).cc+(buildTieredTokenParams u claude usedVars).cc1h =
    u.cacheCreations ↔ u.SplitComplete := by
  simp only [buildTieredTokenParams, Usage.cacheCreations, Usage.SplitComplete]
  split_ifs
  · rw [← Int.cast_add, Int.cast_inj, eq_comm, max_eq_right_iff]
  · rw [add_zero, Int.cast_inj, eq_comm, max_eq_left_iff]

theorem prompt_counted (h0 : u.NonNegative) (hs : u.SplitComplete) (hfit : u.Fits) :
    let t := buildTieredTokenParams u false usedVars
    t.p+priced usedVars "cr" t.cr+priced usedVars "cc" t.cc+priced usedVars "cc1h" t.cc1h+
      priced usedVars "img" t.img+priced usedVars "ai" t.ai = u.promptTokens := by
  intro t
  have hsum : t.cc+t.cc1h = u.cacheCreations := (creations_iff false usedVars).mpr hs
  have hfit : (u.cachedTokens+u.cacheCreations+u.imageTokens+u.audioTokens : ℚ) ≤ u.promptTokens :=
    mod_cast hfit.prompt
  obtain ⟨h5m, h1h⟩ := creations_nonneg false usedVars h0
  have hcr : priced usedVars "cr" t.cr ≤ u.cachedTokens := priced_le _ _ (Int.cast_nonneg h0.cached)
  have hcc : priced usedVars "cc" t.cc ≤ t.cc := priced_le _ _ h5m
  have hcc1h : priced usedVars "cc1h" t.cc1h ≤ t.cc1h := priced_le _ _ h1h
  have himg : priced usedVars "img" t.img ≤ u.imageTokens := priced_le _ _ (Int.cast_nonneg h0.image.1)
  have hai : priced usedVars "ai" t.ai ≤ u.audioTokens := priced_le _ _ (Int.cast_nonneg h0.audio.1)
  have hp : t.p = max 0 (u.promptTokens-priced usedVars "cr" t.cr-priced usedVars "cc" t.cc-
    priced usedVars "cc1h" t.cc1h-priced usedVars "img" t.img-priced usedVars "ai" t.ai) := rfl
  rw [hp, max_eq_right (by linarith)]
  ring

theorem completion_counted (h0 : u.NonNegative) (hfit : u.Fits) :
    let t := buildTieredTokenParams u false usedVars
    t.c+priced usedVars "img_o" t.imgO+priced usedVars "ao" t.ao = u.completionTokens := by
  intro t
  have hfit : (u.completionImageTokens+u.completionAudioTokens : ℚ) ≤ u.completionTokens :=
    mod_cast hfit.completion
  have himg : priced usedVars "img_o" t.imgO ≤ u.completionImageTokens := priced_le _ _ (Int.cast_nonneg h0.image.2)
  have hao : priced usedVars "ao" t.ao ≤ u.completionAudioTokens := priced_le _ _ (Int.cast_nonneg h0.audio.2)
  have hc : t.c = max 0 (u.completionTokens-priced usedVars "img_o" t.imgO-priced usedVars "ao" t.ao) := rfl
  rw [hc, max_eq_right (by linarith)]
  ring

/-- Every token is counted once exactly if the field that is read holds all cache creations. -/
theorem tokens_counted_once_iff (h0 : u.NonNegative) (hfit : claude = false → u.Fits) :
    CountedOnce u claude usedVars (buildTieredTokenParams u claude usedVars) ↔ u.SplitComplete := by
  refine ⟨fun h => (creations_iff claude usedVars).mp h.creations, fun hs => ?_⟩
  have hsum := (creations_iff claude usedVars).mpr hs
  refine ⟨hsum, ?_, ?_, ?_⟩
  · rintro rfl
    exact prompt_counted usedVars h0 hs (hfit rfl)
  · rintro rfl
    exact completion_counted usedVars h0 (hfit rfl)
  · rintro rfl
    have hp : max 0 ((u.promptTokens : ℚ)-0-0-0-0-0) = u.promptTokens := by
      rw [max_eq_right] <;> simp [h0.prompt]
    refine ⟨hp, ?_⟩
    rw [← hsum, ← add_assoc]
    rfl

end

/-- A Claude upstream that reports a hundred cache creations, `split` of them for five minutes. -/
def createdUsage (split : Int) : Usage :=
  { promptTokens := 10, completionTokens := 1, totalTokens := 11, cachedCreationTokens := 100
    claudeCacheCreation5mTokens := split, usageSemantic := "anthropic" }

def mixedUsage : Usage :=
  { promptTokens := 100, completionTokens := 20, totalTokens := 120, cachedTokens := 30, imageTokens := 10
    audioTokens := 5, completionAudioTokens := 4 }

theorem tokens_counted_once_iff_sample :
    (CountedOnce (createdUsage 100) true (fun _ => true)
      (buildTieredTokenParams (createdUsage 100) true (fun _ => true)) ↔ (createdUsage 100).SplitComplete) ∧
    CountedOnce mixedUsage false (fun _ => true) (buildTieredTokenParams mixedUsage false (fun _ => true)) := by
  refine ⟨tokens_counted_once_iff true (fun _ => true) (by constructor <;> decide) nofun, ?_⟩
  apply (tokens_counted_once_iff false (fun _ => true) _ _).mpr
  · unfold Usage.SplitComplete
    decide
  · constructor <;> decide
  · intro _
    constructor <;> decide

/-- Without the split they are neither priced nor part of the length. -/
theorem unsplit_creations_free : (createdUsage 0).NonNegative ∧
    ¬CountedOnce (createdUsage 0) true (fun _ => true)
      (buildTieredTokenParams (createdUsage 0) true (fun _ => true)) := by
  refine ⟨by constructor <;> decide, fun h => ?_⟩
  have hs := (creations_iff _ _).mp h.creations
  norm_num [Usage.SplitComplete, createdUsage] at hs

end AiGateway.Pricing
