import AiGateway.Rounding

/-! The quota of a usage of text and audio tokens. Ratios are the decimals the
settings hold, so all arithmetic before the final rounding is exact. -/
namespace AiGateway.Audio
open Rounding

structure TokenDetails where
  textTokens : Int := 0
  audioTokens : Int := 0
deriving DecidableEq

structure QuotaInfo where
  inputDetails : TokenDetails
  outputDetails : TokenDetails
  modelName : String
  usePrice : Bool
  modelPrice : ℚ := 0
  modelRatio : ℚ
  groupRatio : ℚ

structure RatioSetting where
  quotaPerUnit : ℚ
  modelRatio : String → ℚ
  completionRatio : String → ℚ
  audioRatio : String → ℚ
  audioCompletionRatio : String → ℚ
  groupRatio : String → ℚ
  groupGroupRatio : String → String → Option ℚ

variable (rs : RatioSetting)

def weightedTokens (info : QuotaInfo) : ℚ :=
  info.inputDetails.textTokens+
    info.outputDetails.textTokens*rs.completionRatio info.modelName+
    info.inputDetails.audioTokens*rs.audioRatio info.modelName+
    info.outputDetails.audioTokens*rs.audioRatio info.modelName*rs.audioCompletionRatio info.modelName

def calculateAudioQuota (info : QuotaInfo) : Int :=
  if info.usePrice then intPart (info.modelPrice*rs.quotaPerUnit*info.groupRatio)
  else
    let ratio := info.groupRatio*info.modelRatio
    let quota := weightedTokens rs info*ratio
    -- A model that is not free costs at least one.
    let quota := if ratio ≠ 0 ∧ quota ≤ 0 then 1 else quota
    roundAway quota

theorem calculateAudioQuota_nonneg {info : QuotaInfo} (hp : info.usePrice = false) :
    0 ≤ calculateAudioQuota rs info := by
  simp only [calculateAudioQuota, hp, Bool.false_eq_true, if_false]
  apply roundAway_nonneg
  split
  · exact zero_le_one
  · next hfree =>
    by_cases hz : info.groupRatio*info.modelRatio = 0
    · rw [hz, mul_zero]
    · have hpos : ¬ weightedTokens rs info*(info.groupRatio*info.modelRatio) ≤ 0 := fun hle => hfree ⟨hz, hle⟩
      linarith

@[ext] structure RealtimeUsage where
  totalTokens : Int := 0
  inputTokens : Int := 0
  outputTokens : Int := 0
  inputCachedTokens : Int := 0
  inputTextTokens : Int := 0
  inputAudioTokens : Int := 0
  outputTextTokens : Int := 0
  outputAudioTokens : Int := 0
deriving DecidableEq

instance : Zero RealtimeUsage := ⟨{}⟩

/-- The sums that `preConsumeUsage` keeps of the reports. -/
instance : Add RealtimeUsage where
  add a b :=
    { totalTokens := a.totalTokens+b.totalTokens
      inputTokens := a.inputTokens+b.inputTokens
      outputTokens := a.outputTokens+b.outputTokens
      inputCachedTokens := a.inputCachedTokens+b.inputCachedTokens
      inputTextTokens := a.inputTextTokens+b.inputTextTokens
      inputAudioTokens := a.inputAudioTokens+b.inputAudioTokens
      outputTextTokens := a.outputTextTokens+b.outputTextTokens
      outputAudioTokens := a.outputAudioTokens+b.outputAudioTokens }

theorem RealtimeUsage.add_def (a b : RealtimeUsage) : a+b =
    ⟨a.totalTokens+b.totalTokens, a.inputTokens+b.inputTokens, a.outputTokens+b.outputTokens,
      a.inputCachedTokens+b.inputCachedTokens, a.inputTextTokens+b.inputTextTokens,
      a.inputAudioTokens+b.inputAudioTokens, a.outputTextTokens+b.outputTextTokens,
      a.outputAudioTokens+b.outputAudioTokens⟩ := rfl

theorem RealtimeUsage.zero_def : (0 : RealtimeUsage) = ⟨0, 0, 0, 0, 0, 0, 0, 0⟩ := rfl

instance : AddCommMonoid RealtimeUsage where
  add_assoc a b c := by
    simp only [RealtimeUsage.add_def, RealtimeUsage.mk.injEq]
    omega
  zero_add a := by
    simp only [RealtimeUsage.add_def, RealtimeUsage.zero_def]
    ext <;> simp
  add_zero a := by
    simp only [RealtimeUsage.add_def, RealtimeUsage.zero_def]
    ext <;> simp
  add_comm a b := by
    simp only [RealtimeUsage.add_def, RealtimeUsage.mk.injEq]
    omega
  nsmul := nsmulRec

structure Terms where
  modelName : String
  modelRatio : ℚ
  groupRatio : ℚ

def Terms.quotaInfo (t : Terms) (usage : RealtimeUsage) : QuotaInfo where
  inputDetails := ⟨usage.inputTextTokens, usage.inputAudioTokens⟩
  outputDetails := ⟨usage.outputTextTokens, usage.outputAudioTokens⟩
  modelName := t.modelName
  usePrice := false
  modelRatio := t.modelRatio
  groupRatio := t.groupRatio

def Terms.quota (t : Terms) (usage : RealtimeUsage) : Int :=
  calculateAudioQuota rs (t.quotaInfo usage)

def Terms.price (t : Terms) (usage : RealtimeUsage) : ℚ :=
  weightedTokens rs (t.quotaInfo usage)*(t.groupRatio*t.modelRatio)

/-- The model is free, or the price of the usage is rounded off. -/
def Terms.Free (t : Terms) (usage : RealtimeUsage) : Prop :=
  t.groupRatio*t.modelRatio = 0 ∨ 0 < t.price rs usage ∧ t.price rs usage < 1/2

instance (rs : RatioSetting) (t : Terms) (usage : RealtimeUsage) : Decidable (t.Free rs usage) :=
  inferInstanceAs (Decidable (_ ∨ _))

theorem Terms.quota_eq_zero_iff (t : Terms) (usage : RealtimeUsage) :
    t.quota rs usage = 0 ↔ t.Free rs usage := by
  change roundAway (if t.groupRatio*t.modelRatio ≠ 0 ∧ t.price rs usage ≤ 0 then 1 else
    t.price rs usage) = 0 ↔ _
  rw [Free]
  by_cases hfree : t.groupRatio*t.modelRatio = 0
  · have hzero : t.price rs usage = 0 := by rw [price, hfree, mul_zero]
    rw [if_neg (fun h => h.1 hfree), roundAway_eq_zero_iff hzero.ge, hzero]
    norm_num [hfree]
  · by_cases hprice : t.price rs usage ≤ 0
    · rw [if_pos ⟨hfree, hprice⟩, roundAway_eq_zero_iff zero_le_one]
      norm_num [hfree, hprice]
    · have hpos := not_le.mp hprice
      rw [if_neg (fun h => hprice h.2), roundAway_eq_zero_iff hpos.le]
      simp [hfree, hpos]

end AiGateway.Audio
