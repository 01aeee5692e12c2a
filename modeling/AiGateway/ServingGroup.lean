import AiGateway.RelayBound
import AiGateway.TextQuota

/-! Which group's ratio a request is charged with. -/
namespace AiGateway.RelayLoop
open Pricing Option

def withGroupRatio (info : RelayInfo) (ratio : ℚ) : RelayInfo :=
  { info with
    priceData :=
      { info.priceData with groupRatioInfo := { info.priceData.groupRatioInfo with groupRatio := ratio } }
    tieredBillingSnapshot := info.tieredBillingSnapshot.map (fun snap => { snap with groupRatio := ratio }) }

theorem withGroupRatio_self {info : RelayInfo} {ratio : ℚ} (hprice : info.priceData.groupRatioInfo.groupRatio = ratio)
    (hsnap : ∀ snap, info.tieredBillingSnapshot = some snap → snap.groupRatio = ratio) : withGroupRatio
      info ratio = info := by
  subst hprice
  have hmap : info.tieredBillingSnapshot.map
      (fun snap => { snap with groupRatio := info.priceData.groupRatioInfo.groupRatio }) =
        info.tieredBillingSnapshot := by
    cases h : info.tieredBillingSnapshot with
    | none => rfl
    | some snap =>
      rw [map_some, ← hsnap snap h]
  rw [withGroupRatio, hmap]

structure Keeps (userGroup : String) (snap : Option BillingSnapshot) (info : RelayInfo) : Prop where
  user : info.userGroup = userGroup
  snapshot : info.tieredBillingSnapshot = snap

/-- The group ratio of the request is the one of the automatic group. -/
structure Priced (s : Setting) (userGroup : String) (snap : Option BillingSnapshot) (st : State) (group : String) : Prop
    extends Keeps userGroup snap st.info where
  autoGroup : st.autoGroup = some group
  ratio : st.info.priceData.groupRatioInfo.groupRatio = s.ratioFor userGroup group

section Rounds

variable {cfg : Config} {userGroup : String} {snap : Option BillingSnapshot}

variable {st : State} {group : String} {round : Round}

theorem updateGroupRatio_priced (h : Keeps userGroup snap st.info)
    (hgroup : st.autoGroup = some group) : Priced cfg.setting userGroup snap (st.updateGroupRatio cfg) group := by
  have hinfo := handleGroupRatio_info cfg.setting (some group) st.info
  have hratio := handleGroupRatio_ratio cfg.setting group st.info
  rw [h.user] at hratio
  refine ⟨⟨?_, ?_⟩, hgroup, ?_⟩
  · simp only [State.updateGroupRatio, hgroup, hinfo]
    exact h.user
  · simp only [State.updateGroupRatio, hgroup, hinfo]
    exact h.snapshot
  · simpa only [State.updateGroupRatio, hgroup] using hratio

theorem getChannel_priced {st' : State} {c : Chosen} (hauto : cfg.auto = true)
    (hreset : st.resetNextTry = false) (h : Priced cfg.setting userGroup snap st group)
    (hget : getChannel cfg round st = (st', some c)) : Priced cfg.setting userGroup snap st' c.group := by
  rcases getChannel_cases hget with ⟨_, _, hs, rfl⟩ | ⟨_, rfl, rfl⟩
  · rw [cacheGetRandomSatisfiedChannel, if_pos hauto] at hs
    split at hs
    · have hfound := searchGroups_found le_rfl (fun hlt => absurd hlt (lt_irrefl _)) hreset hs
      apply updateGroupRatio_priced
      · rw [hfound.info]
        exact h.toKeeps
      · exact hfound.autoGroup
    · cases hs
  · -- The channel of the distributor, in the group it was found in.
    have hgroup : st'.autoGroup.getD cfg.tokenGroup = group := by
      rw [h.autoGroup, getD_some]
    rw [hgroup]
    exact h

def RoundPriced (cfg : Config) (userGroup : String) (snap : Option BillingSnapshot) (st : State) : Prop :=
  Begun cfg st ∧ ∃ group, Priced cfg.setting userGroup snap st group

/-- A request that was served is priced by the group of its last attempt. -/
def ServedPriced (cfg : Config) (userGroup : String) (snap : Option BillingSnapshot) (r : Report) : Prop :=
  r.ended = .served → ∃ a, r.state.attempts.getLast? = some a ∧ Priced cfg.setting userGroup snap r.state a.group

theorem increaseRetry_priced (h : Priced cfg.setting userGroup snap st group) :
    Priced cfg.setting userGroup snap st.increaseRetry group := by
  rw [State.increaseRetry]
  split <;> exact ⟨h.toKeeps, h.autoGroup, h.ratio⟩

theorem relayRound_priced {st' : State} (hauto : cfg.auto = true)
    (h : RoundPriced cfg userGroup snap st) (hround : relayRound cfg st round = .inl st') :
    RoundPriced cfg userGroup snap st' := by
  obtain ⟨hbegun, group, hpriced⟩ := h
  refine ⟨(relayRound_begun hbegun hround).1, ?_⟩
  cases hround ▸ relayRound_spec cfg st round with
  | @next st' c _ hget =>
    have hchosen := getChannel_priced hauto hbegun.reset hpriced hget
    exact ⟨c.group, increaseRetry_priced ⟨hchosen.toKeeps, hchosen.autoGroup, hchosen.ratio⟩⟩

theorem relayRound_served {r : Report} (hauto : cfg.auto = true)
    (h : RoundPriced cfg userGroup snap st) (hround : relayRound cfg st round = .inr r) :
    ServedPriced cfg userGroup snap r := by
  obtain ⟨hbegun, _, hpriced⟩ := h
  intro hserved
  cases hround ▸ relayRound_spec cfg st round with
  | exhausted => cases hserved
  | idle _ _ hended => exact absurd hserved hended
  | @last st' c _ hget _ =>
    have hchosen := getChannel_priced hauto hbegun.reset hpriced hget
    exact ⟨⟨c, st.index, st.retry⟩, List.getLast?_concat, hchosen.toKeeps, hchosen.autoGroup, hchosen.ratio⟩

end Rounds

/-- A request of an automatic group is charged with the ratio of the group whose channel served it, by ratio and by
price; by expression if that ratio is the one of the group that was found first. -/
theorem serving_group_sets_price (cfg : Config) (ts : ToolSetting) (rounds : ℕ → Round) (fuel : ℕ)
    (firstGroup : String)
    (index : Option ℕ) (channelMeta : Bool) (info priced : RelayInfo) (promptTokens preConsumed : Int)
    (tokenMeta : Meta)
    (report : Report) (hauto : cfg.tokenGroup = "auto") (hnew : info.tieredBillingSnapshot = none)
    (hprice : modelPriceHelper cfg.setting (some firstGroup) info promptTokens tokenMeta = .ok priced)
    (hrun : relay cfg fuel rounds
      (State.begin (some firstGroup) index channelMeta
        { priced with finalPreConsumedQuota := preConsumed }) = some report)
    (hserved : report.ended = .served)
    (hfrozen : priced.tieredBillingSnapshot = none ∨ ∀ a, report.state.attempts.getLast? = some a →
      cfg.setting.ratioFor info.userGroup firstGroup = cfg.setting.ratioFor info.userGroup a.group) :
    ∃ a, report.state.attempts.getLast? = some a ∧ ∀ usage, settledQuota cfg.setting ts report.state.info usage =
        settledQuota cfg.setting ts
          (withGroupRatio report.state.info (cfg.setting.ratioFor info.userGroup a.group)) usage := by
  obtain ⟨huser, hratio, hsnap⟩ := modelPriceHelper_spec hnew hprice
  have hautoGroup : cfg.auto = true := by
    rw [Config.auto, hauto]
    rfl
  have hbegin : RoundPriced cfg info.userGroup priced.tieredBillingSnapshot
      (State.begin (some firstGroup) index channelMeta { priced with finalPreConsumedQuota := preConsumed }) :=
    ⟨begin_begun cfg _ _ _ _, firstGroup, ⟨huser, rfl⟩, rfl, hratio⟩
  have hpost : ServedPriced cfg info.userGroup priced.tieredBillingSnapshot report :=
    Loop.run_post (RoundPriced cfg info.userGroup priced.tieredBillingSnapshot)
      (ServedPriced cfg info.userGroup priced.tieredBillingSnapshot)
      (fun _ _ _ hs h => relayRound_priced hautoGroup hs h) (fun _ _ _ hs h => relayRound_served hautoGroup hs h)
      hbegin hrun
  obtain ⟨a, ha, hfinal⟩ := hpost hserved
  refine ⟨a, ha, ?_⟩
  intro usage
  rw [withGroupRatio_self hfinal.ratio]
  intro snap hs
  rw [hfinal.snapshot] at hs
  rcases hfrozen with hnone | hsame
  · exact absurd (hnone.symm.trans hs) (by simp)
  · rw [hsnap snap hs, hsame a ha]

/-! A request that fails in the group `a` and is served by the group `b`, at twice the ratio. -/

def sampleSetting : Setting where
  ratios :=
    { quotaPerUnit := 100
      modelRatio := fun _ => 1
      completionRatio := fun _ => 1
      audioRatio := fun _ => 1
      audioCompletionRatio := fun _ => 1
      groupRatio := fun group => if group = "b" then 2 else 1
      groupGroupRatio := fun _ _ => none }
  modelPrice := fun _ => none
  modelRatio := fun name => (1, true, name)
  cacheRatio := fun _ => 1
  createCacheRatio := fun _ => 1
  imageRatio := fun _ => 1
  preConsumedQuota := 0
  enableFreeModelPreConsume := true
  tieredExpr := fun name => name = "tiered"
  billingExpr := fun _ => some "tier"
  runExpr := fun _ _ => some 1000000

def sampleConfig : Config where
  setting := sampleSetting
  retryTimes := 1
  tokenGroup := "auto"
  autoGroupsEnabled := true
  autoGroups := ["a", "b"]
  crossGroupRetry := true
  channelId := 1
  specificChannel := false
  alwaysSkipRetryCode := fun _ => false
  shouldRetryByStatusCode := fun _ => true

def sampleTools : ToolSetting where
  toolPrice := fun _ => 0
  toolPriceForModel := fun _ _ => 0
  gptImage1PriceOnceCall := fun _ _ => 0
  geminiInputAudioPrice := fun _ => 0
  defaultModelRatio := fun _ => none
  usedVars := fun _ _ => false

/-- The first attempt fails; then the group `a` has no other channel, and `b` has one. -/
def failover : ℕ → Round
  | 0 => ⟨fun _ _ => (none, false), false, false, true, false, some ⟨false, false, 500, ""⟩⟩
  | _ => ⟨fun group _ => (if group = "b" then some 2 else none, false), false, false, true, false, none⟩

def sampleInfo (modelName : String) : RelayInfo where
  originModelName := modelName
  userGroup := "default"
  usingGroup := "auto"
  acceptUnsetRatioModel := false
  finalPreConsumedQuota := 0
  priceData := { groupRatioInfo := ⟨1, -1, false⟩ }
  tieredBillingSnapshot := none

def samplePriced (modelName : String) : RelayInfo :=
  match modelPriceHelper sampleSetting (some "a") (sampleInfo modelName) 10 ⟨0, 0⟩ with
  | .ok info => info
  | .error _ => sampleInfo modelName

def sampleReport (modelName : String) : Report :=
  (relay sampleConfig 6 failover (State.begin (some "a") (some 0) false (samplePriced modelName))).getD
    ⟨State.begin none none false (samplePriced modelName), .exhausted⟩

def sampleUsage : FinalUsage :=
  .text ⟨10, false, false, {}⟩ (some { promptTokens := 10, completionTokens := 0, totalTokens := 10 })

theorem serving_group_sets_price_failover :
    (samplePriced "ratio").tieredBillingSnapshot = none ∧ (sampleReport "ratio").ended = .served ∧
      ∃ a, (sampleReport "ratio").state.attempts.getLast? = some a ∧ ∀ usage,
        settledQuota sampleSetting sampleTools (sampleReport "ratio").state.info usage =
          settledQuota sampleSetting sampleTools
            (withGroupRatio (sampleReport "ratio").state.info (sampleSetting.ratioFor "default" a.group)) usage :=
  ⟨rfl, rfl, serving_group_sets_price sampleConfig sampleTools failover 6 "a" (some 0) false (sampleInfo "ratio")
    (samplePriced "ratio") 10 0 ⟨0, 0⟩ (sampleReport "ratio") rfl rfl rfl rfl rfl (.inl rfl)⟩

/-- By expression, the request is charged 100, as in the group `a`, and not 200. -/
theorem tiered_charge_keeps_first_group :
    ¬ ∀ (cfg : Config) (ts : ToolSetting) (rounds : ℕ → Round) (fuel : ℕ) (firstGroup : String)
      (index : Option ℕ)
      (channelMeta : Bool) (info priced : RelayInfo) (promptTokens preConsumed : Int) (tokenMeta : Meta)
        (report : Report),
      cfg.tokenGroup = "auto" → info.tieredBillingSnapshot = none →
      modelPriceHelper cfg.setting (some firstGroup) info promptTokens tokenMeta = .ok priced →
      relay cfg fuel rounds
        (State.begin (some firstGroup) index channelMeta { priced with finalPreConsumedQuota := preConsumed }) =
          some report →
      report.ended = .served →
      ∃ a, report.state.attempts.getLast? = some a ∧
        ∀ usage, settledQuota cfg.setting ts report.state.info usage =
          settledQuota cfg.setting ts
            (withGroupRatio report.state.info (cfg.setting.ratioFor info.userGroup a.group)) usage := by
  intro h
  obtain ⟨a, ha, hcharge⟩ := h sampleConfig sampleTools failover 6 "a" (some 0) false (sampleInfo "tiered")
    (samplePriced "tiered") 10 0 ⟨0, 0⟩ (sampleReport "tiered") rfl rfl rfl rfl rfl
  have hlast : (sampleReport "tiered").state.attempts.getLast? = some ⟨⟨2, "b", 1, 0⟩, 0, 1⟩ := by
    decide +kernel
  rw [hlast, some.injEq] at ha
  subst ha
  have hpaid : settledQuota sampleSetting sampleTools (sampleReport "tiered").state.info sampleUsage = 100 := by
    decide +kernel
  have hserving : settledQuota sampleSetting sampleTools
      (withGroupRatio (sampleReport "tiered").state.info (sampleSetting.ratioFor "default" "b")) sampleUsage = 200 := by
    decide +kernel
  exact absurd (hpaid.symm.trans ((hcharge sampleUsage).trans hserving)) (by decide)

end AiGateway.RelayLoop
