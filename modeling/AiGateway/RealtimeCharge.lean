import AiGateway.Realtime

/-! What a realtime session takes over all its reports and the final settlement. -/
namespace AiGateway.Billing
open Subscription GoText Fault Audio Rounding List Run

/-- A session that is still open and has been charged `charged` beside its pre-consume. -/
structure SessionBooks (info : RelayInfo) (base : Store) (f : FundingSource) (charged : Int)
    (s : BillingSession) (st : Store) : Prop where
  tokenId : s.relayInfo.tokenId = info.tokenId
  playground : s.relayInfo.isPlayground = info.isPlayground
  source : s.relayInfo.billingSource = some f.source
  user : ∀ w, f = .wallet w → s.relayInfo.userId = w.userId
  unsettled : s.settled = false
  uncommitted : s.fundingSettled = false
  nonneg : 0 ≤ s.preConsumedQuota
  charged_nonneg : 0 ≤ charged
  token : st.tokenQuota info.tokenId =
    base.tokenQuota info.tokenId-(if info.isPlayground then 0 else s.preConsumedQuota+charged)
  funding : FundingHolds base s st (-(s.preConsumedQuota+charged)) True f

variable {base st : Store} {s : BillingSession} {f : FundingSource} {info : RelayInfo}

variable {st1 : Store} {quota charged : Int} {env : Env}

theorem FundingHolds.charge {net : Int} {info' : RelayInfo} (h : FundingHolds base s st net True f)
    (hq : 0 ≤ quota) (hnet : net ≤ 0) (hsrc : s.relayInfo.billingSource = some f.source)
    (huser : ∀ w, f = .wallet w → s.relayInfo.userId = w.userId)
    (hok : postConsumeFunding env s.relayInfo quota st = .ok (info', st1)) :
    (∃ postDelta, info' = { s.relayInfo with subscriptionPostDelta := postDelta }) ∧
      FundingHolds base s st1 (net-quota) True f ∧ st1.tokenQuota = st.tokenQuota := by
  cases f with
  | wallet w =>
    have hno : ¬ s.relayInfo.billingSource = some .subscription := by
      rw [hsrc]
      simp [FundingSource.source]
    rw [postConsumeFunding, if_neg hno] at hok
    obtain ⟨st2, hadj, hok⟩ := bind_eq_ok hok
    cases hok
    have hst := adjustUser_ok hadj
    subst hst
    rw [huser w rfl]
    refine ⟨⟨_, rfl⟩, ⟨h.1, ?_⟩, rfl⟩
    rw [addUser_userQuota, h.2]
    omega
  | subscription f =>
    have h : SubscriptionHolds base f s st net True := h
    have hid : ¬ s.relayInfo.subscriptionId = 0 := by
      have hpos := h.id_pos
      rw [h.id]
      omega
    have hsub : s.relayInfo.billingSource = some .subscription := hsrc
    rw [postConsumeFunding, if_pos hsub, if_neg hid] at hok
    -- A report that costs nothing does not touch the subscription.
    by_cases hz : quota = 0
    · rw [if_pos hz] at hok
      cases hok
      rw [hz, Int.sub_zero]
      exact ⟨⟨_, rfl⟩, h, rfl⟩
    · rw [if_neg hz] at hok
      obtain ⟨st2, hdelta, hok⟩ := bind_eq_ok hok
      cases hok
      rw [h.id] at hdelta
      have hstart := h.start
      obtain ⟨h', htok⟩ := h.delta hz (by omega) hdelta
      exact ⟨⟨_, rfl⟩, h', htok⟩

section

variable (h : SessionBooks info base f charged s st)

include h

theorem SessionBooks.token_charged (info' : RelayInfo)
    (hid : info'.tokenId = s.relayInfo.tokenId) (hplay : info'.isPlayground = s.relayInfo.isPlayground)
    (hst : st1.tokenQuota = st.tokenQuota) (delta : Int) : (chargeToken info' delta st1).tokenQuota info.tokenId =
      base.tokenQuota info.tokenId-(if info.isPlayground then 0 else s.preConsumedQuota+charged+delta) := by
  have hnet : st.tokenQuota info.tokenId =
      base.tokenQuota info.tokenId+(if info.isPlayground then 0 else -(s.preConsumedQuota+charged)) := by
    rw [h.token]
    split <;> omega
  rw [chargeToken_net (hid.trans h.tokenId) (hplay.trans h.playground) hnet hst]
  split <;> omega

theorem SessionBooks.report {st' : Store} {w : WssContext} {t : Terms}
    (hw : ByRatio w t) {usage : RealtimeUsage} {info' : RelayInfo}
    (hok : preWssConsumeQuota env w usage s.relayInfo st = (.ok (), info', st')) :
    SessionBooks info base f (charged+t.quota w.ratios usage) { s with relayInfo := info' } st' := by
  simp only [preWssConsumeQuota, hw.noPrice, Bool.false_eq_true, if_false, hw.reports] at hok
  have hq : 0 ≤ t.quota w.ratios usage := calculateAudioQuota_nonneg w.ratios rfl
  -- Only the sign of the quota matters from here on.
  generalize t.quota w.ratios usage = quota at hok hq ⊢
  unfold postConsumeQuota at hok
  repeat' split at hok
  all_goals cases hok
  next st1 _ hfund htok =>
    have hst := adjustToken_ok htok
    subst hst
    have hnn := h.nonneg
    have hcn := h.charged_nonneg
    obtain ⟨⟨postDelta, rfl⟩, hfund', htok'⟩ :=
      h.funding.charge hq (by omega) h.source h.user hfund
    have hn : -(s.preConsumedQuota+charged)-quota = -(s.preConsumedQuota+(charged+quota)) := by omega
    rw [hn] at hfund'
    refine ⟨h.tokenId, h.playground, h.source, h.user, h.unsettled, h.uncommitted, hnn, by omega, ?_, ?_⟩
    · have htoken := h.token_charged { s.relayInfo with subscriptionPostDelta := postDelta } rfl rfl htok' quota
      rw [htoken, Int.add_assoc]
    · exact hfund'.congr rfl rfl rfl rfl (chargeToken_userQuota _ _) (chargeToken_sub _ _) (fun hl => hl)

theorem SessionBooks.reports {w : WssContext} {t : Terms} (hw : ByRatio w t) (reports : List Report)
    (sum : RealtimeUsage)
    (hok : Along (reportStep w) (ReportOk w) ⟨.session s, st, sum⟩ reports) :
    ∃ s' st', exec (reportStep w) ⟨.session s, st, sum⟩ reports =
        ⟨.session s', st', sum+(reports.map Report.usage).sum⟩ ∧
      SessionBooks info base f (charged+reportedQuota w t reports) s' st' := by
  induction reports generalizing charged s st sum with
  | nil =>
    refine ⟨s, st, ?_, ?_⟩
    · simp
    · simpa [reportedQuota] using h
  | cons r reports ih =>
    obtain ⟨hr, hrest⟩ := hok
    -- One report: the sum grows by its usage and the books by its quota.
    rcases hpre : preWssConsumeQuota r.env w r.usage s.relayInfo st with ⟨res, info', st'⟩
    have hstep : reportStep w ⟨.session s, st, sum⟩ r =
      ⟨.session { s with relayInfo := info' }, st', sum+r.usage⟩ := by
      simp only [reportStep, preConsumeUsage, Payer.relayInfo, hpre, Payer.withInfo]
    have hres : res = .ok () := by
      simpa only [ReportOk, preConsumeUsage, Payer.relayInfo, hpre] using hr
    rw [hres] at hpre
    rw [hstep] at hrest
    obtain ⟨s', st'', hexec, hbooks⟩ := ih (h.report hw hpre) (sum+r.usage) hrest
    refine ⟨s', st'', ?_, ?_⟩
    · rw [exec_cons, hstep, hexec, map_cons, sum_cons, add_assoc]
    · have hsum : charged+reportedQuota w t (r :: reports) =
          charged+t.quota w.ratios r.usage+reportedQuota w t reports := by
        simp only [reportedQuota, map_cons, sum_cons]
        omega
      rw [hsum]
      exact hbooks

theorem SessionBooks.settle {s' : BillingSession} {st' : Store}
    {actualQuota : Int} (ha : 0 ≤ actualQuota) (hok : Billing.settle env s actualQuota st = (.ok (), s', st')) :
    f.balance base-f.balance st' = charged+actualQuota ∧ base.tokenQuota info.tokenId-st'.tokenQuota info.tokenId =
        if info.isPlayground then 0 else charged+actualQuota := by
  obtain ⟨_, st1, hst1, rfl⟩ := settle_ok h.unsettled h.uncommitted hok
  have hcn := h.charged_nonneg
  have hsettled : FundingHolds base s st1 (-(charged+actualQuota)) True f ∧ st1.tokenQuota = st.tokenQuota := by
    have hfund := h.funding
    -- The settlement compares with the pre-consume alone, so what the reports paid stays taken.
    have hn : -(s.preConsumedQuota+charged)-(actualQuota-s.preConsumedQuota) = -(charged+actualQuota) := by omega
    rw [← hn]
    rcases hst1 with ⟨ha, rfl⟩ | ⟨ha, hst1⟩
    · rw [ha, Int.sub_self, Int.sub_zero]
      exact ⟨hfund, rfl⟩
    · refine hfund.settle (by omega) ?_ hst1
      intro g hg
      have hused := (hfund.used_eq g hg).2
      omega
  obtain ⟨hfund, htok⟩ := hsettled
  constructor
  · have hb := hfund.balance_sub
    cases f with
    | wallet =>
      simp only [FundingSource.balance, chargeToken_userQuota] at hb ⊢
      omega
    | subscription =>
      simp only [FundingSource.balance, Store.used, chargeToken_sub] at hb ⊢
      omega
  · rw [h.token_charged s.relayInfo rfl rfl htok (actualQuota-s.preConsumedQuota)]
    split <;> omega

end

theorem newBillingSession_synced (hopen : newBillingSession env info quota st = (.ok s, st1))
    (hok : OpenOk env info quota st s) :
    s.relayInfo.billingSource = some s.funding.source ∧
      (∀ w, s.funding = .wallet w → s.relayInfo.userId = w.userId) ∧ s.fundingSettled = false := by
  have hc := Env.compensations_of_never hok.succeeds
  rcases newBillingSession_one_attempt hc hopen with ⟨⟨_, he⟩, _⟩ | ⟨_, hs', hw | hsub⟩
  · cases he
  · cases hs'
    obtain ⟨_, _, rfl, _⟩ := tryWallet_ok hw
    refine ⟨rfl, ?_, rfl⟩
    rintro _ ⟨⟩
    rfl
  · cases hs'
    obtain ⟨_, _, _, rfl, _⟩ := trySubscription_ok hok.fresh hsub
    exact ⟨rfl, nofun, rfl⟩

theorem SessionBooks.opened
    (hopen : newBillingSession env info quota st = (.ok s, st1)) (hok : OpenOk env info quota st s) :
    SessionBooks info st s.funding 0 s st1 := by
  obtain ⟨hsource, huser, hfs⟩ := newBillingSession_synced hopen hok
  have h := Accounted.opened hopen hok
  have htoken : st1.tokenQuota info.tokenId =
      st.tokenQuota info.tokenId+(if info.isPlayground then 0 else -s.preConsumedQuota) := h.token
  refine ⟨h.tokenId, h.playground, hsource, huser, h.flags.1, hfs, h.nonneg, Int.le_refl 0, ?_, ?_⟩
  · rw [htoken]
    split <;> omega
  · rw [Int.add_zero]
    exact h.funding.congr rfl rfl rfl rfl rfl rfl (fun _ => .inr rfl)

/-- What is taken is the quota of the summed usage, or that of the reports one by one, which is the
same but for their rounding. -/
def PaidOnce (rs : RatioSetting) (t : Terms) (usages : List RealtimeUsage) (taken : Int) : Prop :=
  taken = t.quota rs usages.sum ∨ taken = (usages.map (t.quota rs)).sum

theorem sum_quota_eq_zero_iff (rs : RatioSetting) (t : Terms) (usages : List RealtimeUsage) :
    (usages.map (t.quota rs)).sum = 0 ↔ ∀ u ∈ usages, t.Free rs u := by
  simp only [← t.quota_eq_zero_iff]
  constructor
  · intro hsum u hu
    refine all_zero_of_le_zero_le_of_sum_eq_zero ?_ hsum (mem_map_of_mem hu)
    intro q hq
    obtain ⟨_, _, rfl⟩ := mem_map.mp hq
    exact calculateAudioQuota_nonneg rs rfl
  · intro hall
    apply sum_eq_zero
    intro q hq
    obtain ⟨u, hu, rfl⟩ := mem_map.mp hq
    exact hall u hu

/-- The parts are paid in addition to the sum, so the two agree only when the parts, or
the sum, cost nothing. -/
theorem paidOnce_iff (rs : RatioSetting) (t : Terms) (usages : List RealtimeUsage) :
    PaidOnce rs t usages ((usages.map (t.quota rs)).sum+
      (if usages.sum.totalTokens = 0 then 0 else t.quota rs usages.sum)) ↔
      usages.sum.totalTokens = 0 ∨ t.Free rs usages.sum ∨ ∀ u ∈ usages, t.Free rs u := by
  rw [PaidOnce, ← sum_quota_eq_zero_iff, ← t.quota_eq_zero_iff]
  split
  · next hzero => simp [hzero]
  · next hne => omega

/-- A realtime session takes the quota of every report and the quota of their sum, from the
funding and from the token, so the usage is paid once only when nothing is settled at the end or one
of the two costs nothing. -/
theorem realtime_charged_once_iff (env : Env) (info : RelayInfo) (quota : Int) (st st1 : Store)
    (s : BillingSession) (hopen : newBillingSession env info quota st = (.ok s, st1))
    (hok : OpenOk env info quota st s) (w : WssContext) (t : Terms) (hw : ByRatio w t) (reports : List Report)
    (hreports : Along (reportStep w) (ReportOk w) (.start (.session s) st1) reports) (final : Env)
    (y : WssState)
    (hfinal : wssFinish final w (exec (reportStep w) (.start (.session s) st1) reports) = (.ok (), y)) :
    let usages := reports.map Report.usage
    let taken := s.funding.balance st-s.funding.balance y.store
    st.tokenQuota info.tokenId-y.store.tokenQuota info.tokenId = (if info.isPlayground then 0 else taken) ∧
    (PaidOnce w.ratios t usages taken ↔ usages.sum.totalTokens = 0 ∨ t.Free w.ratios usages.sum ∨
      ∀ u ∈ usages, t.Free w.ratios u) := by
  intro usages taken
  obtain ⟨s', st', hexec, hbooks⟩ := (SessionBooks.opened hopen hok).reports hw reports 0 hreports
  rw [WssState.start, hexec, zero_add] at hfinal
  rw [Int.zero_add] at hbooks
  -- Both sides of the comparison use the same terms.
  have hquota : postWssQuota w w.upstreamModelName usages.sum =
      if usages.sum.totalTokens = 0 then 0 else t.quota w.ratios usages.sum := by
    simp only [postWssQuota, hw.noTiers, Option.getD_none]
    rw [hw.final]
    simp only [Terms.quota, Terms.quotaInfo, postWssQuotaInfo, hw.noFinalPrice]
  have hnn : 0 ≤ postWssQuota w w.upstreamModelName usages.sum := by
    rw [hquota]
    split
    · exact Int.le_refl 0
    · exact calculateAudioQuota_nonneg w.ratios rfl
  simp only [wssFinish, postWssConsumeQuota, settleBilling] at hfinal
  rcases hset : settle final s' (postWssQuota w w.upstreamModelName usages.sum) st' with ⟨_, _⟩
  rw [hset] at hfinal
  cases hfinal
  obtain ⟨hfund, htoken⟩ := hbooks.settle hnn hset
  have htaken : taken = (usages.map (t.quota w.ratios)).sum+
      (if usages.sum.totalTokens = 0 then 0 else t.quota w.ratios usages.sum) := by
    have hsum : reportedQuota w t reports = (usages.map (t.quota w.ratios)).sum := by
      simp only [reportedQuota, usages, map_map, Function.comp_def]
    rw [← hquota, ← hsum]
    exact hfund
  refine ⟨?_, ?_⟩
  · rw [htoken]
    by_cases hp : info.isPlayground = true
    · simp only [hp, if_true]
    · simp only [hp, Bool.false_eq_true, if_false]
      exact hfund.symm
  · rw [htaken]
    exact paidOnce_iff w.ratios t usages

def sampleWss (modelRatio : ℚ) : WssContext where
  ratios := ⟨500000, fun _ => modelRatio, fun _ => 1, fun _ => 1, fun _ => 1, fun _ => 1, fun _ _ => none⟩
  originModelName := "gpt-realtime"
  upstreamModelName := "gpt-realtime"
  usingGroup := "default"
  userGroup := "default"
  autoGroup := none
  usePrice := false
  priceData := ⟨false, 0, modelRatio, 1⟩
  tokenUnlimited := false
  tieredSettle := fun _ => none

def sampleTerms (modelRatio : ℚ) : Terms := ⟨"gpt-realtime", modelRatio, 1⟩

def sampleReport (tokens : Int) : Report :=
  ⟨sampleEnv, { totalTokens := tokens, inputTokens := tokens, inputTextTokens := tokens }⟩

theorem sampleWss_byRatio (modelRatio : ℚ) : ByRatio (sampleWss modelRatio) (sampleTerms modelRatio) :=
  ⟨rfl, rfl, fun _ => rfl, fun _ => rfl, rfl⟩

def sampleReported (modelRatio : ℚ) (reports : List Report) : WssState :=
  match newBillingSession sampleEnv { sampleInfo with billingPreference := "wallet_only" } 10 sampleStore with
  | (.ok s, st1) => exec (reportStep (sampleWss modelRatio)) (.start (.session s) st1) reports
  | (.error _, st1) => .start (.plain sampleInfo) st1

/-- Two reports that are rounded off, and paid at the end. -/
theorem realtime_charged_once_sample :
    ∃ s st1 y, newBillingSession sampleEnv { sampleInfo with billingPreference := "wallet_only" } 10 sampleStore =
        (.ok s, st1) ∧
      wssFinish sampleEnv (sampleWss (1/10)) (exec (reportStep (sampleWss (1/10))) (.start (.session s) st1)
        [sampleReport 3, sampleReport 4]) = (.ok (), y) ∧
      PaidOnce (sampleWss (1/10)).ratios (sampleTerms (1/10)) [(sampleReport 3).usage, (sampleReport 4).usage]
        (s.funding.balance sampleStore-s.funding.balance y.store) := by
  have hok : ∀ s, OpenOk sampleEnv { sampleInfo with billingPreference := "wallet_only" } 10 sampleStore s := by
    intro s
    exact ⟨rfl, rfl, by decide, by decide, by decide, fun _ _ => by decide⟩
  have hfinal : wssFinish sampleEnv (sampleWss (1/10))
    (sampleReported (1/10) [sampleReport 3, sampleReport 4]) = (.ok (),
      (wssFinish sampleEnv (sampleWss (1/10)) (sampleReported (1/10) [sampleReport 3, sampleReport 4])).2) :=
    Prod.ext (eq_ok_of_isOk (by decide +kernel)) rfl
  refine ⟨_, _, _, rfl, hfinal, ?_⟩
  have hiff := (realtime_charged_once_iff sampleEnv _ 10 sampleStore _ _ rfl (hok _) (sampleWss (1/10))
    (sampleTerms (1/10))
    (sampleWss_byRatio _) [sampleReport 3, sampleReport 4]
    ⟨eq_ok_of_isOk (by decide +kernel), eq_ok_of_isOk (by decide +kernel), trivial⟩ sampleEnv _ hfinal).2
  exact hiff.mpr (.inr (.inr (by decide +kernel)))

/-- One report of a hundred tokens is paid when it arrives and again at the end. -/
theorem realtime_report_charged_twice :
    let y := wssFinish sampleEnv (sampleWss 1) (sampleReported 1 [sampleReport 100])
    (sampleReported 1 [sampleReport 100]).sumUsage = (sampleReport 100).usage ∧ y.1.isOk = true ∧
    (sampleTerms 1).quota (sampleWss 1).ratios (sampleReport 100).usage = 100 ∧
    sampleStore.userQuota 1-y.2.store.userQuota 1 = 200 ∧
    sampleStore.tokenQuota 1-y.2.store.tokenQuota 1 = 200 ∧
    ¬ PaidOnce (sampleWss 1).ratios (sampleTerms 1) [(sampleReport 100).usage] 200 := by
  refine ⟨by decide +kernel, by decide +kernel, by decide +kernel, by decide +kernel, by decide +kernel, ?_⟩
  unfold PaidOnce
  decide +kernel

end AiGateway.Billing
