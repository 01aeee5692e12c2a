import AiGateway.BillingStore

/-! The calls of a session one by one, and what each does to the funding source. -/
namespace AiGateway.Billing
open Subscription GoText Fault

@[simp] theorem syncRelayInfo_tokenId (s : BillingSession) :
    (syncRelayInfo s).relayInfo.tokenId = s.relayInfo.tokenId := by
  unfold syncRelayInfo
  split <;> rfl

@[simp] theorem syncRelayInfo_isPlayground (s : BillingSession) :
    (syncRelayInfo s).relayInfo.isPlayground = s.relayInfo.isPlayground := by
  unfold syncRelayInfo
  split <;> rfl

theorem syncRelayInfo_eq (s : BillingSession) : ∃ info, syncRelayInfo s = { s with relayInfo := info } := by
  unfold syncRelayInfo
  split <;> exact ⟨_, rfl⟩

theorem addPostDelta_eq (funding : FundingSource) (delta : Int) (info : RelayInfo) :
    ∃ postDelta, addPostDelta funding delta info = { info with subscriptionPostDelta := postDelta } := by
  cases funding <;> exact ⟨_, rfl⟩

variable {env : Env} {s s' : BillingSession} {st st' base : Store} {net : Int} {live : Prop}
  {f : FundingSource}

theorem reserve_ok {target : Int} (h : reserve env s target st = (.ok (), s', st')) :
    (s' = s ∧ st' = st) ∨ ∃ delta funding st1, 0 < delta ∧ s.settled = false ∧ s.refunded = false ∧
      reserveFunding env s delta st = .ok (funding, st1) ∧ st' = chargeToken s.relayInfo delta st1 ∧
      s' = syncRelayInfo { s with
        funding := funding, preConsumedQuota := s.preConsumedQuota+delta
        tokenConsumed := s.tokenConsumed+delta, extraReserved := s.extraReserved+delta } := by
  unfold reserve at h
  split at h
  · cases h
    exact .inl ⟨rfl, rfl⟩
  · next hguard =>
    simp only [not_or, Bool.not_eq_true, not_le] at hguard
    obtain ⟨hset, href, _, hlt⟩ := hguard
    have hd : 0 < target-s.preConsumedQuota := by omega
    dsimp only at h
    generalize target-s.preConsumedQuota = delta at h hd
    right
    split at h
    · cases h
    · next funding st1 hres =>
      split at h
      · cases h
      · next st2 htok =>
        cases h
        refine ⟨delta, funding, st1, hd, hset, href, hres, ?_, rfl⟩
        unfold reserveToken at htok
        split at htok
        -- The delta is positive, so only a playground request goes without the token.
        · next hp =>
          cases htok
          have hplay : s.relayInfo.isPlayground = true := by
            rcases hp with hle | hp
            · omega
            · exact hp
          simp [chargeToken, hplay]
        · split at htok
          · cases htok
          · next hpre =>
            cases htok
            exact preConsumeTokenQuota_ok hpre

theorem settle_ok {actualQuota : Int} (hset : s.settled = false) (hfs : s.fundingSettled = false)
    (h : settle env s actualQuota st = (.ok (), s', st')) : (∃ committed postDelta, s' = { s with
        settled := true, fundingSettled := committed
        relayInfo := { s.relayInfo with subscriptionPostDelta := postDelta } }) ∧
      ∃ st1, (actualQuota = s.preConsumedQuota ∧ st1 = st ∨ actualQuota ≠ s.preConsumedQuota ∧
          s.funding.settle env (actualQuota-s.preConsumedQuota) st = .ok st1) ∧
        st' = chargeToken s.relayInfo (actualQuota-s.preConsumedQuota) st1 := by
  simp only [settle, hset, hfs, Bool.false_eq_true, if_false] at h
  by_cases hd : actualQuota-s.preConsumedQuota = 0
  · rw [if_pos hd] at h
    cases h
    refine ⟨⟨false, _, by rw [← hfs]⟩, st, .inl ⟨by omega, rfl⟩, ?_⟩
    rw [hd, chargeToken_zero]
  · rw [if_neg hd] at h
    split at h
    · cases h
    · next st1 hst1 =>
      -- The log of the difference is of no concern to the balances.
      obtain ⟨postDelta, hinfo⟩ := addPostDelta_eq s.funding (actualQuota-s.preConsumedQuota) s.relayInfo
      rw [hinfo] at h
      split at h
      · cases h
      · next htok =>
        cases h
        exact ⟨⟨true, postDelta, rfl⟩, st1, .inr ⟨by omega, hst1⟩, adjustToken_ok htok⟩

theorem settle_error {actualQuota : Int} {e : String}
    (hf : env.fails = never) (hset : s.settled = false) (hfs : s.fundingSettled = false)
    (h : settle env s actualQuota st = (.error e, s', st')) : s' = s ∧ st' = st := by
  simp only [settle, hset, hfs, Bool.false_eq_true, if_false] at h
  by_cases hd : actualQuota-s.preConsumedQuota = 0
  · rw [if_pos hd] at h
    cases h
  · rw [if_neg hd] at h
    split at h
    · cases h
      exact ⟨rfl, rfl⟩
    · split at h
      · next htok =>
        -- The token cannot refuse without a storage failure.
        rw [adjustToken_never hf] at htok
        cases htok
      · cases h

def jobOf (s : BillingSession) : RefundJob :=
  ⟨s.relayInfo.tokenId, s.relayInfo.isPlayground, s.tokenConsumed, s.extraReserved, s.relayInfo.subscriptionId⟩

theorem refund_eq (s : BillingSession) :
    refund s = if needsRefund s then ({ s with refunded := true }, some (jobOf s)) else (s, none) := by
  unfold refund
  cases hn : needsRefund s with
  | false => simp
  | true =>
    have hfree : ¬ (s.settled = true ∨ s.refunded = true ∨ s.fundingSettled = true) := by
      intro h
      simp [needsRefund, h] at hn
    rw [if_neg (by simp_all), if_pos rfl]
    rfl

def FundingSource.balance (st : Store) : FundingSource → Int
  | .wallet w => st.userQuota w.userId
  | .subscription f => -st.used f.subscriptionId

/-- The state of the subscription that a session draws from. `live` says that its
pre-consume record has not been refunded. -/
structure SubscriptionHolds (base : Store) (f : SubscriptionFunding) (s : BillingSession) (st : Store)
    (net : Int) (live : Prop) : Prop where
  funding : s.funding = .subscription f
  id : s.relayInfo.subscriptionId = f.subscriptionId
  id_pos : 0 < f.subscriptionId
  held : 0 < f.preConsumed
  extra : 0 ≤ s.extraReserved
  total : s.preConsumedQuota = f.preConsumed+s.extraReserved
  named : trimSpace f.requestId ≠ ""
  start : 0 ≤ base.used f.subscriptionId
  row : ∃ sub, st.sub.subs.find f.subscriptionId = some sub ∧
    sub.amountUsed = base.used f.subscriptionId-net ∧ 0 ≤ sub.amountUsed ∧
    (0 < sub.amountTotal → sub.amountUsed ≤ sub.amountTotal)
  record : live → st.sub.records.find f.requestId =
    some ⟨f.requestId, f.userId, f.subscriptionId, f.preConsumed, .consumed⟩

/-- The funding source `f` of the opened session has moved by `net` since `base`. -/
def FundingHolds (base : Store) (s : BillingSession) (st : Store) (net : Int) (live : Prop) :
    FundingSource → Prop
  | .wallet w => s.funding = .wallet { w with consumed := s.preConsumedQuota } ∧
      st.userQuota w.userId = base.userQuota w.userId+net
  | .subscription f => SubscriptionHolds base f s st net live

section
variable (h : FundingHolds base s st net live f)
include h

theorem FundingHolds.congr {live' : Prop} (hf : s'.funding = s.funding)
    (hp : s'.preConsumedQuota = s.preConsumedQuota) (he : s'.extraReserved = s.extraReserved)
    (hi : s'.relayInfo.subscriptionId = s.relayInfo.subscriptionId) (hu : st'.userQuota = st.userQuota)
    (hs : st'.sub = st.sub) (hl : live' → live) : FundingHolds base s' st' net live' f := by
  cases f with
  | wallet => exact ⟨by rw [hf, hp]; exact h.1, by rw [hu]; exact h.2⟩
  | subscription f =>
    have h : SubscriptionHolds base f s st net live := h
    exact ⟨hf.trans h.funding, hi.trans h.id, h.id_pos, h.held, he ▸ h.extra, by rw [hp, he]; exact h.total,
      h.named, h.start, by rw [hs]; exact h.row, fun hv => by rw [hs]; exact h.record (hl hv)⟩

theorem FundingHolds.used_eq (g : SubscriptionFunding) (hg : s.funding = .subscription g) :
    0 ≤ st.used g.subscriptionId ∧
      0 ≤ base.used g.subscriptionId ∧ st.used g.subscriptionId = base.used g.subscriptionId-net := by
  cases f with
  | wallet => exact absurd (h.1.symm.trans hg) (by simp)
  | subscription f =>
    have h : SubscriptionHolds base f s st net live := h
    obtain ⟨_, hsub, hused, hpos, _⟩ := h.row
    have hfg : f = g := by simpa using h.funding.symm.trans hg
    rw [← hfg, Billing.used_eq hsub]
    exact ⟨hpos, h.start, hused⟩

theorem FundingHolds.balance_sub : f.balance st-f.balance base = net := by
  cases f with
  | wallet =>
    have hq := h.2
    simp only [FundingSource.balance]
    omega
  | subscription =>
    obtain ⟨sub, hsub, hused, _⟩ := SubscriptionHolds.row h
    simp only [FundingSource.balance, Billing.used_eq hsub]
    omega

end

theorem SubscriptionHolds.delta {f : SubscriptionFunding}
    {delta : Int} (h : SubscriptionHolds base f s st net live) {site : Site}
    (hd : delta ≠ 0) (hnn : 0 ≤ base.used f.subscriptionId-net+delta)
    (hok : postConsumeDelta env site f.subscriptionId delta st = .ok st') :
    SubscriptionHolds base f s st' (net-delta) live ∧ st'.tokenQuota = st.tokenQuota := by
  obtain ⟨sub, hsub, hused, hpos, _⟩ := h.row
  obtain ⟨sub', hsub', hlim, rfl⟩ := postConsumeDelta_ok hok hd
  have hsame : sub' = sub := by simpa using hsub'.symm.trans hsub
  subst hsame
  -- The used amount stays non-negative, so the floor at zero does not act.
  have hclamp : clampUsed sub'.amountUsed delta = sub'.amountUsed+delta := if_neg (by omega)
  rw [hclamp] at hlim ⊢
  have hkey := Table.find_key st.sub.subs hsub
  refine ⟨{ h with row := ?_, record := h.record }, rfl⟩
  refine ⟨{ sub' with amountUsed := sub'.amountUsed+delta }, ?_, ?_, ?_, hlim⟩
  · exact Table.find_save_of_key st.sub.subs hkey hsub
  · change sub'.amountUsed+delta = _
    omega
  · change 0 ≤ sub'.amountUsed+delta
    omega

theorem FundingHolds.reserve {st1 : Store} {delta : Int}
    {funding : FundingSource} (h : FundingHolds base s st net live f) (hd : 0 < delta) (hnet : net ≤ 0)
    (hok : reserveFunding env s delta st = .ok (funding, st1)) (consumed : Int) :
    FundingHolds base (syncRelayInfo { s with
      funding := funding, preConsumedQuota := s.preConsumedQuota+delta
      tokenConsumed := consumed, extraReserved := s.extraReserved+delta }) st1 (net-delta) live f ∧
      st1.tokenQuota = st.tokenQuota := by
  cases f with
  | wallet =>
    obtain ⟨hw, hq⟩ := h
    simp only [reserveFunding, hw] at hok
    split at hok
    · cases hok
    · next hdec =>
      cases hok
      obtain ⟨_, rfl⟩ := changeQuota_ok hdec
      refine ⟨⟨rfl, ?_⟩, rfl⟩
      rw [addUser_userQuota, hq]
      omega
  | subscription f =>
    have h : SubscriptionHolds base f s st net live := h
    simp only [reserveFunding, h.funding] at hok
    split at hok
    · cases hok
    · next hdelta =>
      cases hok
      have hstart := h.start
      obtain ⟨h', htok⟩ := h.delta (by omega) (by omega) hdelta
      refine ⟨⟨rfl, rfl, h'.id_pos, h'.held, ?_, ?_, h'.named, h'.start, h'.row, h'.record⟩, htok⟩
      · have := h'.extra
        change 0 ≤ s.extraReserved+delta
        omega
      · have := h'.total
        change s.preConsumedQuota+delta = f.preConsumed+(s.extraReserved+delta)
        omega

theorem FundingHolds.settle {st1 : Store} {delta : Int} (h : FundingHolds base s st net live f)
    (hd : delta ≠ 0) (hnn : ∀ f, s.funding = .subscription f → 0 ≤ st.used f.subscriptionId+delta)
    (hok : s.funding.settle env delta st = .ok st1) :
    FundingHolds base s st1 (net-delta) live f ∧ st1.tokenQuota = st.tokenQuota := by
  cases f with
  | wallet =>
    obtain ⟨hw, hq⟩ := h
    rw [hw] at hok
    simp only [FundingSource.settle, if_neg hd] at hok
    have hst := adjustUser_ok hok
    subst hst
    refine ⟨⟨hw, ?_⟩, rfl⟩
    rw [addUser_userQuota, hq]
    omega
  | subscription f =>
    have h : SubscriptionHolds base f s st net live := h
    rw [h.funding] at hok
    simp only [FundingSource.settle, if_neg hd] at hok
    obtain ⟨sub, hsub, hused, _, _⟩ := h.row
    have hpos := hnn f h.funding
    rw [Billing.used_eq hsub] at hpos
    exact h.delta hd (by omega) hok

theorem SubscriptionHolds.refund {f : SubscriptionFunding}
    (h : SubscriptionHolds base f s st net True) (hf : env.fails = never) (hnet : net ≤ -f.preConsumed) :
    SubscriptionHolds base f s (FundingSource.refund env st (.subscription f)) (net+f.preConsumed) False ∧
      (FundingSource.refund env st (.subscription f)).tokenQuota = st.tokenQuota := by
  obtain ⟨sub, hsub, hused, hpos, hlim⟩ := h.row
  have hheld := h.held
  have hstart := h.start
  have hplan (i : ℕ) : (fun t => env.fails (.sub (.refund i) t)) = never := by
    rw [hf]
    rfl
  -- The delta of the refund goes through: it only lowers the used amount.
  obtain ⟨st1, hst1⟩ : ∃ st1, postConsumeDelta env (.refund 0) f.subscriptionId (-f.preConsumed) st =
    .ok st1 := by
    rw [postConsumeDelta_eq hf h.id_pos hsub (by omega) (by omega), if_neg (by omega)]
    exact ⟨_, rfl⟩
  obtain ⟨db1, hdb1, hst⟩ := bind_eq_ok hst1
  obtain ⟨h1, htok⟩ := h.delta (by omega) (by omega) hst1
  cases hst
  have hrefund : FundingSource.refund env st (.subscription f) = { st with sub := { db1 with
          records := db1.records.save ⟨f.requestId, f.userId, f.subscriptionId, f.preConsumed, .refunded⟩ } } := by
    simp only [FundingSource.refund, if_neg (show ¬ f.preConsumed ≤ 0 by omega)]
    rw [hplan] at hdb1
    -- The first attempt succeeds, so there is no second one.
    rw [refundWithRetry_first (by
      rw [hplan]
      exact refundSubscriptionPreConsume_never h.named (h.record trivial) rfl hheld hdb1)]
  rw [hrefund]
  have hn : net- -f.preConsumed = net+f.preConsumed := by omega
  rw [hn] at h1
  exact ⟨{ h1 with row := h1.row, record := fun hl => hl.elim }, rfl⟩

theorem FundingHolds.refund (h : FundingHolds base s st (-s.preConsumedQuota) True f) (hf : env.fails = never)
    (hpre : 0 ≤ s.preConsumedQuota) :
    FundingHolds base s (refundExtra env s.funding (jobOf s) (s.funding.refund env st)) 0 False f ∧
      (refundExtra env s.funding (jobOf s) (s.funding.refund env st)).tokenQuota = st.tokenQuota := by
  cases f with
  | wallet w =>
    obtain ⟨hw, hq⟩ := h
    -- For a wallet the reserved part is in `consumed` already.
    have hextra : refundExtra env s.funding (jobOf s) (s.funding.refund env st) = s.funding.refund env st := by
      rw [hw]
      simp [refundExtra, FundingSource.source]
    rw [hextra, hw]
    simp only [FundingSource.refund]
    split
    · exact ⟨⟨hw, by omega⟩, rfl⟩
    · rw [increaseUserQuota, changeQuota_eq (by rw [hf]; rfl) hpre]
      refine ⟨⟨hw, ?_⟩, rfl⟩
      change (st.addUser w.userId s.preConsumedQuota).userQuota w.userId = _
      rw [addUser_userQuota, hq]
      omega
  | subscription f =>
    have h : SubscriptionHolds base f s st (-s.preConsumedQuota) True := h
    have htotal := h.total
    have hextra := h.extra
    have hstart := h.start
    obtain ⟨h1, htok1⟩ := h.refund hf (by omega)
    rw [h.funding]
    generalize FundingSource.refund env st (.subscription f) = st1 at h1 htok1 ⊢
    simp only [refundExtra, jobOf, h.id, FundingSource.source, h.id_pos, and_true]
    -- What was reserved on top comes back in a delta of its own.
    by_cases hx : 0 < s.extraReserved
    · rw [if_pos hx]
      obtain ⟨sub, hsub, hused, hpos, hlim⟩ := h1.row
      obtain ⟨st2, hst2⟩ : ∃ st2,
          postConsumeDelta env .refundExtra f.subscriptionId (-s.extraReserved) st1 = .ok st2 := by
        rw [postConsumeDelta_eq hf h.id_pos hsub (by omega) (by omega), if_neg (by omega)]
        exact ⟨_, rfl⟩
      obtain ⟨h2, htok2⟩ := h1.delta (by omega) (by omega) hst2
      rw [hst2]
      have hn : -s.preConsumedQuota+f.preConsumed- -s.extraReserved = 0 := by omega
      rw [hn] at h2
      exact ⟨h2, htok2.trans htok1⟩
    · rw [if_neg hx]
      have hn : -s.preConsumedQuota+f.preConsumed = 0 := by omega
      rw [hn] at h1
      exact ⟨h1, htok1⟩

end AiGateway.Billing
