import AiGateway.BillingStore

/-! Opening a session and reserving more are all-or-nothing. -/
namespace AiGateway.Billing
open Subscription GoText Fault

variable {env : Env} {s : BillingSession} {quota : Int} {st st' : Store} {info : RelayInfo}

section
variable (hc : env.CompensationsSucceed)
include hc

theorem rollbackToken_cancel (src : BillingSource) (hq : 0 < quota) : rollbackToken env src info quota
      (if info.isPlayground then st else st.addToken info.tokenId (-quota)) = st := by
  by_cases hp : info.isPlayground = true
  · simp [rollbackToken, hp]
  · have hp' : info.isPlayground = false := by simpa using hp
    simp only [rollbackToken, hq, hp', Bool.not_false, and_self, if_true, Bool.false_eq_true, if_false,
      increaseTokenQuota, changeQuota_eq (hc.token src) hq.le]
    exact addToken_cancel

variable {e : ApiError}

theorem preConsume_error (h : preConsume env s quota st = (.error e, st')) : st' = st := by
  unfold preConsume at h
  dsimp only at h
  split at h
  · cases h
    rfl
  · next st1 hcharge =>
    split at h
    · cases h
      -- Only a positive quota was taken from the token, and that much is given back.
      by_cases hq : 0 < (if shouldTrust env s = true then 0 else quota)
      · rw [if_pos hq] at hcharge ⊢
        rw [preConsumeTokenQuota_ok hcharge]
        exact rollbackToken_cancel hc _ hq
      · rw [if_neg hq] at hcharge ⊢
        cases hcharge
        rfl
    · cases h

theorem tryWallet_error (h : tryWallet env info quota st = (.error e, st')) : st' = st := by
  unfold tryWallet at h
  repeat' split at h
  case isFalse => exact preConsume_error hc h
  all_goals
    cases h
    rfl

theorem trySubscription_error (h : trySubscription env info quota st = (.error e, st')) : st' = st :=
  preConsume_error hc h

end

/-- The outcome of opening a session: an error that leaves the balances as they were,
or the session of one attempt made on the original balances. -/
def OneAttempt (env : Env) (info : RelayInfo) (quota : Int) (st : Store)
    (r : Except ApiError BillingSession) (st' : Store) : Prop :=
  ((∃ e, r = .error e) ∧ st' = st) ∨ (∃ s, r = .ok s ∧ (tryWallet env info quota st = (.ok s, st') ∨
      trySubscription env info quota st = (.ok s, st')))

/-- A failed attempt before the last one leaves no trace, in either order of the two. -/
theorem newBillingSession_one_attempt (hc : env.CompensationsSucceed) {r : Except ApiError BillingSession}
    (h : newBillingSession env info quota st = (r, st')) : OneAttempt env info quota st r st' := by
  have wallet (h : tryWallet env info quota st = (r, st')) : OneAttempt env info quota st r st' := by
    cases r with
    | error e => exact .inl ⟨⟨e, rfl⟩, tryWallet_error hc h⟩
    | ok s => exact .inr ⟨s, rfl, .inl h⟩
  have subscription (h : trySubscription env info quota st = (r, st')) :
      OneAttempt env info quota st r st' := by
    cases r with
    | error e => exact .inl ⟨⟨e, rfl⟩, trySubscription_error hc h⟩
    | ok s => exact .inr ⟨s, rfl, .inr h⟩
  have failed (e : ApiError) (h : ((.error e, st) : Except ApiError BillingSession × Store) = (r, st')) :
      OneAttempt env info quota st r st' := by
    cases h
    exact .inl ⟨⟨e, rfl⟩, rfl⟩
  -- The four preferences. In the two with a fallback the first attempt has failed and has
  -- left the store alone, so the second one starts from where the first did.
  unfold newBillingSession at h
  split at h
  · exact subscription h
  · exact wallet h
  · split at h
    · next s st1 hw => cases h; exact .inr ⟨s, rfl, .inl hw⟩
    · next e st1 hw =>
      have hst := tryWallet_error hc hw
      subst hst
      split at h
      · exact subscription h
      · exact failed e h
  · split at h
    · exact failed _ h
    · exact wallet h
    · split at h
      · next s st1 hs => cases h; exact .inr ⟨s, rfl, .inr hs⟩
      · next e st1 hs =>
        have hst := trySubscription_error hc hs
        subst hst
        split at h
        · exact failed e h
        · split at h
          · exact failed _ h
          · exact wallet h
          · exact failed e h

def openedSession (info : RelayInfo) (funding : FundingSource) (preConsumed held : Int) (trusted : Bool) :
    BillingSession :=
  syncRelayInfo { relayInfo := info, funding := funding, preConsumedQuota := preConsumed
                  tokenConsumed := held, trusted := trusted }

theorem preConsume_ok {funding : FundingSource}
    (h : preConsume env { relayInfo := info, funding := funding } quota st = (.ok s, st')) :
    ∃ trusted funding' , let effective := if trusted then 0 else quota
      trusted = shouldTrust env { relayInfo := info, funding := funding } ∧
      s = openedSession info funding' effective (max effective 0) trusted ∧
      funding.preConsume env effective (chargeToken info (max effective 0) st) = .ok (funding', st') := by
  unfold preConsume at h
  dsimp only at h
  split at h
  · cases h
  · next st1 hcharge =>
    split at h
    · cases h
    · next funding' st2 hfund =>
      cases h
      refine ⟨_, funding', rfl, ?_, ?_⟩
      · unfold openedSession
        congr 2
        split <;> omega
      · generalize (if shouldTrust env { relayInfo := info, funding := funding } = true then 0 else quota) =
          effective at hcharge hfund ⊢
        have hst : chargeToken info (max effective 0) st = st1 := by
          by_cases hq : 0 < effective
          · rw [if_pos hq] at hcharge
            rw [preConsumeTokenQuota_ok hcharge, max_eq_left hq.le]
            rfl
          · rw [if_neg hq] at hcharge
            cases hcharge
            rw [max_eq_right (by omega), chargeToken_zero]
        rw [hst]
        exact hfund

/-- One funding source and the token are charged the same amount, the amount the session
remembers as consumed. -/
structure ChargedOnce (env : Env) (info : RelayInfo) (quota : Int) (s : BillingSession)
    (st st' : Store) : Prop where
  token : st'.tokenQuota = (chargeToken info s.tokenConsumed st).tokenQuota
  wallet : ∀ w, s.funding = .wallet w →
    s.tokenConsumed = (if s.trusted then 0 else max quota 0) ∧ w.consumed = s.tokenConsumed ∧
    st'.userQuota = (st.addUser info.userId (-s.tokenConsumed)).userQuota ∧ st'.sub = st.sub
  subscription : ∀ f, s.funding = .subscription f →
    s.tokenConsumed = (if quota ≤ 0 then 1 else quota) ∧ f.preConsumed = s.tokenConsumed ∧
    st'.userQuota = st.userQuota ∧
    ∃ c ∈ candidates st.sub info.userId env.now, c.id = f.subscriptionId ∧
      Charged env.cfg env.now info.requestId info.userId s.tokenConsumed
        (candidates st.sub info.userId env.now) c st.sub st'.sub

section
variable (info : RelayInfo) (f : FundingSource) (p h : Int)
include h

@[simp] theorem openedSession_funding (t : Bool) : (openedSession info f p h t).funding = f := by
  cases f <;> rfl

@[simp] theorem openedSession_tokenConsumed (t : Bool) :
    (openedSession info f p h t).tokenConsumed = h := by
  cases f <;> rfl

@[simp] theorem openedSession_trusted (t : Bool) : (openedSession info f p h t).trusted = t := by
  cases f <;> rfl

end

theorem tryWallet_ok {env : Env} {info : RelayInfo} {quota : Int} {st st' : Store} {s : BillingSession}
    (h : tryWallet env info quota st = (.ok s, st')) :
    ∃ userQuota trusted, let effective := if trusted then 0 else quota
      let held := max effective 0
      s = openedSession { info with userQuota := userQuota }
        (.wallet { userId := info.userId, consumed := held }) effective held trusted ∧
      st' = (chargeToken info held st).addUser info.userId (-held) := by
  unfold tryWallet at h
  split at h
  · cases h
  · next userQuota _ =>
    split at h
    · cases h
    split at h
    · cases h
    obtain ⟨trusted, funding', _, hs, hfund⟩ := preConsume_ok h
    refine ⟨userQuota, trusted, ?_⟩
    dsimp only at hs hfund ⊢
    -- From here on it does not matter why this much is effective.
    generalize (if trusted = true then 0 else quota) = effective at hs hfund ⊢
    have hct : chargeToken { info with userQuota := userQuota } (max effective 0) st =
        chargeToken info (max effective 0) st := rfl
    rw [hct] at hfund
    simp only [FundingSource.preConsume] at hfund
    by_cases hq : effective ≤ 0
    · rw [if_pos hq] at hfund
      cases hfund
      rw [max_eq_right hq] at hs ⊢
      exact ⟨hs, by rw [Int.neg_zero, addUser_zero]⟩
    · rw [if_neg hq] at hfund
      obtain ⟨st2, hdec, hfund⟩ := bind_eq_ok hfund
      cases hfund
      have hm : max effective 0 = effective := max_eq_left (by omega)
      rw [hm] at hs hdec ⊢
      exact ⟨hs, (changeQuota_ok hdec).2⟩

theorem trySubscription_ok (hn : st.sub.records.find info.requestId = none)
    (h : trySubscription env info quota st = (.ok s, st')) :
    let held := if quota ≤ 0 then 1 else quota
    ∃ c ∈ candidates st.sub info.userId env.now,
      Charged env.cfg env.now info.requestId info.userId held (candidates st.sub info.userId env.now)
        c st.sub st'.sub ∧
      s = openedSession info (.subscription
        { requestId := info.requestId, userId := info.userId, amount := held
          subscriptionId := c.id, preConsumed := held, amountTotal := c.amountTotal
          amountUsedAfter := (resetRow env.cfg env.now c).amountUsed+held }) held held false ∧
      st' = { chargeToken info held st with sub := st'.sub } ∧ trimSpace info.requestId ≠ "" := by
  unfold trySubscription at h
  dsimp only at h ⊢
  -- The amount is positive even for a free request.
  have hpos : 0 < (if quota ≤ 0 then 1 else quota) := by split <;> omega
  generalize (if quota ≤ 0 then 1 else quota) = held at h hpos ⊢
  obtain ⟨trusted, _, ht, hs, hfund⟩ := preConsume_ok h
  -- A subscription is never trusted, so the whole amount is effective.
  have htrust : trusted = false := by
    rw [ht]
    unfold shouldTrust
    split
    · rfl
    split
    · rfl
    split <;> rfl
  rw [htrust] at hs hfund
  simp only [Bool.false_eq_true, if_false, max_eq_left hpos.le] at hs hfund
  simp only [FundingSource.preConsume] at hfund
  obtain ⟨⟨_, _⟩, hpre, hfund⟩ := bind_eq_ok hfund
  rw [chargeToken_sub] at hpre
  obtain ⟨c, hc, hch, hres⟩ := preConsume_fresh hn hpre
  cases hfund
  refine ⟨c, hc, hch, ?_, rfl, (Subscription.preConsume_ok hpre).1⟩
  rw [hs, hres]

theorem reserve_error (hc : env.CompensationsSucceed) {s' : BillingSession} {target : Int}
    {e : ApiError} (hnn : ∀ f, s.funding = .subscription f → 0 ≤ st.used f.subscriptionId)
    (h : reserve env s target st = (.error e, s', st')) : s' = s ∧ st' = st := by
  unfold reserve at h
  split at h
  · cases h
  · next hguard =>
    dsimp only at h
    have hd : 0 < target-s.preConsumedQuota := by
      by_contra hle
      exact hguard (.inr (.inr (.inr (by omega))))
    generalize target-s.preConsumedQuota = delta at h hd
    split at h
    · cases h
      exact ⟨rfl, rfl⟩
    · next funding st1 hres =>
      split at h
      · cases h
        -- The token has refused; each kind of funding gives its delta back.
        unfold reserveFunding at hres
        split at hres <;> split at hres <;> cases hres
        · next w hw _ hdec =>
          obtain ⟨hq, rfl⟩ := changeQuota_ok hdec
          simp only [rollbackFundingReserve, increaseUserQuota, changeQuota_eq hc.user hq]
          refine ⟨?_, addUser_cancel⟩
          rw [Int.add_sub_cancel, ← hw]
        · next f hf _ hdelta =>
          simp only [rollbackFundingReserve, postConsumeDelta_cancel hc hd (hnn f hf) hdelta]
          rw [← hf]
          exact ⟨rfl, trivial⟩
      · cases h

/-- Opening a session is all-or-nothing in every order of attempts, a success charges one
funding source and the token alike, and a reservation that fails changes nothing. -/
theorem billing_all_or_nothing (env : Env) (hc : env.CompensationsSucceed) (info : RelayInfo) (quota : Int)
    (st : Store) : (∀ e st', newBillingSession env info quota st = (.error e, st') → st' = st) ∧
    (∀ s st', newBillingSession env info quota st = (.ok s, st') →
      st.sub.records.find info.requestId = none → ChargedOnce env info quota s st st') ∧
    (∀ s target e s' st', NonNegative st.sub → reserve env s target st = (.error e, s', st') → s' = s ∧
      st' = st) := by
  refine ⟨?_, ?_, fun s target e s' st' hnn h => reserve_error hc (fun f _ => used_nonneg hnn) h⟩
  · intro e st' h
    rcases newBillingSession_one_attempt hc h with ⟨_, hst⟩ | ⟨s, hs, _⟩
    · exact hst
    · cases hs
  · intro s st' h hn
    rcases newBillingSession_one_attempt hc h with ⟨⟨_, he⟩, _⟩ | ⟨_, hs, hw | hsub⟩
    · cases he
    · cases hs
      obtain ⟨_, trusted, hsess, hst⟩ := tryWallet_ok hw
      subst hsess hst
      refine ⟨by simp [Store.addUser], ?_, ?_⟩
      · intro w hwf
        simp only [openedSession_funding, FundingSource.wallet.injEq] at hwf
        subst hwf
        refine ⟨?_, by simp, by simp [Store.addUser], by simp [Store.addUser]⟩
        cases trusted <;> simp
      · intro f hf
        simp at hf
    · cases hs
      obtain ⟨c, hc, hch, hsess, hst, _⟩ := trySubscription_ok hn hsub
      subst hsess
      refine ⟨by rw [hst]; simp, ?_, ?_⟩
      · intro w hwf
        simp at hwf
      · intro f hf
        simp only [openedSession_funding, FundingSource.subscription.injEq] at hf
        subst hf
        refine ⟨by simp, by simp, by rw [hst]; simp, c, hc, rfl, by simpa using hch⟩

theorem billing_all_or_nothing_sample : (newBillingSession { sampleEnv with fails := failAt (.user (.opening .wallet)) }
      { sampleInfo with billingPreference := "wallet_only" } 10 sampleStore).2 = sampleStore ∧
    (∃ s st', newBillingSession sampleEnv sampleInfo 10 sampleStore = (.ok s, st') ∧
      ChargedOnce sampleEnv sampleInfo 10 s sampleStore st') ∧ (∃ e s', reserve sampleEnv
      { relayInfo := sampleInfo, funding := .subscription { sampleFunding with subscriptionId := 1 } } 60
      (sampleStore.addToken 1 (-970)) = (.error e, s', sampleStore.addToken 1 (-970))) := by
  have hc : sampleEnv.CompensationsSucceed := ⟨fun _ => rfl, rfl, fun _ => rfl⟩
  have hc' : ({ sampleEnv with fails := failAt (.user (.opening .wallet)) } : Env).CompensationsSucceed :=
    ⟨fun _ => rfl, rfl, fun _ => rfl⟩
  refine ⟨?_, ⟨_, _, rfl, (billing_all_or_nothing sampleEnv hc sampleInfo 10 sampleStore).2.1 _ _ rfl rfl⟩, ?_⟩
  · exact (billing_all_or_nothing _ hc' { sampleInfo with billingPreference := "wallet_only" } 10
      sampleStore).1 _ _ rfl
  · have h := (billing_all_or_nothing sampleEnv hc sampleInfo 10 (sampleStore.addToken 1 (-970))).2.2
      { relayInfo := sampleInfo, funding := .subscription { sampleFunding with subscriptionId := 1 } } 60
      _ _ _ (by decide) rfl
    exact ⟨_, _, Prod.ext rfl (Prod.ext rfl h.2)⟩

end AiGateway.Billing
