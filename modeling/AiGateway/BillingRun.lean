import AiGateway.BillingFunding
import AiGateway.BillingOpen
import AiGateway.Run

/-! What a session has taken in total, over every sequence of calls on it. -/
namespace AiGateway.Billing
open Subscription GoText Fault Run

inductive Outcome
  | pending | settled (actualQuota : Int) | refunded
deriving DecidableEq

/-- A session under use. `job` is the goroutine of a refund that has not run yet, and
`outcome` records which call took effect first. -/
structure SessionState where
  session : BillingSession
  store : Store
  job : Option RefundJob
  outcome : Outcome

inductive Action
  | reserve (targetQuota : Int) | settle (actualQuota : Int) | refund | background
deriving DecidableEq

structure Call where
  env : Env
  action : Action

def opened (s : BillingSession) (st : Store) : SessionState := ⟨s, st, none, .pending⟩

/-- A settlement that returns without an error takes effect unless a call did before. -/
def Outcome.afterSettle (actualQuota : Int) (r : Except String Unit) : Outcome → Outcome
  -- A failed settlement may be tried again.
  | .pending => match r with
    | .ok _ => .settled actualQuota
    | .error _ => .pending
  | o => o

def Outcome.afterRefund : Outcome → Outcome
  | .pending => .refunded
  | o => o

def callStep (x : SessionState) (c : Call) : SessionState :=
  match c.action with
  | .reserve targetQuota =>
    let (_, s, st) := reserve c.env x.session targetQuota x.store
    { x with session := s, store := st }
  | .settle actualQuota =>
    let (r, s, st) := settle c.env x.session actualQuota x.store
    { x with session := s, store := st, outcome := x.outcome.afterSettle actualQuota r }
  | .refund =>
    -- The goroutine is only queued here; the balances move when it runs.
    match refund x.session with
    | (s, none) => { x with session := s }
    | (s, some job) => { x with session := s, job := some job, outcome := x.outcome.afterRefund }
  | .background =>
    match x.job with
    | none => x
    | some job => { x with store := runRefund c.env x.session.funding job x.store, job := none }

def SessionState.net (x : SessionState) : Int :=
  match x.outcome with
  | .pending => -x.session.preConsumedQuota
  | .settled actualQuota => -actualQuota
  -- Until the goroutine has run the amount is still held.
  | .refunded => if x.job.isSome then -x.session.preConsumedQuota else 0

/-- Every storage step succeeds, a settlement keeps the used amount above zero, and none
that moves a balance follows a refund. -/
structure CallOk (x : SessionState) (c : Call) : Prop where
  succeeds : c.env.fails = never
  unclamped : ∀ actualQuota f, c.action = .settle actualQuota → x.session.settled = false →
    x.session.funding = .subscription f →
    0 ≤ x.store.used f.subscriptionId+(actualQuota-x.session.preConsumedQuota)
  unrefunded : ∀ actualQuota, c.action = .settle actualQuota → x.session.settled = false →
    x.session.refunded = true → actualQuota = x.session.preConsumedQuota

def SessionState.Flags (x : SessionState) : Prop :=
  match x.outcome with
  | .pending => x.session.settled = false ∧ x.session.refunded = false ∧
      x.session.fundingSettled = false ∧ x.job = none
  | .settled _ => x.session.settled = true ∧ x.job = none
  | .refunded => x.session.refunded = true

structure Accounted (info : RelayInfo) (base : Store) (f : FundingSource) (x : SessionState) : Prop where
  tokenId : x.session.relayInfo.tokenId = info.tokenId
  playground : x.session.relayInfo.isPlayground = info.isPlayground
  nonneg : 0 ≤ x.session.preConsumedQuota
  consumed : x.session.tokenConsumed = x.session.preConsumedQuota
  flags : x.Flags
  -- The goroutine holds a copy of the amounts; no later call on the session changes them.
  job : ∀ j, x.job = some j → j = jobOf x.session
  token : x.store.tokenQuota info.tokenId = base.tokenQuota info.tokenId+(if info.isPlayground then 0 else x.net)
  funding : FundingHolds base x.session x.store x.net (x.job.isSome ∨ x.outcome = .pending) f

variable {env : Env} {info : RelayInfo}

theorem Env.compensations_of_never (hf : env.fails = never) : env.CompensationsSucceed := by
  constructor <;> intros <;> rw [hf] <;> rfl

variable {x : SessionState} {st st1 base : Store} {f : FundingSource} {quota : Int}
  {s : BillingSession}

theorem SessionState.net_of_pending (hout : x.outcome = .pending) : x.net = -x.session.preConsumedQuota := by
  simp only [SessionState.net, hout]

theorem Outcome.afterSettle_decided {o : Outcome} (ho : o ≠ .pending) (actualQuota : Int)
    (r : Except String Unit) : o.afterSettle actualQuota r = o := by
  cases o with
  | pending => exact absurd rfl ho
  | settled | refunded => rfl

namespace Accounted

variable {info : RelayInfo} {base : Store} {f : FundingSource} {x : SessionState}

section
variable (h : Accounted info base f x)
include h

theorem pending (hset : x.session.settled = false) (href : x.session.refunded = false) :
    x.outcome = .pending ∧ x.session.fundingSettled = false ∧ x.job = none := by
  have hflags := h.flags
  unfold SessionState.Flags at hflags
  split at hflags
  · next ho => exact ⟨ho, hflags.2.2.1, hflags.2.2.2⟩
  · simp [hset] at hflags
  · simp [href] at hflags

theorem decided (hdone : x.session.settled = true ∨ x.session.refunded = true) : x.outcome ≠ .pending := by
  intro hout
  have hflags := h.flags
  simp only [SessionState.Flags, hout] at hflags
  simp [hflags.1, hflags.2.1] at hdone

theorem token_charged (hst : st.tokenQuota = x.store.tokenQuota) (delta : Int) :
    (chargeToken x.session.relayInfo delta st).tokenQuota info.tokenId =
      base.tokenQuota info.tokenId+(if info.isPlayground then 0 else x.net-delta) := by
  exact chargeToken_net h.tokenId h.playground h.token hst

theorem reserve (hf : env.fails = never) (target : Int) :
    Accounted info base f (callStep x ⟨env, .reserve target⟩) := by
  simp only [callStep]
  rcases hr : Billing.reserve env x.session target x.store with ⟨r, s', st'⟩
  cases r with
  | error =>
    -- A failed reservation has undone what it took.
    obtain ⟨rfl, rfl⟩ := reserve_error (Env.compensations_of_never hf) (fun g hg => (h.funding.used_eq g hg).1) hr
    exact h
  | ok _ =>
    -- Either there was nothing to reserve or both parts were charged by `delta`.
    rcases reserve_ok hr with ⟨rfl, rfl⟩ | ⟨delta, funding, st1, hd, hset, href, hres, rfl, rfl⟩
    · exact h
    obtain ⟨hout, hfs, hjob⟩ := h.pending hset href
    have hnet := SessionState.net_of_pending hout
    have hnn := h.nonneg
    have hcons := h.consumed
    have hn : x.net-delta = -(x.session.preConsumedQuota+delta) := by omega
    obtain ⟨hfund, htok⟩ := h.funding.reserve hd (by omega) hres (x.session.tokenConsumed+delta)
    have htoken := h.token_charged htok delta
    rw [hn] at hfund htoken
    -- The copy of the amounts into the relay info leaves the session's own fields alone.
    obtain ⟨info', hs'⟩ := syncRelayInfo_eq { x.session with
      funding := funding, preConsumedQuota := x.session.preConsumedQuota+delta
      tokenConsumed := x.session.tokenConsumed+delta, extraReserved := x.session.extraReserved+delta }
    refine ⟨?_, ?_, ?_, ?_, ?_, ?_, ?_, ?_⟩
    · rw [syncRelayInfo_tokenId]
      exact h.tokenId
    · rw [syncRelayInfo_isPlayground]
      exact h.playground
    · rw [hs']
      change 0 ≤ x.session.preConsumedQuota+delta
      omega
    · rw [hs']
      change x.session.tokenConsumed+delta = x.session.preConsumedQuota+delta
      omega
    · simp only [SessionState.Flags, hout, hs']
      exact ⟨hset, href, hfs, hjob⟩
    · intro j hj
      rw [hjob] at hj
      cases hj
    · simp only [SessionState.net, hout, hs']
      exact htoken
    · simp only [SessionState.net, hout, hs'] at hfund ⊢
      exact hfund.congr rfl rfl rfl rfl (chargeToken_userQuota _ _) (chargeToken_sub _ _) (fun hl => hl)

end

variable {actualQuota : Int}

section
variable (h : Accounted info base f x)
include h

/-- A settlement after a refund, at exactly what was held, sets the flag only. -/
theorem settle_refunded (hset : x.session.settled = false) (href : x.session.refunded = true)
    (ha : actualQuota = x.session.preConsumedQuota) :
    Accounted info base f (callStep x ⟨env, .settle actualQuota⟩) := by
  have hd : actualQuota-x.session.preConsumedQuota = 0 := by omega
  have hne := h.decided (.inr href)
  simp only [callStep, Billing.settle, hset, Bool.false_eq_true, if_false, hd, if_true]
  rw [Outcome.afterSettle_decided hne]
  refine ⟨h.tokenId, h.playground, h.nonneg, h.consumed, ?_, h.job, h.token,
    h.funding.congr rfl rfl rfl rfl rfl rfl (fun hl => hl)⟩
  have hflags := h.flags
  simp only [SessionState.Flags] at hflags ⊢
  split at hflags
  · next ho => exact absurd ho hne
  · simp [hset] at hflags
  · exact href

theorem funding_settled (hok : CallOk x ⟨env, .settle actualQuota⟩) (hset : x.session.settled = false)
    (hout : x.outcome = .pending)
    (hst1 : actualQuota = x.session.preConsumedQuota ∧ st1 = x.store ∨
      actualQuota ≠ x.session.preConsumedQuota ∧
        x.session.funding.settle env (actualQuota-x.session.preConsumedQuota) x.store = .ok st1) :
    FundingHolds base x.session st1 (-actualQuota) True f ∧ st1.tokenQuota = x.store.tokenQuota := by
  have hfund := h.funding
  rw [SessionState.net_of_pending hout] at hfund
  rcases hst1 with ⟨ha, rfl⟩ | ⟨ha, hst1⟩
  · rw [ha]
    exact ⟨hfund.congr rfl rfl rfl rfl rfl rfl (fun _ => .inr hout), rfl⟩
  · have hn : -x.session.preConsumedQuota-(actualQuota-x.session.preConsumedQuota) = -actualQuota := by omega
    rw [← hn]
    obtain ⟨h', htok⟩ := hfund.settle (by omega) (fun g hg => hok.unclamped actualQuota g rfl hset hg) hst1
    exact ⟨h'.congr rfl rfl rfl rfl rfl rfl (fun _ => .inr hout), htok⟩

theorem settle (hok : CallOk x ⟨env, .settle actualQuota⟩) :
    Accounted info base f (callStep x ⟨env, .settle actualQuota⟩) := by
  by_cases hset : x.session.settled = true
  · -- A settled session answers at once.
    simp only [callStep, Billing.settle, if_pos hset]
    rw [Outcome.afterSettle_decided (h.decided (.inl hset))]
    exact h
  rw [Bool.not_eq_true] at hset
  by_cases href : x.session.refunded = true
  · exact h.settle_refunded hset href (hok.unrefunded actualQuota rfl hset href)
  rw [Bool.not_eq_true] at href
  obtain ⟨hout, hfs, hjob⟩ := h.pending hset href
  have hnet := SessionState.net_of_pending hout
  simp only [callStep]
  rcases hr : Billing.settle env x.session actualQuota x.store with ⟨r, s', st'⟩
  cases r with
  | error =>
    -- The funding source refused, before the token was touched.
    obtain ⟨rfl, rfl⟩ := settle_error hok.succeeds hset hfs hr
    rw [hout]
    change Accounted info base f { x with outcome := .pending }
    rw [← hout]
    exact h
  | ok _ =>
    obtain ⟨⟨committed, postDelta, rfl⟩, st1, hst1, rfl⟩ := settle_ok hset hfs hr
    obtain ⟨hfund, htok⟩ := h.funding_settled hok hset hout hst1
    have htoken := h.token_charged htok (actualQuota-x.session.preConsumedQuota)
    have hn : x.net-(actualQuota-x.session.preConsumedQuota) = -actualQuota := by omega
    rw [hn] at htoken
    rw [hout]
    refine ⟨h.tokenId, h.playground, h.nonneg, h.consumed, ⟨rfl, hjob⟩, ?_, htoken, ?_⟩
    · intro j hj
      rw [hjob] at hj
      cases hj
    · exact hfund.congr rfl rfl rfl rfl (chargeToken_userQuota _ _) (chargeToken_sub _ _) (fun _ => trivial)

theorem refund (env : Env) : Accounted info base f (callStep x ⟨env, .refund⟩) := by
  simp only [callStep, refund_eq]
  cases hneed : needsRefund x.session with
  | false => exact h
  | true =>
    -- `needsRefund` is false as soon as a flag is set.
    have hfree : x.session.settled = false ∧ x.session.refunded = false := by
      rw [needsRefund] at hneed
      split at hneed
      · cases hneed
      · next hguard =>
        simp only [not_or, Bool.not_eq_true] at hguard
        exact ⟨hguard.1, hguard.2.1⟩
    obtain ⟨hout, _⟩ := h.pending hfree.1 hfree.2
    have htoken := h.token
    have hfund := h.funding
    rw [SessionState.net_of_pending hout] at htoken hfund
    simp only [if_true, hout]
    refine ⟨h.tokenId, h.playground, h.nonneg, h.consumed, rfl, ?_, htoken, ?_⟩
    · intro j hj
      cases hj
      rfl
    · exact hfund.congr rfl rfl rfl rfl rfl rfl (fun _ => .inr hout)

theorem outcome_of_job {j : RefundJob} (hjob : x.job = some j) : x.outcome = .refunded := by
  have hflags := h.flags
  simp only [SessionState.Flags, hjob] at hflags
  split at hflags
  · exact absurd hflags.2.2.2 (by simp)
  · exact absurd hflags.2 (by simp)
  · assumption

theorem refundToken_eq (hf : env.fails = never) :
    refundToken env (jobOf x.session) st1 = chargeToken x.session.relayInfo (-x.session.preConsumedQuota) st1 := by
  have hfree : env.fails (.token (.refund 0)) = none := by
    rw [hf]
    rfl
  have hnn := h.nonneg
  simp only [refundToken, jobOf, h.consumed, chargeToken]
  by_cases hp : x.session.relayInfo.isPlayground = true
  · simp [hp]
  by_cases hz : 0 < x.session.preConsumedQuota
  · simp [hp, hz, increaseTokenQuota, changeQuota_eq hfree hz.le]
  · have hzero : x.session.preConsumedQuota = 0 := by omega
    simp [hp, hzero, Store.addToken]

theorem background (hf : env.fails = never) : Accounted info base f (callStep x ⟨env, .background⟩) := by
  cases hjob : x.job with
  | none =>
    have hsame : callStep x ⟨env, .background⟩ = x := by simp only [callStep, hjob]
    rw [hsame]
    exact h
  | some j =>
    -- The job refunds the funding source, then its extra reservations, then the token.
    have hj := h.job j hjob
    subst hj
    have hout := h.outcome_of_job hjob
    have hnet : x.net = -x.session.preConsumedQuota := by simp [SessionState.net, hout, hjob]
    have hfund := h.funding
    rw [hnet] at hfund
    have hlive : FundingHolds base x.session x.store (-x.session.preConsumedQuota) True f :=
      hfund.congr rfl rfl rfl rfl rfl rfl (fun _ => .inl (by simp [hjob]))
    obtain ⟨h', htok⟩ := hlive.refund hf h.nonneg
    have hstep : callStep x ⟨env, .background⟩ = { x with
        job := none
        store := refundToken env (jobOf x.session)
          (refundExtra env x.session.funding (jobOf x.session) (x.session.funding.refund env x.store)) } := by
      simp only [callStep, hjob, runRefund]
    rw [hstep, h.refundToken_eq hf]
    generalize refundExtra env x.session.funding (jobOf x.session) (x.session.funding.refund env x.store) =
      st1 at h' htok
    have htoken := h.token_charged htok (-x.session.preConsumedQuota)
    have hzero : x.net- -x.session.preConsumedQuota = 0 := by omega
    rw [hzero] at htoken
    refine ⟨h.tokenId, h.playground, h.nonneg, h.consumed, ?_, nofun, ?_, ?_⟩
    · have hflags := h.flags
      simpa only [SessionState.Flags, hout] using hflags
    · simp only [SessionState.net, hout]
      exact htoken
    · simp only [SessionState.net, hout]
      exact h'.congr rfl rfl rfl rfl (chargeToken_userQuota _ _) (chargeToken_sub _ _) (by simp)

end

end Accounted

theorem Accounted.step (x : SessionState) (c : Call)
    (h : Accounted info base f x) (hok : CallOk x c) : Accounted info base f (callStep x c) := by
  obtain ⟨env, action⟩ := c
  cases action with
  | reserve target => exact h.reserve hok.succeeds target
  | settle => exact h.settle hok
  | refund => exact h.refund env
  | background => exact h.background hok.succeeds

/-- Storage works, the request id is new, no candidate is due for a reset, and a wallet that is not trusted is asked
for a non-negative quota. -/
structure OpenOk (env : Env) (info : RelayInfo) (quota : Int) (st : Store) (s : BillingSession) : Prop where
  succeeds : env.fails = never
  fresh : st.sub.records.find info.requestId = none
  ids : ∀ r ∈ st.sub.subs.rows, 0 < r.id
  used : NonNegative st.sub
  unreset : ∀ c ∈ candidates st.sub info.userId env.now, (resetRow env.cfg env.now c).amountUsed = c.amountUsed
  quota : s.funding.source = .wallet → s.trusted = false → 0 ≤ quota

theorem Accounted.openedWallet
    (hopen : tryWallet env info quota st = (.ok s, st1)) (hok : OpenOk env info quota st s) :
    Accounted info st s.funding (Billing.opened s st1) := by
  obtain ⟨userQuota, trusted, hsess, hst⟩ := tryWallet_ok hopen
  have hnn : 0 ≤ if trusted = true then 0 else quota := by
    cases trusted with
    | true => exact Int.le_refl 0
    | false => exact hok.quota (by rw [hsess]; rfl) (by rw [hsess]; rfl)
  -- What is held is the same for the wallet and the token from here on.
  generalize (if trusted = true then 0 else quota) = held at hsess hst hnn
  rw [max_eq_left hnn] at hsess hst
  subst hsess hst
  refine ⟨rfl, rfl, hnn, rfl, ⟨rfl, rfl, rfl, rfl⟩, nofun, ?_, rfl, ?_⟩
  · change (chargeToken info held st).tokenQuota info.tokenId =
      st.tokenQuota info.tokenId+(if info.isPlayground then 0 else -held)
    rw [chargeToken_tokenQuota]
    split <;> omega
  · change ((chargeToken info held st).addUser info.userId (-held)).userQuota info.userId =
      st.userQuota info.userId+ -held
    rw [addUser_userQuota, chargeToken_userQuota]

theorem Accounted.openedSubscription
    (hopen : trySubscription env info quota st = (.ok s, st1)) (hok : OpenOk env info quota st s) :
    Accounted info st s.funding (Billing.opened s st1) := by
  obtain ⟨c, hcand, hch, hsess, hst, hname⟩ := trySubscription_ok hok.fresh hopen
  have hpos : 0 < if quota ≤ 0 then 1 else quota := by split <;> omega
  -- A request of no quota holds one unit on a subscription.
  dsimp only at hch hsess hst
  generalize (if quota ≤ 0 then 1 else quota) = held at hch hsess hst hpos
  have hmem := ((mem_candidates _ _ _ c).mp hcand).1
  have hrow := hch.row
  have hfits := hch.fits
  have hrec := hch.records info.requestId
  -- Without a reset the row goes up from the used amount it had before.
  rw [hok.unreset c hcand] at hrow hfits
  rw [if_pos rfl] at hrec
  have hused : 0 ≤ c.amountUsed := hok.used c hmem
  subst hsess
  refine ⟨rfl, rfl, hpos.le, rfl, ⟨rfl, rfl, rfl, rfl⟩, nofun, ?_, ?_⟩
  · change st1.tokenQuota info.tokenId = st.tokenQuota info.tokenId+(if info.isPlayground then 0 else -held)
    rw [hst]
    change (chargeToken info held st).tokenQuota info.tokenId = _
    rw [chargeToken_tokenQuota]
    split <;> omega
  · refine ⟨rfl, rfl, hok.ids c hmem, hpos, Int.le_refl 0, (Int.add_zero held).symm, hname, ?_, ?_, fun _ => hrec⟩
    · change 0 ≤ st.used c.id
      rw [used_eq hch.found]
      exact hused
    · refine ⟨_, hrow, ?_, ?_, ?_⟩
      · change c.amountUsed+held = st.used c.id- -held
        rw [used_eq hch.found]
        omega
      · change 0 ≤ c.amountUsed+held
        omega
      · intro ht
        have ht : 0 < (resetRow env.cfg env.now c).amountTotal := ht
        change c.amountUsed+held ≤ (resetRow env.cfg env.now c).amountTotal
        rw [resetRow_amountTotal] at ht ⊢
        exact hfits ht

theorem Accounted.opened
    (hopen : newBillingSession env info quota st = (.ok s, st1)) (hok : OpenOk env info quota st s) :
    Accounted info st s.funding (Billing.opened s st1) := by
  have hc := Env.compensations_of_never hok.succeeds
  -- The preference may try both sources; a failed attempt leaves the store as it was.
  rcases newBillingSession_one_attempt hc hopen with ⟨⟨_, he⟩, _⟩ | ⟨_, hs', hwallet | hsub⟩
  · cases he
  · cases hs'
    exact openedWallet hwallet hok
  · cases hs'
    exact openedSubscription hsub hok

theorem Accounted.balances (h : Accounted info base f x) : f.balance x.store-f.balance base = x.net ∧
      x.store.tokenQuota info.tokenId-base.tokenQuota info.tokenId = if info.isPlayground then 0 else x.net := by
  refine ⟨h.funding.balance_sub, ?_⟩
  have htoken := h.token
  omega

/-- After the outcome is decided the calls of the session are without effect on the store. -/
theorem Accounted.quiet {c : Call} (h : Accounted info base f x) (hok : CallOk x c) (hout : x.outcome ≠ .pending)
    (hact : c.action ≠ .background) : (callStep x c).store = x.store := by
  have hdone : x.session.settled = true ∨ x.session.refunded = true := by
    have hflags := h.flags
    simp only [SessionState.Flags] at hflags
    split at hflags
    · contradiction
    · exact .inl hflags.1
    · exact .inr hflags
  obtain ⟨env, action⟩ := c
  cases action with
  | reserve target =>
    have hguard : x.session.settled = true ∨ x.session.refunded = true ∨ x.session.trusted = true ∨
        target ≤ x.session.preConsumedQuota := by
      rcases hdone with hs | hr
      · exact .inl hs
      · exact .inr (.inl hr)
    simp only [callStep, Billing.reserve, if_pos hguard]
  | settle actualQuota =>
    by_cases hs : x.session.settled = true
    · simp only [callStep, Billing.settle, if_pos hs]
    · have hr := hdone.resolve_left hs
      -- `settle` does not look at the refunded flag, so only a zero difference is quiet.
      have ha := hok.unrefunded actualQuota rfl (by simpa using hs) hr
      have hd : actualQuota-x.session.preConsumedQuota = 0 := by omega
      simp only [callStep, Billing.settle, if_neg hs, hd, if_true]
  | refund =>
    simp only [callStep]
    split <;> rfl
  | background => exact absurd rfl hact

/-- Over every sequence of calls the funding source and the token have moved by what the
outcome stands for, and once it is decided no call of the three moves a balance. -/
theorem session_net_effect (env : Env) (info : RelayInfo) (quota : Int) (st st1 : Store) (s : BillingSession)
    (hopen : newBillingSession env info quota st = (.ok s, st1)) (hok : OpenOk env info quota st s)
    (calls : List Call) (hcalls : Along callStep CallOk (opened s st1) calls) :
    let x := exec callStep (opened s st1) calls
    s.funding.balance x.store-s.funding.balance st = x.net ∧
    x.store.tokenQuota info.tokenId-st.tokenQuota info.tokenId = (if info.isPlayground then 0 else x.net) ∧
    ∀ c, CallOk x c → x.outcome ≠ .pending → c.action ≠ .background → (callStep x c).store = x.store := by
  intro x
  have h : Accounted info st s.funding x :=
    exec_invariant (Accounted info st s.funding) Accounted.step (opened s st1) calls
      (Accounted.opened hopen hok) hcalls
  exact ⟨h.balances.1, h.balances.2, fun c hc hout hact => h.quiet hc hout hact⟩

def sampleCalls : List Call :=
  [⟨sampleEnv, .reserve 25⟩, ⟨sampleEnv, .settle 18⟩, ⟨sampleEnv, .refund⟩, ⟨sampleEnv, .settle 40⟩]

theorem session_net_effect_sample :
    ∃ s st1, newBillingSession sampleEnv sampleInfo 10 sampleStore = (.ok s, st1) ∧
      let x := exec callStep (opened s st1) sampleCalls
      s.funding.balance x.store-s.funding.balance sampleStore = -18 ∧
      x.store.tokenQuota 1-sampleStore.tokenQuota 1 = -18 := by
  have hok : ∀ s, s.funding.source = .subscription → OpenOk sampleEnv sampleInfo 10 sampleStore s := by
    intro s hs
    exact ⟨rfl, rfl, by decide, by decide, by decide, fun hw => by rw [hs] at hw; cases hw⟩
  refine ⟨_, _, rfl, ?_⟩
  have h := session_net_effect sampleEnv sampleInfo 10 sampleStore _ _ rfl (hok _ rfl) sampleCalls (by
    refine ⟨⟨rfl, nofun, nofun⟩, ⟨rfl, ?_, nofun⟩, ⟨rfl, nofun, nofun⟩, ⟨rfl, nofun, ?_⟩, trivial⟩
    · intro a f ha _ hf
      cases ha
      have hid : f.subscriptionId = 1 := by
        cases hf
        rfl
      rw [hid]
      decide
    · intro _ _ hs
      cases hs)
  exact ⟨h.1, h.2.1⟩

/-- A settlement is not stopped by an earlier refund: ten were taken and given back, and
settling at zero then gives them back once more. -/
theorem settle_after_refund_pays_twice :
    ∃ s st1, newBillingSession sampleEnv { sampleInfo with billingPreference := "wallet_only" } 10 sampleStore =
        (.ok s, st1) ∧
      let x := exec callStep (opened s st1) [⟨sampleEnv, .refund⟩, ⟨sampleEnv, .background⟩]
      x.outcome = .refunded ∧ x.job = none ∧ x.net = 0 ∧
      s.funding.balance x.store = s.funding.balance sampleStore ∧
      s.funding.balance (callStep x ⟨sampleEnv, .settle 0⟩).store = s.funding.balance sampleStore+10 ∧
      (callStep x ⟨sampleEnv, .settle 0⟩).store.tokenQuota 1 = sampleStore.tokenQuota 1+10 := by
  refine ⟨_, _, rfl, ?_⟩
  decide

end AiGateway.Billing
