import AiGateway.BillingSession
import AiGateway.SubscriptionStoreSpec

/-! The balances of the store, and what each operation on one of them does. -/
namespace AiGateway.Billing
open Subscription GoText Fault Table

/-- The steps that undo a half-made charge do not fail. -/
structure Env.CompensationsSucceed (env : Env) : Prop where
  token : ∀ src, env.fails (.token (.rollbackOpening src)) = none
  user : env.fails (.user .rollbackReserve) = none
  sub : ∀ stmt, env.fails (.sub .rollbackReserve stmt) = none

def NonNegative (db : SubDb) : Prop := ∀ r ∈ db.subs.rows, 0 ≤ r.amountUsed

instance (db : SubDb) : Decidable (NonNegative db) :=
  inferInstanceAs (Decidable (∀ r ∈ db.subs.rows, 0 ≤ r.amountUsed))

def Store.used (st : Store) (id : Int) : Int :=
  match st.sub.subs.find id with
  | none => 0
  | some sub => sub.amountUsed

def Store.addUsed (st : Store) (id delta : Int) : Store :=
  match st.sub.subs.find id with
  | none => st
  | some sub => { st with sub := { st.sub with
      subs := st.sub.subs.save { sub with amountUsed := sub.amountUsed+delta } } }

variable {st st' : Store} {id quota delta : Int} {env : Env} {site : Site} {sub : UserSubscription}

theorem used_eq (h : st.sub.subs.find id = some sub) : st.used id = sub.amountUsed := by
  simp only [Store.used, h]

theorem used_nonneg (h : NonNegative st.sub) : 0 ≤ st.used id := by
  unfold Store.used
  split
  · exact Int.le_refl 0
  · next sub hsub => exact h sub ((find_some_iff _ _ _).mp hsub).1

@[simp] theorem addUsed_tokenQuota : (st.addUsed id delta).tokenQuota = st.tokenQuota := by
  unfold Store.addUsed
  split <;> rfl

theorem addUser_userQuota : (st.addUser id delta).userQuota id = st.userQuota id+delta := by
  simp [Store.addUser]

theorem addUser_cancel : (st.addUser id (-delta)).addUser id delta = st := by
  have h : st.userQuota id+ -delta+delta = st.userQuota id := by omega
  simp [Store.addUser, h]

theorem addToken_cancel : (st.addToken id (-delta)).addToken id delta = st := by
  have h : st.tokenQuota id+ -delta+delta = st.tokenQuota id := by omega
  simp [Store.addToken, h]

variable {step : Step}

theorem changeQuota_ok (h : changeQuota env step quota st = .ok st') : 0 ≤ quota ∧ st' = st := by
  unfold changeQuota at h
  split at h
  · cases h
  · obtain ⟨_, _, h⟩ := bind_eq_ok h
    cases h
    exact ⟨by omega, rfl⟩

theorem changeQuota_eq (hf : env.fails step = none) (hq : 0 ≤ quota) : changeQuota env step quota st = .ok st := by
  rw [changeQuota, if_neg (by omega), attempt, hf]
  rfl

theorem adjustUser_ok (h : adjustUser env site id delta st = .ok st') : st' = st.addUser id (-delta) := by
  unfold adjustUser at h
  split at h
  · exact (changeQuota_ok h).2
  · exact (changeQuota_ok h).2

theorem preConsumeTokenQuota_ok {info : RelayInfo} (h : preConsumeTokenQuota env site info quota st = .ok st') :
    st' = if info.isPlayground then st else st.addToken info.tokenId (-quota) := by
  unfold preConsumeTokenQuota at h
  split at h
  · cases h
  · split at h
    · next hp =>
      cases h
      rw [if_pos hp]
    · next hp =>
      obtain ⟨_, _, h⟩ := bind_eq_ok h
      rw [if_neg hp]
      split at h
      · cases h
      · exact (changeQuota_ok h).2

theorem addUser_zero : st.addUser id 0 = st := by
  simp [Store.addUser]

def chargeToken (info : RelayInfo) (amount : Int) (st : Store) : Store :=
  if info.isPlayground then st else st.addToken info.tokenId (-amount)

variable (info : RelayInfo) (amount : Int)

@[simp] theorem chargeToken_userQuota : (chargeToken info amount st).userQuota = st.userQuota := by
  unfold chargeToken
  split <;> rfl

@[simp] theorem chargeToken_sub : (chargeToken info amount st).sub = st.sub := by
  unfold chargeToken
  split <;> rfl

theorem chargeToken_tokenQuota : (chargeToken info amount st).tokenQuota info.tokenId =
      st.tokenQuota info.tokenId-(if info.isPlayground then 0 else amount) := by
  unfold chargeToken
  split
  · omega
  · simp [Store.addToken]
    omega

theorem chargeToken_net {info info' : RelayInfo} {st1 : Store} {q net : Int} (hid : info'.tokenId = info.tokenId)
    (hplay : info'.isPlayground = info.isPlayground)
    (h : st.tokenQuota info.tokenId = q+(if info.isPlayground then 0 else net))
    (hst : st1.tokenQuota = st.tokenQuota) :
    (chargeToken info' delta st1).tokenQuota info.tokenId = q+(if info.isPlayground then 0 else net-delta) := by
  rw [← hid, ← hplay] at h ⊢
  rw [chargeToken_tokenQuota, hst, h]
  split <;> omega

theorem chargeToken_zero : chargeToken info 0 st = st := by
  simp [chargeToken, Store.addToken]

theorem adjustToken_ok {info : RelayInfo}
    (h : adjustToken env site info delta st = .ok st') : st' = chargeToken info delta st := by
  unfold adjustToken at h
  unfold chargeToken
  split at h
  · next hp =>
    cases h
    rw [if_pos hp]
  · next hp =>
    rw [if_neg hp]
    split at h
    · exact (changeQuota_ok h).2
    · exact (changeQuota_ok h).2

theorem adjustToken_never (hf : env.fails = never) (info : RelayInfo)
    : adjustToken env site info delta st = .ok (chargeToken info delta st) := by
  have hfree : env.fails (.token site) = none := by
    rw [hf]
    rfl
  unfold adjustToken chargeToken
  split
  · rfl
  split
  · exact changeQuota_eq hfree (by omega)
  · exact changeQuota_eq hfree (by omega)

theorem postConsumeDelta_ok (h : postConsumeDelta env site id delta st = .ok st') (hd : delta ≠ 0) :
    ∃ sub, st.sub.subs.find id = some sub ∧
      (0 < sub.amountTotal → clampUsed sub.amountUsed delta ≤ sub.amountTotal) ∧
      st' = { st with sub := { st.sub with
        subs := st.sub.subs.save { sub with amountUsed := clampUsed sub.amountUsed delta } } } := by
  obtain ⟨_, hdb, h⟩ := bind_eq_ok h
  cases h
  obtain ⟨sub, hsub, hlim, hdb'⟩ := postConsume_ok hdb hd
  exact ⟨sub, hsub, hlim, by rw [hdb']⟩

theorem postConsumeDelta_cancel (hc : env.CompensationsSucceed) {st1 : Store} (hd : 0 < delta) (hnn : 0 ≤ st.used id)
    (h : postConsumeDelta env site id delta st = .ok st1) :
    postConsumeDelta env .rollbackReserve id (-delta) st1 = .ok st := by
  have hid : ¬ id ≤ 0 := by
    intro hle
    simp [postConsumeDelta, postConsumeUserSubscriptionDelta, hle] at h
  obtain ⟨sub, hsub, hlim, hst1⟩ := postConsumeDelta_ok h (by omega)
  have hkey := find_key st.sub.subs hsub
  have hused : 0 ≤ sub.amountUsed := used_eq hsub ▸ hnn
  have hup : clampUsed sub.amountUsed delta = sub.amountUsed+delta := if_neg (by omega)
  have hdown : clampUsed (sub.amountUsed+delta) (-delta) = sub.amountUsed := by
    unfold clampUsed
    rw [if_neg (by omega)]
    omega
  rw [hup] at hst1 hlim
  have hfind : st1.sub.subs.find id = some { sub with amountUsed := sub.amountUsed+delta } := by
    rw [hst1]
    exact find_save_of_key st.sub.subs hkey hsub
  have hlim' : ¬ (0 < sub.amountTotal ∧ sub.amountTotal < sub.amountUsed) := by
    rintro ⟨ht, hlt⟩
    have := hlim ht
    omega
  have hrestore : (st.sub.subs.save { sub with amountUsed := sub.amountUsed+delta }).save sub = st.sub.subs :=
    save_save_restore _ _ _ (hkey.symm ▸ hsub) rfl
  have hstmt : (fun t => env.fails (.sub .rollbackReserve t)) = never := funext hc.sub
  simp only [postConsumeDelta, postConsumeUserSubscriptionDelta, if_neg hid, hstmt, attempt_never, ok_bind,
    show ¬ -delta = 0 by omega, if_false, hfind, hdown, hlim']
  rw [hst1]
  simp only [hrestore, pure, Except.pure, ok_bind]

theorem postConsumeDelta_eq (hf : env.fails = never) (hid : 0 < id)
    (hsub : st.sub.subs.find id = some sub) (hd : delta ≠ 0) (hnn : 0 ≤ sub.amountUsed+delta) :
    postConsumeDelta env site id delta st =
      if 0 < sub.amountTotal ∧ sub.amountTotal < sub.amountUsed+delta then
        .error s!"subscription used exceeds total, used={sub.amountUsed+delta} total={sub.amountTotal}"
      else .ok (st.addUsed id delta) := by
  have hclamp : clampUsed sub.amountUsed delta = sub.amountUsed+delta := if_neg (by omega)
  have hplan : (fun t => env.fails (.sub site t)) = never := by
    rw [hf]
    rfl
  simp only [postConsumeDelta, postConsumeUserSubscriptionDelta, if_neg (show ¬ id ≤ 0 by omega), if_neg hd,
    hplan, attempt_never, ok_bind, hsub, hclamp]
  split
  · rfl
  · simp only [Store.addUsed, hsub]
    rfl

end AiGateway.Billing
