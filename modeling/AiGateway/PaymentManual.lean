import AiGateway.PaymentCredit

/-! The manual completion of an order beside the callback of the order's own provider: each
is called on the same pending order, and nothing fails. -/
namespace AiGateway.Payment
open Fault Rounding Option

def Handler.provider : Handler → Option PaymentProvider
  | .stripe _ => some .stripe
  | .creem _ => some .creem
  | .waffo => some .waffo
  | .waffoPancake => some .waffoPancake
  | .epay _ => some .epay
  | _ => none

def quotaOf (db : PaymentDb) (userId : Int) : Option Int := (db.users.find userId).map User.quota

def Completion.quotaAfter (k : Completion) (cfg : Settings) (t : TopUp) (quota : Int) : Int :=
  if k.positiveOnly ∧ ¬ (k.quota cfg t).positive then quota else ((k.quota cfg t).addTo cfg quota).getD quota

section Complete

variable {cfg : Settings} {db : PaymentDb} {t : TopUp} {u : User}

theorem quotaOf_credit (db' : PaymentDb) (hsame : db'.users = db.users) (huser : db.users.find t.userId = some u)
    (ref : Ref) (amount : Amount) (contact : Contact) :
    quotaOf (orUnchanged db (creditUser cfg ref t.userId amount contact db')).2 t.userId =
      some ((amount.addTo cfg u.quota).getD u.quota) := by
  have hbefore : quotaOf db t.userId = some u.quota := by
    rw [quotaOf, huser]
    rfl
  have huser' : db'.users.find t.userId = some u := hsame ▸ huser
  simp only [creditUser, huser']
  cases amount.addTo cfg u.quota with
  | none => exact hbefore
  | some quota =>
    have hkey : (contact.note u).id = t.userId := (contact.note_id u).trans (Table.find_key _ huser)
    have hsaved : (db'.users.save { contact.note u with quota := quota }).find t.userId =
        some { contact.note u with quota := quota } := Table.find_save_of_key _ hkey huser'
    change (Table.find (db'.users.save { contact.note u with quota := quota }) t.userId).map User.quota = _
    rw [hsaved]
    rfl

variable {k : Completion}

theorem Completion.accept_pending (hpending : t.status = .pending)
    (hprovider : ∀ p, k.provider = some p → t.paymentProvider = p) :
    k.accept cfg t = if k.positiveOnly ∧ ¬ (k.quota cfg t).positive then .error "无效的充值额度"
      else .ok (some (k.quota cfg t)) := by
  have hmatch : ¬ k.provider.any (fun p => t.paymentProvider ≠ p) := by
    cases hk : k.provider with
    | none => simp
    | some p => simp [hprovider p hk]
  have hopen : t.status ≠ .success := by
    rw [hpending]
    nofun
  unfold accept
  rw [if_neg hmatch, if_neg (fun h => hopen h.2), if_neg (not_not.mpr hpending)]

theorem findPayer_never (huser : db.users.find t.userId = some u) (contact : Contact) :
    findPayer contact never t.userId db = .ok () := by
  cases contact with
  | none | stripeCustomer => rfl
  | email =>
    simp only [findPayer, never, huser]
    split <;> rfl

section

variable (hfind : db.topUps.find t.tradeNo = some t) (hpending : t.status = .pending)
  (huser : db.users.find t.userId = some u)

include hfind hpending huser

theorem completeBody_never (hprovider : ∀ p, k.provider = some p → t.paymentProvider = p) (now : Int) :
    completeBody cfg k never t.tradeNo now db = if k.positiveOnly ∧ ¬ (k.quota cfg t).positive then
      .error "无效的充值额度"
      else creditUser cfg (.order t.tradeNo) t.userId (k.quota cfg t) k.contact
        { db with topUps := db.topUps.save (completed now t) } := by
  have huser' : ({ db with topUps := db.topUps.save (completed now t) } : PaymentDb).users.find
    t.userId = some u := huser
  simp only [completeBody, never, hfind, Completion.accept_pending hpending hprovider]
  split
  · rfl
  · change (findPayer k.contact never t.userId _ >>= fun _ => _) = _
    rw [findPayer_never huser']
    change (creditUser _ _ _ _ _ _ >>= fun out => Except.ok out) = _
    exact bind_pure _

theorem quotaOf_complete (hname : t.tradeNo ≠ "") (hprovider : ∀ p, k.provider = some p → t.paymentProvider = p)
    (now : Int) :
    quotaOf (orUnchanged db (completeTopUp cfg k never t.tradeNo now db)).2 t.userId =
      some (k.quotaAfter cfg t u.quota) := by
  have hwrap (r : Except String (Option Credit × PaymentDb)) : orUnchanged db (k.report r) = orUnchanged db r := by
    cases r <;> rfl
  rw [completeTopUp, if_neg hname, hwrap, completeBody_never hfind hpending huser hprovider, Completion.quotaAfter]
  by_cases hpos : k.positiveOnly ∧ ¬ (k.quota cfg t).positive
  · rw [if_pos hpos, if_pos hpos]
    change quotaOf db t.userId = _
    rw [quotaOf, huser]
    rfl
  · rw [if_neg hpos, if_neg hpos]
    have hsame : ({ db with topUps := db.topUps.save (completed now t) } : PaymentDb).users = db.users := rfl
    exact quotaOf_credit _ hsame huser _ _ _

theorem quotaOf_epay (hprovider : t.paymentProvider = .epay) (payType : String) :
    quotaOf (epayNotify cfg never t.tradeNo payType db).2 t.userId =
      some (if unitsOf cfg t < 0 then u.quota else u.quota+unitsOf cfg t) := by
  let db' : PaymentDb := { db with topUps := db.topUps.save { t with paymentMethod := payType, status := .success } }
  have hout : epayNotify cfg never t.tradeNo payType db = if unitsOf cfg t < 0 then (none, db')
      else orUnchanged db' (creditUser cfg (.order t.tradeNo) t.userId (.units (unitsOf cfg t)) .none db') := by
    have hgo : ¬ (t.paymentProvider ≠ .epay ∨ t.status ≠ .pending ∨ (none : Option String).isSome) := by
      simp [hprovider, hpending]
    have hrefuses : (unitsOf cfg t < 0 ∨ (none : Option String).isSome) ↔ unitsOf cfg t < 0 := by simp
    simp only [epayNotify, hfind, never, if_neg hgo, hrefuses]
    rfl
  rw [hout]
  split
  · change quotaOf db t.userId = _
    rw [quotaOf, huser]
    rfl
  · have hcredit : quotaOf (orUnchanged db'
      (creditUser cfg (.order t.tradeNo) t.userId (.units (unitsOf cfg t)) .none db')).2
        t.userId = some (u.quota+unitsOf cfg t) := quotaOf_credit db' rfl huser _ _ _
    exact hcredit

end

end Complete

/-- The order and the stored quota for which the two ways of completing it agree. -/
def SameQuota (cfg : Settings) (t : TopUp) (quota : Int) : Prop :=
  match t.paymentProvider with
  -- The column cuts the fraction off, and the sum is not below the stored quota.
  | .stripe => (cfg.intColumn (quota+t.money*cfg.quotaPerUnit)).getD quota =
      quota+max 0 (intPart (t.money*cfg.quotaPerUnit))
  -- Multiplying the quota by the quota per unit has no effect on its integer part.
  | .creem => t.amount = 0 ∨ 0 < t.amount ∧ 1 ≤ cfg.quotaPerUnit ∧ t.amount*(cfg.quotaPerUnit-1) < 1
  | _ => True

theorem positive_quotaAfter {k : Completion} {cfg : Settings} {t : TopUp} {n : Int} (hk : k.positiveOnly = true)
    (hn : k.quota cfg t = .units n) (quota : Int) : k.quotaAfter cfg t quota = quota+max 0 n := by
  simp only [Completion.quotaAfter, hk, hn, Amount.positive, Amount.addTo, getD_some, true_and, decide_eq_true_eq]
  split <;> omega

theorem creem_quota_iff {cfg : Settings} (hunit : 0 < cfg.quotaPerUnit) (t : TopUp) :
    max 0 (unitsOf cfg t) = t.amount ↔
      t.amount = 0 ∨ 0 < t.amount ∧ 1 ≤ cfg.quotaPerUnit ∧ t.amount*(cfg.quotaPerUnit-1) < 1 := by
  rcases lt_trichotomy t.amount 0 with hneg | hzero | hpos
  · constructor
    · intro h
      omega
    · rintro (h | ⟨h, _⟩) <;> omega
  · simp [unitsOf, hzero, intPart]
  · have hq : (0 : ℚ) < t.amount := by exact_mod_cast hpos
    have hnonneg : 0 ≤ t.amount*cfg.quotaPerUnit := (mul_pos hq hunit).le
    have hfloor : unitsOf cfg t = ⌊t.amount*cfg.quotaPerUnit⌋ := intPart_of_nonneg hnonneg
    have hmax : max 0 (unitsOf cfg t) = unitsOf cfg t :=
      max_eq_right (by rw [hfloor]; exact Int.floor_nonneg.mpr hnonneg)
    rw [hmax, hfloor, Int.floor_eq_iff]
    constructor
    · rintro ⟨hle, hlt⟩
      refine .inr ⟨hpos, ?_, by linarith⟩
      exact (le_mul_iff_one_le_right hq).mp hle
    · rintro (h | ⟨_, hone, hlt⟩)
      · omega
      · exact ⟨(le_mul_iff_one_le_right hq).mpr hone, by linarith⟩

/-- For every pending order, the manual completion leaves the user with the quota that the
provider's own callback would have left exactly under the condition. -/
theorem manual_same_as_provider_iff (cfg : Settings) (hunit : 0 < cfg.quotaPerUnit) (db : PaymentDb)
    (t : TopUp) (u : User)
    (h : Handler) (now : Int) (hown : h.provider = some t.paymentProvider) (hname : t.tradeNo ≠ "")
    (hfind : db.topUps.find t.tradeNo = some t) (hpending : t.status = .pending)
    (huser : db.users.find t.userId = some u) :
    quotaOf (handle cfg ⟨.manual, t.tradeNo, now, never⟩ db).2 t.userId =
      quotaOf (handle cfg ⟨h, t.tradeNo, now, never⟩ db).2 t.userId ↔ SameQuota cfg t u.quota := by
  have hmanual : quotaOf (handle cfg ⟨.manual, t.tradeNo, now, never⟩ db).2 t.userId = some (u.quota+max 0
      (if t.paymentProvider = .stripe then intPart (t.money*cfg.quotaPerUnit) else unitsOf cfg t)) := by
    rw [← positive_quotaAfter (k := manualCompleteTopUp) rfl rfl u.quota]
    exact quotaOf_complete hfind hpending huser hname (fun p hp => by cases hp) now
  have hcallback (k : Completion) (hk : k.provider = some t.paymentProvider) :
      quotaOf (orUnchanged db (completeTopUp cfg k never t.tradeNo now db)).2 t.userId =
        some (k.quotaAfter cfg t u.quota) :=
    quotaOf_complete hfind hpending huser hname (fun p hp => some.inj (hk.symm.trans hp)) now
  rw [hmanual]
  unfold SameQuota
  cases h with
  | stripe customerId =>
    have hp : t.paymentProvider = .stripe := (some.inj hown).symm
    rw [show quotaOf (handle cfg ⟨.stripe customerId, t.tradeNo, now, never⟩ db).2 t.userId = _ from
      hcallback (recharge customerId) (congrArg some hp.symm)]
    simp only [hp, Completion.quotaAfter, recharge, Amount.addTo, Bool.false_eq_true, false_and, if_true, if_false,
      some.injEq]
    exact eq_comm
  | creem customerEmail =>
    have hp : t.paymentProvider = .creem := (some.inj hown).symm
    rw [show quotaOf (handle cfg ⟨.creem customerEmail, t.tradeNo, now, never⟩ db).2 t.userId = _ from
      hcallback (rechargeCreem customerEmail) (congrArg some hp.symm)]
    simp only [hp, Completion.quotaAfter, rechargeCreem, Amount.addTo, Bool.false_eq_true, false_and, if_false,
      some.injEq, getD_some, reduceCtorEq, add_right_inj]
    exact creem_quota_iff hunit t
  | waffo =>
    have hp : t.paymentProvider = .waffo := (some.inj hown).symm
    rw [show quotaOf (handle cfg ⟨.waffo, t.tradeNo, now, never⟩ db).2 t.userId = _ from
      hcallback rechargeWaffo (congrArg some hp.symm)]
    rw [positive_quotaAfter (k := rechargeWaffo) rfl rfl]
    simp only [hp, reduceCtorEq, if_false]
  | waffoPancake =>
    have hp : t.paymentProvider = .waffoPancake := (some.inj hown).symm
    rw [show quotaOf (handle cfg ⟨.waffoPancake, t.tradeNo, now, never⟩ db).2 t.userId = _ from
      hcallback rechargeWaffoPancake (congrArg some hp.symm)]
    rw [positive_quotaAfter (k := rechargeWaffoPancake) rfl rfl]
    simp only [hp, reduceCtorEq, if_false]
  | epay payType =>
    have hp : t.paymentProvider = .epay := (some.inj hown).symm
    rw [show quotaOf (handle cfg ⟨.epay payType, t.tradeNo, now, never⟩ db).2 t.userId = _ from
      quotaOf_epay hfind hpending huser hp payType]
    simp only [hp, reduceCtorEq, if_false, some.injEq, iff_true]
    split <;> omega
  | manual | asyncFailed | sessionExpired | waffoFailed => cases hown

def samplePayments (provider : PaymentProvider) : PaymentDb :=
  ⟨.single { sampleOrder with paymentProvider := provider }, .empty, sampleUsers⟩

theorem manual_same_as_provider_sample :
    quotaOf (handle sampleSettings ⟨.manual, "T1", 100, never⟩ (samplePayments .epay)).2 1 =
      quotaOf (handle sampleSettings ⟨.epay "alipay", "T1", 100, never⟩ (samplePayments .epay)).2 1 ↔
    SameQuota sampleSettings sampleOrder 10 :=
  manual_same_as_provider_iff sampleSettings (by decide +kernel) (samplePayments .epay) sampleOrder
    { id := 1, quota := 10 }
    (.epay "alipay") 100 rfl (by decide) (by decide +kernel) rfl (by decide +kernel)

/-- A Creem order for a quota of 3: the callback adds 3, the administrator adds 3 units. -/
theorem manual_multiplies_creem_quota :
    quotaOf (handle sampleSettings ⟨.creem "", "T1", 100, never⟩ (samplePayments .creem)).2 1 = some 13 ∧
      quotaOf (handle sampleSettings ⟨.manual, "T1", 100, never⟩ (samplePayments .creem)).2 1 = some 1500010 := by
  decide +kernel

end AiGateway.Payment
