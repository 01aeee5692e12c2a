import AiGateway.Payment
import AiGateway.Run

/-! Orders from their creation through any sequence of callbacks, handled one after the other, with
any statement failing in any of them. -/
namespace AiGateway.Payment
open Fault Rounding Option Table Run

inductive Handler
  | stripe (customerId : String)
  | creem (customerEmail : String)
  | waffo | waffoPancake | manual
  | epay (payType : String)
  -- Payments that did not come about.
  | asyncFailed | sessionExpired | waffoFailed
deriving DecidableEq

def Handler.completes : Handler → Bool
  | .asyncFailed | .sessionExpired | .waffoFailed => false
  | _ => true

def Handler.isEpay : Handler → Bool
  | .epay _ => true
  | _ => false

structure Callback where
  handler : Handler
  tradeNo : String
  now : Int
  fails : PayStmt → Option String

def orUnchanged (db : PaymentDb) : Except String (Option Credit × PaymentDb) → Option Credit × PaymentDb
  | .ok out => out
  | .error _ => (none, db)

def close (db : PaymentDb) : Except String PaymentDb → Option Credit × PaymentDb
  | .ok db' => (none, db')
  | .error _ => (none, db)

def handle (cfg : Settings) (c : Callback) (db : PaymentDb) : Option Credit × PaymentDb :=
  match c.handler with
  | .stripe customerId => orUnchanged db (completeTopUp cfg (recharge customerId) c.fails c.tradeNo c.now db)
  | .creem customerEmail => orUnchanged db (completeTopUp cfg (rechargeCreem customerEmail) c.fails c.tradeNo c.now db)
  | .waffo => orUnchanged db (completeTopUp cfg rechargeWaffo c.fails c.tradeNo c.now db)
  | .waffoPancake => orUnchanged db (completeTopUp cfg rechargeWaffoPancake c.fails c.tradeNo c.now db)
  | .manual => orUnchanged db (completeTopUp cfg manualCompleteTopUp c.fails c.tradeNo c.now db)
  | .epay payType => epayNotify cfg c.fails c.tradeNo payType db
  | .asyncFailed => (none, sessionAsyncPaymentFailed c.fails c.tradeNo db)
  | .sessionExpired => close db (updatePendingTopUpStatus c.fails c.tradeNo (some .stripe) .expired db)
  | .waffoFailed => close db (updatePendingTopUpStatus c.fails c.tradeNo (some .waffo) .failed db)

/-- A credit in the books, with the handler that has given it. -/
structure Entry extends Credit where
  handler : Handler

structure Books where
  db : PaymentDb
  credits : List Entry

inductive Action
  -- A new order; it is given up at once when the provider does not open a payment for it.
  | requestPay (t : TopUp) (opened : Bool)
  | callback (c : Callback)

def step (cfg : Settings) (x : Books) : Action → Books
  | .requestPay t opened =>
    { x with db := { x.db with topUps := x.db.topUps.insert { t with status := if opened then
      .pending else .failed } } }
  | .callback c => ⟨(handle cfg c x.db).2, x.credits ++ ((handle cfg c x.db).1.map (⟨·, c.handler⟩)).toList⟩

def Books.initial (users : Users) : Books := ⟨⟨.empty, .empty, users⟩, []⟩

/-- The user of a pending order is there, and once Epay's order is saved the addition to
the quota goes through. -/
def Payable (cfg : Settings) (x : Books) : Action → Prop
  | .requestPay _ _ => True
  | .callback c => ∀ t ∈ x.db.topUps.find c.tradeNo, t.status = .pending → (x.db.users.find t.userId).isSome ∧
        (c.handler.isEpay → t.paymentProvider = .epay → c.fails .findOrder = none → c.fails .saveOrder = none →
          c.fails .creditUser = none ∧ 0 ≤ unitsOf cfg t)

instance (cfg : Settings) (x : Books) (a : Action) : Decidable (Payable cfg x a) :=
  match a with
  | .requestPay _ _ => .isTrue trivial
  | .callback c => inferInstanceAs (Decidable (∀ t ∈ x.db.topUps.find c.tradeNo, _))

def creditsOf (tradeNo : String) (credits : List Entry) : List Entry :=
  credits.filter (fun c => c.ref = .order tradeNo)

def creditedTo (userId : Int) (credits : List Entry) : Int :=
  ((credits.filter (fun c => c.userId = userId)).map (fun c => c.quota)).sum

def Handler.quota (cfg : Settings) (t : TopUp) : Handler → Amount
  | .manual => manualCompleteTopUp.quota cfg t
  | _ => providerQuota cfg t

/-- The integer column holds an integer that is less than one away from the number assigned to it. -/
def Settings.Rounds (cfg : Settings) : Prop := ∀ x n, cfg.intColumn x = some n → |(n : ℚ)-x| < 1

def Amount.Adds (quota : Int) : Amount → Prop
  | .units n => quota = n
  | .real x => |(quota : ℚ)-x| < 1

/-- The credit is for the order's user, and by the order's quota as the handler computes it. -/
def CreditFor (cfg : Settings) (t : TopUp) (c : Entry) : Prop :=
  c.userId = t.userId ∧ c.amount = c.handler.quota cfg t ∧ c.amount.Adds c.quota

def CreditedOnce (cfg : Settings) (t : TopUp) (credits : List Entry) : Prop :=
  ∃ c, creditsOf t.tradeNo credits = [c] ∧ CreditFor cfg t c

structure SameOrder (t t' : TopUp) : Prop where
  tradeNo : t'.tradeNo = t.tradeNo
  userId : t'.userId = t.userId
  amount : t'.amount = t.amount
  money : t'.money = t.money
  provider : t'.paymentProvider = t.paymentProvider

inductive Outcome (cfg : Settings) (h : Handler) (tradeNo : String) (db : PaymentDb) :
    Option Credit × PaymentDb → Prop
  | unchanged : Outcome cfg h tradeNo db (none, db)
  | closed (t : TopUp) (status : TopUpStatus) (hcloses : h.completes = false)
      (hfind : db.topUps.find tradeNo = some t) (hpending : t.status = .pending) (hstatus : status ≠ .success) :
      Outcome cfg h tradeNo db (none, { db with topUps := db.topUps.save { t with status := status } })
  | credited (t t' : TopUp) (u u' : User) (c : Credit) (hfind : db.topUps.find tradeNo = some t)
      (hpending : t.status = .pending) (hsame : SameOrder t t') (hsuccess : t'.status = .success)
      (huser : db.users.find t.userId = some u) (hid : u'.id = u.id) (hquota : u'.quota = u.quota+c.quota)
      (href : c.ref = .order tradeNo) (hfor : CreditFor cfg t ⟨c, h⟩) :
      Outcome cfg h tradeNo db (some c, { db with topUps := db.topUps.save t', users := db.users.save u' })

section Handlers

variable {cfg : Settings} {db : PaymentDb} {tradeNo : String} {h : Handler}

theorem Amount.adds_of_addTo (hround : cfg.Rounds) {amount : Amount} {before after : Int}
    (hadd : amount.addTo cfg before = some after) : amount.Adds (after-before) := by
  cases amount with
  | units n =>
    have hsum : before+n = after := some.inj hadd
    exact (by omega : after-before = n)
  | real x =>
    have hless := hround _ _ hadd
    rw [Adds]
    push_cast
    rwa [sub_sub]

theorem Contact.note_id (contact : Contact) (u : User) : (contact.note u).id = u.id := by
  cases contact with
  | none | stripeCustomer => rfl
  | email =>
    simp only [note]
    split <;> rfl

theorem outcome_of_credit (hround : cfg.Rounds) {t t' : TopUp} {amount : Amount} {contact : Contact}
    {out : Option Credit × PaymentDb} (hfind : db.topUps.find tradeNo = some t) (hpending : t.status = .pending)
    (hsame : SameOrder t t') (hsuccess : t'.status = .success) (huser : (db.users.find t.userId).isSome)
    (hamount : amount = h.quota cfg t)
    (hcredit : creditUser cfg (.order tradeNo) t.userId amount contact
      { db with topUps := db.topUps.save t' } = .ok out) :
    Outcome cfg h tradeNo db out := by
  rcases creditUser_ok hcredit with ⟨hnone, _⟩ | ⟨u, quota, hu, hq, rfl⟩
  · have hgone : db.users.find t.userId = none := hnone
    rw [hgone] at huser
    cases huser
  · have hadd : u.quota+(quota-u.quota) = quota := by omega
    exact .credited t t' u _ _ hfind hpending hsame hsuccess hu (contact.note_id u) hadd.symm rfl
      ⟨rfl, hamount, Amount.adds_of_addTo hround hq⟩

variable {fails : PayStmt → Option String}

theorem outcome_of_complete (hround : cfg.Rounds) {k : Completion} {now : Int}
    (hquota : ∀ t, (∀ p, k.provider = some p → t.paymentProvider = p) → k.quota cfg t = h.quota cfg t)
    (huser : ∀ t, db.topUps.find tradeNo = some t → t.status = .pending → (db.users.find t.userId).isSome) :
    Outcome cfg h tradeNo db (orUnchanged db (completeTopUp cfg k fails tradeNo now db)) := by
  cases hcomplete : completeTopUp cfg k fails tradeNo now db with
  | error => exact .unchanged
  | ok =>
    rcases completeBody_ok (completeBody_of_ok hcomplete) with rfl | ⟨t, ht, hpending, hprovider, hcredit⟩
    · exact .unchanged
    · have hsame : SameOrder t (completed now t) := ⟨rfl, rfl, rfl, rfl, rfl⟩
      exact outcome_of_credit hround ht hpending hsame rfl (huser t ht hpending) (hquota t hprovider) hcredit

theorem outcome_of_epay (hround : cfg.Rounds) {payType : String}
    (hok : ∀ t, db.topUps.find tradeNo = some t → t.status = .pending → (db.users.find t.userId).isSome ∧
      (t.paymentProvider = .epay → fails .findOrder = none → fails .saveOrder = none →
        fails .creditUser = none ∧ 0 ≤ unitsOf cfg t)) :
    Outcome cfg (.epay payType) tradeNo db (epayNotify cfg fails tradeNo payType db) := by
  unfold epayNotify
  split
  · exact .unchanged
  · exact .unchanged
  · next t hread ht =>
    split
    · exact .unchanged
    · next hgo =>
      push Not at hgo
      obtain ⟨hprovider, hpending, hsave⟩ := hgo
      have hsaved : fails .saveOrder = none := by simpa using hsave
      obtain ⟨huser, hincrease⟩ := hok t ht hpending
      obtain ⟨hcredit, hnonneg⟩ := hincrease hprovider hread hsaved
      have hgoes : ¬ (unitsOf cfg t < 0 ∨ (fails .creditUser).isSome) := by
        rw [hcredit]
        simpa using hnonneg
      simp only [if_neg hgoes]
      -- The addition of whole units is never refused by the column.
      split
      · next out hout =>
        have hown : Amount.units (unitsOf cfg t) = (Handler.epay payType).quota cfg t := by
          simp only [Handler.quota, providerQuota, hprovider]
        have hsame : SameOrder t { t with paymentMethod := payType, status := .success } :=
          ⟨rfl, rfl, rfl, rfl, rfl⟩
        exact outcome_of_credit hround ht hpending hsame rfl huser hown hout
      · next hout =>
        unfold creditUser at hout
        split at hout <;> cases hout

theorem outcome_of_failed (hcloses : h.completes = false) :
    Outcome cfg h tradeNo db (none, sessionAsyncPaymentFailed fails tradeNo db) := by
  unfold sessionAsyncPaymentFailed
  split
  · exact .unchanged
  · exact .unchanged
  · next t _ ht =>
    split
    · exact .unchanged
    · next hgo =>
      push Not at hgo
      exact .closed t .failed hcloses ht hgo.2.1 nofun

theorem outcome_of_update (hcloses : h.completes = false) {provider : Option PaymentProvider} {status : TopUpStatus}
    (hstatus : status ≠ .success) :
    Outcome cfg h tradeNo db (close db (updatePendingTopUpStatus fails tradeNo provider status db)) := by
  cases hupdate : updatePendingTopUpStatus fails tradeNo provider status db with
  | error => exact .unchanged
  | ok =>
    unfold updatePendingTopUpStatus at hupdate
    repeat' split at hupdate
    all_goals try cases hupdate
    next t _ ht _ hpending =>
      obtain ⟨_, _, hupdate⟩ := bind_eq_ok hupdate
      obtain ⟨_, _, hupdate⟩ := bind_eq_ok hupdate
      cases hupdate
      exact .closed t status hcloses ht (not_not.mp hpending) hstatus

theorem handle_outcome (hround : cfg.Rounds) {c : Callback} {credits : List Entry}
    (hok : Payable cfg ⟨db, credits⟩ (.callback c)) :
    Outcome cfg c.handler c.tradeNo db (handle cfg c db) := by
  have huser (t : TopUp) (ht : db.topUps.find c.tradeNo = some t) (hp : t.status = .pending) :
      (db.users.find t.userId).isSome := (hok t ht hp).1
  unfold handle
  cases hh : c.handler with
  | stripe | creem | waffo | waffoPancake =>
    apply outcome_of_complete hround _ huser
    intro t ht
    simp only [Handler.quota, providerQuota, ht _ rfl]
    rfl
  | manual => exact outcome_of_complete hround (fun _ _ => rfl) huser
  | epay =>
    apply outcome_of_epay hround
    intro t ht hp
    have hepay : c.handler.isEpay := by
      rw [hh]
      rfl
    exact ⟨huser t ht hp, (hok t ht hp).2 hepay⟩
  | asyncFailed => exact outcome_of_failed rfl
  | sessionExpired | waffoFailed => exact outcome_of_update rfl nofun

end Handlers

theorem creditsOf_append (tradeNo : String) (cs cs' : List Entry) :
    creditsOf tradeNo (cs ++ cs') = creditsOf tradeNo cs ++ creditsOf tradeNo cs' :=
  List.filter_append cs cs'

theorem creditedTo_append (userId : Int) (cs cs' : List Entry) :
    creditedTo userId (cs ++ cs') = creditedTo userId cs+creditedTo userId cs' := by
  simp [creditedTo]

theorem CreditFor.congr {cfg : Settings} {t t' : TopUp} {c : Entry} (h : CreditFor cfg t c) (hs : SameOrder t t') :
    CreditFor cfg t' c := by
  obtain ⟨huser, hamount, hadds⟩ := h
  have hquota : c.handler.quota cfg t' = c.handler.quota cfg t := by
    cases c.handler <;>
      simp only [Handler.quota, manualCompleteTopUp, providerQuota, unitsOf, hs.amount, hs.money, hs.provider]
  exact ⟨huser.trans hs.userId.symm, hamount.trans hquota.symm, hadds⟩

/-- The status of an order tells whether it was credited. -/
def Settled (cfg : Settings) (credits : List Entry) (t : TopUp) : Prop :=
  (t.status = .success → CreditedOnce cfg t credits) ∧ (t.status ≠ .success → creditsOf t.tradeNo credits = [])

structure BooksInv (cfg : Settings) (users : Users) (x : Books) : Prop where
  orders : ∀ t ∈ x.db.topUps.rows, Settled cfg x.credits t
  known : ∀ tradeNo, x.db.topUps.find tradeNo = none → creditsOf tradeNo x.credits = []
  quotas : ∀ u ∈ users.rows, (x.db.users.find u.id).map User.quota = some (u.quota+creditedTo u.id x.credits)

section Run

variable {cfg : Settings} {users : Users} {x : Books}

theorem BooksInv.initial : BooksInv cfg users (Books.initial users) := by
  refine ⟨nofun, fun _ _ => rfl, ?_⟩
  intro u hu
  have hfind : (Books.initial users).db.users.find u.id = some u := find_mem users u hu
  rw [hfind]
  simp [Books.initial, creditedTo]

theorem BooksInv.requestPay (h : BooksInv cfg users x) (t : TopUp) (opened : Bool) :
    BooksInv cfg users (step cfg x (.requestPay t opened)) := by
  have hnew : (if opened then TopUpStatus.pending else .failed) ≠ .success := by
    cases opened <;> decide
  cases hfind : x.db.topUps.find t.tradeNo with
  | some =>
    -- The trade number is taken: nothing is written.
    have hsame : x.db.topUps.insert { t with status := if opened then .pending else .failed } = x.db.topUps :=
      insert_of_find hfind
    simp only [step]
    rw [hsame]
    exact h
  | none =>
    refine ⟨?_, ?_, h.quotas⟩
    · apply forall_insert h.orders
      exact ⟨fun hs => absurd hs hnew, fun _ => h.known _ hfind⟩
    · intro tradeNo hnone
      by_cases hk : tradeNo = t.tradeNo
      · exact h.known _ (hk ▸ hfind)
      · have hold := find_insert_of_ne x.db.topUps (r := { t with status := if opened then .pending else .failed }) hk
        exact h.known _ (hold.symm.trans hnone)

section
variable {tradeNo : String} {t : TopUp} (h : BooksInv cfg users x)
  (hfind : x.db.topUps.find tradeNo = some t) (hpending : t.status = .pending)
include h hfind hpending

theorem BooksInv.close {status : TopUpStatus} (hstatus : status ≠ .success) :
    BooksInv cfg users ⟨{ x.db with topUps := x.db.topUps.save { t with status := status } }, x.credits⟩ := by
  have ht : t ∈ x.db.topUps.rows := ((find_some_iff _ _ _).mp hfind).1
  have hnone := (h.orders t ht).2 (by rw [hpending]; nofun)
  refine ⟨?_, ?_, h.quotas⟩
  · apply forall_save h.orders
    exact ⟨fun hs => absurd hs hstatus, fun _ => hnone⟩
  · exact fun k hk => h.known k (find_of_save hk)

theorem BooksInv.credit {t' : TopUp} {u u' : User} {c : Entry} (hsame : SameOrder t t')
    (hsuccess : t'.status = .success) (huser : x.db.users.find t.userId = some u) (hid : u'.id = u.id)
    (hquota : u'.quota = u.quota+c.quota) (href : c.ref = .order tradeNo) (hfor : CreditFor cfg t c) :
    BooksInv cfg users ⟨{ x.db with topUps := x.db.topUps.save t', users := x.db.users.save u' },
      x.credits ++ [c]⟩ := by
  obtain ⟨ht, htrade⟩ := (find_some_iff _ _ _).mp hfind
  have hnone := (h.orders t ht).2 (by rw [hpending]; nofun)
  have hother (k : String) (hk : k ≠ tradeNo) : creditsOf k (x.credits ++ [c]) = creditsOf k x.credits := by
    have hc : creditsOf k [c] = [] := by simp [creditsOf, href, Ne.symm hk]
    rw [creditsOf_append, hc, List.append_nil]
  refine ⟨?_, ?_, ?_⟩
  · intro y hy
    rcases mem_save hy with rfl | ⟨hin, hne⟩
    · refine ⟨fun _ => ⟨c, ?_, hfor.congr hsame⟩, fun hn => absurd hsuccess hn⟩
      rw [hsame.tradeNo, creditsOf_append, hnone]
      simp [creditsOf, href, htrade]
    · have hk : y.tradeNo ≠ tradeNo := fun he => hne (he.trans (htrade.symm.trans hsame.tradeNo.symm))
      obtain ⟨hs, hn⟩ := h.orders y hin
      unfold Settled CreditedOnce
      rw [hother _ hk]
      exact ⟨hs, hn⟩
  · intro k hk
    have hgone : x.db.topUps.find k = none := find_of_save hk
    have hne : k ≠ tradeNo := by
      rintro rfl
      rw [hgone] at hfind
      cases hfind
    exact (hother k hne).trans (h.known k hgone)
  · intro v hv
    have hold := h.quotas v hv
    have hukey : u.id = t.userId := find_key _ huser
    rw [creditedTo_append]
    by_cases hk : v.id = t.userId
    · have hvu : x.db.users.find v.id = some u := hk ▸ huser
      have hsaved : (x.db.users.save u').find v.id = some u' :=
        find_save_of_key _ (hid.trans (hukey.trans hk.symm)) hvu
      have hc : creditedTo v.id [c] = c.quota := by
        simp [creditedTo, hfor.1, hk]
      rw [hvu] at hold
      have hq : u.quota = v.quota+creditedTo v.id x.credits := some.inj hold
      simp only [hsaved, map_some, hc]
      rw [hquota, hq, add_assoc]
    · have hsaved : (x.db.users.save u').find v.id = x.db.users.find v.id :=
        find_save_of_ne _ (by rw [hid, hukey]; exact hk)
      have hc : creditedTo v.id [c] = 0 := by
        have hne : c.userId ≠ v.id := by
          rw [hfor.1]
          exact Ne.symm hk
        simp [creditedTo, hne]
      simp only [hsaved, hc, add_zero]
      exact hold

end

theorem BooksInv.step (hround : cfg.Rounds) (h : BooksInv cfg users x) (a : Action) (ha : Payable cfg x a) :
    BooksInv cfg users (step cfg x a) := by
  cases a with
  | requestPay t opened => exact h.requestPay t opened
  | callback c =>
    have hout : Outcome cfg c.handler c.tradeNo x.db (handle cfg c x.db) := handle_outcome hround ha
    simp only [Payment.step]
    generalize handle cfg c x.db = out at hout
    cases hout with
    | unchanged => simpa using h
    | closed t status _ hfind hpending hstatus => simpa using h.close hfind hpending hstatus
    | credited t t' u u' entry hfind hpending hsame hsuccess huser hid hquota href hfor =>
      exact h.credit hfind hpending hsame hsuccess huser hid hquota href hfor

end Run

theorem outcome_retryable {cfg : Settings} (hround : cfg.Rounds) {c : Callback} {db : PaymentDb} {credits : List Entry}
    (hok : Payable cfg ⟨db, credits⟩ (.callback c)) (hc : c.handler.completes)
    (hnone : (handle cfg c db).1 = none) :
    (handle cfg c db).2 = db := by
  have hout := handle_outcome hround hok
  generalize handle cfg c db = out at hout hnone
  cases hout with
  | unchanged => rfl
  | closed t status hcloses => rw [hcloses] at hc; cases hc
  | credited => cases hnone

/-- An order is successful exactly when its user has received its quota once, as the handler that has
completed it computes it, and a completion that credits nothing can be tried again, as long as the
users exist and Epay's second write goes through. -/
theorem success_iff_credited (cfg : Settings) (hround : cfg.Rounds) (users : Users) (as : List Action)
    (hok : Along (step cfg) (Payable cfg) (Books.initial users) as) :
    let x := exec (step cfg) (Books.initial users) as
    (∀ t ∈ x.db.topUps.rows, (t.status = .success ↔ CreditedOnce cfg t x.credits) ∧
      (t.status ≠ .success → creditsOf t.tradeNo x.credits = [])) ∧
    (∀ u ∈ users.rows, (x.db.users.find u.id).map User.quota = some (u.quota+creditedTo u.id x.credits)) ∧
    ∀ c : Callback, Payable cfg x (.callback c) → c.handler.completes → (handle cfg c x.db).1 = none →
      (handle cfg c x.db).2 = x.db := by
  intro x
  have hinv : BooksInv cfg users x :=
    exec_invariant (BooksInv cfg users) (fun _ a hx ha => hx.step hround a ha) _ as BooksInv.initial hok
  refine ⟨?_, hinv.quotas, fun c hc hcomp hnone => outcome_retryable hround hc hcomp hnone⟩
  intro t ht
  obtain ⟨hs, hn⟩ := hinv.orders t ht
  refine ⟨⟨hs, ?_⟩, hn⟩
  rintro ⟨c, hc, _⟩
  by_contra hne
  rw [hn hne] at hc
  cases hc

def sampleSettings : Settings := ⟨500000, fun q => some (roundAway q)⟩

def sampleUsers : Users := .single { id := 1, quota := 10 }

def sampleOrder : TopUp := { tradeNo := "T1", userId := 1, amount := 3, money := 21, paymentProvider := .epay }

def sampleNotify (refused : Bool) : Action :=
  .callback ⟨.epay "alipay", "T1", 100, fun s => if refused ∧ s = .creditUser then
    some "connection lost" else none⟩

theorem sampleSettings_rounds : sampleSettings.Rounds := by
  rintro x _ ⟨⟩
  rw [abs_lt, roundAway]
  split
  · have hle := Int.floor_le (x+1/2)
    have hlt := Int.lt_floor_add_one (x+1/2)
    constructor <;> linarith
  · have hle := Int.floor_le (-x+1/2)
    have hlt := Int.lt_floor_add_one (-x+1/2)
    push_cast
    constructor <;> linarith

/-- A Stripe order whose callback is lost once and comes twice, beside a manual completion. -/
def sampleActions : List Action :=
  [.requestPay { sampleOrder with paymentProvider := .stripe } true,
   .callback ⟨.stripe "cus_1", "T1", 100, fun s => if s = .creditUser then some "connection lost" else none⟩,
   .requestPay { sampleOrder with tradeNo := "T2" } true,
   .callback ⟨.stripe "cus_1", "T1", 101, never⟩,
   .callback ⟨.manual, "T2", 102, never⟩,
   .callback ⟨.stripe "cus_1", "T1", 103, never⟩]

theorem success_iff_credited_sample :
    Along (step sampleSettings) (Payable sampleSettings) (Books.initial sampleUsers) sampleActions ∧
      (exec (step sampleSettings) (Books.initial sampleUsers) sampleActions).credits.map (fun c => (c.ref, c.quota)) =
        [(.order "T1", 10500000), (.order "T2", 1500000)] ∧
      ∀ t ∈ (exec (step sampleSettings) (Books.initial sampleUsers) sampleActions).db.topUps.rows,
        t.status = .success ↔
          CreditedOnce sampleSettings t
            (exec (step sampleSettings) (Books.initial sampleUsers) sampleActions).credits := by
  have hok : Along (step sampleSettings) (Payable sampleSettings) (Books.initial sampleUsers) sampleActions := by
    decide +kernel
  refine ⟨hok, by decide +kernel, ?_⟩
  intro t ht
  exact ((success_iff_credited sampleSettings sampleSettings_rounds sampleUsers _ hok).1 t ht).1

/-- Epay: the order is saved as successful, the addition fails, and every later callback
finds an order that is done. -/
theorem epay_success_without_credit :
    let x := exec (step sampleSettings) (Books.initial sampleUsers)
      [.requestPay sampleOrder true, sampleNotify true, sampleNotify false]
    x.db.topUps.rows.map TopUp.status = [.success] ∧ x.credits = [] ∧ x.db.users.rows.map User.quota = [10] := by
  decide +kernel

end AiGateway.Payment
