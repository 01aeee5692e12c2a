import AiGateway.Run
import AiGateway.SubscriptionLedger

/-! Between resets the used amount of a subscription is what its requests hold: no
transaction loses or invents quota, and the floor at zero is never reached. -/
namespace AiGateway.Subscription
open Fault List Table Ledger Run

/-- What the phases leave of a request's quota. An open session holds at least its
`preConsumedQuota`; a rollback of a reservation that failed leaves more. -/
def Session.Bounded (s : Session) : Prop :=
  0 < s.preConsumed ∧ 0 ≤ s.extraReserved ∧ match s.phase with
    | .opened => s.returned = false ∧ s.extraReserved ≤ s.deltas.sum
    | .reserving delta => s.returned = false ∧ 0 < delta ∧ s.extraReserved+delta ≤ s.deltas.sum
    | .settled => 0 ≤ s.held
    | .refunding => s.extraReserved ≤ s.deltas.sum
    | .closed => 0 ≤ s.held

/-- The steps of the callers between two resets: a request id is used for one request,
a request is settled with what it cost and not after its refund, and both
transactions of a refund go through. -/
def StepOk (cfg : Config) (x : Ledger) : Action → Prop
  | .preConsume requestId userId _ now _ => x.db.records.find requestId = none ∧
      ∀ c ∈ candidates x.db userId now, zeroed cfg now c = false
  | .settle requestId actualQuota _ => 0 ≤ actualQuota ∧
      ∀ s ∈ x.sessions.find requestId, s.phase ≠ .refunding ∧ s.phase ≠ .closed
  | .refundFunding _ fails => fails .saveRefund = none ∧ fails .refundCommit = none
  | .resetDue id now _ => ∀ sub ∈ x.db.subs.find id, zeroed cfg now sub = false
  | _ => True

instance (cfg : Config) (x : Ledger) (a : Action) : Decidable (StepOk cfg x a) := by
  cases a <;> unfold StepOk <;> infer_instance

def SubDb.InBounds (db : SubDb) : Prop :=
  ∀ sub ∈ db.subs.rows, 0 ≤ sub.amountUsed ∧ (0 < sub.amountTotal → sub.amountUsed ≤ sub.amountTotal)

instance (db : SubDb) : Decidable db.InBounds :=
  inferInstanceAs (Decidable (∀ sub ∈ db.subs.rows, _))

theorem SubDb.InBounds.find {db : SubDb} (h : db.InBounds) {id : Int} {sub : UserSubscription}
    (hsub : db.subs.find id = some sub) :
    0 ≤ sub.amountUsed ∧ (0 < sub.amountTotal → sub.amountUsed ≤ sub.amountTotal) :=
  h sub ((find_some_iff _ _ _).mp hsub).1

theorem SubDb.inBounds_of_find {db : SubDb} (h : ∀ id sub, db.subs.find id = some sub →
    0 ≤ sub.amountUsed ∧ (0 < sub.amountTotal → sub.amountUsed ≤ sub.amountTotal)) : db.InBounds := by
  intro sub hsub
  exact h sub.id sub (find_mem db.subs sub hsub)

structure Balanced (start : SubDb) (x : Ledger) : Prop where
  recorded : x.Recorded
  bounded : ∀ s ∈ x.sessions.rows, s.Bounded
  inBounds : x.db.InBounds
  exact : ∀ id sub, x.db.subs.find id = some sub →
    ∃ sub0, start.subs.find id = some sub0 ∧ sub.amountUsed = sub0.amountUsed+x.heldOn id

variable {s : Session}

theorem Session.Bounded.held_nonneg (h : s.Bounded) : 0 ≤ s.held := by
  obtain ⟨hp, he, hphase⟩ := h
  unfold Session.held
  split at hphase
  · rw [hphase.1]
    simp only [Bool.false_eq_true, if_false]
    omega
  · rw [hphase.1]
    simp only [Bool.false_eq_true, if_false]
    omega
  · exact hphase
  · split <;> omega
  · exact hphase

namespace Balanced

variable {start : SubDb} {x : Ledger} {s' : Session}

theorem heldOn_save (hs : x.sessions.find s'.requestId = some s)
    (hsub : s'.subscriptionId = s.subscriptionId) (id : Int) :
    (x.sessions.save s').total (fun s => if s.subscriptionId = id then s.held else 0) =
      x.heldOn id+(if s.subscriptionId = id then s'.held-s.held else 0) := by
  rw [total_save _ _ hs, heldOn, hsub]
  split <;> omega

theorem held_le (h : Balanced start x) {requestId : String}
    (hs : x.sessions.find requestId = some s) : s.held ≤ x.heldOn s.subscriptionId := by
  have hle := le_total (fun t => if t.subscriptionId = s.subscriptionId then t.held else 0)
    x.sessions hs (by
      intro t ht
      have hnn := (h.bounded t ht).held_nonneg
      split <;> omega)
  simpa only [if_true, heldOn] using hle

theorem move (h : Balanced start x) (hstart : start.InBounds) {delta : Int}
    (hs : x.sessions.find s'.requestId = some s) (hsub : s'.subscriptionId = s.subscriptionId)
    (hheld : s'.held = s.held+delta) (hb : s'.Bounded) {sub : UserSubscription}
    (hrow : x.db.subs.find s.subscriptionId = some sub)
    (hlim : 0 < sub.amountTotal → clampUsed sub.amountUsed delta ≤ sub.amountTotal)
    {records : Table SubscriptionPreConsumeRecord.requestId}
    (hrec : ∀ t ∈ (x.sessions.save s').rows, records.find t.requestId = some t.record) (g : Int → Int) :
    Balanced start ⟨⟨x.db.subs.save { sub with amountUsed := clampUsed sub.amountUsed delta }, records⟩,
      x.sessions.save s', g⟩ := by
  have hid : sub.id = s.subscriptionId := find_key x.db.subs hrow
  obtain ⟨sub0, h0, hused⟩ := h.exact _ sub hrow
  have hfloor : clampUsed sub.amountUsed delta = sub.amountUsed+delta := by
    have hnew := hb.held_nonneg
    have hall := h.held_le hs
    have hold := (hstart.find h0).1
    unfold clampUsed
    rw [if_neg (by omega)]
  refine ⟨hrec, forall_save h.bounded hb, ?_, ?_⟩
  · exact forall_save h.inBounds ⟨clampUsed_nonneg sub.amountUsed delta, hlim⟩
  · intro id r hr
    have hsum := heldOn_save hs hsub id
    change ∃ r0, start.subs.find id = some r0 ∧ r.amountUsed = r0.amountUsed+(x.sessions.save s').total _
    rw [hsum]
    rcases find_save_some hr with ⟨hk, rfl⟩ | ⟨hk, hr⟩
    · have hk : id = s.subscriptionId := hk.trans hid
      subst hk
      refine ⟨sub0, h0, ?_⟩
      rw [if_pos rfl]
      change clampUsed sub.amountUsed delta = _
      rw [hfloor]
      omega
    · obtain ⟨r0, hr0, hu⟩ := h.exact id r hr
      have hne : s.subscriptionId ≠ id := fun he => hk (he.symm.trans hid.symm)
      refine ⟨r0, hr0, ?_⟩
      rw [if_neg hne]
      omega

/-- The callers settle a request with what it cost, and not after its refund. -/
def Settles (s : Session) (actualQuota : Int) : Prop :=
  0 ≤ actualQuota ∧ s.phase ≠ .refunding ∧ s.phase ≠ .closed

theorem bounded_next {delta : Int} (hb : s.Bounded) (h : s.Next Settles delta s') : s'.Bounded := by
  have hheld := hb.held_nonneg
  obtain ⟨hsum, -⟩ := h.kept
  obtain ⟨hp, he, hphase⟩ := id hb
  cases h with
  | same => exact hb
  | reserve ho hd =>
    rw [ho] at hphase
    refine ⟨hp, he, hphase.1, hd, ?_⟩
    change s.extraReserved+_ ≤ (_ :: s.deltas).sum
    rw [sum_cons]
    omega
  | reserved hr =>
    rw [hr] at hphase
    exact ⟨hp, by change 0 ≤ s.extraReserved+_; omega, hphase.1, hphase.2.2⟩
  | reopened hr =>
    rw [hr] at hphase
    exact ⟨hp, he, hphase.1, by change s.extraReserved ≤ s.deltas.sum; omega⟩
  | @rolledBack delta hr =>
    rw [hr] at hphase
    refine ⟨hp, he, hphase.1, ?_⟩
    change s.extraReserved ≤ (-delta :: s.deltas).sum
    rw [sum_cons]
    omega
  | settledEven | closed => exact ⟨hp, he, hheld⟩
  | settled hres hset hok =>
    cases ho : s.phase with
    | reserving => exact absurd ho (hres _)
    | settled => exact absurd ho hset
    | refunding => exact absurd ho hok.2.1
    | closed => exact absurd ho hok.2.2
    | opened =>
      -- What is left is at least the actual quota.
      rw [ho] at hphase
      refine ⟨hp, he, ?_⟩
      change 0 ≤ Session.held _
      rw [hsum]
      simp only [Session.held, hphase.1, Session.quota, Bool.false_eq_true, if_false]
      have := hok.1
      omega
  | refund ho =>
    rw [ho] at hphase
    exact ⟨hp, he, hphase.2⟩
  | returned hr =>
    rw [hr] at hphase
    exact ⟨hp, he, by simpa only [hr] using hphase⟩
  | extra hr =>
    rw [hr] at hphase
    refine ⟨hp, he, ?_⟩
    change 0 ≤ Session.held _
    rw [hsum]
    unfold Session.held
    split <;> omega

theorem turn (h : Balanced start x) (hstart : start.InBounds) (hs : x.sessions.find s.requestId = some s) {y : Ledger}
    (ht : x.Turn Settles s y) : Balanced start y := by
  have hb := h.bounded s ((find_some_iff _ _ _).mp hs).1
  cases ht with
  | idle => exact h
  | @session s' hn hrec =>
    obtain ⟨hheld, _, hid, hsub⟩ := hn.kept
    rw [← hid] at hs
    refine ⟨h.recorded.save hs hrec, forall_save h.bounded (bounded_next hb hn), h.inBounds, ?_⟩
    intro id sub hid
    obtain ⟨sub0, h0, hused⟩ := h.exact id sub hid
    have hsum := heldOn_save hs hsub id
    have hz : s'.held-s.held = 0 := by omega
    rw [hz, ite_self, Int.add_zero] at hsum
    exact ⟨sub0, h0, hused.trans (congrArg _ hsum.symm)⟩
  | @move delta s' sub records hn hrow hlim hrec =>
    obtain ⟨hheld, _, hid, hsub⟩ := hn.kept
    rw [← hid] at hs
    refine h.move hstart hs hsub hheld (bounded_next hb hn) hrow ?_ hrec _
    intro ht
    have hold := h.inBounds.find hrow
    rcases hlim ht with hle | hle
    · exact hle
    · unfold clampUsed
      split <;> omega

variable {fails : Stmt → Option String}

theorem preConsume (h : Balanced start x) {cfg : Config} {requestId : String} {userId amount now : Int}
    (hn : x.db.records.find requestId = none)
    (hreset : ∀ c ∈ candidates x.db userId now, zeroed cfg now c = false) :
    Balanced start (x.preConsume cfg requestId userId amount now fails) := by
  rcases x.preConsume_fresh hn with he | ⟨c, hc, db', hch, hamount, he⟩
  · rw [he]
    exact h
  have hids : resetIds cfg now (candidates x.db userId now) c.id = [] := by
    apply eq_nil_iff_forall_not_mem.mpr
    intro k hk
    obtain ⟨d, hd, hz, _⟩ := (mem_resetIds _ k).mp hk
    rw [hreset d (visited_subset _ hd)] at hz
    cases hz
  have hnew := h.recorded.find_none hn
  rw [he, hids, newPeriod_nil]
  refine ⟨h.recorded.opened hn hch, ?_, ?_, ?_⟩
  · exact forall_insert h.bounded ⟨hamount, Int.le_refl 0, rfl, Int.le_refl 0⟩
  · apply SubDb.inBounds_of_find
    intro k sub' hk
    have hk : db'.subs.find k = some sub' := hk
    obtain ⟨sub, hsub, htotal, hused⟩ := hch.usage hc (find_candidate x.db userId now) hk
    rw [hids, if_neg not_mem_nil] at hused
    have hb := h.inBounds.find hsub
    by_cases hkc : k = c.id
    · subst hkc
      have hsame : sub = c := Option.some.inj (hsub.symm.trans hch.found)
      have hfits := hch.fits
      rw [resetRow_of_not_zeroed (hreset c hc)] at hfits
      rw [if_pos rfl] at hused
      subst hsame
      exact ⟨by omega, by omega⟩
    · rw [if_neg hkc] at hused
      exact ⟨by omega, by omega⟩
  · intro k sub' hk
    have hk : db'.subs.find k = some sub' := hk
    obtain ⟨sub, hsub, _, hused⟩ := hch.usage hc (find_candidate x.db userId now) hk
    rw [hids, if_neg not_mem_nil] at hused
    obtain ⟨sub0, h0, hexact⟩ := h.exact k sub hsub
    refine ⟨sub0, h0, ?_⟩
    change sub'.amountUsed = sub0.amountUsed+(x.sessions.insert _).total _
    rw [total_insert _ _ hnew, hused, hexact]
    simp only [held_opened, heldOn, eq_comm (a := k)]
    omega

theorem resetDue (h : Balanced start x) {cfg : Config} {id now : Int}
    (hreset : ∀ sub, x.db.subs.find id = some sub → zeroed cfg now sub = false) :
    Balanced start (x.resetDue cfg id now fails) := by
  rcases x.resetDue_cases with he | ⟨sub, _, db, hsub, hids, he, hrecords, hrow⟩
  · rw [he]
    exact h
  rw [he, hids (hreset sub hsub), newPeriod_nil]
  rw [hids (hreset sub hsub)] at hrow
  refine ⟨?_, h.bounded, ?_, ?_⟩
  · intro s hs
    change db.records.find s.requestId = _
    rw [hrecords]
    exact h.recorded s hs
  · apply SubDb.inBounds_of_find
    intro k r hr
    obtain ⟨r0, hr0, ht, hu⟩ := hrow k r hr
    rw [if_neg not_mem_nil] at hu
    rw [ht, hu]
    exact h.inBounds.find hr0
  · intro k r hr
    obtain ⟨r0, hr0, _, hu⟩ := hrow k r hr
    rw [if_neg not_mem_nil] at hu
    rw [hu]
    exact h.exact k r0 hr0

theorem step (h : Balanced start x) (hstart : start.InBounds) (cfg : Config) (a : Action)
    (ha : StepOk cfg x a) : Balanced start (Subscription.step cfg x a) := by
  have hbounded {s : Session} (hs : x.sessions.find s.requestId = some s) : s.Bounded :=
    h.bounded s ((find_some_iff _ _ _).mp hs).1
  cases a with
  | preConsume => exact h.preConsume ha.1 ha.2
  | reserve => exact onSession_rule h fun s hs _ => h.turn hstart hs (turn_reserve h.recorded hs)
  | reserveToken =>
    refine onSession_rule h fun s hs _ => h.turn hstart hs (turn_reserveToken h.recorded hs ?_)
    intro d hd
    have hphase := (hbounded hs).2.2
    rw [hd] at hphase
    exact hphase.2.1.ne'
  | settle =>
    exact onSession_rule h fun s hs hid => h.turn hstart hs (turn_settle h.recorded hs ⟨ha.1, ha.2 s (hid ▸ hs)⟩)
  | refund => exact onSession_rule h fun s hs _ => h.turn hstart hs turn_refund
  | refundFunding =>
    exact onSession_rule h fun s hs _ => h.turn hstart hs (turn_refundFunding h.recorded hs (hbounded hs).1 ha.1 ha.2)
  | refundExtra => exact onSession_rule h fun s hs _ => h.turn hstart hs (turn_refundExtra h.recorded hs)
  | resetDue => exact h.resetDue ha

theorem initial (hstart : start.InBounds) : Balanced start (Ledger.initial start) := by
  refine ⟨?_, ?_, hstart, ?_⟩
  · intro s hs
    cases hs
  · intro s hs
    cases hs
  · intro id sub hsub
    exact ⟨sub, hsub, (Int.add_zero _).symm⟩

end Balanced

/-- Between resets every used amount stays non-negative and within its limit, and is the
starting amount plus what the requests on the subscription hold: their unrefunded
pre-consumes and the deltas applied for them. -/
theorem subscription_accounting (cfg : Config) (start : SubDb) (hstart : start.InBounds)
    (acts : List Action) (hrun : Along (step cfg) (StepOk cfg) (Ledger.initial start) acts) :
    let x := exec (step cfg) (initial start) acts
    (∀ id sub, x.db.subs.find id = some sub →
      0 ≤ sub.amountUsed ∧ (0 < sub.amountTotal → sub.amountUsed ≤ sub.amountTotal) ∧
      ∃ sub0, start.subs.find id = some sub0 ∧ sub.amountUsed = sub0.amountUsed+x.heldOn id) ∧
    ∀ s ∈ x.sessions.rows, x.db.records.find s.requestId = some s.record := by
  have hfinal := exec_invariant (Balanced start) (fun x a hx ha => hx.step hstart cfg a ha)
    (initial start) acts (Balanced.initial hstart) hrun
  refine ⟨?_, hfinal.recorded⟩
  intro id sub hsub
  have hb := hfinal.inBounds.find hsub
  exact ⟨hb.1, hb.2, hfinal.exact id sub hsub⟩

def sampleConfig : Config := ⟨fun id => if id = 1 then some { id := 1 } else none, 0⟩

def sampleDb : SubDb :=
  ⟨Table.single { id := 1, userId := 7, planId := 1, amountTotal := 100, amountUsed := 40, endTime := 5000 },
    Table.empty⟩

def sampleActions : List Action :=
  [.preConsume "a" 7 10 1000 never, .preConsume "b" 7 20 1000 never, .reserve "a" 25 never,
    .reserveToken "a" true never, .refund "b", .settle "a" 5 never, .refundFunding "b" never,
    .refundExtra "b" never]

theorem subscription_accounting_sample :
    (exec (step sampleConfig) (Ledger.initial sampleDb) sampleActions).db.subs.rows.map
      UserSubscription.amountUsed = [45] ∧
    (∀ id sub, (exec (step sampleConfig) (Ledger.initial sampleDb) sampleActions).db.subs.find id = some sub →
      0 ≤ sub.amountUsed) := by
  have hrun : Along (step sampleConfig) (StepOk sampleConfig) (initial sampleDb) sampleActions := by
    decide
  refine ⟨by decide, ?_⟩
  intro id sub hsub
  exact ((subscription_accounting sampleConfig sampleDb (by decide) sampleActions hrun).1 id sub hsub).1

end AiGateway.Subscription
