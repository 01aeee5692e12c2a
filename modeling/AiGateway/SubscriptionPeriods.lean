import AiGateway.Run
import AiGateway.SubscriptionLedger

/-! Periods. The record of a request does not say in which period it pre-consumed, so what a request gives
back after a reset comes off the new period. -/
namespace AiGateway.Subscription
open Fault Table Ledger Run

/-- The steps of the callers: each request has an id of its own, and both transactions of a
refund go through. -/
def PeriodOk (x : Ledger) : Action → Prop
  | .preConsume requestId _ _ _ _ => x.db.records.find requestId = none
  | .refundFunding _ fails => fails .saveRefund = none ∧ fails .refundCommit = none
  | _ => True

instance (x : Ledger) (a : Action) : Decidable (PeriodOk x a) :=
  match a with
  | .preConsume .. => inferInstanceAs (Decidable (_ = none))
  | .refundFunding .. => inferInstanceAs (Decidable (_ ∧ _))
  | .reserve .. | .reserveToken .. | .settle .. | .refund _ | .refundExtra .. | .resetDue .. => .isTrue trivial

/-- A session pre-consumed something, and a reservation on the way is not empty. -/
def Session.Proper (s : Session) : Prop := 0 < s.preConsumed ∧ ∀ d, s.phase = .reserving d → d ≠ 0

/-- The requests of the current period are covered by the used amount and by what earlier
requests gave back since the reset. -/
structure Covered (x : Ledger) : Prop where
  recorded : x.Recorded
  proper : ∀ s ∈ x.sessions.rows, s.Proper
  nonneg : ∀ id sub, x.db.subs.find id = some sub → 0 ≤ sub.amountUsed
  covers : ∀ id sub, x.db.subs.find id = some sub → x.currentOn id ≤ sub.amountUsed+x.givenBack id

theorem Ledger.currentOn_newPeriod (x : Ledger) (ids : List Int) (k : Int) :
    (x.newPeriod ids).currentOn k = if k ∈ ids then 0 else x.currentOn k := by
  have hupdate : (x.newPeriod ids).currentOn k = x.sessions.total (fun s =>
      if s.subscriptionId = k ∧ (s.current = true ∧ s.subscriptionId ∉ ids) then s.held else 0) := by
    rw [currentOn, newPeriod, total_update]
    congr 1
    funext s
    by_cases hin : s.subscriptionId ∈ ids <;> simp [hin]
  rw [hupdate]
  split
  · next hk =>
    have hnone : (fun s : Session => if s.subscriptionId = k ∧ (s.current = true ∧ s.subscriptionId ∉ ids)
        then s.held else 0) = fun _ => 0 := by
      funext s
      rw [if_neg]
      rintro ⟨hs, _, hn⟩
      exact hn (hs ▸ hk)
    rw [hnone, total_zero]
  · next hk =>
    unfold currentOn
    congr 1
    funext s
    by_cases hs : s.subscriptionId = k
    · simp [hs, hk]
    · simp [hs]

namespace Covered

variable {x : Ledger}

variable {s : Session} {fails : Stmt → Option String}

theorem currentOn_save {s' : Session} (hs : x.sessions.find s'.requestId = some s)
    (hsub : s'.subscriptionId = s.subscriptionId) (hcur : s'.current = s.current) (id : Int) :
    (x.sessions.save s').total (fun s => if s.subscriptionId = id ∧ s.current = true then s.held else 0) =
      x.currentOn id+(if s.subscriptionId = id ∧ s.current = true then s'.held-s.held else 0) := by
  rw [total_save _ _ hs, currentOn, hsub, hcur]
  split <;> omega

theorem move (h : Covered x) {s' : Session} {delta : Int} (hs : x.sessions.find s'.requestId = some s)
    (hsub : s'.subscriptionId = s.subscriptionId) (hcur : s'.current = s.current) (hp : s'.Proper)
    (hheld : s'.held = s.held+delta) {sub : UserSubscription}
    (hrow : x.db.subs.find s.subscriptionId = some sub) {records : Table SubscriptionPreConsumeRecord.requestId}
    (hrec : ∀ t ∈ (x.sessions.save s').rows, records.find t.requestId = some t.record) :
    Covered ⟨⟨x.db.subs.save { sub with amountUsed := clampUsed sub.amountUsed delta }, records⟩,
      x.sessions.save s', x.credit s (-delta)⟩ := by
  have hid : sub.id = s.subscriptionId := find_key x.db.subs hrow
  have hclamp := le_clampUsed sub.amountUsed delta
  have hfind (id : Int) (r : UserSubscription)
      (hr : (x.db.subs.save { sub with amountUsed := clampUsed sub.amountUsed delta }).find id = some r) :
      id = s.subscriptionId ∧ r.amountUsed = clampUsed sub.amountUsed delta ∨
        id ≠ s.subscriptionId ∧ x.db.subs.find id = some r := by
    rcases find_save_some hr with ⟨hk, rfl⟩ | ⟨hk, hr⟩
    · exact .inl ⟨hk.trans hid, rfl⟩
    · exact .inr ⟨fun he => hk (he.trans hid.symm), hr⟩
  refine ⟨hrec, forall_save h.proper hp, ?_, ?_⟩
  · intro id r hr
    rcases hfind id r hr with ⟨_, hu⟩ | ⟨_, hold⟩
    · rw [hu]
      exact clampUsed_nonneg sub.amountUsed delta
    · exact h.nonneg id r hold
  · intro id r hr
    have hsum := currentOn_save hs hsub hcur id
    change (x.sessions.save s').total _ ≤ r.amountUsed+x.credit s (-delta) id
    rw [hsum]
    have hdiff : s'.held-s.held = delta := by omega
    rw [hdiff]
    unfold credit
    rcases hfind id r hr with ⟨hk, hu⟩ | ⟨hk, hold⟩
    · subst hk
      have hcovers := h.covers s.subscriptionId sub hrow
      cases hc : s.current with
      | true =>
        simp only [true_and, Bool.true_eq_false, if_false, and_true, if_true]
        omega
      | false =>
        simp only [Bool.false_eq_true, and_false, if_false, and_true, if_true]
        omega
    · have hcovers := h.covers id r hold
      rw [if_neg (fun hh => hk hh.1.symm), if_neg (fun hh => hk hh.1)]
      omega

theorem turn (h : Covered x) (hs : x.sessions.find s.requestId = some s) {y : Ledger}
    (ht : x.Turn (fun _ _ => True) s y) : Covered y := by
  have hp := h.proper s ((find_some_iff _ _ _).mp hs).1
  have hproper {delta : Int} {s' : Session} (hn : s.Next (fun _ _ => True) delta s') : s'.Proper := by
    cases hn with
    | same | returned => exact hp
    | reserve _ hd =>
      refine ⟨hp.1, fun d h => ?_⟩
      cases h
      exact hd.ne'
    | _ => exact ⟨hp.1, nofun⟩
  cases ht with
  | idle => exact h
  | @session s' hn hrec =>
    obtain ⟨hheld, hcur, hid, hsub⟩ := hn.kept
    rw [← hid] at hs
    refine ⟨h.recorded.save hs hrec, forall_save h.proper (hproper hn), h.nonneg, ?_⟩
    intro id sub hid
    have hsum := currentOn_save hs hsub hcur id
    have hz : s'.held-s.held = 0 := by omega
    rw [hz, ite_self, Int.add_zero] at hsum
    exact hsum.le.trans (h.covers id sub hid)
  | @move delta s' sub records hn hrow _ hrec =>
    obtain ⟨hheld, hcur, hid, hsub⟩ := hn.kept
    rw [← hid] at hs
    exact h.move hs hsub hcur (hproper hn) hheld hrow hrec

theorem preConsume (h : Covered x) {cfg : Config} {requestId : String} {userId amount now : Int}
    (hn : x.db.records.find requestId = none) : Covered (x.preConsume cfg requestId userId amount now fails) := by
  rcases x.preConsume_fresh hn with he | ⟨c, hc, db', hch, hamount, he⟩
  · rw [he]
    exact h
  rw [he]
  generalize hids : resetIds cfg now (candidates x.db userId now) c.id = ids
  have hnew : (x.newPeriod ids).sessions.find requestId = none := by
    rw [newPeriod, find_update, h.recorded.find_none hn]
    rfl
  have husage (k : Int) (sub' : UserSubscription) (hk : db'.subs.find k = some sub') :
      ∃ sub, x.db.subs.find k = some sub ∧
        sub'.amountUsed = (if k ∈ ids then 0 else sub.amountUsed)+(if k = c.id then amount else 0) := by
    obtain ⟨sub, hsub, _, hused⟩ := hch.usage hc (find_candidate x.db userId now) hk
    rw [hids] at hused
    exact ⟨sub, hsub, hused⟩
  refine ⟨(h.recorded.newPeriod ids).opened hn hch, ?_, ?_, ?_⟩
  · exact forall_insert (forall_newPeriod h.proper (fun _ hs => hs) ids) ⟨hamount, by simp⟩
  · intro k sub' hk
    obtain ⟨sub, hsub, hused⟩ := husage k sub' hk
    have hnn := h.nonneg k sub hsub
    rw [hused]
    split <;> split <;> omega
  · intro k sub' hk
    obtain ⟨sub, hsub, hused⟩ := husage k sub' hk
    have hcovers := h.covers k sub hsub
    have hcur := x.currentOn_newPeriod ids k
    change ((x.newPeriod ids).sessions.insert _).total _ ≤ sub'.amountUsed+(x.newPeriod ids).givenBack k
    rw [total_insert _ _ hnew, hused]
    have hback : (x.newPeriod ids).givenBack k = if k ∈ ids then 0 else x.givenBack k := rfl
    have hsum : (x.newPeriod ids).sessions.total
        (fun s => if s.subscriptionId = k ∧ s.current = true then s.held else 0) =
          (x.newPeriod ids).currentOn k := rfl
    simp only [held_opened, and_true, eq_comm (a := c.id)]
    rw [hsum, hcur, hback]
    by_cases hk : k ∈ ids
    · simp only [if_pos hk]
      omega
    · simp only [if_neg hk]
      omega

theorem resetDue (h : Covered x) {cfg : Config} {id now : Int} : Covered (x.resetDue cfg id now fails) := by
  rcases x.resetDue_cases with he | ⟨sub, ids, db, _, _, he, hrecords, hrow⟩
  · rw [he]
    exact h
  rw [he]
  refine ⟨?_, forall_newPeriod h.proper (fun _ hs => hs) ids, ?_, ?_⟩
  · intro t ht
    change db.records.find t.requestId = some t.record
    rw [hrecords]
    exact h.recorded.newPeriod ids t ht
  · intro k r hr
    obtain ⟨r0, hr0, _, hu⟩ := hrow k r hr
    have hnn := h.nonneg k r0 hr0
    rw [hu]
    split <;> omega
  · intro k r hr
    obtain ⟨r0, hr0, _, hu⟩ := hrow k r hr
    have hcovers := h.covers k r0 hr0
    have hcur := x.currentOn_newPeriod ids k
    change (x.newPeriod ids).currentOn k ≤ r.amountUsed+(if k ∈ ids then 0 else x.givenBack k)
    rw [hcur, hu]
    split <;> omega

theorem step (h : Covered x) (cfg : Config) (a : Action) (ha : PeriodOk x a) : Covered (Subscription.step cfg x a) := by
  have hproper {s : Session} (hs : x.sessions.find s.requestId = some s) : s.Proper :=
    h.proper s ((find_some_iff _ _ _).mp hs).1
  cases a with
  | preConsume => exact h.preConsume ha
  | reserve => exact onSession_rule h fun s hs _ => h.turn hs (turn_reserve h.recorded hs)
  | reserveToken => exact onSession_rule h fun s hs _ => h.turn hs (turn_reserveToken h.recorded hs (hproper hs).2)
  | settle => exact onSession_rule h fun s hs _ => h.turn hs (turn_settle h.recorded hs trivial)
  | refund => exact onSession_rule h fun s hs _ => h.turn hs turn_refund
  | refundFunding =>
    exact onSession_rule h fun s hs _ => h.turn hs (turn_refundFunding h.recorded hs (hproper hs).1 ha.1 ha.2)
  | refundExtra => exact onSession_rule h fun s hs _ => h.turn hs (turn_refundExtra h.recorded hs)
  | resetDue => exact h.resetDue

end Covered

/-- In every run the used amount of a subscription is at least what the requests of the current period hold, less what
earlier requests have given back since the reset. -/
theorem usage_covers_current_period (cfg : Config) (start : SubDb)
    (hstart : ∀ sub ∈ start.subs.rows, 0 ≤ sub.amountUsed) (acts : List Action)
    (hrun : Along (step cfg) PeriodOk (Ledger.initial start) acts) :
    let x := exec (step cfg) (initial start) acts
    ∀ id sub, x.db.subs.find id = some sub → x.currentOn id-x.givenBack id ≤ sub.amountUsed := by
  intro x id sub hsub
  have hused (id : Int) (sub : UserSubscription) (h : start.subs.find id = some sub) : 0 ≤ sub.amountUsed :=
    hstart sub ((find_some_iff _ _ _).mp h).1
  have hinit : Covered (initial start) := by
    refine ⟨?_, ?_, hused, ?_⟩
    · intro s hs
      cases hs
    · intro s hs
      cases hs
    · intro k r hr
      have hnn := hused k r hr
      change (0 : Int) ≤ r.amountUsed+0
      omega
  have hfinal : Covered x :=
    exec_invariant Covered (fun x a hx ha => hx.step cfg a ha) (initial start) acts hinit hrun
  have hcovers := hfinal.covers id sub hsub
  omega

def dailyConfig : Config :=
  ⟨fun id => if id = 1 then some { id := 1, quotaResetPeriod := .daily } else none, 0⟩

def dailyDb : SubDb :=
  ⟨Table.single { id := 1, userId := 7, planId := 1, amountTotal := 100, startTime := 1000, endTime := 864000
                  lastResetTime := 1000, nextResetTime := 86400 }, Table.empty⟩

/-- Request `a` pre-consumes on the first day and `b` after the reset; then `a` is refunded. -/
def dailyActions : List Action :=
  [.preConsume "a" 7 10 50000 never, .resetDue 1 90000 never, .preConsume "b" 7 20 91000 never,
    .refund "a", .refundFunding "a" never]

theorem usage_covers_current_period_sample :
    (exec (step dailyConfig) (Ledger.initial dailyDb) dailyActions).givenBack 1 = 10 ∧
    ∀ sub, (exec (step dailyConfig) (Ledger.initial dailyDb) dailyActions).db.subs.find 1 = some sub →
      20-10 ≤ sub.amountUsed := by
  have hrun : Along (step dailyConfig) PeriodOk (initial dailyDb) dailyActions := by decide
  have hback : (exec (step dailyConfig) (initial dailyDb) dailyActions).givenBack 1 = 10 := by decide
  have hcurrent : (exec (step dailyConfig) (initial dailyDb) dailyActions).currentOn 1 = 20 := by decide
  refine ⟨hback, ?_⟩
  intro sub hsub
  have hcovers := usage_covers_current_period dailyConfig dailyDb (by decide) dailyActions hrun 1 sub hsub
  rw [hback, hcurrent] at hcovers
  exact hcovers

/-- The refund of the first day's request leaves less than the second day has consumed. -/
theorem refund_takes_from_current_period :
    let x := exec (step dailyConfig) (initial dailyDb) dailyActions
    x.currentOn 1 = 20 ∧ x.db.subs.rows.map UserSubscription.amountUsed = [10] := by
  decide

end AiGateway.Subscription
