import AiGateway.Run
import AiGateway.SubscriptionStoreSpec

/-! How much the attempts to refund one request give back. -/
namespace AiGateway.Subscription
open GoText Fault List Table Run

abbrev FaultPlan := Stmt → Option String

def deltaStatements (f : FaultPlan) : Except String Unit := do
  attempt f .findRefund
  attempt f .findDelta
  attempt f .saveDelta
  attempt f .deltaCommit

def recordStatements (f : FaultPlan) : Except String Unit := do
  attempt f .saveRefund
  attempt f .refundCommit

def commitsDelta (f : FaultPlan) : Bool := (deltaStatements f).isOk

def completes (f : FaultPlan) : Bool := commitsDelta f && (recordStatements f).isOk

def deltasCommitted : List FaultPlan → ℕ
  | [] => 0
  | f :: fs => if completes f then 1 else (if commitsDelta f then 1 else 0)+deltasCommitted fs

/-- A caller: one attempt, or `SubscriptionFunding.Refund` with its retries. -/
inductive RefundCall
  | once (fails : FaultPlan)
  | retry (fails : ℕ → FaultPlan)

variable (requestId : String)

def RefundCall.run (db : SubDb) : RefundCall → Except String Unit × SubDb
  | .once fails => refundSubscriptionPreConsume fails requestId db
  | .retry fails => refundWithRetry (fun i => refundSubscriptionPreConsume (fails i) requestId) db

def RefundCall.plans : RefundCall → List FaultPlan
  | .once fails => [fails]
  | .retry fails => (List.range' 0 maxAttempts).map fails

structure Refunding where
  db : SubDb
  -- Some attempt has returned success.
  succeeded : Bool

def Refunding.after (x : Refunding) (out : Except String Unit × SubDb) : Refunding :=
  ⟨out.2, x.succeeded || out.1.isOk⟩

def attemptStep (x : Refunding) (f : FaultPlan) : Refunding :=
  x.after (refundSubscriptionPreConsume f requestId x.db)

def refundStep (x : Refunding) (c : RefundCall) : Refunding :=
  x.after (c.run requestId x.db)

/-- The request's record has this status and its subscription this used amount. -/
structure Stands (record : SubscriptionPreConsumeRecord) (total : Int)
    (status : RecordStatus) (used : Int) (db : SubDb) : Prop where
  stored : db.records.find requestId = some { record with status := status }
  row : ∃ sub, db.subs.find record.userSubscriptionId = some sub ∧ sub.amountTotal = total ∧ sub.amountUsed = used

section Attempts

variable {requestId : String} {record : SubscriptionPreConsumeRecord} {total used : Int} {db : SubDb}

variable {sub : UserSubscription} {f : FaultPlan}

theorem postConsume_refund {amount : Int} (f : FaultPlan)
    (hsub : db.subs.find sub.id = some sub) (hid : 0 < sub.id) (hpos : 0 < amount)
    (hused : 0 ≤ sub.amountUsed) (hlim : 0 < sub.amountTotal → sub.amountUsed ≤ sub.amountTotal) :
    postConsumeUserSubscriptionDelta f sub.id (-amount) db =
      (do attempt f .findDelta; attempt f .saveDelta; attempt f .deltaCommit
          return { db with subs := db.giveBack sub amount }) := by
  have hle : clampUsed sub.amountUsed (-amount) ≤ sub.amountUsed := by
    unfold clampUsed
    split <;> omega
  have hfits : ¬ (0 < sub.amountTotal ∧ sub.amountTotal < clampUsed sub.amountUsed (-amount)) := by
    omega
  rw [postConsumeUserSubscriptionDelta, if_neg (by omega), if_neg (by omega)]
  simp only [hsub, if_neg hfits, SubDb.giveBack]

theorem Stands.giveBack (h : Stands requestId record total .consumed used db)
    (hsub : db.subs.find record.userSubscriptionId = some sub) (amount : Int)
    (records : Table SubscriptionPreConsumeRecord.requestId) (status : RecordStatus)
    (hrec : records.find requestId = some { record with status := status }) :
    Stands requestId record total status (clampUsed used (-amount)) ⟨db.giveBack sub amount, records⟩ := by
  obtain ⟨sub0, hsub0, ht, hu⟩ := h.row
  have hsame : sub0 = sub := Option.some.inj (hsub0.symm.trans hsub)
  subst hsame
  have hid := find_key db.subs hsub
  refine ⟨hrec, ⟨{ sub0 with amountUsed := clampUsed sub0.amountUsed (-amount) }, ?_, ht, by rw [← hu]⟩⟩
  exact find_save_of_key db.subs hid hsub

section

variable (h : Stands requestId record total .consumed used db) (hname : trimSpace requestId ≠ "")
  (hid : 0 < record.userSubscriptionId) (hpos : 0 < record.preConsumed) (hused : 0 ≤ used)
  (hlim : 0 < total → used ≤ total)

include h hname hid hpos hused hlim

theorem Stands.refund_eq (hsub : db.subs.find record.userSubscriptionId = some sub) (f : FaultPlan) :
    refundSubscriptionPreConsume f requestId db = match deltaStatements f with
      | .error e => (.error e, db)
      | .ok _ =>
        match recordStatements f with
        | .error e => (.error e, { db with subs := db.giveBack sub record.preConsumed })
        | .ok _ => (.ok (), ⟨db.giveBack sub record.preConsumed,
            db.records.save { record with status := .refunded }⟩) := by
  obtain ⟨sub0, hsub0, ht, hu⟩ := h.row
  have hsame : sub0 = sub := Option.some.inj (hsub0.symm.trans hsub)
  subst hsame
  have hkey : sub0.id = record.userSubscriptionId := find_key db.subs hsub
  have hz : ¬ record.preConsumed ≤ 0 := by omega
  have hdelta := postConsume_refund f (hkey ▸ hsub) (hkey ▸ hid) hpos (hu ▸ hused) (by rw [ht, hu]; exact hlim)
  rw [hkey] at hdelta
  rw [refundSubscriptionPreConsume, if_neg hname, h.stored]
  unfold deltaStatements recordStatements
  cases h1 : f .findRefund with
  | some => simp only [attempt, h1]; rfl
  | none =>
    dsimp only
    rw [if_neg (by simp), if_neg hz, hdelta]
    -- The remaining statements are the same on both sides.
    have hfind : attempt f .findRefund = .ok () := by rw [attempt, h1]
    rw [hfind, ok_bind]
    cases attempt f .findDelta with
    | error => rfl
    | ok _ =>
      cases attempt f .saveDelta with
      | error => rfl
      | ok _ =>
        cases attempt f .deltaCommit with
        | error | ok => rfl

theorem Stands.attempt (f : FaultPlan) :
    (refundSubscriptionPreConsume f requestId db).1.isOk = completes f ∧
      Stands requestId record total (if completes f then .refunded else .consumed)
        (if commitsDelta f then clampUsed used (-record.preConsumed) else used)
        (refundSubscriptionPreConsume f requestId db).2 := by
  obtain ⟨_, hsub, _⟩ := h.row
  have hback := h.giveBack hsub record.preConsumed
  have hsaved : (db.records.save { record with status := .refunded }).find requestId =
      some { record with status := .refunded } := by
    have hkey := find_key db.records h.stored
    exact find_save_of_key db.records hkey h.stored
  rw [h.refund_eq hname hid hpos hused hlim hsub f]
  unfold completes commitsDelta
  cases deltaStatements f with
  | error => exact ⟨rfl, h⟩
  | ok _ =>
    cases recordStatements f with
    | error => exact ⟨rfl, hback _ .consumed h.stored⟩
    | ok _ => exact ⟨rfl, hback _ .refunded hsaved⟩

end

theorem refund_of_refunded (hrec : db.records.find requestId = some record)
    (hdone : record.status = .refunded) : (refundSubscriptionPreConsume f requestId db).2 = db := by
  rw [refundSubscriptionPreConsume, hrec]
  split
  · rfl
  · cases f .findRefund with
    | some => rfl
    | none => simp only [if_pos hdone]

variable {fs : List FaultPlan}

theorem attempts_of_refunded (hrec : db.records.find requestId = some record) (hdone : record.status = .refunded) :
    exec (attemptStep requestId) ⟨db, true⟩ fs = ⟨db, true⟩ := by
  induction fs with
  | nil => rfl
  | cons f fs ih =>
    have hstep : attemptStep requestId ⟨db, true⟩ f = ⟨db, true⟩ := by
      rw [attemptStep, Refunding.after, refund_of_refunded hrec hdone]
      rfl
    rw [exec_cons, hstep]
    exact ih

theorem Stands.attempts (hname : trimSpace requestId ≠ "") (hid : 0 < record.userSubscriptionId)
    (hpos : 0 < record.preConsumed) (fs : List FaultPlan)
    (h : Stands requestId record total .consumed used db) (hused : 0 ≤ used) (hlim : 0 < total → used ≤ total) :
    let x := exec (attemptStep requestId) ⟨db, false⟩ fs
    x.succeeded = fs.any completes ∧ Stands requestId record total (if fs.any completes then .refunded else .consumed)
        (clampUsed used (-(deltasCommitted fs*record.preConsumed))) x.db := by
  induction fs generalizing db used with
  | nil =>
    have hzero : clampUsed used (-((0 : ℕ)*record.preConsumed)) = used := by
      rw [Nat.cast_zero, Int.zero_mul, clampUsed, if_neg (by omega)]
      omega
    refine ⟨rfl, ?_⟩
    rw [deltasCommitted, hzero]
    exact h
  | cons f fs ih =>
    obtain ⟨hok, hstands⟩ := h.attempt hname hid hpos hused hlim f
    rw [exec_cons, attemptStep, Refunding.after, hok, Bool.false_or, any_cons, deltasCommitted]
    cases hc : completes f with
    | true =>
      -- The request is refunded: the remaining attempts change nothing.
      have hcommits : commitsDelta f = true := (Bool.and_eq_true_iff.mp hc).1
      rw [hc, hcommits] at hstands
      rw [attempts_of_refunded hstands.stored rfl]
      refine ⟨rfl, ?_⟩
      simpa using hstands
    | false =>
      rw [hc] at hstands
      have hnext : 0 ≤ (if commitsDelta f then clampUsed used (-record.preConsumed) else used) ∧
          (if commitsDelta f then clampUsed used (-record.preConsumed) else used) ≤ used := by
        unfold clampUsed
        split
        · split <;> omega
        · omega
      obtain ⟨hs, hrest⟩ := ih hstands hnext.1 (fun ht => hnext.2.trans (hlim ht))
      refine ⟨by simpa using hs, ?_⟩
      have hsum : clampUsed (if commitsDelta f then clampUsed used (-record.preConsumed) else used)
            (-(deltasCommitted fs*record.preConsumed)) =
          clampUsed used (-(((if commitsDelta f then 1 else 0)+deltasCommitted fs : ℕ)*record.preConsumed)) := by
        have hnn : 0 ≤ deltasCommitted fs*record.preConsumed :=
          Int.mul_nonneg (Int.natCast_nonneg _) (by omega)
        rw [Nat.cast_add, Int.add_mul]
        cases commitsDelta f with
        | true =>
          rw [if_pos rfl, if_pos rfl, Nat.cast_one, Int.one_mul]
          exact clampUsed_clampUsed used record.preConsumed hnn
        | false => simp
      rw [hsum] at hrest
      simpa using hrest

section

variable (hrec : db.records.find requestId = some record) (hpos : 0 < record.preConsumed)

include hrec hpos

theorem refund_record :
    ∃ r, (refundSubscriptionPreConsume f requestId db).2.records.find requestId = some r ∧ 0 < r.preConsumed ∧
      ((refundSubscriptionPreConsume f requestId db).1.isOk = true → r.status = .refunded) := by
  rcases refundSubscriptionPreConsume_cases f hrec hpos with
    (⟨e, he⟩ | ⟨hdone, he⟩) | ⟨_, sub, _, ⟨e, _, he⟩ | he⟩ <;> rw [he]
  · exact ⟨record, hrec, hpos, nofun⟩
  · exact ⟨record, hrec, hpos, fun _ => hdone⟩
  · exact ⟨record, hrec, hpos, nofun⟩
  · have hkey := find_key db.records hrec
    refine ⟨{ record with status := .refunded }, ?_, hpos, fun _ => rfl⟩
    exact find_save_of_key db.records hkey hrec

theorem retryLoop_attempts (fails : ℕ → FaultPlan) (n i : ℕ) (last : Except String Unit) (ok : Bool)
    (hlast : n = 0 → last.isOk = false) :
    Refunding.after ⟨db, ok⟩ (retryLoop (fun i => refundSubscriptionPreConsume (fails i) requestId) n i last db) =
      exec (attemptStep requestId) ⟨db, ok⟩ ((List.range' i n).map fails) := by
  induction n generalizing i last db ok record with
  | zero =>
    simp [retryLoop, Refunding.after, hlast rfl]
  | succ n ih =>
    obtain ⟨_, hr, hrpos, hretired⟩ := refund_record hrec hpos
    rw [range'_succ, map_cons, exec_cons, attemptStep, retryLoop]
    generalize refundSubscriptionPreConsume (fails i) requestId db = out at hr hretired
    obtain ⟨answer, db'⟩ := out
    cases answer with
    | ok =>
      have hsucc : Refunding.after ⟨db, ok⟩ (.ok (), db') = ⟨db', true⟩ := by
        simp [Refunding.after, Except.isOk, Except.toBool]
      rw [hsucc, attempts_of_refunded hr (hretired rfl)]
    | error e =>
      have hfail : Refunding.after ⟨db, ok⟩ (.error e, db') = ⟨db', ok⟩ := by
        simp [Refunding.after, Except.isOk, Except.toBool]
      rw [hfail]
      exact ih hr hrpos (i+1) (.error e) ok (fun _ => rfl)

theorem refundStep_attempts (c : RefundCall) (ok : Bool) :
    refundStep requestId ⟨db, ok⟩ c = exec (attemptStep requestId) ⟨db, ok⟩ c.plans := by
  cases c with
  | once => rfl
  | retry fails =>
    rw [refundStep, RefundCall.run, refundWithRetry]
    exact retryLoop_attempts hrec hpos fails maxAttempts 0 (.ok ()) ok (by decide)

theorem calls_attempts (calls : List RefundCall) (ok : Bool) : exec (refundStep requestId) ⟨db, ok⟩ calls =
      exec (attemptStep requestId) ⟨db, ok⟩ (calls.flatMap RefundCall.plans) := by
  -- Attempts keep the record, which the next call needs.
  have hkeep (fs : List FaultPlan) (x : Refunding) (hx : ∃ r, x.db.records.find requestId = some r ∧
    0 < r.preConsumed) :
      ∃ r, (exec (attemptStep requestId) x fs).db.records.find requestId = some r ∧ 0 < r.preConsumed := by
    induction fs generalizing x with
    | nil => exact hx
    | cons f fs ih =>
      obtain ⟨_, hr, hrpos⟩ := hx
      obtain ⟨r', hr', hrpos', _⟩ := refund_record hr hrpos
      have hdb : (attemptStep requestId x f).db = (refundSubscriptionPreConsume f requestId x.db).2 := by
        rw [attemptStep, Refunding.after]
      rw [← hdb] at hr'
      rw [exec_cons]
      exact ih (attemptStep requestId x f) ⟨r', hr', hrpos'⟩
  induction calls generalizing db ok record with
  | nil => rfl
  | cons c calls ih =>
    obtain ⟨_, hr, hrpos⟩ := hkeep c.plans ⟨db, ok⟩ ⟨record, hrec, hpos⟩
    rw [exec_cons, flatMap_cons, exec_append, refundStep_attempts hrec hpos c ok]
    generalize exec (attemptStep requestId) ⟨db, ok⟩ c.plans = x at hr
    obtain ⟨_, ok'⟩ := x
    exact ih hr hrpos ok'

end

theorem deltasCommitted_pos (h : fs.any completes = true) : 1 ≤ deltasCommitted fs := by
  induction fs with
  | nil => cases h
  | cons f fs ih =>
    rw [deltasCommitted]
    split
    · exact Nat.le_refl 1
    · next hc =>
      rw [any_cons, Bool.or_eq_true] at h
      have hrest := ih (h.resolve_left hc)
      omega

end Attempts

/-- All attempts together give back exactly the pre-consumed amount if and only if at most one delta commits up to the
first attempt that completes, or no more was used, and the used amount still contains it then. -/
theorem refund_exactly_once_iff {requestId : String} {db : SubDb} {record : SubscriptionPreConsumeRecord}
    {sub : UserSubscription} (hname : trimSpace requestId ≠ "")
    (hrec : db.records.find requestId = some record) (hlive : record.status = .consumed)
    (hpos : 0 < record.preConsumed) (hsub : db.subs.find record.userSubscriptionId = some sub)
    (hid : 0 < sub.id) (hused : 0 ≤ sub.amountUsed)
    (hlim : 0 < sub.amountTotal → sub.amountUsed ≤ sub.amountTotal) (calls : List RefundCall) :
    let x := exec (refundStep requestId) ⟨db, false⟩ calls
    let plans := calls.flatMap RefundCall.plans
    ∃ sub', x.db.subs.find record.userSubscriptionId = some sub' ∧
      ((sub.amountUsed-sub'.amountUsed ≤ record.preConsumed ∧
          (x.succeeded = true → sub.amountUsed-sub'.amountUsed = record.preConsumed)) ↔
        (deltasCommitted plans ≤ 1 ∨ sub.amountUsed ≤ record.preConsumed) ∧
          (plans.any completes = true → record.preConsumed ≤ sub.amountUsed)) := by
  intro x plans
  have hkey : sub.id = record.userSubscriptionId := find_key db.subs hsub
  have hstands : Stands requestId record sub.amountTotal .consumed sub.amountUsed db := by
    refine ⟨?_, sub, hsub, rfl, rfl⟩
    rw [hrec, ← hlive]
  have hx : x = exec (attemptStep requestId) ⟨db, false⟩ plans := calls_attempts hrec hpos calls false
  obtain ⟨hok, hend⟩ := hstands.attempts hname (hkey ▸ hid) hpos plans hused hlim
  rw [← hx] at hok hend
  obtain ⟨sub', hsub', _, hu⟩ := hend.row
  refine ⟨sub', hsub', ?_⟩
  have hsome : plans.any completes = true → 1 ≤ deltasCommitted plans := deltasCommitted_pos
  rw [hok, hu]
  generalize plans.any completes = done at hsome
  -- None, one or several deltas: only the last case gives back more than once.
  rcases Nat.lt_trichotomy (deltasCommitted plans) 1 with hk | hk | hk
  · have hz : deltasCommitted plans = 0 := by omega
    have hnot : done = false := by
      by_contra hd
      have := hsome (by simpa using hd)
      omega
    rw [hz, Nat.cast_zero, Int.zero_mul, hnot, clampUsed, if_neg (by omega)]
    simp
    omega
  · rw [hk, Nat.cast_one, Int.one_mul, clampUsed]
    cases done <;> split <;> simp <;> omega
  · have htwo : 2*record.preConsumed ≤ deltasCommitted plans*record.preConsumed :=
      Int.mul_le_mul_of_nonneg_right (by omega) (by omega)
    generalize (deltasCommitted plans : Int)*record.preConsumed = back at htwo
    rw [clampUsed]
    cases done <;> split <;> simp <;> omega

def chargedDb : SubDb :=
  ⟨Table.single { id := 1, userId := 7, planId := 1, amountTotal := 100, amountUsed := 40, endTime := 5000 },
    Table.single ⟨"a", 7, 1, 10, .consumed⟩⟩

def failsFirst (s : Stmt) : RefundCall :=
  .retry (fun i t => if i = 0 ∧ t = s then some "connection reset" else none)

/-- A delta that cannot be read in the first attempt: the second one refunds. -/
theorem refund_exactly_once_sample :
    let x := exec (refundStep "a") ⟨chargedDb, false⟩ [failsFirst .findDelta, .once never]
    x.succeeded = true ∧ ∃ sub, x.db.subs.find 1 = some sub ∧ 40-sub.amountUsed = 10 := by
  intro x
  have hsucceeded : x.succeeded = true := by decide
  have hiff := refund_exactly_once_iff (show GoText.trimSpace "a" ≠ "" by decide)
    (show chargedDb.records.find "a" = some ⟨"a", 7, 1, 10, .consumed⟩ by decide) rfl (by decide)
    (show chargedDb.subs.find 1 = some _ from rfl) (by decide) (by decide) (by decide)
    [failsFirst .findDelta, .once never]
  obtain ⟨sub, hsub, h⟩ := hiff
  have hcond := h.mpr (by decide)
  exact ⟨hsucceeded, sub, hsub, hcond.2 hsucceeded⟩

/-- The record cannot be saved after the delta has committed: the retry gives the quota
back a second time and reports success. -/
theorem refund_retry_gives_back_twice :
    let x := exec (refundStep "a") ⟨chargedDb, false⟩ [failsFirst .saveRefund]
    x.succeeded = true ∧ x.db.subs.rows.map UserSubscription.amountUsed = [20] := by
  decide

end AiGateway.Subscription
