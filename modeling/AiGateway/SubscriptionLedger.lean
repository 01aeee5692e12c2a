import AiGateway.SubscriptionStoreSpec

/-! Any number of requests on the subscriptions, one transaction at a time. Beside the database the ledger
keeps what each request drew and whether its subscription was reset since. -/
namespace AiGateway.Subscription
open Fault List Table

/-- Where a request's billing session stands. Between the two transactions of a
`Reserve` the session holds its lock. -/
inductive Phase
  | opened
  | reserving (delta : Int)
  | settled
  | refunding
  | closed
deriving DecidableEq

structure Session where
  requestId : String
  userId : Int
  subscriptionId : Int
  preConsumed : Int
  extraReserved : Int := 0
  phase : Phase := .opened
  -- The pre-consume was refunded.
  returned : Bool := false
  -- The deltas applied for the request.
  deltas : List Int := []
  -- No reset of the subscription since the pre-consume.
  current : Bool := true
deriving DecidableEq

variable (s : Session)

namespace Session

/-- The session's `preConsumedQuota`. -/
def quota : Int := s.preConsumed+s.extraReserved

/-- What the request has drawn: its pre-consume unless refunded, and its deltas. -/
def held : Int := (if s.returned then 0 else s.preConsumed)+s.deltas.sum

def record : SubscriptionPreConsumeRecord :=
  ⟨s.requestId, s.userId, s.subscriptionId, s.preConsumed, if s.returned then .refunded else .consumed⟩

def applied (delta : Int) : Session := { s with deltas := delta :: s.deltas }

theorem held_applied (delta : Int) : (s.applied delta).held = s.held+delta := by
  simp only [Session.held, Session.applied, sum_cons]
  rw [Int.add_comm delta]
  exact (Int.add_assoc _ _ _).symm

end Session

structure Ledger where
  db : SubDb
  sessions : Table Session.requestId
  -- What requests from before the last reset of a subscription gave back since.
  givenBack : Int → Int

def Ledger.initial (db : SubDb) : Ledger := ⟨db, Table.empty, fun _ => 0⟩

variable (x : Ledger)

def Ledger.heldOn (id : Int) : Int :=
  x.sessions.total (fun s => if s.subscriptionId = id then s.held else 0)

/-- What the requests hold that pre-consumed after the subscription's last reset. -/
def Ledger.currentOn (id : Int) : Int :=
  x.sessions.total (fun s => if s.subscriptionId = id ∧ s.current = true then s.held else 0)

inductive Action
  | preConsume (requestId : String) (userId amount now : Int) (fails : Stmt → Option String)
  | reserve (requestId : String) (targetQuota : Int) (fails : Stmt → Option String)
  -- The token part of `Reserve`; when it fails the funding is rolled back.
  | reserveToken (requestId : String) (ok : Bool) (fails : Stmt → Option String)
  | settle (requestId : String) (actualQuota : Int) (fails : Stmt → Option String)
  | refund (requestId : String)
  -- One attempt of `refundWithRetry` in the refund goroutine, then its second part.
  | refundFunding (requestId : String) (fails : Stmt → Option String)
  | refundExtra (requestId : String) (fails : Stmt → Option String)
  | resetDue (id now : Int) (fails : Stmt → Option String)

variable (cfg : Config)

def zeroed (now : Int) (sub : UserSubscription) : Bool :=
  match cfg.plans sub.planId with
  | none => false
  | some plan =>
    match resetStep cfg.utcOffset plan sub now with
    | .zero _ _ => true
    | _ => false

def visited (cs : List UserSubscription) (id : Int) : List UserSubscription :=
  cs.takeWhile (fun c => c.id ≠ id) ++ cs.filter (fun c => c.id = id)

def resetIds (now : Int) (cs : List UserSubscription) (id : Int) : List Int :=
  ((visited cs id).filter (zeroed cfg now)).map UserSubscription.id

def Ledger.newPeriod (ids : List Int) : Ledger :=
  { x with
    sessions := x.sessions.update
      (fun s => if s.subscriptionId ∈ ids then { s with current := false } else s)
      (fun s => by split <;> rfl)
    givenBack := fun k => if k ∈ ids then 0 else x.givenBack k }

/-- What `s` gives back counts separately when a reset came after its pre-consume. -/
def Ledger.credit (amount : Int) : Int → Int :=
  fun k => if k = s.subscriptionId ∧ s.current = false then x.givenBack k+max 0 amount else x.givenBack k

/-- `PostConsumeUserSubscriptionDelta` for a request, with the session after success
and after failure. -/
def Ledger.post (fails : Stmt → Option String) (s : Session) (delta : Int)
    (done failed : Session) : Ledger :=
  match postConsumeUserSubscriptionDelta fails s.subscriptionId delta x.db with
  | .error _ => { x with sessions := x.sessions.save failed }
  | .ok db => ⟨db, x.sessions.save (done.applied delta), x.credit s (-delta)⟩

def Ledger.preConsume (x : Ledger) (requestId : String) (userId amount now : Int)
    (fails : Stmt → Option String) : Ledger :=
  match preConsumeUserSubscription cfg fails requestId userId amount now x.db with
  | .error _ => x
  | .ok (res, db) =>
    let y := x.newPeriod (resetIds cfg now (candidates x.db userId now) res.userSubscriptionId)
    { y with
      db := db
      sessions := y.sessions.insert
        ⟨requestId, userId, res.userSubscriptionId, res.preConsumed, 0, .opened, false, [], true⟩ }

def Ledger.reserve (targetQuota : Int) (fails : Stmt → Option String) : Ledger :=
  match s.phase with
  | .opened =>
    if targetQuota ≤ s.quota then x
    else x.post fails s (targetQuota-s.quota) { s with phase := .reserving (targetQuota-s.quota) } s
  | _ => x

def Ledger.reserveToken (ok : Bool) (fails : Stmt → Option String) : Ledger :=
  match s.phase with
  | .reserving delta =>
    if ok then
      { x with sessions := x.sessions.save { s with phase := .opened, extraReserved := s.extraReserved+delta } }
    else x.post fails s (-delta) { s with phase := .opened } { s with phase := .opened }
  | _ => x

/-- `Settle` looks at the settled flag only, so a refunded session is settled too. -/
def Ledger.settle (actualQuota : Int) (fails : Stmt → Option String) : Ledger :=
  match s.phase with
  | .reserving _ => x
  | .settled => x
  | _ =>
    if actualQuota-s.quota = 0 then { x with sessions := x.sessions.save { s with phase := .settled } }
    else x.post fails s (actualQuota-s.quota) { s with phase := .settled } s

def Ledger.refund : Ledger :=
  match s.phase with
  | .opened =>
    if 0 < s.preConsumed then { x with sessions := x.sessions.save { s with phase := .refunding } } else x
  | _ => x

def Ledger.refundFunding (fails : Stmt → Option String) : Ledger :=
  match s.phase with
  | .refunding =>
    match refundSubscriptionPreConsume fails s.requestId x.db with
    | (.error _, db) => { x with db := db }
    | (.ok _, db) => ⟨db, x.sessions.save { s with returned := true },
        if s.returned then x.givenBack else x.credit s s.preConsumed⟩
  | _ => x

def Ledger.refundExtra (fails : Stmt → Option String) : Ledger :=
  match s.phase with
  | .refunding =>
    if 0 < s.extraReserved ∧ 0 < s.subscriptionId then
      x.post fails s (-s.extraReserved) { s with phase := .closed } { s with phase := .closed }
    else { x with sessions := x.sessions.save { s with phase := .closed } }
  | _ => x

def Ledger.resetDue (x : Ledger) (id now : Int) (fails : Stmt → Option String) : Ledger :=
  match x.db.subs.find id, resetDueSubscription cfg fails id now x.db with
  | some sub, .ok (db, resetCount) =>
    { x.newPeriod (if 0 < resetCount ∧ zeroed cfg now sub = true then [id] else []) with db := db }
  | _, _ => x

def Ledger.onSession (requestId : String) (f : Session → Ledger) : Ledger :=
  match x.sessions.find requestId with
  | none => x
  | some s => f s

def step (x : Ledger) : Action → Ledger
  | .preConsume requestId userId amount now fails => x.preConsume cfg requestId userId amount now fails
  | .reserve requestId targetQuota fails => x.onSession requestId (fun s => x.reserve s targetQuota fails)
  | .reserveToken requestId ok fails => x.onSession requestId (fun s => x.reserveToken s ok fails)
  | .settle requestId actualQuota fails => x.onSession requestId (fun s => x.settle s actualQuota fails)
  | .refund requestId => x.onSession requestId (fun s => x.refund s)
  | .refundFunding requestId fails => x.onSession requestId (fun s => x.refundFunding s fails)
  | .refundExtra requestId fails => x.onSession requestId (fun s => x.refundExtra s fails)
  | .resetDue id now fails => x.resetDue cfg id now fails

def Ledger.Recorded : Prop :=
  ∀ s ∈ x.sessions.rows, x.db.records.find s.requestId = some s.record

variable {x : Ledger} {s : Session} {requestId : String} {cfg : Config} {now : Int}
  {cs : List UserSubscription} {fails : Stmt → Option String}

theorem Ledger.Recorded.save (h : x.Recorded) {s' : Session}
    (hs : x.sessions.find s'.requestId = some s) (hrec : s'.record = s.record) :
    ∀ t ∈ (x.sessions.save s').rows, x.db.records.find t.requestId = some t.record := by
  have hid := find_key x.sessions hs
  refine forall_save h ?_
  rw [hrec, ← hid]
  exact h s ((find_some_iff _ _ _).mp hs).1

theorem Ledger.Recorded.refund (h : x.Recorded) (hs : x.sessions.find s.requestId = some s) :
    ∀ t ∈ (x.sessions.save { s with returned := true }).rows,
      (x.db.records.save { s.record with status := .refunded }).find t.requestId = some t.record := by
  intro t ht
  rcases mem_save ht with rfl | ⟨hin, hne⟩
  · exact find_save_of_key x.db.records rfl (h s ((find_some_iff _ _ _).mp hs).1)
  · exact (find_save_of_ne x.db.records hne).trans (h t hin)

theorem Ledger.Recorded.find_none (h : x.Recorded)
    (hn : x.db.records.find requestId = none) : x.sessions.find requestId = none := by
  cases hf : x.sessions.find requestId with
  | none => rfl
  | some t =>
    have hrec := h t ((find_some_iff _ _ _).mp hf).1
    rw [find_key _ hf, hn] at hrec
    cases hrec

theorem Ledger.forall_newPeriod {P : Session → Prop} (h : ∀ s ∈ x.sessions.rows, P s)
    (hP : ∀ s, P s → P { s with current := false }) (ids : List Int) :
      ∀ t ∈ (x.newPeriod ids).sessions.rows, P t := by
  intro t ht
  obtain ⟨s, hs, rfl⟩ := mem_map.mp ht
  by_cases hin : s.subscriptionId ∈ ids
  · rw [if_pos hin]
    exact hP s (h s hs)
  · rw [if_neg hin]
    exact h s hs

theorem Ledger.Recorded.newPeriod (h : x.Recorded) (ids : List Int) : (x.newPeriod ids).Recorded :=
  Ledger.forall_newPeriod h (fun _ hs => hs) ids

theorem Ledger.newPeriod_nil : x.newPeriod [] = x := by
  obtain ⟨_, ⟨_, _⟩, _⟩ := x
  simp [newPeriod, update]

variable {sub c : UserSubscription} {userId amount : Int}

theorem held_opened : Session.held ⟨requestId, userId, c.id, amount, 0, .opened, false, [], true⟩ = amount :=
  Int.add_zero amount

theorem resetRow_of_zeroed (h : zeroed cfg now sub = true) : (resetRow cfg now sub).amountUsed = 0 := by
  cases hp : cfg.plans sub.planId with
  | none => simp [zeroed, hp] at h
  | some plan =>
    simp only [zeroed, hp] at h
    simp only [resetRow, hp]
    cases hr : resetStep cfg.utcOffset plan sub now with
    | zero => rfl
    | keep | hang | clock => simp [hr] at h

theorem resetRow_of_not_zeroed
    (h : zeroed cfg now sub = false) : (resetRow cfg now sub).amountUsed = sub.amountUsed := by
  unfold resetRow
  split
  · rfl
  · next plan hp =>
    rcases ResetStep.apply_amountUsed sub (resetStep cfg.utcOffset plan sub now) with hu | ⟨⟨_, _, hz⟩, _⟩
    · exact hu
    · simp only [zeroed, hp, hz] at h
      cases h

theorem mem_resetIds (id k : Int) :
    k ∈ resetIds cfg now cs id ↔ ∃ d ∈ visited cs id, zeroed cfg now d = true ∧ d.id = k := by
  simp only [resetIds, mem_map, mem_filter, and_assoc]

theorem visited_subset (id : Int) : visited cs id ⊆ cs := by
  intro d hd
  rcases mem_append.mp hd with hd | hd
  · exact takeWhile_subset _ hd
  · exact (mem_filter.mp hd).1

theorem used_of_reset {db : SubDb} {id : Int}
    (hcs : ∀ d ∈ cs, db.subs.find d.id = some d) {d : UserSubscription} (hd : d ∈ visited cs id) :
    (resetRow cfg now d).amountUsed = if d.id ∈ resetIds cfg now cs id then 0 else d.amountUsed := by
  by_cases hz : zeroed cfg now d = true
  · have hin : d.id ∈ resetIds cfg now cs id := (mem_resetIds id d.id).mpr ⟨d, hd, hz, rfl⟩
    rw [if_pos hin, resetRow_of_zeroed hz]
  · have hout : d.id ∉ resetIds cfg now cs id := by
      intro hin
      obtain ⟨e, he, hez, hed⟩ := (mem_resetIds id d.id).mp hin
      have hsame : some e = some d := by
        rw [← hcs e (visited_subset id he), hed, hcs d (visited_subset id hd)]
      cases hsame
      exact hz hez
    rw [if_neg hout, resetRow_of_not_zeroed (by simpa using hz)]

theorem Charged.usage {db db' : SubDb} (h : Charged cfg now requestId userId amount cs c db db') (hc : c ∈ cs)
    (hcs : ∀ d ∈ cs, db.subs.find d.id = some d) {k : Int} {sub' : UserSubscription}
    (hk : db'.subs.find k = some sub') : ∃ sub, db.subs.find k = some sub ∧ sub'.amountTotal = sub.amountTotal ∧
      sub'.amountUsed = (if k ∈ resetIds cfg now cs c.id then 0 else sub.amountUsed)+
        (if k = c.id then amount else 0) := by
  by_cases hkc : k = c.id
  · -- The charged row: its reset check, then the amount.
    subst hkc
    have hvis : c ∈ visited cs c.id := by simp [visited, hc]
    have hrow := h.row.symm.trans hk
    cases hrow
    refine ⟨c, h.found, resetRow_amountTotal cfg now c, ?_⟩
    rw [if_pos rfl, ← used_of_reset hcs hvis]
  · simp only [if_neg hkc, Int.add_zero]
    by_cases hseen : ∃ d ∈ cs.takeWhile (fun d => d.id ≠ c.id), d.id = k
    · -- A candidate that was full: only its reset check.
      obtain ⟨d, hd, rfl⟩ := hseen
      have hrow := (h.passed d hd).symm.trans hk
      cases hrow
      have hvis : d ∈ visited cs c.id := mem_append_left _ hd
      refine ⟨d, hcs d (takeWhile_subset _ hd), resetRow_amountTotal cfg now d, ?_⟩
      exact used_of_reset hcs hvis
    · -- The loop did not come to this row.
      have hnone : ∀ d ∈ cs.takeWhile (fun d => d.id ≠ c.id), d.id ≠ k := by
        intro d hd he
        exact hseen ⟨d, hd, he⟩
      have hout : k ∉ resetIds cfg now cs c.id := by
        intro hin
        obtain ⟨e, he, _, hek⟩ := (mem_resetIds c.id k).mp hin
        rcases mem_append.mp he with he | he
        · exact hnone e he hek
        · have hid : e.id = c.id := by simpa using (mem_filter.mp he).2
          exact hkc (hek.symm.trans hid)
      refine ⟨sub', (h.others k hkc hnone).symm.trans hk, rfl, ?_⟩
      rw [if_neg hout]

theorem Ledger.preConsume_fresh (hn : x.db.records.find requestId = none) :
    x.preConsume cfg requestId userId amount now fails = x ∨ ∃ c ∈ candidates x.db userId now, ∃ db',
        Charged cfg now requestId userId amount (candidates x.db userId now) c x.db db' ∧ 0 < amount ∧
        x.preConsume cfg requestId userId amount now fails =
          let y := x.newPeriod (resetIds cfg now (candidates x.db userId now) c.id)
          { y with
            db := db'
            sessions := y.sessions.insert ⟨requestId, userId, c.id, amount, 0, .opened, false, [], true⟩ } := by
  unfold Ledger.preConsume
  split
  · exact .inl rfl
  · next res db' hok =>
    obtain ⟨c, hc, hch, hres⟩ := Subscription.preConsume_fresh hn hok
    refine .inr ⟨c, hc, db', hch, (preConsume_ok hok).2.1, ?_⟩
    subst hres
    rfl

theorem Ledger.Recorded.opened (h : x.Recorded) {db' : SubDb}
    (hn : x.db.records.find requestId = none) (hch : Charged cfg now requestId userId amount cs c x.db db')
    {g : Int → Int} : Ledger.Recorded
      ⟨db', x.sessions.insert ⟨requestId, userId, c.id, amount, 0, .opened, false, [], true⟩, g⟩ := by
  refine forall_insert ?_ ?_
  · intro t ht
    change db'.records.find t.requestId = some t.record
    have hold := h t ht
    have hne : t.requestId ≠ requestId := by
      intro heq
      rw [heq, hn] at hold
      cases hold
    rw [hch.records, if_neg hne]
    exact hold
  · change db'.records.find requestId = _
    rw [hch.records, if_pos rfl]
    rfl

theorem Ledger.resetDue_cases {id : Int} : x.resetDue cfg id now fails = x ∨
      ∃ sub ids db, x.db.subs.find id = some sub ∧ (zeroed cfg now sub = false → ids = []) ∧
        x.resetDue cfg id now fails = { x.newPeriod ids with db := db } ∧ db.records = x.db.records ∧
        ∀ k r, db.subs.find k = some r → ∃ r0, x.db.subs.find k = some r0 ∧ r.amountTotal = r0.amountTotal ∧
          r.amountUsed = if k ∈ ids then 0 else r0.amountUsed := by
  unfold Ledger.resetDue
  split
  · next sub db n hsub hok =>
    obtain ⟨hrecords, hcases⟩ := resetDueSubscription_ok hok
    refine .inr ⟨sub, _, db, hsub, ?_, rfl, hrecords, ?_⟩
    · intro hz
      simp [hz]
    intro k r hr
    rcases hcases with ⟨rfl, rfl⟩ | ⟨hn, _, hsub', hfind⟩
    · exact ⟨r, hr, rfl, by simp⟩
    cases hsub.symm.trans hsub'
    rw [hfind] at hr
    split at hr
    · next hk =>
      -- The row of the sweep, after its reset check.
      cases hr
      refine ⟨sub, by rw [hk]; exact hsub, resetRow_amountTotal cfg now sub, ?_⟩
      cases hz : zeroed cfg now sub with
      | true => simp [hn, hk, resetRow_of_zeroed hz]
      | false => simp [resetRow_of_not_zeroed hz]
    · next hk =>
      refine ⟨r, hr, rfl, ?_⟩
      rw [if_neg]
      intro hin
      split at hin
      · exact hk (mem_singleton.mp hin)
      · cases hin
  · exact .inl rfl

/-- What a step makes of a session that it finds, and how much more the request holds then. `ok` is
what the caller knows of a settlement. -/
inductive Session.Next (ok : Session → Int → Prop) (s : Session) : Int → Session → Prop
  | same : Next ok s 0 s
  | reserve {delta : Int} : s.phase = .opened → 0 < delta →
    Next ok s delta ({ s with phase := .reserving delta }.applied delta)
  | reserved {delta : Int} : s.phase = .reserving delta →
    Next ok s 0 { s with phase := .opened, extraReserved := s.extraReserved+delta }
  | reopened {delta : Int} : s.phase = .reserving delta → Next ok s 0 { s with phase := .opened }
  | rolledBack {delta : Int} : s.phase = .reserving delta →
    Next ok s (-delta) ({ s with phase := .opened }.applied (-delta))
  | settledEven : (∀ d, s.phase ≠ .reserving d) → s.phase ≠ .settled → ok s s.quota →
      Next ok s 0 { s with phase := .settled }
  | settled {actualQuota : Int} : (∀ d, s.phase ≠ .reserving d) → s.phase ≠ .settled → ok s actualQuota →
    Next ok s (actualQuota-s.quota) ({ s with phase := .settled }.applied (actualQuota-s.quota))
  | refund : s.phase = .opened → Next ok s 0 { s with phase := .refunding }
  | returned : s.phase = .refunding → s.returned = false → Next ok s (-s.preConsumed) { s with returned := true }
  | extra : s.phase = .refunding → 0 < s.extraReserved →
    Next ok s (-s.extraReserved) ({ s with phase := .closed }.applied (-s.extraReserved))
  | closed : s.phase = .refunding → Next ok s 0 { s with phase := .closed }

variable {ok : Session → Int → Prop} {s' : Session} {y : Ledger}

theorem Session.Next.kept {delta : Int} (h : s.Next ok delta s') : s'.held = s.held+delta ∧ s'.current = s.current ∧
    s'.requestId = s.requestId ∧ s'.subscriptionId = s.subscriptionId := by
  refine ⟨?_, by cases h <;> rfl, by cases h <;> rfl, by cases h <;> rfl⟩
  cases h with
  | reserve | rolledBack | settled | extra => exact held_applied _ _
  | returned _ hret =>
    simp only [Session.held, hret, if_true, Bool.false_eq_true, if_false]
    omega
  | _ => exact (Int.add_zero _).symm

/-- What a step on the session `s` makes of the ledger. -/
inductive Ledger.Turn (ok : Session → Int → Prop) (x : Ledger) (s : Session) : Ledger → Prop
  | idle : Turn ok x s x
  | session {s' : Session} : s.Next ok 0 s' → s'.record = s.record →
      Turn ok x s { x with sessions := x.sessions.save s' }
  | move {delta : Int} {s' : Session} {sub : UserSubscription}
      {records : Table SubscriptionPreConsumeRecord.requestId} :
    s.Next ok delta s' → x.db.subs.find s.subscriptionId = some sub →
    (0 < sub.amountTotal → clampUsed sub.amountUsed delta ≤ sub.amountTotal ∨ delta ≤ 0) →
    (∀ t ∈ (x.sessions.save s').rows, records.find t.requestId = some t.record) →
    Turn ok x s ⟨⟨x.db.subs.save { sub with amountUsed := clampUsed sub.amountUsed delta }, records⟩,
      x.sessions.save s', x.credit s (-delta)⟩

namespace Ledger

theorem onSession_rule {P : Ledger → Prop} {f : Session → Ledger} (h : P x)
    (hf : ∀ s, x.sessions.find s.requestId = some s → s.requestId = requestId → P (f s)) :
    P (x.onSession requestId f) := by
  unfold onSession
  split
  · exact h
  · next s hs =>
    have hid := find_key x.sessions hs
    exact hf s (hid ▸ hs) hid

section

variable (h : x.Recorded) (hs : x.sessions.find s.requestId = some s)
include h hs

theorem turn_post {delta : Int} (hd : delta ≠ 0) {done failed : Session}
    (hdone : s.Next ok delta (done.applied delta))
    (hrec : done.record = s.record) (hfailed : s.Next ok 0 failed) (hrec' : failed.record = s.record) :
    x.Turn ok s (x.post fails s delta done failed) := by
  unfold post
  split
  · exact .session hfailed hrec'
  · next db' hok =>
    obtain ⟨sub, hsub, hlim, rfl⟩ := postConsume_ok hok hd
    have hid : (done.applied delta).requestId = s.requestId := hdone.kept.2.2.1
    exact .move hdone hsub (fun ht => .inl (hlim ht)) (h.save (hid.symm ▸ hs) hrec)

theorem turn_reserve {targetQuota : Int} : x.Turn ok s (x.reserve s targetQuota fails) := by
  unfold reserve
  split
  · next hphase =>
    split
    · exact .idle
    · exact turn_post h hs (by omega) (.reserve hphase (by omega)) rfl .same rfl
  · exact .idle

theorem turn_reserveToken (hpos : ∀ d, s.phase = .reserving d → d ≠ 0) {b : Bool} :
    x.Turn ok s (x.reserveToken s b fails) := by
  unfold reserveToken
  split
  · next delta hphase =>
    split
    · exact .session (.reserved hphase) rfl
    · have := hpos delta hphase
      exact turn_post h hs (by omega) (.rolledBack hphase) rfl (.reopened hphase) rfl
  · exact .idle

theorem turn_settle {actualQuota : Int} (hok : ok s actualQuota) : x.Turn ok s (x.settle s actualQuota fails) := by
  unfold settle
  split
  · exact .idle
  · exact .idle
  · next hres hset =>
    split
    · next heq =>
      obtain rfl : actualQuota = s.quota := by omega
      exact .session (.settledEven hres hset hok) rfl
    · next hne => exact turn_post h hs hne (.settled hres hset hok) rfl .same rfl

theorem turn_refundExtra : x.Turn ok s (x.refundExtra s fails) := by
  unfold refundExtra
  split
  · next hphase =>
    split
    · next hextra => exact turn_post h hs (by omega) (.extra hphase hextra.1) rfl (.closed hphase) rfl
    · exact .session (.closed hphase) rfl
  · exact .idle

theorem turn_refundFunding (hpos : 0 < s.preConsumed) (hsave : fails .saveRefund = none)
    (hcommit : fails .refundCommit = none) : x.Turn ok s (x.refundFunding s fails) := by
  have hrec := h s ((find_some_iff _ _ _).mp hs).1
  unfold refundFunding
  split
  · next hphase =>
    rcases refundSubscriptionPreConsume_cases fails hrec hpos with
      (⟨e, he⟩ | ⟨hdone, he⟩) | ⟨hlive, sub, hsub, ⟨e, hfail, _⟩ | he⟩
    · rw [he]
      exact .idle
    · -- Already refunded: the session knows it.
      have hret : s.returned = true := by
        by_contra hn
        simp [Session.record, hn] at hdone
      have hsame : { s with returned := true } = s := by rw [← hret]
      rw [he]
      simp only [hsame, hret, if_true]
      exact .session .same rfl
    · rcases hfail with hfail | hfail
      · rw [hsave] at hfail
        cases hfail
      · rw [hcommit] at hfail
        cases hfail
    · have hret : s.returned = false := by
        by_contra hn
        simp [Session.record, hn] at hlive
      rw [he]
      have hmove : x.Turn ok s _ := .move (.returned hphase hret) hsub (fun _ => .inr (by omega)) (h.refund hs)
      rw [Int.neg_neg] at hmove
      simp only [hret, Bool.false_eq_true, if_false]
      exact hmove
  · exact .idle

end

theorem turn_refund : x.Turn ok s (x.refund s) := by
  unfold refund
  split
  · next hphase =>
    split
    · exact .session (.refund hphase) rfl
    · exact .idle
  · exact .idle

end Ledger

end AiGateway.Subscription
