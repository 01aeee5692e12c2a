import AiGateway.SubscriptionStore

/-! What each subscription transaction does to the rows, once and for all callers. -/
namespace AiGateway.Subscription
open GoText Fault List Table

theorem mem_candidates (db : SubDb) (userId now : Int) (c : UserSubscription) : c ∈ candidates db userId now ↔
      c ∈ db.subs.rows ∧ c.userId = userId ∧ c.status = .active ∧ now < c.endTime := by
  simp [candidates, mem_insertionSort]

theorem find_candidate (db : SubDb) (userId now : Int) :
    ∀ d ∈ candidates db userId now, db.subs.find d.id = some d := by
  intro d hd
  exact find_mem db.subs d ((mem_candidates db userId now d).mp hd).1

theorem candidates_nodup (db : SubDb) (userId now : Int) :
    ((candidates db userId now).map UserSubscription.id).Nodup := by
  have hp := (perm_insertionSort
    (fun a b : UserSubscription => a.endTime < b.endTime ∨ (a.endTime = b.endTime ∧ a.id ≤ b.id))
    (db.subs.rows.filter (fun s => s.userId = userId ∧ s.status = .active ∧ now < s.endTime))).map
      UserSubscription.id
  exact hp.nodup_iff.mpr (db.subs.unique.sublist (filter_sublist.map UserSubscription.id))

theorem clampUsed_nonneg (used delta : Int) : 0 ≤ clampUsed used delta := by
  unfold clampUsed
  split <;> omega

theorem le_clampUsed (used delta : Int) : used+delta ≤ clampUsed used delta := by
  unfold clampUsed
  split <;> omega

theorem clampUsed_clampUsed (used a : Int) {b : Int} (hb : 0 ≤ b) :
    clampUsed (clampUsed used (-a)) (-b) = clampUsed used (-(a+b)) := by
  unfold clampUsed
  split_ifs <;> omega

def resetRow (cfg : Config) (now : Int) (sub : UserSubscription) : UserSubscription :=
  match cfg.plans sub.planId with
  | none => sub
  | some plan => (resetStep cfg.utcOffset plan sub now).apply sub

@[simp] theorem resetRow_id (cfg : Config) (now : Int) (sub : UserSubscription) :
    (resetRow cfg now sub).id = sub.id := by
  unfold resetRow
  split <;> simp

@[simp] theorem resetRow_amountTotal (cfg : Config) (now : Int) (sub : UserSubscription) :
    (resetRow cfg now sub).amountTotal = sub.amountTotal := by
  unfold resetRow
  split <;> simp

variable {plan : SubscriptionPlan}

theorem getSubscriptionPlanById_ok {cfg : Config} {id : Int} (h : getSubscriptionPlanById cfg id = .ok plan) :
    cfg.plans id = some plan := by
  unfold getSubscriptionPlanById at h
  split at h
  · cases h
  · split at h
    · cases h
    · next hp => rw [hp]; cases h; rfl

variable {cfg : Config} {fails : Stmt → Option String} {now userId amount : Int}
  {c sub : UserSubscription} {db db' : SubDb} {requestId : String}
  {res : SubscriptionPreConsumeResult}

theorem maybeReset_ok (hp : cfg.plans c.planId = some plan)
    (h : maybeResetUserSubscription cfg fails now plan c db = .ok (sub, db')) :
    sub = resetRow cfg now c ∧ db'.records = db.records ∧
      (db' = db ∧ sub = c ∨ db'.subs = db.subs.save sub) := by
  unfold maybeResetUserSubscription at h
  simp only [resetRow, hp]
  split at h
  · next hr => cases h; rw [hr]; exact ⟨rfl, rfl, .inl ⟨rfl, rfl⟩⟩
  · cases h
  · obtain ⟨_, _, h⟩ := bind_eq_ok h
    cases h
    exact ⟨rfl, rfl, .inr rfl⟩

theorem maybeReset_find (hp : cfg.plans c.planId = some plan) (hc : db.subs.find c.id = some c)
    (h : maybeResetUserSubscription cfg fails now plan c db = .ok (sub, db')) (k : Int) :
    db'.subs.find k = if k = c.id then some (resetRow cfg now c) else db.subs.find k := by
  obtain ⟨hsub, _, hdb⟩ := maybeReset_ok hp h
  have hid : sub.id = c.id := by rw [hsub, resetRow_id]
  by_cases hk : k = c.id
  · subst hk
    rw [if_pos rfl, ← hsub]
    rcases hdb with ⟨he, hs⟩ | hs
    · rw [he, hc, hs]
    · rw [hs]
      exact find_save_of_key db.subs hid hc
  · rw [if_neg hk]
    rcases hdb with ⟨he, _⟩ | hs
    · rw [he]
    · rw [hs]
      exact find_save_of_ne db.subs (hid ▸ hk)

theorem resetDueSubscription_ok {id : Int} {n : ℕ} (h : resetDueSubscription cfg fails id now db = .ok (db', n)) :
    db'.records = db.records ∧ (db' = db ∧ n = 0 ∨ 0 < n ∧ ∃ sub, db.subs.find id = some sub ∧
        ∀ k, db'.subs.find k = if k = id then some (resetRow cfg now sub) else db.subs.find k) := by
  unfold resetDueSubscription at h
  repeat' split at h
  all_goals try (cases h; exact ⟨rfl, .inl ⟨rfl, rfl⟩⟩)
  next sub hsub _ _ _ hplan =>
    obtain ⟨_, _, hplan⟩ := bind_eq_ok hplan
    obtain ⟨⟨_, _⟩, hreset, h⟩ := bind_eq_ok h
    obtain ⟨_, _, h⟩ := bind_eq_ok h
    cases h
    have hp := getSubscriptionPlanById_ok hplan
    have hid : sub.id = id := find_key db.subs hsub
    refine ⟨(maybeReset_ok hp hreset).2.1, .inr ⟨Nat.one_pos, sub, hsub, ?_⟩⟩
    intro k
    rw [maybeReset_find hp (hid ▸ hsub) hreset, hid]

/-- A pre-consume of `amount` for a new request: `c` is the row that was charged, and the
candidates in `cs` before it have had their reset check on the way. -/
structure Charged (cfg : Config) (now : Int) (requestId : String) (userId amount : Int)
    (cs : List UserSubscription) (c : UserSubscription) (db db' : SubDb) : Prop where
  found : db.subs.find c.id = some c
  fits : 0 < c.amountTotal → (resetRow cfg now c).amountUsed+amount ≤ c.amountTotal
  row : db'.subs.find c.id = some { resetRow cfg now c with amountUsed := (resetRow cfg now c).amountUsed+amount }
  passed : ∀ d ∈ cs.takeWhile (fun d => d.id ≠ c.id), db'.subs.find d.id = some (resetRow cfg now d)
  others : ∀ k, k ≠ c.id → (∀ d ∈ cs.takeWhile (fun d => d.id ≠ c.id), d.id ≠ k) →
    db'.subs.find k = db.subs.find k
  records : ∀ r, db'.records.find r =
    if r = requestId then some ⟨requestId, userId, c.id, amount, .consumed⟩ else db.records.find r

theorem Charged.cons {rest : List UserSubscription} {d : UserSubscription} {db1 : SubDb}
    (h : Charged cfg now requestId userId amount rest d db1 db') (hd : d ∈ rest)
    (hc : c.id ∉ rest.map UserSubscription.id) (hself : db1.subs.find c.id = some (resetRow cfg now c))
    (hother : ∀ k, k ≠ c.id → db1.subs.find k = db.subs.find k) (hrec : db1.records = db.records) :
    Charged cfg now requestId userId amount (c :: rest) d db db' := by
  have hne : d.id ≠ c.id := fun he => hc (he ▸ mem_map_of_mem hd)
  have htake : (c :: rest).takeWhile (fun e => e.id ≠ d.id) = c :: rest.takeWhile (fun e => e.id ≠ d.id) :=
    takeWhile_cons_of_pos (by simpa using Ne.symm hne)
  refine ⟨hother d.id hne ▸ h.found, h.fits, h.row, ?_, ?_, ?_⟩
  · rw [htake]
    intro e he
    rcases mem_cons.mp he with rfl | he
    · rw [h.others e.id (Ne.symm hne), hself]
      intro f hf hfe
      exact hc (hfe ▸ mem_map_of_mem (takeWhile_subset _ hf))
    · exact h.passed e he
  · rw [htake]
    intro k hk hseen
    rw [h.others k hk (fun e he => hseen e (mem_cons_of_mem c he))]
    exact hother k (Ne.symm (hseen c mem_cons_self))
  · intro r
    rw [h.records r, hrec]

theorem chargeCandidate_fresh (hn : db.records.find requestId = none)
    (h : chargeCandidate fails requestId userId amount sub db = .ok (res, db')) :
    res = ⟨sub.id, amount, sub.amountTotal, sub.amountUsed, sub.amountUsed+amount⟩ ∧
      db' = { subs := db.subs.save { sub with amountUsed := sub.amountUsed+amount }
              records := db.records.insert ⟨requestId, userId, sub.id, amount, .consumed⟩ } := by
  unfold chargeCandidate at h
  simp only [hn, Option.map_none] at h
  split at h
  · split at h
    · next hd => cases hd
    · cases h
  · obtain ⟨_, _, h⟩ := bind_eq_ok h
    cases h
    exact ⟨rfl, rfl⟩

theorem preConsumeLoop_fresh (cs : List UserSubscription) (db : SubDb) (hn : db.records.find requestId = none)
    (hcs : ∀ c ∈ cs, db.subs.find c.id = some c) (hnd : (cs.map UserSubscription.id).Nodup)
    (h : preConsumeLoop cfg fails requestId userId amount now cs db = .ok (res, db')) :
    ∃ c ∈ cs, Charged cfg now requestId userId amount cs c db db' ∧
      res = ⟨c.id, amount, c.amountTotal, (resetRow cfg now c).amountUsed,
        (resetRow cfg now c).amountUsed+amount⟩ := by
  induction cs generalizing db with
  | nil => cases h
  | cons c rest ih =>
    rw [map_cons, nodup_cons] at hnd
    unfold preConsumeLoop at h
    obtain ⟨_, _, h⟩ := bind_eq_ok h
    obtain ⟨plan, hplan, h⟩ := bind_eq_ok h
    obtain ⟨⟨sub, db1⟩, hreset, h⟩ := bind_eq_ok h
    have hp := getSubscriptionPlanById_ok hplan
    obtain ⟨hsub, hrec, _⟩ := maybeReset_ok hp hreset
    have hc := hcs c mem_cons_self
    have hid : sub.id = c.id := by rw [hsub, resetRow_id]
    -- The reset touches no row but the candidate's own.
    have hother (k : Int) (hk : k ≠ c.id) : db1.subs.find k = db.subs.find k := by
      rw [maybeReset_find hp hc hreset, if_neg hk]
    have hself : db1.subs.find c.id = some sub := by
      rw [maybeReset_find hp hc hreset, if_pos rfl, hsub]
    dsimp only at h
    split at h
    · have hrest : ∀ d ∈ rest, db1.subs.find d.id = some d := by
        intro d hd
        have hne : d.id ≠ c.id := fun he => hnd.1 (he ▸ mem_map_of_mem hd)
        rw [hother d.id hne]
        exact hcs d (mem_cons_of_mem c hd)
      obtain ⟨d, hd, hch, hres⟩ := ih db1 (by rw [hrec]; exact hn) hrest hnd.2 h
      exact ⟨d, mem_cons_of_mem c hd, hch.cons hd hnd.1 (hsub ▸ hself) hother hrec, hres⟩
    · next hfit =>
      obtain ⟨hres, hdb'⟩ := chargeCandidate_fresh (by rw [hrec]; exact hn) h
      have htotal : sub.amountTotal = c.amountTotal := by rw [hsub, resetRow_amountTotal]
      have htake : (c :: rest).takeWhile (fun e => e.id ≠ c.id) = [] :=
        takeWhile_cons_of_neg (by simp)
      refine ⟨c, mem_cons_self, ⟨hc, ?_, ?_, ?_, ?_, ?_⟩, ?_⟩
      · intro ht
        rw [← hsub]
        omega
      · rw [hdb', ← hsub]
        exact find_save_of_key _ hid hself
      · rw [htake]
        intro d hd
        cases hd
      · intro k hk _
        rw [hdb']
        exact (find_save_of_ne db1.subs (hid ▸ hk)).trans (hother k hk)
      · intro r
        rw [hdb', hrec, find_insert _ _ _ hn, hid]
      · rw [hres, hid, htotal, hsub]

theorem preConsume_ok (h : preConsumeUserSubscription cfg fails requestId userId amount now db = .ok (res, db')) :
    trimSpace requestId ≠ "" ∧ 0 < amount ∧
      preConsumeBody cfg fails requestId userId amount now db = .ok (res, db') := by
  unfold preConsumeUserSubscription at h
  split at h
  · cases h
  split at h
  · cases h
  · next hname =>
    split at h
    · cases h
    · next hpos =>
      obtain ⟨_, hbody, h⟩ := bind_eq_ok h
      obtain ⟨_, _, h⟩ := bind_eq_ok h
      cases h
      exact ⟨hname, not_le.mp hpos, hbody⟩

theorem preConsume_fresh (hn : db.records.find requestId = none)
    (h : preConsumeUserSubscription cfg fails requestId userId amount now db = .ok (res, db')) :
    ∃ c ∈ candidates db userId now, Charged cfg now requestId userId amount (candidates db userId now) c db db' ∧
      res = ⟨c.id, amount, c.amountTotal, (resetRow cfg now c).amountUsed,
        (resetRow cfg now c).amountUsed+amount⟩ := by
  obtain ⟨-, -, hbody⟩ := preConsume_ok h
  unfold preConsumeBody at hbody
  obtain ⟨_, _, hbody⟩ := bind_eq_ok hbody
  simp only [hn] at hbody
  split at hbody
  · cases hbody
  · exact preConsumeLoop_fresh _ db hn (find_candidate db userId now) (candidates_nodup db userId now) hbody

theorem postConsume_ok {id delta : Int}
    (h : postConsumeUserSubscriptionDelta fails id delta db = .ok db') (hd : delta ≠ 0) :
    ∃ sub, db.subs.find id = some sub ∧
      (0 < sub.amountTotal → clampUsed sub.amountUsed delta ≤ sub.amountTotal) ∧
      db' = { db with subs := db.subs.save { sub with amountUsed := clampUsed sub.amountUsed delta } } := by
  rw [postConsumeUserSubscriptionDelta, if_neg hd] at h
  split at h
  · cases h
  obtain ⟨_, _, h⟩ := bind_eq_ok h
  split at h
  · cases h
  · next sub hsub =>
    dsimp only at h
    split at h
    · cases h
    · next hlim =>
      obtain ⟨_, _, h⟩ := bind_eq_ok h
      obtain ⟨_, _, h⟩ := bind_eq_ok h
      cases h
      exact ⟨sub, hsub, fun ht => by omega, rfl⟩

variable {record : SubscriptionPreConsumeRecord}

theorem refundSubscriptionPreConsume_never {db1 : SubDb} (hname : trimSpace requestId ≠ "")
    (hrec : db.records.find requestId = some record) (hstatus : record.status = .consumed)
    (hpos : 0 < record.preConsumed)
    (hdelta : postConsumeUserSubscriptionDelta never record.userSubscriptionId (-record.preConsumed) db = .ok db1) :
    refundSubscriptionPreConsume never requestId db =
      (.ok (), { db1 with records := db1.records.save { record with status := .refunded } }) := by
  have hlive : ¬ record.status = .refunded := by
    rw [hstatus]
    exact fun h => nomatch h
  have hz : ¬ record.preConsumed ≤ 0 := by omega
  rw [refundSubscriptionPreConsume, if_neg hname, hrec]
  change (if record.status = .refunded then _ else _) = _
  rw [if_neg hlive, if_neg hz, hdelta]
  rfl

def SubDb.giveBack (db : SubDb) (sub : UserSubscription) (amount : Int) : Table UserSubscription.id :=
  db.subs.save { sub with amountUsed := clampUsed sub.amountUsed (-amount) }

/-- An attempt to refund changes nothing, or gives the amount back and then either
retires the record or fails on the way to it. -/
theorem refundSubscriptionPreConsume_cases (fails : Stmt → Option String)
    (hrec : db.records.find requestId = some record) (hpos : 0 < record.preConsumed) :
    ((∃ e, refundSubscriptionPreConsume fails requestId db = (.error e, db)) ∨
      record.status = .refunded ∧ refundSubscriptionPreConsume fails requestId db = (.ok (), db)) ∨
    record.status = .consumed ∧ ∃ sub, db.subs.find record.userSubscriptionId = some sub ∧
      ((∃ e, (fails .saveRefund = some e ∨ fails .refundCommit = some e) ∧
          refundSubscriptionPreConsume fails requestId db =
            (.error e, { db with subs := db.giveBack sub record.preConsumed })) ∨
        refundSubscriptionPreConsume fails requestId db = (.ok (), ⟨db.giveBack sub record.preConsumed,
            db.records.save { record with status := .refunded }⟩)) := by
  unfold refundSubscriptionPreConsume
  rw [hrec]
  split
  · exact .inl (.inl ⟨_, rfl⟩)
  split
  · exact .inl (.inl ⟨_, rfl⟩)
  · next heq => cases heq
  · next r heq =>
    cases heq
    by_cases hdone : record.status = .refunded
    · rw [if_pos hdone]
      cases hc : attempt fails .refundCommit with
      | error e => exact .inl (.inl ⟨e, rfl⟩)
      | ok => exact .inl (.inr ⟨hdone, rfl⟩)
    · have hlive : record.status = .consumed := by
        cases hst : record.status with
        | consumed => rfl
        | refunded => exact absurd hst hdone
      have hz : ¬ record.preConsumed ≤ 0 := by omega
      simp only [if_neg hdone, if_neg hz]
      cases hd : postConsumeUserSubscriptionDelta fails record.userSubscriptionId (-record.preConsumed) db with
      | error e => exact .inl (.inl ⟨e, rfl⟩)
      | ok =>
        obtain ⟨sub, hsub, _, hdb1⟩ := postConsume_ok hd (by omega)
        refine .inr ⟨hlive, sub, hsub, ?_⟩
        subst hdb1
        -- The delta has committed; what is left is the save of the record and the commit.
        cases hs : fails .saveRefund with
        | some e =>
          refine .inl ⟨e, .inl rfl, ?_⟩
          simp only [attempt, hs]
          rfl
        | none =>
          cases hc : fails .refundCommit with
          | some e =>
            refine .inl ⟨e, .inr rfl, ?_⟩
            simp only [attempt, hs, hc]
            rfl
          | none =>
            refine .inr ?_
            simp only [attempt, hs, hc]
            rfl

theorem refundWithRetry_first {fn : ℕ → SubDb → Except String Unit × SubDb}
    (h : fn 0 db = (.ok (), db')) : refundWithRetry fn db = (.ok (), db') := by
  simp only [refundWithRetry, maxAttempts, retryLoop, h]

end AiGateway.Subscription
