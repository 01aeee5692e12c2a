import AiGateway.SubscriptionStoreSpec
import AiGateway.TransactionRules

/-! The transactions on subscription usage statement by statement. The `FOR UPDATE` option of their
selects has no effect; `Save` writes the whole row that was read. -/
namespace AiGateway.Subscription
open ReadCommitted GoText Fault Program

inductive Write
  | saveSub (sub : UserSubscription)
  | createRecord (record : SubscriptionPreConsumeRecord)
deriving DecidableEq

/-- A row lock, or the entry in the unique index on `request_id`. -/
inductive Lock
  | row (id : Int)
  | requestId (id : String)
deriving DecidableEq

def Write.lock : Write → Lock
  | .saveSub sub => .row sub.id
  | .createRecord record => .requestId record.requestId

def Write.apply (db : SubDb) : Write → SubDb
  | .saveSub sub => { db with subs := db.subs.save sub }
  | .createRecord record => { db with records := db.records.insert record }

structure PreConsume where
  requestId : String
  userId : Int
  amount : Int
  now : Int
deriving DecidableEq

inductive PreStep
  | findRecord
  | findRecordSub (existing : SubscriptionPreConsumeRecord)
  | findCandidates
  | findPlan (rest : List UserSubscription)
  | saveReset (plan : SubscriptionPlan) (sub : UserSubscription) (rest : List UserSubscription)
  | createRecord (sub : UserSubscription) (rest : List UserSubscription)
  | findDuplicate (sub : UserSubscription) (err : String)
  | saveCharge (sub : UserSubscription)
  | commit (res : SubscriptionPreConsumeResult)
deriving DecidableEq

def full (amount : Int) (sub : UserSubscription) : Prop :=
  0 < sub.amountTotal ∧ sub.amountTotal-sub.amountUsed < amount

instance (amount : Int) (sub : UserSubscription) : Decidable (full amount sub) :=
  inferInstanceAs (Decidable (_ ∧ _))

def PreConsume.record (c : PreConsume) (sub : UserSubscription) : SubscriptionPreConsumeRecord :=
  ⟨c.requestId, c.userId, sub.id, c.amount, .consumed⟩

def PreConsume.charge (c : PreConsume) (sub : UserSubscription) : UserSubscription :=
  { sub with amountUsed := sub.amountUsed+c.amount }

def preNext (cfg : Config) (c : PreConsume) (db : SubDb) (fault : Option String) :
    PreStep → Effect Write PreStep SubscriptionPreConsumeResult
  | .findRecord =>
    -- The checks of the arguments come before the transaction.
    if c.userId ≤ 0 then .rollback "invalid userId"
    else if trimSpace c.requestId = "" then .rollback "requestId is empty"
    else if c.amount ≤ 0 then .rollback "amount must be > 0"
    else match fault, db.records.find c.requestId with
      | some e, _ => .rollback e
      | none, none => .goto .findCandidates
      | none, some existing =>
        if existing.status = .refunded then .rollback "subscription pre-consume already refunded"
        else .goto (.findRecordSub existing)
  -- The answer to a repeated call, from the row as it is now.
  | .findRecordSub existing =>
    match fault, db.subs.find existing.userSubscriptionId with
    | some e, _ => .rollback e
    | none, none => .rollback "record not found"
    | none, some sub =>
      .goto (.commit ⟨sub.id, existing.preConsumed, sub.amountTotal, sub.amountUsed, sub.amountUsed⟩)
  | .findCandidates =>
    if fault.isSome ∨ candidates db c.userId c.now = [] then .rollback "no active subscription"
    else .goto (.findPlan (candidates db c.userId c.now))
  | .findPlan [] => .rollback s!"subscription quota insufficient, need={c.amount}"
  | .findPlan (candidate :: rest) =>
    match fault, getSubscriptionPlanById cfg candidate.planId with
    | some e, _ => .rollback e
    | none, .error e => .rollback e
    | none, .ok plan => .goto (.saveReset plan candidate rest)
  | .saveReset plan sub rest =>
    match resetStep cfg.utcOffset plan sub c.now with
    | .keep => .goto (.createRecord sub rest)
    | .hang => .rollback "the reset schedule stands still"
    | r =>
      match fault with
      | some e => .rollback e
      | none => .write (.saveSub (r.apply sub)) (.createRecord (r.apply sub) rest)
  -- The row is judged by the version in memory, which may be stale.
  | .createRecord sub rest =>
    if full c.amount sub then .goto (.findPlan rest)
    else match fault, db.records.find c.requestId with
      | some e, _ => .goto (.findDuplicate sub e)
      | none, some _ => .goto (.findDuplicate sub "UNIQUE constraint failed: request_id")
      -- The index entry is taken here; a concurrent insert waits for it.
      | none, none => .write (.createRecord (c.record sub)) (.saveCharge sub)
  | .findDuplicate sub err =>
    match fault, db.records.find c.requestId with
    | none, some dup =>
      if dup.status = .refunded then .rollback "subscription pre-consume already refunded"
      else .goto (.commit ⟨sub.id, dup.preConsumed, sub.amountTotal, sub.amountUsed, sub.amountUsed⟩)
    | _, _ => .rollback err
  | .saveCharge sub =>
    match fault with
    | some e => .rollback e
    -- The whole row is written, with the used amount computed from the version in memory.
    | none => .write (.saveSub (c.charge sub))
        (.commit ⟨sub.id, c.amount, sub.amountTotal, sub.amountUsed, sub.amountUsed+c.amount⟩)
  | .commit res =>
    match fault with
    | some e => .rollback e
    | none => .commit res

/-- The statements of a pre-consume that only read, with what they saw in `db`. -/
inductive PreGoto (cfg : Config) (c : PreConsume) (db : SubDb) : PreStep → PreStep → Prop
  | new : 0 < c.amount → db.records.find c.requestId = none → PreGoto cfg c db .findRecord .findCandidates
  | known {e : SubscriptionPreConsumeRecord} : db.records.find c.requestId = some e →
      PreGoto cfg c db .findRecord (.findRecordSub e)
  | answer {e : SubscriptionPreConsumeRecord} {sub : UserSubscription} :
      db.subs.find e.userSubscriptionId = some sub →
      PreGoto cfg c db (.findRecordSub e)
        (.commit ⟨sub.id, e.preConsumed, sub.amountTotal, sub.amountUsed, sub.amountUsed⟩)
  | list : PreGoto cfg c db .findCandidates (.findPlan (candidates db c.userId c.now))
  | plan {sub : UserSubscription} {rest : List UserSubscription} {plan : SubscriptionPlan} :
      cfg.plans sub.planId = some plan → PreGoto cfg c db (.findPlan (sub :: rest)) (.saveReset plan sub rest)
  | keep {plan : SubscriptionPlan} {sub : UserSubscription} {rest : List UserSubscription} :
      resetStep cfg.utcOffset plan sub c.now = .keep →
      PreGoto cfg c db (.saveReset plan sub rest) (.createRecord sub rest)
  | skip {sub : UserSubscription} {rest : List UserSubscription} : full c.amount sub →
      PreGoto cfg c db (.createRecord sub rest) (.findPlan rest)
  | refused {sub : UserSubscription} {rest : List UserSubscription} {err : String} : ¬ full c.amount sub →
      PreGoto cfg c db (.createRecord sub rest) (.findDuplicate sub err)
  | duplicate {sub : UserSubscription} {err : String} {dup : SubscriptionPreConsumeRecord} :
      db.records.find c.requestId = some dup →
      PreGoto cfg c db (.findDuplicate sub err)
        (.commit ⟨sub.id, dup.preConsumed, sub.amountTotal, sub.amountUsed, sub.amountUsed⟩)

inductive PreWrite (cfg : Config) (c : PreConsume) (db : SubDb) : PreStep → Write → PreStep → Prop
  | reset {plan : SubscriptionPlan} {sub : UserSubscription} {rest : List UserSubscription} {r : ResetStep} :
      resetStep cfg.utcOffset plan sub c.now = r → r ≠ .keep →
      PreWrite cfg c db (.saveReset plan sub rest) (.saveSub (r.apply sub)) (.createRecord (r.apply sub) rest)
  | create {sub : UserSubscription} {rest : List UserSubscription} : ¬ full c.amount sub →
      db.records.find c.requestId = none →
      PreWrite cfg c db (.createRecord sub rest) (.createRecord (c.record sub)) (.saveCharge sub)
  | charge {sub : UserSubscription} :
      PreWrite cfg c db (.saveCharge sub) (.saveSub (c.charge sub))
        (.commit ⟨sub.id, c.amount, sub.amountTotal, sub.amountUsed, sub.amountUsed+c.amount⟩)

def PreEffect (cfg : Config) (c : PreConsume) (db : SubDb) (s : PreStep) :
    Effect Write PreStep SubscriptionPreConsumeResult → Prop
  | .goto s' => PreGoto cfg c db s s'
  | .write w s' => PreWrite cfg c db s w s'
  | .commit res => s = .commit res
  | .rollback _ => True

theorem preNext_effect (cfg : Config) (c : PreConsume) (db : SubDb) (fault : Option String) (s : PreStep) :
    PreEffect cfg c db s (preNext cfg c db fault s) := by
  cases s with
  | findRecord =>
    simp only [preNext]
    split_ifs with _ _ hamount
    · trivial
    · trivial
    · trivial
    · split
      · trivial
      · next hnone => exact .new (by omega) hnone
      · next existing hsome =>
        split_ifs
        · trivial
        · exact .known hsome
  | findRecordSub =>
    simp only [preNext]
    split
    · trivial
    · trivial
    · next sub hsub => exact .answer hsub
  | findCandidates =>
    simp only [preNext]
    split_ifs
    · trivial
    · exact .list
  | findPlan cs =>
    cases cs with
    | nil => trivial
    | cons =>
      simp only [preNext]
      split
      · trivial
      · trivial
      · next plan hplan => exact .plan (getSubscriptionPlanById_ok hplan)
  | saveReset =>
    simp only [preNext]
    split
    · next hkeep => exact .keep hkeep
    · trivial
    · next hkeep _ =>
      split
      · trivial
      · exact .reset rfl hkeep
  | createRecord =>
    simp only [preNext]
    split_ifs with hfull
    · exact .skip hfull
    · split
      · exact .refused hfull
      · exact .refused hfull
      · next hnone => exact .create hfull hnone
  | findDuplicate =>
    simp only [preNext]
    split
    · next dup hdup =>
      split_ifs
      · trivial
      · exact .duplicate hdup
    · trivial
  | saveCharge =>
    simp only [preNext]
    split
    · trivial
    · exact .charge
  | commit =>
    simp only [preNext]
    split
    · trivial
    · rfl

inductive DeltaStep
  | find
  | save (sub : UserSubscription)
  | commit
deriving DecidableEq

def deltaNext (userSubscriptionId delta : Int) (db : SubDb) (fault : Option String) :
    DeltaStep → Effect Write DeltaStep Unit
  | .find =>
    if userSubscriptionId ≤ 0 then .rollback "invalid userSubscriptionId"
    else if delta = 0 then .commit ()
    else match fault, db.subs.find userSubscriptionId with
      | some e, _ => .rollback e
      | none, none => .rollback "record not found"
      | none, some sub => .goto (.save sub)
  | .save sub =>
    let newUsed := clampUsed sub.amountUsed delta
    if 0 < sub.amountTotal ∧ sub.amountTotal < newUsed then
      .rollback s!"subscription used exceeds total, used={newUsed} total={sub.amountTotal}"
    else match fault with
      | some e => .rollback e
      | none => .write (.saveSub { sub with amountUsed := newUsed }) .commit
  | .commit =>
    match fault with
    | some e => .rollback e
    | none => .commit ()

inductive Statement
  | preConsume (call : PreConsume) (s : PreStep)
  | delta (userSubscriptionId delta : Int) (s : DeltaStep)
deriving DecidableEq

inductive Answer
  | preConsumed (res : SubscriptionPreConsumeResult)
  | moved (userSubscriptionId delta : Int)
deriving DecidableEq

def program (cfg : Config) : Program SubDb Write Lock Statement Answer where
  apply := Write.apply
  lock := Write.lock
  next
    | .preConsume c s, db, fault => (preNext cfg c db fault s).map (.preConsume c) .preConsumed
    | .delta id d s, db, fault => (deltaNext id d db fault s).map (.delta id d) (fun _ => .moved id d)

theorem next_preConsume (cfg : Config) (c : PreConsume) (s : PreStep) (db : SubDb) (fault : Option String) :
    (program cfg).next (.preConsume c s) db fault = (preNext cfg c db fault s).map (.preConsume c) .preConsumed := rfl

theorem next_delta (cfg : Config) (id d : Int) (s : DeltaStep) (db : SubDb) (fault : Option String) :
    (program cfg).next (.delta id d s) db fault =
      (deltaNext id d db fault s).map (.delta id d) (fun _ => .moved id d) := rfl

section Inversion

variable {cfg : Config} {c : PreConsume} {db : SubDb} {f : Option String} {s : PreStep} {l' : Statement}

theorem preConsume_goto (h : (program cfg).next (.preConsume c s) db f = .goto l') :
    ∃ s', l' = .preConsume c s' ∧ PreGoto cfg c db s s' := by
  rw [next_preConsume] at h
  obtain ⟨s', hs, hl⟩ := Effect.map_eq_goto h
  have heffect := preNext_effect cfg c db f s
  rw [hs] at heffect
  exact ⟨s', hl.symm, heffect⟩

theorem preConsume_write {w : Write} (h : (program cfg).next (.preConsume c s) db f = .write w l') :
    ∃ s', l' = .preConsume c s' ∧ PreWrite cfg c db s w s' := by
  rw [next_preConsume] at h
  obtain ⟨s', hs, hl⟩ := Effect.map_eq_write h
  have heffect := preNext_effect cfg c db f s
  rw [hs] at heffect
  exact ⟨s', hl.symm, heffect⟩

theorem preConsume_commit {r : Answer} (h : (program cfg).next (.preConsume c s) db f = .commit r) :
    ∃ res, r = .preConsumed res ∧ s = .commit res := by
  rw [next_preConsume] at h
  obtain ⟨res, hs, hr⟩ := Effect.map_eq_commit h
  have heffect := preNext_effect cfg c db f s
  rw [hs] at heffect
  exact ⟨res, hr.symm, heffect⟩

theorem delta_goto {id d : Int} {s : DeltaStep} (h : (program cfg).next (.delta id d s) db f = .goto l') :
    ∃ sub, s = .find ∧ l' = .delta id d (.save sub) ∧ db.subs.find id = some sub := by
  rw [next_delta] at h
  obtain ⟨_, hs, rfl⟩ := Effect.map_eq_goto h
  cases s with
  | find =>
    simp only [deltaNext] at hs
    split_ifs at hs
    split at hs
    · cases hs
    · cases hs
    · next sub hsub =>
      cases hs
      exact ⟨sub, rfl, rfl, hsub⟩
  | save =>
    simp only [deltaNext] at hs
    split_ifs at hs
    split at hs <;> cases hs
  | commit =>
    simp only [deltaNext] at hs
    split at hs <;> cases hs

theorem delta_write {id d : Int} {s : DeltaStep} {w : Write}
    (h : (program cfg).next (.delta id d s) db f = .write w l') : ∃ sub, s = .save sub ∧
      l' = .delta id d .commit ∧
      w = .saveSub { sub with amountUsed := clampUsed sub.amountUsed d } ∧
      (0 < sub.amountTotal → clampUsed sub.amountUsed d ≤ sub.amountTotal) := by
  rw [next_delta] at h
  obtain ⟨s', hs, rfl⟩ := Effect.map_eq_write h
  cases s with
  | find =>
    simp only [deltaNext] at hs
    split_ifs at hs
    split at hs <;> cases hs
  | save sub =>
    simp only [deltaNext] at hs
    split_ifs at hs with hlim
    split at hs
    · cases hs
    · cases hs
      exact ⟨sub, rfl, rfl, rfl, fun ht => by omega⟩
  | commit =>
    simp only [deltaNext] at hs
    split at hs <;> cases hs

theorem delta_commit {id d : Int} {s : DeltaStep} {r : Answer}
    (h : (program cfg).next (.delta id d s) db f = .commit r) :
    r = .moved id d ∧ (s = .commit ∨ s = .find ∧ d = 0) := by
  rw [next_delta] at h
  obtain ⟨_, hs, rfl⟩ := Effect.map_eq_commit h
  refine ⟨rfl, ?_⟩
  cases s with
  | find =>
    simp only [deltaNext] at hs
    split_ifs at hs with _ hz
    · exact .inr ⟨rfl, hz⟩
    · split at hs <;> cases hs
  | save =>
    simp only [deltaNext] at hs
    split_ifs at hs
    split at hs <;> cases hs
  | commit => exact .inl rfl

end Inversion

theorem view_find_sub (cfg : Config) (db : SubDb) (ws : List Write) {id : Int}
    (h : ∀ w ∈ ws, w.lock ≠ .row id) : ((program cfg).view db ws).subs.find id = db.subs.find id := by
  refine view_frame (f := fun db : SubDb => db.subs.find id) ?_ db ws h
  intro db w hw
  cases w with
  | createRecord => rfl
  | saveSub sub =>
    have hne : id ≠ sub.id := fun he => hw (by rw [he]; rfl)
    exact Table.find_save_of_ne _ hne

theorem view_find_record (cfg : Config) (db : SubDb) (ws : List Write) {requestId : String}
    (h : ∀ w ∈ ws, w.lock ≠ .requestId requestId) :
    ((program cfg).view db ws).records.find requestId = db.records.find requestId := by
  refine view_frame (f := fun db : SubDb => db.records.find requestId) ?_ db ws h
  intro db w hw
  cases w with
  | saveSub => rfl
  | createRecord record =>
    have hne : requestId ≠ record.requestId := fun he => hw (by rw [he]; rfl)
    exact Table.find_insert_of_ne _ hne

def alone (db : SubDb) : Except String (Answer × SubDb) → System SubDb Write Statement Answer
  | .error e => ⟨db, [.finished (.error e)], []⟩
  | .ok (answer, db') => ⟨db', [.finished (.ok answer)], [answer]⟩

def preAnswer (out : SubscriptionPreConsumeResult × SubDb) : Answer × SubDb := (.preConsumed out.1, out.2)

section Alone

variable {cfg : Config} {c : PreConsume} {db : SubDb} {rest : List UserSubscription}

theorem createRecord_alone {sub : UserSubscription} {ws : List Write} (hroom : ¬ full c.amount sub) :
    (program cfg).Leads ⟨db, [.active (.preConsume c (.createRecord sub rest)) ws], []⟩
      (alone db ((chargeCandidate never c.requestId c.userId c.amount sub
        ((program cfg).view db ws)).map preAnswer)) := by
  apply Program.Leads.next
  cases hrec : ((program cfg).view db ws).records.find c.requestId with
  | none =>
    -- Insert the record, save the row, commit.
    simp only [next_preConsume, preNext, if_neg hroom, hrec, Effect.map, chargeCandidate, never]
    apply Program.Leads.next
    apply Program.Leads.next
    simp only [next_preConsume, preNext, Effect.map, Program.After, view_concat]
    rfl
  | some =>
    -- The unique index refuses the insertion, and the record is read instead.
    simp only [next_preConsume, preNext, if_neg hroom, hrec, Option.map_some, chargeCandidate, never]
    apply Program.Leads.next
    simp only [next_preConsume, preNext, hrec]
    split
    · rfl
    · apply Program.Leads.next
      rfl

theorem saveReset_alone {plan : SubscriptionPlan} {candidate : UserSubscription}
    (ih : ∀ ws, (program cfg).Leads ⟨db, [.active (.preConsume c (.findPlan rest)) ws], []⟩
      (alone db ((preConsumeLoop cfg never c.requestId c.userId c.amount c.now rest
        ((program cfg).view db ws)).map preAnswer)))
    (ws : List Write) :
    (program cfg).Leads ⟨db, [.active (.preConsume c (.saveReset plan candidate rest)) ws], []⟩
      (alone db ((maybeResetUserSubscription cfg never c.now plan candidate ((program cfg).view db ws) >>=
        fun out => if full c.amount out.1 then preConsumeLoop cfg never c.requestId c.userId c.amount c.now rest out.2
          else chargeCandidate never c.requestId c.userId c.amount out.1 out.2).map preAnswer)) := by
  -- What follows the reset check, whatever row and writes it leaves.
  have hnext (sub : UserSubscription) (ws : List Write) :
      (program cfg).Leads ⟨db, [.active (.preConsume c (.createRecord sub rest)) ws], []⟩
        (alone db ((if full c.amount sub then
            preConsumeLoop cfg never c.requestId c.userId c.amount c.now rest ((program cfg).view db ws)
          else chargeCandidate never c.requestId c.userId c.amount sub ((program cfg).view db ws)).map preAnswer)) := by
    by_cases hfull : full c.amount sub
    · rw [if_pos hfull]
      apply Program.Leads.next
      simp only [next_preConsume, preNext, if_pos hfull]
      exact ih ws
    · rw [if_neg hfull]
      exact createRecord_alone hfull
  have hsaved (r : ResetStep) := hnext (r.apply candidate) (ws ++ [.saveSub (r.apply candidate)])
  simp only [view_concat] at hsaved
  -- The reset check either keeps the row or saves it; both go on to the same statement.
  apply Program.Leads.next
  cases hr : resetStep cfg.utcOffset plan candidate c.now with
  | keep =>
    simp only [next_preConsume, preNext, hr, maybeResetUserSubscription, ok_bind]
    exact hnext candidate ws
  | hang =>
    simp only [next_preConsume, preNext, hr, maybeResetUserSubscription]
    rfl
  | clock | zero =>
    simp only [next_preConsume, preNext, hr, maybeResetUserSubscription, attempt_never, ok_bind]
    exact hsaved _

theorem findPlan_alone (cs : List UserSubscription) (ws : List Write) :
    (program cfg).Leads ⟨db, [.active (.preConsume c (.findPlan cs)) ws], []⟩
      (alone db ((preConsumeLoop cfg never c.requestId c.userId c.amount c.now cs
        ((program cfg).view db ws)).map preAnswer)) := by
  -- Induction on the candidates; the writes so far are the resets of those that were full.
  induction cs generalizing ws with
  | nil => exact Program.Leads.next rfl
  | cons candidate rest ih =>
    rw [preConsumeLoop, attempt_never, ok_bind]
    apply Program.Leads.next
    cases hplan : getSubscriptionPlanById cfg candidate.planId with
    | error =>
      simp only [next_preConsume, preNext, hplan]
      rfl
    | ok =>
      simp only [next_preConsume, preNext, hplan]
      exact saveReset_alone ih ws

/-- Without other transactions and without failures, the statements of a pre-consume do
what `preConsumeUserSubscription` says. -/
theorem preConsume_alone : (program cfg).Leads (System.initial db [.preConsume c .findRecord])
      (alone db ((preConsumeUserSubscription cfg never c.requestId c.userId c.amount c.now db).map preAnswer)) := by
  change (program cfg).Leads ⟨db, [.active (.preConsume c .findRecord) []], []⟩ _
  have hview : (program cfg).view db [] = db := rfl
  apply Program.Leads.next
  -- The commit that follows the body cannot fail here.
  simp only [next_preConsume, preNext, preConsumeUserSubscription, preConsumeBody, attempt_never,
    ok_bind, bind_pure, hview]
  -- The argument checks come before the transaction begins.
  split
  · rfl
  split
  · rfl
  split
  · rfl
  cases hrec : db.records.find c.requestId with
  | none =>
    apply Program.Leads.next
    simp only [next_preConsume, preNext, hview, never, Option.isSome_none, Bool.false_eq_true, false_or]
    split
    · rfl
    · exact findPlan_alone _ []
  | some existing =>
    dsimp only
    split
    · rfl
    · apply Program.Leads.next
      simp only [next_preConsume, preNext, hview]
      cases hsub : db.subs.find existing.userSubscriptionId with
      | none => rfl
      | some =>
        apply Program.Leads.next
        rfl

end Alone

end AiGateway.Subscription
