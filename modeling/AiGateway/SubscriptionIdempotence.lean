import AiGateway.SubscriptionStatements

/-! Concurrent pre-consumes of one request. -/
namespace AiGateway.Subscription
open ReadCommitted GoText List Table Run Program

variable (cfg : Config)

def firstWithRoom (c : PreConsume) (cs : List UserSubscription) : Option Int :=
  (cs.find? (fun s => ¬ full c.amount (resetRow cfg c.now s))).map UserSubscription.id

/-- The calls find room on subscription `k` first, and a reset check does not overwrite a
row that was written since it was read. -/
def SameChoice (k : Int) : Statement → SubDb → Prop
  | .preConsume c .findCandidates, db => ∀ id ∈ firstWithRoom cfg c (candidates db c.userId c.now), id = k
  | .preConsume c (.saveReset plan sub _), db =>
    resetStep cfg.utcOffset plan sub c.now = .keep ∨ db.subs.find sub.id = some sub
  | _, _ => True

instance (cfg : Config) (k : Int) (l : Statement) (db : SubDb) : Decidable (SameChoice cfg k l db) := by
  unfold SameChoice
  split <;> infer_instance

def Harmless (db : SubDb) : Write → Prop
  | .saveSub r => ∃ r0, db.subs.find r.id = some r0 ∧ (r.amountUsed = r0.amountUsed ∨ r.amountUsed = 0)
  | .createRecord _ => False

/-- A call that found no record and has only checked resets so far. -/
structure Trying (start : SubDb) (c : PreConsume) (db : SubDb) (ws : List Write) : Prop where
  fresh : start.records.find c.requestId = none
  amount : 0 < c.amount
  harmless : ∀ w ∈ ws, Harmless db w

def Running (start : SubDb) (requestId : String) (k : Int) (db : SubDb) :
    Statement → List Write → Prop
  | .delta _ _ _, _ => False
  | .preConsume c s, ws => c.requestId = requestId ∧ match s with
    -- Nothing is written before the candidates are known.
    | .findRecord => ws = []
    | .findRecordSub existing => ws = [] ∧ db.records.find requestId = some existing
    | .findCandidates => ws = [] ∧ Trying start c db ws
    | .findPlan rest => Trying start c db ws ∧ (∀ s ∈ rest, 0 ≤ s.amountUsed) ∧
        ∀ id ∈ firstWithRoom cfg c rest, id = k
    | .saveReset plan sub rest => Trying start c db ws ∧ cfg.plans sub.planId = some plan ∧
        (∀ s ∈ sub :: rest, 0 ≤ s.amountUsed) ∧ ∀ id ∈ firstWithRoom cfg c (sub :: rest), id = k
    | .createRecord sub rest => Trying start c db ws ∧ (∀ s ∈ sub :: rest, 0 ≤ s.amountUsed) ∧
        (if full c.amount sub then ∀ id ∈ firstWithRoom cfg c rest, id = k else sub.id = k)
    | .findDuplicate sub _ => Trying start c db ws ∧ sub.id = k
    -- The record is inserted but not committed, and no one else can insert it.
    | .saveCharge sub => sub.id = k ∧ 0 ≤ sub.amountUsed ∧ db.records.find requestId = none ∧
        ∃ ws0, ws = ws0 ++ [.createRecord (c.record sub)] ∧ Trying start c db ws0
    | .commit res =>
      -- Answered from a record, or charged.
      (∃ e, db.records.find requestId = some e ∧ res.userSubscriptionId = e.userSubscriptionId ∧
        res.preConsumed = e.preConsumed ∧ ∀ w ∈ ws, Harmless db w) ∨
      (db.records.find requestId = none ∧ ∃ ws0 sub, sub.id = k ∧ 0 ≤ sub.amountUsed ∧
        ws = ws0 ++ [.createRecord (c.record sub)] ++ [.saveSub (c.charge sub)] ∧ Trying start c db ws0 ∧
        res.userSubscriptionId = k ∧ res.preConsumed = c.amount)

structure Settled (start : SubDb) (requestId : String) (k : Int) (db : SubDb) (log : List Answer) : Prop where
  nonneg : ∀ id sub, db.subs.find id = some sub → 0 ≤ sub.amountUsed
  kept : ∀ r, start.records.find requestId = some r → db.records.find requestId = some r
  chosen : start.records.find requestId = none → ∀ r, db.records.find requestId = some r →
    r.userSubscriptionId = k
  answers : ∀ res, .preConsumed res ∈ log → ∃ r, db.records.find requestId = some r ∧
    res.userSubscriptionId = r.userSubscriptionId ∧ res.preConsumed = r.preConsumed

section Frame

variable {cfg : Config} {db : SubDb} {ws : List Write}

theorem view_of_harmless (h : ∀ w ∈ ws, Harmless db w) :
    ((program cfg).view db ws).records = db.records ∧ ∀ id r, ((program cfg).view db ws).subs.find id = some r →
        ∃ r0, db.subs.find id = some r0 ∧ (r.amountUsed = r0.amountUsed ∨ r.amountUsed = 0) := by
  induction ws using reverseRecOn with
  | nil => exact ⟨rfl, fun id r hr => ⟨r, hr, .inl rfl⟩⟩
  | append_singleton ws w ih =>
    obtain ⟨hrec, hrows⟩ := ih (fun v hv => h v (mem_append_left _ hv))
    have hw := h w (by simp)
    rw [view_concat]
    -- The last write is a reset, which keeps the used amount or sets it to zero.
    cases w with
    | createRecord => exact absurd hw id
    | saveSub row =>
      refine ⟨hrec, ?_⟩
      intro id r hr
      have hr : (((program cfg).view db ws).subs.save row).find id = some r := hr
      rcases find_save_some hr with ⟨hid, rfl⟩ | ⟨_, hr⟩
      · rw [hid]
        exact hw
      · exact hrows id r hr

theorem Harmless.frame {w : Write} (h : Harmless db w) (hap : ∀ v ∈ ws, v.lock ≠ w.lock) :
    Harmless ((program cfg).view db ws) w := by
  cases w with
  | createRecord => exact h
  | saveSub =>
    obtain ⟨r0, hr0, hu⟩ := h
    refine ⟨r0, ?_, hu⟩
    rw [view_find_sub cfg db ws hap]
    exact hr0

theorem Trying.frame {start : SubDb} {c : PreConsume} {ws' : List Write} (h : Trying start c db ws')
    (hap : (program cfg).Apart ws ws') : Trying start c ((program cfg).view db ws) ws' :=
  ⟨h.fresh, h.amount, fun w hw => (h.harmless w hw).frame (fun v hv => hap v hv w hw)⟩

end Frame

theorem firstWithRoom_cons (c : PreConsume) (s : UserSubscription) (rest : List UserSubscription) :
    firstWithRoom cfg c (s :: rest) =
      if full c.amount (resetRow cfg c.now s) then firstWithRoom cfg c rest else some s.id := by
  unfold firstWithRoom
  by_cases h : full c.amount (resetRow cfg c.now s)
  · rw [if_pos h, find?_cons_of_neg (by simpa using h)]
  · rw [if_neg h, find?_cons_of_pos (by simpa using h)]
    rfl

theorem resetRow_of_plan {cfg : Config} {plan : SubscriptionPlan} {sub : UserSubscription}
    (h : cfg.plans sub.planId = some plan) (now : Int) :
    resetRow cfg now sub = (resetStep cfg.utcOffset plan sub now).apply sub := by
  simp only [resetRow, h]

section Obligations

variable {cfg : Config} {start db : SubDb} {requestId : String} {k : Int} {log : List Answer}
  {l l' : Statement} {ws : List Write} {f : Option String}

theorem choice_of_reset {c : PreConsume} {plan : SubscriptionPlan} {sub : UserSubscription}
    {rest : List UserSubscription} (hplan : cfg.plans sub.planId = some plan)
    (hpick : ∀ id ∈ firstWithRoom cfg c (sub :: rest), id = k) {r : ResetStep}
    (hr : resetStep cfg.utcOffset plan sub c.now = r) :
    if full c.amount (r.apply sub) then ∀ id ∈ firstWithRoom cfg c rest, id = k else (r.apply sub).id = k := by
  rw [firstWithRoom_cons, resetRow_of_plan hplan, hr] at hpick
  split
  · next hfull => rwa [if_pos hfull] at hpick
  · next hroom =>
    rw [if_neg hroom] at hpick
    rw [ResetStep.apply_id]
    exact hpick sub.id rfl

theorem running_goto (hI : Settled start requestId k db log) (hJ : Running cfg start requestId k db l ws)
    (hok : SameChoice cfg k l ((program cfg).view db ws))
    (hn : (program cfg).next l ((program cfg).view db ws) f = .goto l') : Running cfg start requestId k db l' ws := by
  cases l with
  | delta => exact False.elim hJ
  | preConsume c s =>
    obtain ⟨_, rfl, hgoto⟩ := preConsume_goto hn
    obtain ⟨hreq, hJ⟩ := hJ
    refine ⟨hreq, ?_⟩
    cases hgoto with
    | new hamount hnone =>
      have hws : ws = [] := hJ
      subst hws
      rw [view_nil, hreq] at hnone
      -- A record that was there at the start would still be there.
      have hfresh : start.records.find c.requestId = none := by
        rw [hreq]
        cases hs : start.records.find requestId with
        | none => rfl
        | some r =>
          rw [hI.kept r hs] at hnone
          cases hnone
      exact ⟨rfl, hfresh, hamount, by simp⟩
    | known hsome =>
      have hws : ws = [] := hJ
      subst hws
      rw [view_nil, hreq] at hsome
      exact ⟨rfl, hsome⟩
    -- The request was known: the answer is the record's own subscription.
    | @answer existing sub hsub =>
      obtain ⟨hws, hrec⟩ := hJ
      subst hws
      rw [view_nil] at hsub
      have hid := find_key db.subs hsub
      exact .inl ⟨existing, hrec, hid, rfl, by simp⟩
    | list =>
      obtain ⟨hws, htry⟩ := hJ
      subst hws
      -- Here the calls agree on the candidate.
      refine ⟨htry, ?_, hok⟩
      intro s hs
      exact hI.nonneg s.id s (find_candidate db c.userId c.now s hs)
    | plan hplan =>
      obtain ⟨htry, hnn, hpick⟩ := hJ
      exact ⟨htry, hplan, hnn, hpick⟩
    | keep hkeep =>
      obtain ⟨htry, hplan, hnn, hpick⟩ := hJ
      exact ⟨htry, hnn, choice_of_reset hplan hpick hkeep⟩
    | skip hfull =>
      obtain ⟨htry, hnn, hpick⟩ := hJ
      rw [if_pos hfull] at hpick
      exact ⟨htry, (forall_mem_cons.mp hnn).2, hpick⟩
    | refused hroom =>
      obtain ⟨htry, _, hpick⟩ := hJ
      rw [if_neg hroom] at hpick
      exact ⟨htry, hpick⟩
    | @duplicate sub err dup hdup =>
      obtain ⟨htry, hid⟩ := hJ
      -- The record was inserted by a call that tried the same subscription.
      rw [(view_of_harmless htry.harmless).1, hreq] at hdup
      have hchosen := hI.chosen (hreq ▸ htry.fresh) dup hdup
      exact .inl ⟨dup, hdup, hid.trans hchosen.symm, rfl, htry.harmless⟩

theorem running_write (hJ : Running cfg start requestId k db l ws)
    (hok : SameChoice cfg k l ((program cfg).view db ws)) {w : Write}
    (hn : (program cfg).next l ((program cfg).view db ws) f = .write w l') :
    Running cfg start requestId k db l' (ws ++ [w]) := by
  cases l with
  | delta => exact False.elim hJ
  | preConsume c s =>
    obtain ⟨s', rfl, hwrite⟩ := preConsume_write hn
    obtain ⟨hreq, hJ⟩ := hJ
    refine ⟨hreq, ?_⟩
    cases hwrite with
    | @reset plan sub rest r hr hkeep =>
      obtain ⟨htry, hplan, hnn, hpick⟩ := hJ
      have hused := ResetStep.apply_amountUsed sub r
      refine ⟨⟨htry.fresh, htry.amount, forall_mem_concat htry.harmless ?_⟩, ?_, choice_of_reset hplan hpick hr⟩
      · -- The row is still the one that was read.
        have hrow := hok.resolve_left (fun h => hkeep (hr.symm.trans h))
        obtain ⟨r0, hr0, hu⟩ := (view_of_harmless htry.harmless).2 sub.id sub hrow
        refine ⟨r0, by rw [ResetStep.apply_id]; exact hr0, ?_⟩
        rcases hused with he | ⟨_, he⟩
        · rw [he]
          exact hu
        · exact .inr he
      · obtain ⟨hsub, hrest⟩ := forall_mem_cons.mp hnn
        refine forall_mem_cons.mpr ⟨?_, hrest⟩
        rcases hused with he | ⟨_, he⟩ <;> omega
    -- The insertion went through, so no record is committed.
    | @create sub rest hroom hnone =>
      obtain ⟨htry, hnn, hpick⟩ := hJ
      rw [if_neg hroom] at hpick
      rw [(view_of_harmless htry.harmless).1, hreq] at hnone
      exact ⟨hpick, hnn sub mem_cons_self, hnone, ws, rfl, htry⟩
    | @charge sub =>
      obtain ⟨hid, hnn, hnone, ws0, hws, htry⟩ := hJ
      exact .inr ⟨hnone, ws0, sub, hid, hnn, by rw [hws], htry, hid, rfl⟩

variable {e : SubscriptionPreConsumeRecord}

theorem view_of_charge (sub : UserSubscription) {ws0 : List Write}
    (h0 : ∀ w ∈ ws0, Harmless db w) (hnone : db.records.find e.requestId = none) :
    ((program cfg).view db (ws0 ++ [.createRecord e] ++ [.saveSub sub])).records.find e.requestId = some e ∧
      ∀ id r, ((program cfg).view db (ws0 ++ [.createRecord e] ++ [.saveSub sub])).subs.find id = some r →
        r = sub ∨ ∃ r0, db.subs.find id = some r0 ∧ (r.amountUsed = r0.amountUsed ∨ r.amountUsed = 0) := by
  obtain ⟨hrec, hrows⟩ := view_of_harmless h0
  rw [view_concat, view_concat]
  refine ⟨?_, ?_⟩
  · change (((program cfg).view db ws0).records.insert e).find e.requestId = some e
    rw [find_insert _ _ _ (by rw [hrec]; exact hnone), if_pos rfl]
  · intro id r hr
    have hr : (((program cfg).view db ws0).subs.save sub).find id = some r := hr
    rcases find_save_some hr with ⟨_, he⟩ | ⟨_, hr⟩
    · exact .inl he
    · exact .inr (hrows id r hr)

section Commit

variable {r : Answer} (hJ : Running cfg start requestId k db l ws)
  (hn : (program cfg).next l ((program cfg).view db ws) f = .commit r)

include hJ hn

theorem running_commit : ∃ res, r = .preConsumed res ∧
      ((∃ e, db.records.find requestId = some e ∧ res.userSubscriptionId = e.userSubscriptionId ∧
          res.preConsumed = e.preConsumed ∧ ∀ w ∈ ws, Harmless db w) ∨
        (db.records.find requestId = none ∧ start.records.find requestId = none ∧
          ∃ e ws0 sub, e.requestId = requestId ∧ e.userSubscriptionId = k ∧ 0 ≤ sub.amountUsed ∧
            ws = ws0 ++ [.createRecord e] ++ [.saveSub sub] ∧ (∀ w ∈ ws0, Harmless db w) ∧
            res.userSubscriptionId = k ∧ res.preConsumed = e.preConsumed)) := by
  cases l with
  | delta => exact False.elim hJ
  | preConsume c =>
    obtain ⟨res, rfl, rfl⟩ := preConsume_commit hn
    obtain ⟨hreq, hJ⟩ := hJ
    refine ⟨res, rfl, ?_⟩
    rcases hJ with hold | ⟨hnone, ws0, sub, hid, hnn, hws, htry, hsub, hpre⟩
    · exact .inl hold
    · have hamount := htry.amount
      have hused : 0 ≤ (c.charge sub).amountUsed := by
        change 0 ≤ sub.amountUsed+c.amount
        omega
      exact .inr ⟨hnone, hreq ▸ htry.fresh, c.record sub, ws0, c.charge sub, hreq, hid, hused, hws,
        htry.harmless, hsub, hpre⟩

theorem record_stays (he : db.records.find requestId = some e) :
    ((program cfg).view db ws).records.find requestId = some e := by
  obtain ⟨_, _, ⟨_, _, _, _, hharm⟩ | ⟨hnone, _⟩⟩ := running_commit hJ hn
  · rw [(view_of_harmless hharm).1]
    exact he
  · rw [hnone] at he
    cases he

theorem settled_commit (hI : Settled start requestId k db log) :
    Settled start requestId k ((program cfg).view db ws) (log ++ [r]) := by
  have hlow {id : Int} {u : Int} {r0 : UserSubscription} (hr0 : db.subs.find id = some r0)
      (hu : u = r0.amountUsed ∨ u = 0) : 0 ≤ u := by
    have := hI.nonneg id r0 hr0
    omega
  -- A commit that answers keeps the record; one that charges brings it.
  obtain ⟨_, rfl, ⟨e, he, hsub, hpre, hharm⟩ | ⟨hnone, hfresh, e, _, sub, rfl, hid, hnn, rfl, h0, hsub,
    hpre⟩⟩ :=
    running_commit hJ hn
  · obtain ⟨hrec, hrows⟩ := view_of_harmless hharm
    refine ⟨?_, ?_, ?_, ?_⟩
    · intro id s hs
      obtain ⟨_, hr0, hu⟩ := hrows id s hs
      exact hlow hr0 hu
    · rw [hrec]
      exact hI.kept
    · rw [hrec]
      exact hI.chosen
    · intro res' hres'
      rw [hrec]
      rcases mem_append.mp hres' with hold | hnew
      · exact hI.answers res' hold
      · cases mem_singleton.mp hnew
        exact ⟨e, he, hsub, hpre⟩
  · obtain ⟨hrec, hrows⟩ := view_of_charge sub h0 hnone
    refine ⟨?_, ?_, ?_, ?_⟩
    · intro id s hs
      rcases hrows id s hs with rfl | ⟨_, hr0, hu⟩
      · exact hnn
      · exact hlow hr0 hu
    · intro r hr
      rw [hfresh] at hr
      cases hr
    · intro _ r hr
      rw [hrec] at hr
      cases hr
      exact hid
    · intro res' hres'
      refine ⟨e, hrec, ?_⟩
      rcases mem_append.mp hres' with hold | hnew
      · -- An earlier answer would have come with a record.
        obtain ⟨_, hr, _⟩ := hI.answers res' hold
        rw [hnone] at hr
        cases hr
      · cases mem_singleton.mp hnew
        exact ⟨hsub.trans hid.symm, hpre⟩

theorem running_others {ws' : List Write} (hJ' : Running cfg start requestId k db l' ws')
    (hap : (program cfg).Apart ws ws') :
    Running cfg start requestId k ((program cfg).view db ws) l' ws' := by
  cases l' with
  | delta => exact hJ'
  | preConsume c s =>
    obtain ⟨hreq, hJ'⟩ := hJ'
    refine ⟨hreq, ?_⟩
    -- A transaction that has inserted the record holds the index entry.
    have hlocked (sub : UserSubscription) (hin : .createRecord (c.record sub) ∈ ws')
        (hnone : db.records.find requestId = none) : ((program cfg).view db ws).records.find requestId = none := by
      have hother : ∀ w ∈ ws, w.lock ≠ .requestId requestId := by
        intro w hw hl
        exact hap w hw _ hin (hl.trans (by rw [← hreq]; rfl))
      rw [view_find_record cfg db ws hother]
      exact hnone
    -- What a statement has read may be stale; what it relies on is kept by the locks.
    cases s with
    | findRecord => exact hJ'
    -- A committed record is not taken away again.
    | findRecordSub existing => exact ⟨hJ'.1, record_stays hJ hn hJ'.2⟩
    | findCandidates => exact ⟨hJ'.1, hJ'.2.frame hap⟩
    | findPlan rest | saveReset plan sub rest | createRecord sub rest
    | findDuplicate sub err => exact ⟨hJ'.1.frame hap, hJ'.2⟩
    | saveCharge sub =>
      obtain ⟨hid, hnn, hnone, ws0, rfl, htry⟩ := hJ'
      refine ⟨hid, hnn, hlocked sub (by simp) hnone, ws0, rfl, htry.frame ?_⟩
      intro w hw v hv
      exact hap w hw v (mem_append_left _ hv)
    | commit res =>
      rcases hJ' with ⟨e, he, hsub, hpre, hharm⟩ | ⟨hnone, ws0, sub, hid, hnn, rfl, htry, hsub, hpre⟩
      · refine .inl ⟨e, record_stays hJ hn he, hsub, hpre, ?_⟩
        intro w hw
        exact (hharm w hw).frame (fun v hv => hap v hv w hw)
      · refine .inr ⟨hlocked sub (by simp) hnone, ws0, sub, hid, hnn, rfl, htry.frame ?_, hsub, hpre⟩
        intro w hw v hv
        exact hap w hw v (mem_append_left _ (mem_append_left _ hv))

end Commit

theorem keeps : (program cfg).Keeps (SameChoice cfg k) (Settled start requestId k) (Running cfg start requestId k) where
  goto := fun hI hJ hok hn => running_goto hI hJ hok hn
  write := fun _ hJ hok hn => running_write hJ hok hn
  commit := fun hI hJ hn => settled_commit hJ hn hI
  others := fun _ hJ hn hJ' hap => running_others hJ hn hJ' hap

end Obligations

def raisesUsed (db db' : SubDb) : Bool :=
  db'.subs.rows.any (fun r => db.subs.rows.any (fun r0 => r0.id = r.id ∧ r0.amountUsed < r.amountUsed))

theorem not_raisesUsed {db db' : SubDb} (h : ∀ id r0 r, db.subs.find id = some r0 → db'.subs.find id = some r →
    r.amountUsed ≤ r0.amountUsed) : raisesUsed db db' = false := by
  rw [Bool.eq_false_iff]
  intro hraise
  simp only [raisesUsed, any_eq_true, decide_eq_true_eq] at hraise
  obtain ⟨r, hr, r0, hr0, hid, hlt⟩ := hraise
  have hle := h r.id r0 r (hid ▸ find_mem _ r0 hr0) (find_mem _ r hr)
  omega

theorem raises_inserts {cfg : Config} {start : SubDb} {requestId : String} {k : Int}
    {x : System SubDb Write Statement Answer}
    (hx : (program cfg).Inv (Settled start requestId k) (Running cfg start requestId k) x) (a : ℕ × Option String) :
    (x.db.records.find requestId = none ∧ ((program cfg).step x a).db.records.find requestId ≠ none) ∨
      (((program cfg).step x a).db.records.find requestId = x.db.records.find requestId ∧
        raisesUsed x.db ((program cfg).step x a).db = false) := by
  -- Only commits change the data.
  rcases (program cfg).step_db x a with ⟨hdb, _⟩ | ⟨l, ws, r, hi, hn, hstep⟩
  · rw [hdb]
    refine .inr ⟨rfl, not_raisesUsed ?_⟩
    intro id r0 r hr0 hr
    cases hr0.symm.trans hr
    exact le_rfl
  · rw [hstep]
    obtain ⟨res, _, ⟨e, he, _, _, hharm⟩ | ⟨hnone, _, e, ws0, sub, rfl, _, _, rfl, h0, _⟩⟩ :=
      running_commit (hx.running a.1 l ws hi) hn
    · obtain ⟨hrec, hrows⟩ := view_of_harmless hharm
      refine .inr ⟨by rw [hrec], not_raisesUsed ?_⟩
      intro id r0 r hr0 hr
      obtain ⟨r1, hr1, hu⟩ := hrows id r hr
      cases hr0.symm.trans hr1
      have hnn := hx.data.nonneg id r0 hr0
      omega
    · refine .inl ⟨hnone, ?_⟩
      rw [(view_of_charge sub h0 hnone).1]
      exact nofun

def callsOf (start : SubDb) (calls : List PreConsume) : System SubDb Write Statement Answer :=
  System.initial start (calls.map (fun c => .preConsume c .findRecord))

/-- When all calls find room on the same subscription first, at most one raises a used amount, and those that succeed
answer with the request's record. -/
theorem preConsume_idempotent (cfg : Config) (start : SubDb) (requestId : String) (k : Int) (calls : List PreConsume)
    (hcalls : ∀ c ∈ calls, c.requestId = requestId)
    (hstart : ∀ sub ∈ start.subs.rows, 0 ≤ sub.amountUsed) (as : List (ℕ × Option String))
    (hrun : Along (program cfg).step ((program cfg).StepOk (SameChoice cfg k)) (callsOf start calls) as) :
    count (program cfg).step (fun x a => raisesUsed x.db ((program cfg).step x a).db) (callsOf start calls) as ≤ 1 ∧
    ∀ res, .finished (.ok (.preConsumed res)) ∈ (exec (program cfg).step (callsOf start calls) as).txs →
      ∃ r, (exec (program cfg).step (callsOf start calls) as).db.records.find requestId = some r ∧
        res.userSubscriptionId = r.userSubscriptionId ∧ res.preConsumed = r.preConsumed := by
  have hinit : (program cfg).Inv (Settled start requestId k) (Running cfg start requestId k) (callsOf start calls) := by
    apply Program.Inv.initial
    · refine ⟨?_, fun r hr => hr, ?_, nofun⟩
      · intro id sub hsub
        exact hstart sub ((find_some_iff _ _ _).mp hsub).1
      · intro hnone r hr
        rw [hnone] at hr
        cases hr
    · intro l hl
      obtain ⟨c, hc, rfl⟩ := mem_map.mp hl
      exact ⟨hcalls c hc, rfl⟩
  refine ⟨?_, ?_⟩
  -- A raise happens without a record and leaves one, and records stay: there is at most one.
  · apply count_le_one ((program cfg).Inv (Settled start requestId k) (Running cfg start requestId k))
      (fun x => x.db.records.find requestId ≠ none)
      (fun x a hx hok => Program.Inv.step keeps hx a hok) ?_ ?_ ?_ _ as hinit hrun
    · intro x a hx _ hraise hsome
      rcases raises_inserts hx a with ⟨hnone, _⟩ | ⟨_, hno⟩
      · exact hsome hnone
      · rw [hno] at hraise
        cases hraise
    · intro x a hx _ hraise
      rcases raises_inserts hx a with ⟨_, hsome⟩ | ⟨_, hno⟩
      · exact hsome
      · rw [hno] at hraise
        cases hraise
    · intro x a hx _ hsome
      rcases raises_inserts hx a with ⟨hnone, _⟩ | ⟨hsame, _⟩
      · exact absurd hnone hsome
      · rw [hsame]
        exact hsome
  · intro res hres
    have hlog := (program cfg).finished_mem_log _ _ as _ hres
    exact (Program.Inv.run keeps hinit as hrun).data.answers res hlog

def idempotenceConfig : Config := ⟨fun id => if id = 1 then some { id := 1 } else none, 0⟩

def twoSubscriptions : SubDb :=
  ⟨⟨[{ id := 1, userId := 7, planId := 1, amountTotal := 10, endTime := 5000 },
      { id := 2, userId := 7, planId := 1, amountTotal := 100, endTime := 6000 }], by decide⟩, Table.empty⟩

def twoCalls : List PreConsume := [⟨"a", 7, 10, 1000⟩, ⟨"a", 7, 10, 1000⟩]

def schedule (calls : List ℕ) : List (ℕ × Option String) := calls.map (fun i => (i, none))

/-- Both calls read the candidates before one of them commits. -/
theorem preConsume_idempotent_sample :
    let x := exec (program idempotenceConfig).step (callsOf twoSubscriptions twoCalls)
      (schedule [0, 1, 0, 1, 0, 0, 0, 0, 0, 1, 1, 1, 1, 1])
    x.log = [.preConsumed ⟨1, 10, 10, 0, 10⟩, .preConsumed ⟨1, 10, 10, 0, 0⟩] ∧
    ∀ res, .finished (.ok (.preConsumed res)) ∈ x.txs → ∃ r, x.db.records.find "a" = some r ∧
      res.userSubscriptionId = r.userSubscriptionId := by
  intro x
  have hrun : Along (program idempotenceConfig).step
    ((program idempotenceConfig).StepOk (SameChoice idempotenceConfig 1))
      (callsOf twoSubscriptions twoCalls) (schedule [0, 1, 0, 1, 0, 0, 0, 0, 0, 1, 1, 1, 1, 1]) := by
    decide
  refine ⟨by decide, ?_⟩
  intro res hres
  obtain ⟨r, hr, hsub, _⟩ := (preConsume_idempotent idempotenceConfig twoSubscriptions "a" 1 twoCalls
    (by decide) (by decide) _ hrun).2 res hres
  exact ⟨r, hr, hsub⟩

/-- The second call looks for candidates after the first one has filled the small subscription: it answers with the
large one although the charge is on the small one. -/
theorem preConsume_answers_other_subscription :
    let x := exec (program idempotenceConfig).step (callsOf twoSubscriptions twoCalls)
      (schedule [1, 0, 0, 0, 0, 0, 0, 0, 1, 1, 1, 1, 1, 1, 1, 1, 1])
    x.db.records.find "a" = some ⟨"a", 7, 1, 10, .consumed⟩ ∧
      x.log = [.preConsumed ⟨1, 10, 10, 0, 10⟩, .preConsumed ⟨2, 10, 100, 0, 0⟩] := by
  decide

end AiGateway.Subscription
