import AiGateway.SubscriptionStatements

/-! Concurrent pre-consumes and deltas on one subscription. Nothing is lost when every save of the row
finds the used amount that was read. -/
namespace AiGateway.Subscription
open ReadCommitted List Run Option Table

/-- A save of row `k` finds the used amount it was computed from, a delta does not reach
the floor at zero, and no reset zeroes the row. -/
def NotStale (cfg : Config) (k : Int) : Statement → SubDb → Prop
  | .preConsume c (.saveReset plan sub _), db =>
    sub.id = k → resetStep cfg.utcOffset plan sub c.now ≠ .keep →
      (db.subs.find k).map UserSubscription.amountUsed = some sub.amountUsed ∧
        ((resetStep cfg.utcOffset plan sub c.now).apply sub).amountUsed = sub.amountUsed
  | .preConsume _ (.saveCharge sub), db =>
    sub.id = k → (db.subs.find k).map UserSubscription.amountUsed = some sub.amountUsed
  | .delta id d (.save sub), db =>
    id = k → (db.subs.find k).map UserSubscription.amountUsed = some sub.amountUsed ∧ 0 ≤ sub.amountUsed+d
  | _, _ => True

instance (cfg : Config) (k : Int) (l : Statement) (db : SubDb) : Decidable (NotStale cfg k l db) := by
  cases l with
  | preConsume c s => cases s <;> unfold NotStale <;> infer_instance
  | delta id d s => cases s <;> unfold NotStale <;> infer_instance

def gain (k : Int) : Answer → Int
  | .preConsumed res => if res.userSubscriptionId = k then res.amountUsedAfter-res.amountUsedBefore else 0
  | .moved id d => if id = k then d else 0

def lastSave (k : Int) : List Write → Option UserSubscription
  | [] => none
  | .saveSub r :: ws => (lastSave k ws).or (if r.id = k then some r else none)
  | .createRecord _ :: ws => lastSave k ws

theorem lastSave_append (k : Int) (ws ws' : List Write) :
    lastSave k (ws ++ ws') = (lastSave k ws').or (lastSave k ws) := by
  induction ws with
  | nil => simp [lastSave]
  | cons w ws ih => cases w <;> simp [lastSave, ih, Option.or_assoc]

theorem lastSave_concat_save (k : Int) (ws : List Write) (r : UserSubscription) :
    lastSave k (ws ++ [.saveSub r]) = if r.id = k then some r else lastSave k ws := by
  rw [lastSave_append, lastSave]
  split <;> rfl

theorem lastSave_concat_create (k : Int) (ws : List Write) (e : SubscriptionPreConsumeRecord) :
    lastSave k (ws ++ [.createRecord e]) = lastSave k ws := lastSave_append k ws _

theorem view_lastSave (cfg : Config) (db : SubDb) (k : Int) (ws : List Write) :
    ((program cfg).view db ws).subs.find k = match lastSave k ws with
      | none => db.subs.find k
      | some r => (db.subs.find k).map (fun _ => r) := by
  induction ws using reverseRecOn with
  | nil => rfl
  | append_singleton ws w ih =>
    rw [Program.view_concat]
    cases w with
    | createRecord =>
      rw [lastSave_concat_create]
      exact ih
    | saveSub r =>
      have hsave : ((program cfg).apply ((program cfg).view db ws) (.saveSub r)).subs.find k =
          if k = r.id then (((program cfg).view db ws).subs.find k).map (fun _ => r)
          else ((program cfg).view db ws).subs.find k := find_save _ _ _
      rw [hsave, lastSave_concat_save, ih]
      by_cases hk : k = r.id
      · rw [if_pos hk, if_pos hk.symm]
        cases lastSave k ws with
        | none => rfl
        | some => cases db.subs.find k <;> rfl
      · rw [if_neg hk, if_neg (Ne.symm hk)]

theorem locked_of_lastSave {k : Int} {ws : List Write} {r : UserSubscription} (h : lastSave k ws = some r) :
    ∃ w ∈ ws, w.lock = .row k := by
  induction ws with
  | nil => cases h
  | cons w ws ih =>
    cases w with
    | createRecord =>
      obtain ⟨w, hw, hl⟩ := ih h
      exact ⟨w, mem_cons_of_mem _ hw, hl⟩
    | saveSub s =>
      by_cases hs : s.id = k
      · exact ⟨.saveSub s, mem_cons_self, by rw [← hs]; rfl⟩
      · have h : lastSave k ws = some r := by simpa [lastSave, hs] using h
        obtain ⟨w, hw, hl⟩ := ih h
        exact ⟨w, mem_cons_of_mem _ hw, hl⟩

/-- The pending writes of a transaction add `d` to the used amount of row `k`. -/
def Pending (k total : Int) (db : SubDb) (ws : List Write) (d : Int) : Prop :=
  match lastSave k ws with
  | none => d = 0
  | some r => r.amountTotal = total ∧ (0 < total → r.amountUsed ≤ total) ∧
      ∃ r0, db.subs.find k = some r0 ∧ r.amountUsed = r0.amountUsed+d

def Limits (k total : Int) (subs : List UserSubscription) : Prop :=
  ∀ s ∈ subs, s.id = k → s.amountTotal = total

def InFlight (k total : Int) (db : SubDb) : Statement → List Write → Prop
  | .preConsume c s, ws =>
    match s with
    | .findRecord => ws = []
    | .findRecordSub _ => ws = []
    | .findCandidates => ws = []
    | .findPlan rest => Pending k total db ws 0 ∧ Limits k total rest
    | .saveReset _ sub rest => Pending k total db ws 0 ∧ Limits k total (sub :: rest)
    | .createRecord sub rest => Pending k total db ws 0 ∧ Limits k total (sub :: rest)
    | .findDuplicate _ _ => Pending k total db ws 0
    | .saveCharge sub => Pending k total db ws 0 ∧ Limits k total [sub] ∧ ¬ full c.amount sub
    | .commit res => Pending k total db ws (gain k (.preConsumed res))
  | .delta id d s, ws =>
    match s with
    | .find => ws = []
    | .save sub => ws = [] ∧ sub.id = id ∧ Limits k total [sub]
    | .commit => Pending k total db ws (if id = k then d else 0)

def AddsUp (k total initial : Int) (db : SubDb) (log : List Answer) : Prop :=
  ∃ sub, db.subs.find k = some sub ∧ sub.amountTotal = total ∧
    sub.amountUsed = initial+(log.map (gain k)).sum ∧ (0 < total → sub.amountUsed ≤ total)

section Obligations

variable {cfg : Config} {k total initial : Int} {db : SubDb} {log : List Answer} {l l' : Statement} {ws : List Write}
  {f : Option String}

variable {d : Int}

theorem Pending.view (cfg : Config) (h : Pending k total db ws d) (hI : AddsUp k total initial db log) :
    ∃ r r0, ((program cfg).view db ws).subs.find k = some r ∧ db.subs.find k = some r0 ∧ r.amountTotal = total ∧
      r.amountUsed = r0.amountUsed+d ∧ (0 < total → r.amountUsed ≤ total) := by
  obtain ⟨sub, hsub, ht, _, hlim⟩ := hI
  rw [view_lastSave]
  unfold Pending at h
  split at h
  · exact ⟨sub, sub, hsub, hsub, ht, by omega, hlim⟩
  · next r _ =>
    obtain ⟨htr, hlr, r0, hr0, hu⟩ := h
    rw [hr0]
    exact ⟨r, r0, rfl, rfl, htr, hu, hlr⟩

theorem Pending.save (cfg : Config) {r : UserSubscription} (h : Pending k total db ws 0)
    (hI : AddsUp k total initial db log)
    (hk : r.id = k → r.amountTotal = total ∧ (0 < total → r.amountUsed ≤ total) ∧
      (((program cfg).view db ws).subs.find k).map UserSubscription.amountUsed = some (r.amountUsed-d))
    (hd : r.id ≠ k → d = 0) : Pending k total db (ws ++ [.saveSub r]) d := by
  unfold Pending
  rw [lastSave_concat_save]
  by_cases hid : r.id = k
  · obtain ⟨ht, hlim, hused⟩ := hk hid
    obtain ⟨row, r0, hrow, hr0, _, hu, _⟩ := h.view cfg hI
    rw [hrow] at hused
    have hused : row.amountUsed = r.amountUsed-d := some.inj hused
    rw [if_pos hid]
    exact ⟨ht, hlim, r0, hr0, by omega⟩
  · have hz := hd hid
    subst hz
    rw [if_neg hid]
    exact h

section
variable (hI : AddsUp k total initial db log)
include hI

theorem inFlight_goto (hJ : InFlight k total db l ws)
    (hn : (program cfg).next l ((program cfg).view db ws) f = .goto l') : InFlight k total db l' ws := by
  have hlimit (id : Int) (s : UserSubscription) (hs : db.subs.find id = some s) :
      s.id = k → s.amountTotal = total := by
    intro hk
    obtain ⟨sub, hsub, ht, _⟩ := hI
    have hid := find_key db.subs hs
    rw [← hid, hk, hsub] at hs
    cases hs
    exact ht
  cases l with
  | delta id d s =>
    obtain ⟨sub, rfl, rfl, hsub⟩ := delta_goto hn
    have hws : ws = [] := hJ
    subst hws
    exact ⟨rfl, find_key _ hsub, forall_mem_singleton.mpr (hlimit id sub hsub)⟩
  | preConsume c s =>
    obtain ⟨_, rfl, hgoto⟩ := preConsume_goto hn
    cases hgoto with
    | new | known => exact hJ
    | @answer existing sub _ =>
      have hws : ws = [] := hJ
      subst hws
      change gain k _ = 0
      simp [gain]
    | list =>
      have hws : ws = [] := hJ
      subst hws
      refine ⟨rfl, ?_⟩
      intro s hs
      exact hlimit s.id s (find_candidate db c.userId c.now s hs)
    | plan | keep => exact hJ
    | skip _ => exact ⟨hJ.1, fun s hs => hJ.2 s (mem_cons_of_mem _ hs)⟩
    | refused => exact hJ.1
    | @duplicate sub err dup _ =>
      have hz : gain k (.preConsumed ⟨sub.id, dup.preConsumed, sub.amountTotal, sub.amountUsed,
        sub.amountUsed⟩) = 0 := by
        simp [gain]
      change Pending k total db ws (gain k _)
      rw [hz]
      exact hJ

variable {sub : UserSubscription}

theorem inFlight_delta {id : Int} (hJ : InFlight k total db (.delta id d (.save sub)) ws)
    (hok : NotStale cfg k (.delta id d (.save sub)) ((program cfg).view db ws))
    (hlim : 0 < sub.amountTotal → clampUsed sub.amountUsed d ≤ sub.amountTotal) :
    InFlight k total db (.delta id d .commit)
      (ws ++ [.saveSub { sub with amountUsed := clampUsed sub.amountUsed d }]) := by
  obtain ⟨rfl, hid, htotal⟩ := hJ
  have hnothing : Pending k total db [] 0 := rfl
  refine hnothing.save cfg hI ?_ ?_
  · intro hk
    have hk : id = k := hid.symm.trans hk
    obtain ⟨hused, hfloor⟩ := hok hk
    have ht := htotal sub mem_cons_self (hid.trans hk)
    have hclamp : clampUsed sub.amountUsed d = sub.amountUsed+d := by
      rw [clampUsed, if_neg (by omega)]
    refine ⟨ht, fun hpos => ?_, ?_⟩
    · have hle := hlim (by omega)
      change clampUsed sub.amountUsed d ≤ total
      omega
    · rw [hused, if_pos hk]
      change some sub.amountUsed = some (clampUsed sub.amountUsed d-d)
      rw [hclamp, Int.add_sub_cancel]
  · intro hk
    have hk : id ≠ k := fun h => hk (hid.trans h)
    rw [if_neg hk]

theorem inFlight_reset {c : PreConsume} {plan : SubscriptionPlan} {rest : List UserSubscription}
    (hJ : InFlight k total db (.preConsume c (.saveReset plan sub rest)) ws)
    (hok : NotStale cfg k (.preConsume c (.saveReset plan sub rest)) ((program cfg).view db ws))
    (hkeep : resetStep cfg.utcOffset plan sub c.now ≠ .keep) :
    InFlight k total db (.preConsume c (.createRecord ((resetStep cfg.utcOffset plan sub c.now).apply sub) rest))
      (ws ++ [.saveSub ((resetStep cfg.utcOffset plan sub c.now).apply sub)]) := by
  obtain ⟨hpend, hlimits⟩ := hJ
  refine ⟨hpend.save cfg hI ?_ (fun _ => rfl), ?_⟩
  · intro hk
    rw [ResetStep.apply_id] at hk
    obtain ⟨hused, hsame⟩ := hok hk hkeep
    have ht := hlimits sub mem_cons_self hk
    obtain ⟨row, r0, hrow, _, _, _, hlim⟩ := hpend.view cfg hI
    rw [hrow] at hused
    have hused : row.amountUsed = sub.amountUsed := some.inj hused
    rw [ResetStep.apply_amountTotal, hsame, hrow, Int.sub_zero]
    refine ⟨ht, fun hpos => ?_, congrArg some hused⟩
    have hle := hlim hpos
    omega
  · intro s hs hk
    rcases mem_cons.mp hs with rfl | hs
    · rw [ResetStep.apply_amountTotal]
      exact hlimits sub mem_cons_self (by rw [← hk, ResetStep.apply_id])
    · exact hlimits s (mem_cons_of_mem _ hs) hk

theorem inFlight_charge {c : PreConsume} (hJ : InFlight k total db (.preConsume c (.saveCharge sub)) ws)
    (hok : NotStale cfg k (.preConsume c (.saveCharge sub)) ((program cfg).view db ws)) :
    InFlight k total db (.preConsume c (.commit
        ⟨sub.id, c.amount, sub.amountTotal, sub.amountUsed, sub.amountUsed+c.amount⟩))
      (ws ++ [.saveSub (c.charge sub)]) := by
  obtain ⟨hpend, hlimits, hroom⟩ := hJ
  refine hpend.save cfg hI ?_ ?_
  · intro hk
    have hk : sub.id = k := hk
    have ht := hlimits sub mem_cons_self hk
    have hgain : gain k (.preConsumed ⟨sub.id, c.amount, sub.amountTotal, sub.amountUsed,
        sub.amountUsed+c.amount⟩) = c.amount := by
      simp only [gain, if_pos hk]
      omega
    rw [hgain, hok hk]
    refine ⟨ht, fun hpos => ?_, ?_⟩
    · change sub.amountUsed+c.amount ≤ total
      unfold full at hroom
      omega
    · change some sub.amountUsed = some (sub.amountUsed+c.amount-c.amount)
      rw [Int.add_sub_cancel]
  · intro hk
    have hk : sub.id ≠ k := hk
    simp only [gain, if_neg hk]

theorem inFlight_write (hJ : InFlight k total db l ws) (hok : NotStale cfg k l ((program cfg).view db ws))
    {w : Write} (hn : (program cfg).next l ((program cfg).view db ws) f = .write w l') :
    InFlight k total db l' (ws ++ [w]) := by
  cases l with
  | delta =>
    obtain ⟨_, rfl, rfl, rfl, hlim⟩ := delta_write hn
    exact inFlight_delta hI hJ hok hlim
  | preConsume c s =>
    obtain ⟨_, rfl, hwrite⟩ := preConsume_write hn
    cases hwrite with
    | reset hr hkeep =>
      subst hr
      exact inFlight_reset hI hJ hok hkeep
    | create hroom =>
      -- A record is no version of the row.
      obtain ⟨hpend, hlimits⟩ := hJ
      refine ⟨?_, fun s hs => hlimits s (mem_singleton.mp hs ▸ mem_cons_self), hroom⟩
      unfold Pending
      rw [lastSave_concat_create]
      exact hpend
    | charge => exact inFlight_charge hI hJ hok

end

theorem inFlight_commit (hJ : InFlight k total db l ws) {r : Answer}
    (hn : (program cfg).next l ((program cfg).view db ws) f = .commit r) : Pending k total db ws (gain k r) := by
  cases l with
  | preConsume =>
    obtain ⟨_, rfl, rfl⟩ := preConsume_commit hn
    exact hJ
  | delta id =>
    obtain ⟨rfl, rfl | ⟨rfl, rfl⟩⟩ := delta_commit hn
    · exact hJ
    · have hws : ws = [] := hJ
      subst hws
      change gain k (.moved id 0) = 0
      simp [gain]

theorem addsUp_commit (hI : AddsUp k total initial db log) (hJ : InFlight k total db l ws) {r : Answer}
    (hn : (program cfg).next l ((program cfg).view db ws) f = .commit r) :
    AddsUp k total initial ((program cfg).view db ws) (log ++ [r]) := by
  obtain ⟨row, r0, hrow, hr0, ht, hu, hlim⟩ := (inFlight_commit hJ hn).view cfg hI
  obtain ⟨sub, hsub, _, hsum, _⟩ := hI
  have hsame : sub = r0 := some.inj (hsub.symm.trans hr0)
  subst hsame
  refine ⟨row, hrow, ht, ?_, hlim⟩
  rw [map_append, sum_append, hu, hsum]
  simp [Int.add_assoc]

theorem Pending.frame {ws' : List Write} (h : Pending k total db ws' d) (hap : (program cfg).Apart ws ws') :
    Pending k total ((program cfg).view db ws) ws' d := by
  unfold Pending at h ⊢
  split at h
  · exact h
  · next r hr =>
    obtain ⟨w, hw, hl⟩ := locked_of_lastSave hr
    have hother : ∀ v ∈ ws, v.lock ≠ .row k := fun v hv he => hap v hv w hw (he.trans hl.symm)
    rw [view_find_sub cfg db ws hother]
    exact h

theorem inFlight_others {ws' : List Write} (hJ : InFlight k total db l' ws') (hap : (program cfg).Apart ws ws') :
    InFlight k total ((program cfg).view db ws) l' ws' := by
  cases l' with
  | delta id d s =>
    cases s with
    | find | save => exact hJ
    | commit => exact Pending.frame hJ hap
  | preConsume c s =>
    cases s with
    | findRecord | findRecordSub | findCandidates => exact hJ
    | findPlan | saveReset | createRecord | saveCharge => exact ⟨hJ.1.frame hap, hJ.2⟩
    | findDuplicate | commit => exact Pending.frame hJ hap

theorem addsUp_keeps : (program cfg).Keeps (NotStale cfg k) (AddsUp k total initial) (InFlight k total) where
  goto := fun hI hJ _ hn => inFlight_goto hI hJ hn
  write := fun hI hJ hok hn => inFlight_write hI hJ hok hn
  commit := fun hI hJ hn => addsUp_commit hI hJ hn
  others := fun _ _ _ hJ' hap => inFlight_others hJ' hap

end Obligations

def Statement.AtStart : Statement → Prop
  | .preConsume _ s => s = .findRecord
  | .delta _ _ s => s = .find

instance (l : Statement) : Decidable l.AtStart := by
  cases l <;> unfold Statement.AtStart <;> infer_instance

/-- If no save of the subscription is stale, its used amount is at all times the initial one plus what the
transactions that have succeeded added. -/
theorem concurrent_usage_adds_up (cfg : Config) (start : SubDb) (k : Int) (sub : UserSubscription)
    (hsub : start.subs.find k = some sub) (hlim : 0 < sub.amountTotal → sub.amountUsed ≤ sub.amountTotal)
    (txs : List Statement) (htxs : ∀ l ∈ txs, l.AtStart) (as : List (ℕ × Option String))
    (hrun : Along (program cfg).step ((program cfg).StepOk (NotStale cfg k)) (System.initial start txs) as) :
    let x := exec (program cfg).step (System.initial start txs) as
    ∃ sub', x.db.subs.find k = some sub' ∧ sub'.amountUsed = sub.amountUsed+(x.log.map (gain k)).sum ∧
      sub'.amountTotal = sub.amountTotal ∧ (0 < sub.amountTotal → sub'.amountUsed ≤ sub.amountTotal) := by
  have hinit : (program cfg).Inv (AddsUp k sub.amountTotal sub.amountUsed) (InFlight k sub.amountTotal)
      (System.initial start txs) := by
    apply Program.Inv.initial
    · exact ⟨sub, hsub, rfl, by simp, hlim⟩
    · intro l hl
      have hat := htxs l hl
      cases l with
      | preConsume | delta =>
        cases hat
        rfl
  obtain ⟨sub', hsub', ht, hused, hbound⟩ := (Program.Inv.run addsUp_keeps hinit as hrun).data
  exact ⟨sub', hsub', hused, ht, hbound⟩

def usageConfig : Config := ⟨fun id => if id = 1 then some { id := 1 } else none, 0⟩

def usageDb : SubDb :=
  ⟨single { id := 1, userId := 7, planId := 1, amountTotal := 100, amountUsed := 40, endTime := 5000 },
    empty⟩

def usageTxs : List Statement := [.preConsume ⟨"a", 7, 30, 1000⟩ .findRecord, .delta 1 (-5) .find]

/-- The settlement reads the row after the pre-consume has committed. -/
theorem concurrent_usage_sample :
    let x := exec (program usageConfig).step (System.initial usageDb usageTxs)
      ([0, 0, 0, 0, 0, 0, 0, 1, 1, 1].map (fun i => (i, none)))
    x.log.map (gain 1) = [30, -5] ∧ ∃ sub, x.db.subs.find 1 = some sub ∧ sub.amountUsed = 40+(30+-5) := by
  intro x
  have hrun : Along (program usageConfig).step ((program usageConfig).StepOk (NotStale usageConfig 1))
      (System.initial usageDb usageTxs) ([0, 0, 0, 0, 0, 0, 0, 1, 1, 1].map (fun i => (i, none))) := by
    decide
  have hlog : x.log.map (gain 1) = [30, -5] := by decide
  obtain ⟨sub, hsub, hused, _⟩ := concurrent_usage_adds_up usageConfig usageDb 1
    { id := 1, userId := 7, planId := 1, amountTotal := 100, amountUsed := 40, endTime := 5000 }
    (by decide) (by decide) usageTxs (by decide) _ hrun
  refine ⟨hlog, sub, hsub, ?_⟩
  rw [hused]
  change 40+(x.log.map (gain 1)).sum = _
  rw [hlog]
  rfl

/-- Both transactions read 40 before either saves: the pre-consume of 30 is lost. -/
theorem concurrent_usage_lost :
    let x := exec (program usageConfig).step (System.initial usageDb usageTxs)
      ([0, 0, 1, 0, 0, 0, 0, 0, 1, 1].map (fun i => (i, none)))
    x.log.map (gain 1) = [30, -5] ∧ x.db.subs.rows.map UserSubscription.amountUsed = [35] := by
  decide

end AiGateway.Subscription
