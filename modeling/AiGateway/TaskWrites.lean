import AiGateway.TaskSystem

/-! The writes of the task rows, each with the refunds it calls for. -/
namespace AiGateway.Tasks

open Option

structure SameTask (a b : Task) : Prop where
  id : a.id = b.id
  legacy : isLegacy a = isLegacy b
  payment : a.payment = b.payment
  quota : a.quota = b.quota

theorem SameTask.refl (a : Task) : SameTask a a := ⟨rfl, rfl, rfl, rfl⟩

theorem SameTask.trans {a b c : Task} (h : SameTask a b) (h' : SameTask b c) : SameTask a c :=
  ⟨h.id.trans h'.id, h.legacy.trans h'.legacy, h.payment.trans h'.payment, h.quota.trans h'.quota⟩

structure Booked (r : Task) (refunds : List Task) : Prop where
  unfailed : r.status ≠ .failure → refunds = []
  failed : r.status = .failure → r.quota ≠ 0 → isLegacy r = false →
    ∃ t, refunds = [t] ∧ t.quota = r.quota ∧ t.payment = r.payment
  free : r.quota = 0 → refunds = []

def Unbilled (r : Task) (new : TaskStatus) : Prop :=
  r.quota = 0 ∨ (r.status = .failure ↔ new = .failure) ∨ (isLegacy r = true ∧ new = .failure)

/-- What a write may do to a row, with the refunds that go with it. -/
def Transition (r r' : Task) (refunds : List Task) : Prop :=
  (refunds = [] ∧ Unbilled r r'.status) ∨
  (r.status ≠ .failure ∧ r'.status = .failure ∧ r.quota ≠ 0 ∧
    ∃ t, refunds = [t] ∧ t.quota = r.quota ∧ t.payment = r.payment)

variable {r t t' : Task} {rows : Rows} {calls : List BillingCall} {keeps : Prop} {env : PollEnv}
  {info : TaskInfo} {a : VideoAnswer}

theorem Booked.transition {r' : Task} {before refunds : List Task} (h : Booked r before) (hs : SameTask r r')
    (ht : Transition r r' refunds) : Booked r' (before ++ refunds) := by
  rcases ht with ⟨rfl, hu⟩ | ⟨hr, hr', hq, t, rfl, htq, htp⟩
  · rw [List.append_nil]
    refine ⟨?_, ?_, ?_⟩
    · intro hn
      rcases hu with hz | hiff | ⟨_, hf⟩
      · exact h.free hz
      · exact h.unfailed (fun hf => hn (hiff.mp hf))
      · exact absurd hf hn
    · intro hf hq hl
      rw [← hs.quota, ← hs.payment]
      rw [← hs.quota] at hq
      rw [← hs.legacy] at hl
      rcases hu with hz | hiff | ⟨hleg, _⟩
      · exact absurd hz hq
      · exact h.failed (hiff.mpr hf) hq hl
      · rw [hl] at hleg
        cases hleg
    · intro hz
      exact h.free (hs.quota.trans hz)
  · have hnone := h.unfailed hr
    subst hnone
    refine ⟨fun hn => absurd hr' hn, ?_, fun hz => absurd (hs.quota.trans hz) hq⟩
    intro _ _ _
    exact ⟨t, rfl, htq.trans hs.quota, htp.trans hs.payment⟩

def Wrote (rows rows' : Rows) (calls : List BillingCall) : Prop :=
  ∀ id, (rows.find id = none → rows'.find id = none ∧ refundsOf calls id = []) ∧
    ∀ r, rows.find id = some r →
      ∃ r', rows'.find id = some r' ∧ SameTask r r' ∧ Transition r r' (refundsOf calls id)

theorem Transition.same (r : Task) : Transition r r [] :=
  .inl ⟨rfl, .inr (.inl Iff.rfl)⟩

theorem Wrote.refl (rows : Rows) : Wrote rows rows [] := by
  intro id
  exact ⟨fun hn => ⟨hn, rfl⟩, fun r hr => ⟨r, hr, .refl r, .same r⟩⟩

theorem Wrote.row {rows' : Rows} (h : Wrote rows rows' calls) {id : Int} {r' : Task} (hr' : rows'.find id = some r') :
    ∃ r, rows.find id = some r ∧ SameTask r r' ∧ Transition r r' (refundsOf calls id) := by
  cases hr : rows.find id with
  | none =>
    rw [((h id).1 hr).1] at hr'
    cases hr'
  | some r =>
    obtain ⟨_, hr₂, hsame, htrans⟩ := (h id).2 r hr
    rw [hr'] at hr₂
    cases hr₂
    exact ⟨r, rfl, hsame, htrans⟩

theorem wrote_save (hr : rows.find t.id = some r) (hs : SameTask r t) (ht : Transition r t (refundsOf calls t.id))
    (ho : ∀ id, id ≠ t.id → refundsOf calls id = []) : Wrote rows (rows.save t) calls := by
  intro id
  rw [Table.find_save]
  by_cases hid : id = t.id
  · subst hid
    rw [if_pos rfl, hr]
    refine ⟨fun hn => (by cases hn), ?_⟩
    intro r' hr'
    cases hr'
    exact ⟨t, rfl, hs, ht⟩
  · rw [if_neg hid, ho id hid]
    exact ⟨fun hn => ⟨hn, rfl⟩, fun r' hr' => ⟨r', hr', .refl r', .same r'⟩⟩

/-- A task in the memory of a process. `keeps` says that its quota is never recalculated. -/
def Held (rows : Rows) (keeps : Prop) (t : Task) : Prop :=
  ∃ r, rows.find t.id = some r ∧ isLegacy t = isLegacy r ∧ t.payment = r.payment ∧
    (keeps ∨ t.status.done = false → t.quota = r.quota)

theorem Held.sameTask (h : Held rows keeps t)
    (hk : keeps ∨ t.status.done = false) : ∃ r, rows.find t.id = some r ∧ SameTask r t := by
  obtain ⟨r, hr, hl, hp, hq⟩ := h
  exact ⟨r, hr, Table.find_key rows hr, hl.symm, hp.symm, (hq hk).symm⟩

theorem held_of_find (h : rows.find t.id = some t) :
    Held rows keeps t :=
  ⟨t, h, rfl, rfl, fun _ => rfl⟩

theorem Held.imp {keeps' : Prop} (h : Held rows keeps t) (hk : keeps' → keeps) : Held rows keeps' t := by
  obtain ⟨r, hr, hl, hp, hq⟩ := h
  exact ⟨r, hr, hl, hp, fun hk' => hq (hk'.imp_left hk)⟩

theorem Held.mono {rows' : Rows} (h : Held rows keeps t) (hw : Wrote rows rows' calls) : Held rows' keeps t := by
  obtain ⟨r, hr, hl, hp, hq⟩ := h
  obtain ⟨r', hr', hs, _⟩ := (hw t.id).2 r hr
  exact ⟨r', hr', hl.trans hs.legacy, hp.trans hs.payment, fun hk => (hq hk).trans hs.quota⟩

theorem Held.changed (h : Held rows keeps t) (hid : t'.id = t.id)
    (hl : isLegacy t' = isLegacy t) (hp : t'.payment = t.payment)
    (hq : keeps ∨ t'.status.done = false → t'.quota = t.quota ∧ (keeps ∨ t.status.done = false)) :
    Held rows keeps t' := by
  obtain ⟨r, hr, hlr, hpr, hqr⟩ := h
  refine ⟨r, hid ▸ hr, hl.trans hlr, hp.trans hpr, ?_⟩
  intro hk
  obtain ⟨hq', hk'⟩ := hq hk
  exact hq'.trans (hqr hk')

theorem refundsOf_refundCall_other {id : Int} (h : id ≠ t.id) : refundsOf (refundCall t) id = [] := by
  rw [refundsOf_refundCall, if_neg]
  rintro ⟨_, he⟩
  exact h he.symm

theorem transition_refundCall (hs : SameTask r t) (hr : r.status ≠ .failure)
    (ht : t.status = .failure) : Transition r t (refundsOf (refundCall t) t.id) := by
  rw [refundsOf_refundCall]
  by_cases hq : t.quota = 0
  · rw [if_neg (by simp [hq])]
    exact .inl ⟨rfl, .inl (hs.quota.trans hq)⟩
  · rw [if_pos ⟨hq, rfl⟩]
    refine .inr ⟨hr, ht, ?_, t, rfl, hs.quota.symm, hs.payment.symm⟩
    rw [hs.quota]
    exact hq

theorem not_failure_of_not_done {s : TaskStatus} (h : s.done = false) : s ≠ .failure := by
  rintro rfl
  cases h

theorem timedOut_same (env : PollEnv) (t : Task) : SameTask t (timedOut env t) := ⟨rfl, rfl, rfl, rfl⟩

theorem sweepTask_wrote (env : PollEnv) (h : Held rows True t)
    (hd : t.status.done = false) : Wrote rows (sweepTask env t rows).1 (sweepTask env t rows).2 := by
  obtain ⟨r, hr, hs⟩ := h.sameTask (.inl trivial)
  have hs' := hs.trans (timedOut_same env t)
  simp only [sweepTask, updateWithStatus_eq (t := timedOut env t) hr]
  by_cases hst : r.status = t.status
  · have hnf : r.status ≠ .failure := by
      rw [hst]
      exact not_failure_of_not_done hd
    simp only [hst, if_true, true_and]
    by_cases hl : isLegacy t = true
    · simp only [hl, not_true_eq_false, if_false]
      refine wrote_save hr hs' (.inl ⟨rfl, .inr (.inr ⟨hs.legacy.trans hl, rfl⟩)⟩) (fun _ _ => rfl)
    · simp only [hl, Bool.false_eq_true, not_false_eq_true, if_true]
      exact wrote_save hr hs' (transition_refundCall hs' hnf rfl) (fun id hid => refundsOf_refundCall_other hid)
  · simp only [hst, if_false, Bool.false_eq_true, false_and]
    exact .refl rows

theorem bulk_wrote {ids : List Int} (failReason : Option String)
    (h : ∀ id ∈ ids, ∀ r, rows.find id = some r → Unbilled r .failure) :
    Wrote rows (taskBulkUpdateByID rows ids failReason) [] := by
  intro id
  rw [find_bulk]
  refine ⟨fun hn => by simp [hn], ?_⟩
  intro r hr
  have hid := Table.find_key rows hr
  rw [hr, map_some]
  by_cases hm : r.id ∈ ids
  · rw [if_pos hm]
    exact ⟨_, rfl, ⟨rfl, rfl, rfl, rfl⟩, .inl ⟨rfl, h r.id hm r (hid ▸ hr)⟩⟩
  · rw [if_neg hm]
    exact ⟨r, rfl, .refl r, .same r⟩

/-- Which answers to a Suno poll leave row `r` with the refunds its new status calls for. -/
def SunoOk (t : Task) (item : SunoDataResponse) (r : Task) : Prop :=
  isLegacy (sunoUpdated t item) = isLegacy t ∧ if sunoFailed t item then
      r.quota = 0 ∨ ((sunoUpdated t item).status = .failure ∧ r.status ≠ .failure)
    else Unbilled r (sunoUpdated t item).status

theorem updateSunoTask_wrote {item : SunoDataResponse} (h : Held rows True t)
    (hok : ∀ r, rows.find t.id = some r → taskNeedsUpdate t item = true → SunoOk t item r) :
    Wrote rows (updateSunoTask t item rows).2.1 (updateSunoTask t item rows).2.2 ∧
      Held rows True (updateSunoTask t item rows).1 := by
  obtain ⟨r, hr, hs⟩ := h.sameTask (.inl trivial)
  unfold updateSunoTask
  split
  · next hneed =>
    obtain ⟨hl, hok⟩ := hok r hr hneed
    have hs' : SameTask r (sunoUpdated t item) := hs.trans ⟨rfl, hl.symm, rfl, rfl⟩
    refine ⟨?_, h.changed rfl hl rfl (fun _ => ⟨rfl, .inl trivial⟩)⟩
    by_cases hfail : sunoFailed t item = true
    · rw [if_pos hfail] at hok
      simp only [hfail, if_true]
      refine wrote_save hr hs' ?_ (fun id hid => refundsOf_refundCall_other hid)
      rcases hok with hz | ⟨hst, hrs⟩
      · have hq : (sunoUpdated t item).quota = 0 := hs'.quota.symm.trans hz
        rw [refundsOf_refundCall, if_neg (by simp [hq])]
        exact .inl ⟨rfl, .inl hz⟩
      · exact transition_refundCall hs' hrs hst
    · rw [if_neg hfail] at hok
      simp only [hfail, Bool.false_eq_true, if_false]
      exact wrote_save hr hs' (.inl ⟨rfl, hok⟩) (fun _ _ => rfl)
  · exact ⟨.refl rows, h⟩

theorem applyResult_same (h : applyResult env t info = some t') : SameTask t t' ∧ t'.status = info.status := by
  unfold applyResult at h
  dsimp only at h
  split at h <;> cases h
  all_goals
    next hst =>
      rw [hst]
      split <;> exact ⟨⟨rfl, rfl, rfl, rfl⟩, rfl⟩

/-- A recalculation changes the quota in memory and refunds nothing. -/
structure Recalculated (t t' : Task) (calls : List BillingCall) : Prop where
  id : t'.id = t.id
  status : t'.status = t.status
  legacy : isLegacy t' = isLegacy t
  payment : t'.payment = t.payment
  refunds : ∀ id, refundsOf calls id = []

theorem recalculateCall_spec (actualQuota : Int) :
    Recalculated t (recalculateCall t actualQuota).1 (recalculateCall t actualQuota).2 := by
  unfold recalculateCall
  split <;> exact ⟨rfl, rfl, rfl, rfl, fun _ => rfl⟩

theorem settleTaskBillingOnComplete_spec (a : VideoAnswer) (info : TaskInfo) (t : Task) :
    Recalculated t (settleTaskBillingOnComplete a info t).1 (settleTaskBillingOnComplete a info t).2 := by
  unfold settleTaskBillingOnComplete
  split
  · exact ⟨rfl, rfl, rfl, rfl, fun _ => rfl⟩
  split
  · exact recalculateCall_spec _
  split
  · split
    · exact ⟨rfl, rfl, rfl, rfl, fun _ => rfl⟩
    · exact recalculateCall_spec _
  · exact ⟨rfl, rfl, rfl, rfl, fun _ => rfl⟩

theorem billResult_done (a : VideoAnswer) (hstatus : t.status = info.status) (hdone : t.status.done = true) :
    (billResult a info t).1.id = t.id ∧ (billResult a info t).1.status = t.status ∧
      isLegacy (billResult a info t).1 = isLegacy t ∧ (billResult a info t).1.payment = t.payment ∧
      ∀ id, refundsOf (billResult a info t).2 id = if t.status = .failure then
        refundsOf (refundCall t) id else [] := by
  unfold billResult
  rw [← hstatus]
  split
  · next hs =>
    have h := settleTaskBillingOnComplete_spec a info t
    refine ⟨h.id, h.status, h.legacy, h.payment, ?_⟩
    intro id
    rw [h.refunds id, hs, if_neg (by simp)]
  · next hs =>
    refine ⟨rfl, rfl, rfl, rfl, ?_⟩
    intro id
    rw [if_pos hs]
  · next hs hf =>
    simp only [TaskStatus.done, decide_eq_true_eq] at hdone
    exact (hdone.elim hs hf).elim

theorem transition_unfailed (hr : r.status ≠ .failure) (ht : t.status ≠ .failure) : Transition r t [] :=
  .inl ⟨rfl, .inr (.inl ⟨fun hf => absurd hf hr, fun hf => absurd hf ht⟩)⟩

theorem billResult_transition (hs : SameTask r t)
    (hr : r.status ≠ .failure) (hstatus : t.status = info.status) (hdone : t.status.done = true) :
    Transition r t (refundsOf (billResult a info t).2 t.id) := by
  obtain ⟨_, _, _, _, hrefunds⟩ := billResult_done a hstatus hdone
  rw [hrefunds]
  by_cases hf : t.status = .failure
  · rw [if_pos hf]
    exact transition_refundCall hs hr hf
  · rw [if_neg hf]
    exact transition_unfailed hr hf

theorem billResult_others (hstatus : t.status = info.status)
    (hdone : t.status.done = true) (id : Int) (hne : id ≠ t.id) : refundsOf (billResult a info t).2 id = [] := by
  obtain ⟨_, _, _, _, hrefunds⟩ := billResult_done a hstatus hdone
  rw [hrefunds]
  split
  · exact refundsOf_refundCall_other hne
  · rfl

theorem billResult_running (a : VideoAnswer) (hstatus : t.status = info.status)
    (hdone : t.status.done = false) : billResult a info t = (t, []) := by
  unfold billResult
  rw [← hstatus]
  split
  · next hs => simp [hs, TaskStatus.done] at hdone
  · next hs => simp [hs, TaskStatus.done] at hdone
  · rfl

theorem updateWithStatus_cases (rows : Rows) (t : Task) (fromStatus : TaskStatus) :
    ((∃ r, rows.find t.id = some r ∧ r.status = fromStatus) ∧
      updateWithStatus rows t fromStatus = (true, rows.save t)) ∨
    updateWithStatus rows t fromStatus = (false, rows) := by
  unfold updateWithStatus
  split
  · exact .inr rfl
  · next r hr =>
    split
    · next hst => exact .inl ⟨⟨r, hr, hst⟩, rfl⟩
    · exact .inr rfl

theorem row_of_updateWithStatus {fromStatus : TaskStatus} (h : (updateWithStatus rows t fromStatus).1 = true) :
    (∃ r, rows.find t.id = some r ∧ r.status = fromStatus) ∧
    (updateWithStatus rows t fromStatus).2 = rows.save t := by
  rcases updateWithStatus_cases rows t fromStatus with ⟨hrow, hw⟩ | hw
  · exact ⟨hrow, by rw [hw]⟩
  · rw [hw] at h
    cases h

/-- The result that an answer to a video poll is read as, unless it is dropped. -/
def readAs (a : VideoAnswer) : Option TaskInfo := a.result.bind (effectiveResult a)

def polled (env : PollEnv) (a : VideoAnswer) (t : Task) : Option (TaskInfo × Task) :=
  (readAs a).bind (fun info => (applyResult env { t with data := a.data } info).map (fun t' => (info, t')))

theorem polled_eq_some : polled env a t = some (info, t') ↔
      readAs a = some info ∧ applyResult env { t with data := a.data } info = some t' := by
  unfold polled
  rw [bind_eq_some_iff]
  constructor
  · rintro ⟨_, hread, hmap⟩
    obtain ⟨_, happ, he⟩ := map_eq_some_iff.mp hmap
    cases he
    exact ⟨hread, happ⟩
  · rintro ⟨hread, happ⟩
    exact ⟨info, hread, by rw [happ, map_some]⟩

theorem polled_same (h : polled env a t = some (info, t')) : SameTask t t' ∧ t'.status = info.status := by
  -- Reading the body into the task changes its data only.
  obtain ⟨hs, hstatus⟩ := applyResult_same (polled_eq_some.mp h).2
  exact ⟨⟨hs.id, hs.legacy, hs.payment, hs.quota⟩, hstatus⟩

theorem updateVideoSingleTask_unread (h : polled env a t = none) (rows : Rows) :
    ∃ status data, updateVideoSingleTask env a t rows = ({ t with status := status, data := data }, rows, []) := by
  unfold updateVideoSingleTask
  cases hres : a.result with
  | none => exact ⟨t.status, t.data, rfl⟩
  | some info =>
    cases heff : effectiveResult a info with
    | none =>
      simp only [heff]
      exact ⟨_, _, rfl⟩
    | some info' =>
      have hread : readAs a = some info' := by rw [readAs, hres, bind_some, heff]
      rw [polled, hread, bind_some, map_eq_none_iff] at h
      simp only [heff, h]
      exact ⟨_, _, rfl⟩

theorem updateVideoSingleTask_dropped (h : polled env a t = none)
    (rows : Rows) : (updateVideoSingleTask env a t rows).2 = (rows, []) := by
  obtain ⟨_, _, he⟩ := updateVideoSingleTask_unread h rows
  rw [he]

section
variable (h : polled env a t = some (info, t'))
include h

theorem updateVideoSingleTask_polled (rows : Rows) :
    updateVideoSingleTask env a t rows =
      let (won, rows') := if snapshotEqual t t' then (false, rows) else updateWithStatus rows t' t.status
      if t'.status.done ∧ t.status ≠ t'.status ∧ ¬ won then (t', rows', [])
      else ((billResult a info t').1, rows', (billResult a info t').2) := by
  obtain ⟨hread, happ⟩ := polled_eq_some.mp h
  obtain ⟨_, hres, heff⟩ := bind_eq_some_iff.mp hread
  unfold updateVideoSingleTask
  simp only [hres, heff, happ]

theorem updateVideoSingleTask_open (hd : t.status.done = false) (rows : Rows) :
    (updateVideoSingleTask env a t rows).2 =
      if snapshotEqual t t' = false ∧ (updateWithStatus rows t' t.status).1 = true then
        (rows.save t', (billResult a info t').2)
      else (rows, []) := by
  have hstatus := (polled_same h).2
  have hwrite := updateWithStatus_cases rows t' t.status
  rw [updateVideoSingleTask_polled h]
  by_cases hdone : t'.status.done = true
  · -- The status is new, so the row is written, and without a win nothing is billed.
    have hne : t.status ≠ t'.status := by
      intro he
      rw [← he, hd] at hdone
      cases hdone
    have hsnap : snapshotEqual t t' = false := by simp [snapshotEqual, hne]
    rcases hwrite with ⟨_, hw⟩ | hw <;> simp [hw, hsnap, hdone, hne]
  · rw [Bool.not_eq_true] at hdone
    rw [billResult_running a hstatus hdone]
    cases hsnap : snapshotEqual t t' with
    | true => simp [hdone]
    | false => rcases hwrite with ⟨_, hw⟩ | hw <;> simp [hw, hdone]

theorem polled_transition (hr : r.status ≠ .failure) (hs : SameTask r t') :
    Transition r t' (refundsOf (billResult a info t').2 t'.id) ∧
      ∀ id, id ≠ t'.id → refundsOf (billResult a info t').2 id = [] := by
  have hstatus := (polled_same h).2
  by_cases hdone : t'.status.done = true
  · exact ⟨billResult_transition hs hr hstatus hdone, billResult_others hstatus hdone⟩
  · rw [Bool.not_eq_true] at hdone
    rw [billResult_running a hstatus hdone]
    exact ⟨transition_unfailed hr (not_failure_of_not_done hdone), fun _ _ => rfl⟩

end

theorem updateVideoSingleTask_held (env : PollEnv) (a : VideoAnswer)
    (h : Held rows keeps t) (hk : ¬ keeps) (hd : t.status.done = false) :
    Held rows keeps (updateVideoSingleTask env a t rows).1 := by
  cases hp : polled env a t with
  | none =>
    obtain ⟨status, _, hkept⟩ := updateVideoSingleTask_unread hp rows
    rw [hkept]
    exact h.changed rfl rfl rfl (fun _ => ⟨rfl, .inr hd⟩)
  | some p =>
    obtain ⟨info, t'⟩ := p
    obtain ⟨hs, hstatus⟩ := polled_same hp
    have hnew : Held rows keeps t' :=
      h.changed hs.id.symm hs.legacy.symm hs.payment.symm (fun _ => ⟨hs.quota.symm, .inr hd⟩)
    have hbilled : Held rows keeps (billResult a info t').1 := by
      by_cases hdone : t'.status.done = true
      · obtain ⟨hid, hst, hleg, hpay, _⟩ := billResult_done a hstatus hdone
        refine hnew.changed hid hleg hpay ?_
        intro hc
        rw [hst, hdone] at hc
        exact absurd hc (by simp [hk])
      · rw [Bool.not_eq_true] at hdone
        rw [billResult_running a hstatus hdone]
        exact hnew
    rw [updateVideoSingleTask_polled hp]
    dsimp only
    split <;> split
    · exact hnew
    · exact hbilled
    · exact hnew
    · exact hbilled

theorem updateVideoSingleTask_wrote (env : PollEnv) (a : VideoAnswer)
    (h : Held rows keeps t) (hk : ¬ keeps) (hd : t.status.done = false) :
    Wrote rows (updateVideoSingleTask env a t rows).2.1 (updateVideoSingleTask env a t rows).2.2 ∧
      Held rows keeps (updateVideoSingleTask env a t rows).1 := by
  refine ⟨?_, updateVideoSingleTask_held env a h hk hd⟩
  cases hp : polled env a t with
  | none =>
    rw [updateVideoSingleTask_dropped hp]
    exact .refl rows
  | some p =>
    obtain ⟨_, t'⟩ := p
    rw [updateVideoSingleTask_open hp hd]
    by_cases hwon : snapshotEqual t t' = false ∧ (updateWithStatus rows t' t.status).1 = true
    · -- The row is as open as the task in memory, so it has not been refunded.
      obtain ⟨⟨r, hr, hst⟩, _⟩ := row_of_updateWithStatus hwon.2
      have hsame := (polled_same hp).1
      obtain ⟨_, hr₀, hs⟩ := h.sameTask (.inr hd)
      rw [hsame.id, hr] at hr₀
      cases hr₀
      have hopen : r.status ≠ .failure := by
        rw [hst]
        exact not_failure_of_not_done hd
      obtain ⟨htrans, hothers⟩ := polled_transition hp hopen (hs.trans hsame)
      rw [if_pos hwon]
      exact wrote_save hr (hs.trans hsame) htrans hothers
    · rw [if_neg hwon]
      exact .refl rows

theorem tryRealtimeFetch_wrote (env : PollEnv) (answer : Option TaskInfo) (h : Held rows True t)
    (hok : ∀ info r, answer = some info → rows.find t.id = some r → r.status = t.status →
      Unbilled r (fetchedTask env t info).status) : Wrote rows (tryRealtimeFetch env t answer rows) [] := by
  obtain ⟨r, hr, hs⟩ := h.sameTask (.inl trivial)
  unfold tryRealtimeFetch
  split
  · exact .refl rows
  · next info =>
    dsimp only
    split
    · exact .refl rows
    · have hs' : SameTask r (fetchedTask env t info) := hs.trans ⟨rfl, rfl, rfl, rfl⟩
      have hr' : rows.find (fetchedTask env t info).id = some r := hr
      rcases updateWithStatus_cases rows (fetchedTask env t info) t.status with ⟨⟨_, hr₁, hst⟩, hw⟩ | hw
      · rw [hr'] at hr₁
        cases hr₁
        rw [hw]
        exact wrote_save hr' hs' (.inl ⟨rfl, hok info r rfl hr hst⟩) (fun _ _ => refundsOf_nil _)
      · rw [hw]
        exact .refl rows

end AiGateway.Tasks
