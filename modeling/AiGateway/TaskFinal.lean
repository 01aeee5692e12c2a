import AiGateway.TaskSwap
import AiGateway.TaskRefund

/-! Final statuses under all writers of the rows: the polls of every platform, the bulk
failures, the sweeps and the real-time fetches. -/
namespace AiGateway.Tasks

open Option Table Run

def FinalsKept (rows rows' : Rows) : Prop :=
  ∀ id r, rows.find id = some r → r.status.done = true → ∃ r', rows'.find id = some r' ∧ r'.status = r.status

variable (rows : Rows)

theorem FinalsKept.refl : FinalsKept rows rows :=
  fun _ r hr _ => ⟨r, hr, rfl⟩

theorem FinalsKept.trans {a b c : Rows} (hab : FinalsKept a b) (hbc : FinalsKept b c) : FinalsKept a c := by
  intro id r hr hd
  obtain ⟨r', hr', hst⟩ := hab id r hr hd
  obtain ⟨r'', hr'', hst'⟩ := hbc id r' hr' (by rw [hst, hd])
  exact ⟨r'', hr'', hst'.trans hst⟩

variable {t : Task}

theorem finalsKept_insert : FinalsKept rows (rows.insert t) := by
  intro id r hr hd
  by_cases hid : id = t.id
  · subst hid
    rw [insert_of_find hr]
    exact ⟨r, hr, rfl⟩
  · rw [find_insert_of_ne rows hid]
    exact ⟨r, hr, rfl⟩

theorem finalsKept_save_iff : FinalsKept rows (rows.save t) ↔
      ∀ r, rows.find t.id = some r → r.status.done = true → t.status = r.status := by
  constructor
  · intro h r hr hd
    obtain ⟨_, hr', hst⟩ := h t.id r hr hd
    rw [find_save_of_key rows rfl hr] at hr'
    cases hr'
    exact hst
  · intro h id r hr hd
    by_cases hid : id = t.id
    · subst hid
      exact ⟨t, find_save_of_key rows rfl hr, h r hr hd⟩
    · rw [find_save_of_ne rows hid]
      exact ⟨r, hr, rfl⟩

theorem finalsKept_swap_iff (fromStatus : TaskStatus) : FinalsKept rows (updateWithStatus rows t fromStatus).2 ↔
      ∀ r, rows.find t.id = some r → r.status.done = true → r.status = fromStatus → t.status = fromStatus := by
  rcases updateWithStatus_cases rows t fromStatus with ⟨⟨r₀, hr₀, hst⟩, hw⟩ | hw
  · rw [hw, finalsKept_save_iff]
    constructor
    · intro h r hr hd he
      exact (h r hr hd).trans he
    · intro h r hr hd
      rw [hr₀] at hr
      cases hr
      exact (h r₀ hr₀ hd hst).trans hst.symm
  · rw [hw]
    refine ⟨?_, fun _ => .refl rows⟩
    intro _ r hr _ he
    -- The row has the expected status, so the write would have happened.
    rw [updateWithStatus_eq hr, if_pos he] at hw
    cases hw

theorem finalsKept_bulk_iff (ids : List Int) (failReason : Option String) :
    FinalsKept rows (taskBulkUpdateByID rows ids failReason) ↔
      ∀ id ∈ ids, ∀ r, rows.find id = some r → r.status ≠ .success := by
  constructor
  · intro h id hid r hr hst
    have hd : r.status.done = true := by rw [hst]; rfl
    obtain ⟨_, hr', hst'⟩ := h id r hr hd
    have hmem : r.id ∈ ids := by rw [find_key rows hr]; exact hid
    rw [find_bulk, hr, map_some, if_pos hmem] at hr'
    cases hr'
    rw [hst] at hst'
    cases hst'
  · intro h id r hr hd
    rw [find_bulk, hr, map_some]
    by_cases hmem : r.id ∈ ids
    · -- A final row that is not a success is a failure already.
      have hne := h r.id hmem r (by rw [find_key rows hr]; exact hr)
      have hfail : r.status = .failure := by
        simp only [TaskStatus.done, decide_eq_true_eq] at hd
        exact hd.resolve_left hne
      rw [if_pos hmem]
      exact ⟨_, rfl, hfail.symm⟩
    · rw [if_neg hmem]
      exact ⟨r, rfl, rfl⟩

def recognized : TaskStatus → Bool
  | .submitted | .queued | .inProgress | .success | .failure => true
  | _ => false

def answeredStatus (a : VideoAnswer) : Option TaskStatus :=
  (readAs a).bind (fun info => if recognized info.status then some info.status else none)

variable (env : PollEnv)

theorem applyResult_none_iff (info : TaskInfo) : applyResult env t info = none ↔ recognized info.status = false := by
  unfold applyResult recognized
  dsimp only
  split <;> simp_all

theorem answeredStatus_of_polled (a : VideoAnswer) : answeredStatus a = (polled env a t).map (fun r => r.2.status) := by
  unfold answeredStatus polled
  cases hread : readAs a with
  | none => rfl
  | some info =>
    rw [bind_some, bind_some]
    cases happ : applyResult env { t with data := a.data } info with
    | none =>
      rw [applyResult_none_iff] at happ
      simp [happ]
    | some =>
      have hrec : recognized info.status = true := by
        rw [← Bool.not_eq_false, ← applyResult_none_iff env, happ]
        simp
      rw [if_pos hrec, map_some, map_some, (applyResult_same happ).2]

theorem status_of_snapshotEqual {t' : Task} (h : snapshotEqual t t' = true) : t.status = t'.status := by
  simp only [snapshotEqual, decide_eq_true_eq] at h
  exact h.1

theorem finalsKept_poll_iff (a : VideoAnswer) (rows : Rows) :
    FinalsKept rows (updateVideoSingleTask env a t rows).2.1 ↔
      ∀ r s, rows.find t.id = some r → r.status.done = true → r.status = t.status →
        answeredStatus a = some s → s = t.status := by
  cases hp : polled env a t with
  | none =>
    rw [updateVideoSingleTask_dropped hp, answeredStatus_of_polled env a, hp]
    exact ⟨fun _ r s _ _ _ hs => (by cases hs), fun _ => .refl rows⟩
  | some p =>
    obtain ⟨_, t'⟩ := p
    have hid : t'.id = t.id := (polled_spec hp).2.1.id.symm
    rw [updateVideoSingleTask_rows hp, answeredStatus_of_polled env a, hp, map_some]
    by_cases hsnap : snapshotEqual t t' = true
    · -- Nothing is written, and the status is the one in memory.
      rw [if_pos hsnap]
      refine ⟨?_, fun _ => .refl rows⟩
      intro _ r s _ _ _ hs
      cases hs
      exact (status_of_snapshotEqual hsnap).symm
    · rw [if_neg hsnap, finalsKept_swap_iff, hid]
      constructor
      · intro h r s hr hd he hs
        cases hs
        exact h r hr hd he
      · intro h r hr hd he
        exact h r t'.status hr hd he rfl

def KeepsFinal (x : TaskSystem) : Action → Prop
  -- A bulk failure must not hit a task that has succeeded meanwhile.
  | .failNull i => ∀ p, x.passes[i]? = some p → ∀ id ∈ p.nullTaskIds, ∀ r, x.rows.find id = some r →
      r.status ≠ .success
  | .failChannel i channelId => ∀ p, x.passes[i]? = some p →
      ∀ id ∈ channelTasks p channelId, ∀ r, x.rows.find id = some r → r.status ≠ .success
  -- What a Suno poll saves over a final row must have its status.
  | .pollSuno i item => ∀ t r, sunoTask x i item = some t → taskNeedsUpdate t item = true →
      x.rows.find t.id = some r → r.status.done = true →
        (if item.status ≠ .empty then item.status else t.status) = r.status
  -- A task that is final in memory already must get the same answer once more.
  | .pollVideo _ i channelId upstreamId answer => ∀ t r s, videoTask x i channelId upstreamId = some t →
      x.rows.find t.id = some r → r.status.done = true → r.status = t.status →
        answeredStatus answer = some s → s = t.status
  -- A fetch of a final task must not bring another status.
  | .finishFetch _ i answer => ∀ t info r, x.fetches[i]? = some t → answer = some info →
      x.rows.find t.id = some r → r.status.done = true → r.status = t.status →
        info.status = .empty ∨ info.status = t.status
  | _ => True

def SweepsOpen (x : TaskSystem) : Prop := ∀ l ∈ x.sweeps, ∀ t ∈ l, t.status.done = false

theorem finalsKept_fetch_iff (info : TaskInfo) (rows : Rows) :
    FinalsKept rows (tryRealtimeFetch env t (some info) rows) ↔
      ∀ r, rows.find t.id = some r → r.status.done = true → r.status = t.status →
        info.status = .empty ∨ info.status = t.status := by
  have hstatus : (fetchedTask env t info).status = t.status ↔ info.status = .empty ∨ info.status = t.status := by
    change (if info.status ≠ .empty then info.status else t.status) = t.status ↔ _
    by_cases he : info.status = .empty <;> simp [he]
  simp only [tryRealtimeFetch]
  by_cases hsnap : snapshotEqual t (fetchedTask env t info) = true
  · have hst := status_of_snapshotEqual hsnap
    rw [if_pos hsnap]
    exact ⟨fun _ _ _ _ _ => hstatus.mp hst.symm, fun _ => .refl rows⟩
  · rw [if_neg hsnap, finalsKept_swap_iff]
    constructor
    · intro h r hr hd he
      exact hstatus.mp (h r hr hd he)
    · intro h r hr hd he
      exact hstatus.mpr (h r hr hd he)

variable {x : TaskSystem}

/-- The condition is exact: a step that does not meet it takes a final status away. -/
theorem finalsKept_step_iff (h : SweepsOpen x) (a : Action) :
    FinalsKept x.rows (step x a).rows ↔ KeepsFinal x a := by
  have hkept {P : Prop} (hp : P) : FinalsKept x.rows x.rows ↔ P := ⟨fun _ => hp, fun _ => .refl _⟩
  cases a with
  | submit t => exact ⟨fun _ => trivial, fun _ => finalsKept_insert x.rows⟩
  | startPoll | startSweep => exact hkept trivial
  | failNull i | failChannel i =>
    simp only [step, KeepsFinal]
    cases hp : x.passes[i]? with
    | none => exact hkept (fun p hp => (by cases hp))
    | some =>
      simp only [some.injEq, forall_eq']
      exact finalsKept_bulk_iff x.rows _ _
  | pollSuno i item =>
    cases ht : sunoTask x i item with
    | none =>
      rw [step_pollSuno_none ht]
      exact hkept (fun t r ht' => (by rw [ht] at ht'; cases ht'))
    | some t =>
      obtain ⟨_, _, _, _, hstep⟩ := step_pollSuno_some ht
      rw [hstep]
      simp only [KeepsFinal, ht, some.injEq, updateSunoTask_rows]
      -- The save has no condition on the row, so what it stores has to agree with a final one.
      by_cases hneed : taskNeedsUpdate t item = true
      · rw [if_pos hneed, finalsKept_save_iff]
        constructor
        · rintro hsave _ r rfl _ hr hd
          exact hsave r hr hd
        · intro hok r hr hd
          exact hok t r rfl hneed hr hd
      · rw [if_neg hneed]
        refine hkept ?_
        rintro _ r rfl hneed'
        exact absurd hneed' hneed
  | pollVideo env i channelId upstreamId answer =>
    cases ht : videoTask x i channelId upstreamId with
    | none =>
      rw [step_pollVideo_none ht]
      exact hkept (fun t r s ht' => (by rw [ht] at ht'; cases ht'))
    | some t =>
      obtain ⟨_, _, _, _, _, hstep⟩ := step_pollVideo_some ht env answer
      rw [hstep]
      simp only [KeepsFinal, ht, some.injEq]
      rw [finalsKept_poll_iff]
      constructor
      · rintro hpoll _ r s rfl hr hd he hs
        exact hpoll r s hr hd he hs
      · intro hok r s hr hd he hs
        exact hok t r s rfl hr hd he hs
  | sweepNext env =>
    refine ⟨fun _ => trivial, fun _ => ?_⟩
    simp only [step]
    split
    · next t rest hs =>
      have hopen := h _ (List.mem_of_getElem? hs) t List.mem_cons_self
      change FinalsKept x.rows (updateWithStatus x.rows (timedOut env t) t.status).2
      rw [finalsKept_swap_iff]
      intro r _ hd he
      -- The copy of the sweep is open, so the row would have to be.
      rw [he, hopen] at hd
      cases hd
    · exact .refl _
  | startFetch =>
    refine ⟨fun _ => trivial, fun _ => ?_⟩
    simp only [step]
    split <;> exact .refl _
  | finishFetch env i answer =>
    simp only [step, KeepsFinal]
    cases ht : x.fetches[i]? with
    | none => exact hkept (fun t info r ht' => (by cases ht'))
    | some t =>
      cases answer with
      | none => exact hkept (fun t info r _ ha => (by cases ha))
      | some info =>
        simp only [some.injEq]
        rw [finalsKept_fetch_iff]
        constructor
        · rintro hfetch _ _ r rfl rfl hr hd he
          exact hfetch r hr hd he
        · intro hok r hr hd he
          exact hok t info r rfl rfl hr hd he

theorem SweepsOpen.step (h : SweepsOpen x) (a : Action) : SweepsOpen (step x a) := by
  intro l hl t ht
  rcases mem_sweeps_step hl with hl | ⟨b, hl⟩ | ⟨_, rfl⟩
  · exact h l hl t ht
  · exact h _ hl t (List.mem_cons_of_mem b ht)
  · exact (unfinished_of_mem (fun _ h => (of_decide_eq_true h).1) ht).2

theorem finalsKept_run (h : SweepsOpen x) (actions : List Action) (hok : Along step KeepsFinal x actions) :
    SweepsOpen (exec step x actions) ∧ FinalsKept x.rows (exec step x actions).rows := by
  apply exec_invariant (fun y => SweepsOpen y ∧ FinalsKept x.rows y.rows) ?_ x actions ⟨h, .refl _⟩ hok
  rintro _ a ⟨hy, hkept⟩ ha
  exact ⟨hy.step a, hkept.trans ((finalsKept_step_iff hy a).mpr ha)⟩

/-- A final status stays while the steps meet the condition, and the next step keeps all of them exactly when it meets
it. -/
theorem final_status_kept (rows : Rows) (before after : List Action)
    (hok : Along step KeepsFinal { rows := rows } (before ++ after)) :
    let x := exec step { rows := rows } before
    let y := exec step x after
    FinalsKept x.rows y.rows ∧ ∀ a, FinalsKept y.rows (step y a).rows ↔ KeepsFinal y a := by
  intro x y
  obtain ⟨hbefore, hafter⟩ := along_append.mp hok
  have hinit : SweepsOpen { rows := rows } := fun l hl => (by cases hl)
  obtain ⟨hx, _⟩ := finalsKept_run hinit before hbefore
  obtain ⟨hy, hkept⟩ := finalsKept_run hx after hafter
  exact ⟨hkept, finalsKept_step_iff hy⟩

/-- The task fails upstream; a second pass and a sweep come too late to change that. -/
theorem final_status_kept_sample :
    let failedUp : VideoAnswer := { result := some { status := .failure, reason := "no credit" } }
    let before : List Action :=
      [.startPoll 10, .startPoll 10, .startSweep 1800000300, .pollVideo sampleEnv 0 7 "up-1" failedUp]
    let after : List Action :=
      [.pollVideo sampleEnv 1 7 "up-1" { result := some { status := .success } }, .sweepNext sampleEnv 0]
    let x := exec step { rows := single sampleTask } before
    x.rows.rows.map Task.status = [.failure] ∧ FinalsKept x.rows (exec step x after).rows := by
  intro failedUp before after x
  have hok : Along step KeepsFinal { rows := single sampleTask } (before ++ after) := by
    have hopen {y : TaskSystem} {i : ℕ} {t : Task} {a : VideoAnswer} (ht : videoTask y i 7 "up-1" = some t)
        (hd : t.status.done = false) : KeepsFinal y (.pollVideo sampleEnv i 7 "up-1" a) := by
      rintro t' r s ht' _ hdone he _
      rw [ht] at ht'
      cases ht'
      rw [he, hd] at hdone
      cases hdone
    exact ⟨trivial, trivial, trivial, hopen (t := sampleTask) rfl rfl, hopen (t := sampleTask) rfl rfl,
      trivial, trivial⟩
  exact ⟨by decide, (final_status_kept (single sampleTask) before after hok).1⟩

/-- A second Suno pass with an older answer, a bulk failure and a user's fetch each take a
final status away. -/
theorem final_status_overwritten :
    let suno := exec step { rows := single { sampleTask with platform := .suno } }
      [.startPoll 10, .startPoll 10, .pollSuno 0 { taskId := "up-1", status := .success }]
    let video := exec step { rows := single sampleTask }
      [.startPoll 10, .startPoll 10, .pollVideo sampleEnv 0 7 "up-1" { result := some { status := .success } }]
    let swept := exec step { rows := single { sampleTask with platform := .other "24" } }
      [.startSweep 1800000300, .sweepNext sampleEnv 0, .startFetch 1 "task_a"]
    (suno.rows.rows.map Task.status = [.success] ∧
      (step suno (.pollSuno 1 { taskId := "up-1", status := .inProgress })).rows.rows.map Task.status =
        [.inProgress]) ∧
    (video.rows.rows.map Task.status = [.success] ∧
      (step video (.failChannel 1 7)).rows.rows.map Task.status = [.failure]) ∧
    (swept.rows.rows.map Task.status = [.failure] ∧ (refundsOf swept.calls 1).length = 1 ∧
      (step swept (.finishFetch sampleEnv 0 (some { status := .success }))).rows.rows.map Task.status =
        [.success]) := by
  decide

end AiGateway.Tasks
