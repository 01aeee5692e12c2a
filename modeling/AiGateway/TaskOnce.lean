import AiGateway.TaskPass
import AiGateway.TaskSwap

/-! Video polls and timeout sweeps, in any number of processes and in any order. -/
namespace AiGateway.Tasks

open List Table Run

def Action.swaps : Action → Bool
  | .startPoll _ | .pollVideo _ _ _ _ _ | .startSweep _ | .sweepNext _ _ => true
  | _ => false

/-- The step moves task `id` into a final status, and its compare-and-swap wins. -/
def wins (id : Int) (x : TaskSystem) : Action → Bool
  | .pollVideo env i channelId upstreamId answer =>
    match (videoTask x i channelId upstreamId).bind (fun t => (polled env answer t).map (fun r => (t, r.2))) with
    | none => false
    | some (t, t') => t'.id = id ∧ t'.status.done ∧ t.status ≠ t'.status ∧
        (updateWithStatus x.rows t' t.status).1
  | .sweepNext env i =>
    match x.sweeps[i]? with
    | some (t :: _) => t.id = id ∧ (updateWithStatus x.rows (timedOut env t) t.status).1
    | _ => false
  | _ => false

def DistinctPerPlatform (rows : Rows) : Prop :=
  ∀ a ∈ rows.rows, ∀ b ∈ rows.rows, a.platform = b.platform → hasUpstreamId a = true →
    getUpstreamTaskId a = getUpstreamTaskId b → a.id = b.id

instance (rows : Rows) : Decidable (DistinctPerPlatform rows) :=
  inferInstanceAs (Decidable (∀ a ∈ rows.rows, ∀ b ∈ rows.rows, _))

/-- An open copy of a row; only the progress of the task may differ by now. -/
def OpenCopy (rows : Rows) (t : Task) : Prop :=
  t.status.done = false ∧ ∃ r, rows.find t.id = some r ∧ r.subject = t.subject

/-- Who holds what while rows are written by compare-and-swap only. -/
structure Swapping (x : TaskSystem) : Prop where
  distinct : DistinctPerPlatform x.rows
  asked : ∀ p ∈ x.passes, (p.pending.map Prod.snd).Nodup
  passes : ∀ p ∈ x.passes, ∀ c ∈ p.pending, ∀ t, p.taskM c.2 = some t → OpenCopy x.rows t
  sweeps : ∀ l ∈ x.sweeps, ∀ t ∈ l, OpenCopy x.rows t
  billed : ∀ id, callsOf x.calls id = [] ∨
    ∃ c r, callsOf x.calls id = [c] ∧ x.rows.find id = some r ∧ c.outcome = r.status

/-- Everything a step on these paths can do to the rows and the billing. -/
inductive SwapStep (x y : TaskSystem) (win : Int → Bool) : Prop
  | nothing (rows : y.rows = x.rows) (calls : y.calls = x.calls) (win : ∀ id, win id = false)
  | swap (t t' : Task) (calls : List BillingCall) (copy : OpenCopy x.rows t) (swapped : Swapped x.rows t t' calls)
      (rows : y.rows = x.rows.save t') (billing : y.calls = x.calls ++ calls)
      (win : ∀ id, win id = true ↔ t'.id = id ∧ t'.status.done = true)

variable {rows : Rows} {x : TaskSystem} {t : Task}

theorem Swapped.ne_of_done {t' : Task} {calls : List BillingCall} (h : Swapped rows t t' calls)
    (hd : t'.status.done = true) : t.status ≠ t'.status := by
  intro he
  rw [← he, h.was_open] at hd
  cases hd

theorem swapStep_poll {y : TaskSystem} {env : PollEnv} {a : VideoAnswer} (hopen : OpenCopy x.rows t)
    (hrows : y.rows = (updateVideoSingleTask env a t x.rows).2.1)
    (hcalls : y.calls = x.calls ++ (updateVideoSingleTask env a t x.rows).2.2) :
    SwapStep x y (fun id => match (polled env a t).map (fun r => (t, r.2)) with
      | none => false
      | some (t, t') => t'.id = id ∧ t'.status.done ∧ t.status ≠ t'.status ∧
          (updateWithStatus x.rows t' t.status).1) := by
  cases hp : polled env a t with
  | none =>
    rw [updateVideoSingleTask_dropped hp] at hrows hcalls
    rw [append_nil] at hcalls
    exact .nothing hrows hcalls (fun id => rfl)
  | some r =>
    obtain ⟨_, t'⟩ := r
    rw [updateVideoSingleTask_open hp hopen.1] at hrows hcalls
    -- The swap is tried if the task has changed at all, and then it has to win.
    by_cases hw : snapshotEqual t t' = false ∧ (updateWithStatus x.rows t' t.status).1 = true
    · rw [if_pos hw] at hrows hcalls
      have hs := swapped_of_polled hp hopen.1 hw.2
      refine .swap t t' _ hopen hs hrows hcalls ?_
      intro id
      rw [Option.map_some]
      simp only [hw.2, decide_eq_true_eq, and_true]
      exact ⟨fun h => ⟨h.1, h.2.1⟩, fun h => ⟨h.1, h.2, hs.ne_of_done h.2⟩⟩
    · rw [if_neg hw] at hrows hcalls
      rw [append_nil] at hcalls
      refine .nothing hrows hcalls ?_
      intro id
      rw [Option.map_some]
      simp only [decide_eq_false_iff_not]
      rintro ⟨_, _, hne, hwon⟩
      -- A change of the status is a change of the snapshot.
      exact hw ⟨by simp [snapshotEqual, hne], hwon⟩

variable {a : Action}

theorem Swapping.step_cases (h : Swapping x) (ha : a.swaps = true) :
    SwapStep x (step x a) (fun id => wins id x a) := by
  have hnothing {y : TaskSystem} (hr : y.rows = x.rows) (hc : y.calls = x.calls) :
      SwapStep x y (fun _ => false) := .nothing hr hc (fun _ => rfl)
  cases a with
  | startPoll | startSweep => exact hnothing rfl rfl
  | pollVideo env i channelId upstreamId answer =>
    simp only [wins]
    cases ht : videoTask x i channelId upstreamId with
    | none =>
      rw [step_pollVideo_none ht]
      exact hnothing rfl rfl
    | some t =>
      obtain ⟨p, hp, _, hmem, htask, hstep⟩ := step_pollVideo_some ht env answer
      rw [hstep, Option.bind_some]
      exact swapStep_poll (h.passes p (mem_of_getElem? hp) _ hmem t htask) rfl rfl
  | sweepNext env i =>
    simp only [step, wins]
    cases hs : x.sweeps[i]? with
    | none => exact hnothing rfl rfl
    | some l =>
      cases l with
      | nil => exact hnothing rfl rfl
      | cons t =>
        have hopen := h.sweeps _ (mem_of_getElem? hs) t mem_cons_self
        -- What a sweep writes is a failure, so every swap it wins is a win of the task.
        by_cases hw : (updateWithStatus x.rows (timedOut env t) t.status).1 = true
        · obtain ⟨hrows, hswap⟩ := sweepTask_won hopen.1 hw
          refine .swap t (timedOut env t) _ hopen hswap hrows rfl ?_
          intro id
          simp only [hw, and_true, decide_eq_true_eq]
          exact ⟨fun he => ⟨he, rfl⟩, fun he => he.1⟩
        · simp only [sweepTask_lost hw]
          refine .nothing rfl (append_nil _) ?_
          intro id
          simp [hw]
  | _ => cases ha

theorem Swapping.final_stays (h : Swapping x) (ha : a.swaps = true) {id : Int} {r : Task}
    (hr : x.rows.find id = some r) (hd : r.status.done = true) : (step x a).rows.find id = some r := by
  rcases h.step_cases ha with ⟨hrows, _⟩ | ⟨_, t', _, _, hs, hrows, _⟩
  · rw [hrows]
    exact hr
  · obtain ⟨_, hr₀, hst⟩ := hs.row
    have hne : id ≠ t'.id := by
      rintro rfl
      rw [hr] at hr₀
      cases hr₀
      rw [hst, hs.was_open] at hd
      cases hd
    rw [hrows, find_save_of_ne _ hne]
    exact hr

theorem OpenCopy.save {a r : Task} (h : OpenCopy rows t) (hr : rows.find a.id = some r)
    (hs : r.subject = a.subject) : OpenCopy (rows.save a) t := by
  obtain ⟨hd, r₀, hr₀, hs₀⟩ := h
  refine ⟨hd, ?_⟩
  by_cases he : a.id = t.id
  · rw [he, hr₀] at hr
    cases hr
    exact ⟨a, find_save_of_key rows he hr₀, hs.symm.trans hs₀⟩
  · rw [find_save_of_ne rows (fun h => he h.symm)]
    exact ⟨r₀, hr₀, hs₀⟩

theorem DistinctPerPlatform.save {a r : Task} (h : DistinctPerPlatform rows)
    (hr : rows.find a.id = some r) (hs : r.subject = a.subject) : DistinctPerPlatform (rows.save a) := by
  -- Every row of the new table stands for a row of the old one with the same subject.
  have hold (x : Task) (hx : x ∈ (rows.save a).rows) : ∃ y ∈ rows.rows, x.subject = y.subject := by
    rcases mem_save hx with rfl | ⟨hx, _⟩
    · exact ⟨r, ((find_some_iff rows _ r).mp hr).1, hs.symm⟩
    · exact ⟨x, hx, rfl⟩
  intro b hb c hc hplat hup he
  obtain ⟨b', hb', hsb⟩ := hold b hb
  obtain ⟨c', hc', hsc⟩ := hold c hc
  have hup' : hasUpstreamId b' = hasUpstreamId b := by
    change decide (b'.subject.upstreamId ≠ "") = decide (b.subject.upstreamId ≠ "")
    rw [hsb]
  calc b.id = b'.id := congrArg Subject.id hsb
    _ = c'.id := by
      apply h b' hb' c' hc'
      · exact (congrArg Subject.platform hsb).symm.trans (hplat.trans (congrArg Subject.platform hsc))
      · rw [hup', hup]
      · exact (congrArg Subject.upstreamId hsb).symm.trans (he.trans (congrArg Subject.upstreamId hsc))
    _ = c.id := (congrArg Subject.id hsc).symm

theorem billed_swap {t' : Task} {calls : List BillingCall} (h : Swapping x) (hs : Swapped x.rows t t' calls)
    (id : Int) : callsOf (x.calls ++ calls) id = [] ∨
      ∃ c r, callsOf (x.calls ++ calls) id = [c] ∧ (x.rows.save t').find id = some r ∧ c.outcome = r.status := by
  obtain ⟨_, hr, hst⟩ := hs.row
  rw [callsOf_append, hs.billed.callsOf]
  by_cases hid : t'.id = id
  · subst hid
    -- The row was open until now, so the task has not been billed.
    have hnone : callsOf x.calls t'.id = [] := by
      rcases h.billed t'.id with hn | ⟨c, _, _, hr₀, hc⟩
      · exact hn
      · rw [hr] at hr₀
        cases hr₀
        have hdone := c.outcome_done
        rw [hc, hst, hs.was_open] at hdone
        cases hdone
    rw [hnone, if_pos rfl, nil_append]
    rcases hs.billed with rfl | ⟨c, rfl, _, hc⟩
    · exact .inl rfl
    · exact .inr ⟨c, t', rfl, find_save_of_key x.rows rfl hr, hc⟩
  · rw [if_neg hid, append_nil, find_save_of_ne _ (fun he => hid he.symm)]
    exact h.billed id

theorem Swapping.step_kept (h : Swapping x) (ha : a.swaps = true) :
    DistinctPerPlatform (step x a).rows ∧ (∀ t, OpenCopy x.rows t → OpenCopy (step x a).rows t) ∧
      ∀ id, callsOf (step x a).calls id = [] ∨ ∃ c r, callsOf (step x a).calls id = [c] ∧
        (step x a).rows.find id = some r ∧ c.outcome = r.status := by
  rcases h.step_cases ha with ⟨hrows, hcalls, _⟩ | ⟨t, t', _, ⟨_, r, hr, hcopy⟩, hs, hrows, hcalls, _⟩
  · rw [hrows, hcalls]
    exact ⟨h.distinct, fun _ ho => ho, h.billed⟩
  · have hid : t.id = t'.id := congrArg Subject.id hs.subject.symm
    have hsub : r.subject = t'.subject := hcopy.trans hs.subject.symm
    rw [hid] at hr
    rw [hrows, hcalls]
    exact ⟨h.distinct.save hr hsub, fun a ha => ha.save hr hsub, billed_swap h hs⟩

theorem openCopy_of_find (h : rows.find t.id = some t ∧ t.status.done = false) : OpenCopy rows t :=
  ⟨h.2, t, h.1, rfl⟩

theorem buildPasses_swapping (h : DistinctPerPlatform rows) (limit : ℕ) (p : Pass)
    (hp : p ∈ buildPasses (getAllUnFinishSyncTasks rows limit)) :
    (p.pending.map Prod.snd).Nodup ∧ ∀ u t, p.taskM u = some t → OpenCopy rows t := by
  obtain ⟨platform, _, rfl⟩ := mem_map.mp hp
  constructor
  · -- A pass has the tasks of one platform, and there the upstream ids are distinct.
    have hrow (t : Task) (ht : t ∈ (getAllUnFinishSyncTasks rows limit).filter (fun t => t.platform = platform)) :
        t ∈ rows.rows ∧ t.platform = platform := by
      rw [mem_filter, decide_eq_true_eq] at ht
      exact ⟨((find_some_iff rows _ t).mp (unfinished_of_mem (fun _ h => h) ht.1).1).1, ht.2⟩
    rw [buildPass_pending, map_map]
    apply nodup_upstream
    · exact (nodup_ids_getAll rows limit).sublist (filter_sublist.map _)
    · intro a ha b hb
      obtain ⟨ha, hpa⟩ := hrow a ha
      obtain ⟨hb, hpb⟩ := hrow b hb
      exact h a ha b hb (hpa.trans hpb.symm)
  · intro u t ht
    have hm := (buildPass_held _ _).2 u t ht
    exact openCopy_of_find (unfinished_of_mem (fun _ h => h) (mem_filter.mp hm).1)

theorem passes_pollVideo {env : PollEnv} {i : ℕ} {channelId : Int} {upstreamId : String}
    {answer : VideoAnswer} {q : Pass} (hq : q ∈ (step x (.pollVideo env i channelId upstreamId answer)).passes) :
    q ∈ x.passes ∨ ∃ p ∈ x.passes, ∃ t', (channelId, upstreamId) ∈ p.pending ∧
      q = { setTask p upstreamId t' with pending := p.pending.erase (channelId, upstreamId) } := by
  cases ht : videoTask x i channelId upstreamId with
  | none =>
    rw [step_pollVideo_none ht] at hq
    exact .inl hq
  | some =>
    obtain ⟨p, hp, _, hmem, _, hstep⟩ := step_pollVideo_some ht env answer
    rw [hstep] at hq
    rcases mem_or_eq_of_mem_set hq with hq | rfl
    · exact .inl hq
    · exact .inr ⟨p, mem_of_getElem? hp, _, hmem, rfl⟩

theorem snd_ne_of_mem_erase {l : List (Int × String)} (h : (l.map Prod.snd).Nodup) {c c' : Int × String}
    (hc : c ∈ l)
    (hc' : c' ∈ l.erase c) : c'.2 ≠ c.2 := by
  have hl : l.Nodup := List.Nodup.of_map _ h
  rw [hl.mem_erase_iff] at hc'
  intro he
  exact hc'.1 (inj_on_of_nodup_map h hc'.2 hc he)

theorem Swapping.step (h : Swapping x) (ha : a.swaps = true) : Swapping (step x a) := by
  -- Rows and billing are settled; what is left is who holds which copy.
  obtain ⟨hdistinct, hcopies, hbilled⟩ := h.step_kept ha
  have hasked := h.asked
  have hpasses (p : Pass) (hp : p ∈ x.passes) (c : Int × String) (hc : c ∈ p.pending) (t : Task)
      (ht : p.taskM c.2 = some t) : OpenCopy (Tasks.step x a).rows t := hcopies t (h.passes p hp c hc t ht)
  have hsweeps (l : List Task) (hl : l ∈ (Tasks.step x a).sweeps) (t : Task) (ht : t ∈ l) :
      OpenCopy (Tasks.step x a).rows t := by
    apply hcopies
    rcases mem_sweeps_step hl with hl | ⟨b, hl⟩ | ⟨_, rfl⟩
    · exact h.sweeps l hl t ht
    · exact h.sweeps _ hl t (mem_cons_of_mem b ht)
    · exact openCopy_of_find (unfinished_of_mem (fun _ h => (of_decide_eq_true h).1) ht)
  cases a with
  | startPoll limit =>
    have hnew := buildPasses_swapping h.distinct limit
    exact ⟨hdistinct, forall_mem_append.mpr ⟨hasked, fun p hp => (hnew p hp).1⟩,
      forall_mem_append.mpr ⟨hpasses, fun p hp c _ => (hnew p hp).2 c.2⟩, hsweeps, hbilled⟩
  | startSweep => exact ⟨hdistinct, hasked, hpasses, hsweeps, hbilled⟩
  | pollVideo env i channelId upstreamId =>
    refine ⟨hdistinct, ?_, ?_, hsweeps, hbilled⟩
    · intro q hq
      rcases passes_pollVideo hq with hq | ⟨p, hp, t', _, rfl⟩
      · exact hasked q hq
      · exact (hasked p hp).sublist (erase_sublist.map _)
    · intro q hq c hc t ht
      rcases passes_pollVideo hq with hq | ⟨p, hp, t', hmem, rfl⟩
      · exact hpasses q hq c hc t ht
      · -- The entries that are left have other upstream ids than the one just asked for.
        have hne := snd_ne_of_mem_erase (hasked p hp) hmem hc
        have ht : Function.update p.taskM upstreamId (some t') c.2 = some t := ht
        rw [Function.update_of_ne hne] at ht
        exact hpasses p hp c (mem_of_mem_erase hc) t ht
  | sweepNext env i =>
    have hpass : (Tasks.step x (.sweepNext env i)).passes = x.passes := by
      simp only [Tasks.step]
      split <;> rfl
    refine ⟨hdistinct, ?_, ?_, hsweeps, hbilled⟩
    · rw [hpass]
      exact hasked
    · rw [hpass]
      exact hpasses
  | _ => cases ha

theorem along_swaps {actions : List Action} (h : ∀ a ∈ actions, a.swaps = true) :
    Along step (fun _ a => a.swaps = true) x actions := by
  induction actions generalizing x with
  | nil => trivial
  | cons a actions ih =>
    exact ⟨h a mem_cons_self, ih (fun b hb => h b (mem_cons_of_mem a hb))⟩

/-- Over every run of video polls and timeout sweeps, a task wins a final status at most
once. From then on its row stays as it is, and it is billed at most once, by a refund for a
failure or a settlement for a success. -/
theorem task_billed_at_most_once (rows : Rows) (hdistinct : DistinctPerPlatform rows) (before after : List Action)
    (hswaps : ∀ a ∈ before ++ after, a.swaps = true) (id : Int) :
    let x := exec step { rows := rows } before
    let y := exec step x after
    count step (wins id) { rows := rows } (before ++ after) ≤ 1 ∧
      (∀ r, x.rows.find id = some r → r.status.done = true → y.rows.find id = some r) ∧
      (callsOf y.calls id = [] ∨ ∃ c r, callsOf y.calls id = [c] ∧ y.rows.find id = some r ∧
        c.outcome = r.status) := by
  intro x y
  have hinit : Swapping { rows := rows } :=
    ⟨hdistinct, nofun, nofun, nofun, fun _ => .inl rfl⟩
  have hstep (s : TaskSystem) (a : Action) (hs : Swapping s) (ha : a.swaps = true) : Swapping (step s a) := hs.step ha
  have hbefore := along_swaps (fun a ha => hswaps a (mem_append_left _ ha)) (x := { rows := rows })
  have hafter := along_swaps (fun a ha => hswaps a (mem_append_right _ ha)) (x := x)
  have hx : Swapping x := exec_invariant Swapping hstep _ before hinit hbefore
  have hy : Swapping y := exec_invariant Swapping hstep x after hx hafter
  refine ⟨?_, ?_, hy.billed id⟩
  · -- A win finds the row open and makes it final, and a final row stays.
    apply count_le_one Swapping (fun s => ∃ r, s.rows.find id = some r ∧ r.status.done = true) hstep ?_ ?_ ?_ _ _
      hinit (along_swaps hswaps)
    · rintro s a hs ha hw ⟨r, hr, hd⟩
      rcases hs.step_cases ha with ⟨_, _, hwin⟩ | ⟨_, t', _, _, hsw, _, _, hwin⟩
      · rw [hwin id] at hw
        cases hw
      · obtain ⟨_, hr₀, hst⟩ := hsw.row
        rw [((hwin id).mp hw).1, hr] at hr₀
        cases hr₀
        rw [hst, hsw.was_open] at hd
        cases hd
    · intro s a hs ha hw
      rcases hs.step_cases ha with ⟨_, _, hwin⟩ | ⟨_, t', _, _, hsw, hrows, _, hwin⟩
      · rw [hwin id] at hw
        cases hw
      · obtain ⟨_, hr₀, _⟩ := hsw.row
        obtain ⟨hid, hd⟩ := (hwin id).mp hw
        rw [hid] at hr₀
        refine ⟨t', ?_, hd⟩
        rw [hrows]
        exact find_save_of_key s.rows hid hr₀
    · rintro s a hs ha ⟨r, hr, hd⟩
      exact ⟨r, hs.final_stays ha hr hd, hd⟩
  · intro r hr hd
    have hfinal := exec_invariant (fun s => Swapping s ∧ s.rows.find id = some r)
      (fun s a hs ha => ⟨hs.1.step ha, hs.1.final_stays ha hs.2 hd⟩) x after ⟨hx, hr⟩ hafter
    exact hfinal.2

/-- Two passes and a sweep hold the task when the first poll finds it finished. -/
theorem task_billed_at_most_once_sample :
    let done : VideoAnswer := { result := some { status := .success }, adaptorQuota := 70 }
    let before : List Action :=
      [.startPoll 10, .startPoll 10, .startSweep 1800000300, .pollVideo sampleEnv 0 7 "up-1" done]
    let after : List Action := [.pollVideo sampleEnv 1 7 "up-1" done, .sweepNext sampleEnv 0]
    let y := exec step (exec step { rows := single sampleTask } before) after
    count step (wins 1) { rows := single sampleTask } (before ++ after) ≤ 1 ∧
      (callsOf y.calls 1).length = 1 ∧ ∃ c r, callsOf y.calls 1 = [c] ∧ y.rows.find 1 = some r ∧
        c.outcome = r.status := by
  intro done before after y
  obtain ⟨hwin, _, hbilled⟩ :=
    task_billed_at_most_once (single sampleTask) (by decide) before after (by decide) 1
  have hone : (callsOf y.calls 1).length = 1 := by decide
  refine ⟨hwin, hone, ?_⟩
  rcases hbilled with hnone | hc
  · have hnone : callsOf y.calls 1 = [] := hnone
    rw [hnone] at hone
    cases hone
  · exact hc

end AiGateway.Tasks
