import AiGateway.TaskWrites

/-! The compare-and-swap writes of video polls and timeout sweeps. -/
namespace AiGateway.Tasks

open List

structure Subject where
  id : Int
  platform : TaskPlatform
  channelId : Int
  upstreamId : String
  key : String
deriving DecidableEq

def Task.subject (t : Task) : Subject :=
  ⟨t.id, t.platform, t.channelId, getUpstreamTaskId t, t.privateData.key⟩

def BillingCall.task : BillingCall → Task
  | .refund t => t
  | .recalculate t _ => t

def BillingCall.outcome : BillingCall → TaskStatus
  | .refund _ => .failure
  | .recalculate _ _ => .success

theorem BillingCall.outcome_done (c : BillingCall) : c.outcome.done = true := by
  cases c <;> rfl

def callsOf (calls : List BillingCall) (id : Int) : List BillingCall :=
  calls.filter (fun c => c.task.id = id)

theorem callsOf_append (a b : List BillingCall) (id : Int) : callsOf (a ++ b) id = callsOf a id ++ callsOf b id :=
  filter_append ..

variable {t : Task} {info : TaskInfo} {env : PollEnv} {a : VideoAnswer}

theorem callsOf_refundCall {id : Int} (h : id ≠ t.id) : callsOf (refundCall t) id = [] := by
  unfold refundCall
  split
  · rfl
  · simp [callsOf, BillingCall.task, Ne.symm h]

def Billed (t : Task) (calls : List BillingCall) : Prop :=
  calls = [] ∨ ∃ c, calls = [c] ∧ c.task = t ∧ c.outcome = t.status

theorem billed_refundCall (h : t.status = .failure) : Billed t (refundCall t) := by
  unfold refundCall
  split
  · exact .inl rfl
  · exact .inr ⟨.refund t, rfl, rfl, h.symm⟩

theorem billed_recalculateCall (h : t.status = .success) (actualQuota : Int) :
    Billed t (recalculateCall t actualQuota).2 := by
  unfold recalculateCall
  split
  · exact .inl rfl
  · exact .inr ⟨.recalculate t actualQuota, rfl, rfl, h.symm⟩

theorem billed_settle (h : t.status = .success) : Billed t (settleTaskBillingOnComplete a info t).2 := by
  unfold settleTaskBillingOnComplete
  split
  · exact .inl rfl
  split
  · exact billed_recalculateCall h _
  split
  · split
    · exact .inl rfl
    · exact billed_recalculateCall h _
  · exact .inl rfl

theorem billed_result (h : t.status = info.status) : Billed t (billResult a info t).2 := by
  unfold billResult
  split
  · next hs => exact billed_settle (h.trans hs)
  · next hs => exact billed_refundCall (h.trans hs)
  · exact .inl rfl

variable {calls : List BillingCall} {t' : Task} {rows : Rows}

theorem Billed.callsOf (h : Billed t calls) (id : Int) : callsOf calls id = if t.id = id then calls else [] := by
  rcases h with rfl | ⟨c, rfl, rfl, _⟩
  · simp [Tasks.callsOf]
  · by_cases hid : c.task.id = id <;> simp [Tasks.callsOf, hid]

theorem applyResult_subject (h : applyResult env t info = some t') : t'.subject = t.subject := by
  unfold applyResult at h
  dsimp only at h
  split at h <;> cases h
  all_goals first | rfl | (split <;> rfl)

section
variable (h : polled env a t = some (info, t'))
include h

theorem polled_spec : t'.subject = t.subject ∧ SameTask t t' ∧ t'.status = info.status := by
  obtain ⟨_, happ⟩ := polled_eq_some.mp h
  have hsubject := applyResult_subject happ
  exact ⟨hsubject, polled_same h⟩

theorem updateVideoSingleTask_rows (rows : Rows) :
    (updateVideoSingleTask env a t rows).2.1 =
      if snapshotEqual t t' then rows else (updateWithStatus rows t' t.status).2 := by
  rw [updateVideoSingleTask_polled h]
  cases snapshotEqual t t' <;> simp <;> split <;> rfl

theorem updateVideoSingleTask_calls (rows : Rows) :
    (updateVideoSingleTask env a t rows).2.2 = [] ∨
      (updateVideoSingleTask env a t rows).2.2 = (billResult a info t').2 := by
  rw [updateVideoSingleTask_polled h]
  dsimp only
  split <;> split
  · exact .inl rfl
  · exact .inr rfl
  · exact .inl rfl
  · exact .inr rfl

end

/-- The version `t'` of the open task `t` was written over a row with the status of `t`. -/
structure Swapped (rows : Rows) (t t' : Task) (calls : List BillingCall) : Prop where
  was_open : t.status.done = false
  row : ∃ r, rows.find t'.id = some r ∧ r.status = t.status
  subject : t'.subject = t.subject
  same : SameTask t t'
  billed : Billed t' calls

theorem swapped_of_polled (h : polled env a t = some (info, t')) (hd : t.status.done = false)
    (hwon : (updateWithStatus rows t' t.status).1 = true) : Swapped rows t t' (billResult a info t').2 := by
  obtain ⟨hsubject, hsame, hstatus⟩ := polled_spec h
  exact ⟨hd, (row_of_updateWithStatus hwon).1, hsubject, hsame, billed_result hstatus⟩

theorem sweepTask_lost
    (h : ¬ (updateWithStatus rows (timedOut env t) t.status).1 = true) : sweepTask env t rows = (rows, []) := by
  rcases updateWithStatus_cases rows (timedOut env t) t.status with ⟨_, hw⟩ | hw
  · rw [hw] at h
    exact absurd rfl h
  · simp [sweepTask, hw]

theorem sweepTask_won (hd : t.status.done = false) (h : (updateWithStatus rows (timedOut env t) t.status).1 = true) :
    (sweepTask env t rows).1 = rows.save (timedOut env t) ∧
      Swapped rows t (timedOut env t) (sweepTask env t rows).2 := by
  obtain ⟨hrow, hsave⟩ := row_of_updateWithStatus h
  refine ⟨hsave, hd, hrow, rfl, timedOut_same env t, ?_⟩
  simp only [sweepTask, h, true_and]
  split
  · exact billed_refundCall rfl
  · exact .inl rfl

theorem mem_sweeps_step {x : TaskSystem} {a : Action} {l : List Task} (hl : l ∈ (step x a).sweeps) :
    l ∈ x.sweeps ∨ (∃ t, t :: l ∈ x.sweeps) ∨
      ∃ cutoff, l = getTimedOutUnfinishedTasks x.rows cutoff sweepLimit := by
  cases a with
  | startSweep cutoff =>
    rcases mem_append.mp hl with hl | hl
    · exact .inl hl
    · exact .inr (.inr ⟨cutoff, mem_singleton.mp hl⟩)
  | sweepNext =>
    simp only [step] at hl
    split at hl
    · next t rest hs =>
      rcases mem_or_eq_of_mem_set hl with hl | rfl
      · exact .inl hl
      · exact .inr (.inl ⟨t, mem_of_getElem? hs⟩)
    · exact .inl hl
  | submit | startPoll => exact .inl hl
  -- No other step touches the sweeps.
  | _ =>
    left
    simp only [step] at hl
    repeat' split at hl
    all_goals exact hl

theorem updateSunoTask_rows (item : SunoDataResponse) : (updateSunoTask t item rows).2.1 =
      if taskNeedsUpdate t item then rows.save (sunoUpdated t item) else rows := by
  unfold updateSunoTask
  split <;> rfl

end AiGateway.Tasks
