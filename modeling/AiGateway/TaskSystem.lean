import AiGateway.TaskPolling

/-! Any number of processes at work on the tasks. A pass, a sweep or a fetch holds the
tasks it loaded and goes on from them while the rows change underneath. -/
namespace AiGateway.Tasks

/-- One platform's share of a polling pass. `taskM` and `pending` are built from the
upstream ids, so tasks that share one share the entry of the last of them. -/
structure Pass where
  platform : TaskPlatform
  taskM : String → Option Task
  pending : List (Int × String)
  nullTaskIds : List Int

def addTask (p : Pass) (t : Task) : Pass :=
  let upstreamId := getUpstreamTaskId t
  if upstreamId = "" then { p with nullTaskIds := p.nullTaskIds ++ [t.id] }
  else { p with
    taskM := Function.update p.taskM upstreamId (some t)
    pending := p.pending ++ [(t.channelId, upstreamId)] }

def buildPass (platform : TaskPlatform) (tasks : List Task) : Pass :=
  tasks.foldl addTask ⟨platform, fun _ => none, [], []⟩

/-- The passes of one call of `RunTaskPollingOnce`, one for each platform. -/
def buildPasses (tasks : List Task) : List Pass :=
  (tasks.map Task.platform).dedup.map (fun platform =>
    buildPass platform (tasks.filter (fun t => t.platform = platform)))

structure TaskSystem where
  rows : Rows
  passes : List Pass := []
  sweeps : List (List Task) := []
  fetches : List Task := []
  calls : List BillingCall := []

inductive Action
  | submit (t : Task)
  | startPoll (limit : ℕ)
  | failNull (pass : ℕ)
  | failChannel (pass : ℕ) (channelId : Int)
  | pollSuno (pass : ℕ) (item : SunoDataResponse)
  | pollVideo (env : PollEnv) (pass : ℕ) (channelId : Int) (upstreamId : String) (answer : VideoAnswer)
  | startSweep (cutoff : Int)
  | sweepNext (env : PollEnv) (sweep : ℕ)
  | startFetch (userId : Int) (taskId : String)
  | finishFetch (env : PollEnv) (fetch : ℕ) (answer : Option TaskInfo)

def sweepLimit : ℕ := 100

def setTask (p : Pass) (upstreamId : String) (t : Task) : Pass :=
  { p with taskM := Function.update p.taskM upstreamId (some t) }

def channelTasks (p : Pass) (channelId : Int) : List Int :=
  (p.pending.filter (fun c => c.1 = channelId)).filterMap (fun c => (p.taskM c.2).map Task.id)

def channelError (platform : TaskPlatform) (channelId : Int) : String :=
  match platform with
  | .suno => s!"获取渠道信息失败，请联系管理员，渠道ID：{channelId}"
  | _ => s!"Failed to get channel info, channel ID: {channelId}"

def step (x : TaskSystem) : Action → TaskSystem
  | .submit t => { x with rows := x.rows.insert t }
  | .startPoll limit => { x with passes := x.passes ++ buildPasses (getAllUnFinishSyncTasks x.rows limit) }
  -- Tasks without an upstream id fail in one write, and nothing is refunded.
  | .failNull i =>
    match x.passes[i]? with
    | none => x
    | some p => { x with
        rows := taskBulkUpdateByID x.rows p.nullTaskIds none
        passes := x.passes.set i { p with nullTaskIds := [] } }
  -- The channel of the tasks cannot be read any more.
  | .failChannel i channelId =>
    match x.passes[i]? with
    | none => x
    | some p => { x with
        rows := taskBulkUpdateByID x.rows (channelTasks p channelId) (some (channelError p.platform channelId))
        passes := x.passes.set i { p with pending := p.pending.filter (fun c => c.1 ≠ channelId) } }
  | .pollSuno i item =>
    match x.passes[i]? with
    | none => x
    | some p =>
      if p.platform ≠ .suno then x
      else match p.taskM item.taskId with
        | none => x
        | some t =>
          let (t', rows, calls) := updateSunoTask t item x.rows
          { x with
            rows := rows, calls := x.calls ++ calls
            passes := x.passes.set i (setTask p item.taskId t') }
  | .pollVideo env i channelId upstreamId answer =>
    match x.passes[i]? with
    | none => x
    | some p =>
      -- Midjourney has a loop of its own, and a task is asked for once in a pass.
      if p.platform = .suno ∨ p.platform = .midjourney ∨ (channelId, upstreamId) ∉ p.pending then x
      else match p.taskM upstreamId with
        | none => x
        | some t =>
          let (t', rows, calls) := updateVideoSingleTask env answer t x.rows
          { x with
            rows := rows, calls := x.calls ++ calls
            passes := x.passes.set i
              { setTask p upstreamId t' with pending := p.pending.erase (channelId, upstreamId) } }
  | .startSweep cutoff => { x with sweeps := x.sweeps ++ [getTimedOutUnfinishedTasks x.rows cutoff sweepLimit] }
  | .sweepNext env i =>
    match x.sweeps[i]? with
    | some (t :: rest) =>
      let (rows, calls) := sweepTask env t x.rows
      { x with rows := rows, calls := x.calls ++ calls, sweeps := x.sweeps.set i rest }
    | _ => x
  | .startFetch userId taskId =>
    match getByTaskId x.rows userId taskId with
    | none => x
    | some t => { x with fetches := x.fetches ++ [t] }
  | .finishFetch env i answer =>
    match x.fetches[i]? with
    | none => x
    | some t => { x with
        rows := tryRealtimeFetch env t answer x.rows
        fetches := x.fetches.eraseIdx i }

def videoTask (x : TaskSystem) (i : ℕ) (channelId : Int) (upstreamId : String) : Option Task :=
  match x.passes[i]? with
  | none => none
  | some p =>
    if p.platform = .suno ∨ p.platform = .midjourney ∨ (channelId, upstreamId) ∉ p.pending then none
    else p.taskM upstreamId

def sunoTask (x : TaskSystem) (i : ℕ) (item : SunoDataResponse) : Option Task :=
  match x.passes[i]? with
  | none => none
  | some p => if p.platform ≠ .suno then none else p.taskM item.taskId

def refundsOf (calls : List BillingCall) (id : Int) : List Task :=
  calls.filterMap (fun c => match c with
    | .refund t => if t.id = id then some t else none
    | .recalculate _ _ => none)

@[simp] theorem refundsOf_append (a b : List BillingCall) (id : Int) :
    refundsOf (a ++ b) id = refundsOf a id ++ refundsOf b id := by
  simp only [refundsOf, List.filterMap_append]

@[simp] theorem refundsOf_nil (id : Int) : refundsOf [] id = [] := rfl

theorem refundsOf_refundCall (t : Task) (id : Int) :
    refundsOf (refundCall t) id = if t.quota ≠ 0 ∧ t.id = id then [t] else [] := by
  unfold refundCall
  by_cases hq : t.quota = 0
  · simp [hq]
  · by_cases hid : t.id = id <;> simp [hq, hid, refundsOf]

variable {x : TaskSystem} {i : ℕ} {item : SunoDataResponse}

theorem step_pollVideo_none {channelId : Int} {upstreamId : String}
    (h : videoTask x i channelId upstreamId = none) (env : PollEnv) (a : VideoAnswer) :
    step x (.pollVideo env i channelId upstreamId a) = x := by
  cases hp : x.passes[i]? with
  | none => simp only [step, hp]
  | some p =>
    simp only [videoTask, hp] at h
    simp only [step, hp]
    by_cases hguard : p.platform = .suno ∨ p.platform = .midjourney ∨ (channelId, upstreamId) ∉ p.pending
    · rw [if_pos hguard]
    · rw [if_neg hguard] at h ⊢
      rw [h]

theorem step_pollVideo_some {channelId : Int} {upstreamId : String} {t : Task}
    (h : videoTask x i channelId upstreamId = some t) (env : PollEnv) (a : VideoAnswer) :
    ∃ p, x.passes[i]? = some p ∧ p.platform ≠ .suno ∧ (channelId, upstreamId) ∈ p.pending ∧
      p.taskM upstreamId = some t ∧ step x (.pollVideo env i channelId upstreamId a) = { x with
        rows := (updateVideoSingleTask env a t x.rows).2.1
        calls := x.calls ++ (updateVideoSingleTask env a t x.rows).2.2
        passes := x.passes.set i { setTask p upstreamId (updateVideoSingleTask env a t x.rows).1 with
          pending := p.pending.erase (channelId, upstreamId) } } := by
  unfold videoTask at h
  split at h
  · cases h
  · next p hp =>
    split at h
    · cases h
    · next hguard =>
      have hopen := hguard
      simp only [not_or, not_not] at hopen
      refine ⟨p, hp, hopen.1, hopen.2.2, h, ?_⟩
      simp only [step, hp, if_neg hguard, h]

theorem step_pollSuno_none (h : sunoTask x i item = none) : step x (.pollSuno i item) = x := by
  cases hp : x.passes[i]? with
  | none => simp only [step, hp]
  | some p =>
    simp only [sunoTask, hp] at h
    simp only [step, hp]
    by_cases hplat : p.platform ≠ .suno
    · rw [if_pos hplat]
    · rw [if_neg hplat] at h ⊢
      rw [h]

theorem step_pollSuno_some {t : Task} (h : sunoTask x i item = some t) :
    ∃ p, x.passes[i]? = some p ∧ p.platform = .suno ∧ p.taskM item.taskId = some t ∧
      step x (.pollSuno i item) = { x with
        rows := (updateSunoTask t item x.rows).2.1
        calls := x.calls ++ (updateSunoTask t item x.rows).2.2
        passes := x.passes.set i (setTask p item.taskId (updateSunoTask t item x.rows).1) } := by
  unfold sunoTask at h
  split at h
  · cases h
  · next p hp =>
    split at h
    · cases h
    · next hplat =>
      refine ⟨p, hp, not_not.mp hplat, h, ?_⟩
      simp only [step, hp, if_neg hplat, h]

inductive StepWrite (x : TaskSystem) : Action → Rows → List BillingCall → Prop
  | idle (a : Action) : StepWrite x a x.rows []
  | submit (t : Task) : StepWrite x (.submit t) (x.rows.insert t) []
  | failNull {i : ℕ} {p : Pass} (hp : x.passes[i]? = some p) :
      StepWrite x (.failNull i) (taskBulkUpdateByID x.rows p.nullTaskIds none) []
  | failChannel {i : ℕ} {p : Pass} (channelId : Int) (hp : x.passes[i]? = some p) :
      StepWrite x (.failChannel i channelId)
        (taskBulkUpdateByID x.rows (channelTasks p channelId) (some (channelError p.platform channelId))) []
  | pollSuno {i : ℕ} {item : SunoDataResponse} {t : Task} (ht : sunoTask x i item = some t) :
      StepWrite x (.pollSuno i item) (updateSunoTask t item x.rows).2.1 (updateSunoTask t item x.rows).2.2
  | pollVideo {i : ℕ} {channelId : Int} {upstreamId : String} {t : Task} (env : PollEnv) (answer : VideoAnswer)
      (ht : videoTask x i channelId upstreamId = some t) :
      StepWrite x (.pollVideo env i channelId upstreamId answer)
        (updateVideoSingleTask env answer t x.rows).2.1 (updateVideoSingleTask env answer t x.rows).2.2
  | sweepNext {i : ℕ} {t : Task} {rest : List Task} (env : PollEnv) (hs : x.sweeps[i]? = some (t :: rest)) :
      StepWrite x (.sweepNext env i) (sweepTask env t x.rows).1 (sweepTask env t x.rows).2
  | finishFetch {i : ℕ} {t : Task} (env : PollEnv) (answer : Option TaskInfo) (ht : x.fetches[i]? = some t) :
      StepWrite x (.finishFetch env i answer) (tryRealtimeFetch env t answer x.rows) []

theorem step_write (a : Action) :
    ∃ calls, (step x a).calls = x.calls ++ calls ∧ StepWrite x a (step x a).rows calls := by
  -- Most steps call for no billing.
  have hnone {y : TaskSystem} (hcalls : y.calls = x.calls) (hrows : StepWrite x a y.rows []) :
      ∃ calls, y.calls = x.calls ++ calls ∧ StepWrite x a y.rows calls :=
    ⟨[], by rw [hcalls, List.append_nil], hrows⟩
  cases a with
  | submit t => exact hnone rfl (.submit t)
  | startPoll | startSweep => exact hnone rfl (.idle _)
  | failNull =>
    simp only [step]
    split
    · exact hnone rfl (.idle _)
    · next p hp => exact hnone rfl (.failNull hp)
  | failChannel i channelId =>
    simp only [step]
    split
    · exact hnone rfl (.idle _)
    · next p hp => exact hnone rfl (.failChannel channelId hp)
  | pollSuno i item =>
    cases ht : sunoTask x i item with
    | none =>
      rw [step_pollSuno_none ht]
      exact hnone rfl (.idle _)
    | some =>
      obtain ⟨p, _, _, _, hstep⟩ := step_pollSuno_some ht
      rw [hstep]
      exact ⟨_, rfl, .pollSuno ht⟩
  | pollVideo env i channelId upstreamId answer =>
    cases ht : videoTask x i channelId upstreamId with
    | none =>
      rw [step_pollVideo_none ht]
      exact hnone rfl (.idle _)
    | some =>
      obtain ⟨p, _, _, _, _, hstep⟩ := step_pollVideo_some ht env answer
      rw [hstep]
      exact ⟨_, rfl, .pollVideo env answer ht⟩
  | sweepNext env =>
    simp only [step]
    split
    · next t rest hs => exact ⟨_, rfl, .sweepNext env hs⟩
    · exact hnone rfl (.idle _)
  | startFetch =>
    simp only [step]
    split <;> exact hnone rfl (.idle _)
  | finishFetch env i answer =>
    simp only [step]
    split
    · exact hnone rfl (.idle _)
    · next t ht => exact hnone rfl (.finishFetch env answer ht)

end AiGateway.Tasks
