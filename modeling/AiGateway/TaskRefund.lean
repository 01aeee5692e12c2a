import AiGateway.TaskWrites

/-! The refunds that are called for over every run made of writes that keep to one for a failed task. -/
namespace AiGateway.Tasks

open List Table Run

def StepOk (x : TaskSystem) : Action → Prop
  | .submit t => t.status = .notStart
  | .failNull i => ∀ p, x.passes[i]? = some p → ∀ id ∈ p.nullTaskIds, ∀ r, x.rows.find id = some r →
      Unbilled r .failure
  | .failChannel i channelId => ∀ p, x.passes[i]? = some p →
      ∀ id ∈ channelTasks p channelId, ∀ r, x.rows.find id = some r → Unbilled r .failure
  | .pollSuno i item => ∀ p t r, x.passes[i]? = some p → p.taskM item.taskId = some t →
      x.rows.find t.id = some r → taskNeedsUpdate t item = true → SunoOk t item r
  | .pollVideo _ i channelId upstreamId _ => ∀ p t, x.passes[i]? = some p →
      (channelId, upstreamId) ∈ p.pending → p.taskM upstreamId = some t → t.status.done = false
  | .finishFetch env i answer => ∀ t info r, x.fetches[i]? = some t → answer = some info →
      x.rows.find t.id = some r → r.status = t.status → Unbilled r (fetchedTask env t info).status
  | _ => True

structure Inv (x : TaskSystem) : Prop where
  booked : ∀ id r, x.rows.find id = some r → Booked r (refundsOf x.calls id)
  unknown : ∀ id, x.rows.find id = none → refundsOf x.calls id = []
  passes : ∀ p ∈ x.passes, ∀ u t, p.taskM u = some t → Held x.rows (p.platform = .suno) t
  sweeps : ∀ l ∈ x.sweeps, ∀ t ∈ l, Held x.rows True t ∧ t.status.done = false
  fetches : ∀ t ∈ x.fetches, Held x.rows True t

variable {x : TaskSystem}

theorem Inv.write (h : Inv x) {rows : Rows} {calls : List BillingCall}
    (hw : Wrote x.rows rows calls) : Inv { x with rows := rows, calls := x.calls ++ calls } := by
  refine ⟨?_, ?_, ?_, ?_, ?_⟩
  · intro id r' hr'
    change Booked r' (refundsOf (x.calls ++ calls) id)
    rw [refundsOf_append]
    obtain ⟨r, hr, hs, ht⟩ := hw.row hr'
    exact (h.booked id r hr).transition hs ht
  · intro id hn
    change refundsOf (x.calls ++ calls) id = []
    cases hr : x.rows.find id with
    | none => rw [refundsOf_append, h.unknown id hr, ((hw id).1 hr).2, append_nil]
    | some r =>
      obtain ⟨_, hr2, _⟩ := (hw id).2 r hr
      have hn : rows.find id = none := hn
      rw [hr2] at hn
      cases hn
  · intro p hp u t ht
    exact (h.passes p hp u t ht).mono hw
  · intro l hl t ht
    exact ⟨(h.sweeps l hl t ht).1.mono hw, (h.sweeps l hl t ht).2⟩
  · intro t ht
    exact (h.fetches t ht).mono hw

theorem Inv.setPass (h : Inv x) (i : ℕ) {p : Pass}
    (hp : ∀ u t, p.taskM u = some t → Held x.rows (p.platform = .suno) t) :
    Inv { x with passes := x.passes.set i p } := by
  exact ⟨h.booked, h.unknown, Run.forall_mem_set h.passes hp i, h.sweeps, h.fetches⟩

theorem mem_of_update {m : String → Option Task} {u v : String} {a t : Task}
    (h : Function.update m u (some a) v = some t) : t = a ∨ m v = some t := by
  by_cases hv : v = u
  · subst hv
    rw [Function.update_self] at h
    cases h
    exact .inl rfl
  · rw [Function.update_of_ne hv] at h
    exact .inr h

theorem buildPass_held (platform : TaskPlatform) (tasks : List Task) :
    (buildPass platform tasks).platform = platform ∧
      ∀ u t, (buildPass platform tasks).taskM u = some t → t ∈ tasks := by
  -- The fold, from any pass it starts with.
  have hgen (tasks : List Task) (p : Pass) : (tasks.foldl addTask p).platform = p.platform ∧
      ∀ u t, (tasks.foldl addTask p).taskM u = some t → t ∈ tasks ∨ p.taskM u = some t := by
    induction tasks generalizing p with
    | nil => exact ⟨rfl, fun u t ht => .inr ht⟩
    | cons a tasks ih =>
      have hadd : (addTask p a).platform = p.platform ∧
          ∀ u t, (addTask p a).taskM u = some t → t = a ∨ p.taskM u = some t := by
        unfold addTask
        dsimp only
        split
        · exact ⟨rfl, fun u t ht => .inr ht⟩
        · refine ⟨rfl, ?_⟩
          intro u t ht
          exact mem_of_update ht
      rw [foldl_cons]
      refine ⟨(ih (addTask p a)).1.trans hadd.1, ?_⟩
      intro u t ht
      rcases (ih (addTask p a)).2 u t ht with hm | hm
      · exact .inl (mem_cons_of_mem a hm)
      · rcases hadd.2 u t hm with rfl | hm
        · exact .inl mem_cons_self
        · exact .inr hm
  obtain ⟨hplat, htasks⟩ := hgen tasks ⟨platform, fun _ => none, [], []⟩
  refine ⟨hplat, ?_⟩
  intro u t ht
  rcases htasks u t ht with hm | hm
  · exact hm
  · cases hm

section
variable (h : Inv x)
include h

theorem Inv.startPoll (limit : ℕ) : Inv (step x (.startPoll limit)) := by
  refine ⟨h.booked, h.unknown, ?_, h.sweeps, h.fetches⟩
  intro p hp u t ht
  rcases mem_append.mp hp with hp | hp
  · exact h.passes p hp u t ht
  · obtain ⟨_, _, rfl⟩ := mem_map.mp hp
    have hm := (buildPass_held _ _).2 u t ht
    exact held_of_find (unfinished_of_mem (fun _ h => h) (mem_filter.mp hm).1).1

theorem Inv.submit {t : Task} (ht : t.status = .notStart) : Inv (step x (.submit t)) := by
  by_cases hn : x.rows.find t.id = none
  · have hheld {keeps : Prop} {a : Task} (ha : Held x.rows keeps a) : Held (x.rows.insert t) keeps a := by
      obtain ⟨r, hr, hrest⟩ := ha
      refine ⟨r, ?_, hrest⟩
      rw [find_insert _ _ _ hn, if_neg, hr]
      intro he
      rw [he, hn] at hr
      cases hr
    -- A new key: nobody holds the task, and it has no refunds.
    refine ⟨?_, ?_, fun p hp u a ha => hheld (h.passes p hp u a ha),
      fun l hl a ha => ⟨hheld (h.sweeps l hl a ha).1, (h.sweeps l hl a ha).2⟩,
      fun a ha => hheld (h.fetches a ha)⟩
    · intro id r hr
      have hr : (x.rows.insert t).find id = some r := hr
      rw [find_insert _ _ _ hn] at hr
      split at hr
      · next hid =>
        cases hr
        change Booked t (refundsOf x.calls id)
        rw [hid, h.unknown t.id hn]
        refine ⟨fun _ => rfl, ?_, fun _ => rfl⟩
        intro hf
        rw [ht] at hf
        cases hf
      · exact h.booked id r hr
    · intro id hid
      have hid : (x.rows.insert t).find id = none := hid
      rw [find_insert _ _ _ hn] at hid
      split at hid
      · cases hid
      · exact h.unknown id hid
  · -- The primary key is taken, so nothing is inserted.
    obtain ⟨_, hr⟩ := Option.ne_none_iff_exists'.mp hn
    simp only [step, insert_of_find hr]
    exact h

variable {i : ℕ}

theorem Inv.poll {p : Pass} (hp : x.passes[i]? = some p) {rows : Rows} {calls : List BillingCall}
    (hw : Wrote x.rows rows calls) (u : String) {t' : Task} (hnew : Held x.rows (p.platform = .suno) t')
    (pending : List (Int × String)) : Inv { x with
      rows := rows, calls := x.calls ++ calls, passes :=
        x.passes.set i { setTask p u t' with pending := pending } } := by
  refine (h.write hw).setPass i ?_
  intro v a ha
  rcases mem_of_update ha with rfl | ha
  · exact hnew.mono hw
  · exact (h.passes p (mem_of_getElem? hp) v a ha).mono hw

theorem Inv.pollSuno {item : SunoDataResponse} (hok : StepOk x (.pollSuno i item)) :
    Inv (step x (.pollSuno i item)) := by
  cases ht : sunoTask x i item with
  | none =>
    rw [step_pollSuno_none ht]
    exact h
  | some t =>
    obtain ⟨p, hp, hplat, htask, hstep⟩ := step_pollSuno_some ht
    have hheld := h.passes p (mem_of_getElem? hp) _ t htask
    -- A Suno pass knows the quota of its tasks: nothing in it recalculates one.
    obtain ⟨hw, hnew⟩ := updateSunoTask_wrote (hheld.imp (fun _ => hplat))
      (fun r hr hneed => hok p t r hp htask hr hneed)
    rw [hstep]
    exact h.poll hp hw item.taskId (hnew.imp (fun _ => trivial)) p.pending

theorem Inv.pollVideo {env : PollEnv} {channelId : Int} {upstreamId : String} {answer : VideoAnswer}
    (hok : StepOk x (.pollVideo env i channelId upstreamId answer)) :
    Inv (step x (.pollVideo env i channelId upstreamId answer)) := by
  cases ht : videoTask x i channelId upstreamId with
  | none =>
    rw [step_pollVideo_none ht]
    exact h
  | some t =>
    obtain ⟨p, hp, hplat, hmem, htask, hstep⟩ := step_pollVideo_some ht env answer
    have hheld := h.passes p (mem_of_getElem? hp) _ t htask
    obtain ⟨hw, hnew⟩ := updateVideoSingleTask_wrote env answer hheld hplat (hok p t hp hmem htask)
    rw [hstep]
    exact h.poll hp hw upstreamId hnew _

theorem Inv.sweepNext (env : PollEnv) (i : ℕ) : Inv (step x (.sweepNext env i)) := by
  simp only [step]
  split
  · next t rest hs =>
    have hmem := mem_of_getElem? hs
    obtain ⟨hheld, hd⟩ := h.sweeps _ hmem t mem_cons_self
    have hinv := h.write (sweepTask_wrote env hheld hd)
    exact ⟨hinv.booked, hinv.unknown, hinv.passes,
      Run.forall_mem_set hinv.sweeps (fun a ha => hinv.sweeps _ hmem a (mem_cons_of_mem t ha)) i, hinv.fetches⟩
  · exact h

theorem Inv.finishFetch {env : PollEnv} {answer : Option TaskInfo}
    (hok : StepOk x (.finishFetch env i answer)) : Inv (step x (.finishFetch env i answer)) := by
  simp only [step]
  split
  · exact h
  · next t ht =>
    have hheld := h.fetches t (mem_of_getElem? ht)
    have hw := tryRealtimeFetch_wrote env answer hheld
      (fun info r ha hr hst => hok t info r ht ha hr hst)
    have hinv := h.write hw
    rw [append_nil] at hinv
    exact ⟨hinv.booked, hinv.unknown, hinv.passes, hinv.sweeps, fun a ha => hinv.fetches a (mem_of_mem_eraseIdx ha)⟩

theorem Inv.bulk {p : Pass} (hp : x.passes[i]? = some p) (p' : Pass) (htasks : p'.taskM = p.taskM)
    (hplat : p'.platform = p.platform) {ids : List Int} (failReason : Option String)
    (hok : ∀ id ∈ ids, ∀ r, x.rows.find id = some r → Unbilled r .failure) :
    Inv { x with rows := taskBulkUpdateByID x.rows ids failReason, passes := x.passes.set i p' } := by
  have hw := bulk_wrote failReason hok
  have hinv := h.write hw
  rw [append_nil] at hinv
  refine hinv.setPass i ?_
  rw [htasks, hplat]
  exact hinv.passes p (mem_of_getElem? hp)

theorem Inv.step {a : Action} (hok : StepOk x a) : Inv (step x a) := by
  cases a with
  | submit => exact h.submit hok
  | startPoll limit => exact h.startPoll limit
  | failNull =>
    simp only [Tasks.step]
    split
    · exact h
    · next p hp => exact h.bulk hp { p with nullTaskIds := [] } rfl rfl none (hok p hp)
  | failChannel i channelId =>
    simp only [Tasks.step]
    split
    · exact h
    · next p hp =>
      exact h.bulk hp { p with pending := p.pending.filter (fun c => c.1 ≠ channelId) } rfl rfl _ (hok p hp)
  | pollSuno => exact h.pollSuno hok
  | pollVideo => exact h.pollVideo hok
  -- The two kinds of start only add copies of rows as they are now.
  | startSweep cutoff =>
    refine ⟨h.booked, h.unknown, h.passes, Run.forall_mem_concat h.sweeps ?_, h.fetches⟩
    intro t ht
    obtain ⟨hfind, hd⟩ := unfinished_of_mem (fun _ h => (of_decide_eq_true h).1) ht
    exact ⟨held_of_find hfind, hd⟩
  | sweepNext env i => exact h.sweepNext env i
  | startFetch userId taskId =>
    simp only [Tasks.step]
    split
    · exact h
    · next t ht =>
      exact ⟨h.booked, h.unknown, h.passes, h.sweeps,
        Run.forall_mem_concat h.fetches (held_of_find (find_of_getByTaskId ht))⟩
  | finishFetch env i answer => exact h.finishFetch hok

end

def initial : TaskSystem := { rows := Table.empty }

theorem Inv.initial : Inv initial := by
  refine ⟨?_, fun _ _ => rfl, ?_, ?_, ?_⟩
  · intro id r hr
    cases hr
  all_goals simp [Tasks.initial]

def sampleTask : Task :=
  { id := 1, taskId := "task_a", platform := .other "kling", userId := 1, channelId := 7, quota := 100
    submitTime := 1800000000, privateData := { upstreamTaskId := "up-1", tokenId := 1 } }

def sampleEnv : PollEnv := ⟨1800000600, 10, fun id => id⟩

end AiGateway.Tasks
