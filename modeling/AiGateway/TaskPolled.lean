import AiGateway.TaskAsk
import Mathlib.Algebra.BigOperators.Group.List.Basic
import Mathlib.Data.List.Dedup

/-! Whether a polling pass asks for each of its tasks as itself. -/
namespace AiGateway.Tasks

open List Table

def pollable (tasks : List Task) : List Task := tasks.filter hasUpstreamId

def owner (tasks : List Task) (t : Task) : Task := (lastWith tasks (getUpstreamTaskId t)).getD t

variable {tasks : List Task} {t : Task} {up : Upstream} {actions : List Action}

theorem lastWith_owner (ht : t ∈ pollable tasks) : lastWith tasks (getUpstreamTaskId t) = some (owner tasks t) := by
  rw [pollable, mem_filter] at ht
  obtain ⟨_, ht'⟩ := lastWith_isSome ht.1 ht.2
  rw [owner, ht', Option.getD_some]

theorem owner_self (hids : (tasks.map Task.id).Nodup) (h : DistinctUpstream tasks)
    (ht : t ∈ pollable tasks) : owner tasks t = t := by
  obtain ⟨hmem, hup, he⟩ := lastWith_spec (lastWith_owner ht)
  exact h.eq hids hmem (mem_filter.mp ht).1 hup he

theorem owner_eq {a b : Task} (ha : a ∈ tasks) (hb : b ∈ tasks) (hup : hasUpstreamId a = true)
    (he : getUpstreamTaskId a = getUpstreamTaskId b) :
    a ∈ pollable tasks ∧ b ∈ pollable tasks ∧ owner tasks a = owner tasks b := by
  have hup' : hasUpstreamId b = true := by
    rw [hasUpstreamId, ← he]
    exact hup
  have hma : a ∈ pollable tasks := mem_filter.mpr ⟨ha, hup⟩
  have hmb : b ∈ pollable tasks := mem_filter.mpr ⟨hb, hup'⟩
  refine ⟨hma, hmb, ?_⟩
  have hlast := lastWith_owner hmb
  rw [← he, lastWith_owner hma] at hlast
  exact Option.some.inj hlast

theorem distinct_of_nodup_owner (h : ((pollable tasks).map (fun t => (owner tasks t).id)).Nodup) :
    DistinctUpstream tasks := by
  intro a ha b hb hup he
  obtain ⟨hma, hmb, howner⟩ := owner_eq ha hb hup he
  rw [inj_on_of_nodup_map h hma hmb (congrArg Task.id howner)]

/-- Every task that is asked for has a channel that can be read, and an adaptor. -/
def Readable (up : Upstream) (tasks : List Task) : Prop := ∀ t ∈ pollable tasks, up.reads t.channelId = true

theorem Upstream.channel_of_reads {c : Int} (h : up.reads c = true) : up.channel c = some ((up.channel c).getD "") := by
  simp only [Upstream.reads, decide_eq_true_eq] at h
  obtain ⟨_, hkey⟩ := Option.isSome_iff_exists.mp h.2
  rw [hkey, Option.getD_some]

theorem VideoRun.perm {p : Pass} {i : ℕ} (h : VideoRun up p i actions) :
    (actions.filterMap (pollEntry i)).Perm (p.pending.filter (fun e => up.reads e.1)) := by
  -- An entry is polled as often as it is pending, since its channel polls it that often.
  rw [perm_iff_count]
  intro e
  calc (actions.filterMap (pollEntry i)).count e
      = ((actions.filterMap (pollEntry i)).filter (fun e' => e'.1 = e.1)).count e := by
        rw [count_filter (by simp)]
    _ = (p.pending.filter (fun e' => e'.1 = e.1 ∧ up.reads e.1)).count e := by rw [h.polls]
    _ = (p.pending.filter (fun e' => up.reads e'.1)).count e := by
      cases hr : up.reads e.1 with
      | true => rw [count_filter (by simp), count_filter (by simpa using hr)]
      | false =>
        have hzero (q : Int × String → Bool) (hq : q e = false) : (p.pending.filter q).count e = 0 := by
          rw [count_eq_zero, mem_filter, hq]
          simp
        rw [hzero _ (by simp), hzero _ hr]

def askedFor (up : Upstream) (tasks : List Task) : List (Query × Int) :=
  ((pollable tasks).filter (fun t => up.reads t.channelId)).map (fun t =>
    ((owner tasks t).subject.query t.channelId ((up.channel t.channelId).getD ""), (owner tasks t).id))

variable {x : TaskSystem}

theorem VideoRun.trace_perm {platform : TaskPlatform} {i : ℕ}
    (h : VideoRun up (buildPass platform tasks) i actions) (hsuno : platform ≠ .suno)
    (hmj : platform ≠ .midjourney) (hp : x.passes[i]? = some (buildPass platform tasks)) :
    (Run.trace step (asks up i) x actions).Perm (askedFor up tasks) := by
  have hplat := (buildPass_held platform tasks).1
  have hperm := h.perm
  have hread (e : Int × String) (he : e ∈ actions.filterMap (pollEntry i)) : up.reads e.1 = true :=
    (mem_filter.mp (hperm.mem_iff.mp he)).2
  have htrace : Run.trace step (asks up i) x actions =
      (actions.filterMap (pollEntry i)).flatMap (entryQuery up (buildPass platform tasks)) := by
    apply trace_asks (by rw [hplat]; exact hsuno) (by rw [hplat]; exact hmj) actions x _ hp (.refl _)
    · intro e he
      rw [up.channel_of_reads (hread e he)]
      rfl
    · intro e _
      rw [hperm.count_eq]
      exact filter_sublist.count_le e
    · exact h.channels
  rw [htrace]
  apply (hperm.flatMap_right _).trans
  have hentry (t : Task) (ht : t ∈ (pollable tasks).filter (fun t => up.reads t.channelId)) :
      entryQuery up (buildPass platform tasks) (t.channelId, getUpstreamTaskId t) =
        [((owner tasks t).subject.query t.channelId ((up.channel t.channelId).getD ""), (owner tasks t).id)] := by
    rw [mem_filter] at ht
    rw [entryQuery, buildPass_taskM, lastWith_owner ht.1, up.channel_of_reads ht.2]
    rfl
  rw [buildPass_pending, filter_map, flatMap_map, askedFor, map_eq_flatMap]
  exact .of_eq (flatMap_congr hentry)

theorem readable_of_perm {β : Type} {f g : Task → β} (h : (((pollable tasks).filter
    (fun t => up.reads t.channelId)).map f).Perm ((pollable tasks).map g)) : Readable up tasks := by
  have hlen := h.length_eq
  rw [length_map, length_map, length_filter_eq_length_iff] at hlen
  exact hlen

theorem askedFor_perm_iff (hids : (tasks.map Task.id).Nodup) :
    (askedFor up tasks).Perm ((pollable tasks).map (fun t => (ownQuery up t, t.id))) ↔
      DistinctUpstream tasks ∧ Readable up tasks := by
  constructor
  · intro h
    -- No task is left out, so every channel can be read.
    have hread : Readable up tasks := readable_of_perm h
    refine ⟨?_, hread⟩
    -- The owners are the tasks in another order, so no two tasks share one.
    apply distinct_of_nodup_owner
    have hall : (pollable tasks).filter (fun t => up.reads t.channelId) = pollable tasks :=
      filter_eq_self.mpr hread
    have hmap := h.map Prod.snd
    rw [askedFor, hall, map_map, map_map] at hmap
    have hown : ((pollable tasks).map Task.id).Nodup := hids.sublist (filter_sublist.map _)
    exact hmap.nodup_iff.mpr hown
  · rintro ⟨hdistinct, hread⟩
    rw [askedFor, filter_eq_self.mpr hread]
    apply List.Perm.of_eq
    apply map_congr_left
    intro t ht
    rw [owner_self hids hdistinct ht]
    rfl

theorem group_perm {α β : Type*} [DecidableEq β] (f : α → β) (keys : List β) (l : List α) (hnodup : keys.Nodup)
    (hmem : ∀ a ∈ l, f a ∈ keys) : (keys.flatMap (fun k => l.filter (fun a => f a = k))).Perm l := by
  -- The group of the first key comes off, and the rest is grouped by the others.
  induction keys generalizing l with
  | nil =>
    have hl : l = [] := eq_nil_iff_forall_not_mem.mpr (fun a ha => by cases hmem a ha)
    rw [hl, flatMap_nil]
  | cons k keys ih =>
    rw [nodup_cons] at hnodup
    have hrest : keys.flatMap (fun k' => l.filter (fun a => f a = k')) =
        keys.flatMap (fun k' => (l.filter (fun a => ¬ f a = k)).filter (fun a => f a = k')) := by
      apply flatMap_congr
      intro k' hk'
      rw [filter_filter]
      apply filter_congr
      intro a _
      have hne (he : f a = k') : ¬ f a = k := by
        rintro rfl
        exact hnodup.1 (he ▸ hk')
      by_cases he : f a = k'
      · simp [he, he ▸ hne he]
      · simp [he]
    have hih : (keys.flatMap (fun k' => (l.filter (fun a => ¬ f a = k)).filter (fun a => f a = k'))).Perm
        (l.filter (fun a => ¬ f a = k)) := by
      apply ih _ hnodup.2
      intro a ha
      rw [mem_filter, decide_eq_true_eq] at ha
      exact (mem_cons.mp (hmem a ha.1)).resolve_left ha.2
    rw [flatMap_cons, hrest]
    apply (hih.append_left _).trans
    simpa using filter_append_perm (fun a => decide (f a = k)) l

theorem sunoRequests_perm (p : Pass) : ((sunoRequests up p).flatMap SunoRequest.queries).Perm
      ((p.pending.filter (fun e => up.reads e.1)).map (fun e => ⟨e.1, (up.channel e.1).getD "", e.2⟩)) := by
  cases hadaptor : up.adaptor with
  | false =>
    have hread (c : Int) : up.reads c = false := by simp [Upstream.reads, hadaptor]
    simp [sunoRequests, hadaptor, hread]
  | true =>
    have hgroup := group_perm Prod.fst (p.pending.map Prod.fst).dedup (p.pending.filter (fun e => up.reads e.1))
      (nodup_dedup _) (by
        intro e he
        exact mem_dedup.mpr (mem_map_of_mem (mem_of_mem_filter he)))
    refine List.Perm.trans (.of_eq ?_) (hgroup.map _)
    rw [sunoRequests, if_pos hadaptor, filterMap_eq_flatMap_toList, flatMap_assoc, map_flatMap]
    apply flatMap_congr
    intro c _
    -- The request of one channel.
    have hfilter : (p.pending.filter (fun e => up.reads e.1)).filter (fun e => e.1 = c) =
        p.pending.filter (fun e => e.1 = c ∧ up.reads c) := by
      rw [filter_filter]
      apply filter_congr
      intro e _
      by_cases he : e.1 = c <;> simp [he]
    rw [hfilter]
    cases hc : up.channel c with
    | none => simp [Upstream.reads, hc]
    | some =>
      simp only [Upstream.reads, hadaptor, hc, Option.isSome_some, and_true, decide_true]
      rw [Option.map_some, Option.toList_some, flatMap_cons, flatMap_nil, append_nil,
        SunoRequest.queries, taskChannelM, map_map]
      apply map_congr_left
      intro e he
      have hec : e.1 = c := by simpa using (mem_filter.mp he).2
      simp [hec, hc]

/-- A Suno pass asks for each task as itself, and hands each item of each answer to the task
that the channel was asked for. -/
structure SunoAsItself (up : Upstream) (tasks : List Task) : Prop where
  asked : ((sunoRequests up (buildPass .suno tasks)).flatMap SunoRequest.queries).Perm
    ((pollable tasks).map (ownQuery up))
  applied : ∀ i x answers actions, x.passes[i]? = some (buildPass .suno tasks) →
    SunoRun up (buildPass .suno tasks) i answers actions →
    Run.trace step (applies i) x actions = answers.map (fun e =>
      (e.2, ((pollable tasks).filter (fun t => t.channelId = e.1 ∧ getUpstreamTaskId t = e.2.taskId)).map Task.id))

/-- No task has a key that its channel does not have. -/
def KeyOfChannel (up : Upstream) (tasks : List Task) : Prop :=
  ∀ t ∈ pollable tasks, t.privateData.key = "" ∨ up.channel t.channelId = some t.privateData.key

theorem sunoAsked_perm : ((sunoRequests up (buildPass .suno tasks)).flatMap SunoRequest.queries).Perm
      (((pollable tasks).filter (fun t => up.reads t.channelId)).map (fun t =>
        ⟨t.channelId, (up.channel t.channelId).getD "", getUpstreamTaskId t⟩)) := by
  apply (sunoRequests_perm _).trans
  rw [buildPass_pending, filter_map, map_map]
  exact .refl _

theorem applied_trace {i : ℕ} {answers : List (Int × SunoDataResponse)}
    (hp : x.passes[i]? = some (buildPass .suno tasks))
    (h : SunoRun up (buildPass .suno tasks) i answers actions) :
    Run.trace step (applies i) x actions =
      answers.map (fun e => (e.2, (lastWith tasks e.2.taskId).toList.map Task.id)) := by
  rw [trace_applies (buildPass_held .suno tasks).1 actions x _ hp (.refl _), h.items, map_map]
  apply map_congr_left
  intro e _
  rw [Function.comp_apply, buildPass_taskM]

theorem filter_upstream (hids : (tasks.map Task.id).Nodup) (hdistinct : DistinctUpstream tasks)
    (ht : t ∈ pollable tasks) :
    (pollable tasks).filter (fun t' => t'.channelId = t.channelId ∧ getUpstreamTaskId t' = getUpstreamTaskId t) =
      [t] := by
  have hnodup : (pollable tasks).Nodup := (List.Nodup.of_map _ hids).filter _
  rw [← perm_singleton]
  apply (perm_ext_iff_of_nodup (hnodup.filter _) (nodup_singleton t)).mpr
  intro t'
  rw [mem_filter, mem_singleton, decide_eq_true_eq]
  constructor
  · rintro ⟨ht', _, he⟩
    obtain ⟨hmem, hup⟩ := mem_filter.mp ht'
    exact hdistinct.eq hids hmem (mem_filter.mp ht).1 hup he
  · rintro rfl
    exact ⟨ht, rfl, rfl⟩

theorem distinct_of_sunoAsItself (h : SunoAsItself up tasks) (hread : Readable up tasks) : DistinctUpstream tasks := by
  -- The answer to a task is taken over by the last task with its id, and has to be by itself.
  have howner (t : Task) (ht : t ∈ pollable tasks) : t.id = (owner tasks t).id := by
    let item : SunoDataResponse := { taskId := getUpstreamTaskId t }
    let x : TaskSystem := { rows := empty, passes := [buildPass .suno tasks] }
    have hrun : SunoRun up (buildPass .suno tasks) 0 [(t.channelId, item)] [.pollSuno 0 item] := by
      refine ⟨rfl, ?_⟩
      intro e he
      rw [mem_singleton] at he
      subst he
      rw [buildPass_pending]
      exact ⟨mem_map.mpr ⟨t, ht, rfl⟩, hread t ht⟩
    have htrace := h.applied 0 x _ _ rfl hrun
    rw [applied_trace (x := x) rfl hrun, map_singleton, map_singleton, singleton_inj, Prod.mk.injEq] at htrace
    have hmem : t.id ∈ ((pollable tasks).filter (fun t' => t'.channelId = t.channelId ∧
        getUpstreamTaskId t' = getUpstreamTaskId t)).map Task.id :=
      mem_map_of_mem (mem_filter.mpr ⟨ht, by simp⟩)
    rw [← htrace.2, lastWith_owner ht, Option.toList_some, map_singleton, mem_singleton] at hmem
    exact hmem
  intro a ha b hb hup he
  obtain ⟨hma, hmb, hsame⟩ := owner_eq ha hb hup he
  calc a.id = (owner tasks a).id := howner a hma
    _ = (owner tasks b).id := by rw [hsame]
    _ = b.id := (howner b hmb).symm

theorem sunoAsItself_iff (hids : (tasks.map Task.id).Nodup) :
    SunoAsItself up tasks ↔ DistinctUpstream tasks ∧ Readable up tasks ∧ KeyOfChannel up tasks := by
  constructor
  · intro h
    have hperm := (sunoAsked_perm).symm.trans h.asked
    have hread : Readable up tasks := readable_of_perm hperm
    have hdistinct := distinct_of_sunoAsItself h hread
    refine ⟨hdistinct, hread, ?_⟩
    intro t ht
    -- The request for the task is the own request of a task with the same id, so of itself.
    have hmem := hperm.mem_iff.mp (mem_map_of_mem (mem_filter.mpr ⟨ht, hread t ht⟩))
    obtain ⟨t', ht', hq⟩ := mem_map.mp hmem
    simp only [ownQuery, Subject.query, Query.mk.injEq] at hq
    obtain ⟨hm', hup'⟩ := mem_filter.mp ht'
    have he : t' = t := hdistinct.eq hids hm' (mem_filter.mp ht).1 hup' hq.2.2
    subst he
    by_cases hk : t'.privateData.key = ""
    · exact .inl hk
    · right
      have hk' : t'.subject.key ≠ "" := hk
      rw [up.channel_of_reads (hread t' ht), ← hq.2.1, if_pos hk']
      rfl
  · rintro ⟨hdistinct, hread, hkey⟩
    refine ⟨?_, ?_⟩
    · apply (sunoAsked_perm).trans
      rw [filter_eq_self.mpr hread]
      apply List.Perm.of_eq
      apply map_congr_left
      intro t ht
      rcases hkey t ht with hk | hk
      · simp [ownQuery, Subject.query, Task.subject, hk]
      · by_cases hk' : t.privateData.key = ""
        · simp [ownQuery, Subject.query, Task.subject, hk']
        · simp [ownQuery, Subject.query, Task.subject, hk, hk']
    · intro i x answers actions hp hrun
      rw [applied_trace hp hrun]
      apply map_congr_left
      intro e he
      have hpend := (hrun.asked e he).1
      rw [buildPass_pending] at hpend
      obtain ⟨_, ht, het⟩ := mem_map.mp hpend
      rw [Prod.mk.injEq] at het
      rw [← het.1, ← het.2, filter_upstream hids hdistinct ht, lastWith_owner ht, owner_self hids hdistinct ht]
      rfl

def polledTask (x : TaskSystem) : Action → Option Task
  | .pollVideo _ i channelId upstreamId _ => videoTask x i channelId upstreamId
  | .pollSuno i item => sunoTask x i item
  | _ => none

variable {id : Int}

theorem find_updateWithStatus {rows : Rows} {fromStatus : TaskStatus} (h : id ≠ t.id) :
    (updateWithStatus rows t fromStatus).2.find id = rows.find id := by
  rcases updateWithStatus_cases rows t fromStatus with ⟨_, hw⟩ | hw
  · rw [hw, find_save_of_ne rows h]
  · rw [hw]

theorem Billed.callsOf_other {calls : List BillingCall} (h : Billed t calls) (hid : id ≠ t.id) :
    Tasks.callsOf calls id = [] := by
  rw [h.callsOf, if_neg (fun he => hid he.symm)]

theorem updateVideoSingleTask_others (env : PollEnv) (a : VideoAnswer) (rows : Rows) (hid : id ≠ t.id) :
    (updateVideoSingleTask env a t rows).2.1.find id = rows.find id ∧
      callsOf (updateVideoSingleTask env a t rows).2.2 id = [] := by
  cases hp : polled env a t with
  | none =>
    rw [updateVideoSingleTask_dropped hp]
    exact ⟨rfl, rfl⟩
  | some r =>
    obtain ⟨_, t'⟩ := r
    obtain ⟨_, hsame, hstatus⟩ := polled_spec hp
    have hid' : id ≠ t'.id := hsame.id ▸ hid
    constructor
    · rw [updateVideoSingleTask_rows hp]
      split
      · rfl
      · exact find_updateWithStatus hid'
    · rcases updateVideoSingleTask_calls hp rows with hc | hc
      · rw [hc]
        rfl
      · rw [hc]
        exact (billed_result hstatus).callsOf_other hid'

theorem updateSunoTask_others (item : SunoDataResponse) (rows : Rows) (hid : id ≠ t.id) :
    (updateSunoTask t item rows).2.1.find id = rows.find id ∧ callsOf (updateSunoTask t item rows).2.2 id = [] := by
  have hid' : id ≠ (sunoUpdated t item).id := hid
  unfold updateSunoTask
  split
  · refine ⟨find_save_of_ne rows hid', ?_⟩
    dsimp only
    split
    · exact callsOf_refundCall hid'
    · rfl
  · exact ⟨rfl, rfl⟩

theorem poll_others {a : Action} (h : polledTask x a = some t) (hid : id ≠ t.id) :
    (step x a).rows.find id = x.rows.find id ∧ callsOf (step x a).calls id = callsOf x.calls id := by
  cases a with
  | pollVideo env i c u answer =>
    obtain ⟨_, _, _, _, _, hstep⟩ := step_pollVideo_some h env answer
    obtain ⟨hrows, hcalls⟩ := updateVideoSingleTask_others env answer x.rows hid
    rw [hstep]
    exact ⟨hrows, by rw [callsOf_append, hcalls, append_nil]⟩
  | pollSuno i item =>
    obtain ⟨_, _, _, _, hstep⟩ := step_pollSuno_some h
    obtain ⟨hrows, hcalls⟩ := updateSunoTask_others item x.rows hid
    rw [hstep]
    exact ⟨hrows, by rw [callsOf_append, hcalls, append_nil]⟩
  | _ => cases h

/-- A pass asks for each task once, through its own channel and key, and hands the answers to the tasks they were
asked for, exactly when the upstream ids are distinct and the channels can be read; a Suno pass has to use the
channels' keys. -/
theorem polled_as_itself_iff (platform : TaskPlatform) (tasks : List Task) (hids : (tasks.map Task.id).Nodup)
    (up : Upstream) : (platform ≠ .suno → platform ≠ .midjourney → ∀ i x actions,
      x.passes[i]? = some (buildPass platform tasks) → VideoRun up (buildPass platform tasks) i actions →
        ((Run.trace step (asks up i) x actions).Perm ((pollable tasks).map (fun t => (ownQuery up t, t.id))) ↔
          DistinctUpstream tasks ∧ Readable up tasks)) ∧
    (SunoAsItself up tasks ↔ DistinctUpstream tasks ∧ Readable up tasks ∧ KeyOfChannel up tasks) ∧
    ∀ x a t id, polledTask x a = some t → id ≠ t.id →
      (step x a).rows.find id = x.rows.find id ∧ callsOf (step x a).calls id = callsOf x.calls id := by
  refine ⟨?_, sunoAsItself_iff hids, fun x a t id ht hid => poll_others ht hid⟩
  intro hsuno hmj i x actions hp hrun
  have hperm := hrun.trace_perm hsuno hmj hp
  rw [← askedFor_perm_iff hids]
  exact ⟨fun h => hperm.symm.trans h, fun h => hperm.trans h⟩

def otherTask : Task :=
  { sampleTask with
    id := 2, taskId := "task_b", userId := 2, channelId := 8, privateData := { upstreamTaskId := "up-2" } }

def sampleUpstream : Upstream := ⟨fun c => if c = 7 then some "key7" else some "key8", true⟩

theorem polled_as_itself_iff_sample :
    let tasks := [sampleTask, otherTask]
    let answer : VideoAnswer := { result := some { status := .inProgress } }
    let x : TaskSystem := { rows := empty, passes := [buildPass (.other "kling") tasks] }
    let actions : List Action := [.pollVideo sampleEnv 0 8 "up-2" answer, .pollVideo sampleEnv 0 7 "up-1" answer]
    (Run.trace step (asks sampleUpstream 0) x actions).Perm [(⟨7, "key7", "up-1"⟩, 1),
      (⟨8, "key8", "up-2"⟩, 2)] ∧
      SunoAsItself sampleUpstream tasks := by
  intro tasks answer x actions
  obtain ⟨hvideo, hsuno, _⟩ := polled_as_itself_iff (.other "kling") tasks (by decide) sampleUpstream
  have hdistinct : DistinctUpstream tasks := by decide
  have hreads (c : Int) : sampleUpstream.reads c = true := by
    by_cases hc : c = 7 <;> simp [sampleUpstream, Upstream.reads, hc]
  have hread : Readable sampleUpstream tasks := fun t _ => hreads t.channelId
  have hkey : KeyOfChannel sampleUpstream tasks := by
    intro t ht
    left
    have hall : ∀ t ∈ pollable tasks, t.privateData.key = "" := by decide
    exact hall t ht
  have hrun : VideoRun sampleUpstream (buildPass (.other "kling") tasks) 0 actions := by
    refine ⟨?_, ?_⟩
    · intro c
      have hpolls : actions.filterMap (pollEntry 0) = [(8, "up-2"), (7, "up-1")] := rfl
      have hpending : (buildPass (.other "kling") tasks).pending = [(7, "up-1"), (8, "up-2")] := by decide
      rw [hpolls, hpending]
      simp only [hreads, and_true]
      by_cases h7 : c = 7
      · subst h7
        rfl
      · by_cases h8 : c = 8
        · subst h8
          rfl
        · simp [Ne.symm h7, Ne.symm h8]
    · intro c hc
      simp [actions] at hc
  exact ⟨(hvideo (by decide) (by decide) 0 x actions rfl hrun).mpr ⟨hdistinct, hread⟩,
    hsuno.mpr ⟨hdistinct, hread, hkey⟩⟩

/-- Two tasks with one upstream id: the second is asked for on both channels and refunded for the failure of the
first, which is never asked for. In a Suno pass the answer of the first channel goes to the second task as well. -/
theorem one_upstream_id_two_tasks :
    let first := { sampleTask with privateData := { upstreamTaskId := "up", key := "k1" } }
    let second := { otherTask with privateData := { upstreamTaskId := "up", key := "k2" } }
    let rows : Rows := ⟨[first, second], by decide⟩
    let x : TaskSystem := { rows := rows, passes := [buildPass (.other "kling") [first, second]] }
    let actions : List Action :=
      [.pollVideo sampleEnv 0 7 "up" { result := some { status := .failure } },
        .pollVideo sampleEnv 0 8 "up" { result := some { status := .success } }]
    let y := Run.exec step x actions
    let suno : TaskSystem := { rows := rows, passes := [buildPass .suno [first, second]] }
    Run.trace step (asks sampleUpstream 0) x actions = [(⟨7, "k2", "up"⟩, 2), (⟨8, "k2", "up"⟩, 2)] ∧
      y.rows.rows.map Task.status = [.notStart, .success] ∧ (refundsOf y.calls 2).length = 1 ∧
      Run.trace step (applies 0) suno [.pollSuno 0 { taskId := "up", status := .failure }] =
        [({ taskId := "up", status := .failure }, [2])] := by
  decide

end AiGateway.Tasks
