import AiGateway.TaskPass
import AiGateway.TaskSwap
import Mathlib.Data.List.Perm.Basic

/-! The requests of a polling pass, and the tasks that take over the answers. -/
namespace AiGateway.Tasks

open List Function Option

/-- What a pass depends on besides its tasks: the keys of the channels that can be read,
and whether the platform has an adaptor. -/
structure Upstream where
  channel : Int → Option String
  adaptor : Bool

def Upstream.reads (up : Upstream) (channelId : Int) : Bool := up.adaptor ∧ (up.channel channelId).isSome

structure Query where
  channelId : Int
  key : String
  upstreamId : String
deriving DecidableEq

/-- The request for a task on a channel: the key of the task goes before that of the channel. -/
def Subject.query (s : Subject) (channelId : Int) (key : String) : Query :=
  ⟨channelId, if s.key ≠ "" then s.key else key, s.upstreamId⟩

def ownQuery (up : Upstream) (t : Task) : Query :=
  t.subject.query t.channelId ((up.channel t.channelId).getD "")

def asks (up : Upstream) (i : ℕ) (x : TaskSystem) : Action → List (Query × Int)
  | .pollVideo _ j channelId upstreamId _ =>
    if j ≠ i then []
    else ((up.channel channelId).bind (fun key => (videoTask x i channelId upstreamId).map (fun t =>
      (t.subject.query channelId key, t.id)))).toList
  | _ => []

def applies (i : ℕ) (x : TaskSystem) : Action → List (SunoDataResponse × List Int)
  | .pollSuno j item => if j ≠ i then [] else [(item, (sunoTask x i item).toList.map Task.id)]
  | _ => []

def pollEntry (i : ℕ) : Action → Option (Int × String)
  | .pollVideo _ j channelId upstreamId _ => if j ≠ i then none else some (channelId, upstreamId)
  | _ => none

def sunoItem (i : ℕ) : Action → Option SunoDataResponse
  | .pollSuno j item => if j ≠ i then none else some item
  | _ => none

/-- Pass `i` is carried out in the run. The channels are polled side by side, each one's
tasks in their order; a channel that cannot be read is not polled. -/
structure VideoRun (up : Upstream) (p : Pass) (i : ℕ) (actions : List Action) : Prop where
  polls : ∀ c, (actions.filterMap (pollEntry i)).filter (fun e => e.1 = c) =
    p.pending.filter (fun e => e.1 = c ∧ up.reads c)
  channels : ∀ c, .failChannel i c ∈ actions → up.channel c = none

/-- The answers of a Suno pass, each with the channel it came from. They are about tasks
that the channel was asked for. -/
structure SunoRun (up : Upstream) (p : Pass) (i : ℕ) (answers : List (Int × SunoDataResponse))
    (actions : List Action) : Prop where
  items : actions.filterMap (sunoItem i) = answers.map Prod.snd
  asked : ∀ e ∈ answers, (e.1, e.2.taskId) ∈ p.pending ∧ up.reads e.1 = true

structure SunoRequest where
  channelId : Int
  key : String
  ids : List String

def taskChannelM (p : Pass) (channelId : Int) : List String :=
  (p.pending.filter (fun e => e.1 = channelId)).map Prod.snd

def sunoRequests (up : Upstream) (p : Pass) : List SunoRequest :=
  if up.adaptor then (p.pending.map Prod.fst).dedup.filterMap (fun c =>
    (up.channel c).map (fun key => ⟨c, key, taskChannelM p c⟩))
  else []

def SunoRequest.queries (r : SunoRequest) : List Query :=
  r.ids.map (fun u => ⟨r.channelId, r.key, u⟩)

theorem recalculateCall_subject (t : Task) (actualQuota : Int) :
    (recalculateCall t actualQuota).1.subject = t.subject := by
  unfold recalculateCall
  split <;> rfl

theorem settle_subject (a : VideoAnswer) (info : TaskInfo) (t : Task) :
    (settleTaskBillingOnComplete a info t).1.subject = t.subject := by
  unfold settleTaskBillingOnComplete
  split
  · rfl
  split
  · exact recalculateCall_subject t _
  split
  · split
    · rfl
    · exact recalculateCall_subject t _
  · rfl

theorem billResult_subject (a : VideoAnswer) (info : TaskInfo) (t : Task) :
    (billResult a info t).1.subject = t.subject := by
  unfold billResult
  split
  · exact settle_subject a info t
  · rfl
  · rfl

theorem updateVideoSingleTask_subject (env : PollEnv) (a : VideoAnswer) (t : Task) (rows : Rows) :
    (updateVideoSingleTask env a t rows).1.subject = t.subject := by
  unfold updateVideoSingleTask
  split
  · rfl
  · dsimp only
    split
    · rfl
    · next info _ =>
      split
      · rfl
      · next t' happ =>
        have hs := applyResult_subject happ
        have hbill := (billResult_subject a info t').trans hs
        split <;> split <;> first | exact hs | exact hbill

theorem updateSunoTask_subject (t : Task) (item : SunoDataResponse) (rows : Rows) :
    (updateSunoTask t item rows).1.subject = t.subject := by
  unfold updateSunoTask
  split <;> rfl

/-- Two states of one pass: the tasks behind the upstream ids are the same ones. -/
def SamePass (p q : Pass) : Prop :=
  q.platform = p.platform ∧ ∀ u, (q.taskM u).map Task.subject = (p.taskM u).map Task.subject

theorem SamePass.refl (p : Pass) : SamePass p p := ⟨rfl, fun _ => rfl⟩

variable {p : Pass} {up : Upstream} {e : Int × String}

theorem SamePass.trans {q r : Pass} (h : SamePass p q) (h' : SamePass q r) : SamePass p r :=
  ⟨h'.1.trans h.1, fun u => (h'.2 u).trans (h.2 u)⟩

theorem samePass_setTask {u : String} {t t' : Task} (ht : p.taskM u = some t)
    (hs : t'.subject = t.subject) : SamePass p (setTask p u t') := by
  refine ⟨rfl, ?_⟩
  intro v
  by_cases hv : v = u
  · subst hv
    change (update p.taskM v (some t') v).map Task.subject = _
    rw [update_self, ht, map_some, map_some, hs]
  · change (update p.taskM u (some t') v).map Task.subject = _
    rw [update_of_ne hv]

def pendingAfter (i : ℕ) (x : TaskSystem) (pending : List (Int × String)) : Action → List (Int × String)
  | .pollVideo _ j channelId upstreamId _ =>
    if j = i ∧ (videoTask x i channelId upstreamId).isSome then pending.erase (channelId, upstreamId) else pending
  | .failChannel j channelId => if j = i then pending.filter (fun e => e.1 ≠ channelId) else pending
  | _ => pending

variable {x : TaskSystem} {i : ℕ} {a : Action}

/-- One step, seen from a pass: it may take over an answer or lose entries, and the tasks
behind its upstream ids stay the same ones. -/
theorem pass_step (hp : x.passes[i]? = some p) (a : Action) :
    ∃ q, (step x a).passes[i]? = some q ∧ SamePass p q ∧ q.pending = pendingAfter i x p.pending a := by
  have hi : i < x.passes.length := (List.getElem?_eq_some_iff.mp hp).1
  -- A step of pass `j` replaces that pass by `f` of it.
  have hset {j : ℕ} {q : Pass} (f : Pass → Pass) (hj : x.passes[j]? = some q) (hs : SamePass q (f q)) :
      ∃ q', (x.passes.set j (f q))[i]? = some q' ∧ SamePass p q' ∧
        q'.pending = if j = i then (f p).pending else p.pending := by
    by_cases he : j = i
    · subst he
      rw [hp] at hj
      cases hj
      exact ⟨f p, getElem?_set_self hi, hs, (if_pos rfl).symm⟩
    · rw [getElem?_set_ne he, if_neg he]
      exact ⟨p, hp, .refl p, rfl⟩
  have hsame : ∃ q, x.passes[i]? = some q ∧ SamePass p q ∧ q.pending = p.pending := ⟨p, hp, .refl p, rfl⟩
  cases a with
  | submit => exact hsame
  | startPoll =>
    refine ⟨p, ?_, .refl p, rfl⟩
    change (x.passes ++ _)[i]? = some p
    rw [getElem?_append_left hi, hp]
  | startSweep => exact hsame
  | failNull j =>
    simp only [step, pendingAfter]
    cases hj : x.passes[j]? with
    | none => exact hsame
    | some q =>
      obtain ⟨q', hq', hs, hpend⟩ := hset (fun q => { q with nullTaskIds := [] }) hj ⟨rfl, fun _ => rfl⟩
      exact ⟨q', hq', hs, hpend.trans (ite_self _)⟩
  | failChannel j c =>
    simp only [step, pendingAfter]
    cases hj : x.passes[j]? with
    | none =>
      have he : j ≠ i := by
        rintro rfl
        rw [hp] at hj
        cases hj
      rw [if_neg he]
      exact hsame
    | some q =>
      exact hset (fun q => { q with pending := q.pending.filter (fun e => e.1 ≠ c) }) hj ⟨rfl, fun _ => rfl⟩
  | pollSuno j item =>
    simp only [pendingAfter]
    cases ht : sunoTask x j item with
    | none =>
      rw [step_pollSuno_none ht]
      exact hsame
    | some t =>
      obtain ⟨q, hj, _, htask, hstep⟩ := step_pollSuno_some ht
      obtain ⟨q', hq', hs, hpend⟩ :=
        hset (fun q => setTask q item.taskId (updateSunoTask t item x.rows).1) hj
          (samePass_setTask htask (updateSunoTask_subject t item x.rows))
      rw [hstep]
      exact ⟨q', hq', hs, hpend.trans (ite_self _)⟩
  | pollVideo env j c u answer =>
    simp only [pendingAfter]
    cases ht : videoTask x j c u with
    | none =>
      have he : ¬ (j = i ∧ (videoTask x i c u).isSome = true) := by
        rintro ⟨rfl, hsome⟩
        rw [ht] at hsome
        cases hsome
      rw [step_pollVideo_none ht, if_neg he]
      exact hsame
    | some t =>
      obtain ⟨q, hj, _, _, htask, hstep⟩ := step_pollVideo_some ht env answer
      have hs := samePass_setTask htask (updateVideoSingleTask_subject env answer t x.rows)
      obtain ⟨q', hq', hs, hpend⟩ := hset (fun q => { setTask q u (updateVideoSingleTask env answer t x.rows).1 with
        pending := q.pending.erase (c, u) }) hj ⟨hs.1, hs.2⟩
      have he : (j = i ∧ (videoTask x i c u).isSome = true) ↔ j = i := by
        refine ⟨fun h => h.1, ?_⟩
        rintro rfl
        rw [ht]
        exact ⟨rfl, rfl⟩
      rw [hstep]
      simp only [he]
      exact ⟨q', hq', hs, hpend⟩
  -- The other steps leave the passes alone.
  | _ =>
    simp only [step, pendingAfter]
    split <;> exact hsame

def entryQuery (up : Upstream) (p : Pass) (e : Int × String) : List (Query × Int) :=
  ((up.channel e.1).bind (fun key => (p.taskM e.2).map (fun t => (t.subject.query e.1 key, t.id)))).toList

theorem entryQuery_congr {q : Pass} (h : SamePass p q) (e : Int × String) : entryQuery up q e = entryQuery up p e := by
  have hmap (r : Pass) (key : String) : (r.taskM e.2).map (fun t => (t.subject.query e.1 key, t.id)) =
      ((r.taskM e.2).map Task.subject).map (fun s => (s.query e.1 key, s.id)) := by
    rw [Option.map_map]
    rfl
  simp only [entryQuery, hmap, h.2 e.2]

theorem asks_eq_nil (h : pollEntry i a = none) : asks up i x a = [] := by
  cases a with
  | pollVideo env j =>
    have he : j ≠ i := by
      intro he
      simp [pollEntry, he] at h
    rw [asks, if_pos he]
  | _ => rfl

theorem action_of_pollEntry (h : pollEntry i a = some e) : ∃ env answer, a = .pollVideo env i e.1 e.2 answer := by
  cases a with
  | pollVideo env j c u answer =>
    by_cases he : j = i
    · simp only [pollEntry, he, ne_eq, not_true_eq_false, if_false, some.injEq] at h
      subst h he
      exact ⟨env, answer, rfl⟩
    · simp [pollEntry, he] at h
  | _ => cases h

theorem count_pendingAfter {pending : List (Int × String)}
    (h : pollEntry i a = none) (hchannel : ∀ c, a = .failChannel i c → up.channel c = none)
    (he : (up.channel e.1).isSome = true) : (pendingAfter i x pending a).count e = pending.count e := by
  cases a with
  | pollVideo env j =>
    have hji : j ≠ i := by
      intro hji
      simp [pollEntry, hji] at h
    rw [pendingAfter, if_neg (fun hc => hji hc.1)]
  | failChannel j c =>
    rw [pendingAfter]
    by_cases hji : j = i
    · have hne : e.1 ≠ c := by
        rintro rfl
        rw [hchannel e.1 (by rw [hji])] at he
        cases he
      rw [if_pos hji, count_filter (by simpa using hne)]
    · rw [if_neg hji]
  | _ => rfl

theorem count_pendingAfter_poll (i : ℕ) (x : TaskSystem) (pending : List (Int × String)) (env : PollEnv)
    (e : Int × String) (answer : VideoAnswer) (e' : Int × String) : pending.count e' ≤
      (pendingAfter i x pending (.pollVideo env i e.1 e.2 answer)).count e'+(if e = e' then 1 else 0) := by
  rw [pendingAfter]
  split
  · rw [count_erase]
    by_cases he : e = e'
    · simp [he]
      omega
    · simp [he]
  · omega

theorem videoTask_of_pending (hp : x.passes[i]? = some p)
    (hsuno : p.platform ≠ .suno) (hmj : p.platform ≠ .midjourney) (he : e ∈ p.pending) :
    videoTask x i e.1 e.2 = p.taskM e.2 := by
  simp [videoTask, hp, hsuno, hmj, he]

theorem trace_asks {p₀ : Pass} (hsuno : p₀.platform ≠ .suno)
    (hmj : p₀.platform ≠ .midjourney) (actions : List Action) (x : TaskSystem) (p : Pass)
    (hp : x.passes[i]? = some p) (hsame : SamePass p₀ p)
    (hread : ∀ e ∈ actions.filterMap (pollEntry i), (up.channel e.1).isSome = true)
    (hleft : ∀ e, (up.channel e.1).isSome = true → (actions.filterMap (pollEntry i)).count e ≤ p.pending.count e)
    (hchannels : ∀ c, .failChannel i c ∈ actions → up.channel c = none) :
    Run.trace step (asks up i) x actions = (actions.filterMap (pollEntry i)).flatMap (entryQuery up p₀) := by
  -- The invariant: the pass still has every entry that the rest of the run polls, and has it
  -- as often as it is polled.
  induction actions generalizing x p with
  | nil => rfl
  | cons a actions ih =>
    obtain ⟨q, hq, hpq, hpend⟩ := pass_step hp a
    have hchannels' (c : Int) (hc : .failChannel i c ∈ actions) : up.channel c = none :=
      hchannels c (mem_cons_of_mem a hc)
    rw [Run.trace]
    cases hentry : pollEntry i a with
    | none =>
      rw [filterMap_cons_none hentry] at hread hleft ⊢
      rw [asks_eq_nil hentry, nil_append]
      refine ih (step x a) q hq (hsame.trans hpq) hread ?_ hchannels'
      intro e he
      rw [hpend, count_pendingAfter hentry (fun c hc => hchannels c (hc ▸ mem_cons_self)) he]
      exact hleft e he
    | some e =>
      obtain ⟨env, answer, rfl⟩ := action_of_pollEntry hentry
      rw [filterMap_cons_some hentry] at hread hleft ⊢
      -- The entry has not been struck out before.
      have hmem : e ∈ p.pending := by
        have hone := hleft e (hread e mem_cons_self)
        rw [count_cons_self] at hone
        exact count_pos_iff.mp (by omega)
      have hask : asks up i x (.pollVideo env i e.1 e.2 answer) = entryQuery up p₀ e := by
        rw [← entryQuery_congr hsame, asks, if_neg (by simp),
          videoTask_of_pending hp (hsame.1 ▸ hsuno) (hsame.1 ▸ hmj) hmem]
        rfl
      rw [hask, flatMap_cons]
      congr 1
      refine ih _ q hq (hsame.trans hpq) (fun e' he' => hread e' (mem_cons_of_mem e he')) ?_ hchannels'
      intro e' he'
      have hall := hleft e' he'
      have hone := count_pendingAfter_poll i x p.pending env e answer e'
      rw [count_cons] at hall
      rw [hpend]
      by_cases hee : e = e'
      · simp only [hee, beq_self_eq_true, if_true] at hall hone ⊢
        omega
      · simp only [beq_iff_eq, hee, if_false] at hall hone ⊢
        omega

theorem action_of_sunoItem {item : SunoDataResponse} (h : sunoItem i a = some item) : a = .pollSuno i item := by
  cases a with
  | pollSuno j =>
    by_cases he : j = i
    · simp only [sunoItem, he, ne_eq, not_true_eq_false, if_false, some.injEq] at h
      rw [h, he]
    · simp [sunoItem, he] at h
  | _ => cases h

theorem applies_eq_nil (h : sunoItem i a = none) : applies i x a = [] := by
  cases a with
  | pollSuno j =>
    have he : j ≠ i := by
      intro he
      simp [sunoItem, he] at h
    rw [applies, if_pos he]
  | _ => rfl

theorem trace_applies {p₀ : Pass} (hsuno : p₀.platform = .suno) (actions : List Action) (x : TaskSystem)
    (p : Pass) (hp : x.passes[i]? = some p) (hsame : SamePass p₀ p) :
    Run.trace step (applies i) x actions = (actions.filterMap (sunoItem i)).map (fun item =>
      (item, (p₀.taskM item.taskId).toList.map Task.id)) := by
  have hids (q : Pass) (u : String) : (q.taskM u).toList.map Task.id =
      ((q.taskM u).map Task.subject).toList.map Subject.id := by
    cases q.taskM u <;> rfl
  -- No step changes whose task stands behind an id, so the pass may be any later state of it.
  induction actions generalizing x p with
  | nil => rfl
  | cons a actions ih =>
    obtain ⟨q, hq, hpq, _⟩ := pass_step hp a
    rw [Run.trace, ih (step x a) q hq (hsame.trans hpq)]
    cases hitem : sunoItem i a with
    | none => rw [filterMap_cons_none hitem, applies_eq_nil hitem, nil_append]
    | some item =>
      have htask : sunoTask x i item = p.taskM item.taskId := by
        simp [sunoTask, hp, hsame.1, hsuno]
      rw [filterMap_cons_some hitem, map_cons, action_of_sunoItem hitem, applies, if_neg (by simp), htask,
        hids p, hsame.2, ← hids p₀]
      rfl

end AiGateway.Tasks
