import AiGateway.TaskRefund
import Mathlib.Data.List.Induction

/-! What a polling pass is made of. -/
namespace AiGateway.Tasks

open List

def hasUpstreamId (t : Task) : Bool := getUpstreamTaskId t ≠ ""

def lastWith (tasks : List Task) (upstreamId : String) : Option Task :=
  tasks.reverse.find? (fun t => hasUpstreamId t ∧ getUpstreamTaskId t = upstreamId)

variable (platform : TaskPlatform)

theorem buildPass_append (tasks : List Task) (t : Task) :
    buildPass platform (tasks ++ [t]) = addTask (buildPass platform tasks) t :=
  foldl_append

theorem buildPass_pending (tasks : List Task) : (buildPass platform tasks).pending =
      (tasks.filter hasUpstreamId).map (fun t => (t.channelId, getUpstreamTaskId t)) := by
  induction tasks using reverseRecOn with
  | nil => rfl
  | append_singleton tasks t ih =>
    rw [buildPass_append, filter_append, map_append, ← ih]
    by_cases hu : getUpstreamTaskId t = "" <;> simp [addTask, hasUpstreamId, hu]

theorem buildPass_taskM (tasks : List Task) (u : String) :
    (buildPass platform tasks).taskM u = lastWith tasks u := by
  induction tasks using reverseRecOn with
  | nil => rfl
  | append_singleton tasks t ih =>
    rw [buildPass_append, lastWith, reverse_append, reverse_singleton, singleton_append, find?_cons]
    by_cases hu : getUpstreamTaskId t = ""
    · -- The task goes to the null tasks and the map stays as it is.
      simp only [addTask, hasUpstreamId, hu, if_true, ne_eq, not_true_eq_false, decide_false, Bool.false_eq_true,
        false_and]
      exact ih
    · by_cases hv : getUpstreamTaskId t = u
      · simp [addTask, hasUpstreamId, hv, hv ▸ hu]
      · have hne : u ≠ getUpstreamTaskId t := fun he => hv he.symm
        simp only [addTask, hu, if_false, hv, and_false, decide_false, Function.update_of_ne hne]
        exact ih

variable {tasks : List Task}

theorem lastWith_spec {u : String} {t : Task} (h : lastWith tasks u = some t) :
    t ∈ tasks ∧ hasUpstreamId t = true ∧ getUpstreamTaskId t = u := by
  have hp := find?_some h
  rw [decide_eq_true_eq] at hp
  exact ⟨mem_reverse.mp (mem_of_find?_eq_some h), hp⟩

theorem lastWith_isSome {t : Task} (ht : t ∈ tasks) (hu : hasUpstreamId t = true) :
    ∃ t', lastWith tasks (getUpstreamTaskId t) = some t' := by
  rw [← Option.isSome_iff_exists, lastWith, find?_isSome]
  exact ⟨t, mem_reverse.mpr ht, by simp [hu]⟩

/-- Of two tasks no one is asked for under the upstream id of the other. -/
def DistinctUpstream (tasks : List Task) : Prop :=
  ∀ a ∈ tasks, ∀ b ∈ tasks, hasUpstreamId a = true → getUpstreamTaskId a = getUpstreamTaskId b → a.id = b.id

instance (tasks : List Task) : Decidable (DistinctUpstream tasks) :=
  inferInstanceAs (Decidable (∀ a ∈ tasks, ∀ b ∈ tasks, _))

theorem DistinctUpstream.eq (h : DistinctUpstream tasks) (hids : (tasks.map Task.id).Nodup) {a b : Task}
    (ha : a ∈ tasks) (hb : b ∈ tasks) (hup : hasUpstreamId a = true)
    (he : getUpstreamTaskId a = getUpstreamTaskId b) : a = b :=
  inj_on_of_nodup_map hids ha hb (h a ha b hb hup he)

theorem nodup_upstream (hids : (tasks.map Task.id).Nodup) (h : DistinctUpstream tasks) :
    ((tasks.filter hasUpstreamId).map getUpstreamTaskId).Nodup := by
  have hnodup : tasks.Nodup := List.Nodup.of_map _ hids
  rw [nodup_map_iff_inj_on (hnodup.filter _)]
  intro a ha b hb he
  rw [mem_filter] at ha hb
  exact h.eq hids ha.1 hb.1 ha.2 he

theorem nodup_ids_getAll (rows : Rows) (limit : ℕ) : ((getAllUnFinishSyncTasks rows limit).map Task.id).Nodup := by
  have hfilter : ((rows.rows.filter (fun t => unfinished t)).map Task.id).Nodup :=
    rows.unique.sublist (filter_sublist.map _)
  have hsort : (((rows.rows.filter (fun t => unfinished t)).insertionSort
      (fun a b => a.id ≤ b.id)).map Task.id).Nodup :=
    ((perm_insertionSort _ _).map _).nodup_iff.mpr hfilter
  exact hsort.sublist ((take_sublist _ _).map _)

end AiGateway.Tasks
