import AiGateway.SystemTaskDiscipline

/-! Recovery of a type after the lease of its lock has ended. -/
namespace AiGateway.SysTask

open Interleave (System)
open List Run

def Begun (db : Db) (taskID : String) : Prop := ∃ r ∈ db.tasks.rows, r.taskID = taskID ∧ r.status ≠ .pending

variable {db : Db} {taskID : String}

theorem Begun.apply (h : Begun db taskID) (w : Write) : Begun (w.apply db) taskID := by
  obtain ⟨r, hr, rfl, hp⟩ := h
  obtain ⟨r', hr', hs⟩ := w.keeps_task hr
  refine ⟨r', hr', hs.taskID, ?_⟩
  -- No statement makes a task pending again.
  intro hpending
  cases Write.row hr' with
  | kept hold =>
    rw [Tasks.eq_of_taskID hold hr hs.taskID] at hpending
    exact hp hpending
  | created =>
    have hid := Tasks.lt_nextID hr
    have heq : db.tasks.nextID = r.id := hs.id
    omega
  | marked | running => cases hpending
  | state old hold =>
    rw [Tasks.eq_of_taskID hold hr hs.taskID] at hpending
    exact hp hpending
  | @finished _ _ status _ _ _ old hold hq =>
    have hactive := status.2
    have hs : status.1 = .pending := hpending
    rw [hs] at hactive
    cases hactive

theorem Begun.marked (h : Begun db taskID) : Done ((Write.markLeaseExpired taskID).apply db) taskID := by
  obtain ⟨r, hr, ht, hp⟩ := h
  cases hs : r.status with
  | pending => exact absurd hs hp
  | running =>
    refine ⟨(setLeaseExpired db.clock).set r, ?_, ht, rfl⟩
    refine Tasks.mem_updateWhere.mpr ⟨r, hr, ?_⟩
    simp [Tasks.written, isRunning_iff.mpr ⟨ht, hs⟩]
  | succeeded | failed => exact Done.apply ⟨r, hr, ht, by rw [hs]; rfl⟩ _

def Pc.sweeps : Pc → List SystemTaskLock
  | .expireMark _ lock rest => lock :: rest
  | .expireDelete _ _ rest => rest
  | _ => []

theorem sweeps_expireNext (now : Int) (locks : List SystemTaskLock) : (Pc.expireNext now locks).sweeps = locks := by
  cases locks <;> rfl

/-- The task is done, or the sweep has still to come to it, or the sweep has failed. -/
def Clearing (i : ℕ) (taskID : String) (x : System Db Pc) : Prop :=
  Begun x.shared taskID ∧ (Done x.shared taskID ∨ ∃ pc, x.procs[i]? = some pc ∧
    ((∃ lock ∈ pc.sweeps, lock.taskID = taskID) ∨ ∃ e, pc = .returned (.done (some e))))

theorem begun_next (h : Begun db taskID) (pc : Pc) (fails : Bool) : Begun (next pc db fails).1 taskID :=
  next_keeps (P := fun db => Begun db taskID) h (fun w _ => h.apply w) fails

theorem done_next (h : Done db taskID) (pc : Pc) (fails : Bool) : Done (next pc db fails).1 taskID :=
  next_keeps (P := fun db => Done db taskID) h (fun w _ => h.apply w) fails

theorem sweep_next (hb : Begun db taskID) {pc : Pc} {fails : Bool}
    (h : (∃ lock ∈ pc.sweeps, lock.taskID = taskID) ∨ ∃ e, pc = .returned (.done (some e))) :
    Done (next pc db fails).1 taskID ∨ (∃ lock ∈ (next pc db fails).2.sweeps, lock.taskID = taskID) ∨
      ∃ e, (next pc db fails).2 = .returned (.done (some e)) := by
  rcases h with ⟨lock, hlock, ht⟩ | ⟨e, rfl⟩
  · cases pc with
    | expireMark =>
      cases fails with
      | true => exact .inr (.inr ⟨.database, rfl⟩)
      | false =>
        rcases mem_cons.mp hlock with rfl | hrest
        · exact .inl (ht ▸ (ht ▸ hb : Begun db lock.taskID).marked)
        · exact .inr (.inl ⟨lock, hrest, ht⟩)
    | expireDelete now head rest =>
      cases fails with
      | true => exact .inr (.inr ⟨.database, rfl⟩)
      | false =>
        right
        left
        refine ⟨lock, ?_, ht⟩
        change lock ∈ (Pc.expireNext now rest).sweeps
        rw [sweeps_expireNext]
        exact hlock
    | _ => cases hlock
  · exact .inr (.inr ⟨e, rfl⟩)

theorem Clearing.step {i : ℕ} {x : System Db Pc} (h : Clearing i taskID x) (a : Action) :
    Clearing i taskID (machine.step x a) := by
  obtain ⟨hb, hrest⟩ := h
  cases a with
  | call =>
    refine ⟨hb, ?_⟩
    rcases hrest with hd | ⟨pc, hpc, hsweep⟩
    · exact .inl hd
    · refine .inr ⟨pc, ?_, hsweep⟩
      obtain ⟨hlt, _⟩ := List.getElem?_eq_some_iff.mp hpc
      exact (getElem?_append_left hlt).trans hpc
  | env => exact ⟨hb, hrest⟩
  | run j fails =>
    cases hj : x.procs[j]? with
    | none =>
      rw [Interleave.Machine.step_run_none fails hj]
      exact ⟨hb, hrest⟩
    | some pc' =>
      rw [Interleave.Machine.step_run fails hj]
      refine ⟨begun_next hb pc' fails, ?_⟩
      rcases hrest with hd | ⟨pc, hpc, hsweep⟩
      · exact .inl (done_next hd pc' fails)
      · by_cases hji : j = i
        · subst hji
          cases hj.symm.trans hpc
          obtain ⟨hlt, _⟩ := List.getElem?_eq_some_iff.mp hj
          rcases sweep_next hb hsweep with hd | hnext
          · exact .inl hd
          · exact .inr ⟨_, getElem?_set_self hlt, hnext⟩
        · exact .inr ⟨pc, (getElem?_set_ne hji).trans hpc, hsweep⟩

theorem done_of_sweep {x : System Db Pc} {r : SystemTask} {l : SystemTaskLock} {i : ℕ} {now : Int}
    (hr : r ∈ x.shared.tasks.rows) (hrun : r.status = .running) (hl : x.shared.locks.find r.type = some l)
    (ht : l.taskID = r.taskID) (hi : x.procs[i]? = some (.expireSelect now)) (hexp : l.lockedUntil < now)
    (bs : List Action) (hret : (exec machine.step x (.run i false :: bs)).procs[i]? = some (.returned (.done none))) :
    Done (exec machine.step x (.run i false :: bs)).shared r.taskID := by
  have hbegun : Begun x.shared r.taskID := ⟨r, hr, rfl, by rw [hrun]; exact fun h => by cases h⟩
  have hfirst : Clearing i r.taskID (machine.step x (.run i false)) := by
    obtain ⟨hlt, _⟩ := List.getElem?_eq_some_iff.mp hi
    rw [Interleave.Machine.step_run false hi]
    refine ⟨hbegun, .inr ⟨_, getElem?_set_self hlt, .inl ⟨l, ?_, ht⟩⟩⟩
    change l ∈ (Pc.expireNext now (x.shared.locks.rows.filter (fun l => l.lockedUntil < now))).sweeps
    rw [sweeps_expireNext]
    exact mem_filter.mpr ⟨((Table.find_some_iff _ _ _).mp hl).1, by simpa using hexp⟩
  have hall : Clearing i r.taskID (exec machine.step x (.run i false :: bs)) :=
    exec_invariant_all (Clearing i r.taskID) (fun _ a hx => hx.step a) _ bs hfirst
  rcases hall.2 with hd | ⟨_, hpc, hsweep⟩
  · exact hd
  · rw [hret] at hpc
    cases hpc
    rcases hsweep with ⟨_, hlock, _⟩ | ⟨_, he⟩
    · cases hlock
    · cases he

/-- The type is scheduled again already, or a new task of it is accepted. -/
def Schedulable (db : Db) (ty : String) : Prop :=
  (∃ r ∈ db.tasks.rows, r.type = ty ∧ r.status.active = true) ∨
    ∀ taskID payloadText stateText, taskID ∉ db.tasks.rows.map SystemTask.taskID →
      (Write.insertTask taskID ty payloadText stateText).affects db = true

theorem Consistent.schedulable (h : Consistent db) (ty : String) : Schedulable db ty := by
  by_cases hactive : ∃ r ∈ db.tasks.rows, r.type = ty ∧ r.status.active = true
  · exact .inl hactive
  right
  intro taskID payloadText stateText hfresh
  refine decide_eq_true ⟨?_, hfresh, ?_⟩
  · intro hid
    obtain ⟨r, hr, he⟩ := mem_map.mp hid
    have hlt := Tasks.lt_nextID hr
    have heq : r.id = db.tasks.nextID := he
    omega
  · intro k hk hin
    -- Only an active row of the type has the key.
    cases hk
    obtain ⟨r, hr, hkey⟩ := mem_filterMap.mp hin
    apply hactive
    cases hs : r.status.active with
    | false => exact absurd (h.idle r hr hs) (by simp [hkey])
    | true =>
      have hty := h.active r hr hs
      rw [hkey, Option.some.injEq] at hty
      exact ⟨r, hr, hty.symm, hs⟩

/-- Under the lease discipline each running task is named by the lock of its type, and a sweep that finds the lock
expired has taken the task out of `running` when it returns. -/
theorem running_tasks_named (clock : Int) (as : List Action) (hok : Along machine.step leaseOk.Ok (initial clock) as) :
    ∀ r ∈ (exec machine.step (initial clock) as).shared.tasks.rows, r.status = .running →
      ∃ l, (exec machine.step (initial clock) as).shared.locks.find r.type = some l ∧ l.taskID = r.taskID ∧
        ∀ (i : ℕ) (now : Int) (bs : List Action),
          (exec machine.step (initial clock) as).procs[i]? = some (.expireSelect now) → l.lockedUntil < now →
          (exec machine.step (initial clock) (as ++ .run i false :: bs)).procs[i]? = some (.returned (.done none)) →
          Done (exec machine.step (initial clock) (as ++ .run i false :: bs)).shared r.taskID ∧
            Schedulable (exec machine.step (initial clock) (as ++ .run i false :: bs)).shared r.type := by
  intro r hr hrun
  obtain ⟨l, hl, ht⟩ := (leases_run clock as hok).shared.2 r hr hrun
  refine ⟨l, hl, ht, ?_⟩
  intro i now bs hi hexp hret
  have htables := (bookkeeping_run clock (as ++ .run i false :: bs)).shared
  refine ⟨?_, htables.schedulable r.type⟩
  rw [exec_append] at hret ⊢
  exact done_of_sweep hr hrun hl ht hi hexp bs hret

instance (db : Db) (c : Call) : Decidable (leaseOk.call db c) := by
  cases c <;> dsimp only [leaseOk] <;> infer_instance

instance (db : Db) (pc : Pc) (fails : Bool) : Decidable (leaseOk.run db pc fails) := by
  cases pc <;> dsimp only [leaseOk] <;> infer_instance

instance (x : System Db Pc) (a : Action) : Decidable (leaseOk.Ok x a) :=
  leaseOk.decideOk inferInstance inferInstance (fun _ _ => .isTrue trivial) x a

/-- A claim in time, then nothing until the lease is over, and the call of a sweep. -/
def abandonedTask : List Action :=
  claimedTask ++ [.env 11, .call (.expireStaleSystemTaskLocks 11)]

theorem running_tasks_named_abandoned : Along machine.step leaseOk.Ok (initial 0) abandonedTask ∧
      ∀ r ∈ (exec machine.step (initial 0) abandonedTask).shared.tasks.rows, r.status = .running →
        ∃ l, (exec machine.step (initial 0) abandonedTask).shared.locks.find r.type = some l ∧
          l.taskID = r.taskID := by
  refine ⟨by decide, ?_⟩
  intro r hr hrun
  obtain ⟨l, hl, ht, _⟩ := running_tasks_named 0 abandonedTask (by decide) r hr hrun
  exact ⟨l, hl, ht⟩

/-- A claim takes the lock until 10 and stalls. At 11 a sweep finds the lock expired and the
task still pending, and deletes the lock. The claim goes on and sets the task running. -/
def stalledClaim : List Action :=
  [.call (.createSystemTask "systask_1" "log_cleanup" "" ""), .run 0 false,
    .call (.claimSystemTask 1 "log_cleanup" "runner_a" 10), .run 1 false, .run 1 false, .env 11,
    .call (.expireStaleSystemTaskLocks 11), .run 2 false, .run 2 false, .run 2 false, .run 1 false]

/-- The task runs, and no lock names it or any other. -/
theorem stalled_claim_orphans_task :
    ¬ ∀ (clock : Int) (as : List Action), ∀ r ∈ (exec machine.step (initial clock) as).shared.tasks.rows,
      r.status = .running → ∃ l, (exec machine.step (initial clock) as).shared.locks.find r.type = some l ∧
        l.taskID = r.taskID := by
  intro h
  have hrow : ∃ r ∈ (exec machine.step (initial 0) stalledClaim).shared.tasks.rows, r.status = .running := by
    decide
  obtain ⟨r, hr, hrun⟩ := hrow
  obtain ⟨_, hl, _⟩ := h 0 stalledClaim r hr hrun
  have hnone : (exec machine.step (initial 0) stalledClaim).shared.locks.rows = [] := by
    decide
  have hmem := ((Table.find_some_iff _ _ _).mp hl).1
  rw [hnone] at hmem
  cases hmem

end AiGateway.SysTask
