import AiGateway.BatchUpdate

/-! No delta is dropped or applied twice: what the database lacks is in a store, in a run
that has not written it, or was in a write that failed. -/
namespace AiGateway.Batch

open List Function

theorem recorded_append (rs rs' : List Record) (t : BatchType) (id : Int) :
    recorded (rs ++ rs') t id = recorded rs t id+recorded rs' t id := by
  simp [recorded]

theorem recorded_singleton (r : Record) (t : BatchType) (id : Int) :
    recorded [r] t id = if r.type = t ∧ r.id = id then r.value else 0 := by
  by_cases h : r.type = t ∧ r.id = id <;> simp [recorded, h]

theorem recorded_dropped (run : BatchRun) (target : Target) (key : Int) (t : BatchType) (id : Int) :
    recorded (run.dropped target key) t id = if t ∈ target.types ∧ id = key then (run.stores t).get key else 0 := by
  by_cases hid : id = key
  · subst hid
    cases target <;> cases t <;> simp [recorded, BatchRun.dropped, Target.types]
  · have hnone : (run.dropped target key).filter (fun r => r.type = t ∧ r.id = id) = [] := by
      rw [filter_eq_nil_iff]
      intro r hr
      obtain ⟨_, _, rfl⟩ := mem_map.mp hr
      simp [Ne.symm hid]
    rw [recorded, hnone, if_neg (fun h => hid h.2)]
    rfl

theorem get_drop (s : Stores) (target : Target) (key : Int) (t : BatchType) (id : Int) :
    (s.drop target key t).get id = (s t).get id-if t ∈ target.types ∧ id = key then (s t).get key else 0 := by
  unfold Stores.drop
  by_cases ht : t ∈ target.types
  · rw [if_pos ht, Tally.get_delete]
    by_cases hid : id = key
    · rw [if_pos hid, if_pos ⟨ht, hid⟩, hid, sub_self]
    · rw [if_neg hid, if_neg (fun h => hid h.2), sub_zero]
  · rw [if_neg ht, if_neg (fun h => ht h.1), sub_zero]

variable {n : ℕ}

theorem inFlight_set {runs : List BatchRun} {run : BatchRun} (h : runs[n]? = some run) (run' : BatchRun)
    (t : BatchType) (id : Int) :
    inFlight (runs.set n run') t id = inFlight runs t id-(run.stores t).get id+(run'.stores t).get id := by
  obtain ⟨hn, rfl⟩ := List.getElem?_eq_some_iff.mp h
  have hlen : n < (runs.map (fun run => (run.stores t).get id)).length := by simpa using hn
  rw [inFlight, map_set, sum_set', dif_pos hlen, getElem_map]
  unfold inFlight
  omega

def Phase.cleared : Phase → List BatchType
  | .check _ => BatchType.all
  | .swap rest => rest
  | .write .tokens => []
  | .write .channels => Target.types .tokens
  | .write .users => Target.types .tokens ++ Target.types .channels
  | .done => BatchType.all

structure RunInv (run : BatchRun) : Prop where
  cleared : ∀ t ∈ run.phase.cleared, (run.stores t).rows = []
  nodup : ∀ rest, run.phase = .swap rest → rest.Nodup

def outstanding (x : System) (t : BatchType) (id : Int) : Int :=
  (x.stores t).get id+inFlight x.runs t id+recorded x.failed t id

structure Conserved (db : Db) (x : System) : Prop where
  runs : ∀ run ∈ x.runs, RunInv run
  value : ∀ t id, x.db.value t id = (db.value t id).map (fun v => v+recorded x.records t id-outstanding x t id)
  tokens : ∀ id, (x.db.tokens.find id).map (fun r => r.remainQuota+r.usedQuota) =
    (db.tokens.find id).map (fun r => r.remainQuota+r.usedQuota)

section Steps

variable {db : Db} {x : System}

theorem Conserved.initial (db : Db) : Conserved db (System.initial db) := by
  refine ⟨nofun, ?_, fun _ => rfl⟩
  intro t id
  simp [System.initial, outstanding, Stores.empty, inFlight, recorded]

section
variable (h : Conserved db x)
include h

theorem Conserved.move {x' : System} (hdb : x'.db = x.db) (hrecords : x'.records = x.records)
    (hruns : ∀ run ∈ x'.runs, RunInv run) (hout : ∀ t id, outstanding x' t id = outstanding x t id) :
    Conserved db x' := by
  refine ⟨hruns, ?_, ?_⟩
  · intro t id
    rw [hdb, h.value t id, hrecords, hout]
  · intro id
    rw [hdb]
    exact h.tokens id

theorem Conserved.addNewRecord (r : Record) : Conserved db (step x (.addNewRecord r)) := by
  refine ⟨h.runs, ?_, h.tokens⟩
  intro t id
  have hout : outstanding (step x (.addNewRecord r)) t id = outstanding x t id+recorded [r] t id := by
    simp only [outstanding, step, recorded_singleton]
    by_cases ht : r.type = t
    · subst ht
      rw [update_self, Tally.get_add]
      simp only [true_and, eq_comm]
      omega
    · rw [update_of_ne (Ne.symm ht), if_neg (fun hc => ht hc.1), add_zero]
  rw [hout]
  simp only [step, h.value t id, recorded_append]
  congr 1
  funext v
  omega

theorem Conserved.start : Conserved db (step x .start) := by
  refine h.move rfl rfl (Run.forall_mem_concat h.runs ⟨fun _ _ => rfl, nofun⟩) ?_
  intro t id
  simp [outstanding, step, inFlight, Stores.empty]

theorem Conserved.set {run : BatchRun} (hrun : x.runs[n]? = some run) {run' : BatchRun}
    (hstores : run'.stores = run.stores) (hinv : RunInv run') : Conserved db (x.set n run') := by
  refine h.move rfl rfl (Run.forall_mem_set h.runs hinv n) ?_
  intro t id
  simp only [outstanding, System.set, inFlight_set hrun, hstores]
  omega

theorem Conserved.swap {run : BatchRun} (hrun : x.runs[n]? = some run) {t : BatchType}
    {rest : List BatchType} (hphase : run.phase = .swap (t :: rest)) :
    Conserved db (({ x with stores := Function.update x.stores t .empty } : System).set n
      ⟨.swap rest, Function.update run.stores t (x.stores t)⟩) := by
  have hinv := h.runs run (mem_of_getElem? hrun)
  have hcleared : ∀ t' ∈ t :: rest, (run.stores t').rows = [] := by
    intro t' ht'
    apply hinv.cleared
    rw [hphase]
    exact ht'
  obtain ⟨hnotin, hnodup⟩ := nodup_cons.mp (hinv.nodup _ hphase)
  have hrest : RunInv ⟨.swap rest, update run.stores t (x.stores t)⟩ := by
    refine ⟨?_, ?_⟩
    · intro t' ht'
      have hne : t' ≠ t := fun he => hnotin (he ▸ ht')
      simp only [update_of_ne hne]
      exact hcleared t' (mem_cons_of_mem _ ht')
    · intro rest' he
      cases he
      exact hnodup
  refine h.move rfl rfl (Run.forall_mem_set h.runs hrest n) ?_
  intro t' id
  simp only [outstanding, System.set, inFlight_set hrun]
  by_cases ht : t' = t
  · -- The run held nothing of this kind, so it now holds what the store held.
    subst ht
    rw [update_self, update_self, Tally.get_empty, Tally.get_of_rows_nil (hcleared t' mem_cons_self)]
    omega
  · rw [update_of_ne ht, update_of_ne ht]
    omega

end

theorem RunInv.drop {run : BatchRun} (h : RunInv run) (target : Target) (key : Int) :
    RunInv { run with stores := run.stores.drop target key } := by
  refine ⟨?_, h.nodup⟩
  intro t ht
  have hempty := h.cleared t ht
  simp only [Stores.drop]
  split
  · simp [Table.delete, hempty]
  · exact hempty

theorem Conserved.flush (h : Conserved db x) {run : BatchRun} (hrun : x.runs[n]? = some run)
    (target : Target) (key : Int) :
    Conserved db (({ x with db := target.write key (fun t => (run.stores t).get key) x.db } : System).set n
      { run with stores := run.stores.drop target key }) := by
  have hinv := h.runs run (mem_of_getElem? hrun)
  refine ⟨Run.forall_mem_set h.runs (hinv.drop target key) n, ?_, ?_⟩
  · intro t id
    simp only [System.set, value_write, h.value t id, outstanding, inFlight_set hrun, get_drop, Option.map_map]
    congr 1
    funext v
    simp only [comp_apply]
    omega
  · intro id
    exact (token_total_write target key _ id).trans (h.tokens id)

theorem Conserved.fail (h : Conserved db x) {run : BatchRun} (hrun : x.runs[n]? = some run)
    (target : Target) (key : Int) :
    Conserved db (({ x with failed := x.failed ++ run.dropped target key } : System).set n
      { run with stores := run.stores.drop target key }) := by
  have hinv := h.runs run (mem_of_getElem? hrun)
  refine h.move rfl rfl (Run.forall_mem_set h.runs (hinv.drop target key) n) ?_
  intro t id
  simp only [outstanding, System.set, inFlight_set hrun, get_drop, recorded_append, recorded_dropped]
  omega

theorem RunInv.next {run : BatchRun} (h : RunInv run) {target : Target} (hphase : run.phase = .write target)
    (hempty : run.isEmpty target) : RunInv { run with phase := target.next } := by
  have hall (t : BatchType) (ht : t ∈ target.types) : (run.stores t).rows = [] := by
    simpa using all_eq_true.mp hempty t ht
  refine ⟨?_, ?_⟩
  · intro t ht
    cases target with
    | tokens => exact hall t ht
    | channels =>
      rcases mem_append.mp ht with hold | hnew
      · exact h.cleared t (by rw [hphase]; exact hold)
      · exact hall t hnew
    | users =>
      by_cases hu : t ∈ Target.types .users
      · exact hall t hu
      · apply h.cleared
        rw [hphase]
        cases t <;> first | exact absurd (by decide) hu | decide
  · intro rest he
    cases target <;> cases he

theorem Conserved.advance (h : Conserved db x) {run : BatchRun} (hrun : x.runs[n]? = some run) (key : Int)
    (fails : Bool) : Conserved db (advance x n run key fails) := by
  have hinv := h.runs run (mem_of_getElem? hrun)
  unfold Batch.advance
  split
  · next hphase =>
    exact h.set hrun rfl ⟨fun t ht => hinv.cleared t (by rw [hphase]; exact ht), nofun⟩
  · next t rest hphase =>
    have hcleared (t' : BatchType) : (run.stores t').rows = [] :=
      hinv.cleared t' (by rw [hphase]; exact t'.mem_all)
    split
    · exact h.set hrun rfl ⟨fun t' _ => hcleared t', nofun⟩
    · refine h.set hrun rfl ⟨fun t' _ => hcleared t', ?_⟩
      intro rest' he
      cases he
      decide
  · exact h.set hrun rfl ⟨nofun, nofun⟩
  · next t rest hphase => exact h.swap hrun hphase
  · next target hphase =>
    split
    · next hempty => exact h.set hrun rfl (hinv.next hphase hempty)
    · split
      · simp only
        split
        · exact h.fail hrun target key
        · exact h.flush hrun target key
      · exact h
  · exact h

theorem Conserved.step (h : Conserved db x) (a : Action) : Conserved db (step x a) := by
  cases a with
  | addNewRecord r => exact h.addNewRecord r
  | start => exact h.start
  | batchUpdate n key fails =>
    simp only [Batch.step]
    split
    · exact h
    · next run hrun => exact h.advance hrun key fails

theorem Conserved.run (db : Db) (as : List Action) : Conserved db (Run.exec Batch.step (System.initial db) as) :=
  Run.exec_invariant_all (Conserved db) (fun _ a hx => hx.step a) _ as (Conserved.initial db)

theorem Conserved.value_some (h : Conserved db x) {t : BatchType} {id v : Int} (hv : db.value t id = some v) :
    ∃ v', x.db.value t id = some v' ∧
      v'+(x.stores t).get id+inFlight x.runs t id = v+recorded x.records t id-recorded x.failed t id := by
  have hvalue := h.value t id
  rw [hv, Option.map_some] at hvalue
  refine ⟨_, hvalue, ?_⟩
  rw [outstanding]
  omega

end Steps

end AiGateway.Batch
