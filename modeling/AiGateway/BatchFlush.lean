import AiGateway.BatchConserve
import Mathlib.Algebra.Order.Group.Nat

/-! A `batchUpdate` that has the stores to itself writes everything that is pending, so that
the database is as if no update had been batched. -/
namespace AiGateway.Batch

open List Function

def Phase.waiting : Phase → List BatchType
  | .check rest => rest
  | .swap rest => rest
  | _ => []

/-- The system `y` while its `n`-th run, started in `x`, is the only one at work. -/
structure Solo (x : System) (n : ℕ) (y : System) (run : BatchRun) : Prop where
  own : y.runs[n]? = some run
  others : ∀ m other, m ≠ n → y.runs[m]? = some other → other.phase = .done
  swapped : ∀ t, t ∉ run.phase.waiting → (y.stores t).rows = []
  records : y.records = x.records
  failed : y.failed = x.failed

def System.Idle (x : System) : Prop := ∀ run ∈ x.runs, run.phase = .done

instance (x : System) : Decidable x.Idle := inferInstanceAs (Decidable (∀ run ∈ x.runs, _))

def Sections (n : ℕ) (bs : List Action) : Prop := ∀ b ∈ bs, ∃ key, b = .batchUpdate n key false

section Alone

variable {x y : System} {n : ℕ} {run : BatchRun}

theorem Solo.start (h : x.Idle) : Solo x x.runs.length (step x .start) ⟨.check BatchType.all, .empty⟩ := by
  refine ⟨by simp [step], ?_, fun t ht => absurd t.mem_all ht, rfl, rfl⟩
  intro m other hm hother
  have hlt : m < x.runs.length := by
    have hbound := (List.getElem?_eq_some_iff.mp hother).1
    simp only [step, length_append, length_singleton] at hbound
    omega
  simp only [step, getElem?_append_left hlt] at hother
  exact h other (mem_of_getElem? hother)

variable {db : Db}

theorem Solo.set (h : Solo x n y run) (db : Db) (stores : Stores) (run' : BatchRun)
    (hswapped : ∀ t, t ∉ run'.phase.waiting → (stores t).rows = []) :
    Solo x n (({ y with db := db, stores := stores } : System).set n run') run' := by
  have hn : n < y.runs.length := (List.getElem?_eq_some_iff.mp h.own).1
  refine ⟨?_, ?_, hswapped, h.records, h.failed⟩
  · simp [System.set, hn]
  · intro m other hm hother
    simp only [System.set, getElem?_set_ne (Ne.symm hm)] at hother
    exact h.others m other hm hother

variable {key : Int}

theorem Solo.advance (h : Solo x n y run) (key : Int) : ∃ run', Solo x n (advance y n run key false) run' := by
  unfold Batch.advance
  split
  · next hphase =>
    exact ⟨_, h.set y.db y.stores _ (fun t _ => h.swapped t (by rw [hphase]; nofun))⟩
  · next t rest hphase =>
    split
    · next hempty =>
      refine ⟨_, h.set y.db y.stores _ ?_⟩
      intro t' ht'
      by_cases he : t' = t
      · exact he ▸ hempty
      · apply h.swapped
        rw [hphase]
        exact not_mem_cons_of_ne_of_not_mem he ht'
    · exact ⟨_, h.set y.db y.stores _ (fun t' ht' => absurd t'.mem_all ht')⟩
  · next hphase =>
    exact ⟨_, h.set y.db y.stores _ (fun t _ => h.swapped t (by rw [hphase]; nofun))⟩
  · next t rest hphase =>
    refine ⟨_, h.set y.db (update y.stores t .empty) _ ?_⟩
    intro t' ht'
    by_cases he : t' = t
    · rw [he, update_self]
      rfl
    · rw [update_of_ne he]
      apply h.swapped
      rw [hphase]
      exact not_mem_cons_of_ne_of_not_mem he ht'
  · next target hphase =>
    have hall (t : BatchType) : (y.stores t).rows = [] := h.swapped t (by rw [hphase]; nofun)
    split
    · exact ⟨_, h.set y.db y.stores _ (fun t _ => hall t)⟩
    · split
      · exact ⟨_, h.set (target.write key (fun t => (run.stores t).get key) y.db) y.stores _ (fun t _ => hall t)⟩
      · exact ⟨run, h⟩
  · exact ⟨run, h⟩

theorem Solo.step_eq (h : Solo x n y run) : step y (.batchUpdate n key false) = Batch.advance y n run key false := by
  simp only [step, h.own]

theorem Solo.exec (h : Solo x n y run) (bs : List Action) (hbs : Sections n bs) :
    ∃ run', Solo x n (Run.exec step y bs) run' := by
  induction bs generalizing y run with
  | nil => exact ⟨run, h⟩
  | cons b bs ih =>
    obtain ⟨key, rfl⟩ := hbs b mem_cons_self
    obtain ⟨_, h'⟩ := h.advance key
    rw [← h.step_eq] at h'
    exact ih h' (fun c hc => hbs c (mem_cons_of_mem _ hc))

def Reaches (x : System) (n : ℕ) (y : System) (phase : Phase) : Prop :=
  ∃ bs run, Sections n bs ∧ Solo x n (Run.exec step y bs) run ∧ run.phase = phase

theorem Reaches.here (h : Solo x n y run) : Reaches x n y run.phase := ⟨[], run, nofun, h, rfl⟩

theorem Reaches.head {phase : Phase} (h : Solo x n y run) (key : Int) {stores : Stores} {run' : BatchRun}
    (hadvance : Batch.advance y n run key false = ({ y with db := db, stores := stores } : System).set n run')
    (hr : ∀ z, Solo x n z run' → Reaches x n z phase) : Reaches x n y phase := by
  have hn : n < y.runs.length := (List.getElem?_eq_some_iff.mp h.own).1
  obtain ⟨_, hsolo⟩ := h.advance key
  have hown := hsolo.own
  rw [hadvance, System.set, getElem?_set_self hn] at hown
  cases hown
  obtain ⟨bs, run'', hbs, hsolo, hphase⟩ := hr _ hsolo
  refine ⟨.batchUpdate n key false :: bs, run'', forall_mem_cons.mpr ⟨⟨key, rfl⟩, hbs⟩, ?_, hphase⟩
  rw [Run.exec_cons, h.step_eq]
  exact hsolo

theorem Reaches.trans {p q : Phase} (h : Reaches x n y p)
    (hnext : ∀ z run, Solo x n z run → run.phase = p → Reaches x n z q) : Reaches x n y q := by
  obtain ⟨bs, run, hbs, hsolo, hphase⟩ := h
  obtain ⟨cs, run', hcs, hsolo', hphase'⟩ := hnext _ run hsolo hphase
  refine ⟨bs ++ cs, run', forall_mem_append.mpr ⟨hbs, hcs⟩, ?_, hphase'⟩
  rw [Run.exec_append]
  exact hsolo'

def BatchRun.left (run : BatchRun) (target : Target) : ℕ :=
  (target.types.map (fun t => (run.stores t).rows.length)).sum

variable {target : Target}

theorem left_drop (h : run.hasKey target key) :
    BatchRun.left { run with stores := run.stores.drop target key } target < run.left target := by
  have hdelete (t : BatchType) (ht : t ∈ target.types) :
      (run.stores.drop target key t).rows = (run.stores t).rows.filter (fun r => r.1 ≠ key) := by
    simp only [Stores.drop, if_pos ht, Table.delete]
  obtain ⟨t, ht, hkey⟩ := any_eq_true.mp h
  obtain ⟨r, hr⟩ := Option.isSome_iff_exists.mp hkey
  obtain ⟨hmem, hrkey⟩ := (Table.find_some_iff _ _ _).mp hr
  apply sum_lt_sum
  · intro t' ht'
    simp only [hdelete t' ht']
    exact length_filter_le _ _
  · refine ⟨t, ht, ?_⟩
    simp only [hdelete t ht]
    rw [length_filter_lt_length_iff_exists]
    exact ⟨r, hmem, by simpa using hrkey⟩

theorem exists_key (h : ¬ run.isEmpty target) : ∃ key, run.hasKey target key := by
  simp only [BatchRun.isEmpty, all_eq_true, not_forall] at h
  obtain ⟨t, ht, hrows⟩ := h
  obtain ⟨r, hr⟩ := exists_mem_of_ne_nil _ (by simpa using hrows)
  refine ⟨r.1, any_eq_true.mpr ⟨t, ht, ?_⟩⟩
  rw [Table.find_mem _ r hr]
  rfl

theorem Solo.reaches_next (h : Solo x n y run) (hphase : run.phase = .write target) :
    Reaches x n y target.next := by
  -- Every write takes one id out of the stores of the target.
  induction hk : run.left target using Nat.strong_induction_on generalizing y run with
  | _ k ih =>
    by_cases hempty : run.isEmpty target
    · have hadvance : Batch.advance y n run 0 false = y.set n { run with phase := target.next } := by
        simp only [Batch.advance, hphase, hempty, if_true]
      exact .head h 0 hadvance (fun _ => .here)
    · obtain ⟨key, hkey⟩ := exists_key hempty
      let run' : BatchRun := ⟨.write target, run.stores.drop target key⟩
      have hadvance : Batch.advance y n run key false =
          ({ y with db := target.write key (fun t => (run.stores t).get key) y.db } : System).set n run' := by
        simp only [Batch.advance, hphase, hempty, hkey, if_true, Bool.false_eq_true, if_false]
        rfl
      have hless : run'.left target < k := hk ▸ left_drop hkey
      exact .head h key hadvance (fun _ h' => ih _ hless h' rfl rfl)

theorem Solo.reaches_write (h : Solo x n y run) {rest : List BatchType} (hphase : run.phase = .swap rest) :
    Reaches x n y (.write .tokens) := by
  -- One store is swapped out after the other.
  induction rest generalizing y run with
  | nil =>
    have hadvance : Batch.advance y n run 0 false = y.set n { run with phase := .write .tokens } := by
      simp only [Batch.advance, hphase]
    exact .head h 0 hadvance (fun _ => .here)
  | cons t rest ih =>
    let run' : BatchRun := ⟨.swap rest, update run.stores t (y.stores t)⟩
    have hadvance : Batch.advance y n run 0 false =
        ({ y with stores := update y.stores t .empty } : System).set n run' := by
      simp only [Batch.advance, hphase]
      rfl
    exact .head h 0 hadvance (fun _ h' => ih h' rfl)

theorem Solo.reaches_done (h : Solo x n y run) {rest : List BatchType} (hphase : run.phase = .check rest) :
    Reaches x n y .done := by
  have hwritten (z : System) (r : BatchRun) (hz : Solo x n z r) (hr : r.phase = .swap BatchType.all) :
      Reaches x n z .done := by
    apply (hz.reaches_write hr).trans
    intro z₁ r₁ h₁ hp₁
    apply (h₁.reaches_next hp₁).trans
    intro z₂ r₂ h₂ hp₂
    apply (h₂.reaches_next hp₂).trans
    intro z₃ r₃ h₃ hp₃
    exact h₃.reaches_next hp₃
  -- The stores are looked at in order: all of them empty, or the first that is not.
  induction rest generalizing y run with
  | nil =>
    have hadvance : Batch.advance y n run 0 false = y.set n { run with phase := .done } := by
      simp only [Batch.advance, hphase]
    exact .head h 0 hadvance (fun _ => .here)
  | cons t rest ih =>
    by_cases hempty : (y.stores t).rows = []
    · have hadvance : Batch.advance y n run 0 false = y.set n { run with phase := .check rest } := by
        simp only [Batch.advance, hphase, hempty, if_true]
      exact .head h 0 hadvance (fun _ h' => ih h' rfl)
    · have hadvance : Batch.advance y n run 0 false = y.set n { run with phase := .swap BatchType.all } := by
        simp only [Batch.advance, hphase, hempty, if_false]
      exact .head h 0 hadvance (fun z h' => hwritten z _ h' rfl)

end Alone

/-- A fault-free `batchUpdate` that is started in `x` and is the only one at work, to its end. -/
def Flush (x : System) (bs : List Action) : Prop :=
  Sections x.runs.length bs ∧ ((Run.exec step x (.start :: bs)).runs[x.runs.length]?).map BatchRun.phase = some .done

theorem exists_flush {x : System} (h : x.Idle) : ∃ bs, Flush x bs := by
  obtain ⟨bs, _, hbs, hsolo, hphase⟩ := (Solo.start h).reaches_done rfl
  refine ⟨bs, hbs, ?_⟩
  rw [Run.exec_cons, hsolo.own, Option.map_some, hphase]

variable {t : BatchType} {id : Int}

theorem value_flush {db : Db} {x : System} (h : Conserved db x) (hidle : x.Idle) {bs : List Action} (hbs : Flush x bs)
    : (Run.exec step x (.start :: bs)).db.value t id =
      (db.value t id).map (fun v => v+recorded x.records t id-recorded x.failed t id) := by
  obtain ⟨run, hsolo⟩ := (Solo.start hidle).exec bs hbs.1
  have hend := hbs.2
  have hinv : Conserved db (Run.exec step x (.start :: bs)) :=
    Run.exec_invariant_all (Conserved db) (fun _ a hx => hx.step a) x _ h
  rw [Run.exec_cons] at hend hinv ⊢
  rw [hsolo.own] at hend
  have hdone : run.phase = .done := Option.some.inj hend
  -- Every run is done, so nothing is swapped out.
  have hruns (r : BatchRun) (hr : r ∈ (Run.exec step (step x .start) bs).runs) : (r.stores t).get id = 0 := by
    obtain ⟨m, hm⟩ := getElem?_of_mem hr
    have hphase : r.phase = .done := by
      by_cases hmn : m = x.runs.length
      · rw [hmn, hsolo.own] at hm
        exact Option.some.inj hm ▸ hdone
      · exact hsolo.others m r hmn hm
    apply Tally.get_of_rows_nil
    apply (hinv.runs r hr).cleared
    rw [hphase]
    exact t.mem_all
  have hflight : inFlight (Run.exec step (step x .start) bs).runs t id = 0 := by
    apply sum_eq_zero
    intro a ha
    obtain ⟨r, hr, rfl⟩ := mem_map.mp ha
    exact hruns r hr
  have hstore : ((Run.exec step (step x .start) bs).stores t).get id = 0 :=
    Tally.get_of_rows_nil (hsolo.swapped t (by rw [hdone]; nofun)) id
  rw [hinv.value t id, outstanding, hstore, hflight, hsolo.records, hsolo.failed]
  simp only [add_zero, zero_add]

theorem advance_frame (x : System) (n : ℕ) (run : BatchRun) (key : Int) (fails : Bool) :
    (advance x n run key fails).records = x.records ∧
    (fails = false → (advance x n run key fails).failed = x.failed) := by
  unfold advance
  split
  · exact ⟨rfl, fun _ => rfl⟩
  · split <;> exact ⟨rfl, fun _ => rfl⟩
  · exact ⟨rfl, fun _ => rfl⟩
  · exact ⟨rfl, fun _ => rfl⟩
  · split
    · exact ⟨rfl, fun _ => rfl⟩
    · split
      · cases fails
        · exact ⟨rfl, fun _ => rfl⟩
        · refine ⟨rfl, ?_⟩
          intro h
          cases h
      · exact ⟨rfl, fun _ => rfl⟩
  · exact ⟨rfl, fun _ => rfl⟩

theorem exec_records (x : System) (as : List Action) : (Run.exec step x as).records = x.records ++ recordsOf as := by
  induction as generalizing x with
  | nil => exact (append_nil _).symm
  | cons a as ih =>
    rw [Run.exec_cons, ih]
    cases a with
    | addNewRecord =>
      simp only [step, recordsOf, filterMap_cons, append_assoc]
      rfl
    | start => rfl
    | batchUpdate n key fails =>
      have hsame : (step x (.batchUpdate n key fails)).records = x.records := by
        simp only [step]
        split
        · rfl
        · exact (advance_frame x n _ key fails).1
      rw [hsame]
      rfl

def Action.succeeds : Action → Bool
  | .batchUpdate _ _ fails => !fails
  | _ => true

theorem exec_failed (x : System) (as : List Action) (hok : ∀ a ∈ as, a.succeeds) :
    (Run.exec step x as).failed = x.failed := by
  induction as generalizing x with
  | nil => rfl
  | cons a as ih =>
    rw [Run.exec_cons, ih _ (fun b hb => hok b (mem_cons_of_mem _ hb))]
    cases a with
    | addNewRecord | start => rfl
    | batchUpdate n key fails =>
      have hfails : fails = false := by simpa [Action.succeeds] using hok _ mem_cons_self
      simp only [step, hfails]
      split
      · rfl
      · exact (advance_frame x n _ key false).2 rfl

def userAmount (quota usedQuota requestCount : Int) : BatchType → Int
  | .userQuota => quota
  | .usedQuota => usedQuota
  | .requestCount => requestCount
  | _ => 0

theorem value_modifyUsers (db : Db) (id quota usedQuota requestCount : Int) (id' : Int) :
    Db.value { db with users := db.users.modify id (addToUser quota usedQuota requestCount) (fun _ => rfl) } t id' =
      (db.value t id').map (fun v => v+if id' = id then userAmount quota usedQuota requestCount t else 0) := by
  have hcolumn (column : User → Int) (n : Int)
    (hn : ∀ r, column (addToUser quota usedQuota requestCount r) = column r+n) :=
    map_find_modify db.users id (addToUser quota usedQuota requestCount) (fun _ => rfl) column n hn id'
  cases t with
  | userQuota => exact hcolumn User.quota quota (fun _ => rfl)
  | usedQuota => exact hcolumn User.usedQuota usedQuota (fun _ => rfl)
  | requestCount => exact hcolumn User.requestCount requestCount (fun _ => rfl)
  | tokenQuota | channelUsedQuota =>
    simp only [userAmount, ite_self]
    exact (map_add_zero _).symm

theorem value_unbatched (db : Db) (c : Call) :
    (c.unbatched db).value t id = (db.value t id).map (fun v => v+recorded c.records t id) := by
  have hrefused : db.value t id = (db.value t id).map (fun v => v+recorded [] t id) := (map_add_zero _).symm
  have hsame (n m : Int) (h : n = m) :
      (db.value t id).map (fun v => v+n) = (db.value t id).map (fun v => v+m) := by rw [h]
  cases c with
  | increaseUserQuota | decreaseUserQuota =>
    simp only [Call.unbatched, Call.records]
    split
    · exact hrefused
    · rw [value_modifyUsers]
      apply hsame
      cases t <;> simp [recorded_singleton, userAmount, eq_comm]
  | increaseTokenQuota i quota =>
    simp only [Call.unbatched, Call.records]
    split
    · exact hrefused
    · refine (value_write .tokens i (fun _ => quota) t id).trans (hsame _ _ ?_)
      cases t <;> simp [recorded_singleton, Target.types, eq_comm]
  | decreaseTokenQuota i quota =>
    simp only [Call.unbatched, Call.records]
    split
    · exact hrefused
    · refine (value_write .tokens i (fun _ => -quota) t id).trans (hsame _ _ ?_)
      cases t <;> simp [recorded_singleton, Target.types, eq_comm]
  | updateUserUsedQuotaAndRequestCount =>
    simp only [Call.unbatched, Call.records]
    rw [value_modifyUsers]
    apply hsame
    rw [← singleton_append, recorded_append, recorded_singleton, recorded_singleton]
    cases t <;> simp [userAmount, eq_comm]
  | updateChannelUsedQuota i quota =>
    refine (value_write .channels i (fun _ => quota) t id).trans (hsame _ _ ?_)
    cases t <;> simp [Call.records, recorded_singleton, Target.types, eq_comm]

theorem value_unbatched_all (db : Db) (calls : List Call) : (calls.foldl Call.unbatched db).value t id =
      (db.value t id).map (fun v => v+recorded (calls.flatMap Call.records) t id) := by
  induction calls generalizing db with
  | nil => exact (map_add_zero _).symm
  | cons c calls ih =>
    rw [foldl_cons, ih, value_unbatched, flatMap_cons, recorded_append, Option.map_map]
    congr 1
    funext v
    exact add_assoc _ _ _

theorem recorded_perm {rs rs' : List Record} (h : rs.Perm rs') : recorded rs t id = recorded rs' t id :=
  ((h.filter _).map _).sum_eq

/-- Batched accounting is immediate accounting: while the writes succeed nothing is missing or counted twice, and when
no run is at work a `batchUpdate` leaves the database that the calls leave without batching. -/
theorem batched_equals_unbatched (db : Db) (as : List Action) (hok : ∀ a ∈ as, a.succeeds) :
    let x := Run.exec step (System.initial db) as
    (∀ t id v, db.value t id = some v → ∃ v', x.db.value t id = some v' ∧
      v'+(x.stores t).get id+inFlight x.runs t id = v+recorded (recordsOf as) t id) ∧
    (∀ id, (x.db.tokens.find id).map (fun r => r.remainQuota+r.usedQuota) =
      (db.tokens.find id).map (fun r => r.remainQuota+r.usedQuota)) ∧
    (x.Idle → (∃ bs, Flush x bs) ∧ ∀ bs (calls : List Call), Flush x bs →
      (calls.flatMap Call.records).Perm (recordsOf as) →
      ∀ t id, (Run.exec step x (.start :: bs)).db.value t id = (calls.foldl Call.unbatched db).value t id) := by
  intro x
  have hinv : Conserved db x := Conserved.run db as
  have hrecords : x.records = recordsOf as := exec_records (System.initial db) as
  have hfailed : x.failed = [] := exec_failed (System.initial db) as hok
  refine ⟨?_, hinv.tokens, ?_⟩
  · intro t id v hv
    obtain ⟨v', hv', hsum⟩ := hinv.value_some hv
    rw [hrecords, hfailed] at hsum
    exact ⟨v', hv', hsum.trans (sub_zero _)⟩
  · intro hidle
    refine ⟨exists_flush hidle, ?_⟩
    intro bs calls hbs hperm t id
    rw [value_flush hinv hidle hbs, value_unbatched_all, recorded_perm hperm, hrecords, hfailed]
    congr 1
    funext v
    exact sub_zero _

def sampleDb : Db := ⟨.single { id := 1, quota := 100 }, .single ⟨7, 50, 0⟩, .single ⟨3, 0⟩⟩

/-- A record comes while a run is at work; it stays for the next one. -/
def sampleActions : List Action :=
  [.addNewRecord ⟨.userQuota, 1, -5⟩, .addNewRecord ⟨.tokenQuota, 7, -5⟩, .start] ++
    List.replicate 7 (.batchUpdate 0 1 false) ++ [.addNewRecord ⟨.userQuota, 1, -3⟩] ++
    (List.replicate 6 [1, 7]).flatten.map (.batchUpdate 0 · false)

theorem batched_equals_unbatched_sample :
    let x := Run.exec step (System.initial sampleDb) sampleActions
    let calls := [Call.decreaseUserQuota 1 5, .decreaseTokenQuota 7 5, .decreaseUserQuota 1 3]
    x.db.value .userQuota 1 = some 95 ∧ x.db.value .tokenQuota 7 = some 45 ∧
      ∃ bs, Flush x bs ∧ ∀ t id, (Run.exec step x (.start :: bs)).db.value t id =
        (calls.foldl Call.unbatched sampleDb).value t id := by
  intro x calls
  obtain ⟨⟨bs, hbs⟩, hsame⟩ :=
    (batched_equals_unbatched sampleDb sampleActions (by decide)).2.2 (by decide +kernel)
  exact ⟨by decide +kernel, by decide +kernel, bs, hbs, hsame bs calls hbs (by decide)⟩

/-- What the writes that failed were to add is gone, and only that: a later fault-free `batchUpdate` writes all the
rest. -/
theorem failed_writes_drop_their_deltas (db : Db) (as : List Action) :
    let x := Run.exec step (System.initial db) as
    (∀ t id v, db.value t id = some v → ∃ v', x.db.value t id = some v' ∧
      v'+(x.stores t).get id+inFlight x.runs t id = v+recorded (recordsOf as) t id-recorded x.failed t id) ∧
    (x.Idle → (∃ bs, Flush x bs) ∧ ∀ bs, Flush x bs → ∀ t id v, db.value t id = some v →
      (Run.exec step x (.start :: bs)).db.value t id =
        some (v+recorded (recordsOf as) t id-recorded x.failed t id)) := by
  intro x
  have hinv : Conserved db x := Conserved.run db as
  have hrecords : x.records = recordsOf as := exec_records (System.initial db) as
  refine ⟨?_, ?_⟩
  · intro t id v hv
    rw [← hrecords]
    exact hinv.value_some hv
  · intro hidle
    refine ⟨exists_flush hidle, ?_⟩
    intro bs hbs t id v hv
    rw [value_flush hinv hidle hbs, hv, hrecords]
    rfl

def sampleFailure : List Action :=
  [.addNewRecord ⟨.tokenQuota, 7, -5⟩, .start] ++ List.replicate 12 (.batchUpdate 0 7 true)

theorem failed_writes_drop_their_deltas_sample :
    (Run.exec step (System.initial sampleDb) sampleFailure).Idle ∧
    ∃ bs, Flush (Run.exec step (System.initial sampleDb) sampleFailure) bs :=
  have hidle : (Run.exec step (System.initial sampleDb) sampleFailure).Idle := by decide
  ⟨hidle, ((failed_writes_drop_their_deltas sampleDb sampleFailure).2 hidle).1⟩

/-- Nothing is pending after the failed write, and the next `batchUpdate` does not bring the
token to 45. -/
theorem failed_write_is_not_retried :
    let x := Run.exec step (System.initial sampleDb) sampleFailure
    let y := Run.exec step x (.start :: replicate 12 (.batchUpdate 1 7 false))
    recordsOf sampleFailure = [⟨.tokenQuota, 7, -5⟩] ∧ (x.stores .tokenQuota).rows = [] ∧
      x.db.value .tokenQuota 7 = some 50 ∧ y.runs.map BatchRun.phase = [.done, .done] ∧
        y.db.value .tokenQuota 7 = some 50 := by
  decide

end AiGateway.Batch
