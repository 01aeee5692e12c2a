import AiGateway.ChannelIndex
import AiGateway.ChannelSystem

/-! A rebuild of the cache reads the channels and the abilities by two statements, and others write
between them. -/
namespace AiGateway.Channels

open Interleave (Machine System Guard Assertion Keeps Holds)
open List Function Option Run

def Pc.snapshot : Pc → Option Snapshot
  | .readAbilities [] snapshot => some snapshot
  | _ => none

def coveredOk : Guard State Pc Call Int Empty where
  call _ _ := True
  run s pc _ := ∀ snapshot ∈ pc.snapshot, snapshot.Covered (s.db.abilities.rows.map Ability.group)
  env _ _ := True

/-- The ids of an index belong to the channels that were read with it. -/
def IndexIn (index : Index) (find : Int → Option Channel) : Prop :=
  ∀ group model, ∀ id ∈ index.lookup group model, (find id).isSome = true

variable {find : Int → Option Channel} {s : State} {pc : Pc} {time : Int}

theorem IndexIn.update {index : Index} (h : IndexIn index find) (id : Int) (c : Channel) :
    IndexIn index (Function.update find id (some c)) := by
  intro group model id' hid
  by_cases he : id' = id
  · rw [he, update_self]
    rfl
  · rw [update_of_ne he]
    exact h group model id' hid

theorem IndexIn.map {index : Index} {find' : Int → Option Channel} (h : IndexIn index find)
    {f : List Int → List Int}
    (hf : ∀ l, ∀ id ∈ f l, id ∈ l) (hfind : ∀ id, (find' id).isSome = (find id).isSome) :
    IndexIn (index.map f) find' := by
  intro group model id hid
  rw [hfind]
  apply h group model
  rcases Index.lookup_map f group model with he | he
  · exact he ▸ hid
  · exact hf _ id (he ▸ hid)

theorem IndexIn.cacheUpdateChannelStatus {cache : Cache} (h : IndexIn cache.group2model2channels cache.channelsIDM)
    (id status : Int) : IndexIn (cache.cacheUpdateChannelStatus id status).group2model2channels
      (cache.cacheUpdateChannelStatus id status).channelsIDM := by
  have hfind (id' : Int) : (Function.update cache.channelsIDM id
      ((cache.channelsIDM id).map (fun c => { c with status := status })) id').isSome =
      (cache.channelsIDM id').isSome := by
    by_cases he : id' = id
    · rw [he, update_self, isSome_map]
    · rw [update_of_ne he]
  rw [Cache.cacheUpdateChannelStatus]
  split
  · exact h.map (fun l i hi => mem_of_mem_erase hi) hfind
  · intro group model i hi
    rw [hfind]
    exact h group model i hi

def Pc.Built : Pc → Prop
  | .panicked => False
  | .install snapshot index => IndexIn index snapshot.find
  | _ => True

theorem find_isSome_of_mem {s : Snapshot} {c : Channel} (hc : c ∈ s.channels) : (s.find c.id).isSome = true := by
  rw [Snapshot.find, find?_isSome]
  exact ⟨c, hc, decide_eq_true rfl⟩

variable (env : Env)

theorem nextRebuild_built (h : IndexIn s.cache.group2model2channels s.cache.channelsIDM) (hpc : pc.Built)
    (hok : coveredOk.run s pc time) :
    IndexIn (nextRebuild env s pc).1.cache.group2model2channels (nextRebuild env s pc).1.cache.channelsIDM ∧
      (nextRebuild env s pc).2.Built := by
  cases pc with
  | readAbilities rows snapshot =>
    cases rows with
    | cons => exact ⟨h, trivial⟩
    | nil =>
      have hcovered : snapshot.Covered (s.db.abilities.rows.map Ability.group) := hok snapshot rfl
      obtain ⟨_, hindex⟩ := isSome_iff_exists.mp
        (Snapshot.buildIndex_isSome env hcovered)
      simp only [nextRebuild, hindex]
      refine ⟨h, ?_⟩
      intro group model id hid
      obtain ⟨_, hc, _, _, _, rfl⟩ := (Snapshot.mem_lookup hindex).mp hid
      exact find_isSome_of_mem hc
  | install =>
    refine ⟨?_, trivial⟩
    intro group model id hid
    rw [nextRebuild, Cache.install, isSome_map]
    exact hpc group model id hid
  | panicked => exact hpc.elim
  | _ => exact ⟨h, trivial⟩

theorem nextStatus_built (h : IndexIn s.cache.group2model2channels s.cache.channelsIDM) (hpc : pc.isStatus = true) :
    IndexIn (nextStatus env s time pc).1.cache.group2model2channels (nextStatus env s time pc).1.cache.channelsIDM ∧
      (nextStatus env s time pc).2.Built := by
  cases pc with
  | lockStatus | cacheGet | getById | saveStatus =>
    rw [nextStatus]
    repeat' split
    all_goals exact ⟨h, trivial⟩
  | cacheHandle =>
    simp only [nextStatus, handleCached]
    refine ⟨?_, ?_⟩
    · split
      · exact h.update _ _
      · exact h
    · split <;> trivial
  | cacheStatus a status => exact ⟨h.cacheUpdateChannelStatus a.id status, trivial⟩
  | abilityStatus | unlockStatus | returned => exact ⟨h, trivial⟩
  | _ => cases hpc

theorem nextTables_built (db : Db) (hr : pc.isRebuild = false) (hs : pc.isStatus = false) :
    (nextTables env db pc).2.Built := by
  cases pc with
  | create c =>
    simp only [nextTables]
    cases db.create c <;> trivial
  | createAbilities chunks => cases chunks <;> trivial
  | updateRow | editRows =>
    simp only [nextTables]
    split <;> trivial
  | reCreate cs => cases cs <;> trivial
  | deleteRow =>
    simp only [nextTables]
    split <;> trivial
  | readKeys | readRow | updateAbilities | readByTag | editAbilities | deleteAbilities | batchDelete
  | deleteByStatus | deleteDisabled | finished => trivial
  | readChannels | readAbilities | install | rebuilt | panicked => cases hr
  | lockStatus | cacheGet | cacheHandle | cacheStatus | getById | saveStatus | abilityStatus | unlockStatus
  | returned => cases hs

def indexed : Assertion State Pc Empty where
  shared s := IndexIn s.cache.group2model2channels s.cache.channelsIDM
  own _ pc := pc.Built
  pair _ _ _ := True
  value _ k := nomatch k
  weight _ k := nomatch k

theorem start_built (c : Call) : (start env c s).Built := by
  cases c with
  | update =>
    simp only [start]
    split <;> trivial
  | _ => trivial

theorem next_built (h : IndexIn s.cache.group2model2channels s.cache.channelsIDM) (hpc : pc.Built)
    (hok : coveredOk.run s pc time) :
    indexed.shared (next env pc s time).1 ∧ (next env pc s time).2.Built := by
  rw [next]
  by_cases hr : pc.isRebuild = true
  · rw [if_pos hr]
    exact nextRebuild_built env h hpc hok
  · rw [if_neg hr]
    by_cases hs : pc.isStatus = true
    · rw [if_pos hs]
      exact nextStatus_built env h hs
    · rw [if_neg hs]
      exact ⟨h, nextTables_built env s.db (Bool.eq_false_iff.mpr hr) (Bool.eq_false_iff.mpr hs)⟩

theorem indexed_kept : Keeps (machine env) coveredOk indexed where
  symm _ := trivial
  call {s c} _ _ := ⟨start_built env c, fun k => nomatch k⟩
  call_pair _ _ _ := trivial
  run h hpc _ hok := by
    obtain ⟨hshared, hbuilt⟩ := next_built env h hpc hok
    exact ⟨hshared, hbuilt, fun k => nomatch k⟩
  other _ _ hb _ _ _ := ⟨hb, trivial⟩
  others _ _ _ _ _ _ _ _ := trivial
  env {_ e} := nomatch e
  env_own {_ e} := nomatch e
  env_pair {_ e} := nomatch e

def stepsLeft (env : Env) (s : State) : Pc → ℕ
  | .readChannels => (malformedRows env.json s.db.channels.rows).length+3
  | .readAbilities rows _ => rows.length+2
  | .install _ _ => 1
  | _ => 0

theorem next_stepsLeft {n : ℕ} (hr : pc.isRebuild = true) (hok : coveredOk.run s pc time)
    (hn : stepsLeft env s pc = n+1) :
    (next env pc s time).2.isRebuild = true ∧ stepsLeft env (next env pc s time).1 (next env pc s time).2 = n := by
  rw [next, if_pos hr]
  cases pc with
  | readChannels =>
    refine ⟨rfl, ?_⟩
    simp only [stepsLeft] at hn
    simp only [nextRebuild, stepsLeft]
    omega
  | readAbilities rows snapshot =>
    cases rows with
    | cons =>
      refine ⟨rfl, ?_⟩
      simp only [stepsLeft, length_cons] at hn
      simp only [nextRebuild, stepsLeft]
      omega
    | nil =>
      obtain ⟨index, hindex⟩ := isSome_iff_exists.mp (Snapshot.buildIndex_isSome env (hok snapshot rfl))
      simp only [nextRebuild, hindex, stepsLeft, Pc.isRebuild, true_and]
      simp only [stepsLeft, length_nil] at hn
      omega
  | install =>
    refine ⟨rfl, ?_⟩
    simp only [stepsLeft] at hn
    simp only [nextRebuild, stepsLeft]
    omega
  | _ => cases hn

/-- A rebuild is over after its steps, whatever else is going on. -/
theorem rebuild_completes {x : System State Pc} (h : Holds indexed x) {i : ℕ} (hi : x.procs[i]? = some pc)
    (hr : pc.isRebuild = true)
    (hok : Along (machine env).step coveredOk.Ok x (List.replicate (stepsLeft env x.shared pc) (.run i time))) :
    (exec (machine env).step x (List.replicate (stepsLeft env x.shared pc) (.run i time))).procs[i]? =
      some .rebuilt := by
  induction hn : stepsLeft env x.shared pc generalizing x pc with
  | zero =>
    rw [replicate_zero, exec_nil, hi]
    cases pc with
    | rebuilt => rfl
    | panicked => exact (h.own i _ hi).elim
    | readChannels | readAbilities | install => cases hn
    | _ => cases hr
  | succ n ih =>
    rw [hn, replicate_succ] at hok
    have hstep : coveredOk.run x.shared pc time := hok.1 pc hi
    obtain ⟨hr', hn'⟩ := next_stepsLeft env hr hstep hn
    have hi' : ((machine env).step x (.run i time)).procs[i]? = some (next env pc x.shared time).2 := by
      rw [Machine.step_run time hi]
      exact List.getElem?_set_self (List.getElem?_eq_some_iff.mp hi).1
    have hshared : ((machine env).step x (.run i time)).shared = (next env pc x.shared time).1 := by
      rw [Machine.step_run time hi]
      rfl
    rw [replicate_succ, exec_cons]
    rw [← hshared] at hn'
    have hrest := ih (h.step (indexed_kept env) _ hok.1) hi' hr'
    rw [hn'] at hrest
    exact hrest hok.2 rfl

theorem rebuild_never_panics (env : Env) (db : Db) (as : List Action)
    (hok : Along (machine env).step coveredOk.Ok (initial db) as) :
    let x := exec (machine env).step (initial db) as
    .panicked ∉ x.procs ∧
    (∀ group model, ∀ id ∈ x.shared.cache.group2model2channels.lookup group model,
      (x.shared.cache.channelsIDM id).isSome = true) ∧
    ∀ (i : ℕ) (pc : Pc), x.procs[i]? = some pc → pc.isRebuild = true → ∃ n, ∀ time,
      Along (machine env).step coveredOk.Ok x (replicate n (.run i time)) →
      (exec (machine env).step x (replicate n (.run i time))).procs[i]? = some .rebuilt := by
  have hempty : indexed.shared (initial db).shared := by
    intro group model id hid
    cases hid
  have h := Holds.run (indexed_kept env) (Holds.initial hempty (fun k => nomatch k)) as hok
  refine ⟨?_, h.shared, ?_⟩
  · intro hin
    obtain ⟨i, hi⟩ := mem_iff_getElem?.mp hin
    exact h.own i _ hi
  · intro i pc hi hr
    exact ⟨_, fun time => rebuild_completes env h hi hr⟩

instance (x : System State Pc) (a : Action) : Decidable (coveredOk.Ok x a) := by
  cases a <;> dsimp only [Interleave.Guard.Ok, coveredOk] <;> infer_instance

/-- A channel is inserted and then moved to another group while the cache is rebuilt. -/
def sampleRebuild : List Action :=
  [.call (.insert { id := 1, key := "k", models := "m", group := "g" }), .run 0 0, .run 0 0,
   .call .initChannelCache, .run 1 0, .call (.update { id := 1, group := "h" }), .run 2 0, .run 1 0, .run 2 0, .run 2 0,
   .run 1 0]

theorem rebuild_never_panics_updated :
    Pc.panicked ∉ (exec (machine sampleEnv).step (initial Db.empty) sampleRebuild).procs ∧
    (exec (machine sampleEnv).step (initial Db.empty) sampleRebuild).shared.cache.group2model2channels.lookup
      "g" "m" = [1] :=
  ⟨(rebuild_never_panics sampleEnv Db.empty sampleRebuild (by decide +kernel)).1, by decide +kernel⟩

/-- Between the two statements of an insert the channel is there and its abilities are not. -/
theorem rebuild_panics_during_insert : (exec (machine sampleEnv).step (initial Db.empty)
      [.call (.insert { id := 1, key := "k", models := "m", group := "g" }), .run 0 0, .call .initChannelCache,
       .run 1 0, .run 1 0]).procs[1]? = some .panicked := by
  rfl

end AiGateway.Channels
