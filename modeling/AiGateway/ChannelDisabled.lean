import AiGateway.ChannelStatusStep

/-! A disabled channel is not selected. -/
namespace AiGateway.Channels

open Interleave (Machine System Holds)
open Option Run

def Cache.CanSelect (cache : Cache) (id : Int) : Prop :=
  ∃ group model retry requestPath r,
    (cache.getRandomSatisfiedChannel group model retry requestPath r).channelId = some id

def Pc.savesStatus : Pc → Option Channel
  | .saveStatus _ c _ => some c
  | _ => none

def Enables (x : System State Pc) (id : Int) : Action → Prop
  | .run j _ => ∃ pc ∈ x.procs[j]?, ∃ c ∈ pc.savesStatus, c.id = id ∧ c.status = channelStatusEnabled
  | _ => False

def Db.Disabled (db : Db) (id : Int) : Prop :=
  ∃ row, db.channels.find id = some row ∧ row.status ≠ channelStatusEnabled

section Disabled

variable {s : State} {pc : Pc} {id : Int}

theorem Consistent.not_canSelect (h : Consistent id s) (hd : s.db.Disabled id) : ¬ s.cache.CanSelect id := by
  rintro ⟨group, model, retry, requestPath, r, hsel⟩
  cases hfound : s.cache.getRandomSatisfiedChannel group model retry requestPath r with
  | found c =>
    rw [hfound] at hsel
    obtain ⟨i, model', hin, hobject⟩ := Cache.mem_index_of_found hfound
    have hid : c.id = id := some.inj hsel
    rw [← (h.objects i c hobject).1, hid] at hin
    obtain ⟨_, hrow, hen⟩ := h.enabled group model' hin
    obtain ⟨_, hrow', hne⟩ := hd
    rw [some.inj (hrow'.symm.trans hrow)] at hne
    exact hne hen
  | noChannel | error | panicked => simp [hfound, Selection.channelId] at hsel

theorem Db.Disabled.setRow {db db' : Db} {c : Channel} (h : db.Disabled id)
    (hfind : ∀ i, db'.channels.find i = if i = c.id then some c else db.channels.find i)
    (hc : c.id = id → c.status ≠ channelStatusEnabled) : db'.Disabled id := by
  rw [Db.Disabled, hfind]
  split
  · next he => exact ⟨c, rfl, hc he.symm⟩
  · exact h

variable (env : Env)

theorem nextRebuild_disabled {time : Int} (hok : (freshOk id).run s pc time) (hd : s.db.Disabled id) :
    (nextRebuild env s pc).1.db.Disabled id := by
  cases pc with
  | readAbilities rows snapshot =>
    cases rows with
    | cons c =>
      apply hd.setRow (find_saveChannel s.db)
      intro hid
      obtain ⟨_, hrow, hstatus⟩ := hok.1 c rfl hid
      obtain ⟨_, hrow', hne⟩ := hd
      rw [← hid, hrow] at hrow'
      rw [← hstatus, some.inj hrow']
      exact hne
    | nil =>
      rw [nextRebuild]
      cases snapshot.buildIndex env (s.db.abilities.rows.map Ability.group) with
      | none | some => exact hd
  | _ => exact hd

theorem nextStatus_disabled (time : Int)
    (hno : ∀ c ∈ pc.savesStatus, c.id = id → c.status ≠ channelStatusEnabled) (hd : s.db.Disabled id) :
    (nextStatus env s time pc).1.db.Disabled id := by
  cases pc with
  | saveStatus a c =>
    rw [nextStatus]
    cases hsave : s.db.saveWithoutKey c with
    | none => exact hd
    | some =>
      obtain ⟨_, hid', hstatus', _, hfind⟩ := find_saveWithoutKey hsave
      rw [← hid'] at hfind
      apply hd.setRow hfind
      intro hid
      rw [hstatus']
      exact hno c rfl (hid'.symm.trans hid)
  | lockStatus =>
    rw [nextStatus]
    cases s.statusLock with
    | none | some => exact hd
  | cacheGet a =>
    rw [nextStatus]
    cases s.cache.channelsIDM a.id with
    | none => exact hd
    | some =>
      dsimp only
      split
      · exact hd
      · split <;> exact hd
  | getById a =>
    rw [nextStatus]
    cases s.db.channels.find a.id with
    | none => exact hd
    | some =>
      dsimp only
      split <;> exact hd
  | _ => exact hd

theorem next_disabled {time : Int} (hk : Knows id s pc) (hok : (freshOk id).run s pc time)
    (hno : ∀ c ∈ pc.savesStatus, c.id = id → c.status ≠ channelStatusEnabled) (hd : s.db.Disabled id) :
    (next env pc s time).1.db.Disabled id := by
  rw [next]
  cases hr : pc.isRebuild with
  | true =>
    rw [if_pos rfl]
    exact nextRebuild_disabled env hok hd
  | false =>
    rw [if_neg Bool.false_ne_true, if_pos (hk.isStatus hr)]
    exact nextStatus_disabled env time hno hd

theorem step_disabled {x : System State Pc} (h : Holds (disabling id) x) {b : Action}
    (hok : (freshOk id).Ok x b) (hno : ¬ Enables x id b) (hd : x.shared.db.Disabled id) :
    ((machine env).step x b).shared.db.Disabled id := by
  cases b with
  | call => exact hd
  | run j time =>
    cases hj : x.procs[j]? with
    | none =>
      rw [Machine.step_run_none time hj]
      exact hd
    | some pc =>
      rw [Machine.step_run time hj]
      apply next_disabled env (h.own j pc hj).1 (hok pc hj) ?_ hd
      intro c hc hid hen
      exact hno ⟨pc, hj, c, hc, hid, hen⟩
  | env e => exact nomatch e

end Disabled

theorem consistent_initial {db : Db} {id : Int}
    (h : ∃ row ∈ db.channels.find id, row.channelInfo.isMultiKey = false) :
    Consistent id (initial db).shared where
  single := by
    intro row hrow
    obtain ⟨_, hrow', hsingle⟩ := h
    have hfind : db.channels.find id = some row := hrow
    rw [mem_def, hfind] at hrow'
    exact some.inj hrow' ▸ hsingle
  objects := by
    intro i c hc
    cases hc
  enabled := by
    intro group model hin
    cases hin
  once := by
    intro group model
    exact Nat.zero_le 1

/-- A call that disables a single-key channel returns true with its next step; from then on, until a
step stores that the channel is enabled, no request is given it. -/
theorem disabled_channel_not_selected (env : Env) (db : Db) (as bs : List Action) (i : ℕ) (time : Int)
    (a : StatusCall) (hsingle : ∃ row ∈ db.channels.find a.id, row.channelInfo.isMultiKey = false)
    (hdisables : a.status ≠ channelStatusEnabled)
    (hok : Along (machine env).step (freshOk a.id).Ok (initial db) (as ++ .run i time :: bs))
    (hreturns : (exec (machine env).step (initial db) as).procs[i]? = some (.unlockStatus a true))
    (hquiet : Along (machine env).step (fun x b => ¬ Enables x a.id b)
      (exec (machine env).step (initial db) (as ++ [.run i time])) bs) :
    ¬ (exec (machine env).step (initial db) (as ++ .run i time :: bs)).shared.cache.CanSelect a.id := by
  have hstart : Holds (disabling a.id) (initial db) := Holds.initial (consistent_initial hsingle) (fun _ => rfl)
  obtain ⟨hbefore, hreturn, hafter⟩ := along_append.mp hok
  have hx := Holds.run (disabling_kept env a.id) hstart as hbefore
  -- The call still holds the lock, so what it has stored is there.
  obtain ⟨row, hrow, hstatus⟩ := (hx.own i _ hreturns).1 rfl rfl
  have hdisabled : (exec (machine env).step (initial db) as).shared.db.Disabled a.id :=
    ⟨row, hrow, hstatus ▸ hdisables⟩
  have hreturned : ((machine env).step (exec (machine env).step (initial db) as) (.run i time)).shared.db.Disabled
      a.id := by
    rw [Machine.step_run time hreturns]
    exact hdisabled
  have hx' := hx.step (disabling_kept env a.id) (.run i time) hreturn
  rw [exec_append, exec_cons, exec_nil] at hquiet
  have hend := exec_invariant
    (fun x => Holds (disabling a.id) x ∧ x.shared.db.Disabled a.id)
    (fun x b hxd hb => ⟨hxd.1.step (disabling_kept env a.id) b hb.1, step_disabled env hxd.1 hb.1 hb.2 hxd.2⟩)
    _ bs ⟨hx', hreturned⟩ (along_and hafter hquiet)
  rw [exec_append, exec_cons]
  exact hend.1.shared.not_canSelect hend.2

instance (id : Int) (x : System State Pc) (b : Action) : Decidable ((freshOk id).Ok x b) :=
  (freshOk id).decideOk (fun _ _ => inferInstanceAs (Decidable (_ = true)))
    (fun _ _ _ => inferInstanceAs (Decidable (_ ∧ _))) (fun _ _ => .isTrue trivial) x b

instance (x : System State Pc) (id : Int) (b : Action) : Decidable (Enables x id b) :=
  match b with
  | .call _ | .env _ => .isFalse not_false
  | .run j _ => inferInstanceAs (Decidable (∃ pc ∈ x.procs[j]?, ∃ c ∈ pc.savesStatus, c.id = id ∧ _))

def disableFirst : StatusCall := ⟨1, "", channelStatusAutoDisabled, "quota"⟩

def rebuildAndDisable : List Action :=
  [.call .initChannelCache, .run 0 0, .run 0 0, .run 0 0, .call (.updateChannelStatus disableFirst), .run 1 0, .run 1 0,
   .run 1 0, .run 1 0, .run 1 0, .run 1 0]

def twoChannels : Db :=
  (Db.empty.insert { id := 1, key := "k", models := "m,n", group := "g" }).insert
    { id := 2, key := "k", models := "m,m", group := "g" }

theorem disabled_channel_not_selected_rebuilt :
    let x := exec (machine sampleEnv).step (initial twoChannels)
      (rebuildAndDisable ++ .run 1 0 :: [.call .initChannelCache, .run 2 0, .run 2 0, .run 2 0])
    ¬ x.shared.cache.CanSelect 1 ∧
    (x.shared.cache.getRandomSatisfiedChannel "g" "m" 0 "" 0).channelId = some 2 :=
  ⟨disabled_channel_not_selected sampleEnv twoChannels rebuildAndDisable
    [.call .initChannelCache, .run 2 0, .run 2 0, .run 2 0] 1 0 disableFirst (by decide +kernel) (by decide +kernel)
    (by decide +kernel) (by rfl) (by decide +kernel), by decide +kernel⟩

/-- A channel that names a model twice is listed twice, and one of the two stays. A rebuild that has
read the rows before the call, and installs them after it, lists the channel again. -/
theorem disabled_channel_selected :
    (let x := exec (machine sampleEnv).step
        (initial (Db.empty.insert { id := 1, key := "k", models := "m,m", group := "g" }))
        (rebuildAndDisable ++ [.run 1 0]);
      x.procs[1]? = some (.returned disableFirst true) ∧
        (x.shared.cache.getRandomSatisfiedChannel "g" "m" 0 "" 0).channelId = some 1) ∧
    (let x := exec (machine sampleEnv).step
        (initial (Db.empty.insert { id := 1, key := "k", models := "m", group := "g" }))
        ([.call .initChannelCache, .run 0 0, .run 0 0, .run 0 0, .call (.updateChannelStatus disableFirst),
          .call .initChannelCache, .run 2 0] ++ List.replicate 7 (.run 1 0) ++ [.run 2 0, .run 2 0]);
      x.procs[1]? = some (.returned disableFirst true) ∧
        (x.shared.cache.getRandomSatisfiedChannel "g" "m" 0 "" 0).channelId = some 1) :=
  ⟨⟨by rfl, by decide +kernel⟩, by rfl, by decide +kernel⟩

end AiGateway.Channels
