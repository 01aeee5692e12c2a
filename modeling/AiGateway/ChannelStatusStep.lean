import AiGateway.ChannelStatusState

/-! The steps of status calls and rebuilds: each keeps the index and the table consistent, and leaves
the call that holds the lock what it knows. -/
namespace AiGateway.Channels

open Interleave (Assertion Keeps)
open Option

section Watched

variable {id : Int} {s s' : State} {pc : Pc}

def locked (s : State) : ℕ := if s.statusLock.isSome then 1 else 0

def Pc.locks (pc : Pc) : ℕ := if pc.holding.isSome then 1 else 0

structure StatusStep (id : Int) (s : State) (pc : Pc) (s' : State) (pc' : Pc) : Prop where
  consistent : Consistent id s'
  knows : Knows id s' pc'
  holds : ∀ a ∈ pc'.holding, s'.statusLock = some a
  locked : locked s'+pc.locks = locked s+pc'.locks

theorem StatusStep.under (a : StatusCall) {pc' : Pc} (hpc : pc.holding = some a) (hpc' : pc'.holding = some a)
    (hlock : s.statusLock = some a) (hlock' : s'.statusLock = s.statusLock) (hc : Consistent id s')
    (hk : Knows id s' pc') : StatusStep id s pc s' pc' where
  consistent := hc
  knows := hk
  holds := by
    intro b hb
    rw [hlock', hlock, ← hpc', hb]
  locked := by simp only [Channels.locked, Pc.locks, hlock', hpc, hpc']

variable (env : Env)

theorem status_step (time : Int) (h : Consistent id s) (hk : Knows id s pc) (hs : pc.isStatus = true)
    (hlock : ∀ a ∈ pc.holding, s.statusLock = some a) :
    StatusStep id s pc (nextStatus env s time pc).1 (nextStatus env s time pc).2 := by
  have hfalse (a : StatusCall) (s' : State) : Stored id s' a false := fun h => absurd h Bool.false_ne_true
  have hfree (s' : State) : ∀ a ∈ (none : Option StatusCall), s'.statusLock = some a :=
    fun a ha => absurd ha (not_mem_none a)
  cases pc with
  | lockStatus =>
    simp only [nextStatus]
    cases hl : s.statusLock with
    | some => exact ⟨h, trivial, hfree _, rfl⟩
    | none =>
      refine ⟨⟨h.single, h.objects, h.enabled, h.once⟩, trivial, ?_, ?_⟩
      · rintro b ⟨⟩
        rfl
      · simp only [locked, Pc.locks, Pc.holding, hl, isSome_none, isSome_some, if_true, Bool.false_eq_true, if_false]
  | cacheGet a =>
    have hl := hlock a rfl
    simp only [nextStatus]
    cases ho : s.cache.channelsIDM a.id with
    | none => exact .under a rfl rfl hl rfl h (hfalse a s)
    | some c =>
      have hc := h.objects a.id c ho
      dsimp only
      split
      · next hmulti =>
        refine .under a rfl rfl hl rfl h ⟨hc, ?_⟩
        intro hid
        rw [hc.2 hid] at hmulti
        cases hmulti
      · split
        · exact .under a rfl rfl hl rfl h (hfalse a s)
        · exact .under a rfl rfl hl rfl h (fun _ => rfl)
  | cacheHandle a generation =>
    obtain ⟨hcons, hl, hholding, hknows⟩ := h.handleCached env time hk.1 hk.2 generation
    exact .under a rfl hholding (hlock a rfl) hl hcons hknows
  | cacheStatus a status => exact .under a rfl rfl (hlock a rfl) rfl (h.cacheStatus a.id status) (h.removed hk)
  | getById a =>
    have hl := hlock a rfl
    simp only [nextStatus]
    cases hrow : s.db.channels.find a.id with
    | none => exact .under a rfl rfl hl rfl h (hfalse a s)
    | some c =>
      dsimp only
      split
      · exact .under a rfl rfl hl rfl h (hfalse a s)
      · obtain ⟨hkind, hstatus⟩ := changeStatus_kind env.json a.usingKey a.status a.reason time
        have hid := (c.changeStatus_spec env.json a.usingKey a.status a.reason time).same.id
        have hsingle (ha : a.id = id) : c.channelInfo.isMultiKey = false := h.single c (ha ▸ hrow)
        refine .under a rfl rfl hl rfl h ⟨⟨hid.trans (Table.find_key _ hrow), ?_⟩, ?_, hk⟩
        · intro ha
          exact hkind.trans (hsingle ha)
        · intro ha
          exact hstatus (hsingle ha)
  | saveStatus a c shouldUpdateAbilities =>
    obtain ⟨⟨hid, hkind⟩, hstatus, hremoved⟩ := hk
    have hl := hlock a rfl
    simp only [nextStatus]
    cases hsave : s.db.saveWithoutKey c with
    | none =>
      cases shouldUpdateAbilities <;> exact .under a rfl rfl hl rfl h (hfalse a s)
    | some db =>
      obtain ⟨c', hid', hstatus', hinfo, hfind⟩ := find_saveWithoutKey hsave
      have hida : c'.id = a.id := hid'.trans hid
      have hcons : Consistent id { s with db := db } := by
        apply h.setRow (c := c')
        · rw [hid']
          exact hfind
        · intro hc'
          rw [hinfo]
          exact hkind (hida.symm.trans hc')
        · -- The id is still in the index only if the call enables the channel.
          intro group model hc' hin
          have ha : a.id = id := hida.symm.trans hc'
          rw [hstatus', hstatus ha]
          by_contra hne
          exact hremoved ha hne group model hin
      have hstored : Stored id { s with db := db } a true := by
        intro _ ha
        refine ⟨c', ?_, by rw [hstatus', hstatus ha]⟩
        rw [hfind, if_pos (ha.symm.trans hid.symm)]
      cases shouldUpdateAbilities <;> exact .under a rfl rfl hl rfl hcons hstored
  | abilityStatus a =>
    exact .under a rfl rfl (hlock a rfl) rfl ⟨h.single, h.objects, h.enabled, h.once⟩ hk
  | unlockStatus a =>
    have hl := hlock a rfl
    refine ⟨⟨h.single, h.objects, h.enabled, h.once⟩, trivial, hfree _, ?_⟩
    simp only [nextStatus, locked, Pc.locks, Pc.holding, hl, isSome_none, isSome_some, if_true,
      Bool.false_eq_true, if_false]
  | returned => exact ⟨h, trivial, hfree _, rfl⟩
  | _ => cases hs

theorem status_blocked (time : Int) {b : StatusCall} (hs : pc.isStatus = true) (hpc : pc.holding = none)
    (hlock : s.statusLock = some b) : (nextStatus env s time pc).1 = s := by
  cases pc with
  | lockStatus => simp only [nextStatus, hlock]
  | returned => rfl
  | cacheGet | cacheHandle | cacheStatus | getById | saveStatus | abilityStatus | unlockStatus => cases hpc
  | _ => cases hs

theorem holding_of_rebuild (hr : pc.isRebuild = true) : pc.holding = none := by
  cases pc with
  | cacheGet | cacheHandle | cacheStatus | getById | saveStatus | abilityStatus | unlockStatus => cases hr
  | _ => rfl

theorem nextRebuild_isRebuild (hr : pc.isRebuild = true) : (nextRebuild env s pc).2.isRebuild = true := by
  cases pc with
  | readAbilities rows snapshot =>
    cases rows with
    | cons => rfl
    | nil =>
      simp only [nextRebuild]
      cases snapshot.buildIndex env (s.db.abilities.rows.map Ability.group) <;> rfl
  | readChannels | install | rebuilt | panicked => rfl
  | _ => cases hr

theorem Knows.isStatus (h : Knows id s pc) (hr : pc.isRebuild = false) : pc.isStatus = true := by
  cases pc with
  | lockStatus | cacheGet | cacheHandle | cacheStatus | getById | saveStatus | abilityStatus | unlockStatus
  | returned => rfl
  | readChannels | readAbilities | install | rebuilt | panicked => cases hr
  | _ => exact h.elim

def disabling (id : Int) : Assertion State Pc Unit where
  shared := Consistent id
  own s pc := Knows id s pc ∧ ∀ a ∈ pc.holding, s.statusLock = some a
  pair _ _ _ := True
  value s _ := locked s
  weight pc _ := pc.locks

theorem next_step {time : Int} (h : Consistent id s) (hk : Knows id s pc)
    (hlock : ∀ a ∈ pc.holding, s.statusLock = some a) (hok : (freshOk id).run s pc time) :
    StatusStep id s pc (next env pc s time).1 (next env pc s time).2 := by
  rw [next]
  cases hr : pc.isRebuild with
  | true =>
    rw [if_pos rfl]
    obtain ⟨hcons, hknows⟩ := rebuild_step env h hk hr hok
    have hsame := (rebuild_frame env hk hok).1
    have hnone := holding_of_rebuild (nextRebuild_isRebuild env (s := s) hr)
    refine ⟨hcons, hknows, ?_, ?_⟩
    · intro a ha
      rw [hnone] at ha
      cases ha
    · simp only [locked, Pc.locks, hsame, hnone, holding_of_rebuild hr]
  | false =>
    have hs := hk.isStatus hr
    rw [if_neg Bool.false_ne_true, if_pos hs]
    exact status_step env time h hk hs hlock

/-- A step of one call leaves the others what they know: a rebuild respects the one that holds the
lock, and other status calls wait for it. -/
theorem next_frame {time : Int} {b : Pc} (hk : Knows id s pc) (hok : (freshOk id).run s pc time)
    (hb : Knows id s b) (hlock : ∀ a ∈ b.holding, s.statusLock = some a)
    (hone : pc.locks+b.locks ≤ locked s) :
    Knows id (next env pc s time).1 b ∧ ∀ a ∈ b.holding, (next env pc s time).1.statusLock = some a := by
  cases hholding : b.holding with
  | none =>
    have hnone (P : StatusCall → Prop) : ∀ a ∈ b.holding, P a := by
      intro a ha
      rw [hholding] at ha
      cases ha
    exact ⟨hb.frame (hnone _) (hnone _), nofun⟩
  | some a =>
    have hl : s.statusLock = some a := hlock a hholding
    have hpc : pc.holding = none := by
      simp only [Pc.locks, hholding, locked, hl, isSome_some, if_true] at hone
      cases hp : pc.holding with
      | none => rfl
      | some =>
        simp only [hp, isSome_some, if_true] at hone
        omega
    have hframe : (next env pc s time).1.statusLock = s.statusLock ∧
        (Removed id s a → Removed id (next env pc s time).1 a) ∧
        ∀ ok, Stored id s a ok → Stored id (next env pc s time).1 a ok := by
      rw [next]
      cases hr : pc.isRebuild with
      | true =>
        rw [if_pos rfl]
        obtain ⟨hsame, hremoved, hstored⟩ := rebuild_frame env hk hok
        exact ⟨hsame, hremoved a hl, hstored a⟩
      | false =>
        have hs := hk.isStatus hr
        rw [if_neg Bool.false_ne_true, if_pos hs, status_blocked env time hs hpc hl]
        exact ⟨rfl, fun hrem => hrem, fun _ hst => hst⟩
    refine ⟨hb.frame ?_ ?_, ?_⟩
    · intro a' ha'
      rw [hholding] at ha'
      obtain rfl := some.inj ha'
      exact hframe.2.1
    · intro a' ha'
      rw [hholding] at ha'
      obtain rfl := some.inj ha'
      exact hframe.2.2
    · intro a' ha'
      obtain rfl := some.inj ha'
      rw [hframe.1, hl]

theorem disabling_kept (id : Int) : Keeps (machine env) (freshOk id) (disabling id) where
  symm _ := trivial
  call {s c} _ hc := by
    cases c with
    | initChannelCache | updateChannelStatus => exact ⟨⟨trivial, nofun⟩, fun _ => rfl⟩
    | _ => cases hc
  call_pair _ _ _ := trivial
  run h hpc _ hok := by
    have hstep := next_step env h hpc.1 hpc.2 hok
    exact ⟨hstep.consistent, ⟨hstep.knows, hstep.holds⟩, fun _ => hstep.locked⟩
  other _ hpc hb _ hone hok := ⟨next_frame env hpc.1 hok hb.1 hb.2 (hone ()), trivial⟩
  others _ _ _ _ _ _ _ _ := trivial
  env {_ e} := nomatch e
  env_own {_ e} := nomatch e
  env_pair {_ e} := nomatch e

end Watched

end AiGateway.Channels
