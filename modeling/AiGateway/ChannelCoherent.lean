import AiGateway.ChannelKeys

/-! Changes of the status one after another, with the memory cache: when the cached object and the
stored row of a multi-key channel agree. -/
namespace AiGateway.Channels

open Function Option Run List

abbrev TimedCall := StatusCall × (ℕ → Int)

def statusRun (env : Env) (s : State) (call : TimedCall) (n : ℕ) : State × Pc :=
  exec (fun x time => nextStatus env x.1 time x.2) (s, .lockStatus call.1) ((range n).map call.2)

def updateChannelStatus (env : Env) (s : State) (call : TimedCall) : State := (statusRun env s call 8).1

def Pc.stepsLeft : Pc → ℕ
  | .lockStatus _ => 8
  | .cacheGet _ => 7
  | .cacheHandle .. => 6
  | .cacheStatus .. => 5
  | .getById _ => 4
  | .saveStatus .. => 3
  | .abilityStatus .. => 2
  | .unlockStatus .. => 1
  | _ => 0

/-- A call that is alone finds the lock free, and gives it back. -/
structure Alone (x : State × Pc) : Prop where
  status : x.2.isStatus = true
  lock : x.2.holding = none → x.1.statusLock = none

variable {pc : Pc}

theorem alone_of_holding {s : State} {n : ℕ} (a : StatusCall) (hs : pc.isStatus = true) (ha : pc.holding = some a)
    (hn : pc.stepsLeft.ble n = true) : Alone (s, pc) ∧ pc.stepsLeft ≤ n := by
  refine ⟨⟨hs, ?_⟩, Nat.le_of_ble_eq_true hn⟩
  intro hnone
  rw [ha] at hnone
  cases hnone

variable (env : Env)

theorem alone_step (time : Int) {s : State} (h : Alone (s, pc)) :
    Alone (nextStatus env s time pc) ∧ (nextStatus env s time pc).2.stepsLeft ≤ pc.stepsLeft-1 := by
  cases pc with
  | lockStatus a =>
    have hl : s.statusLock = none := h.lock rfl
    simp only [nextStatus, hl]
    exact alone_of_holding a rfl rfl rfl
  | cacheGet a | getById a =>
    rw [nextStatus]
    repeat' split
    all_goals exact alone_of_holding a rfl rfl rfl
  | cacheHandle a generation =>
    rw [nextStatus, handleCached]
    dsimp only
    generalize (if generation = s.cache.generation then _ else s.cache) = cache
    split <;> exact alone_of_holding a rfl rfl rfl
  | cacheStatus a => exact alone_of_holding a rfl rfl rfl
  | saveStatus a c should =>
    cases hsave : s.db.saveWithoutKey c <;> cases should <;>
      simp only [nextStatus, hsave, if_true, Bool.false_eq_true, if_false]
    all_goals exact alone_of_holding a rfl rfl rfl
  | abilityStatus a => exact alone_of_holding a rfl rfl rfl
  | unlockStatus => exact ⟨⟨rfl, fun _ => rfl⟩, Nat.le_refl _⟩
  | returned => exact ⟨h, Nat.le_refl _⟩
  | _ => cases h.status

theorem returned_of_stepsLeft (hs : pc.isStatus = true) (h : pc.stepsLeft = 0) : ∃ a ok, pc = .returned a ok := by
  cases pc with
  | returned a ok => exact ⟨a, ok, rfl⟩
  | _ => simp [Pc.isStatus, Pc.stepsLeft] at hs h

theorem statusRun_succ (s : State) (call : TimedCall) (n : ℕ) : statusRun env s call (n+1) =
      nextStatus env (statusRun env s call n).1 (call.2 n) (statusRun env s call n).2 := by
  rw [statusRun, range_succ, map_append, exec_append]
  rfl

theorem statusRun_returned {s : State} (hs : s.statusLock = none) (call : TimedCall) :
    (∃ a ok, (statusRun env s call 8).2 = .returned a ok) ∧ (updateChannelStatus env s call).statusLock = none := by
  have hsteps (n : ℕ) : Alone (statusRun env s call n) ∧ (statusRun env s call n).2.stepsLeft ≤ 8-n := by
    induction n with
    | zero => exact ⟨⟨rfl, fun _ => hs⟩, Nat.le_refl _⟩
    | succ n ih =>
      obtain ⟨halone, hleft⟩ := ih
      obtain ⟨halone', hleft'⟩ :
          Alone (statusRun env s call (n+1)) ∧
            (statusRun env s call (n+1)).2.stepsLeft ≤ (statusRun env s call n).2.stepsLeft-1 := by
        rw [statusRun_succ]
        exact alone_step env (call.2 n) halone
      exact ⟨halone', by omega⟩
  obtain ⟨halone, hleft⟩ := hsteps 8
  obtain ⟨a, ok, hpc⟩ := returned_of_stepsLeft halone.status (Nat.le_zero.mp hleft)
  refine ⟨⟨a, ok, hpc⟩, halone.lock ?_⟩
  rw [hpc]
  rfl

section Agreement

variable (json : Json) (id : Int)

structure Stands (s : State) (cached stored : KeyView) (enabled : Bool) : Prop where
  object : ∃ c, s.cache.channelsIDM id = some c ∧ c.channelInfo.isMultiKey = true ∧ c.keyView json = cached
  row : ∃ c, s.db.channels.find id = some c ∧ c.channelInfo.isMultiKey = true ∧ c.keyView json = stored
  abilities : ∀ ability ∈ s.db.abilities.rows, ability.channelId = id → ability.enabled = enabled

def KeyView.isEnabled (v : KeyView) : Bool := v.status = channelStatusEnabled

/-- The cached object and the row have the same keys, the same status and the same disabled keys,
and the abilities follow the status. -/
def Agree (s : State) : Prop := ∃ v : KeyView, Stands json id s v v v.isEnabled

/-- A call on the channel that asks for the status that the channel has asks for nothing else. -/
def AsksNothingElse (s : State) (call : TimedCall) : Prop :=
  call.1.id = id → ∀ row ∈ s.db.channels.find id, row.status = call.1.status →
    (row.keyView json).update call.1.usingKey call.1.status = row.keyView json

instance (s : State) (call : TimedCall) : Decidable (AsksNothingElse json id s call) :=
  inferInstanceAs (Decidable (_ → ∀ row ∈ s.db.channels.find id, row.status = _ → _ = _))

def Handled (v : KeyView) (a : StatusCall) (x : State × Pc) : Prop :=
  let v' := v.update a.usingKey a.status
  match x.2 with
  | .lockStatus b | .cacheGet b => b = a ∧ Stands json id x.1 v v v.isEnabled
  | .cacheHandle b generation _ => b = a ∧ generation = x.1.cache.generation ∧ Stands json id x.1 v v v.isEnabled
  | .cacheStatus b status => b = a ∧ status = v'.status ∧ Stands json id x.1 v' v v.isEnabled
  | .getById b => b = a ∧ Stands json id x.1 v' v v.isEnabled
  | .saveStatus b c should => b = a ∧ v.status ≠ a.status ∧ c.id = id ∧ c.channelInfo.isMultiKey = true ∧
      c.keyView json = v' ∧ (∀ row ∈ x.1.db.channels.find id, row.key = c.key) ∧
      (should = true → v'.isEnabled = decide (a.status = channelStatusEnabled)) ∧
      (should = false → v'.status = v.status) ∧ Stands json id x.1 v' v v.isEnabled
  | .abilityStatus b _ => b = a ∧ v.status ≠ a.status ∧
      v'.isEnabled = decide (a.status = channelStatusEnabled) ∧
      ∃ enabled, Stands json id x.1 v' v' enabled
  | .unlockStatus _ _ | .returned _ _ =>
    Stands json id x.1 v' (if v.status = a.status then v else v') (if v.status = a.status then v else v').isEnabled
  | _ => False

variable {json id}

variable {s : State} {cached stored : KeyView} {enabled : Bool}

theorem Stands.setLock (h : Stands json id s cached stored enabled) (l : Option StatusCall) :
    Stands json id { s with statusLock := l } cached stored enabled := ⟨h.object, h.row, h.abilities⟩

variable {c : Channel} {i : Int}

section
variable (h : Stands json id s cached stored enabled)
include h

theorem Stands.setObject (hm : c.channelInfo.isMultiKey = true) :
    Stands json id { s with cache := { s.cache with
      channelsIDM := Function.update s.cache.channelsIDM id (some c) } } (c.keyView json) stored enabled where
  object := ⟨c, update_self id _ _, hm, rfl⟩
  row := h.row
  abilities := h.abilities

theorem Stands.cacheStatus :
    Stands json id { s with cache := s.cache.cacheUpdateChannelStatus id cached.status } cached stored enabled where
  object := by
    obtain ⟨c, hc, hm, rfl⟩ := h.object
    have hobject : (s.cache.cacheUpdateChannelStatus id (c.keyView json).status).channelsIDM id = some c := by
      rw [Cache.cacheUpdateChannelStatus]
      have hsame : update s.cache.channelsIDM id
          ((s.cache.channelsIDM id).map (fun o => { o with status := (c.keyView json).status })) id = some c := by
        rw [update_self, hc]
        rfl
      split <;> exact hsame
    exact ⟨c, hobject, hm, rfl⟩
  row := h.row
  abilities := h.abilities

theorem Stands.saveRow (hid : c.id = id) (hm : c.channelInfo.isMultiKey = true)
    (hkey : ∀ row ∈ s.db.channels.find id, row.key = c.key) :
    ∃ db, s.db.saveWithoutKey c = some db ∧ Stands json id { s with db := db } cached (c.keyView json) enabled := by
  obtain ⟨row, hrow, _⟩ := h.row
  have hsave : s.db.saveWithoutKey c = some { s.db with channels := s.db.channels.save c } := by
    have hsame : ({ c with key := row.key } : Channel) = c := by rw [hkey row hrow]
    have hrow' : s.db.channels.find c.id = some row := hid.symm ▸ hrow
    simp only [Db.saveWithoutKey, hrow', hsame]
  refine ⟨_, hsave, h.object, ⟨c, ?_, hm, rfl⟩, h.abilities⟩
  exact Table.find_save_of_key s.db.channels hid hrow

theorem Stands.abilityStatus (enabled' : Bool) :
    Stands json id { s with db := s.db.updateAbilityStatus id enabled' } cached stored enabled' where
  object := h.object
  row := h.row
  abilities := by
    intro ability hin hid
    obtain ⟨old, _, rfl⟩ := mem_map.mp hin
    by_cases ho : old.channelId = id
    · simp [ho]
    · simp [ho] at hid

end

theorem changeStatus_view (hm : c.channelInfo.isMultiKey = true) (a : StatusCall) (time : Int) :
    ((c.changeStatus json a.usingKey a.status a.reason time).1.keyView json =
      (c.keyView json).update a.usingKey a.status) ∧
    (c.changeStatus json a.usingKey a.status a.reason time).1.key = c.key := by
  rw [Channel.changeStatus, if_pos hm]
  exact ⟨handlerMultiKeyUpdate_view json c a.usingKey a.status a.reason time,
    (handlerMultiKeyUpdate_kept json c a.usingKey a.status a.reason time).key⟩

theorem handled_step (time : Int) {v : KeyView} {a : StatusCall} (ha : a.id = id) (halone : Alone (s, pc))
    (h : Handled env.json id v a (s, pc)) : Handled env.json id v a (nextStatus env s time pc) := by
  cases pc with
  | lockStatus =>
    obtain ⟨rfl, (hs : Stands env.json id s _ _ _)⟩ := h
    have hl : s.statusLock = none := halone.lock rfl
    simp only [nextStatus, hl]
    exact ⟨rfl, hs.setLock _⟩
  | cacheGet =>
    obtain ⟨rfl, (hs : Stands env.json id s _ _ _)⟩ := h
    obtain ⟨c, hc, hm, _⟩ := hs.object
    simp only [nextStatus, ha, hc, hm, if_true]
    exact ⟨rfl, rfl, hs⟩
  | cacheHandle b generation c₀ =>
    obtain ⟨rfl, (hgen : generation = s.cache.generation), (hs : Stands env.json id s _ _ _)⟩ := h
    subst hgen
    obtain ⟨c, hc, hm, hv⟩ := hs.object
    have hobject : cachedObject s b s.cache.generation c₀ = c := by
      rw [cachedObject, if_pos rfl, ha, hc]
      rfl
    have hview := handlerMultiKeyUpdate_view env.json c b.usingKey b.status b.reason time
    have hm' := (handlerMultiKeyUpdate_kept env.json c b.usingKey b.status b.reason time).kind.trans hm
    have hset := hs.setObject hm'
    rw [hview, hv] at hset
    simp only [nextStatus, handleCached, hobject, ha, if_true]
    split
    · refine ⟨rfl, ?_, hset⟩
      rw [← hv, ← hview]
      rfl
    · exact ⟨rfl, hset⟩
  | cacheStatus =>
    obtain ⟨rfl, rfl, (hs : Stands env.json id s _ _ _)⟩ := h
    simp only [nextStatus, ha]
    exact ⟨rfl, hs.cacheStatus⟩
  | getById b =>
    obtain ⟨rfl, (hs : Stands env.json id s _ _ _)⟩ := h
    obtain ⟨c, hc, hm, hv⟩ := hs.row
    have hstatus : c.status = v.status := congrArg KeyView.status hv
    simp only [nextStatus, ha, hc]
    split
    · next he =>
      have heq : v.status = b.status := hstatus.symm.trans he
      simp only [Handled, if_pos heq]
      exact hs
    · next hne =>
      obtain ⟨hview, hkey⟩ := changeStatus_view hm b time
      have hset := c.changeStatus_spec env.json b.usingKey b.status b.reason time
      have hstatus' : (c.changeStatus env.json b.usingKey b.status b.reason time).1.status =
          (v.update b.usingKey b.status).status := by
        rw [← hv, ← hview]
        rfl
      refine ⟨rfl, fun he => hne (hstatus.trans he), hset.same.id.trans (Table.find_key _ hc),
        (changeStatus_kind env.json b.usingKey b.status b.reason time).1.trans hm, ?_, ?_, ?_, ?_, hs⟩
      · rw [hview, hv]
      · intro row hrow
        rw [mem_def, hc, some.injEq] at hrow
        rw [hkey, hrow]
      · intro hw
        rw [KeyView.isEnabled, ← hstatus']
        exact decide_eq_decide.mpr (hset.written hw)
      · intro hw
        rw [← hstatus', hset.unwritten hw, hstatus]
  | saveStatus b c should =>
    obtain ⟨rfl, hne, hid, hm, hv, hkey, hwritten, hunwritten, (hs : Stands env.json id s _ _ _)⟩ := h
    obtain ⟨_, hsave, hs'⟩ := hs.saveRow hid hm hkey
    rw [hv] at hs'
    simp only [nextStatus, hsave]
    cases should with
    | true => exact ⟨rfl, hne, hwritten rfl, _, hs'⟩
    | false =>
      have hflag : (v.update b.usingKey b.status).isEnabled = v.isEnabled := by
        rw [KeyView.isEnabled, hunwritten rfl, KeyView.isEnabled]
      simp only [Bool.false_eq_true, if_false, Handled, if_neg hne, hflag]
      exact hs'
  | abilityStatus =>
    obtain ⟨rfl, hne, hflag, enabled, (hs : Stands env.json id s _ _ _)⟩ := h
    simp only [nextStatus, Handled, if_neg hne, hflag, ha]
    exact hs.abilityStatus _
  | unlockStatus => exact Stands.setLock h none
  | returned => exact h
  | _ => exact h.elim

theorem updateChannelStatus_view (hl : s.statusLock = none) {v : KeyView} {call : TimedCall}
    (ha : call.1.id = id) (h : Stands env.json id s v v v.isEnabled) :
    Stands env.json id (updateChannelStatus env s call) (v.update call.1.usingKey call.1.status)
      (if v.status = call.1.status then v else v.update call.1.usingKey call.1.status)
      (if v.status = call.1.status then v else v.update call.1.usingKey call.1.status).isEnabled := by
  have hrun : Alone (statusRun env s call 8) ∧ Handled env.json id v call.1 (statusRun env s call 8) := by
    apply exec_invariant_all (fun x => Alone x ∧ Handled env.json id v call.1 x)
    · intro x time hx
      exact ⟨(alone_step env time hx.1).1, handled_step env time ha hx.1 hx.2⟩
    · exact ⟨⟨rfl, fun _ => hl⟩, rfl, h⟩
  obtain ⟨⟨_, _, hpc⟩, _⟩ := statusRun_returned env hl call
  have hhandled := hrun.2
  rw [Handled, hpc] at hhandled
  exact hhandled

structure SameSide (id : Int) (s s' : State) : Prop where
  object : s'.cache.channelsIDM id = s.cache.channelsIDM id
  row : s'.db.channels.find id = s.db.channels.find id
  abilities : ∀ ability ∈ s'.db.abilities.rows, ability.channelId = id → ability ∈ s.db.abilities.rows

namespace SameSide

theorem refl (s : State) : SameSide id s s := ⟨rfl, rfl, fun _ h _ => h⟩

theorem trans {s' s'' : State} (h : SameSide id s s') (h' : SameSide id s' s'') : SameSide id s s'' :=
  ⟨h'.object.trans h.object, h'.row.trans h.row,
    fun ability hin ha => h.abilities ability (h'.abilities ability hin ha) ha⟩

theorem stands {s' : State} (h : SameSide id s s') (hs : Stands json id s cached stored enabled) :
    Stands json id s' cached stored enabled := by
  refine ⟨h.object.symm ▸ hs.object, h.row.symm ▸ hs.row, ?_⟩
  intro ability hin hid
  exact hs.abilities ability (h.abilities ability hin hid) hid

theorem setObject (hi : i ≠ id) (o : Option Channel) : SameSide id s
    { s with cache := { s.cache with channelsIDM := Function.update s.cache.channelsIDM i o } } :=
  ⟨update_of_ne hi.symm _ _, rfl, fun _ h _ => h⟩

theorem cacheStatus (hi : i ≠ id) (status : Int) :
    SameSide id s { s with cache := s.cache.cacheUpdateChannelStatus i status } := by
  refine ⟨?_, rfl, fun _ h _ => h⟩
  change (s.cache.cacheUpdateChannelStatus i status).channelsIDM id = _
  rw [Cache.cacheUpdateChannelStatus]
  split <;> exact update_of_ne hi.symm _ _

theorem saveRow (hi : c.id ≠ id) {db : Db} (hsave : s.db.saveWithoutKey c = some db) :
    SameSide id s { s with db := db } := by
  obtain ⟨_, _, _, _, hfind⟩ := find_saveWithoutKey hsave
  refine ⟨rfl, (hfind id).trans (if_neg hi.symm), ?_⟩
  intro ability hin _
  rw [Db.saveWithoutKey] at hsave
  cases hrow : s.db.channels.find c.id with
  | none => simp [hrow] at hsave
  | some =>
    simp only [hrow, some.injEq] at hsave
    rwa [← hsave] at hin

theorem abilityStatus (hi : i ≠ id) (flag : Bool) :
    SameSide id s { s with db := s.db.updateAbilityStatus i flag } := by
  refine ⟨rfl, rfl, ?_⟩
  intro ability hin hid
  obtain ⟨old, hold, rfl⟩ := mem_map.mp hin
  by_cases ho : old.channelId = i
  · simp only [ho, decide_true, if_true] at hid
    exact absurd hid hi
  · simpa [ho] using hold

end SameSide

def Pc.isOn (i : Int) : Pc → Prop
  | .lockStatus a | .cacheGet a | .cacheHandle a _ _ | .cacheStatus a _ | .getById a | .abilityStatus a _
  | .unlockStatus a _ | .returned a _ => a.id = i
  | .saveStatus a c _ => a.id = i ∧ c.id = i
  | _ => False

theorem nextStatus_other (time : Int) (hi : i ≠ id) (h : pc.isOn i) :
    SameSide id s (nextStatus env s time pc).1 ∧ (nextStatus env s time pc).2.isOn i := by
  have hrefl : SameSide id s s := .refl s
  cases pc with
  | lockStatus | cacheGet =>
    rw [nextStatus]
    repeat' split
    all_goals exact ⟨⟨rfl, rfl, fun _ h _ => h⟩, h⟩
  | cacheHandle a generation c =>
    have ha : a.id ≠ id := fun he => hi ((show a.id = i from h) ▸ he)
    have hgo : (nextStatus env s time (.cacheHandle a generation c)).2.isOn i := by
      simp only [nextStatus, handleCached]
      split <;> exact h
    refine ⟨?_, hgo⟩
    simp only [nextStatus, handleCached]
    by_cases hgen : generation = s.cache.generation
    · simp only [if_pos hgen]
      exact .setObject ha _
    · simp only [if_neg hgen]
      exact hrefl
  | cacheStatus a status => exact ⟨.cacheStatus (fun he => hi ((show a.id = i from h) ▸ he)) status, h⟩
  | getById a =>
    cases hc : s.db.channels.find a.id with
    | none =>
      simp only [nextStatus, hc]
      exact ⟨hrefl, h⟩
    | some c =>
      have hid := (c.changeStatus_spec env.json a.usingKey a.status a.reason time).same.id
      simp only [nextStatus, hc]
      split
      · exact ⟨hrefl, h⟩
      · exact ⟨hrefl, h, hid.trans ((Table.find_key _ hc).trans h)⟩
  | saveStatus a c should =>
    obtain ⟨ha, hc⟩ := h
    cases hsave : s.db.saveWithoutKey c with
    | none =>
      simp only [nextStatus, hsave]
      cases should <;> exact ⟨hrefl, ha⟩
    | some db =>
      have hsame : SameSide id s { s with db := db } := .saveRow (hc ▸ hi) hsave
      simp only [nextStatus, hsave]
      cases should <;> exact ⟨hsame, ha⟩
  | abilityStatus a => exact ⟨.abilityStatus (fun he => hi ((show a.id = i from h) ▸ he)) _, h⟩
  | unlockStatus => exact ⟨⟨rfl, rfl, fun _ h _ => h⟩, h⟩
  | returned => exact ⟨hrefl, h⟩
  | _ => exact h.elim

theorem updateChannelStatus_other {call : TimedCall} (ha : call.1.id ≠ id) :
    SameSide id s (updateChannelStatus env s call) := by
  have hrun : SameSide id s (statusRun env s call 8).1 ∧ (statusRun env s call 8).2.isOn call.1.id := by
    apply exec_invariant_all (fun x : State × Pc => SameSide id s x.1 ∧ x.2.isOn call.1.id)
    · intro x time hx
      obtain ⟨hsame, hon⟩ := nextStatus_other env time ha hx.2
      exact ⟨hx.1.trans hsame, hon⟩
    · exact ⟨.refl s, rfl⟩
  exact hrun.1

theorem agree_step (hl : s.statusLock = none) (h : Agree env.json id s) (call : TimedCall) :
    Agree env.json id (updateChannelStatus env s call) ↔ AsksNothingElse env.json id s call := by
  obtain ⟨v, hs⟩ := h
  by_cases ha : call.1.id = id
  · obtain ⟨row, hrow, _, hv⟩ := hs.row
    have hstatus : row.status = v.status := congrArg KeyView.status hv
    have hs' := updateChannelStatus_view env hl ha hs
    have hasks : AsksNothingElse env.json id s call ↔
        (v.status = call.1.status → v.update call.1.usingKey call.1.status = v) := by
      simp only [AsksNothingElse, ha, hrow, mem_some_iff, forall_eq', hstatus, hv, forall_const]
    rw [hasks]
    constructor
    · rintro ⟨_, hw⟩ he
      rw [if_pos he] at hs'
      obtain ⟨_, ho, _, hcached⟩ := hs'.object
      obtain ⟨_, ho', _, hcached'⟩ := hw.object
      obtain ⟨_, hr, _, hstored⟩ := hs'.row
      obtain ⟨_, hr', _, hstored'⟩ := hw.row
      rw [← hcached, ← hstored, some.inj (ho.symm.trans ho'), some.inj (hr.symm.trans hr'), hcached', hstored']
    · intro hsame
      by_cases he : v.status = call.1.status
      · rw [if_pos he, hsame he] at hs'
        exact ⟨v, hs'⟩
      · rw [if_neg he] at hs'
        exact ⟨_, hs'⟩
  · have hside : SameSide id s (updateChannelStatus env s call) := updateChannelStatus_other env ha
    exact ⟨fun _ hid => absurd hid ha, fun _ => ⟨v, hside.stands hs⟩⟩

end Agreement

def twoKeys : Channel where
  id := 1
  key := "a\nb"
  status := channelStatusEnabled
  models := "m"
  group := "g"
  channelInfo := { isMultiKey := true, multiKeySize := 2, multiKeyStatusList := [(0, channelStatusAutoDisabled)] }

def twoKeysState : State where
  db := ⟨Table.empty.insert twoKeys, Table.empty.insert (twoKeys.ability ("g", "m"))⟩
  cache := { Cache.initial with channelsIDM := fun id => if id = 1 then some twoKeys else none }
  statusLock := none

theorem twoKeysState_agree : Agree noJson 1 twoKeysState :=
  ⟨twoKeys.keyView noJson, ⟨twoKeys, rfl, rfl, rfl⟩, ⟨twoKeys, by decide, rfl, rfl⟩, by decide +kernel⟩

/-- The cache and the tables agree on the channel after every call of a sequence exactly when no
call asks for the status that the channel has and still wants something else. -/
theorem cache_agrees_iff (env : Env) (id : Int) (s : State) (hl : s.statusLock = none) (h : Agree env.json id s)
    (calls : List TimedCall) :
    Along (updateChannelStatus env) (fun s call => Agree env.json id (updateChannelStatus env s call)) s calls ↔
      Along (updateChannelStatus env) (AsksNothingElse env.json id) s calls := by
  apply along_congr (fun s => s.statusLock = none ∧ Agree env.json id s)
  · intro s call hs hcall
    exact ⟨(statusRun_returned env hs.1 call).2, hcall⟩
  · intro s call hs
    exact agree_step env hs.1 hs.2 call
  · exact ⟨hl, h⟩

/-- A call of each kind: a key is disabled, the channel is closed, and the key is enabled again. -/
theorem cache_agrees_twoKeys : Along (updateChannelStatus sampleEnv)
    (fun s call => Agree noJson 1 (updateChannelStatus sampleEnv s call)) twoKeysState
    [(⟨1, "b", channelStatusAutoDisabled, "quota"⟩, fun _ => 5),
      (⟨1, "", channelStatusManuallyDisabled, ""⟩, fun _ => 6),
      (⟨1, "a", channelStatusEnabled, ""⟩, fun _ => 7)] :=
  (cache_agrees_iff sampleEnv 1 twoKeysState rfl twoKeysState_agree _).mpr (by decide +kernel)

/-- A disabled key of an enabled channel is enabled in the cache only. -/
theorem enabled_key_in_cache_only :
    let s' := updateChannelStatus sampleEnv twoKeysState (⟨1, "a", channelStatusEnabled, ""⟩, fun _ => 5)
    Agree noJson 1 twoKeysState ∧ ¬ Agree noJson 1 s' ∧
    (s'.cache.channelsIDM 1).map (fun c => (c.keyView noJson).disabled) = some [] ∧
    (s'.db.channels.find 1).map (fun c => (c.keyView noJson).disabled) = some [0] := by
  refine ⟨twoKeysState_agree, ?_, by decide +kernel, by decide +kernel⟩
  have hstep := agree_step sampleEnv rfl twoKeysState_agree (⟨1, "a", channelStatusEnabled, ""⟩, fun _ => 5)
  exact fun hagree => absurd (hstep.mp hagree) (by decide +kernel)

end AiGateway.Channels
