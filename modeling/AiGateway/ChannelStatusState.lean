import AiGateway.ChannelAbilities
import AiGateway.ChannelIndex
import AiGateway.ChannelSystem

/-! The index and the table while status calls and rebuilds are under way. -/
namespace AiGateway.Channels

open Interleave (Guard)
open List Function

def Pc.savesRow : Pc → Option Channel
  | .readAbilities (c :: _) _ => some c
  | _ => none

def Pc.installs : Pc → Option Snapshot
  | .install snapshot _ => some snapshot
  | _ => none

/-- The channel has no repeated names, and its row, which was read as enabled, is enabled still, and
no call that disables it is under way. -/
def Fresh (s : State) (c : Channel) : Prop :=
  (GoText.split c.group ",").Nodup ∧ (GoText.split c.models ",").Nodup ∧
  (∃ row ∈ s.db.channels.find c.id, row.status = channelStatusEnabled) ∧
  ∀ a ∈ s.statusLock, a.id = c.id → a.status = channelStatusEnabled

instance (s : State) (c : Channel) : Decidable (Fresh s c) := inferInstanceAs (Decidable (_ ∧ _ ∧ _ ∧ _))

/-- Status calls and rebuilds; no rebuild writes back a status of the channel that has changed, or
lists the channel when it is no longer fresh. -/
def freshOk (id : Int) : Guard State Pc Call Int Empty where
  call _ c := c.changesStatus = true
  run s pc _ :=
    (∀ c ∈ pc.savesRow, c.id = id → ∃ row ∈ s.db.channels.find c.id, row.status = c.status) ∧
    ∀ snapshot ∈ pc.installs, ∀ c ∈ snapshot.channels, c.id = id → c.status = channelStatusEnabled →
      Fresh s c
  env _ _ := True

def Pc.holding : Pc → Option StatusCall
  | .cacheGet a | .cacheHandle a _ _ | .cacheStatus a _ | .getById a | .saveStatus a _ _ | .abilityStatus a _
  | .unlockStatus a _ => some a
  | _ => none

section Watched

-- The channel that is watched. It is a single-key channel; the calls considered here do not change that.
variable (id : Int)

structure Consistent (s : State) : Prop where
  single : ∀ row, s.db.channels.find id = some row → row.channelInfo.isMultiKey = false
  objects : ∀ i c, s.cache.channelsIDM i = some c → c.id = i ∧ (i = id → c.channelInfo.isMultiKey = false)
  enabled : ∀ group model, id ∈ s.cache.group2model2channels.lookup group model →
    ∃ row, s.db.channels.find id = some row ∧ row.status = channelStatusEnabled
  once : ∀ group model, (s.cache.group2model2channels.lookup group model).count id ≤ 1

/-- The channel, when it is being disabled, is not in the index. -/
def Removed (s : State) (a : StatusCall) : Prop :=
  a.id = id → a.status ≠ channelStatusEnabled →
    ∀ group model, id ∉ s.cache.group2model2channels.lookup group model

/-- A call on the channel that succeeds leaves its status in the table. -/
def Stored (s : State) (a : StatusCall) (ok : Bool) : Prop :=
  ok = true → a.id = id → ∃ row, s.db.channels.find id = some row ∧ row.status = a.status

def OfCall (a : StatusCall) (c : Channel) : Prop := c.id = a.id ∧ (a.id = id → c.channelInfo.isMultiKey = false)

structure SnapshotKinds (s : Snapshot) : Prop where
  distinct : (s.channels.map Channel.id).Nodup
  single : ∀ c ∈ s.channels, c.id = id → c.channelInfo.isMultiKey = false

/-- The index lists enabled channels of the snapshot, once if they have no repeated names. -/
structure IndexOf (s : Snapshot) (index : Index) : Prop where
  listed : ∀ id group model, id ∈ index.lookup group model →
    ∃ c ∈ s.channels, c.id = id ∧ c.status = channelStatusEnabled
  once : ∀ id, (∀ c ∈ s.channels, c.id = id → c.status = channelStatusEnabled →
    (GoText.split c.group ",").Nodup ∧ (GoText.split c.models ",").Nodup) →
    ∀ group model, (index.lookup group model).count id ≤ 1

def Knows (s : State) : Pc → Prop
  | .readChannels | .rebuilt | .panicked | .lockStatus _ | .cacheGet _ | .returned _ _ => True
  | .readAbilities rows snapshot =>
    (∀ c ∈ rows, c.id = id → c.channelInfo.isMultiKey = false) ∧ SnapshotKinds id snapshot
  | .install snapshot index => SnapshotKinds id snapshot ∧ IndexOf snapshot index
  | .cacheHandle a _ c => OfCall id a c ∧ a.id ≠ id
  | .cacheStatus a status => a.id = id → status = a.status
  | .getById a => Removed id s a
  | .saveStatus a c _ => OfCall id a c ∧ (a.id = id → c.status = a.status) ∧ Removed id s a
  | .abilityStatus a ok => Stored id s a ok
  | .unlockStatus a ok => Stored id s a ok
  | _ => False

variable {id} {s s' : State} {pc : Pc}

theorem Knows.frame (h : Knows id s pc) (hremoved : ∀ a ∈ pc.holding, Removed id s a → Removed id s' a)
    (hstored : ∀ a ∈ pc.holding, ∀ ok, Stored id s a ok → Stored id s' a ok) : Knows id s' pc := by
  cases pc with
  | getById a => exact hremoved a rfl h
  | saveStatus a => exact ⟨h.1, h.2.1, hremoved a rfl h.2.2⟩
  | abilityStatus a ok | unlockStatus a ok => exact hstored a rfl ok h
  | _ => exact h

variable {c : Channel} {a : StatusCall}

theorem Consistent.setRow (h : Consistent id s) {db : Db}
    (hfind : ∀ i, db.channels.find i = if i = c.id then some c else s.db.channels.find i)
    (hsingle : c.id = id → c.channelInfo.isMultiKey = false)
    (hen : ∀ group model, c.id = id → id ∈ s.cache.group2model2channels.lookup group model →
      c.status = channelStatusEnabled) : Consistent id { s with db := db } where
  single := by
    intro row hrow
    rw [hfind] at hrow
    split at hrow
    · next he => exact Option.some.inj hrow ▸ hsingle he.symm
    · exact h.single row hrow
  objects := h.objects
  enabled := by
    intro group model hin
    rw [hfind]
    split
    · next he => exact ⟨c, rfl, hen group model he.symm hin⟩
    · exact h.enabled group model hin
  once := h.once

theorem find_saveChannel (db : Db) (i : Int) :
    (db.saveChannel c).channels.find i = if i = c.id then some c else db.channels.find i := by
  rw [Db.saveChannel]
  by_cases hi : i = c.id
  · have hsaved : (db.channels.save c).find c.id = (db.channels.find c.id).map (fun _ => c) := by
      rw [Table.find_save, if_pos rfl]
    rw [if_pos hi, hi]
    cases hrow : db.channels.find c.id with
    | some =>
      rw [hrow, Option.map_some] at hsaved
      rw [Table.insert_of_find hsaved]
      exact hsaved
    | none =>
      rw [hrow, Option.map_none] at hsaved
      rw [Table.find_insert _ _ _ hsaved, if_pos rfl]
  · rw [if_neg hi, Table.find_insert_of_ne _ hi, Table.find_save_of_ne _ hi]

theorem find_saveWithoutKey {db db' : Db} (h : db.saveWithoutKey c = some db') :
    ∃ c', c'.id = c.id ∧ c'.status = c.status ∧ c'.channelInfo = c.channelInfo ∧
      ∀ id, db'.channels.find id = if id = c.id then some c' else db.channels.find id := by
  rw [Db.saveWithoutKey] at h
  cases hrow : db.channels.find c.id with
  | none => simp [hrow] at h
  | some row =>
    simp only [hrow, Option.some.injEq] at h
    subst h
    refine ⟨{ c with key := row.key }, rfl, rfl, rfl, ?_⟩
    intro id
    split
    · next he =>
      rw [he]
      exact Table.find_save_of_key db.channels rfl hrow
    · next hne => exact Table.find_save_of_ne _ hne

theorem Consistent.install (h : Consistent id s) {snapshot : Snapshot} {index : Index}
    (hs : SnapshotKinds id snapshot) (hi : IndexOf snapshot index)
    (hfresh : ∀ c ∈ snapshot.channels, c.id = id → c.status = channelStatusEnabled → Fresh s c) :
    Consistent id { s with cache := s.cache.install snapshot index } where
  single := h.single
  objects := by
    intro i c hc
    obtain ⟨row, hrow, rfl⟩ := Option.map_eq_some_iff.mp hc
    obtain ⟨_, hrow'⟩ := keepPollingIndex_eq (s.cache.channelsIDM i) row
    have hin : row ∈ snapshot.channels := mem_of_find?_eq_some hrow
    have hrid : row.id = i := by simpa using find?_some hrow
    rw [hrow']
    exact ⟨hrid, fun hid => hs.single row hin (hrid.trans hid)⟩
  enabled := by
    intro group model hin
    obtain ⟨c, hc, rfl, hen⟩ := hi.listed id group model hin
    obtain ⟨_, _, ⟨row, hrow, hstatus⟩, _⟩ := hfresh c hc rfl hen
    exact ⟨row, hrow, hstatus⟩
  once := by
    intro group model
    apply hi.once
    intro c hc hid hen
    obtain ⟨hg, hmodels, _⟩ := hfresh c hc hid hen
    exact ⟨hg, hmodels⟩

variable {status : Int}

theorem lookup_cacheUpdate (cache : Cache) (group model : String) :
    (cache.cacheUpdateChannelStatus id status).group2model2channels.lookup group model =
      if status ≠ channelStatusEnabled then (cache.group2model2channels.lookup group model).erase id
      else cache.group2model2channels.lookup group model := by
  rw [Cache.cacheUpdateChannelStatus]
  split
  · simp only [Index.lookup, Index.map]
    cases cache.group2model2channels group <;> rfl
  · rfl

theorem lookup_cacheUpdate_sublist (cache : Cache) (group model : String) :
    ((cache.cacheUpdateChannelStatus id status).group2model2channels.lookup group model).Sublist
      (cache.group2model2channels.lookup group model) := by
  rw [lookup_cacheUpdate]
  split
  · exact erase_sublist
  · exact List.Sublist.refl _

theorem Consistent.cacheStatus (h : Consistent id s) (i status : Int) :
    Consistent id { s with cache := s.cache.cacheUpdateChannelStatus i status } where
  single := h.single
  objects := by
    intro j c hc
    have hobjects : update s.cache.channelsIDM i
        ((s.cache.channelsIDM i).map (fun c => { c with status := status })) j = some c := by
      rw [Cache.cacheUpdateChannelStatus] at hc
      split at hc <;> exact hc
    by_cases hj : j = i
    · rw [hj, update_self] at hobjects
      obtain ⟨old, hold, rfl⟩ := Option.map_eq_some_iff.mp hobjects
      rw [hj]
      exact h.objects i old hold
    · rw [update_of_ne hj] at hobjects
      exact h.objects j c hobjects
  enabled := by
    intro group model hin
    exact h.enabled group model ((lookup_cacheUpdate_sublist s.cache group model).subset hin)
  once := by
    intro group model
    exact ((lookup_cacheUpdate_sublist s.cache group model).count_le id).trans (h.once group model)

theorem Consistent.removed (h : Consistent id s) (hstatus : a.id = id → status = a.status) :
    Removed id { s with cache := s.cache.cacheUpdateChannelStatus a.id status } a := by
  intro hid hne group model hin
  rw [lookup_cacheUpdate, if_pos (hstatus hid ▸ hne), hid] at hin
  have hcount := count_pos_iff.mpr hin
  rw [count_erase_self] at hcount
  have hone := h.once group model
  omega

theorem Consistent.setObject (h : Consistent id s) (hc : OfCall id a c) : Consistent id { s with cache := { s.cache with
      channelsIDM := Function.update s.cache.channelsIDM a.id (some c) } } where
  single := h.single
  objects := by
    intro i c' hc'
    have hobject : update s.cache.channelsIDM a.id (some c) i = some c' := hc'
    by_cases hi : i = a.id
    · subst hi
      rw [update_self] at hobject
      exact Option.some.inj hobject ▸ hc
    · rw [update_of_ne hi] at hobject
      exact h.objects i c' hobject
  enabled := h.enabled
  once := h.once

variable {json : Json}

theorem withSettings_kind : (c.withSettings json).id = c.id ∧ (c.withSettings json).channelInfo = c.channelInfo := by
  obtain ⟨_, hsettings⟩ := withSettings_eq json c
  rw [hsettings]
  exact ⟨rfl, rfl⟩

theorem Consistent.single_row (h : Consistent id s) (json : Json) {row : Channel} (hrow : row ∈ s.db.channels.rows)
    (hid : (row.withSettings json).id = id) : (row.withSettings json).channelInfo.isMultiKey = false := by
  obtain ⟨hsame, hinfo⟩ := withSettings_kind
  rw [hinfo]
  apply h.single
  rw [← hid, hsame]
  exact Table.find_mem _ row hrow

theorem Consistent.read (h : Consistent id s) (json : Json) :
    SnapshotKinds id (Snapshot.read json s.db.channels.rows) where
  distinct := by
    have hids : (s.db.channels.rows.map (Channel.withSettings json)).map Channel.id =
      s.db.channels.rows.map Channel.id := by
      rw [map_map]
      apply map_congr_left
      intro c _
      exact (withSettings_kind).1
    rw [Snapshot.read, hids]
    exact s.db.channels.unique
  single := by
    intro c hc hid
    obtain ⟨_, hrow, rfl⟩ := mem_map.mp hc
    exact h.single_row json hrow hid

theorem Consistent.malformed (h : Consistent id s) (json : Json) :
    ∀ c ∈ malformedRows json s.db.channels.rows, c.id = id → c.channelInfo.isMultiKey = false := by
  intro c hc hid
  obtain ⟨_, hrow, rfl⟩ := mem_map.mp hc
  exact h.single_row json (mem_filter.mp hrow).1 hid

variable {time : Int}

theorem rebuild_step (env : Env) (h : Consistent id s) (hk : Knows id s pc)
    (hr : pc.isRebuild = true) (hok : (freshOk id).run s pc time) :
    Consistent id (nextRebuild env s pc).1 ∧ Knows id (nextRebuild env s pc).1 (nextRebuild env s pc).2 := by
  cases pc with
  | readChannels => exact ⟨h, h.malformed env.json, h.read env.json⟩
  | readAbilities rows snapshot =>
    cases rows with
    | cons c =>
      obtain ⟨hrows, hs⟩ := hk
      rw [forall_mem_cons] at hrows
      refine ⟨h.setRow (find_saveChannel s.db) hrows.1 ?_, hrows.2, hs⟩
      -- The status that is written back is the one that the row has.
      intro group model hid hin
      obtain ⟨_, hrow, hstatus⟩ := hok.1 c rfl hid
      obtain ⟨_, hrow', hen⟩ := h.enabled group model hin
      rw [hid, Option.mem_def] at hrow
      rw [← hstatus, Option.some.inj (hrow.symm.trans hrow'), hen]
    | nil =>
      cases hindex : snapshot.buildIndex env (s.db.abilities.rows.map Ability.group) with
      | none =>
        simp only [nextRebuild, hindex]
        exact ⟨h, trivial⟩
      | some =>
        simp only [nextRebuild, hindex]
        refine ⟨h, hk.2, ?_, ?_⟩
        · intro i group model hin
          obtain ⟨c, hc, hen, _, _, hid⟩ := (Snapshot.mem_lookup hindex).mp hin
          exact ⟨c, hc, hid, hen⟩
        · intro i hid group model
          exact Snapshot.count_lookup_le_one hindex hk.2.distinct hid
  | install snapshot => exact ⟨h.install hk.1 hk.2 (hok.2 snapshot rfl), trivial⟩
  | rebuilt | panicked => exact ⟨h, trivial⟩
  | _ => cases hr

theorem rebuild_frame (env : Env) (hk : Knows id s pc) (hok : (freshOk id).run s pc time) :
    (nextRebuild env s pc).1.statusLock = s.statusLock ∧
    (∀ a, s.statusLock = some a → Removed id s a → Removed id (nextRebuild env s pc).1 a) ∧
    ∀ a ok, Stored id s a ok → Stored id (nextRebuild env s pc).1 a ok := by
  cases pc with
  | readAbilities rows snapshot =>
    cases rows with
    | cons c =>
      refine ⟨rfl, fun _ _ ha => ha, ?_⟩
      intro a ok hstored htrue hid
      obtain ⟨row', hrow', hstatus'⟩ := hstored htrue hid
      simp only [nextRebuild, find_saveChannel]
      split
      · next he =>
        obtain ⟨_, hrow, hstatus⟩ := hok.1 c rfl he.symm
        rw [← he, Option.mem_def] at hrow
        exact ⟨c, rfl, by rw [← hstatus, Option.some.inj (hrow.symm.trans hrow'), hstatus']⟩
      · exact ⟨row', hrow', hstatus'⟩
    | nil =>
      simp only [nextRebuild]
      cases snapshot.buildIndex env (s.db.abilities.rows.map Ability.group) <;>
        exact ⟨rfl, fun _ _ ha => ha, fun _ _ ha => ha⟩
  | install snapshot =>
    refine ⟨rfl, ?_, fun _ _ ha => ha⟩
    intro a hlock _ hid hne group model hin
    obtain ⟨c, hc, hcid, hen⟩ := hk.2.listed id group model hin
    obtain ⟨_, _, _, hidle⟩ := hok.2 snapshot rfl c hc hcid hen
    exact hne (hidle a hlock (hid.trans hcid.symm))
  | _ => exact ⟨rfl, fun _ _ ha => ha, fun _ _ ha => ha⟩

theorem changeStatus_kind (json : Json) (usingKey : String) (status : Int) (reason : String) (time : Int) :
    (c.changeStatus json usingKey status reason time).1.channelInfo.isMultiKey = c.channelInfo.isMultiKey ∧
    (c.channelInfo.isMultiKey = false → (c.changeStatus json usingKey status reason time).1.status = status) := by
  rw [Channel.changeStatus]
  split
  · next hmulti =>
    refine ⟨(handlerMultiKeyUpdate_kept json c usingKey status reason time).kind, ?_⟩
    intro hsingle
    rw [hmulti] at hsingle
    cases hsingle
  · exact ⟨rfl, fun _ => rfl⟩

theorem Consistent.cachedObject (h : Consistent id s) (hc : OfCall id a c)
    (generation : ℕ) : OfCall id a (cachedObject s a generation c) := by
  rw [Channels.cachedObject]
  split
  · cases ho : s.cache.channelsIDM a.id with
    | none => exact hc
    | some o => exact h.objects a.id o ho
  · exact hc

theorem Consistent.handleCached (env : Env) (time : Int) (h : Consistent id s)
    (hc : OfCall id a c) (hother : a.id ≠ id) (generation : ℕ) :
    Consistent id (handleCached env s a generation c time).1 ∧
    (handleCached env s a generation c time).1.statusLock = s.statusLock ∧
    (handleCached env s a generation c time).2.holding = some a ∧
    Knows id (handleCached env s a generation c time).1 (handleCached env s a generation c time).2 := by
  have hobject := h.cachedObject hc generation
  simp only [Channels.handleCached]
  generalize Channels.cachedObject s a generation c = object at hobject
  generalize hobject' : handlerMultiKeyUpdate env.json object a.usingKey a.status a.reason time = object'
  have hknows (s' : State) :
      Knows id s' (if object.status ≠ object'.status then .cacheStatus a object'.status else .getById a) := by
    split <;> exact fun hid => absurd hid hother
  refine ⟨?_, trivial, ?_, hknows _⟩
  · split
    · apply h.setObject
      have hkept := handlerMultiKeyUpdate_kept env.json object a.usingKey a.status a.reason time
      rw [← hobject', OfCall, hkept.kind, hkept.same.id]
      exact hobject
    · exact h
  · split <;> rfl

end Watched

end AiGateway.Channels
