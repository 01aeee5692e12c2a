import AiGateway.Channel

/-! What the statements on the abilities leave in the table. -/
namespace AiGateway.Channels
open Table

namespace Channel

open List

def abilities (c : Channel) : List Ability := c.pairs.map c.ability

/-- Different pairs of the channel are remembered under different texts. -/
def Unambiguous (c : Channel) : Prop := ∀ p ∈ c.pairs, ∀ q ∈ c.pairs, pairKey p = pairKey q → p = q

instance (c : Channel) : Decidable c.Unambiguous :=
  inferInstanceAs (Decidable (∀ p ∈ c.pairs, ∀ q ∈ c.pairs, pairKey p = pairKey q → p = q))

variable {ps : List (String × String)} {p : String × String} {c' : Channel}

theorem mem_unseen {seen : List String} (h : p ∈ unseen seen ps) : p ∈ ps ∧ pairKey p ∉ seen := by
  induction ps generalizing seen with
  | nil => cases h
  | cons q ps ih =>
    rw [unseen] at h
    split at h
    · obtain ⟨hp, hs⟩ := ih h
      exact ⟨mem_cons_of_mem q hp, hs⟩
    · next hq =>
      rcases mem_cons.mp h with rfl | h
      · exact ⟨mem_cons_self, hq⟩
      · obtain ⟨hp, hs⟩ := ih h
        exact ⟨mem_cons_of_mem q hp, fun hin => hs (mem_cons_of_mem _ hin)⟩

theorem exists_unseen {seen : List String} (hp : p ∈ ps)
    (hs : pairKey p ∉ seen) : ∃ q ∈ unseen seen ps, pairKey q = pairKey p := by
  induction ps generalizing seen with
  | nil => cases hp
  | cons q ps ih =>
    rw [unseen]
    by_cases hq : pairKey q = pairKey p
    · rw [if_neg (hq ▸ hs)]
      exact ⟨q, mem_cons_self, hq⟩
    · have hp' : p ∈ ps := by
        rcases mem_cons.mp hp with rfl | hp
        · exact absurd rfl hq
        · exact hp
      split
      · exact ih hp' hs
      · have hs' : pairKey p ∉ pairKey q :: seen := by
          rw [mem_cons, not_or]
          exact ⟨Ne.symm hq, hs⟩
        obtain ⟨r, hr, hk⟩ := ih hp' hs'
        exact ⟨r, mem_cons_of_mem q hr, hk⟩

theorem unseen_nodup (seen : List String) : (unseen seen ps).Nodup := by
  induction ps generalizing seen with
  | nil => exact nodup_nil
  | cons q ps ih =>
    rw [unseen]
    split
    · exact ih seen
    · refine nodup_cons.mpr ⟨?_, ih _⟩
      intro hq
      exact (mem_unseen hq).2 mem_cons_self

variable {c : Channel} {a : Ability}

theorem mem_newAbilities (h : c.Unambiguous) : a ∈ c.newAbilities ↔ a ∈ c.abilities := by
  have hpairs (p : String × String) : p ∈ unseen [] c.pairs ↔ p ∈ c.pairs := by
    constructor
    · intro hp
      exact (mem_unseen hp).1
    · intro hp
      obtain ⟨q, hq, hk⟩ := exists_unseen hp not_mem_nil
      exact h q (mem_unseen hq).1 p hp hk ▸ hq
  simp only [newAbilities, abilities, mem_map, hpairs]

theorem newAbilities_nodup : (c.newAbilities.map Ability.key).Nodup := by
  rw [newAbilities, map_map]
  apply (unseen_nodup []).map
  intro p q h
  have hkey : (c.ability p).key = (c.ability q).key := h
  simp only [Ability.key, ability, Prod.mk.injEq, and_true] at hkey
  exact Prod.ext hkey.1 hkey.2

theorem channelId_of_mem (h : a ∈ c.abilities) : a.channelId = c.id := by
  obtain ⟨p, _, rfl⟩ := mem_map.mp h
  rfl

theorem tag_of_mem (h : a ∈ c.abilities) : a.tag = c.tag := by
  obtain ⟨p, _, rfl⟩ := mem_map.mp h
  rfl

/-- The rows agree in all that the abilities are computed from, the status apart. -/
structure SameLists (c c' : Channel) : Prop where
  id : c'.id = c.id
  models : c'.models = c.models
  group : c'.group = c.group
  priority : c'.priority = c.priority
  weight : c'.weight = c.weight
  tag : c'.tag = c.tag

theorem SameLists.pairs (h : SameLists c c') : c'.pairs = c.pairs := by
  rw [Channel.pairs, Channel.pairs, h.models, h.group]

theorem SameLists.abilities (h : SameLists c c') :
    c'.abilities = c.abilities.map (fun a => { a with enabled := decide (c'.status = channelStatusEnabled) }) := by
  rw [Channel.abilities, Channel.abilities, map_map, h.pairs]
  apply map_congr_left
  intro p _
  simp only [Channel.ability, getPriority, getWeight, Function.comp, h.id, h.priority, h.weight, h.tag]

theorem SameLists.abilities_of_status (h : SameLists c c') (hs : c'.status = c.status) :
    c'.abilities = c.abilities := by
  rw [Channel.abilities, Channel.abilities, h.pairs]
  apply map_congr_left
  intro p _
  simp only [Channel.ability, getPriority, getWeight, h.id, h.priority, h.weight, h.tag, hs]

theorem Unambiguous.congr (h : c.Unambiguous) (hp : c'.pairs = c.pairs) : c'.Unambiguous := by
  rw [Unambiguous, hp]
  exact h

end Channel

open List

theorem flatten_chunkFrom {α : Type*} (n : ℕ) (l : List α) (room : ℕ) (piece : List α) :
    (chunkFrom n l room piece).flatten = piece.reverse ++ l := by
  induction l generalizing room piece with
  | nil =>
    rw [chunkFrom]
    split
    · next h => simp [h]
    · simp
  | cons x l ih =>
    cases room with
    | zero => rw [chunkFrom, flatten_cons, ih, reverse_singleton, singleton_append]
    | succ => rw [chunkFrom, ih, reverse_cons, append_assoc, singleton_append]

theorem flatten_chunk {α : Type*} (n : ℕ) (l : List α) : (chunk n l).flatten = l :=
  flatten_chunkFrom n l n []

namespace Db

variable {db : Db} {c : Channel}

theorem foldl_createAbilities (ls : List (List Ability)) :
    ls.foldl createAbilities db = db.createAbilities ls.flatten := by
  induction ls generalizing db with
  | nil => rfl
  | cons l ls ih =>
    rw [foldl_cons, ih, flatten_cons]
    simp only [createAbilities, insertAll, foldl_append]

theorem addAbilities_eq : db.addAbilities c = db.createAbilities c.newAbilities := by
  rw [addAbilities, foldl_createAbilities, flatten_chunk]

theorem mem_addAbilities (hc : c.Unambiguous) (hnone : ∀ a ∈ db.abilities.rows, a.channelId ≠ c.id)
    (a : Ability) :
    a ∈ (db.addAbilities c).abilities.rows ↔ a ∈ db.abilities.rows ∨ a ∈ c.abilities := by
  have hnew (b : Ability) (hb : b ∈ c.newAbilities) : db.abilities.find b.key = none := by
    cases hf : db.abilities.find b.key with
    | none => rfl
    | some old =>
      obtain ⟨hold, hk⟩ := (find_some_iff db.abilities _ old).mp hf
      have hid : old.channelId = b.channelId := congrArg (fun k => k.2.2) hk
      exact absurd (hid.trans (Channel.channelId_of_mem ((Channel.mem_newAbilities hc).mp hb))) (hnone old hold)
  rw [addAbilities_eq, createAbilities, mem_insertAll c.newAbilities_nodup hnew, Channel.mem_newAbilities hc]

@[simp] theorem addAbilities_channels : (db.addAbilities c).channels = db.channels := by
  rw [addAbilities_eq, createAbilities]

@[simp] theorem updateAbilities_channels : (db.updateAbilities c).channels = db.channels := by
  rw [updateAbilities, addAbilities_channels, deleteAbilities]

theorem mem_updateAbilities (hc : c.Unambiguous) (a : Ability) :
    a ∈ (db.updateAbilities c).abilities.rows ↔ (a ∈ db.abilities.rows ∧ a.channelId ≠ c.id) ∨
      a ∈ c.abilities := by
  have hrows (b : Ability) : b ∈ (db.deleteAbilities (fun id => id = c.id)).abilities.rows ↔
      b ∈ db.abilities.rows ∧ b.channelId ≠ c.id := by
    rw [deleteAbilities, mem_deleteWhere, decide_eq_false_iff_not]
  rw [updateAbilities, mem_addAbilities hc (fun b hb => ((hrows b).mp hb).2), hrows]

theorem updateAbilities_of_none (hnone : ∀ a ∈ db.abilities.rows, a.channelId ≠ c.id) :
    db.updateAbilities c = db.addAbilities c := by
  rw [updateAbilities, deleteAbilities, deleteWhere_none]
  intro a ha
  exact decide_eq_false (hnone a ha)

theorem find_updateChannels (db : Db) (p : Channel → Bool) (given : Channel) (id : Int) :
    (db.updateChannels p given).channels.find id =
      (db.channels.find id).map (fun c => if p c then c.updates given else c) :=
  find_updateWhere db.channels p _ (fun c => c.updates_id given) id

@[simp] theorem foldl_updateAbilities_channels (cs : List Channel) :
    (cs.foldl updateAbilities db).channels = db.channels := by
  induction cs generalizing db with
  | nil => rfl
  | cons c cs ih => rw [foldl_cons, ih, updateAbilities_channels]

variable {cs : List Channel}

theorem mem_foldl_updateAbilities (hnd : (cs.map Channel.id).Nodup) (hcs : ∀ c ∈ cs, c.Unambiguous)
    (a : Ability) : a ∈ (cs.foldl updateAbilities db).abilities.rows ↔
      (a ∈ db.abilities.rows ∧ ∀ c ∈ cs, a.channelId ≠ c.id) ∨ ∃ c ∈ cs, a ∈ c.abilities := by
  induction cs generalizing db with
  | nil => simp
  | cons c cs ih =>
    rw [map_cons, nodup_cons] at hnd
    have hother (ha : a ∈ c.abilities) : ∀ c' ∈ cs, a.channelId ≠ c'.id := by
      intro c' hc' he
      rw [Channel.channelId_of_mem ha] at he
      exact hnd.1 (he ▸ mem_map_of_mem hc')
    rw [foldl_cons, ih hnd.2 (fun c' h => hcs c' (mem_cons_of_mem c h)),
      mem_updateAbilities (hcs c mem_cons_self)]
    simp only [forall_mem_cons, exists_mem_cons_iff]
    constructor
    · rintro (⟨⟨hold, hne⟩ | hnew, hrest⟩ | h)
      · exact .inl ⟨hold, hne, hrest⟩
      · exact .inr (.inl hnew)
      · exact .inr (.inr h)
    · rintro (⟨hold, hne, hrest⟩ | hnew | h)
      · exact .inl ⟨.inl ⟨hold, hne⟩, hrest⟩
      · exact .inl ⟨.inr hnew, hother hnew⟩
      · exact .inr h

theorem foldl_addAbilities (hnd : (cs.map Channel.id).Nodup) (hcs : ∀ c ∈ cs, c.Unambiguous)
    (hnone : ∀ c ∈ cs, ∀ a ∈ db.abilities.rows, a.channelId ≠ c.id) :
    cs.foldl addAbilities db = cs.foldl updateAbilities db := by
  induction cs generalizing db with
  | nil => rfl
  | cons c cs ih =>
    rw [map_cons, nodup_cons] at hnd
    have hc := hnone c mem_cons_self
    rw [foldl_cons, foldl_cons, ih hnd.2 (fun c' h => hcs c' (mem_cons_of_mem c h)),
      updateAbilities_of_none hc]
    intro c' hc' a ha
    rcases (mem_addAbilities (hcs c mem_cons_self) hc a).mp ha with hold | hnew
    · exact hnone c' (mem_cons_of_mem c hc') a hold
    · intro he
      rw [Channel.channelId_of_mem hnew] at he
      exact hnd.1 (he ▸ mem_map_of_mem hc')

structure Created (db : Db) (cs : List Channel) (db' : Db) : Prop where
  distinct : (cs.map Channel.id).Nodup
  fresh : ∀ c ∈ cs, db.channels.find c.id = none
  stored : ∀ c ∈ cs, db'.channels.find c.id = some c
  others : ∀ id, (∀ c ∈ cs, id ≠ c.id) → db'.channels.find id = db.channels.find id
  rows : ∀ c ∈ db'.channels.rows, c ∈ cs ∨ c ∈ db.channels.rows
  abilities : db'.abilities = db.abilities

theorem create_some {db' : Db} (h : db.create c = some db') :
    db.channels.find c.id = none ∧ db' = { db with channels := db.channels.insert c } := by
  rw [create] at h
  split at h
  · cases h
  · next hnone => exact ⟨Option.not_isSome_iff_eq_none.mp hnone, (Option.some.inj h).symm⟩

theorem created {db' : Db} (h : cs.foldlM create db = some db') : Created db cs db' := by
  induction cs generalizing db with
  | nil =>
    obtain rfl := Option.some.inj h
    exact ⟨List.nodup_nil, by simp, by simp, fun _ _ => rfl, fun _ hc => .inr hc, rfl⟩
  | cons c cs ih =>
    rw [foldlM_cons] at h
    obtain ⟨db₁, hfirst, hrest⟩ := Option.bind_eq_some_iff.mp h
    obtain ⟨hnone, rfl⟩ := create_some hfirst
    have hr := ih hrest
    have hfind (id : Int) := find_insert db.channels c id hnone
    -- The rest was accepted after `c`, so none of them has its id.
    have hne : ∀ c' ∈ cs, c'.id ≠ c.id := by
      intro c' hc' he
      have hfresh := hr.fresh c' hc'
      rw [hfind, if_pos he] at hfresh
      cases hfresh
    refine ⟨?_, ?_, ?_, ?_, ?_, hr.abilities⟩
    · rw [map_cons, nodup_cons]
      refine ⟨?_, hr.distinct⟩
      intro hin
      obtain ⟨c', hc', he⟩ := mem_map.mp hin
      exact hne c' hc' he
    · rw [forall_mem_cons]
      refine ⟨hnone, ?_⟩
      intro c' hc'
      have hfresh := hr.fresh c' hc'
      rwa [hfind, if_neg (hne c' hc')] at hfresh
    · rw [forall_mem_cons]
      refine ⟨?_, hr.stored⟩
      rw [hr.others c.id (fun c' hc' => Ne.symm (hne c' hc')), hfind, if_pos rfl]
    · intro id hid
      rw [forall_mem_cons] at hid
      rw [hr.others id hid.2, hfind, if_neg hid.1]
    · intro c' hc'
      rcases hr.rows c' hc' with hin | hin
      · exact .inl (mem_cons_of_mem c hin)
      · rcases mem_insert hnone hin with rfl | hold
        · exact .inl mem_cons_self
        · exact .inr hold

end Db

theorem mapDelete_lookup {V : Type*} (m : List (ℕ × V)) (i : ℕ) : (mapDelete m i).lookup i = none := by
  rw [lookup_eq_none_iff]
  intro e he
  rw [mapDelete, mem_filter] at he
  simpa using Ne.symm (of_decide_eq_true he.2)

theorem hasEnabledMultiKey_of_delete {keys : List String} {i : ℕ} (hi : i < keys.length)
    (statusList : List (ℕ × Int)) :
    hasEnabledMultiKey keys (mapDelete statusList i) = true := by
  rw [hasEnabledMultiKey, any_eq_true]
  refine ⟨i, mem_range.mpr hi, ?_⟩
  rw [mapDelete_lookup]

/-- What a change of the status does to a row: the abilities are written if and only if the status
changes, and what is written to them says whether the new status is enabled. -/
structure Channel.StatusSet (c : Channel) (status : Int) (c' : Channel) (abilities : Bool) : Prop where
  same : Channel.SameLists c c'
  written : abilities = true → (c'.status = channelStatusEnabled ↔ status = channelStatusEnabled)
  unwritten : abilities = false → c'.status = c.status

structure Channel.KeysUpdated (c c' : Channel) : Prop where
  same : Channel.SameLists c c'
  key : c'.key = c.key
  kind : c'.channelInfo.isMultiKey = c.channelInfo.isMultiKey
  index : c'.channelInfo.multiKeyPollingIndex = c.channelInfo.multiKeyPollingIndex

theorem handlerMultiKeyUpdate_kept (json : Json) (c : Channel) (usingKey : String) (status : Int) (reason : String)
    (time : Int) : c.KeysUpdated (handlerMultiKeyUpdate json c usingKey status reason time) := by
  have hset (i : ℕ) (status' : Int) (other : OtherInfo) : c.KeysUpdated { c with
      status := status', otherInfo := other, channelInfo := c.channelInfo.setKeyStatus i status reason time } := by
    rw [ChannelInfo.setKeyStatus]
    split <;> exact ⟨⟨rfl, rfl, rfl, rfl, rfl, rfl⟩, rfl, rfl, rfl⟩
  rw [handlerMultiKeyUpdate]
  dsimp only
  split
  · exact ⟨⟨rfl, rfl, rfl, rfl, rfl, rfl⟩, rfl, rfl, rfl⟩
  · split
    · split <;> exact ⟨⟨rfl, rfl, rfl, rfl, rfl, rfl⟩, rfl, rfl, rfl⟩
    · split
      · exact hset _ _ _
      · split <;> exact hset _ _ _

theorem handlerMultiKeyUpdate_status (json : Json) (c : Channel) (usingKey : String) (status : Int) (reason : String)
    (time : Int) : (handlerMultiKeyUpdate json c usingKey status reason time).status = c.status ∨
    ((handlerMultiKeyUpdate json c usingKey status reason time).status = channelStatusEnabled ↔
      status = channelStatusEnabled) := by
  rw [handlerMultiKeyUpdate]
  dsimp only
  split
  · exact .inr Iff.rfl
  · cases hidx : (c.getKeys json).findIdx? (fun k => decide (k = usingKey)) with
    | none =>
      dsimp only
      split
      · exact .inl rfl
      · exact .inr Iff.rfl
    | some i =>
      have hi : i < (c.getKeys json).length := (findIdx?_eq_some_iff_findIdx_eq.mp hidx).1
      dsimp only
      split
      · -- All keys are disabled, so the call did not enable one.
        next hall =>
        right
        have hne : status ≠ channelStatusEnabled := by
          rintro rfl
          rw [ChannelInfo.setKeyStatus, if_pos rfl] at hall
          simp [hasEnabledMultiKey_of_delete hi] at hall
        have hauto : channelStatusAutoDisabled ≠ channelStatusEnabled := by decide
        exact ⟨fun he => absurd he hauto, fun he => absurd he hne⟩
      · split
        · next hen => exact .inr ⟨fun _ => hen, fun _ => rfl⟩
        · exact .inl rfl

theorem Channel.changeStatus_spec (json : Json) (c : Channel) (usingKey : String) (status : Int) (reason : String)
    (time : Int) : c.StatusSet status (c.changeStatus json usingKey status reason time).1
      (c.changeStatus json usingKey status reason time).2 := by
  rw [Channel.changeStatus]
  split
  · refine ⟨(handlerMultiKeyUpdate_kept json c usingKey status reason time).same, ?_, ?_⟩
    · intro hne
      rcases handlerMultiKeyUpdate_status json c usingKey status reason time with he | hen
      · simp [he] at hne
      · exact hen
    · intro he
      exact (not_not.mp (of_decide_eq_false he)).symm
  · exact ⟨⟨rfl, rfl, rfl, rfl, rfl, rfl⟩, fun _ => Iff.rfl, fun h => by cases h⟩

end AiGateway.Channels
