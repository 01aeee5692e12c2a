import AiGateway.ChannelAbilities
import AiGateway.DerivedTable
import AiGateway.Run

/-! The abilities mirror the channels: one row for each channel and each pair of its lists, as long as no
operation does one of the things that the code gets wrong. -/
namespace AiGateway.Channels

open List Table Run

abbrev Db.Mirror (db : Db) : Prop :=
  DerivedTable.Mirrors Ability.channelId Channel.abilities db.channels db.abilities

theorem channelId_owner (c : Channel) (a : Ability) (h : a ∈ c.abilities) : a.channelId = c.id :=
  Channel.channelId_of_mem h

structure Mirrored (db : Db) : Prop where
  mirror : db.Mirror
  unambiguous : ∀ c ∈ db.channels.rows, c.Unambiguous

namespace Mirrored

variable {db : Db} {db' : Db}

theorem replace (h : db.Mirror) (cs : List Channel) (hcs : ∀ c ∈ cs, db'.channels.find c.id = some c)
    (hother : ∀ id, (∀ c ∈ cs, id ≠ c.id) → db'.channels.find id = db.channels.find id)
    (habs : ∀ a, a ∈ db'.abilities.rows ↔ (a ∈ db.abilities.rows ∧ ∀ c ∈ cs, a.channelId ≠ c.id) ∨
      ∃ c ∈ cs, a ∈ c.abilities) :
    db'.Mirror := by
  apply DerivedTable.mirrors_refresh (fun id => ¬ ∀ c ∈ cs, id ≠ c.id) h
  · intro id hid
    exact hother id (not_not.mp hid)
  · intro a ha
    rw [habs]
    constructor
    · rintro (⟨_, hne⟩ | ⟨c, hc, hin⟩)
      · exact absurd hne ha
      · exact ⟨c, Channel.channelId_of_mem hin ▸ hcs c hc, hin⟩
    · rintro ⟨c, hc, hin⟩
      push Not at ha
      obtain ⟨c', hc', he⟩ := ha
      have hsame : c = c' := Option.some.inj (hc.symm.trans (he ▸ hcs c' hc'))
      exact .inr ⟨c', hc', hsame ▸ hin⟩
  · intro a ha
    have hne := not_not.mp ha
    rw [habs]
    constructor
    · rintro (⟨hold, _⟩ | ⟨c, hc, hin⟩)
      · exact hold
      · exact absurd (Channel.channelId_of_mem hin) (hne c hc)
    · intro hold
      exact .inl ⟨hold, hne⟩

theorem refreshed (h : db.Mirror) (p : Channel → Bool) (hrows : ∀ c ∈ db'.channels.rows, c.Unambiguous)
    (habs : db'.abilities = db.abilities)
    (hother : ∀ id, (∀ c ∈ db'.select p, id ≠ c.id) → db'.channels.find id = db.channels.find id) :
    Mirrored ((db'.select p).foldl Db.updateAbilities db') := by
  have hselect : ∀ c ∈ db'.select p, c ∈ db'.channels.rows := fun c hin => (mem_filter.mp hin).1
  have hnd : ((db'.select p).map Channel.id).Nodup := db'.channels.unique.sublist (filter_sublist.map Channel.id)
  refine ⟨replace h (db'.select p) ?_ ?_ ?_, ?_⟩
  · intro c hin
    rw [Db.foldl_updateAbilities_channels]
    exact find_mem _ c (hselect c hin)
  · rw [Db.foldl_updateAbilities_channels]
    exact hother
  · intro a
    rw [Db.mem_foldl_updateAbilities hnd (fun c hin => hrows c (hselect c hin)), habs]
  · rw [Db.foldl_updateAbilities_channels]
    exact hrows

theorem no_abilities (h : db.Mirror) {id : Int} (hid : db.channels.find id = none) :
    ∀ a ∈ db.abilities.rows, a.channelId ≠ id := by
  intro a ha he
  obtain ⟨_, hc, _⟩ := (h a).mp ha
  rw [he, hid] at hc
  cases hc

variable {g : Ability → Ability}

section

variable (h : Mirrored db)

include h

theorem bulk {f : Channel → Channel} (hf : ∀ c, (f c).id = c.id)
    (hg : ∀ a, (g a).key = a.key) (hcomm : ∀ c ∈ db.channels.rows, (f c).abilities = c.abilities.map g)
    (hpairs : ∀ c ∈ db.channels.rows, (f c).pairs = c.pairs) :
    Mirrored ⟨db.channels.update f hf, db.abilities.update g hg⟩ where
  mirror := DerivedTable.mirrors_update channelId_owner hf hg (fun a => congrArg (fun k => k.2.2) (hg a)) h.mirror hcomm
  unambiguous := by
    intro c hc
    obtain ⟨old, hold, rfl⟩ := mem_map.mp hc
    exact (h.unambiguous old hold).congr (hpairs old hold)

theorem insertChunk {cs : List Channel} (hcs : ∀ c ∈ cs, c.Unambiguous)
    (hdb : db.insertChunk cs = some db') : Mirrored db' := by
  obtain ⟨db₁, hcreate, rfl⟩ := Option.map_eq_some_iff.mp hdb
  have hc := Db.created hcreate
  have hnone : ∀ c ∈ cs, ∀ a ∈ db₁.abilities.rows, a.channelId ≠ c.id := by
    intro c hin
    rw [hc.abilities]
    exact no_abilities h.mirror (hc.fresh c hin)
  rw [Db.foldl_addAbilities hc.distinct hcs hnone]
  refine ⟨replace h.mirror cs ?_ ?_ ?_, ?_⟩
  · rw [Db.foldl_updateAbilities_channels]
    exact hc.stored
  · rw [Db.foldl_updateAbilities_channels]
    exact hc.others
  · intro a
    rw [Db.mem_foldl_updateAbilities hc.distinct hcs, hc.abilities]
  · rw [Db.foldl_updateAbilities_channels]
    intro c hin
    rcases hc.rows c hin with hnew | hold
    · exact hcs c hnew
    · exact h.unambiguous c hold

theorem insert (c : Channel) (hc : c.withDefaults.Unambiguous) : Mirrored (db.insert c) := by
  rw [Db.insert]
  cases hcreate : db.create c.withDefaults with
  | none => exact h
  | some =>
    have hall : ∀ c' ∈ [c.withDefaults], c'.Unambiguous := forall_mem_singleton.mpr hc
    apply h.insertChunk hall
    simp [Db.insertChunk, hcreate]

theorem batchInsertChannels (cs : List Channel) (hcs : ∀ c ∈ cs, c.withDefaults.Unambiguous) :
    Mirrored (db.batchInsertChannels cs) := by
  have hall : ∀ c ∈ (chunk 50 (cs.map Channel.withDefaults)).flatten, c.Unambiguous := by
    rw [flatten_chunk]
    intro c hc
    obtain ⟨given, hgiven, rfl⟩ := mem_map.mp hc
    exact hcs given hgiven
  rw [Db.batchInsertChannels]
  cases hdb : (chunk 50 (cs.map Channel.withDefaults)).foldlM Db.insertChunk db with
  | none => exact h
  | some =>
    rw [Option.getD_some]
    generalize chunk 50 (cs.map Channel.withDefaults) = chunks at hall hdb
    induction chunks generalizing db with
    | nil => exact Option.some.inj hdb ▸ h
    | cons l chunks ih =>
      rw [flatten_cons, forall_mem_append] at hall
      rw [foldlM_cons] at hdb
      obtain ⟨_, hfirst, hrest⟩ := Option.bind_eq_some_iff.mp hdb
      exact ih (h.insertChunk hall.1 hfirst) hall.2 hrest

theorem update (json : Json) (given row : Channel) (hrow : db.channels.find given.id = some row)
    (hc : (row.updates given).Unambiguous) : Mirrored (db.update json given) := by
  have hsize : (given.resizeKeys json (some row)).id = given.id := by
    rw [Channel.resizeKeys]
    split <;> rfl
  have hpairs : (row.updates (given.resizeKeys json (some row))).pairs = (row.updates given).pairs := by
    rw [Channel.resizeKeys]
    split <;> rfl
  simp only [Db.update, hrow, hsize]
  split
  · exact h
  · generalize given.resizeKeys json (some row) = given' at hpairs
    have hid : row.id = given.id := find_key _ hrow
    have hnew : (row.updates given').Unambiguous := hc.congr hpairs
    have hfind (id : Int) : (db.updateChannels (fun c => c.id = given.id) given').channels.find id =
        if id = given.id then some (row.updates given') else db.channels.find id := by
      rw [Db.find_updateChannels]
      split
      · next he => rw [he, hrow, Option.map_some, if_pos (by simpa using hid)]
      · next hne =>
        cases hf : db.channels.find id with
        | none => rfl
        | some => rw [Option.map_some, if_neg (by simpa [find_key _ hf] using hne)]
    rw [hfind, if_pos rfl, Option.getD_some]
    refine ⟨replace h.mirror [row.updates given'] ?_ ?_ ?_, ?_⟩
    · rw [forall_mem_singleton, Db.updateAbilities_channels, hfind]
      exact if_pos hid
    · intro id hne
      have hother : id ≠ given.id := hid ▸ hne (row.updates given') mem_cons_self
      rw [Db.updateAbilities_channels, hfind, if_neg hother]
    · intro a
      rw [Db.mem_updateAbilities hnew]
      simp only [Db.updateChannels, mem_singleton, forall_eq, exists_eq_left]
    · rw [Db.updateAbilities_channels]
      intro c hin
      have hfound := hfind c.id
      rw [find_mem _ c hin] at hfound
      split at hfound
      · exact Option.some.inj hfound ▸ hnew
      · exact h.unambiguous c ((find_some_iff _ _ _).mp hfound.symm).1

theorem delete (id : Int) : Mirrored (db.delete id) := by
  rw [Db.delete]
  split
  · exact h
  · exact ⟨DerivedTable.mirrors_deleteWhere channelId_owner (fun i => i = id) h.mirror,
      fun c hc => h.unambiguous c (mem_deleteWhere.mp hc).1⟩

theorem batchDeleteChannels (ids : List Int) : Mirrored (db.batchDeleteChannels ids) := by
  rw [Db.batchDeleteChannels]
  generalize chunk 200 ids = chunks
  induction chunks generalizing db with
  | nil => exact h
  | cons ids chunks ih =>
    rw [foldl_cons]
    exact ih ⟨DerivedTable.mirrors_deleteWhere channelId_owner (fun i => i ∈ ids) h.mirror,
      fun c hc => h.unambiguous c (mem_deleteWhere.mp hc).1⟩

theorem deleteChannels {p : Channel → Bool} (hp : ∀ c ∈ db.channels.rows, p c = false) :
    Mirrored (db.deleteChannels p) := by
  rw [Db.deleteChannels, deleteWhere_none hp]
  exact h

theorem save {c c' : Channel} (hc : c ∈ db.channels.rows) (hs : Channel.SameLists c c')
    (hg : ∀ a, (g a).key = a.key) (hown : c'.abilities = c.abilities.map g)
    (hother : ∀ a, a.channelId ≠ c.id → g a = a) :
    Mirrored ⟨db.channels.save c', db.abilities.update g hg⟩ := by
  apply h.bulk (key_replace c') hg
  · intro x hx
    split
    · next he =>
      have hxc : x = c := eq_of_key _ hx hc (he.trans hs.id)
      rw [hown, hxc]
    · next hne =>
      conv_lhs => rw [← map_id' x.abilities]
      apply map_congr_left
      intro a ha
      have hid : a.channelId ≠ c.id := by
        rw [Channel.channelId_of_mem ha, ← hs.id]
        exact hne
      exact (hother a hid).symm
  · intro x hx
    split
    · next he => rw [hs.pairs, eq_of_key _ hx hc (he.trans hs.id)]
    · rfl

theorem updateChannelStatus (json : Json) (id : Int) (usingKey : String) (status : Int)
    (reason : String) (time : Int) : Mirrored (db.updateChannelStatus json id usingKey status reason time) := by
  rw [Db.updateChannelStatus]
  cases hf : db.channels.find id with
  | none => exact h
  | some c =>
    dsimp only
    split
    · exact h
    · have hset := c.changeStatus_spec json usingKey status reason time
      obtain ⟨hin, rfl⟩ := (find_some_iff _ _ _).mp hf
      generalize c.changeStatus json usingKey status reason time = changed at hset
      obtain ⟨c', abilities⟩ := changed
      cases abilities with
      | false =>
        have hsame : c'.abilities = c.abilities.map (fun a => a) := by
          rw [map_id']
          exact hset.same.abilities_of_status (hset.unwritten rfl)
        have hsaved := h.save hin hset.same (fun _ => rfl) hsame (fun _ _ => rfl)
        rwa [update_self] at hsaved
      | true =>
        apply h.save hin hset.same
        · rw [hset.same.abilities]
          apply map_congr_left
          intro a ha
          have hid : a.channelId = c.id := Channel.channelId_of_mem ha
          have hen : decide (c'.status = channelStatusEnabled) = decide (status = channelStatusEnabled) :=
            decide_eq_decide.mpr (hset.written rfl)
          simp only [hid, hen, decide_true, if_true]
        · intro a hne
          simp [hne]

theorem byTag (tag : String) {f : Channel → Channel} (hf : ∀ c, (f c).id = c.id) (hg : ∀ a, (g a).key = a.key)
    (hpairs : ∀ c ∈ db.channels.rows, c.tag = some tag → (f c).pairs = c.pairs)
    (hability : ∀ c ∈ db.channels.rows, c.tag = some tag → ∀ p, (f c).ability p = g (c.ability p)) :
    Mirrored ⟨db.channels.updateWhere (fun c => c.tag = some tag) f hf,
      db.abilities.updateWhere (fun a => a.tag = some tag) g hg⟩ := by
  refine h.bulk (f := fun c => if decide (c.tag = some tag) then f c else c) ?_
    (g := fun a => if decide (a.tag = some tag) then g a else a) ?_ ?_ ?_
  · intro c hc
    -- All abilities of a channel have its tag, so they are updated with it or not at all.
    by_cases ht : c.tag = some tag
    · simp only [ht, decide_true, if_true, Channel.abilities, hpairs c hc ht, map_map]
      apply map_congr_left
      intro p _
      have htag : (c.ability p).tag = some tag := ht
      simp only [Function.comp, htag, decide_true, if_true]
      exact hability c hc ht p
    · simp only [ht, decide_false, Bool.false_eq_true, if_false]
      conv_lhs => rw [← map_id' c.abilities]
      apply map_congr_left
      intro a ha
      rw [Channel.tag_of_mem ha, decide_eq_false ht, if_neg Bool.false_ne_true]
  · intro c hc
    by_cases ht : c.tag = some tag
    · simp only [ht, decide_true, if_true, hpairs c hc ht]
    · simp only [ht, decide_false, Bool.false_eq_true, if_false]

theorem statusByTag (tag : String) (status : Int) (enabled : Bool)
    (hen : decide (status = channelStatusEnabled) = enabled) :
    Mirrored ((db.updateStatusByTag tag status).updateAbilityStatusByTag tag enabled) := by
  refine h.byTag tag (f := fun c => { c with status := status }) (fun _ => rfl)
    (g := fun a => { a with enabled := enabled }) (fun _ => rfl) ?_ ?_
  · intro c _ _
    rfl
  · intro c _ _ p
    rw [Channel.ability, hen]
    rfl

theorem editByTag (tag : String) (e : TagEdit) (hre : e.shouldReCreateAbilities = false)
    (hw : e.weight ≠ some 0 ∨ ∀ c ∈ db.channels.rows, c.tag = some tag → c.getWeight = 0) :
    Mirrored ((db.updateChannels (fun c => c.tag = some tag) (e.updateData tag)).updateAbilityByTag tag e.newTag
      e.priority e.weight) := by
  obtain ⟨hmodels, hgroup⟩ : e.models.getD "" = "" ∧ e.group.getD "" = "" := by
    simpa [TagEdit.shouldReCreateAbilities] using hre
  refine h.byTag tag (f := fun c => c.updates (e.updateData tag)) (fun c => c.updates_id _)
    (g := fun a => a.updates e.newTag e.priority e.weight) (fun _ => rfl) ?_ ?_
  · intro c _ _
    simp only [Channel.pairs, Channel.updates, TagEdit.updateData, hmodels, hgroup, if_true]
  · intro c hc ht p
    have hweight : (e.weight.or c.weight).getD 0 = if e.weight.getD 0 = 0 then c.getWeight else e.weight.getD 0 := by
      cases he : e.weight with
      | none => rfl
      | some w =>
        rcases hw with hne | hzero
        · have hpos : w ≠ 0 := fun hz => hne (hz ▸ he)
          simp [hpos]
        · by_cases hz : w = 0
          · simp [hz, hzero c hc ht]
          · simp [hz]
    have hpriority : (e.priority.or c.priority).getD 0 = e.priority.getD c.getPriority := by
      cases e.priority <;> rfl
    have htag : (if e.newTag = some tag then none else e.newTag).or c.tag = e.newTag.or c.tag := by
      split
      · next he =>
        rw [he, ht]
        rfl
      · rfl
    simp only [Channel.ability, Ability.updates, Channel.getWeight, Channel.getPriority, Channel.updates,
      TagEdit.updateData, hweight, hpriority, htag, if_true]

end

theorem tag_updateData (e : TagEdit) {c : Channel} {tag : String} (ht : c.tag = some tag) :
    (c.updates (e.updateData tag)).tag = some (e.updatedTag tag) := by
  simp only [Channel.updates, TagEdit.updateData, TagEdit.updatedTag]
  cases he : e.newTag with
  | none => simpa using ht
  | some new =>
    by_cases hn : new = tag
    · simp [hn, ht]
    · simp [hn]

section
variable (h : Mirrored db) (tag : String) (e : TagEdit)
  (hc : ∀ c ∈ db.channels.rows, c.tag = some tag → (c.updates (e.updateData tag)).Unambiguous)
include h hc

theorem reCreateByTag (hdb : db' = db.updateChannels (fun c => c.tag = some tag) (e.updateData tag)) :
    Mirrored ((db'.select (fun c => c.tag = some (e.updatedTag tag))).foldl Db.updateAbilities db') := by
  have hfind (id : Int) := Db.find_updateChannels db (fun c => c.tag = some tag) (e.updateData tag) id
  rw [← hdb] at hfind
  have hrows : ∀ c ∈ db'.channels.rows, c.Unambiguous := by
    rw [hdb]
    intro c hin
    obtain ⟨old, hold, rfl⟩ := mem_map.mp hin
    by_cases ht : old.tag = some tag
    · simpa [ht] using hc old hold ht
    · simpa [ht] using h.unambiguous old hold
  apply refreshed h.mirror _ hrows
  · rw [hdb]
    rfl
  · intro id hid
    rw [hfind]
    cases hf : db.channels.find id with
    | none => rfl
    | some c =>
      by_cases ht : c.tag = some tag
      · -- An edited channel has the new tag, so it is among those that were selected.
        have hnew := hfind id
        rw [hf, Option.map_some, if_pos (decide_eq_true ht)] at hnew
        obtain ⟨hin, hk⟩ := (find_some_iff _ _ _).mp hnew
        have hsel : c.updates (e.updateData tag) ∈ db'.select (fun c => c.tag = some (e.updatedTag tag)) :=
          mem_filter.mpr ⟨hin, decide_eq_true (tag_updateData e ht)⟩
        exact absurd hk.symm (hid _ hsel)
      · rw [Option.map_some, if_neg (by simpa using ht)]

theorem editChannelByTag
    (hw : e.shouldReCreateAbilities = true ∨ e.weight ≠ some 0 ∨
      ∀ c ∈ db.channels.rows, c.tag = some tag → c.getWeight = 0) :
    Mirrored (db.editChannelByTag tag e) := by
  rw [Db.editChannelByTag]
  split
  · exact h.reCreateByTag tag e hc rfl
  · next hre =>
    have hre : e.shouldReCreateAbilities = false := Bool.eq_false_iff.mpr hre
    apply h.editByTag tag e hre
    rcases hw with ht | hw
    · rw [hre] at ht
      cases ht
    · exact hw

end

theorem batchSetChannelTag (h : Mirrored db) (ids : List Int) (tag : Option String)
    (ht : ∀ c ∈ db.channels.rows, c.id ∈ ids → c.tag = tag) : Mirrored (db.batchSetChannelTag ids tag) := by
  have hsame (c : Channel) (hc : c ∈ db.channels.rows) :
      (if decide (c.id ∈ ids) then { c with tag := tag } else c) = c := by
    by_cases hin : c.id ∈ ids
    · rw [if_pos (decide_eq_true hin), ← ht c hc hin]
    · rw [if_neg (by simpa using hin)]
  have hdb : db.updateTag ids tag = db := by
    rw [Db.updateTag, Table.updateWhere, update_same hsame]
  rw [Db.batchSetChannelTag, hdb]
  exact refreshed h.mirror _ h.unambiguous rfl (fun _ _ => rfl)

end Mirrored

/-- The operations that the code gets right. Deletions by status and changes of the tag of a batch
leave the abilities behind, an edit by tag does not write a weight of zero to them, and an update
does not ask whether there is a channel to update. -/
def Op.Safe (db : Db) : Op → Prop
  | .insert c => c.withDefaults.Unambiguous
  | .batchInsertChannels cs => ∀ c ∈ cs, c.withDefaults.Unambiguous
  | .update given => ∃ row ∈ db.channels.rows, row.id = given.id ∧ (row.updates given).Unambiguous
  | .editChannelByTag tag e =>
    (∀ c ∈ db.channels.rows, c.tag = some tag → (c.updates (e.updateData tag)).Unambiguous) ∧
    (e.shouldReCreateAbilities = true ∨ e.weight ≠ some 0 ∨ ∀ c ∈ db.channels.rows, c.tag = some tag →
      c.getWeight = 0)
  | .batchSetChannelTag ids tag => ∀ c ∈ db.channels.rows, c.id ∈ ids → c.tag = tag
  | .deleteChannelByStatus status => ∀ c ∈ db.channels.rows, c.status ≠ status
  | .deleteDisabledChannel => ∀ c ∈ db.channels.rows,
    c.status ≠ channelStatusAutoDisabled ∧ c.status ≠ channelStatusManuallyDisabled
  | .updateChannelStatus .. | .enableChannelByTag _ | .disableChannelByTag _ | .delete _
      | .batchDeleteChannels _ => True

instance (db : Db) (op : Op) : Decidable (op.Safe db) := by
  cases op <;> dsimp only [Op.Safe] <;> infer_instance

theorem Mirrored.step (json : Json) {db : Db} (h : Mirrored db) (op : Op) (hop : op.Safe db) :
    Mirrored (step json db op) := by
  cases op with
  | insert c => exact h.insert c hop
  | batchInsertChannels cs => exact h.batchInsertChannels cs hop
  | update given =>
    obtain ⟨row, hrow, hid, hc⟩ := hop
    exact h.update json given row (hid ▸ find_mem _ row hrow) hc
  | updateChannelStatus id usingKey status reason time =>
    exact h.updateChannelStatus json id usingKey status reason time
  | enableChannelByTag tag => exact h.statusByTag tag channelStatusEnabled true rfl
  | disableChannelByTag tag => exact h.statusByTag tag channelStatusManuallyDisabled false rfl
  | editChannelByTag tag e => exact h.editChannelByTag tag e hop.1 hop.2
  | batchSetChannelTag ids tag => exact h.batchSetChannelTag ids tag hop
  | delete id => exact h.delete id
  | batchDeleteChannels ids => exact h.batchDeleteChannels ids
  | deleteChannelByStatus | deleteDisabledChannel =>
    apply h.deleteChannels
    intro c hc
    simpa using hop c hc

/-- For each channel and each pair of its lists there is exactly one ability, with the status,
priority, weight and tag of the channel, and every ability is one of these. -/
def Db.Matches (db : Db) : Prop :=
  (∀ c ∈ db.channels.rows, ∀ p ∈ c.pairs,
    db.abilities.rows.filter (fun a => a.key = (p.1, p.2, c.id)) = [c.ability p]) ∧
  ∀ a ∈ db.abilities.rows, ∃ c ∈ db.channels.rows, ∃ p ∈ c.pairs, a = c.ability p

instance (db : Db) : Decidable db.Matches := inferInstanceAs (Decidable (_ ∧ _))

theorem Mirrored.matches {db : Db} (h : Mirrored db) : db.Matches := by
  constructor
  · intro c hc p hp
    have ha : c.ability p ∈ db.abilities.rows :=
      (h.mirror _).mpr ⟨c, find_mem _ c hc, mem_map_of_mem hp⟩
    exact filter_key db.abilities ha
  · intro a ha
    obtain ⟨c, hc, hin⟩ := (h.mirror a).mp ha
    obtain ⟨p, hp, rfl⟩ := mem_map.mp hin
    exact ⟨c, ((find_some_iff _ _ _).mp hc).1, p, hp, rfl⟩

theorem mirrored_empty : Mirrored Db.empty where
  mirror := by
    intro a
    constructor
    · intro ha
      cases ha
    · rintro ⟨c, hc, _⟩
      cases hc
  unambiguous := by
    intro c hc
    cases hc

theorem abilities_mirror_channels (json : Json) (ops : List Op)
    (h : Along (step json) (fun db op => op.Safe db) Db.empty ops) : (exec (step json) Db.empty ops).Matches := by
  have hrun := exec_invariant Mirrored (fun db op hdb hop => hdb.step json op hop) Db.empty ops mirrored_empty h
  exact hrun.matches

def sampleChannel : Channel := { id := 1, key := "k", weight := some 5, models := "m,n", group := "g", tag := some "t" }

def sampleOps : List Op :=
  [.insert sampleChannel,
   .insert { id := 2, key := "a\nb", models := "m", group := "g,h", channelInfo := { isMultiKey := true } },
   .updateChannelStatus 2 "a" channelStatusAutoDisabled "quota" 7,
   .updateChannelStatus 2 "b" channelStatusAutoDisabled "quota" 8,
   .editChannelByTag "t" { newTag := some "u", weight := some 9 },
   .update { id := 1, models := "m,o" },
   .disableChannelByTag "u"]

theorem abilities_mirror_channels_edited :
    (exec (step noJson) Db.empty sampleOps).abilities.rows.length = 4 ∧
    (exec (step noJson) Db.empty sampleOps).Matches :=
  ⟨by decide +kernel, abilities_mirror_channels noJson sampleOps (by decide +kernel)⟩

/-- Each of these operations, on one channel, leaves abilities that are not those of the channels. -/
theorem abilities_left_behind :
    let run := exec (step noJson) Db.empty
    ¬ (run [.insert sampleChannel, .disableChannelByTag "t", .deleteDisabledChannel]).Matches ∧
    ¬ (run [.insert sampleChannel, .deleteChannelByStatus channelStatusEnabled]).Matches ∧
    ¬ (run [.insert sampleChannel, .batchSetChannelTag [1] (some "u")]).Matches ∧
    ¬ (run [.insert sampleChannel, .editChannelByTag "t" { weight := some 0 }]).Matches ∧
    ¬ (run [.update sampleChannel]).Matches ∧
    ¬ (run [.insert { id := 1, models := "c,b|c", group := "a,a|b" }]).Matches := by
  decide +kernel

end AiGateway.Channels
