import AiGateway.ChannelIndex
import AiGateway.ChannelLevel
import AiGateway.ChannelMirror

/-! Which channels a request can be given from a cache that was just built, in terms of the rows of
the channels. -/
namespace AiGateway.Channels

open List Table

variable {c : Channel}

variable (json : Json)

namespace Channel

def servesPath (requestPath : String) (c : Channel) : Bool :=
  if c.type ≠ channelTypeAdvancedCustom then true
  else
    match (c.getOtherSettings json).1 with
    | none => false
    | some config => config.supportsPath requestPath

theorem mem_pairs {group model : String} :
    (group, model) ∈ c.pairs ↔ group ∈ GoText.split c.group "," ∧ model ∈ GoText.split c.models "," := by
  simp only [pairs, mem_flatMap, mem_map, Prod.mk.injEq]
  constructor
  · rintro ⟨_, hm, _, hg, rfl, rfl⟩
    exact ⟨hg, hm⟩
  · rintro ⟨hg, hm⟩
    exact ⟨model, hm, group, hg, rfl, rfl⟩

end Channel

namespace Db

def enabledChannels (db : Db) (group model : String) : List Channel :=
  db.channels.rows.filter (fun c => c.status = channelStatusEnabled && (group, model) ∈ c.pairs)

def servingChannels (db : Db) (group model requestPath : String) : List Channel :=
  if requestPath = "" then db.enabledChannels group model
  else (db.enabledChannels group model).filter (Channel.servesPath json requestPath)

def cachedChannels (db : Db) (group model requestPath : String) : List Channel :=
  if db.servingChannels json group model requestPath = [] then
    db.servingChannels json group (formatMatchingModelName model) requestPath
  else db.servingChannels json group model requestPath

variable {db : Db} {json : Json} {group model requestPath : String} {c : Channel}

theorem mem_enabledChannels : c ∈ db.enabledChannels group model ↔
    c ∈ db.channels.rows ∧ c.status = channelStatusEnabled ∧ (group, model) ∈ c.pairs := by
  rw [enabledChannels, mem_filter, Bool.and_eq_true, decide_eq_true_eq, decide_eq_true_eq]

theorem enabled_of_serving (h : c ∈ db.servingChannels json group model requestPath) :
    c ∈ db.enabledChannels group model := by
  rw [servingChannels] at h
  split at h
  · exact h
  · exact (mem_filter.mp h).1

theorem eq_of_id {c' : Channel} (h : c ∈ db.enabledChannels group model) {model' : String}
    (h' : c' ∈ db.enabledChannels group model') (hid : c.id = c'.id) : c = c' :=
  eq_of_key db.channels (mem_enabledChannels.mp h).1 (mem_enabledChannels.mp h').1 hid

theorem Matches.ability_mem (h : db.Matches) (hc : c ∈ db.channels.rows) {p : String × String} (hp : p ∈ c.pairs) :
    c.ability p ∈ db.abilities.rows := by
  have hin : c.ability p ∈ db.abilities.rows.filter (fun a => a.key = (p.1, p.2, c.id)) := by
    rw [h.1 c hc p hp]
    exact mem_singleton_self _
  exact (mem_filter.mp hin).1

end Db

section Memory

/-- `InitChannelCache` while the tables do not change. -/
def rebuildCache (env : Env) (old : Cache) (db : Db) : Option Cache :=
  let snapshot := Snapshot.read env.json db.channels.rows
  (snapshot.buildIndex env (db.abilities.rows.map Ability.group)).map (old.install snapshot)

def Cache.object (old : Cache) (c : Channel) : Channel :=
  keepPollingIndex (old.channelsIDM c.id) (c.withSettings json)

variable {env : Env} {old cache : Cache} {db : Db} {group model requestPath : String}

theorem object_eq :
    ∃ info settings, old.object json c = { c with channelInfo := info, otherSettings := settings } := by
  obtain ⟨settings, hsettings⟩ := withSettings_eq json c
  obtain ⟨_, hindex⟩ := keepPollingIndex_eq (old.channelsIDM c.id) (c.withSettings json)
  exact ⟨_, settings, by rw [Cache.object, hindex, hsettings]⟩

@[simp] theorem object_id : (old.object json c).id = c.id := by
  obtain ⟨_, _, h⟩ := object_eq json
  rw [h]

@[simp] theorem object_type : (old.object json c).type = c.type := by
  obtain ⟨_, _, h⟩ := object_eq json
  rw [h]

@[simp] theorem object_getPriority : (old.object json c).getPriority = c.getPriority := by
  obtain ⟨_, _, h⟩ := object_eq json
  rw [h, Channel.getPriority, Channel.getPriority]

@[simp] theorem object_getWeight : (old.object json c).getWeight = c.getWeight := by
  obtain ⟨_, _, h⟩ := object_eq json
  rw [h, Channel.getWeight, Channel.getWeight]

theorem rebuildCache_some (env : Env) (old : Cache) (h : db.Matches) :
    ∃ cache, rebuildCache env old db = some cache := by
  have hcovered : (Snapshot.read env.json db.channels.rows).Covered (db.abilities.rows.map Ability.group) := by
    intro c hc _ group hgroup
    obtain ⟨row, hrow, rfl⟩ := mem_map.mp hc
    obtain ⟨_, hsettings⟩ := withSettings_eq env.json row
    rw [hsettings] at hgroup
    obtain ⟨_, hmodel⟩ := exists_mem_of_ne_nil _ (Snapshot.split_ne_nil row.models ",")
    exact mem_map.mpr ⟨_, h.ability_mem hrow (Channel.mem_pairs.mpr ⟨hgroup, hmodel⟩), rfl⟩
  obtain ⟨_, hindex⟩ := Option.isSome_iff_exists.mp (Snapshot.buildIndex_isSome env hcovered)
  exact ⟨_, by rw [rebuildCache, hindex, Option.map_some]⟩

theorem channelsIDM_rebuildCache (hcache : rebuildCache env old db = some cache) (id : Int) :
    cache.channelsIDM id = (db.channels.find id).map (old.object env.json) := by
  obtain ⟨_, _, rfl⟩ := Option.map_eq_some_iff.mp hcache
  have hid (c : Channel) : (c.withSettings env.json).id = c.id := by
    obtain ⟨_, h⟩ := withSettings_eq env.json c
    rw [h]
  have hfind : (Snapshot.read env.json db.channels.rows).find id =
      (db.channels.find id).map (Channel.withSettings env.json) := by
    simp only [Snapshot.find, Snapshot.read, find?_map, find]
    congr 2
    funext c
    simp only [Function.comp, hid]
  simp only [Cache.install, hfind, Option.map_map]
  cases hrow : db.channels.find id with
  | none => rfl
  | some c =>
    have hcid : c.id = id := ((find_some_iff _ _ _).mp hrow).2
    simp only [Option.map_some, Function.comp, Cache.object, hcid]

theorem lookup_configs {rows : List Channel} (hnd : (rows.map Channel.id).Nodup)
    (hc : c ∈ rows) (htype : c.type = channelTypeAdvancedCustom) :
    (Snapshot.read json rows).configs.lookup c.id = (c.getOtherSettings json).1 := by
  simp only [Snapshot.read]
  induction rows with
  | nil => cases hc
  | cons row rows ih =>
    rw [map_cons, nodup_cons] at hnd
    rw [filterMap_cons]
    rcases mem_cons.mp hc with rfl | hc
    · rw [if_pos htype]
      cases hconfig : (c.getOtherSettings json).1 with
      | some => simp
      | none =>
        -- No other row has the id.
        rw [Option.map_none, lookup_eq_none_iff]
        rintro ⟨id, _⟩ hin
        obtain ⟨_, hc', hsome⟩ := mem_filterMap.mp hin
        split at hsome
        · obtain ⟨_, _, hpair⟩ := Option.map_eq_some_iff.mp hsome
          rw [← (Prod.mk.inj hpair).1, bne_iff_ne]
          intro he
          exact hnd.1 (he ▸ mem_map_of_mem hc')
        · cases hsome
    · have hne : c.id ≠ row.id := by
        intro he
        exact hnd.1 (he ▸ mem_map_of_mem hc)
      split
      · exact ih hnd.2 hc
      · next pair hpair =>
        split at hpair
        · obtain ⟨_, _, rfl⟩ := Option.map_eq_some_iff.mp hpair
          rw [lookup_cons, beq_eq_false_iff_ne.mpr hne]
          exact ih hnd.2 hc
        · cases hpair

theorem servesPath_rebuildCache (hcache : rebuildCache env old db = some cache)
    (hc : c ∈ db.channels.rows) (requestPath : String) :
    cache.servesPath requestPath c.id = c.servesPath env.json requestPath := by
  have hobject := channelsIDM_rebuildCache hcache c.id
  rw [find_mem _ c hc, Option.map_some] at hobject
  simp only [Cache.servesPath, hobject, object_type, Channel.servesPath]
  split
  · rfl
  · next htype =>
    have hconfig : cache.channel2advancedCustomConfig.lookup c.id = (c.getOtherSettings env.json).1 := by
      obtain ⟨_, _, rfl⟩ := Option.map_eq_some_iff.mp hcache
      exact lookup_configs env.json db.channels.unique hc (not_not.mp htype)
    cases hsettings : (c.getOtherSettings env.json).1 with
    | none | some => simp only [hconfig, hsettings]

variable {id retry : Int}

section
variable (hcache : rebuildCache env old db = some cache)
include hcache

theorem mem_index_rebuildCache :
    id ∈ cache.group2model2channels.lookup group model ↔ ∃ c ∈ db.enabledChannels group model, c.id = id := by
  obtain ⟨_, hindex, rfl⟩ := Option.map_eq_some_iff.mp hcache
  simp only [Cache.install, Snapshot.mem_lookup hindex, Snapshot.read, mem_map, Db.mem_enabledChannels,
    Channel.mem_pairs]
  constructor
  · rintro ⟨_, ⟨c, hc, rfl⟩, hen, hgroup, hmodel, hid⟩
    obtain ⟨_, hsettings⟩ := withSettings_eq env.json c
    rw [hsettings] at hen hgroup hmodel hid
    exact ⟨c, ⟨hc, hen, hgroup, hmodel⟩, hid⟩
  · rintro ⟨c, ⟨hc, hen, hgroup, hmodel⟩, hid⟩
    obtain ⟨_, hsettings⟩ := withSettings_eq env.json c
    exact ⟨_, ⟨c, hc, hsettings⟩, hen, hgroup, hmodel, hid⟩

theorem mem_candidates_rebuildCache :
    id ∈ cache.candidates group model requestPath ↔
      ∃ c ∈ db.servingChannels env.json group model requestPath, c.id = id := by
  rw [Cache.candidates, Cache.filterChannelsByRequestPath, Db.servingChannels]
  split
  · exact mem_index_rebuildCache hcache
  · rw [mem_filter, mem_index_rebuildCache hcache]
    have hserves {c : Channel} (hc : c ∈ db.enabledChannels group model) :=
      servesPath_rebuildCache hcache (Db.mem_enabledChannels.mp hc).1 requestPath
    constructor
    · rintro ⟨⟨c, hc, rfl⟩, hpath⟩
      exact ⟨c, mem_filter.mpr ⟨hc, hserves hc ▸ hpath⟩, rfl⟩
    · rintro ⟨c, hc, rfl⟩
      obtain ⟨hin, hpath⟩ := mem_filter.mp hc
      exact ⟨⟨c, hin, rfl⟩, (hserves hin).trans hpath⟩

theorem mem_ids_rebuildCache :
    id ∈ cache.requestIds group model requestPath ↔
      ∃ c ∈ db.cachedChannels env.json group model requestPath, c.id = id := by
  have hnil : cache.candidates group model requestPath = [] ↔
      db.servingChannels env.json group model requestPath = [] := by
    rw [eq_nil_iff_forall_not_mem, eq_nil_iff_forall_not_mem]
    simp only [mem_candidates_rebuildCache hcache]
    exact ⟨fun h c hc => h c.id ⟨c, hc, rfl⟩, fun h _ ⟨c, hc, _⟩ => h c hc⟩
  rw [Cache.requestIds, Db.cachedChannels]
  simp only [hnil]
  split <;> exact mem_candidates_rebuildCache hcache

end

theorem Db.rows_of_cached {json : Json} (h : c ∈ db.cachedChannels json group model requestPath) :
    c ∈ db.channels.rows := by
  rw [cachedChannels] at h
  split at h <;> exact (mem_enabledChannels.mp (enabled_of_serving h)).1

theorem getRandomSatisfiedChannel_rebuildCache (hcache : rebuildCache env old db = some cache)
    (group model requestPath : String) (hretry : 0 ≤ retry) : ∃ objects : List Channel,
      (∀ o, o ∈ objects ↔ ∃ c ∈ db.cachedChannels env.json group model requestPath, old.object env.json
        c = o) ∧
      ∀ r, cache.getRandomSatisfiedChannel group model retry requestPath r =
        if objects = [] then .noChannel else chooseByPriority group model objects retry r := by
  have hids (id : Int) : id ∈ cache.requestIds group model requestPath ↔
      ∃ c ∈ db.cachedChannels env.json group model requestPath, c.id = id := mem_ids_rebuildCache hcache
  have hobject {c : Channel} (hc : c ∈ db.cachedChannels env.json group model requestPath) :
      cache.channelsIDM c.id = some (old.object env.json c) := by
    rw [channelsIDM_rebuildCache hcache, find_mem _ c (Db.rows_of_cached hc), Option.map_some]
  refine ⟨_, ?_, Cache.getRandomSatisfiedChannel_eq hretry ?_ rfl⟩
  · intro o
    rw [mem_filterMap]
    constructor
    · rintro ⟨id, hid, ho⟩
      obtain ⟨c, hc, rfl⟩ := (hids id).mp hid
      exact ⟨c, hc, Option.some.inj ((hobject hc).symm.trans ho)⟩
    · rintro ⟨c, hc, rfl⟩
      exact ⟨c.id, (hids c.id).mpr ⟨c, hc, rfl⟩, hobject hc⟩
  · intro id hid
    obtain ⟨c, hc, rfl⟩ := (hids id).mp hid
    exact ⟨_, hobject hc⟩

theorem channelId_eq_some {s : Selection} : s.channelId = some id ↔ ∃ c, s = .found c ∧ c.id = id := by
  cases s with
  | found | noChannel | error | panicked => simp [Selection.channelId]

theorem exists_memory_found (hcache : rebuildCache env old db = some cache) (hretry : 0 ≤ retry) :
    (∃ r, (cache.getRandomSatisfiedChannel group model retry requestPath r).channelId = some id) ↔
      ∃ c ∈ db.cachedChannels env.json group model requestPath, c.id = id ∧
        level (db.cachedChannels env.json group model requestPath) retry = some c.getPriority ∧
        Drawable ((db.cachedChannels env.json group model requestPath).filter
          (fun c' => c'.getPriority = c.getPriority)) c := by
  obtain ⟨objects, hmem, hselect⟩ := getRandomSatisfiedChannel_rebuildCache hcache group model requestPath hretry
  generalize db.cachedChannels env.json group model requestPath = cs at hmem ⊢
  have hlevel : level objects retry = level cs retry := by
    refine level_congr ?_
    intro p
    simp only [mem_map, hmem, exists_exists_and_eq_and, object_getPriority]
  have hdraw (c : Channel) :
      Drawable (objects.filter (fun c' => c'.getPriority = c.getPriority)) (old.object env.json c) ↔
      Drawable (cs.filter (fun c' => c'.getPriority = c.getPriority)) c := by
    simp only [Drawable, mem_filter, hmem, and_imp, forall_exists_index, forall_apply_eq_imp_iff₂, object_getPriority,
      object_getWeight]
  constructor
  · rintro ⟨r, hr⟩
    obtain ⟨o, ho, hid⟩ := channelId_eq_some.mp hr
    rw [hselect] at ho
    split at ho
    · cases ho
    · obtain ⟨hin, hat, hdrawn⟩ := exists_chooseByPriority.mp ⟨r, ho⟩
      obtain ⟨c, hc, rfl⟩ := (hmem o).mp hin
      rw [object_getPriority] at hat hdrawn
      exact ⟨c, hc, (object_id env.json).symm.trans hid, hlevel ▸ hat, (hdraw c).mp hdrawn⟩
  · rintro ⟨c, hc, rfl, hat, hdrawn⟩
    have hin : old.object env.json c ∈ objects := (hmem _).mpr ⟨c, hc, rfl⟩
    have hchoose : ∃ r, chooseByPriority group model objects retry r = .found (old.object env.json c) := by
      rw [exists_chooseByPriority, object_getPriority, hlevel]
      exact ⟨hin, hat, (hdraw c).mpr hdrawn⟩
    obtain ⟨r, hr⟩ := hchoose
    refine ⟨r, ?_⟩
    rw [hselect, if_neg (ne_nil_of_mem hin), hr]
    exact congrArg some (object_id env.json)

theorem exists_memory_none (hcache : rebuildCache env old db = some cache) (hretry : 0 ≤ retry) :
    (∃ r, cache.getRandomSatisfiedChannel group model retry requestPath r = .noChannel) ↔
      db.cachedChannels env.json group model requestPath = [] := by
  obtain ⟨objects, hmem, hselect⟩ := getRandomSatisfiedChannel_rebuildCache hcache group model requestPath hretry
  have hnil : objects = [] ↔ db.cachedChannels env.json group model requestPath = [] := by
    rw [eq_nil_iff_forall_not_mem, eq_nil_iff_forall_not_mem]
    simp only [hmem, not_exists, not_and, forall_apply_eq_imp_iff₂]
  rw [← hnil]
  simp only [hselect]
  constructor
  · rintro ⟨r, hr⟩
    by_contra hne
    rw [if_neg hne] at hr
    exact chooseByPriority_ne_noChannel objects retry r hr
  · intro hempty
    exact ⟨0, if_pos hempty⟩

end Memory

end AiGateway.Channels
