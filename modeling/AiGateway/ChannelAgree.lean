import AiGateway.ChannelQuery

/-! The choice from the memory cache and the choice from the tables. -/
namespace AiGateway.Channels

open List

/-- The two can return the same channels, and one can find none exactly when the other can. -/
def SameSelections (env : Env) (cache : Cache) (db : Db) (group model : String) (retry : Int) (requestPath : String) :
    Prop :=
  (∀ id, (∃ r, (cache.getRandomSatisfiedChannel group model retry requestPath r).channelId = some id) ↔
    ∃ r, (db.getChannel env group model retry requestPath r).channelId = some id) ∧
  ((∃ r, cache.getRandomSatisfiedChannel group model retry requestPath r = .noChannel) ↔
    ∃ r, db.getChannel env group model retry requestPath r = .noChannel)

structure Agreeable (json : Json) (db : Db) (group model : String) (retry : Int) (requestPath : String) : Prop where
  normalized : db.servingChannels json group model requestPath = [] →
    db.servingChannels json group (formatMatchingModelName model) requestPath = []
  sameLevel : db.servingChannels json group model requestPath ≠ [] →
    level (db.enabledChannels group model) retry = level (db.servingChannels json group model requestPath) retry
  weights : ∀ c ∈ db.servingChannels json group model requestPath,
    level (db.servingChannels json group model requestPath) retry = some c.getPriority →
    Drawable ((db.servingChannels json group model requestPath).filter (fun c' => c'.getPriority = c.getPriority)) c
  abilities : db.enabledChannels group model = [] → retry = 0

section Agree

variable {env : Env} {old cache : Cache} {db : Db} {group model requestPath : String} {retry : Int}

theorem Db.cachedChannels_of_ne {json : Json} (h : db.servingChannels json group model requestPath ≠ []) :
    db.cachedChannels json group model requestPath = db.servingChannels json group model requestPath := if_neg h

theorem Db.cachedChannels_of_nil {json : Json} (h : db.servingChannels json group model requestPath = []) :
    db.cachedChannels json group model requestPath =
      db.servingChannels json group (formatMatchingModelName model) requestPath := if_pos h

theorem exists_drawable {cs : List Channel} (hne : cs ≠ []) (hretry : 0 ≤ retry) :
    ∃ c ∈ cs, level cs retry = some c.getPriority ∧
      Drawable (cs.filter (fun c' => c'.getPriority = c.getPriority)) c := by
  obtain ⟨c, hc, hat⟩ := level_mem hne hretry
  by_cases hdraw : Drawable (cs.filter (fun c' => c'.getPriority = c.getPriority)) c
  · exact ⟨c, hc, hat, hdraw⟩
  · -- A channel beside it has a weight, and can be drawn.
    rw [Drawable] at hdraw
    push Not at hdraw
    obtain ⟨_, c', hc', hw⟩ := hdraw
    obtain ⟨hin, hp⟩ := mem_filter.mp hc'
    have hpriority : c'.getPriority = c.getPriority := of_decide_eq_true hp
    exact ⟨c', hin, hpriority ▸ hat, fun hzero => absurd hzero hw⟩

theorem agreeable_of_sameSelections (h : db.Matches) (hcache : rebuildCache env old db = some cache)
    (hretry : 0 ≤ retry) (hsame : SameSelections env cache db group model retry requestPath) :
    Agreeable env.json db group model retry requestPath := by
  have hfound (id : Int) := hsame.1 id
  simp only [exists_memory_found hcache hretry, exists_database_found h hretry] at hfound
  have hnone := hsame.2
  rw [exists_memory_none hcache hretry, exists_database_none h hretry] at hnone
  have hnormalized : db.servingChannels env.json group model requestPath = [] →
      db.servingChannels env.json group (formatMatchingModelName model) requestPath = [] := by
    intro hempty
    rw [Db.cachedChannels_of_nil hempty] at hfound
    by_contra hne
    obtain ⟨c, hc, hat, hdraw⟩ := exists_drawable hne hretry
    obtain ⟨c', hc', _⟩ := (hfound c.id).mp ⟨c, hc, rfl, hat, hdraw⟩
    rw [hempty] at hc'
    cases hc'
  have hlevel : db.servingChannels env.json group model requestPath ≠ [] →
      level (db.enabledChannels group model) retry =
        level (db.servingChannels env.json group model requestPath) retry := by
    intro hne
    rw [Db.cachedChannels_of_ne hne] at hfound
    obtain ⟨c, hc, hat, hdraw⟩ := exists_drawable hne hretry
    obtain ⟨c', hc', hid, hat'⟩ := (hfound c.id).mp ⟨c, hc, rfl, hat, hdraw⟩
    rw [Db.eq_of_id (Db.enabled_of_serving hc') (Db.enabled_of_serving hc) hid] at hat'
    rw [hat, hat']
  refine ⟨hnormalized, hlevel, ?_, ?_⟩
  · intro c hc hat
    have hne := ne_nil_of_mem hc
    rw [Db.cachedChannels_of_ne hne] at hfound
    obtain ⟨c', hc', hid, _, hdraw⟩ := (hfound c.id).mpr ⟨c, hc, rfl, (hlevel hne).trans hat⟩
    rwa [Db.eq_of_id (Db.enabled_of_serving hc') (Db.enabled_of_serving hc) hid] at hdraw
  · intro hempty
    have hserving : db.servingChannels env.json group model requestPath = [] := by
      rw [eq_nil_iff_forall_not_mem]
      intro c hc
      have hin := Db.enabled_of_serving hc
      rw [hempty] at hin
      cases hin
    have hcached : db.cachedChannels env.json group model requestPath = [] := by
      rw [Db.cachedChannels_of_nil hserving]
      exact hnormalized hserving
    exact (hnone.mp hcached).1 hempty

end Agree

theorem memory_and_database_agree (env : Env) (old : Cache) (db : Db) (h : db.Matches) (group model : String)
    (retry : Int) (hretry : 0 ≤ retry) (requestPath : String)
    (hagree : Agreeable env.json db group model retry requestPath) :
    ∃ cache, rebuildCache env old db = some cache ∧ SameSelections env cache db group model retry requestPath := by
  obtain ⟨cache, hcache⟩ := rebuildCache_some env old h
  refine ⟨cache, hcache, ?_, ?_⟩
  · intro id
    rw [exists_memory_found hcache hretry, exists_database_found h hretry]
    by_cases hempty : db.servingChannels env.json group model requestPath = []
    · rw [Db.cachedChannels_of_nil hempty, hagree.normalized hempty, hempty]
      simp only [not_mem_nil, false_and, exists_false]
    · rw [Db.cachedChannels_of_ne hempty, hagree.sameLevel hempty]
      constructor
      · rintro ⟨c, hc, hid, hat, _⟩
        exact ⟨c, hc, hid, hat⟩
      · rintro ⟨c, hc, hid, hat⟩
        exact ⟨c, hc, hid, hat, hagree.weights c hc hat⟩
  · rw [exists_memory_none hcache hretry, exists_database_none h hretry]
    by_cases hempty : db.servingChannels env.json group model requestPath = []
    · rw [Db.cachedChannels_of_nil hempty, hagree.normalized hempty, hempty]
      simp only [not_mem_nil, false_imp_iff, implies_true, and_true, true_iff]
      exact hagree.abilities
    · rw [Db.cachedChannels_of_ne hempty, hagree.sameLevel hempty]
      constructor
      · intro hnil
        exact absurd hnil hempty
      · rintro ⟨_, hnone⟩
        obtain ⟨c, hc, hat⟩ := level_mem hempty hretry
        exact absurd hat (hnone c hc)

instance (targets : List Channel) (c : Channel) : Decidable (Drawable targets c) :=
  inferInstanceAs (Decidable (c.getWeight = 0 → ∀ c' ∈ targets, c'.getWeight = 0))

def sampleChannels : Db :=
  ((Db.empty.insert
    { id := 1, key := "k", models := "m,n", group := "g", priority := some 10, weight := some 5 }).insert
    { id := 2, key := "k", models := "m", group := "g", priority := some 10, weight := some 30 }).insert
    { id := 3, key := "k", models := "m", group := "g", type := channelTypeAdvancedCustom }

theorem memory_and_database_agree_sample :
    ∃ cache, rebuildCache sampleEnv .initial sampleChannels = some cache ∧
      SameSelections sampleEnv cache sampleChannels "g" "m" 0 "/v1/messages" :=
  memory_and_database_agree sampleEnv .initial sampleChannels (by decide +kernel) "g" "m" 0 (by decide) "/v1/messages"
    ⟨by decide +kernel, by decide +kernel, by decide +kernel, by decide +kernel⟩

def Differ (db : Db) (group model : String) (retry : Int) (requestPath : String) : Prop :=
  db.Matches ∧ ∃ cache, rebuildCache sampleEnv .initial db = some cache ∧
    ¬ SameSelections sampleEnv cache db group model retry requestPath

theorem differ_of_not_agreeable {db : Db} {group model : String} {retry : Int} {requestPath : String} (h : db.Matches)
    (hretry : 0 ≤ retry) (hnot : ¬ Agreeable sampleEnv.json db group model retry requestPath) :
    Differ db group model retry requestPath := by
  obtain ⟨cache, hcache⟩ := rebuildCache_some sampleEnv .initial h
  exact ⟨h, cache, hcache, fun hsame => hnot (agreeable_of_sameSelections h hcache hretry hsame)⟩

/-- A channel without a weight beside one that has a weight; a name that only the cache normalises;
a second priority whose channel does not serve the path; a retry without any channel. -/
theorem memory_and_database_differ :
    Differ ((Db.empty.insert { id := 1, key := "k", models := "m", group := "g", weight := some 5 }).insert
      { id := 2, key := "k", models := "m", group := "g" }) "g" "m" 0 "" ∧
    Differ (Db.empty.insert { id := 1, key := "k", models := "gpt-4-gizmo-*", group := "g" }) "g"
      "gpt-4-gizmo-x" 0 "" ∧
    Differ sampleChannels "g" "m" 1 "/v1/messages" ∧ Differ Db.empty "g" "m" 1 "" := by
  refine ⟨differ_of_not_agreeable (by decide +kernel) (by decide) ?_,
    differ_of_not_agreeable (by decide +kernel) (by decide) ?_,
    differ_of_not_agreeable (by decide +kernel) (by decide) ?_,
    differ_of_not_agreeable (by decide +kernel) (by decide) ?_⟩
  · intro h
    exact absurd h.weights (by decide +kernel)
  · intro h
    exact absurd h.normalized (by decide +kernel)
  · intro h
    exact absurd h.sameLevel (by decide +kernel)
  · intro h
    exact absurd h.abilities (by decide +kernel)

end AiGateway.Channels
