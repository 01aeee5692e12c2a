import AiGateway.ChannelCache

/-! What a rebuild of the cache builds: which ids the index lists for a group and a model, how
often, and when the loop that builds it goes through. -/
namespace AiGateway.Channels

namespace Index

open List Function Option

variable {index index' : Index}

variable {e : String × String × Int}

theorem append_some (h : index.append e = some index') (group model : String) :
    index'.lookup group model = index.lookup group model ++
      (if e.1 = group ∧ e.2.1 = model then [e.2.2] else []) := by
  rw [append] at h
  cases hg : index e.1 with
  | none => simp [hg] at h
  | some =>
    simp only [hg, some.injEq] at h
    subst h
    by_cases hgroup : group = e.1
    · subst hgroup
      simp only [lookup, update_self, hg]
      by_cases hmodel : model = e.2.1
      · subst hmodel
        simp
      · simp [update_of_ne hmodel, Ne.symm hmodel]
    · simp only [lookup, update_of_ne hgroup, Ne.symm hgroup, false_and, if_false, append_nil]

theorem append_isSome (h : index.append e = some index') (group : String) :
    (index' group).isSome = (index group).isSome := by
  rw [append] at h
  cases hg : index e.1 with
  | none => simp [hg] at h
  | some =>
    simp only [hg, some.injEq] at h
    subst h
    by_cases hgroup : group = e.1
    · rw [hgroup, update_self, hg]
      rfl
    · rw [update_of_ne hgroup]

variable {es : List (String × String × Int)}

theorem foldlM_append_isSome (h : ∀ e ∈ es, (index e.1).isSome = true) :
    (es.foldlM append index).isSome = true := by
  induction es generalizing index with
  | nil => rfl
  | cons e es ih =>
    obtain ⟨_, hg⟩ := isSome_iff_exists.mp (h e mem_cons_self)
    obtain ⟨_, ha⟩ : ∃ index', index.append e = some index' := by simp [append, hg]
    rw [foldlM_cons, ha, bind_eq_bind, bind_some]
    apply ih
    intro e' he'
    rw [append_isSome ha]
    exact h e' (mem_cons_of_mem e he')

theorem foldlM_append_lookup (h : es.foldlM append index = some index') (group model : String) :
    index'.lookup group model =
      index.lookup group model ++ (es.filter (fun e => e.1 = group ∧ e.2.1 = model)).map (fun e => e.2.2) := by
  induction es generalizing index with
  | nil =>
    obtain rfl := some.inj h
    simp
  | cons e es ih =>
    rw [foldlM_cons] at h
    obtain ⟨_, hfirst, hrest⟩ := bind_eq_some_iff.mp h
    rw [ih hrest, append_some hfirst, append_assoc, filter_cons]
    by_cases he : e.1 = group ∧ e.2.1 = model <;> simp [he]

theorem lookup_map (f : List Int → List Int) (group model : String) :
    (index.map f).lookup group model = index.lookup group model ∨
    (index.map f).lookup group model = f (index.lookup group model) := by
  simp only [map, lookup]
  cases index group with
  | none => exact .inl rfl
  | some => exact .inr rfl

theorem lookup_ofGroups (groups : List String) (group model : String) : (ofGroups groups).lookup group model = [] := by
  simp only [lookup, ofGroups]
  split
  · rfl
  · next h =>
    split at h
    · obtain rfl := some.inj h
      rfl
    · cases h

end Index

namespace Snapshot

open List GoText

variable {s : Snapshot} {env : Env} {groups : List String} {index : Index}

variable {group model : String} {id : Int}

theorem mem_entriesOf {c : Channel} : (group, model, id) ∈ entriesOf c ↔
      group ∈ split c.group "," ∧ model ∈ split c.models "," ∧ c.id = id := by
  simp only [entriesOf, mem_flatMap, mem_map, Prod.mk.injEq]
  constructor
  · rintro ⟨_, hg, _, hm, rfl, rfl, hid⟩
    exact ⟨hg, hm, hid⟩
  · rintro ⟨hg, hm, hid⟩
    exact ⟨group, hg, model, hm, rfl, rfl, hid⟩

theorem mem_entries : (group, model, id) ∈ s.entries ↔ ∃ c ∈ s.channels, c.status = channelStatusEnabled ∧
      group ∈ split c.group "," ∧ model ∈ split c.models "," ∧ c.id = id := by
  simp only [entries, mem_flatMap, mem_filter, decide_eq_true_eq, mem_entriesOf, and_assoc]

theorem splitChars_ne_nil (sep : List Char) (cs : List Char) (skip : ℕ) (piece : List Char) :
    splitChars sep cs skip piece ≠ [] := by
  induction cs generalizing skip piece with
  | nil => simp [splitChars]
  | cons c cs ih =>
    cases skip with
    | zero =>
      rw [splitChars]
      split
      · exact cons_ne_nil _ _
      · exact ih 0 _
    | succ skip =>
      rw [splitChars]
      exact ih skip piece

theorem split_ne_nil (s sep : String) : split s sep ≠ [] := by
  rw [split]
  exact fun h => splitChars_ne_nil _ _ _ _ (map_eq_nil_iff.mp h)

def Covered (s : Snapshot) (groups : List String) : Prop :=
  ∀ c ∈ s.channels, c.status = channelStatusEnabled → ∀ group ∈ split c.group ",", group ∈ groups

instance (s : Snapshot) (groups : List String) : Decidable (s.Covered groups) :=
  inferInstanceAs (Decidable (∀ c ∈ s.channels, c.status = channelStatusEnabled →
    ∀ group ∈ split c.group ",", group ∈ groups))

theorem buildIndex_isSome (env : Env) (h : s.Covered groups) : (s.buildIndex env groups).isSome = true := by
  rw [buildIndex, Option.isSome_map]
  apply Index.foldlM_append_isSome
  intro e he
  obtain ⟨c, hc, hen, hin, _⟩ := mem_entries.mp he
  simp only [Index.ofGroups, h c hc hen e.1 hin]
  rfl

theorem buildIndex_lookup (h : s.buildIndex env groups = some index) : (index.lookup group model).Perm
      ((s.entries.filter (fun e => e.1 = group ∧ e.2.1 = model)).map (fun e => e.2.2)) := by
  obtain ⟨built, hbuilt, rfl⟩ := Option.map_eq_some_iff.mp h
  have hlookup := Index.foldlM_append_lookup hbuilt group model
  rw [Index.lookup_ofGroups, nil_append] at hlookup
  rw [← hlookup]
  rcases Index.lookup_map (env.sortSlice.sort s.priority) group model with he | he
  · rw [he]
  · rw [he]
    exact env.sortSlice.perm _ _

theorem mem_lookup (h : s.buildIndex env groups = some index) :
    id ∈ index.lookup group model ↔ ∃ c ∈ s.channels, c.status = channelStatusEnabled ∧
      group ∈ split c.group "," ∧ model ∈ split c.models "," ∧ c.id = id := by
  rw [(buildIndex_lookup h).mem_iff, ← mem_entries]
  simp only [mem_map, mem_filter, decide_eq_true_eq]
  constructor
  · rintro ⟨⟨_, _⟩, ⟨he, rfl, rfl⟩, rfl⟩
    exact he
  · intro he
    exact ⟨_, ⟨he, rfl, rfl⟩, rfl⟩

theorem count_map_filter (es : List (String × String × Int)) :
    ((es.filter (fun e => e.1 = group ∧ e.2.1 = model)).map (fun e => e.2.2)).count id = es.count
      (group, model, id) := by
  rw [count_eq_countP, countP_map, countP_filter, count_eq_countP]
  apply countP_congr
  rintro ⟨g, m, i⟩ _
  simp [and_comm, and_left_comm]

theorem entriesOf_nodup {c : Channel} (hg : (split c.group ",").Nodup) (hm : (split c.models ",").Nodup) :
    (entriesOf c).Nodup := by
  rw [entriesOf, nodup_flatMap]
  refine ⟨?_, ?_⟩
  · intro group _
    apply hm.map
    intro m m' h
    simpa using h
  · refine hg.imp ?_
    intro g g' hne e he he'
    obtain ⟨_, _, rfl⟩ := mem_map.mp he
    obtain ⟨_, _, heq⟩ := mem_map.mp he'
    exact hne (congrArg Prod.fst heq).symm

theorem count_flatMap_entriesOf {cs : List Channel} (hnd : (cs.map Channel.id).Nodup)
    (hcs : ∀ c ∈ cs, c.id = id → (entriesOf c).Nodup) : (cs.flatMap entriesOf).count
      (group, model, id) ≤ 1 := by
  induction cs with
  | nil => exact Nat.zero_le 1
  | cons c cs ih =>
    rw [map_cons, nodup_cons] at hnd
    rw [flatMap_cons, count_append]
    have hrest := ih hnd.2 (fun c' h => hcs c' (mem_cons_of_mem c h))
    by_cases hid : c.id = id
    · -- No other channel has the id, so the rest has no such entry.
      have hzero : (cs.flatMap entriesOf).count (group, model, id) = 0 := by
        rw [count_eq_zero]
        intro hin
        obtain ⟨c', hc', he⟩ := mem_flatMap.mp hin
        have hid' := (mem_entriesOf.mp he).2.2
        exact hnd.1 (hid.trans hid'.symm ▸ mem_map_of_mem hc')
      have hone := nodup_iff_count_le_one.mp (hcs c mem_cons_self hid) (group, model, id)
      omega
    · have hzero : (entriesOf c).count (group, model, id) = 0 := by
        rw [count_eq_zero]
        intro hin
        exact hid (mem_entriesOf.mp hin).2.2
      omega

theorem count_lookup_le_one (h : s.buildIndex env groups = some index) (hnd : (s.channels.map Channel.id).Nodup)
    (hid : ∀ c ∈ s.channels, c.id = id → c.status = channelStatusEnabled →
      (split c.group ",").Nodup ∧ (split c.models ",").Nodup) :
    (index.lookup group model).count id ≤ 1 := by
  rw [(buildIndex_lookup h).count_eq, count_map_filter]
  apply count_flatMap_entriesOf (hnd.sublist (filter_sublist.map Channel.id))
  intro c hc he
  obtain ⟨hin, hen⟩ := mem_filter.mp hc
  obtain ⟨hg, hm⟩ := hid c hin he (of_decide_eq_true hen)
  exact entriesOf_nodup hg hm

end Snapshot

end AiGateway.Channels
