import AiGateway.ChannelSelect

/-! Which channels a request can be given from the tables. -/
namespace AiGateway.Channels

open List Table WeightedPick

section Database

variable {db : Db} {group model requestPath : String}

theorem mem_enabledAbilities (h : db.Matches) {a : Ability} :
    a ∈ db.enabledAbilities group model ↔ ∃ c ∈ db.enabledChannels group model, c.ability
      (group, model) = a := by
  simp only [Db.enabledAbilities, mem_filter, Bool.and_eq_true, decide_eq_true_eq, Db.mem_enabledChannels]
  constructor
  · rintro ⟨ha, ⟨hgroup, hmodel⟩, hen⟩
    obtain ⟨c, hc, p, hp, rfl⟩ := h.2 a ha
    have hpair : p = (group, model) := Prod.ext hgroup hmodel
    subst hpair
    exact ⟨c, ⟨hc, of_decide_eq_true hen, hp⟩, rfl⟩
  · rintro ⟨_, ⟨hc, hen, hp⟩, rfl⟩
    exact ⟨h.ability_mem hc hp, ⟨rfl, rfl⟩, decide_eq_true hen⟩

theorem servesPath_ability (json : Json) {c : Channel} (hc : c ∈ db.channels.rows) (p : String × String)
    (requestPath : String) : db.servesPath json requestPath (c.ability p) = c.servesPath json requestPath := by
  have hfind : db.channels.find (c.ability p).channelId = some c := find_mem _ c hc
  by_cases htype : c.type ≠ channelTypeAdvancedCustom
  · simp only [Db.servesPath, hfind, Channel.servesPath, if_pos htype]
  · cases hsettings : (c.getOtherSettings json).1 with
    | none | some => simp only [Db.servesPath, hfind, Channel.servesPath, if_neg htype, hsettings]

def Db.attemptAbilities (db : Db) (group model : String) (retry : Int) : List Ability :=
  (db.enabledAbilities group model).filter (fun a =>
    priorityFor (distinctPriorities ((db.enabledAbilities group model).map Ability.priority)) retry = some a.priority)

theorem getChannelQuery_spec {retry : Int} (hretry : 0 ≤ retry) :
    (db.enabledAbilities group model = [] ∧ retry ≠ 0 ∧
      ∃ message, db.getChannelQuery group model retry = .inl (.error message)) ∨
    (db.enabledAbilities group model = [] → retry = 0) ∧
      db.getChannelQuery group model retry = .inr (db.attemptAbilities group model retry) := by
  simp only [Db.getChannelQuery, Db.attemptAbilities]
  generalize db.enabledAbilities group model = abilities
  by_cases hzero : retry = 0
  · subst hzero
    refine .inr ⟨fun _ => rfl, ?_⟩
    rw [if_pos rfl]
    simp only [priorityFor_zero]
  · rw [if_neg hzero]
    cases hpriorities : distinctPriorities (abilities.map Ability.priority) with
    | nil =>
      refine .inl ⟨?_, hzero, _, rfl⟩
      rw [eq_nil_iff_forall_not_mem]
      intro a ha
      have hin := mem_distinctPriorities.mpr (mem_map_of_mem (f := Ability.priority) ha)
      rw [hpriorities] at hin
      cases hin
    | cons p ps =>
      obtain ⟨q, _, hq⟩ := priorityFor_mem (cons_ne_nil p ps) hretry
      refine .inr ⟨?_, ?_⟩
      · rintro rfl
        cases hpriorities
      · simp only [hq, Option.some.injEq, eq_comm (a := q)]

variable {env : Env} {retry : Int} {rows : List Ability}

def Db.drawnAbilities (env : Env) (db : Db) (group model : String) (retry : Int)
    (requestPath : String) : List Ability :=
  match db.getChannelQuery group model retry with
  | .inl _ => []
  | .inr rows => db.filterAbilitiesByRequestPath env.json (env.orderBy.sort (fun a => a.weight) rows) requestPath

theorem getChannel_spec {abilities : List Ability} (h : abilities = db.drawnAbilities env group model retry requestPath)
    (hne : abilities ≠ []) (r : ℕ) :
    ∃ a, pick (fun w => w ≤ 0) (fun a => a.weight+10) abilities
        ((r%total (fun a => a.weight+10) abilities : ℕ) : Int) = some a ∧
      ∀ c, db.channels.find a.channelId = some c →
        db.getChannel env group model retry requestPath r = .found c := by
  rw [Db.drawnAbilities] at h
  split at h
  · exact absurd h hne
  · next hquery =>
    simp only [Db.getChannel, hquery, ← h]
    cases abilities with
    | nil => exact absurd rfl hne
    | cons a abilities =>
      have hpos : 0 < total (fun a => a.weight+10) (a :: abilities) := by
        rw [total_cons]
        omega
      have hlt : ((r%total (fun a : Ability => a.weight+10) (a :: abilities) : ℕ) : Int) <
          total (fun a => a.weight+10) (a :: abilities) := Int.ofNat_lt.mpr (Nat.mod_lt r hpos)
      have hstop (w : Int) (hw : w < 0) : decide (w ≤ 0) = true := decide_eq_true (le_of_lt hw)
      obtain ⟨x, hx⟩ := pick_isSome hstop hlt hne
      refine ⟨x, hx, ?_⟩
      intro c hc
      simp only [hx, Db.firstChannel, Option.map_some, Option.getD_some, hc]

theorem getChannel_noChannel_iff (hquery : db.getChannelQuery group model retry = .inr rows) (r : ℕ) :
    db.getChannel env group model retry requestPath r = .noChannel ↔
      db.drawnAbilities env group model retry requestPath = [] := by
  simp only [Db.getChannel, Db.drawnAbilities, hquery]
  cases db.filterAbilitiesByRequestPath env.json (env.orderBy.sort (fun a => a.weight) rows) requestPath with
  | nil => simp
  | cons =>
    dsimp only [Db.firstChannel]
    split <;> simp

theorem exists_getChannel_found (hquery : db.getChannelQuery group model retry = .inr rows)
    (hfound : ∀ a ∈ db.drawnAbilities env group model retry requestPath, ∃ c, db.channels.find
      a.channelId = some c)
    {id : Int} : (∃ r, (db.getChannel env group model retry requestPath r).channelId = some id) ↔
      ∃ a ∈ db.drawnAbilities env group model retry requestPath, a.channelId = id := by
  by_cases hne : db.drawnAbilities env group model retry requestPath = []
  · simp [(getChannel_noChannel_iff hquery _).mpr hne, hne, Selection.channelId]
  constructor
  · rintro ⟨r, hr⟩
    obtain ⟨a, hpick, hget⟩ := getChannel_spec rfl hne r
    obtain ⟨c, hc⟩ := hfound a (pick_mem hpick)
    rw [hget c hc] at hr
    exact ⟨a, pick_mem hpick, (find_key _ hc).symm.trans (Option.some.inj hr)⟩
  · rintro ⟨a, ha, rfl⟩
    have hdrawn : ∃ r : ℕ, r < total (fun a => a.weight+10)
      (db.drawnAbilities env group model retry requestPath) ∧
        pick (fun w => w ≤ 0) (fun a => a.weight+10)
          (db.drawnAbilities env group model retry requestPath) r = some a :=
      exists_pick _ (d := 1) (fun n => decide_eq_false (by omega)) (decide_eq_true (by omega)) (by omega) ha
    obtain ⟨r, hlt, hr⟩ := hdrawn
    obtain ⟨c, hc⟩ := hfound a ha
    obtain ⟨b, hpick, hget⟩ := getChannel_spec rfl hne r
    rw [Nat.mod_eq_of_lt hlt, hr] at hpick
    obtain rfl := Option.some.inj hpick
    refine ⟨r, ?_⟩
    rw [hget c hc]
    exact congrArg some (find_key _ hc)

theorem mem_drawnAbilities (h : db.Matches)
    (hquery : db.getChannelQuery group model retry = .inr (db.attemptAbilities group model retry)) {a : Ability} :
    a ∈ db.drawnAbilities env group model retry requestPath ↔
      ∃ c ∈ db.servingChannels env.json group model requestPath,
        level (db.enabledChannels group model) retry = some c.getPriority ∧ c.ability (group, model) = a := by
  have hlevel : priorityFor (distinctPriorities ((db.enabledAbilities group model).map Ability.priority)) retry =
      level (db.enabledChannels group model) retry := by
    refine level_congr ?_
    intro p
    simp only [mem_map, mem_enabledAbilities h, exists_exists_and_eq_and]
    rfl
  have hsorted {a : Ability} : a ∈ env.orderBy.sort (fun a => a.weight) (db.attemptAbilities group model retry) ↔
      ∃ c ∈ db.enabledChannels group model,
        level (db.enabledChannels group model) retry = some c.getPriority ∧ c.ability (group, model) = a := by
    rw [(env.orderBy.perm _ _).mem_iff, Db.attemptAbilities, mem_filter, mem_enabledAbilities h,
      decide_eq_true_eq, hlevel]
    constructor
    · rintro ⟨⟨c, hc, rfl⟩, hat⟩
      exact ⟨c, hc, hat, rfl⟩
    · rintro ⟨c, hc, hat, rfl⟩
      exact ⟨⟨c, hc, rfl⟩, hat⟩
  simp only [Db.drawnAbilities, hquery, Db.filterAbilitiesByRequestPath, Db.servingChannels]
  split
  · exact hsorted
  · rw [mem_filter, hsorted]
    have hserves {c : Channel} (hc : c ∈ db.enabledChannels group model) :=
      servesPath_ability env.json (Db.mem_enabledChannels.mp hc).1 (group, model) requestPath
    constructor
    · rintro ⟨⟨c, hc, hat, rfl⟩, hpath⟩
      exact ⟨c, mem_filter.mpr ⟨hc, hserves hc ▸ hpath⟩, hat, rfl⟩
    · rintro ⟨c, hc, hat, rfl⟩
      obtain ⟨hin, hpath⟩ := mem_filter.mp hc
      exact ⟨⟨c, hin, hat, rfl⟩, (hserves hin).trans hpath⟩

theorem enabledAbilities_eq_nil (h : db.Matches) :
    db.enabledAbilities group model = [] ↔ db.enabledChannels group model = [] := by
  rw [eq_nil_iff_forall_not_mem, eq_nil_iff_forall_not_mem]
  simp only [mem_enabledAbilities h, not_exists, not_and]
  constructor
  · intro hnone c hc
    exact hnone _ c hc rfl
  · intro hnone a c hc _
    exact hnone c hc

theorem exists_database_found (h : db.Matches) (hretry : 0 ≤ retry) {id : Int} :
    (∃ r, (db.getChannel env group model retry requestPath r).channelId = some id) ↔
      ∃ c ∈ db.servingChannels env.json group model requestPath, c.id = id ∧
        level (db.enabledChannels group model) retry = some c.getPriority := by
  rcases getChannelQuery_spec hretry with ⟨hnil, _, _, hquery⟩ | ⟨_, hquery⟩
  · rw [enabledAbilities_eq_nil h] at hnil
    constructor
    · rintro ⟨_, hr⟩
      rw [Db.getChannel, hquery] at hr
      cases hr
    · rintro ⟨c, hc, _⟩
      have hin := Db.enabled_of_serving hc
      rw [hnil] at hin
      cases hin
  · rw [exists_getChannel_found hquery]
    · simp only [mem_drawnAbilities h hquery]
      constructor
      · rintro ⟨_, ⟨c, hc, hat, rfl⟩, hid⟩
        exact ⟨c, hc, hid, hat⟩
      · rintro ⟨c, hc, hid, hat⟩
        exact ⟨_, ⟨c, hc, hat, rfl⟩, hid⟩
    · intro a ha
      obtain ⟨c, hc, _, rfl⟩ := (mem_drawnAbilities h hquery).mp ha
      exact ⟨c, find_mem _ c (Db.mem_enabledChannels.mp (Db.enabled_of_serving hc)).1⟩

/-- The tables have no channel for the request: none of the level serves the path, and there are
enabled channels, unless it is the first attempt. -/
theorem exists_database_none (h : db.Matches) (hretry : 0 ≤ retry) :
    (∃ r, db.getChannel env group model retry requestPath r = .noChannel) ↔
      (db.enabledChannels group model = [] → retry = 0) ∧
      ∀ c ∈ db.servingChannels env.json group model requestPath,
        level (db.enabledChannels group model) retry ≠ some c.getPriority := by
  rw [← enabledAbilities_eq_nil h]
  rcases getChannelQuery_spec hretry with ⟨hnil, hne, _, hquery⟩ | ⟨hzero, hquery⟩
  · constructor
    · rintro ⟨_, hr⟩
      rw [Db.getChannel, hquery] at hr
      cases hr
    · rintro ⟨hzero, _⟩
      exact absurd (hzero hnil) hne
  · simp only [getChannel_noChannel_iff hquery, exists_const]
    rw [eq_nil_iff_forall_not_mem]
    simp only [mem_drawnAbilities h hquery, not_exists, not_and]
    constructor
    · intro hnone
      exact ⟨hzero, fun c hc hat => hnone _ c hc hat rfl⟩
    · rintro ⟨_, hnone⟩ _ c hc hat _
      exact hnone c hc hat

end Database

end AiGateway.Channels
