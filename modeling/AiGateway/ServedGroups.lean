import AiGateway.GoJson
import AiGateway.GoText
import AiGateway.ServingGroup

/-! The groups whose channels serve a request. The name comes from the token or from the body of a
playground request, which is read twice in two ways. -/
namespace AiGateway.ServedGroups

open GoText RelayLoop List Option

structure GroupSetting where
  userUsableGroups : List String
  -- The keys of the map that `GroupSpecialUsableGroup` has for a user group
  groupSpecialUsableGroup : String → List String
  autoGroups : List String
  containsGroupRatio : String → Bool

/-- An order in which a range over the special groups of a user group yields them. Every range has
an order of its own. -/
abbrev Order (s : GroupSetting) (userGroup : String) :=
  { special : List String // special.Perm (s.groupSpecialUsableGroup userGroup) }

def applySpecial (groups : List String) (specialGroup : String) : List String :=
  if hasPrefix specialGroup "-:" then groups.filter (fun g => g ≠ trimPrefix specialGroup "-:")
  else if hasPrefix specialGroup "+:" then trimPrefix specialGroup "+:" :: groups
  else specialGroup :: groups

def getUserUsableGroups (s : GroupSetting) (userGroup : String) (order : Order s userGroup) : List String :=
  if userGroup = "" then s.userUsableGroups
  else
    let groups := order.1.foldl applySpecial s.userUsableGroups
    if userGroup ∈ groups then groups else userGroup :: groups

def getUserAutoGroup (s : GroupSetting) (userGroup : String) (order : Order s userGroup) : List String :=
  s.autoGroups.filter (fun g => g ∈ getUserUsableGroups s userGroup order)

structure Context where
  usingGroup : String
  tokenGroup : String
  autoGroup : Option String := none
  autoGroupIndex : Option ℕ := none
deriving DecidableEq

variable {s : GroupSetting} {userGroup : String}

/-- The groups that `TokenAuth` sets for a token, unless it refuses the request. -/
def tokenAuth (s : GroupSetting) (userGroup tokenGroup : String) (order : Order s userGroup) : Option Context :=
  if tokenGroup = "" then some { usingGroup := userGroup, tokenGroup := "" }
  else if tokenGroup ∉ getUserUsableGroups s userGroup order then none
  else if !s.containsGroupRatio tokenGroup && tokenGroup ≠ "auto" then none
  else some { usingGroup := tokenGroup, tokenGroup := tokenGroup }

def getJSONStringValue (body : List (String × Json)) (field : String) : Option String :=
  match body.find? (fun m => m.1 = field) with
  | none | some (_, .null) => some ""
  | some (_, .string v) => some v
  | some _ => none

def decodeMember (isField : String → Bool) (value : String) (m : String × Json) : Option String :=
  if isField m.1 then
    match m.2 with
    | .null => some value
    | .string v => some v
    | _ => none
  else some value

/-- A text field, as it is decoded: of the members that are taken for the field the last one
counts, and `null` leaves the field alone. -/
def decodeString (isField : String → Bool) (body : List (String × Json)) : Option String :=
  body.foldlM (decodeMember isField) ""

/-- A playground request, up to the handler `Playground`. `getModelRequest` stores the group as it
reads it, the distributor checks the group that it decodes, and the handler replaces the former by
the latter. -/
def playgroundGroups (s : GroupSetting) (userGroup : String) (isGroup : String → Bool) (body : List (String × Json))
    (order : Order s userGroup) : Option Context := do
  let tokenGroup ← getJSONStringValue body "group"
  let group ← decodeString isGroup body
  if group = "" then some { usingGroup := userGroup, tokenGroup := tokenGroup }
  else if group ∉ getUserUsableGroups s userGroup order && group ≠ userGroup then none
  else some { usingGroup := group, tokenGroup := tokenGroup }

inductive Caller
  | token (group : String)
  | playground (isGroup : String → Bool) (body : List (String × Json))

def Caller.authorize (s : GroupSetting) (userGroup : String) (order : Order s userGroup) : Caller → Option Context
  | .token group => tokenAuth s userGroup group order
  | .playground isGroup body => playgroundGroups s userGroup isGroup body order

/-- The configuration of a call of `CacheGetRandomSatisfiedChannel`. -/
def config (base : Config) (s : GroupSetting) (userGroup tokenGroup : String) (order : Order s userGroup) : Config :=
  { base with
    tokenGroup := tokenGroup
    autoGroupsEnabled := s.autoGroups ≠ []
    autoGroups := getUserAutoGroup s userGroup order }

/-- The distributor. `affinity` says for which groups the preferred channel is enabled, if there is
one that can be used. -/
def distribute (base : Config) (s : GroupSetting) (userGroup : String) (affinity : Option (String → Bool))
    (affinityOrder order : Order s userGroup) (round : Round) (info : Pricing.RelayInfo)
    (ctx : Context) : Option Context :=
  let preferred :=
    match affinity with
    | none => none
    | some enabled =>
      if ctx.usingGroup = "auto" then
        ((getUserAutoGroup s userGroup affinityOrder).find? enabled).map (fun g => { ctx with autoGroup := some g })
      else if enabled ctx.usingGroup then some ctx else none
  match preferred with
  | some ctx => some ctx
  | none =>
    match cacheGetRandomSatisfiedChannel (config base s userGroup ctx.usingGroup order) round
        (State.begin ctx.autoGroup ctx.autoGroupIndex false info) with
    | (_, none) => none
    | (st, some _) => some { ctx with autoGroup := st.autoGroup, autoGroupIndex := st.indexes.head? }

/-- `TokenGroup` of the relay info. The handler `Playground` makes a token for the group in use. -/
def Caller.relayGroup (userGroup : String) (ctx : Context) : Caller → String
  | .token _ => if ctx.tokenGroup = "" then userGroup else ctx.tokenGroup
  | .playground _ _ => if ctx.usingGroup = "" then userGroup else ctx.usingGroup

structure Choices (s : GroupSetting) (userGroup : String) where
  authOrder : Order s userGroup
  affinity : Option (String → Bool)
  affinityOrder : Order s userGroup
  order : Order s userGroup
  round : Round
  rounds : ℕ → Order s userGroup × Round

def serve (base : Config) (s : GroupSetting) (userGroup : String) (info : Pricing.RelayInfo) (fuel : ℕ)
    (caller : Caller) (x : Choices s userGroup) : Option Report := do
  let ctx ← caller.authorize s userGroup x.authOrder
  let ctx ← distribute base s userGroup x.affinity x.affinityOrder x.order x.round info ctx
  Loop.run (fun st r => relayRound (config base s userGroup (caller.relayGroup userGroup ctx) r.1) st r.2) fuel x.rounds
    (State.begin ctx.autoGroup ctx.autoGroupIndex false info)

/-- The group is usable, with some order of the special groups. -/
def Usable (s : GroupSetting) (userGroup group : String) : Prop :=
  ∃ order : Order s userGroup, group ∈ getUserUsableGroups s userGroup order

/-- The groups that may serve a request for the group `usingGroup`. -/
def Permitted (s : GroupSetting) (userGroup usingGroup group : String) : Prop :=
  (group = userGroup ∨ Usable s userGroup group) ∧
    (usingGroup = "auto" → group ∈ s.autoGroups ∧ Usable s userGroup group)

variable {order : Order s userGroup} {round : Round} {st' : State} {c : Chosen}

theorem usable_of_mem_auto {group : String} (h : group ∈ getUserAutoGroup s userGroup order) :
    group ∈ s.autoGroups ∧ Usable s userGroup group := by
  obtain ⟨hmem, husable⟩ := mem_filter.mp h
  exact ⟨hmem, order, by simpa using husable⟩

theorem permitted_of_mem_auto {group : String} (usingGroup : String)
    (h : group ∈ getUserAutoGroup s userGroup order) : Permitted s userGroup usingGroup group :=
  ⟨.inr (usable_of_mem_auto h).2, fun _ => usable_of_mem_auto h⟩

/-- The group of a request that is not refused is that of the user or a usable one, and the retry
loop uses the same group. -/
theorem authorize_spec {caller : Caller} {ctx : Context} (h : caller.authorize s userGroup order = some ctx) :
    (ctx.usingGroup = userGroup ∨ Usable s userGroup ctx.usingGroup) ∧
      caller.relayGroup userGroup ctx = ctx.usingGroup ∧
      ctx.autoGroup = none := by
  cases caller with
  | token =>
    simp only [Caller.authorize, tokenAuth] at h
    repeat' split at h
    all_goals cases h
    · exact ⟨.inl rfl, rfl, rfl⟩
    · next hne hmem _ => exact ⟨.inr ⟨order, not_not.mp hmem⟩, if_neg hne, rfl⟩
  | playground =>
    simp only [Caller.authorize, playgroundGroups, bind_eq_bind, bind_eq_some_iff] at h
    obtain ⟨_, _, group, _, h⟩ := h
    repeat' split at h
    all_goals cases h
    · refine ⟨.inl rfl, ?_, rfl⟩
      simp only [Caller.relayGroup, ite_self]
    · next hne hmem =>
      simp only [Bool.and_eq_true, decide_eq_true_eq, not_and, not_not] at hmem
      refine ⟨?_, if_neg hne, rfl⟩
      by_cases hg : group ∈ getUserUsableGroups s userGroup order
      · exact .inr ⟨order, hg⟩
      · exact .inl (hmem hg)

theorem searchGroups_group {cfg : Config} {start i : ℕ} {groups : List String} {st : State}
    (h : searchGroups cfg round start i groups st = (st', some c)) :
    c.group ∈ groups ∧ st'.autoGroup = some c.group := by
  induction groups generalizing i st with
  | nil => cases h
  | cons group groups ih =>
    rw [searchGroups] at h
    split at h
    · obtain ⟨hmem, hauto⟩ := ih h
      exact ⟨mem_cons_of_mem _ hmem, hauto⟩
    · cases h
      exact ⟨mem_cons_self, (takeGroup_attempts cfg st group i _).2.2.2⟩

theorem cacheGetRandomSatisfiedChannel_group {cfg : Config} {st : State}
    (h : cacheGetRandomSatisfiedChannel cfg round st = (st', some c)) :
    (cfg.tokenGroup = "auto" ∧ c.group ∈ cfg.autoGroups ∧ st'.autoGroup = some c.group) ∨
      (cfg.tokenGroup ≠ "auto" ∧ c.group = cfg.tokenGroup ∧ st'.autoGroup = st.autoGroup) := by
  rw [cacheGetRandomSatisfiedChannel] at h
  split at h <;> split at h
  · next hauto _ =>
    obtain ⟨hmem, hgroup⟩ := searchGroups_group h
    exact .inl ⟨of_decide_eq_true hauto, mem_of_mem_drop hmem, hgroup⟩
  · cases h
  · next hauto _ _ _ =>
    cases h
    exact .inr ⟨fun he => hauto (decide_eq_true he), rfl, rfl⟩
  · cases h

section

variable {base : Config} {t : String} {order : Order s userGroup} {round : Round} {st : State}

/-- The group that a state stands for, and those of its attempts. -/
def Inv (s : GroupSetting) (userGroup t : String) (st : State) : Prop :=
  Permitted s userGroup t (st.autoGroup.getD t) ∧ ∀ a ∈ st.attempts, Permitted s userGroup t a.group

def AllPermitted (s : GroupSetting) (userGroup t : String) (report : Report) : Prop :=
  ∀ a ∈ report.state.attempts, Permitted s userGroup t a.group

theorem permitted_chosen (ht : t = userGroup ∨ Usable s userGroup t)
    (h : cacheGetRandomSatisfiedChannel (config base s userGroup t order) round st = (st', some c))
    (hst : t ≠ "auto" → Permitted s userGroup t (st.autoGroup.getD t)) :
    Permitted s userGroup t (st'.autoGroup.getD t) ∧ Permitted s userGroup t c.group := by
  rcases cacheGetRandomSatisfiedChannel_group h with ⟨_, hmem, hauto⟩ | ⟨hne, hgroup, hauto⟩
  · rw [hauto]
    exact ⟨permitted_of_mem_auto t hmem, permitted_of_mem_auto t hmem⟩
  · rw [hauto, hgroup]
    exact ⟨hst hne, ht, fun he => absurd he hne⟩

theorem getChannel_permitted (ht : t = userGroup ∨ Usable s userGroup t)
    (h : Permitted s userGroup t (st.autoGroup.getD t))
    (hg : getChannel (config base s userGroup t order) round st = (st', some c)) :
    Permitted s userGroup t (st'.autoGroup.getD t) ∧ Permitted s userGroup t c.group := by
  rcases getChannel_cases hg with ⟨_, _, hs, rfl⟩ | ⟨_, rfl, rfl⟩
  · have hchosen := permitted_chosen ht hs (fun _ => h)
    exact hchosen
  · exact ⟨h, h⟩

theorem relayRound_permitted (base : Config) (order : Order s userGroup) (round : Round)
    (ht : t = userGroup ∨ Usable s userGroup t) (h : Inv s userGroup t st) :
    Sum.elim (Inv s userGroup t) (AllPermitted s userGroup t)
      (relayRound (config base s userGroup t order) st round) := by
  have hattempts := getChannel_attempts (config base s userGroup t order) round st
  have hall {st' : State} {c : Chosen} {index retryIndex : ℕ}
      (hg : getChannel (config base s userGroup t order) round st = (st', some c)) :
      ∀ a ∈ st'.attempts ++ [⟨c, index, retryIndex⟩], Permitted s userGroup t a.group := by
    rw [hg] at hattempts
    rw [hattempts]
    exact forall_mem_append.mpr ⟨h.2, forall_mem_singleton.mpr (getChannel_permitted ht h.1 hg).2⟩
  have hspec := relayRound_spec (config base s userGroup t order) st round
  generalize relayRound (config base s userGroup t order) st round = outcome at hspec ⊢
  cases hspec with
  | exhausted => exact h.2
  | idle _ hg =>
    rw [hg] at hattempts
    exact (hattempts ▸ h.2 :)
  | last _ hg => exact hall hg
  | next _ hg =>
    rw [State.increaseRetry]
    split <;> exact ⟨(getChannel_permitted ht h.1 hg).1, hall hg⟩

end

theorem distribute_permitted {base : Config} {affinity : Option (String → Bool)} {affinityOrder : Order s userGroup}
    {info : Pricing.RelayInfo} {ctx ctx' : Context} (hnone : ctx.autoGroup = none)
    (husing : ctx.usingGroup = userGroup ∨ Usable s userGroup ctx.usingGroup)
    (h : distribute base s userGroup affinity affinityOrder order round info ctx = some ctx') :
    Permitted s userGroup ctx.usingGroup (ctx'.autoGroup.getD ctx.usingGroup) ∧
      ctx'.usingGroup = ctx.usingGroup ∧ ctx'.tokenGroup = ctx.tokenGroup := by
  have hown (hne : ctx.usingGroup ≠ "auto") :
      Permitted s userGroup ctx.usingGroup (ctx.autoGroup.getD ctx.usingGroup) := by
    rw [hnone]
    exact ⟨husing, fun he => absurd he hne⟩
  simp only [distribute] at h
  split at h
  · next preferred hpreferred =>
    cases h
    split at hpreferred
    · cases hpreferred
    · split at hpreferred
      · obtain ⟨_, hg, rfl⟩ := map_eq_some_iff.mp hpreferred
        exact ⟨permitted_of_mem_auto _ (mem_of_find?_eq_some hg), rfl, rfl⟩
      · next hne =>
        split at hpreferred
        · cases hpreferred
          exact ⟨hown hne, rfl, rfl⟩
        · cases hpreferred
  · split at h
    · cases h
    · next st c hfound =>
      cases h
      exact ⟨(permitted_chosen husing hfound hown).1, rfl, rfl⟩

/-- For every caller who names no channel, each attempt is made on a channel of the group of the user or a usable
group, and for `auto` of one of the automatic groups of the user. -/
theorem attempts_permitted (base : Config) (s : GroupSetting) (userGroup : String)
    (info : Pricing.RelayInfo) (fuel : ℕ)
    (caller : Caller) (x : Choices s userGroup) (report : Report)
    (h : serve base s userGroup info fuel caller x = some report) :
    ∃ ctx, caller.authorize s userGroup x.authOrder = some ctx ∧
      AllPermitted s userGroup ctx.usingGroup report := by
  simp only [serve, bind_eq_bind, bind_eq_some_iff] at h
  obtain ⟨ctx, hctx, ctx', hctx', hrun⟩ := h
  obtain ⟨husing, hgroup, hnone⟩ := authorize_spec hctx
  obtain ⟨hfirst, hsame, htoken⟩ := distribute_permitted hnone husing hctx'
  have hrelay : caller.relayGroup userGroup ctx' = ctx.usingGroup := by
    rw [← hgroup]
    cases caller with
    | token => simp only [Caller.relayGroup, htoken]
    | playground => simp only [Caller.relayGroup, hsame]
  rw [hrelay] at hrun
  refine ⟨ctx, hctx, ?_⟩
  refine Loop.run_post (Inv s userGroup ctx.usingGroup) (AllPermitted s userGroup ctx.usingGroup) ?_ ?_
    ⟨hfirst, by simp [State.begin]⟩ hrun
  all_goals
    intro st r _ hst hround
    have hstep := relayRound_permitted base r.1 r.2 husing hst
    rw [hround] at hstep
    exact hstep

def sampleGroups : GroupSetting := ⟨["a", "b", "auto"], fun _ => [], ["a", "b"], fun _ => true⟩

def sampleOrder : Order sampleGroups "default" := ⟨[], List.Perm.refl _⟩

def sampleChoices : Choices sampleGroups "default" where
  authOrder := sampleOrder
  affinity := none
  affinityOrder := sampleOrder
  order := sampleOrder
  round := ⟨fun _ _ => (some 1, false), false, false, true, false, none⟩
  rounds := fun n => (sampleOrder, failover n)

/-- The two readers of the body find different groups. -/
def sampleCaller : Caller :=
  .playground (fun key => key = "group" || key = "Group") [("group", .string "c"), ("Group", .string "auto")]

def sampleServed : Report :=
  (serve sampleConfig sampleGroups "default" (sampleInfo "ratio") 3 sampleCaller sampleChoices).getD
    ⟨State.begin none none false (sampleInfo "ratio"), .exhausted⟩

theorem attempts_permitted_playground :
    sampleServed.state.attempts.map (fun a => a.group) = ["a", "b"] ∧
    ∃ ctx, sampleCaller.authorize sampleGroups "default" sampleOrder = some ctx ∧
      AllPermitted sampleGroups "default" ctx.usingGroup sampleServed :=
  ⟨by decide +kernel, attempts_permitted sampleConfig sampleGroups "default" (sampleInfo "ratio") 3 sampleCaller
    sampleChoices sampleServed rfl⟩

end AiGateway.ServedGroups
