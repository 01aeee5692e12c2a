import AiGateway.GoText
import Mathlib.Data.List.Nodup
import Mathlib.Data.List.Perm.Subperm
import Mathlib.Logic.Relation

/-! The model mapping of a channel, which every attempt follows from `info.OriginModelName`. In the
compact mode the helper itself writes that name, and so does the Gemini handler without thinking. -/
namespace AiGateway.ModelMapping

open GoText Relation List Option

abbrev Table := List (String × String)

inductive Followed
  | cycle
  -- The model that was asked for is mapped to itself
  | same
  | found (model : String) (mapped : Bool)
deriving DecidableEq

def follow (table : Table) (originModelName : String) :
    ℕ → (visited : List String) → (current : String) → (mapped : Bool) → Option Followed
  | 0, _, _, _ => none
  | n+1, visited, current, mapped =>
    match table.lookup current with
    | none => some (.found current mapped)
    | some mappedModel =>
      if mappedModel = "" then some (.found current mapped)
      else if mappedModel ∈ visited then
        if mappedModel = current then
          if current = originModelName then some .same else some (.found current true)
        else some .cycle
      else follow table originModelName n (mappedModel :: visited) mappedModel true

def compactModelSuffix : String := "-openai-compact"

def withCompactModelSuffix (modelName : String) : String :=
  if hasSuffix modelName compactModelSuffix then modelName else modelName ++ compactModelSuffix

structure Info where
  originModelName : String
  upstreamModelName : String
  isModelMapped : Bool
  requestModel : String
deriving DecidableEq

def initChannelMeta (originModelName : String) : Info :=
  ⟨originModelName, originModelName, false, originModelName⟩

variable (compact : Bool)

def mappingModelName (originModelName : String) : String :=
  if compact && hasSuffix originModelName compactModelSuffix then trimSuffix originModelName compactModelSuffix
  else originModelName

/-- An attempt on a channel with this mapping. The outcome is none when the loop does not end. -/
def modelMappedHelper (table : Table) (originModelName : String) : Option (Except String Info) :=
  let info := initChannelMeta originModelName
  let start := mappingModelName compact originModelName
  match follow table originModelName (table.length+1) [start] start false with
  | none => none
  | some .cycle => some (.error "model_mapping_contains_cycle")
  | some .same => some (.ok info)
  | some (.found current mapped) =>
    let info := if mapped then { info with upstreamModelName := current, isModelMapped := true } else info
    if compact then
      let final := if info.isModelMapped && info.upstreamModelName ≠ "" then info.upstreamModelName else start
      some (.ok { info with
        upstreamModelName := final
        originModelName := withCompactModelSuffix final
        requestModel := final })
    else some (.ok { info with requestModel := info.upstreamModelName })

structure Attempt where
  modelMapping : Table
  -- The Gemini handler, for a request without thinking whose model has a price for it
  noThinking : Bool
deriving DecidableEq

/-- The model that the next attempt begins with. An error of the mapping counts as one of the
channel, which is tried again on another. -/
def nextOrigin (originModelName : String) (attempt : Attempt) : String :=
  match modelMappedHelper compact attempt.modelMapping originModelName with
  | some (.ok info) =>
    if attempt.noThinking && !contains info.originModelName "-nothinking" then info.originModelName ++ "-nothinking"
    else info.originModelName
  | _ => originModelName

def Step (table : Table) (a b : String) : Prop := table.lookup a = some b ∧ b ≠ "" ∧ b ≠ a

def Ends (table : Table) (start model : String) : Prop :=
  ReflTransGen (Step table) start model ∧ ∀ next, ¬ Step table model next

def Cycles (table : Table) (start : String) : Prop :=
  ∃ model, ReflTransGen (Step table) start model ∧ TransGen (Step table) model model

variable {table : Table} {start : String}

theorem step_unique : Relator.RightUnique (Step table) :=
  fun _ _ _ hb hc => some.inj (hb.1.symm.trans hc.1)

theorem cycle_step {a b : String} (h : TransGen (Step table) a a) (hab : ReflTransGen (Step table) a b) :
    TransGen (Step table) b b := by
  induction hab with
  | refl => exact h
  | tail _ hstep ih =>
    -- The cycle leaves its model by the only step there is.
    obtain ⟨_, hc, hback⟩ := TransGen.head'_iff.mp ih
    rw [step_unique hstep hc]
    exact TransGen.tail' hback hc

theorem Ends.not_cycles {model : String} (h : Ends table start model) : ¬ Cycles table start := by
  rintro ⟨_, hx, hcycle⟩
  have hon : TransGen (Step table) model model := by
    rcases ReflTransGen.total_of_right_unique step_unique hx h.1 with hxe | hex
    · exact cycle_step hcycle hxe
    · rcases hex.cases_head with rfl | ⟨next, hnext, _⟩
      · exact hcycle
      · exact absurd hnext (h.2 next)
  obtain ⟨next, hnext, _⟩ := TransGen.head'_iff.mp hon
  exact h.2 next hnext

/-- The models visited so far, in the middle of the loop. -/
structure Path (table : Table) (start : String) (visited : List String) (current : String) : Prop where
  nodup : visited.Nodup
  bound : visited ⊆ start :: table.map Prod.snd
  reached : ReflTransGen (Step table) start current
  back : ∀ model ∈ visited, ReflTransGen (Step table) model current
  current : current ∈ visited

theorem Path.step {visited : List String} {current mapped : String} (h : Path table start visited current)
    (hlookup : table.lookup current = some mapped) (hne : mapped ≠ "") (hnew : mapped ∉ visited) :
    Path table start (mapped :: visited) mapped := by
  have hstep : Step table current mapped := ⟨hlookup, hne, fun he => hnew (he ▸ h.current)⟩
  refine ⟨nodup_cons.mpr ⟨hnew, h.nodup⟩, ?_, h.reached.tail hstep, ?_, mem_cons_self⟩
  · have hvalue : mapped ∈ table.map Prod.snd := by
      obtain ⟨_, _, htable, _⟩ := lookup_eq_some_iff.mp hlookup
      rw [htable]
      simp
    exact cons_subset.mpr ⟨mem_cons_of_mem _ hvalue, h.bound⟩
  · intro model hmodel
    rcases mem_cons.mp hmodel with rfl | hmodel
    · exact ReflTransGen.refl
    · exact (h.back model hmodel).tail hstep

def Followed.Right (table : Table) (start origin : String) : Followed → Prop
  | .cycle => Cycles table start
  | .same => Ends table start origin
  | .found model mapped => Ends table start model ∧ if mapped then model ≠ "" else model = start

variable {origin : String}

theorem follow_right {n : ℕ} {visited : List String} {current : String} {mapped : Bool}
    (h : Path table start visited current) (hn : table.length+2 ≤ n+visited.length)
    (hm : if mapped then current ≠ "" else current = start) :
    ∃ r, follow table origin n visited current mapped = some r ∧ r.Right table start origin := by
  induction n generalizing visited current mapped with
  | zero =>
    have hlen := (h.nodup.subperm h.bound).length_le
    rw [length_cons, length_map] at hlen
    omega
  | succ n ih =>
    rw [follow]
    cases hlookup : table.lookup current with
    | none =>
      refine ⟨_, rfl, ⟨h.reached, ?_⟩, hm⟩
      intro next hnext
      cases hlookup.symm.trans hnext.1
    | some mappedModel =>
      have hends (hstop : ¬ Step table current mappedModel) : Ends table start current := by
        refine ⟨h.reached, fun next hnext => hstop ?_⟩
        rwa [some.inj (hlookup.symm.trans hnext.1)]
      dsimp only
      split_ifs with hempty hvisited hself horigin
      · exact ⟨_, rfl, hends (fun hstep => hstep.2.1 hempty), hm⟩
      · subst horigin
        exact ⟨_, rfl, hends (fun hstep => hstep.2.2 hself)⟩
      · exact ⟨_, rfl, hends (fun hstep => hstep.2.2 hself), hself ▸ hempty⟩
      · have hstep : Step table current mappedModel := ⟨hlookup, hempty, hself⟩
        exact ⟨_, rfl, current, h.reached, TransGen.head' hstep (h.back _ hvisited)⟩
      · have hlen : table.length+2 ≤ n+(mappedModel :: visited).length := by
          rw [length_cons]
          omega
        exact ih (h.step hlookup hempty hvisited) hlen (if_pos rfl ▸ hempty)

/-- What an attempt should do, for the model of the request. -/
def FollowsChain (table : Table) (requested : String) (outcome : Option (Except String Info)) : Prop :=
  ∃ r, outcome = some r ∧
    (r = .error "model_mapping_contains_cycle" ↔ Cycles table (mappingModelName compact requested)) ∧
    ∀ info, r = .ok info →
      Ends table (mappingModelName compact requested) info.upstreamModelName ∧
        info.requestModel = info.upstreamModelName

variable {compact : Bool}

theorem followsChain_ok {requested : String} {info : Info} {model : String}
    (h : Ends table (mappingModelName compact requested) model) (hup : info.upstreamModelName = model)
    (hrequest : info.requestModel = model) : FollowsChain compact table requested (some (.ok info)) := by
  refine ⟨_, rfl, iff_of_false nofun h.not_cycles, ?_⟩
  rintro _ ⟨⟩
  exact ⟨hup ▸ h, hrequest.trans hup.symm⟩

theorem modelMappedHelper_follows : FollowsChain compact table origin (modelMappedHelper compact table origin) := by
  have hpath : Path table (mappingModelName compact origin) [mappingModelName compact origin]
      (mappingModelName compact origin) := by
    exact ⟨nodup_singleton _, by simp, .refl, forall_mem_singleton.mpr .refl, mem_singleton_self _⟩
  have hfollow : ∃ r, follow table origin (table.length+1) _ _ false = some r ∧ r.Right table _ origin :=
    follow_right hpath le_rfl rfl
  obtain ⟨r, hr, hright⟩ := hfollow
  rw [modelMappedHelper, hr]
  cases r with
  | cycle => exact ⟨_, rfl, iff_of_true rfl hright, nofun⟩
  | same => exact followsChain_ok hright rfl rfl
  | found model mapped =>
    obtain ⟨hends, hnamed⟩ := hright
    cases mapped with
    | false =>
      rw [show model = mappingModelName compact origin from hnamed] at hends
      cases compact <;> exact followsChain_ok hends rfl rfl
    | true =>
      have hne : model ≠ "" := hnamed
      cases compact
      · exact followsChain_ok hends rfl rfl
      · simpa [hne, initChannelMeta] using followsChain_ok hends rfl rfl

theorem modelMappedHelper_origin {table : Table} {info : Info}
    (h : modelMappedHelper false table origin = some (.ok info)) : info.originModelName = origin := by
  rw [modelMappedHelper] at h
  split at h <;> cases h
  · rfl
  · dsimp only
    split_ifs <;> rfl

theorem nextOrigin_normal {attempt : Attempt} (hthinking : attempt.noThinking = false) :
    nextOrigin false origin attempt = origin := by
  rw [nextOrigin, hthinking]
  split
  · next hinfo =>
    rw [Bool.false_and, if_neg Bool.false_ne_true]
    exact modelMappedHelper_origin hinfo
  · rfl

theorem attempts_normal {before : List Attempt} (hthinking : ∀ attempt ∈ before, attempt.noThinking = false) :
    before.foldl (nextOrigin false) origin = origin := by
  induction before with
  | nil => rfl
  | cons attempt before ih =>
    rw [foldl_cons, nextOrigin_normal (hthinking attempt mem_cons_self)]
    exact ih (fun a ha => hthinking a (mem_cons_of_mem _ ha))

theorem modelMappedHelper_nil : ∃ info, modelMappedHelper compact [] origin = some (.ok info) ∧
      info.upstreamModelName = mappingModelName compact origin := by
  cases compact <;> exact ⟨_, rfl, rfl⟩

/-- After these attempts the next channel is asked for the end of its own chain exactly when the mapping is still
followed from the model of the request. -/
theorem next_channel_follows_iff (compact : Bool) (requested : String) (before : List Attempt) {origin : String}
    (h : before.foldl (nextOrigin compact) requested = origin) :
    ((∀ table, FollowsChain compact table requested (modelMappedHelper compact table origin)) ↔
      mappingModelName compact origin = mappingModelName compact requested) ∧
    (compact = false → (∀ attempt ∈ before, attempt.noThinking = false) → origin = requested) := by
  refine ⟨⟨?_, ?_⟩, ?_⟩
  · intro hall
    obtain ⟨info, hinfo, hup⟩ := modelMappedHelper_nil
    obtain ⟨_, hr, _, hok⟩ := hall []
    obtain ⟨hreach, _⟩ := (hok info (some.inj (hr.symm.trans hinfo))).1
    rcases hreach.cases_head with he | ⟨_, hnext, _⟩
    · rw [he, hup]
    · exact absurd hnext.1 nofun
  · intro hsame table
    rw [FollowsChain, ← hsame]
    exact modelMappedHelper_follows
  · rintro rfl hthinking
    exact h.symm.trans (attempts_normal hthinking)

theorem next_channel_follows_cycle :
    FollowsChain true [("a", "c")] "a-openai-compact" (modelMappedHelper true [("a", "c")] "a-openai-compact") := by
  have hbefore : [Attempt.mk [("a", "b"), ("b", "a")] false, ⟨[], false⟩].foldl (nextOrigin true)
    "a-openai-compact" =
      "a-openai-compact" := by
    decide
  exact (next_channel_follows_iff true _ _ hbefore).1.mpr rfl _

/-- The first channel maps `a` to `b` and fails. The second maps `a` to `c`, and is asked for `b`. -/
theorem mapped_by_channel_before :
    [Attempt.mk [("a", "b")] false].foldl (nextOrigin true) "a-openai-compact" = "b-openai-compact" ∧
    ¬ FollowsChain true [("a", "c")] "a-openai-compact" (modelMappedHelper true [("a", "c")] "b-openai-compact") := by
  refine ⟨by decide, ?_⟩
  rintro ⟨_, hr, _, hok⟩
  have hmapped : modelMappedHelper true [("a", "c")] "b-openai-compact" =
      some (.ok ⟨"b-openai-compact", "b", false, "b"⟩) := by decide
  have hend : Ends [("a", "c")] "a" "b" := (hok _ (some.inj (hr.symm.trans hmapped))).1
  rcases hend.1.cases_head with he | ⟨_, hc, hrest⟩
  · exact absurd he (by decide)
  · obtain rfl := some.inj hc.1
    rcases hrest.cases_head with he | ⟨_, hstep, _⟩
    · exact absurd he (by decide)
    · exact absurd hstep.1 nofun

end AiGateway.ModelMapping
