import AiGateway.Channel
import AiGateway.WeightedPick
import Mathlib.Data.List.Sort
import Mathlib.Logic.Function.Basic

/-! The memory cache of the channels, how it is rebuilt from the two tables, and the choice of a
channel for a request, from the cache and from the tables. -/
namespace AiGateway.Channels

open GoText List

/-- A sort by descending keys. Where equal elements end up is not specified. -/
structure Sorter (α : Type) where
  sort : (α → Int) → List α → List α
  perm : ∀ key l, (sort key l).Perm l
  descending : ∀ key l, (sort key l).Pairwise (fun a b => key a ≥ key b)

def Sorter.insertion (α : Type) : Sorter α where
  sort key l := l.insertionSort (fun a b => key a ≥ key b)
  perm _ l := perm_insertionSort _ l
  descending key l := pairwise_insertionSort (fun a b => key a ≥ key b) l

/-- The decoder, the sort of the Go library and the order of the rows of a query. -/
structure Env where
  json : Json
  sortSlice : Sorter Int
  orderBy : Sorter Ability

def sampleEnv : Env := ⟨noJson, .insertion Int, .insertion Ability⟩

def channelTypeAdvancedCustom : Int := 58

variable (json : Json)

/-- The decoded settings, and whether they are malformed. The settings of a row that is malformed
are replaced, and the row is saved. -/
def Channel.getOtherSettings (c : Channel) : Option AdvancedCustomConfig × Bool :=
  if c.otherSettings = "" then (none, false) else json.otherSettings c.otherSettings

abbrev Index := String → Option (String → List Int)

namespace Index

def lookup (index : Index) (group model : String) : List Int :=
  match index group with
  | none => []
  | some models => models model

def append (index : Index) (e : String × String × Int) : Option Index :=
  match index e.1 with
  | none => none
  | some models => some (Function.update index e.1 (some (Function.update models e.2.1 (models e.2.1 ++ [e.2.2]))))

def ofGroups (groups : List String) : Index :=
  fun group => if group ∈ groups then some (fun _ => []) else none

def map (index : Index) (f : List Int → List Int) : Index :=
  fun group => (index group).map (fun models model => f (models model))

end Index

/-- What a rebuild has read of the channels: the rows, with malformed settings replaced, and the
advanced custom configurations. -/
structure Snapshot where
  channels : List Channel
  configs : List (Int × AdvancedCustomConfig)

def Channel.malformed (c : Channel) : Bool :=
  c.type = channelTypeAdvancedCustom && (c.getOtherSettings json).2

def Channel.withSettings (c : Channel) : Channel :=
  if c.malformed json then { c with otherSettings := "\x7b\x7d" } else c

def Snapshot.read (rows : List Channel) : Snapshot where
  channels := rows.map (Channel.withSettings json)
  configs := rows.filterMap (fun c =>
    if c.type = channelTypeAdvancedCustom then (c.getOtherSettings json).1.map (fun config => (c.id, config)) else none)

def malformedRows (rows : List Channel) : List Channel :=
  (rows.filter (Channel.malformed json)).map (Channel.withSettings json)

namespace Snapshot

def find (s : Snapshot) (id : Int) : Option Channel := s.channels.find? (fun c => c.id = id)

def entriesOf (c : Channel) : List (String × String × Int) :=
  (split c.group ",").flatMap (fun group => (split c.models ",").map (fun model => (group, model, c.id)))

def entries (s : Snapshot) : List (String × String × Int) :=
  (s.channels.filter (fun c => c.status = channelStatusEnabled)).flatMap entriesOf

def priority (s : Snapshot) (id : Int) : Int :=
  match s.find id with
  | none => 0
  | some c => c.getPriority

/-- The index of the enabled channels, or `none` for a panic. -/
def buildIndex (env : Env) (s : Snapshot) (groups : List String) : Option Index :=
  (s.entries.foldlM Index.append (Index.ofGroups groups)).map (fun index => index.map (env.sortSlice.sort s.priority))

end Snapshot

/-- `generation` counts the rebuilds: it tells the channel objects of one from those of the next. -/
structure Cache where
  group2model2channels : Index
  channelsIDM : Int → Option Channel
  channel2advancedCustomConfig : List (Int × AdvancedCustomConfig)
  generation : ℕ

variable (cache : Cache)

namespace Cache

def initial : Cache := ⟨fun _ => none, fun _ => none, [], 0⟩

/-- A multi-key channel that polls keeps the index of the object that it replaces. -/
def keepPollingIndex (old : Option Channel) (c : Channel) : Channel :=
  match old with
  | none => c
  | some o =>
    if c.channelInfo.isMultiKey && c.channelInfo.multiKeyMode = .polling && o.channelInfo.isMultiKey &&
        o.channelInfo.multiKeyMode = .polling then
      { c with channelInfo := { c.channelInfo with multiKeyPollingIndex := o.channelInfo.multiKeyPollingIndex } }
    else c

def install (s : Snapshot) (index : Index) : Cache where
  group2model2channels := index
  channelsIDM := fun id => (s.find id).map (keepPollingIndex (cache.channelsIDM id))
  channel2advancedCustomConfig := s.configs
  generation := cache.generation+1

def cacheUpdateChannelStatus (id status : Int) : Cache :=
  let channelsIDM := Function.update cache.channelsIDM id
    ((cache.channelsIDM id).map (fun c => { c with status := status }))
  if status ≠ channelStatusEnabled then
    { cache with
      channelsIDM := channelsIDM
      group2model2channels := cache.group2model2channels.map (fun ids => ids.erase id) }
  else { cache with channelsIDM := channelsIDM }

end Cache

theorem withSettings_eq (c : Channel) :
    ∃ settings, c.withSettings json = { c with otherSettings := settings } := by
  rw [Channel.withSettings]
  split
  · exact ⟨_, rfl⟩
  · exact ⟨c.otherSettings, rfl⟩

theorem keepPollingIndex_eq (old : Option Channel) (c : Channel) : ∃ index, Cache.keepPollingIndex old c =
    { c with channelInfo := { c.channelInfo with multiKeyPollingIndex := index } } := by
  cases old with
  | none => exact ⟨c.channelInfo.multiKeyPollingIndex, rfl⟩
  | some =>
    simp only [Cache.keepPollingIndex]
    split
    · exact ⟨_, rfl⟩
    · exact ⟨c.channelInfo.multiKeyPollingIndex, rfl⟩

def handleThinkingBudgetModel (name start wildcard : String) : String :=
  if hasPrefix name start && contains name "-thinking-" then wildcard else name

def formatMatchingModelName (name : String) : String :=
  let name :=
    if hasPrefix name "gemini-2.5-flash-lite" then
      handleThinkingBudgetModel name "gemini-2.5-flash-lite" "gemini-2.5-flash-lite-thinking-*"
    else if hasPrefix name "gemini-2.5-flash" then
      handleThinkingBudgetModel name "gemini-2.5-flash" "gemini-2.5-flash-thinking-*"
    else if hasPrefix name "gemini-2.5-pro" then
      handleThinkingBudgetModel name "gemini-2.5-pro" "gemini-2.5-pro-thinking-*"
    else name
  let name := if hasPrefix name "gpt-4-gizmo" then "gpt-4-gizmo-*" else name
  if hasPrefix name "gpt-4o-gizmo" then "gpt-4o-gizmo-*" else name

inductive Selection
  | found (c : Channel)
  | noChannel
  | error (message : String)
  | panicked
deriving DecidableEq

def Selection.channelId : Selection → Option Int
  | .found c => some c.id
  | _ => none

def distinctPriorities (l : List Int) : List Int := l.dedup.insertionSort (· ≥ ·)

/-- The priority for an attempt: the lowest when there are not enough. -/
def priorityFor (priorities : List Int) (retry : Int) : Option Int :=
  let index := if retry ≥ priorities.length then (priorities.length : Int)-1 else retry
  if index < 0 then none else priorities[index.toNat]?

section Memory

structure Smoothing where
  smoothingFactor : ℕ
  smoothingAdjustment : ℕ
  sumWeight : ℕ

def smoothing (sumWeight n : ℕ) : Smoothing :=
  if sumWeight = 0 then ⟨1, 100, n*100⟩
  else if sumWeight/n < 10 then ⟨100, 0, sumWeight⟩
  else ⟨1, 0, sumWeight⟩

def Smoothing.weight (s : Smoothing) (c : Channel) : ℕ := c.getWeight*s.smoothingFactor+s.smoothingAdjustment

def Smoothing.totalWeight (s : Smoothing) : ℕ := s.sumWeight*s.smoothingFactor

/-- The choice among channels of one priority. `r` stands for the random number. -/
def chooseByWeight (targets : List Channel) (r : ℕ) : Option Channel :=
  let s := smoothing (WeightedPick.total Channel.getWeight targets) targets.length
  WeightedPick.pick (fun w => w < 0) s.weight targets ((r%s.totalWeight : ℕ) : Int)

def missingMessage (id : Int) : String :=
  s!"数据库一致性错误，渠道# {id} 不存在，请联系管理员修复"

def chooseByPriority (group model : String) (channels : List Channel) (retry : Int) (r : ℕ) : Selection :=
  match priorityFor (distinctPriorities (channels.map Channel.getPriority)) retry with
  | none => .panicked
  | some target =>
    match channels.filter (fun c => c.getPriority = target) with
    | [] => .error s!"no channel found, group: {group}, model: {model}, priority: {target}"
    | c :: cs =>
      match chooseByWeight (c :: cs) r with
      | some chosen => .found chosen
      | none => .error "channel not found"

namespace Cache

def servesPath (requestPath : String) (id : Int) : Bool :=
  match cache.channelsIDM id with
  | none => true
  | some c =>
    if c.type ≠ channelTypeAdvancedCustom then true
    else
      match cache.channel2advancedCustomConfig.lookup id with
      | none => false
      | some config => config.supportsPath requestPath

def filterChannelsByRequestPath (ids : List Int) (requestPath : String) : List Int :=
  if requestPath = "" then ids else ids.filter (cache.servesPath requestPath)

def candidates (group model requestPath : String) : List Int :=
  cache.filterChannelsByRequestPath (cache.group2model2channels.lookup group model) requestPath

def getRandomSatisfiedChannel (group model : String) (retry : Int) (requestPath : String) (r : ℕ) :
    Selection :=
  let exact := cache.candidates group model requestPath
  let ids := if exact = [] then cache.candidates group (formatMatchingModelName model) requestPath else exact
  match ids with
  | [] => .noChannel
  | [id] =>
    match cache.channelsIDM id with
    | some c => .found c
    | none => .error (missingMessage id)
  | ids =>
    match ids.find? (fun id => (cache.channelsIDM id).isNone) with
    | some id => .error (missingMessage id)
    | none => chooseByPriority group model (ids.filterMap cache.channelsIDM) retry r

theorem mem_of_mem_candidates {cache : Cache} {group model requestPath : String} {id : Int}
    (h : id ∈ cache.candidates group model requestPath) : id ∈ cache.group2model2channels.lookup group model := by
  rw [candidates, filterChannelsByRequestPath] at h
  split at h
  · exact h
  · exact (mem_filter.mp h).1

end Cache

theorem chooseByPriority_mem {group model : String} {channels : List Channel} {retry : Int} {r : ℕ} {c : Channel}
    (h : chooseByPriority group model channels retry r = .found c) : c ∈ channels := by
  rw [chooseByPriority] at h
  repeat' split at h
  all_goals cases h
  next c' cs hcs _ hchosen =>
    rw [chooseByWeight] at hchosen
    have hin : c ∈ c' :: cs := WeightedPick.pick_mem hchosen
    rw [← hcs] at hin
    exact (mem_filter.mp hin).1

theorem Cache.mem_index_of_found {cache : Cache} {group model : String} {retry : Int} {requestPath : String} {r : ℕ}
    {c : Channel} (h : cache.getRandomSatisfiedChannel group model retry requestPath r = .found c) :
    ∃ id model', id ∈ cache.group2model2channels.lookup group model' ∧ cache.channelsIDM id = some c := by
  have hids : ∃ model', (if cache.candidates group model requestPath = [] then
      cache.candidates group (formatMatchingModelName model) requestPath
      else cache.candidates group model requestPath) = cache.candidates group model' requestPath := by
    split <;> exact ⟨_, rfl⟩
  obtain ⟨model', hids⟩ := hids
  simp only [getRandomSatisfiedChannel, hids] at h
  split at h
  · cases h
  · next id hid =>
    have hin : id ∈ cache.candidates group model' requestPath := by
      rw [hid]
      exact mem_cons_self
    split at h
    · next c' hc' =>
      cases h
      exact ⟨id, model', mem_of_mem_candidates hin, hc'⟩
    · cases h
  · split at h
    · cases h
    · obtain ⟨id, hid, hc⟩ := mem_filterMap.mp (chooseByPriority_mem h)
      exact ⟨id, model', mem_of_mem_candidates hid, hc⟩

end Memory

section Database

namespace Db

def enabledAbilities (db : Db) (group model : String) : List Ability :=
  db.abilities.rows.filter (fun a => a.group = group && a.model = model && a.enabled)

def getChannelQuery (db : Db) (group model : String) (retry : Int) : Selection ⊕ List Ability :=
  let abilities := db.enabledAbilities group model
  if retry = 0 then
    .inr (abilities.filter (fun a => (abilities.map Ability.priority).max? = some a.priority))
  else
    match distinctPriorities (abilities.map Ability.priority) with
    | [] => .inl (.error "数据库一致性被破坏")
    | p :: ps =>
      match priorityFor (p :: ps) retry with
      | none => .inl .panicked
      | some priority => .inr (abilities.filter (fun a => a.priority = priority))

def servesPath (db : Db) (requestPath : String) (a : Ability) : Bool :=
  match db.channels.find a.channelId with
  | none => true
  | some c =>
    if c.type ≠ channelTypeAdvancedCustom then true
    else
      match (c.getOtherSettings json).1 with
      | none => false
      | some config => config.supportsPath requestPath

def filterAbilitiesByRequestPath (db : Db) (abilities : List Ability) (requestPath : String) :
    List Ability :=
  if requestPath = "" then abilities else abilities.filter (db.servesPath json requestPath)

/-- The row of the chosen ability. Without a choice the id stays zero, and no channel has it. -/
def firstChannel (db : Db) (chosen : Option Ability) : Selection :=
  match db.channels.find ((chosen.map Ability.channelId).getD 0) with
  | some c => .found c
  | none => .error "record not found"

/-- `GetChannel`: `GetRandomSatisfiedChannel` without the memory cache. `r` stands for the random
number. -/
def getChannel (env : Env) (db : Db) (group model : String) (retry : Int) (requestPath : String) (r : ℕ) :
    Selection :=
  match db.getChannelQuery group model retry with
  | .inl answer => answer
  | .inr rows =>
    match db.filterAbilitiesByRequestPath env.json (env.orderBy.sort (fun a => a.weight) rows) requestPath with
    | [] => .noChannel
    | a :: abilities =>
      let weightSum := WeightedPick.total (fun a => a.weight+10) (a :: abilities)
      db.firstChannel (WeightedPick.pick (fun w => w ≤ 0) (fun a => a.weight+10) (a :: abilities)
        ((r%weightSum : ℕ) : Int))

end Db

end Database

end AiGateway.Channels
