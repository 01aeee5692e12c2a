import AiGateway.ChannelKeys

/-! Without the memory cache: changes of the status and requests for the next key of a channel, side by
side. A step is one statement on the database. -/
namespace AiGateway.Channels

def ChannelInfo.getStatus (info : ChannelInfo) (i : ℕ) : Int :=
  (info.multiKeyStatusList.lookup i).getD channelStatusEnabled

def ChannelInfo.enabledIdx (info : ChannelInfo) (keys : List String) : List ℕ :=
  (List.range keys.length).filter (fun i => info.getStatus i = channelStatusEnabled)

def ChannelInfo.poll (info : ChannelInfo) (keys : List String) (savedIndex : Int) : Option ℕ :=
  let start := if savedIndex < 0 ∨ savedIndex ≥ keys.length then 0 else savedIndex.toNat
  ((List.range keys.length).map (fun i => (start+i) % keys.length)).find?
    (fun i => info.getStatus i = channelStatusEnabled)

/-- `SaveChannelInfo`: only the one column is written. -/
def Db.saveChannelInfo (db : Db) (c : Channel) : Db :=
  { db with channels := db.channels.modify c.id (fun row => { row with channelInfo := c.channelInfo }) (fun _ => rfl) }

namespace Polling

open Interleave (Machine System)

/-- The tables, and which of the locks of `GetChannelPollingLock` are held. -/
structure State where
  db : Db
  held : Int → Bool

structure Input where
  time : Int
  random : ℕ

/-- Where a call is. A step that writes also has the row as the call has read it. -/
inductive Pc
  -- `UpdateChannelStatus`
  | getById (a : StatusCall)
  | handle (a : StatusCall) (c : Channel)
  | saveStatus (a : StatusCall) (read c : Channel) (shouldUpdateAbilities : Bool)
  | abilityStatus (a : StatusCall) (ok : Bool)
  | returned (a : StatusCall) (ok : Bool)
  -- A request: the row is read, and `GetNextEnabledKey` is called on it.
  | readChannel (id : Int)
  | nextKey (c : Channel)
  | pollingIndex (c : Channel)
  | saveChannelInfo (read c : Channel) (key : String) (index : ℕ)
  | served (result : Option (String × ℕ))
deriving DecidableEq

inductive Call
  | updateChannelStatus (a : StatusCall)
  | serve (id : Int)
deriving DecidableEq

def start : Call → State → Pc
  | .updateChannelStatus a, _ => .getById a
  | .serve id, _ => .readChannel id

/-- The steps of `UpdateChannelStatus`. The handler waits for the lock, and holds it only while it
computes. -/
def nextStatus (json : Json) (s : State) (time : Int) : Pc → State × Pc
  | .getById a =>
    match s.db.channels.find a.id with
    | none => (s, .returned a false)
    | some c => if c.status = a.status then (s, .returned a false) else (s, .handle a c)
  | .handle a c =>
    if c.channelInfo.isMultiKey && s.held a.id then (s, .handle a c)
    else
      let (c', shouldUpdateAbilities) := c.changeStatus json a.usingKey a.status a.reason time
      (s, .saveStatus a c c' shouldUpdateAbilities)
  | .saveStatus a _ c shouldUpdateAbilities =>
    match s.db.saveWithoutKey c with
    | none => (s, if shouldUpdateAbilities then .abilityStatus a false else .returned a false)
    | some db => ({ s with db := db }, if shouldUpdateAbilities then .abilityStatus a true else .returned a true)
  | .abilityStatus a ok =>
    ({ s with db := s.db.updateAbilityStatus a.id (a.status = channelStatusEnabled) }, .returned a ok)
  | pc => (s, pc)

def lock (s : State) (id : Int) (b : Bool) : State := { s with held := fun i => if i = id then b else s.held i }

def serveKey (keys : List String) (i : ℕ) : Pc := .served (some (keys.getD i "", i))

/-- The part of `GetNextEnabledKey` that needs no statement, and the lock for a channel that polls. -/
def nextEnabledKey (s : State) (c : Channel) (keys : List String) (random : ℕ) : State × Pc :=
  match c.channelInfo.enabledIdx keys with
  | [] => (s, .served none)
  | first :: rest =>
    match c.channelInfo.multiKeyMode with
    | .random => (s, serveKey keys ((first :: rest).getD (random % (rest.length+1)) 0))
    | .polling => (lock s c.id true, .pollingIndex c)
    | .other _ => (s, serveKey keys first)

/-- The steps of a request. The copy keeps its lists, and gets the index after the key it serves. -/
def nextServe (json : Json) (s : State) (random : ℕ) : Pc → State × Pc
  | .readChannel id =>
    match s.db.channels.find id with
    | none => (s, .served none)
    | some c => (s, .nextKey c)
  | .nextKey c =>
    let keys := c.getKeys json
    if !c.channelInfo.isMultiKey then (s, .served (some (c.key, 0)))
    else if keys = [] then (s, .served none)
    else if s.held c.id then (s, .nextKey c)
    else nextEnabledKey s c keys random
  | .pollingIndex c =>
    let keys := c.getKeys json
    match s.db.channels.find c.id with
    | none => (lock s c.id false, .served none)
    | some row =>
      match c.channelInfo.poll keys row.channelInfo.multiKeyPollingIndex with
      | some i =>
        let info := { c.channelInfo with multiKeyPollingIndex := ((i+1) % keys.length : ℕ) }
        (s, .saveChannelInfo c { c with channelInfo := info } (keys.getD i "") i)
      | none =>
        let first := (c.channelInfo.enabledIdx keys).headD 0
        (s, .saveChannelInfo c c (keys.getD first "") first)
  | .saveChannelInfo _ c key i => (lock { s with db := s.db.saveChannelInfo c } c.id false, .served (some (key, i)))
  | pc => (s, pc)

def Pc.isServe : Pc → Bool
  | .readChannel _ | .nextKey _ | .pollingIndex _ | .saveChannelInfo .. | .served _ => true
  | _ => false

def next (json : Json) (pc : Pc) (s : State) (input : Input) : State × Pc :=
  if pc.isServe then nextServe json s input.random pc else nextStatus json s input.time pc

def machine (json : Json) : Machine State Pc Call Input Empty where
  start := start
  next := next json
  env _ e := nomatch e

abbrev Action := Interleave.Action Call Input Empty

def initial (db : Db) : System State Pc := ⟨⟨db, fun _ => false⟩, []⟩

/-- The changes of the status that are stored, in the order of their statements, each with the
number of its call. -/
def savedBy (x : System State Pc) : Action → List (ℕ × StatusCall)
  | .run p _ =>
    match x.procs[p]? with
    | some (.saveStatus a _ c _) => if (x.shared.db.saveWithoutKey c).isSome then [(p, a)] else []
    | _ => []
  | _ => []

end Polling

end AiGateway.Channels
