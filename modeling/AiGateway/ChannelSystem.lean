import AiGateway.ChannelCache
import AiGateway.Interleave

/-! Rebuilds of the cache, changes of the status and the other operations on channels, side by side
in one process: a step is one statement on the database, or one section under a lock of the cache. -/
namespace AiGateway.Channels

open Interleave (Machine System)

/-- The arguments of `UpdateChannelStatus`. -/
structure StatusCall where
  id : Int
  usingKey : String
  status : Int
  reason : String
deriving DecidableEq

/-- The tables, the cache, and the call that holds `channelStatusLock`. -/
structure State where
  db : Db
  cache : Cache
  statusLock : Option StatusCall

inductive Pc
  -- `InitChannelCache`; `rows` are still to be saved because their settings were malformed.
  | readChannels
  | readAbilities (rows : List Channel) (s : Snapshot)
  | install (s : Snapshot) (index : Index)
  | rebuilt
  | panicked
  -- `UpdateChannelStatus`; `c` is the object of the cache, or the row to be saved.
  | lockStatus (a : StatusCall)
  | cacheGet (a : StatusCall)
  | cacheHandle (a : StatusCall) (generation : ℕ) (c : Channel)
  | cacheStatus (a : StatusCall) (status : Int)
  | getById (a : StatusCall)
  | saveStatus (a : StatusCall) (c : Channel) (shouldUpdateAbilities : Bool)
  | abilityStatus (a : StatusCall) (ok : Bool)
  | unlockStatus (a : StatusCall) (ok : Bool)
  | returned (a : StatusCall) (ok : Bool)
  -- `Channel.Insert`
  | create (c : Channel)
  | createAbilities (chunks : List (List Ability))
  -- `Channel.Update`
  | readKeys (given : Channel)
  | updateRow (given : Channel)
  | readRow (given : Channel)
  | updateAbilities (c : Channel)
  -- `EditChannelByTag`
  | editRows (tag : String) (e : TagEdit)
  | readByTag (tag : String)
  | reCreate (cs : List Channel)
  | editAbilities (tag : String) (e : TagEdit)
  -- the deletions
  | deleteRow (id : Int)
  | deleteAbilities (id : Int)
  | batchDelete (ids : List Int)
  | deleteByStatus (status : Int)
  | deleteDisabled
  | finished

inductive Call
  | initChannelCache
  | updateChannelStatus (a : StatusCall)
  | insert (c : Channel)
  | update (given : Channel)
  | editChannelByTag (tag : String) (e : TagEdit)
  | delete (id : Int)
  | batchDeleteChannels (ids : List Int)
  | deleteChannelByStatus (status : Int)
  | deleteDisabledChannel
deriving DecidableEq

def Call.changesStatus : Call → Bool
  | .initChannelCache | .updateChannelStatus _ => true
  | _ => false

variable (env : Env)

def start : Call → State → Pc
  | .initChannelCache, _ => .readChannels
  | .updateChannelStatus a, _ => .lockStatus a
  | .insert c, _ => .create c.withDefaults
  | .update given, _ =>
    if given.channelInfo.isMultiKey && given.key = "" then .readKeys given
    else .updateRow (given.resizeKeys env.json none)
  | .editChannelByTag tag e, _ => .editRows tag e
  | .delete id, _ => .deleteRow id
  | .batchDeleteChannels ids, _ => .batchDelete ids
  | .deleteChannelByStatus status, _ => .deleteByStatus status
  | .deleteDisabledChannel, _ => .deleteDisabled

def Db.saveChannel (db : Db) (c : Channel) : Db :=
  { db with channels := (db.channels.save c).insert c }

/-- `SaveWithoutKey`: the stored key stays. Without a row the insert is refused for want of a key. -/
def Db.saveWithoutKey (db : Db) (c : Channel) : Option Db :=
  match db.channels.find c.id with
  | none => none
  | some row => some { db with channels := db.channels.save { c with key := row.key } }

/-- The steps of `InitChannelCache`. -/
def nextRebuild (s : State) : Pc → State × Pc
  | .readChannels =>
    (s, .readAbilities (malformedRows env.json s.db.channels.rows) (Snapshot.read env.json s.db.channels.rows))
  | .readAbilities (c :: rows) snapshot => ({ s with db := s.db.saveChannel c }, .readAbilities rows snapshot)
  | .readAbilities [] snapshot =>
    match snapshot.buildIndex env (s.db.abilities.rows.map Ability.group) with
    | none => (s, .panicked)
    | some index => (s, .install snapshot index)
  | .install snapshot index => ({ s with cache := s.cache.install snapshot index }, .rebuilt)
  | pc => (s, pc)

/-- The object that a call has read from the cache, as it is now. One that a rebuild has replaced
is no longer seen by others, and stays as it was. -/
def cachedObject (s : State) (a : StatusCall) (generation : ℕ) (c : Channel) : Channel :=
  if generation = s.cache.generation then (s.cache.channelsIDM a.id).getD c else c

def handleCached (s : State) (a : StatusCall) (generation : ℕ) (c : Channel) (time : Int) : State × Pc :=
  let object := cachedObject s a generation c
  let object' := handlerMultiKeyUpdate env.json object a.usingKey a.status a.reason time
  let cache := if generation = s.cache.generation then
      { s.cache with channelsIDM := Function.update s.cache.channelsIDM a.id (some object') }
    else s.cache
  ({ s with cache := cache }, if object.status ≠ object'.status then .cacheStatus a object'.status else .getById a)

/-- The steps of `UpdateChannelStatus`, with the memory cache. A call that waits for the lock stays
where it is. -/
def nextStatus (s : State) (time : Int) : Pc → State × Pc
  | .lockStatus a =>
    match s.statusLock with
    | some _ => (s, .lockStatus a)
    | none => ({ s with statusLock := some a }, .cacheGet a)
  | .cacheGet a =>
    match s.cache.channelsIDM a.id with
    | none => (s, .unlockStatus a false)
    | some c =>
      if c.channelInfo.isMultiKey then (s, .cacheHandle a s.cache.generation c)
      else if c.status = a.status then (s, .unlockStatus a false)
      else (s, .cacheStatus a a.status)
  | .cacheHandle a generation c => handleCached env s a generation c time
  | .cacheStatus a status => ({ s with cache := s.cache.cacheUpdateChannelStatus a.id status }, .getById a)
  | .getById a =>
    match s.db.channels.find a.id with
    | none => (s, .unlockStatus a false)
    | some c =>
      if c.status = a.status then (s, .unlockStatus a false)
      else
        let (c', shouldUpdateAbilities) := c.changeStatus env.json a.usingKey a.status a.reason time
        (s, .saveStatus a c' shouldUpdateAbilities)
  | .saveStatus a c shouldUpdateAbilities =>
    match s.db.saveWithoutKey c with
    | none => (s, if shouldUpdateAbilities then .abilityStatus a false else .unlockStatus a false)
    | some db => ({ s with db := db }, if shouldUpdateAbilities then .abilityStatus a true else .unlockStatus a true)
  | .abilityStatus a ok =>
    ({ s with db := s.db.updateAbilityStatus a.id (a.status = channelStatusEnabled) }, .unlockStatus a ok)
  | .unlockStatus a ok => ({ s with statusLock := none }, .returned a ok)
  | pc => (s, pc)

/-- The steps of the operations that only write to the tables. -/
def nextTables (db : Db) : Pc → Db × Pc
  | .create c =>
    match db.create c with
    | none => (db, .finished)
    | some db' => (db', .createAbilities (chunk 50 c.newAbilities))
  | .createAbilities [] => (db, .finished)
  | .createAbilities (as :: chunks) => (db.createAbilities as, .createAbilities chunks)
  | .readKeys given => (db, .updateRow (given.resizeKeys env.json (db.channels.find given.id)))
  | .updateRow given =>
    if given.id = 0 then (db, .finished)
    else (db.updateChannels (fun c => c.id = given.id) given, .readRow given)
  | .readRow given => (db, .updateAbilities ((db.channels.find given.id).getD given))
  | .updateAbilities c => (db.updateAbilities c, .finished)
  | .editRows tag e =>
    (db.updateChannels (fun c => c.tag = some tag) (e.updateData tag),
      if e.shouldReCreateAbilities then .readByTag (e.updatedTag tag) else .editAbilities tag e)
  | .readByTag tag => (db, .reCreate (db.select (fun c => c.tag = some tag)))
  | .reCreate [] => (db, .finished)
  | .reCreate (c :: cs) => (db.updateAbilities c, .reCreate cs)
  | .editAbilities tag e => (db.updateAbilityByTag tag e.newTag e.priority e.weight, .finished)
  | .deleteRow id =>
    if id = 0 then (db, .finished) else (db.deleteChannels (fun c => c.id = id), .deleteAbilities id)
  | .deleteAbilities id => (db.deleteAbilities (fun i => i = id), .finished)
  | .batchDelete ids => (db.batchDeleteChannels ids, .finished)
  | .deleteByStatus status => (db.deleteChannelByStatus status, .finished)
  | .deleteDisabled => (db.deleteDisabledChannel, .finished)
  | pc => (db, pc)

def Pc.isRebuild : Pc → Bool
  | .readChannels | .readAbilities .. | .install .. | .rebuilt | .panicked => true
  | _ => false

def Pc.isStatus : Pc → Bool
  | .lockStatus _ | .cacheGet _ | .cacheHandle .. | .cacheStatus .. | .getById _ | .saveStatus .. | .abilityStatus ..
  | .unlockStatus .. | .returned .. => true
  | _ => false

def next (pc : Pc) (s : State) (time : Int) : State × Pc :=
  if pc.isRebuild then nextRebuild env s pc
  else if pc.isStatus then nextStatus env s time pc
  else ({ s with db := (nextTables env s.db pc).1 }, (nextTables env s.db pc).2)

def machine : Machine State Pc Call Int Empty where
  start := start env
  next := next env
  env _ e := nomatch e

abbrev Action := Interleave.Action Call Int Empty

def initial (db : Db) : System State Pc := ⟨⟨db, Cache.initial, none⟩, []⟩

end AiGateway.Channels
