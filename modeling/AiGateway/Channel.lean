import AiGateway.GoText
import AiGateway.Table

/-! Channels and their abilities: the rows of the two tables, and what the operations of the channel
administration write. An ability says that a channel serves a model to a group; the routes of an advanced
custom channel say which request paths it serves. -/
namespace AiGateway.Channels

open GoText

structure AdvancedCustomRoute where
  incomingPath : String
deriving DecidableEq

structure AdvancedCustomConfig where
  routes : List AdvancedCustomRoute
deriving DecidableEq

def advancedCustomModelPlaceholder : String := "\x7bmodel\x7d"

def matchAdvancedCustomIncomingPathTemplate (configuredPath requestPath : String) : Bool :=
  if !contains configuredPath advancedCustomModelPlaceholder then configuredPath = requestPath
  else
    match split configuredPath advancedCustomModelPlaceholder with
    | [before, after] =>
      if !hasPrefix requestPath before || !hasSuffix requestPath after then false
      else
        let model := trimSuffix (trimPrefix requestPath before) after
        model ≠ "" && !contains model "/"
    | _ => false

def matchAdvancedCustomIncomingPath (configuredPath requestPath : String) : Bool :=
  if matchAdvancedCustomIncomingPathTemplate configuredPath requestPath then true
  else if contains configuredPath ":generateContent" then
    matchAdvancedCustomIncomingPathTemplate
      (replaceFirst configuredPath ":generateContent" ":streamGenerateContent") requestPath
  else false

def AdvancedCustomConfig.matchPath (c : AdvancedCustomConfig) (requestPath : String) : Option AdvancedCustomRoute :=
  c.routes.find? (fun route => matchAdvancedCustomIncomingPath (trimSpace route.incomingPath) requestPath)

def AdvancedCustomConfig.supportsPath (c : AdvancedCustomConfig) (requestPath : String) : Bool :=
  (c.matchPath requestPath).isSome

def channelStatusEnabled : Int := 1
def channelStatusManuallyDisabled : Int := 2
def channelStatusAutoDisabled : Int := 3

inductive MultiKeyMode
  | random
  | polling
  | other (name : String)
deriving DecidableEq

structure ChannelInfo where
  isMultiKey : Bool := false
  multiKeySize : ℕ := 0
  multiKeyStatusList : List (ℕ × Int) := []
  multiKeyDisabledReason : List (ℕ × String) := []
  multiKeyDisabledTime : List (ℕ × Int) := []
  multiKeyPollingIndex : Int := 0
  multiKeyMode : MultiKeyMode := .other ""
deriving DecidableEq

def mapSet {V : Type*} (m : List (ℕ × V)) (i : ℕ) (v : V) : List (ℕ × V) :=
  (i, v) :: m.filter (fun e => e.1 ≠ i)

def mapDelete {V : Type*} (m : List (ℕ × V)) (i : ℕ) : List (ℕ × V) :=
  m.filter (fun e => e.1 ≠ i)

/-- The two entries that the code writes to the `other_info` of a channel. -/
structure OtherInfo where
  statusReason : Option String := none
  statusTime : Option Int := none
deriving DecidableEq

/-- A row of the channels, and the struct that operations pass around: a zero field of a
struct that is not a pointer stands for "not given". -/
structure Channel where
  id : Int
  type : Int := 0
  key : String := ""
  status : Int := 0
  weight : Option ℕ := none
  models : String := ""
  group : String := ""
  priority : Option Int := none
  otherInfo : OtherInfo := {}
  tag : Option String := none
  channelInfo : ChannelInfo := {}
  otherSettings : String := ""
deriving DecidableEq

structure Ability where
  group : String
  model : String
  channelId : Int
  enabled : Bool
  priority : Int
  weight : ℕ
  tag : Option String
deriving DecidableEq

def Ability.key (a : Ability) : String × String × Int := (a.group, a.model, a.channelId)

/-- An `UPDATE` from a struct. A weight of zero is a zero field, so it is not written. -/
def Ability.updates (a : Ability) (newTag : Option String) (priority : Option Int) (weight : Option ℕ) : Ability :=
  { a with
    tag := newTag.or a.tag
    priority := priority.getD a.priority
    weight := if weight.getD 0 = 0 then a.weight else weight.getD 0 }

/-- What the JSON decoder makes of a text: an array of keys, or `none` if it is refused; and the advanced custom part
of the settings, with whether there was an error. -/
structure Json where
  keyArray : String → Option (List String)
  otherSettings : String → Option AdvancedCustomConfig × Bool

def noJson : Json := ⟨fun _ => none, fun _ => (none, true)⟩

variable (json : Json)

namespace Channel

def getPriority (c : Channel) : Int := c.priority.getD 0

def getWeight (c : Channel) : ℕ := c.weight.getD 0

def arrayKeys (key : String) : Option (List String) :=
  let trimmed := trimSpace key
  if hasPrefix trimmed "[" then json.keyArray trimmed else none

def getKeys (c : Channel) : List String :=
  if c.key = "" then []
  else
    match arrayKeys json c.key with
    | some keys => keys
    | none => split (trim c.key '\n') "\n"

end Channel

def hasEnabledMultiKey (keys : List String) (statusList : List (ℕ × Int)) : Bool :=
  (List.range keys.length).any (fun i =>
    match statusList.lookup i with
    | none => true
    | some status => status = channelStatusEnabled)

def ChannelInfo.setKeyStatus (info : ChannelInfo) (i : ℕ) (status : Int) (reason : String)
    (time : Int) : ChannelInfo :=
  if status = channelStatusEnabled then
    { info with multiKeyStatusList := mapDelete info.multiKeyStatusList i }
  else
    { info with
      multiKeyStatusList := mapSet info.multiKeyStatusList i status
      multiKeyDisabledReason := mapSet info.multiKeyDisabledReason i reason
      multiKeyDisabledTime := mapSet info.multiKeyDisabledTime i time }

namespace Channel

def setStatus (c : Channel) (status : Int) (reason : String) (time : Int) : Channel :=
  { c with status := status, otherInfo := { statusReason := some reason, statusTime := some time } }

end Channel

def handlerMultiKeyUpdate (c : Channel) (usingKey : String) (status : Int) (reason : String)
    (time : Int) : Channel :=
  let keys := c.getKeys json
  if keys = [] then { c with status := status }
  else
    match keys.findIdx? (· = usingKey) with
    | none => if usingKey ≠ "" then c else c.setStatus status reason time
    | some i =>
      let info := c.channelInfo.setKeyStatus i status reason time
      let c' := { c with channelInfo := info }
      if !hasEnabledMultiKey keys info.multiKeyStatusList then
        c'.setStatus channelStatusAutoDisabled "All keys are disabled" time
      else if status = channelStatusEnabled then { c' with status := channelStatusEnabled }
      else c'

def chunkFrom {α : Type*} (n : ℕ) : List α → (room : ℕ) → (piece : List α) → List (List α)
  | [], _, piece => if piece = [] then [] else [piece.reverse]
  | x :: xs, room+1, piece => chunkFrom n xs room (x :: piece)
  | x :: xs, 0, piece => piece.reverse :: chunkFrom n xs (n-1) [x]

def chunk {α : Type*} (n : ℕ) (l : List α) : List (List α) := chunkFrom n l n []

namespace Channel

def pairs (c : Channel) : List (String × String) :=
  (split c.models ",").flatMap (fun model => (split c.group ",").map (fun group => (group, model)))

def pairKey (p : String × String) : String := p.1 ++ "|" ++ p.2

def unseen : (seen : List String) → List (String × String) → List (String × String)
  | _, [] => []
  | seen, p :: ps => if pairKey p ∈ seen then unseen seen ps else p :: unseen (pairKey p :: seen) ps

/-- The ability of the channel for a pair. A priority that is not set is stored as zero. -/
def ability (c : Channel) (p : String × String) : Ability where
  group := p.1
  model := p.2
  channelId := c.id
  enabled := c.status = channelStatusEnabled
  priority := c.getPriority
  weight := c.getWeight
  tag := c.tag

def newAbilities (c : Channel) : List Ability := (unseen [] c.pairs).map c.ability

def withDefaults (c : Channel) : Channel :=
  { c with
    status := if c.status = 0 then channelStatusEnabled else c.status
    weight := some c.getWeight
    priority := some c.getPriority
    group := if c.group = "" then "default" else c.group }

/-- An `UPDATE` from a struct: its zero fields are not written, nil pointers among them. -/
def updates (row given : Channel) : Channel where
  id := row.id
  type := if given.type = 0 then row.type else given.type
  key := if given.key = "" then row.key else given.key
  status := if given.status = 0 then row.status else given.status
  weight := given.weight.or row.weight
  models := if given.models = "" then row.models else given.models
  group := if given.group = "" then row.group else given.group
  priority := given.priority.or row.priority
  otherInfo := if given.otherInfo = {} then row.otherInfo else given.otherInfo
  tag := given.tag.or row.tag
  channelInfo := if given.channelInfo = {} then row.channelInfo else given.channelInfo
  otherSettings := if given.otherSettings = "" then row.otherSettings else given.otherSettings

@[simp] theorem updates_id (row given : Channel) : (row.updates given).id = row.id := rfl

/-- The key list of a multi-key channel decides its size, and statuses beyond it are dropped. -/
def resizeKeys (stored : Option Channel) (given : Channel) : Channel :=
  if given.channelInfo.isMultiKey then
    let keyStr := if given.key ≠ "" then given.key else (stored.map Channel.key).getD ""
    let keys :=
      if keyStr = "" then []
      else
        match arrayKeys json keyStr with
        | some (k :: ks) => k :: ks
        | _ => split (trim keyStr '\n') "\n"
    { given with channelInfo := { given.channelInfo with
        multiKeySize := keys.length
        multiKeyStatusList := given.channelInfo.multiKeyStatusList.filter (fun e => e.1 < keys.length) } }
  else given

end Channel

structure Db where
  channels : Table Channel.id
  abilities : Table Ability.key

variable (db : Db)

namespace Db

def empty : Db := ⟨.empty, .empty⟩

/-- `INSERT` of a channel; a second channel with the id is refused. -/
def create (c : Channel) : Option Db :=
  if (db.channels.find c.id).isSome then none else some { db with channels := db.channels.insert c }

def select (p : Channel → Bool) : List Channel := db.channels.rows.filter p

def updateChannels (p : Channel → Bool) (given : Channel) : Db :=
  { db with channels := db.channels.updateWhere p (fun c => c.updates given) (fun c => c.updates_id given) }

def updateStatusByTag (tag : String) (status : Int) : Db :=
  { db with channels :=
      db.channels.updateWhere (fun c => c.tag = some tag) (fun c => { c with status := status }) (fun _ => rfl) }

/-- `UPDATE` of the tag of the channels with the ids; nil is written too. -/
def updateTag (ids : List Int) (tag : Option String) : Db :=
  { db with channels :=
      db.channels.updateWhere (fun c => c.id ∈ ids) (fun c => { c with tag := tag }) (fun _ => rfl) }

def deleteChannels (p : Channel → Bool) : Db :=
  { db with channels := db.channels.deleteWhere p }

/-- One `INSERT` of abilities; a row whose key is taken is left as it is. -/
def createAbilities (as : List Ability) : Db :=
  { db with abilities := db.abilities.insertAll as }

def addAbilities (c : Channel) : Db := (chunk 50 c.newAbilities).foldl createAbilities db

def deleteAbilities (p : Int → Bool) : Db :=
  { db with abilities := db.abilities.deleteWhere (fun a => p a.channelId) }

def updateAbilities (c : Channel) : Db :=
  (db.deleteAbilities (fun id => id = c.id)).addAbilities c

def updateAbilityStatus (id : Int) (enabled : Bool) : Db :=
  { db with abilities :=
      db.abilities.updateWhere (fun a => a.channelId = id) (fun a => { a with enabled := enabled }) (fun _ => rfl) }

def updateAbilityStatusByTag (tag : String) (enabled : Bool) : Db :=
  { db with abilities :=
      db.abilities.updateWhere (fun a => a.tag = some tag) (fun a => { a with enabled := enabled }) (fun _ => rfl) }

def updateAbilityByTag (tag : String) (newTag : Option String) (priority : Option Int)
    (weight : Option ℕ) : Db :=
  { db with abilities :=
      db.abilities.updateWhere (fun a => a.tag = some tag) (fun a => a.updates newTag priority weight) (fun _ => rfl) }

end Db

def Channel.changeStatus (c : Channel) (usingKey : String) (status : Int) (reason : String)
    (time : Int) : Channel × Bool :=
  if c.channelInfo.isMultiKey then
    let c' := handlerMultiKeyUpdate json c usingKey status reason time
    (c', c.status ≠ c'.status)
  else (c.setStatus status reason time, true)

structure TagEdit where
  newTag : Option String := none
  models : Option String := none
  group : Option String := none
  priority : Option Int := none
  weight : Option ℕ := none
deriving DecidableEq

namespace TagEdit

def updateData (e : TagEdit) (tag : String) : Channel where
  id := 0
  tag := if e.newTag = some tag then none else e.newTag
  models := e.models.getD ""
  group := e.group.getD ""
  priority := e.priority
  weight := e.weight

def updatedTag (e : TagEdit) (tag : String) : String := e.newTag.getD tag

def shouldReCreateAbilities (e : TagEdit) : Bool := e.models.getD "" ≠ "" || e.group.getD "" ≠ ""

end TagEdit

namespace Db

def insert (c : Channel) : Db :=
  match db.create c.withDefaults with
  | none => db
  | some db' => db'.addAbilities c.withDefaults

def insertChunk (cs : List Channel) : Option Db :=
  (cs.foldlM create db).map (fun db' => cs.foldl addAbilities db')

def batchInsertChannels (cs : List Channel) : Db :=
  ((chunk 50 (cs.map Channel.withDefaults)).foldlM insertChunk db).getD db

/-- `Channel.Update`. The struct that is read back after the statement is the row, or the given
one if there is no row. -/
def update (db : Db) (given : Channel) : Db :=
  let given := given.resizeKeys json (db.channels.find given.id)
  if given.id = 0 then db
  else
    let db' := db.updateChannels (fun c => c.id = given.id) given
    db'.updateAbilities ((db'.channels.find given.id).getD given)

def updateChannelStatus (db : Db) (id : Int) (usingKey : String) (status : Int) (reason : String)
    (time : Int) : Db :=
  match db.channels.find id with
  | none => db
  | some c =>
    if c.status = status then db
    else
      let (c', shouldUpdateAbilities) := c.changeStatus json usingKey status reason time
      let db' := { db with channels := db.channels.save c' }
      if shouldUpdateAbilities then db'.updateAbilityStatus id (status = channelStatusEnabled) else db'

def enableChannelByTag (tag : String) : Db :=
  (db.updateStatusByTag tag channelStatusEnabled).updateAbilityStatusByTag tag true

def disableChannelByTag (tag : String) : Db :=
  (db.updateStatusByTag tag channelStatusManuallyDisabled).updateAbilityStatusByTag tag false

def editChannelByTag (tag : String) (e : TagEdit) : Db :=
  let db' := db.updateChannels (fun c => c.tag = some tag) (e.updateData tag)
  if e.shouldReCreateAbilities then
    (db'.select (fun c => c.tag = some (e.updatedTag tag))).foldl updateAbilities db'
  else db'.updateAbilityByTag tag e.newTag e.priority e.weight

def batchSetChannelTag (ids : List Int) (tag : Option String) : Db :=
  (db.select (fun c => c.id ∈ ids)).foldl updateAbilities (db.updateTag ids tag)

def delete (id : Int) : Db :=
  if id = 0 then db else (db.deleteChannels (fun c => c.id = id)).deleteAbilities (fun i => i = id)

def batchDeleteChannels (ids : List Int) : Db :=
  (chunk 200 ids).foldl
    (fun db ids => (db.deleteChannels (fun c => c.id ∈ ids)).deleteAbilities (fun i => i ∈ ids)) db

def deleteChannelByStatus (status : Int) : Db := db.deleteChannels (fun c => c.status = status)

def deleteDisabledChannel : Db :=
  db.deleteChannels (fun c => c.status = channelStatusAutoDisabled || c.status = channelStatusManuallyDisabled)

end Db

inductive Op
  | insert (c : Channel)
  | batchInsertChannels (cs : List Channel)
  | update (given : Channel)
  | updateChannelStatus (id : Int) (usingKey : String) (status : Int) (reason : String) (time : Int)
  | enableChannelByTag (tag : String)
  | disableChannelByTag (tag : String)
  | editChannelByTag (tag : String) (e : TagEdit)
  | batchSetChannelTag (ids : List Int) (tag : Option String)
  | delete (id : Int)
  | batchDeleteChannels (ids : List Int)
  | deleteChannelByStatus (status : Int)
  | deleteDisabledChannel
deriving DecidableEq

def step (db : Db) : Op → Db
  | .insert c => db.insert c
  | .batchInsertChannels cs => db.batchInsertChannels cs
  | .update given => db.update json given
  | .updateChannelStatus id usingKey status reason time => db.updateChannelStatus json id usingKey status reason time
  | .enableChannelByTag tag => db.enableChannelByTag tag
  | .disableChannelByTag tag => db.disableChannelByTag tag
  | .editChannelByTag tag e => db.editChannelByTag tag e
  | .batchSetChannelTag ids tag => db.batchSetChannelTag ids tag
  | .delete id => db.delete id
  | .batchDeleteChannels ids => db.batchDeleteChannels ids
  | .deleteChannelByStatus status => db.deleteChannelByStatus status
  | .deleteDisabledChannel => db.deleteDisabledChannel

end AiGateway.Channels
