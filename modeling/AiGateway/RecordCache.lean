import AiGateway.Interleave
import AiGateway.RedisHash

/-! The cached users and tokens. A record is one Redis hash; `RedisHIncrBy` and `RedisHSetField` ask for
the time to live first and write in a second round trip. -/
namespace AiGateway.RecordCache

open Interleave (Machine System)
open Redis (Db)

/-- The kinds of the struct fields that `RedisHGetObj` tells apart. -/
inductive Kind
  | string
  | int
  | bool
  | deletedAt
deriving DecidableEq

structure Field where
  name : String
  kind : Kind
  pointer : Bool
deriving DecidableEq

inductive Value
  | nil
  | string (s : String)
  | int (n : Int)
  | bool (b : Bool)
  -- `gorm.DeletedAt`, with the time if it is valid
  | deletedAt (time : Option Int)
deriving DecidableEq

abbrev Object := String → Value

def UserBase.fields : List Field :=
  [⟨"Id", .int, false⟩, ⟨"Group", .string, false⟩, ⟨"Email", .string, false⟩, ⟨"Quota", .int, false⟩,
    ⟨"Status", .int, false⟩, ⟨"Username", .string, false⟩, ⟨"Setting", .string, false⟩]

def Token.fields : List Field :=
  [⟨"Id", .int, false⟩, ⟨"UserId", .int, false⟩, ⟨"Key", .string, false⟩, ⟨"Status", .int, false⟩,
    ⟨"Name", .string, false⟩, ⟨"CreatedTime", .int, false⟩, ⟨"AccessedTime", .int, false⟩,
    ⟨"ExpiredTime", .int, false⟩, ⟨"RemainQuota", .int, false⟩, ⟨"UnlimitedQuota", .bool, false⟩,
    ⟨"ModelLimitsEnabled", .bool, false⟩, ⟨"ModelLimits", .string, false⟩, ⟨"AllowIps", .string, true⟩,
    ⟨"UsedQuota", .int, false⟩, ⟨"Group", .string, false⟩, ⟨"CrossGroupRetry", .bool, false⟩,
    ⟨"DeletedAt", .deletedAt, false⟩]

inductive Key
  | user (id : Int)
  | token (hmac : String)
deriving DecidableEq

def Key.fields : Key → List Field
  | .user _ => UserBase.fields
  | .token _ => Token.fields

/-- What `RedisHSetObj` stores: all fields but those of type `gorm.DeletedAt`. -/
def Field.stored (f : Field) : Bool := f.kind ≠ .deletedAt

def Key.stored (key : Key) : List String := (key.fields.filter Field.stored).map Field.name

structure Config where
  -- `RedisKeyCacheSeconds`
  cacheSeconds : Int
  generateHMAC : String → String
  -- `time.Parse(time.RFC3339, _)`
  parseTime : String → Option Int

/-! `RedisHSetObj` and `RedisHGetObj` -/

def formatValue : Value → String
  | .nil => ""
  | .string s => s
  | .int n => toString n
  | .bool b => if b then "true" else "false"
  | .deletedAt _ => ""

def objectData (fields : List Field) (obj : Object) : List (String × String) :=
  (fields.filter Field.stored).map (fun f => (f.name, formatValue (obj f.name)))

inductive GetError
  -- `failed to load hash from Redis`
  | load
  -- `key %s not found in Redis`
  | notFound
  -- `failed to parse int field %s`
  | parseInt (field : String)
  -- `failed to parse bool field %s`
  | parseBool (field : String)
  -- `failed to parse DeletedAt field %s`
  | parseDeletedAt (field : String)
deriving DecidableEq

def parseBool (text : String) : Option Bool :=
  if text ∈ ["1", "t", "T", "TRUE", "true", "True"] then some true
  else if text ∈ ["0", "f", "F", "FALSE", "false", "False"] then some false
  else none

def Field.zero (f : Field) : Value :=
  if f.pointer then .nil
  else
    match f.kind with
    | .string => .string ""
    | .int => .int 0
    | .bool => .bool false
    | .deletedAt => .deletedAt none

variable (cfg : Config)

def readField (f : Field) (text : String) : Except GetError Value :=
  if f.pointer ∧ text = "" then .ok .nil
  else
    match f.kind with
    | .string => .ok (.string text)
    | .int =>
      match GoText.parseInt text with
      | none => .error (.parseInt f.name)
      | some n => .ok (.int n)
    | .bool =>
      match parseBool text with
      | none => .error (.parseBool f.name)
      | some b => .ok (.bool b)
    | .deletedAt =>
      if text = "" then .ok (.deletedAt none)
      else
        match cfg.parseTime text with
        | none => .error (.parseDeletedAt f.name)
        | some t => .ok (.deletedAt (some t))

/-- The loop of `RedisHGetObj`. A field that the hash does not have is left as it is. -/
def readFields (cfg : Config) (hash : String → Option String) : List Field → Object → Except GetError Object
  | [], obj => .ok obj
  | f :: fs, obj =>
    match hash f.name with
    | none => readFields cfg hash fs obj
    | some text =>
      match readField cfg f text with
      | .error err => .error err
      | .ok v => readFields cfg hash fs (Function.update obj f.name v)

def zeroObject (fields : List Field) : Object :=
  fun name => ((fields.find? (fun f => f.name = name)).map Field.zero).getD .nil

def redisHGetObj (db : Db Key) (key : Key) : Except GetError Object :=
  match db key with
  | none => .error .notFound
  | some e => readFields cfg e.hash key.fields (zeroObject key.fields)

/-! The calls on the cache. -/

def Value.toInt : Value → Int
  | .int n => n
  | _ => 0

def Value.text : Value → String
  | .string s => s
  | _ => ""

def getUserCacheKey (userId : Int) : Key := .user userId

def tokenCacheKey (key : String) : Key := .token (cfg.generateHMAC key)

def clean (token : Object) : Object := Function.update token "Key" (.string "")

/-- What `RedisHIncrBy` and `RedisHSetField` write. -/
inductive Write
  | hincrby (field : String) (delta : Int)
  | hset (field text : String)
deriving DecidableEq

/-- What is looked up: `cacheGetUserBase(userId)` or `cacheGetTokenByKey(key)`. -/
inductive Lookup
  | user (userId : Int)
  | token (key : String)
deriving DecidableEq

def Lookup.cacheKey : Lookup → Key
  | .user userId => getUserCacheKey userId
  | .token key => tokenCacheKey cfg key

/-- `cacheGetTokenByKey` puts the key of the token back. -/
def Lookup.finish : Lookup → Object → Object
  | .user _, obj => obj
  | .token key, obj => Function.update obj "Key" (.string key)

inductive Result
  | done
  | failed
  -- A cache hit
  | hit (obj : Object)

inductive Pc
  -- `RedisHSetObj`: the transaction
  | setObj (key : Key) (data : List (String × String))
  -- `RedisHIncrBy` and `RedisHSetField`: the `TTL`, then the transaction; `rest` is still to be written
  | checkTTL (key : Key) (write : Write) (rest : List Write)
  | transaction (key : Key) (write : Write) (rest : List Write)
  -- `RedisDelKey`
  | delKey (key : Key)
  -- `RedisHGetObj`, and on a miss the read of the database
  | getAll (lookup : Lookup)
  | returned (result : Result)

def populateUserCache (user : Object) : Pc :=
  .setObj (getUserCacheKey (user "Id").toInt) (objectData UserBase.fields user)

def cacheSetToken (token : Object) : Pc :=
  .setObj (tokenCacheKey cfg (token "Key").text) (objectData Token.fields (clean token))

def writeNext (key : Key) : List Write → Pc
  | [] => .returned .done
  | w :: rest => .checkTTL key w rest

inductive Call
  | populateUserCache (user : Object)
  | cacheSetToken (token : Object)
  | cacheIncrUserQuota (userId delta : Int)
  | cacheIncrTokenQuota (key : String) (increment : Int)
  | updateUserStatusCache (userId : Int) (status : Bool)
  | updateUserQuotaCache (userId quota : Int)
  | updateUserGroupCache (userId : Int) (group : String)
  | updateUserEmailCache (userId : Int) (email : String)
  | updateUserNameCache (userId : Int) (username : String)
  | updateUserSettingCache (userId : Int) (setting : String)
  | updateUserCache (user : Object)
  | cacheSetTokenField (key field value : String)
  | invalidateUserCache (userId : Int)
  | cacheDeleteToken (key : String)
  -- `GetUserCache`, `GetTokenByKey`
  | get (lookup : Lookup)

/-- The text of `UserStatusEnabled` or `UserStatusDisabled`. -/
def statusText (status : Bool) : String := if status then "1" else "2"

def start (c : Call) (_ : Db Key) : Pc :=
  match c with
  | .populateUserCache user => populateUserCache user
  | .cacheSetToken token => cacheSetToken cfg token
  | .cacheIncrUserQuota userId delta => writeNext (getUserCacheKey userId) [.hincrby "Quota" delta]
  | .cacheIncrTokenQuota key increment => writeNext (tokenCacheKey cfg key) [.hincrby "RemainQuota" increment]
  | .updateUserStatusCache userId status => writeNext (getUserCacheKey userId) [.hset "Status" (statusText status)]
  | .updateUserQuotaCache userId quota => writeNext (getUserCacheKey userId) [.hset "Quota" (toString quota)]
  | .updateUserGroupCache userId group => writeNext (getUserCacheKey userId) [.hset "Group" group]
  | .updateUserEmailCache userId email => writeNext (getUserCacheKey userId) [.hset "Email" email]
  | .updateUserNameCache userId username => writeNext (getUserCacheKey userId) [.hset "Username" username]
  | .updateUserSettingCache userId setting => writeNext (getUserCacheKey userId) [.hset "Setting" setting]
  | .updateUserCache user =>
    writeNext (getUserCacheKey (user "Id").toInt)
      [.hset "Group" (user "Group").text, .hset "Email" (user "Email").text,
        .hset "Status" (statusText ((user "Status").toInt = 1)), .hset "Username" (user "Username").text,
        .hset "Setting" (user "Setting").text]
  | .cacheSetTokenField key field value => writeNext (tokenCacheKey cfg key) [.hset field value]
  | .invalidateUserCache userId => .delKey (getUserCacheKey userId)
  | .cacheDeleteToken key => .delKey (tokenCacheKey cfg key)
  | .get lookup => .getAll lookup

/-- What happens to a command: whether the server executes it, whether its reply arrives, the
time to live that is left, and the row that the database has after a miss. -/
structure Input where
  executed : Bool := true
  replied : Bool := true
  seconds : ℕ := 0
  row : Option Object := none

def Input.failed (input : Input) : Bool := !(input.executed && input.replied)

/-- The transaction of `RedisHIncrBy` or `RedisHSetField`, and whether `Exec` is an error. -/
def transact (db : Db Key) (key : Key) : Write → Db Key × Bool
  | .hincrby field delta =>
      (Redis.expire (Redis.hincrby db key field delta).1 key, (Redis.hincrby db key field delta).2)
  | .hset field text => (Redis.expire (Redis.hset db key [(field, text)]) key, false)

def setObj (db : Db Key) (key : Key) (data : List (String × String)) : Db Key :=
  if 0 < cfg.cacheSeconds then Redis.expire (Redis.hset db key data) key else Redis.hset db key data

def afterMiss (lookup : Lookup) (row : Option Object) : Pc :=
  match row with
  | none => .returned .failed
  | some obj =>
    match lookup with
    | .user _ => populateUserCache obj
    | .token _ => cacheSetToken cfg obj

def next (pc : Pc) (db : Db Key) (input : Input) : Db Key × Pc :=
  match pc with
  | .setObj key data =>
    (if input.executed then setObj cfg db key data else db, .returned (if input.failed then .failed else .done))
  | .checkTTL key w rest =>
    if input.failed then (db, .returned .failed)
    else if 0 < Redis.ttl db key input.seconds then (db, .transaction key w rest)
    else (db, writeNext key rest)
  | .transaction key w rest =>
    (if input.executed then (transact db key w).1 else db,
      if input.failed || (transact db key w).2 then .returned .failed else writeNext key rest)
  | .delKey key =>
    (if input.executed then Redis.del db key else db, .returned (if input.failed then .failed else .done))
  | .getAll lookup =>
    if input.failed then (db, afterMiss cfg lookup input.row)
    else
      match redisHGetObj cfg db (lookup.cacheKey cfg) with
      | .error _ => (db, afterMiss cfg lookup input.row)
      | .ok obj => (db, .returned (.hit (lookup.finish obj)))
  | .returned result => (db, .returned result)

def machine : Machine (Db Key) Pc Call Input Key where
  start := start cfg
  next := next cfg
  env := Redis.lapse

abbrev Action := Interleave.Action Call Input Key

def initial : System (Db Key) Pc := ⟨fun _ => none, []⟩

end AiGateway.RecordCache
