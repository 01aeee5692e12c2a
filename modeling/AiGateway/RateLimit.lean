import AiGateway.Exclusive
import AiGateway.RedisKey

/-! The limits that are kept in Redis, one key at a time. Every command of a request is a step of its
own, and any time passes between two of them. -/
namespace AiGateway.RateLimit

open RedisKey Interleave

structure Store (V : Type*) where
  now : ℕ
  slot : Slot V
  -- When requests were recorded, the last one first. No command reads it.
  log : List ℕ
deriving DecidableEq

def Store.tick {V : Type*} (s : Store V) (elapsed : ℕ) : Store V := { s with now := s.now+elapsed }

/-- What a limiter is called with. The time `duration` is in seconds, the time to live
`expiration` in milliseconds. -/
structure Limit where
  maxCount : ℕ
  duration : ℕ
  expiration : ℕ
deriving DecidableEq

inductive Pc
  | llen
  | lindex
  | compare (old : ℕ)
  -- The time to live of the key is renewed, and the request is rejected.
  | refresh
  -- The handlers behind the limiter.
  | serve
  -- The time is taken.
  | stamp (trim : Bool)
  | push (time : ℕ) (trim : Bool)
  | trim (time : ℕ)
  | expire (time : ℕ)
  | admitted (time : ℕ)
  | rejected
  -- A status of 500: the oldest moment could not be parsed.
  | failed
  -- Served, and not recorded.
  | served
deriving DecidableEq

variable (limit : Limit)

def tooEarly (now old : ℕ) : Bool := ((now : Int)-old).tdiv 1000 < limit.duration

/-- The commands that decide. With a free place the request goes on at `free`, and if the
oldest moment is long enough ago, at `again`. -/
def check (free again : Pc) (s : Store (List ℕ)) : Pc → Store (List ℕ) × Pc
  | .llen => (s, if llen s.now s.slot < limit.maxCount then free else .lindex)
  | .lindex =>
    match lindexLast s.now s.slot with
    | none => (s, .failed)
    | some old => (s, .compare old)
  | .compare old => (s, if tooEarly limit s.now old then .refresh else again)
  | .refresh => ({ s with slot := expire s.now s.slot limit.expiration }, .rejected)
  | pc => (s, pc)

def record (s : Store (List ℕ)) : Pc → Store (List ℕ) × Pc
  | .stamp trim => (s, .push s.now trim)
  | .push time trim =>
    ({ s with slot := lpush s.now s.slot time, log := time :: s.log }, if trim then .trim time else .expire time)
  | .trim time => ({ s with slot := ltrim s.now s.slot limit.maxCount }, .expire time)
  | .expire time => ({ s with slot := expire s.now s.slot limit.expiration }, .admitted time)
  | pc => (s, pc)

def command (free again : Pc) (s : Store (List ℕ)) (pc : Pc) : Store (List ℕ) × Pc :=
  match pc with
  | .stamp _ | .push _ _ | .trim _ | .expire _ => record limit s pc
  | _ => check limit free again s pc

/-- A request at a limiter of the routes, which records it before it is served. The list is
trimmed only if there was no free place. -/
def routeNext (pc : Pc) (s : Store (List ℕ)) : Store (List ℕ) × Pc :=
  command limit (.stamp false) (.stamp true) s pc

/-- A request at the limiter of the models. It is recorded if the status is below 400. With the
limit zero there is nothing to check and nothing to record. -/
def handlerNext (pc : Pc) (s : Store (List ℕ)) (success : Bool) : Store (List ℕ) × Pc :=
  match pc with
  | .llen => if limit.maxCount = 0 then (s, .serve) else command limit .serve .serve s pc
  | .serve => (s, if success && limit.maxCount ≠ 0 then .stamp true else .served)
  | _ => command limit .serve .serve s pc

def rateLimitKeyExpirationDuration : ℕ := 20*60*1000

variable (maxRequestNum duration : ℕ)

def routeLimit : Limit := ⟨maxRequestNum, duration, rateLimitKeyExpirationDuration⟩

def redisRateLimiter : Machine (Store (List ℕ)) Pc Unit Bool ℕ where
  start _ _ := .llen
  next pc s _ := routeNext (routeLimit maxRequestNum duration) pc s
  env := Store.tick

def userRedisRateLimiter : Machine (Store (List ℕ)) Pc Unit Bool ℕ :=
  redisRateLimiter maxRequestNum duration

def modelLimit (successMaxCount minutes : ℕ) : Limit := ⟨successMaxCount, minutes*60, minutes*60*1000⟩

def redisRateLimitHandler (successMaxCount minutes : ℕ) : Machine (Store (List ℕ)) Pc Unit Bool ℕ where
  start _ _ := .llen
  next pc s success := handlerNext (modelLimit successMaxCount minutes) pc s success
  env := Store.tick

def Pc.phase : Pc → Exclusive.Phase
  | .llen => .waiting
  | .admitted _ | .rejected | .failed | .served => .finished
  | .lindex | .compare _ | .refresh | .serve | .stamp _ | .push _ _ | .trim _ | .expire _ => .underway

/-- The request has been pushed and its key has yet to get its time to live. -/
def Pc.recording : Pc → Bool
  | .trim _ | .expire _ => true
  | _ => false

inductive NotifyPc
  | get
  | set
  | ttl
  -- `INCRBY` and `EXPIRE` in one transaction.
  | incr (seconds : ℕ)
  | allowed
  | denied
deriving DecidableEq

def Store.allow (s : Store ℕ) (slot : Slot ℕ) : Store ℕ := { s with slot := slot, log := s.now :: s.log }

/-- One step of `checkRedisLimit`, with the commands of `RedisIncr`. The time to live of a new
counter is `getDuration`, a number of minutes. -/
def checkRedisLimitNext (notifyLimitCount minutes : ℕ) (pc : NotifyPc) (s : Store ℕ) : Store ℕ × NotifyPc :=
  match pc with
  | .get =>
    match live s.now s.slot with
    | none => (s, .set)
    | some e => (s, if notifyLimitCount ≤ e.value then .denied else .ttl)
  | .set => (s.allow (set s.now 1 (minutes*60*1000)), .allowed)
  -- A counter without a time to live is not incremented.
  | .ttl => if 0 < ttl s.now s.slot then (s, .incr (ttl s.now s.slot).toNat) else (s.allow s.slot, .allowed)
  | .incr seconds => (s.allow (expire s.now (incrby s.now s.slot 1) (seconds*1000)), .allowed)
  | .allowed | .denied => (s, pc)

def checkRedisLimit (notifyLimitCount minutes : ℕ) : Machine (Store ℕ) NotifyPc Unit Unit ℕ where
  start _ _ := .get
  next pc s _ := checkRedisLimitNext notifyLimitCount minutes pc s
  env := Store.tick

def NotifyPc.phase : NotifyPc → Exclusive.Phase
  | .get => .waiting
  | .set | .ttl | .incr _ => .underway
  | .allowed | .denied => .finished

end AiGateway.RateLimit
