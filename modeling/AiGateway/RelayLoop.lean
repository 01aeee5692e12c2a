import AiGateway.Loop
import AiGateway.PriceHelper

/-! The loop of `Relay`: a channel is chosen, the request is sent, and after a failure that may be
retried the loop goes on. With automatic groups the choice walks through the groups. -/
namespace AiGateway.RelayLoop
open Pricing

/-- An error of an attempt, as `shouldRetry` looks at it. -/
structure RelayError where
  channelError : Bool
  skipRetry : Bool
  statusCode : Int
  errorCode : String
deriving DecidableEq

/-- What does not change during a request. -/
structure Config where
  setting : Setting
  -- `common.RetryTimes`
  retryTimes : ℕ
  tokenGroup : String
  -- `len(setting.GetAutoGroups()) != 0`
  autoGroupsEnabled : Bool
  -- `GetUserAutoGroup(userGroup)`
  autoGroups : List String
  crossGroupRetry : Bool
  -- The channel that the distributor has chosen
  channelId : Int
  specificChannel : Bool
  alwaysSkipRetryCode : String → Bool
  shouldRetryByStatusCode : Int → Bool

structure Round where
  -- `GetRandomSatisfiedChannel(group, _, retry, _)`: the channel, and whether there is an error
  pick : String → ℕ → Option Int × Bool
  -- `SetupContextForSelectedChannel` fails
  setupFails : Bool
  -- The body of the request cannot be read again
  bodyFails : Bool
  -- The handler calls `InitChannelMeta`
  initialises : Bool
  -- `ShouldSkipRetryAfterChannelAffinityFailure`
  skipAfterAffinity : Bool
  -- The error of the attempt, none for success
  outcome : Option RelayError

structure Chosen where
  channel : Int
  group : String
  groupIndex : ℕ
  priorityRetry : ℕ
deriving DecidableEq

/-- An upstream attempt. `index` and `retryIndex` are the stored group index and the retry
counter with which its round began. -/
structure Attempt extends Chosen where
  index : ℕ
  retryIndex : ℕ
deriving DecidableEq

structure State where
  -- `RetryParam`
  retry : ℕ
  resetNextTry : Bool
  -- The context: the automatic group, and the values stored as its index, the last one first
  autoGroup : Option String
  indexes : List ℕ
  -- `RelayInfo`; `channelMeta` tells whether it is not nil
  channelMeta : Bool
  info : RelayInfo
  attempts : List Attempt

def State.index (st : State) : ℕ := st.indexes.headD 0

def State.setIndex (st : State) (i : ℕ) : State := { st with indexes := i :: st.indexes }

def State.increaseRetry (st : State) : State :=
  if st.resetNextTry then { st with resetNextTry := false } else { st with retry := st.retry+1 }

def State.skipGroup (st : State) (i : ℕ) : State := { st.setIndex (i+1) with retry := 0 }

variable (cfg : Config)

def State.takeGroup (st : State) (group : String) (i priorityRetry : ℕ) : State :=
  let st := { st with autoGroup := some group }
  if cfg.crossGroupRetry && cfg.retryTimes ≤ priorityRetry then
    { st.setIndex (i+1) with retry := 0, resetNextTry := true }
  else st.setIndex i

def searchGroups (cfg : Config) (round : Round) (startGroupIndex : ℕ) :
    ℕ → List String → State → State × Option Chosen
  | _, [], st => (st, none)
  | i, group :: groups, st =>
    let priorityRetry := if startGroupIndex < i then 0 else st.retry
    match (round.pick group priorityRetry).1 with
    | none => searchGroups cfg round startGroupIndex (i+1) groups (st.skipGroup i)
    | some channel => (st.takeGroup cfg group i priorityRetry, some ⟨channel, group, i, priorityRetry⟩)

def Config.auto (cfg : Config) : Bool := cfg.tokenGroup = "auto"

def cacheGetRandomSatisfiedChannel (round : Round) (st : State) : State × Option Chosen :=
  if cfg.auto then
    if cfg.autoGroupsEnabled then
      searchGroups cfg round st.index st.index (cfg.autoGroups.drop st.index) st
    else (st, none)
  else
    match round.pick cfg.tokenGroup st.retry with
    | (some channel, false) => (st, some ⟨channel, cfg.tokenGroup, st.index, st.retry⟩)
    | _ => (st, none)

/-- `info.PriceData.GroupRatioInfo = helper.HandleGroupRatio(c, info)`. -/
def State.updateGroupRatio (st : State) : State :=
  let (groupRatioInfo, info) := handleGroupRatio cfg.setting st.autoGroup st.info
  { st with info := { info with priceData := { info.priceData with groupRatioInfo := groupRatioInfo } } }

def getChannel (round : Round) (st : State) : State × Option Chosen :=
  if st.channelMeta then
    match cacheGetRandomSatisfiedChannel cfg round st with
    | (st', none) => (st'.updateGroupRatio cfg, none)
    | (st', some chosen) => (st'.updateGroupRatio cfg, if round.setupFails then none else some chosen)
  else (st, some ⟨cfg.channelId, st.autoGroup.getD cfg.tokenGroup, st.index, st.retry⟩)

def shouldRetry (round : Round) (err : RelayError) (retryTimes : Int) : Bool :=
  if round.skipAfterAffinity then false
  else if err.channelError then true
  else if err.skipRetry then false
  else if retryTimes ≤ 0 then false
  else if cfg.specificChannel then false
  else if 200 ≤ err.statusCode ∧ err.statusCode < 300 then false
  else if err.statusCode < 100 ∨ 599 < err.statusCode then true
  else if cfg.alwaysSkipRetryCode err.errorCode then false
  else cfg.shouldRetryByStatusCode err.statusCode

inductive Ended
  -- The counter is above `RetryTimes`.
  | exhausted
  | noChannel
  | badBody
  | served
  | notRetried
deriving DecidableEq

structure Report where
  state : State
  ended : Ended

def State.attempted (st : State) (round : Round) (a : Attempt) : State :=
  { st with attempts := st.attempts ++ [a], channelMeta := st.channelMeta || round.initialises }

def relayRound (st : State) (round : Round) : State ⊕ Report :=
  if cfg.retryTimes < st.retry then .inr ⟨st, .exhausted⟩
  else
    match getChannel cfg round st with
    | (st', none) => .inr ⟨st', .noChannel⟩
    | (st', some chosen) =>
      if round.bodyFails then .inr ⟨st', .badBody⟩
      else
        let st'' := st'.attempted round ⟨chosen, st.index, st.retry⟩
        match round.outcome with
        | none => .inr ⟨st'', .served⟩
        | some err =>
          if shouldRetry cfg round err ((cfg.retryTimes : Int)-st''.retry) then .inl st''.increaseRetry
          else .inr ⟨st'', .notRetried⟩

def relay (fuel : ℕ) (rounds : ℕ → Round) (st : State) : Option Report :=
  Loop.run (relayRound cfg) fuel rounds st

def State.begin (autoGroup : Option String) (index : Option ℕ) (channelMeta : Bool) (info : RelayInfo) : State where
  retry := 0
  resetNextTry := false
  autoGroup := autoGroup
  indexes := index.toList
  channelMeta := channelMeta
  info := info
  attempts := []

end AiGateway.RelayLoop
