import AiGateway.ChannelCache
import AiGateway.ServedGroups

/-! The model of a chat completion: the distributor reads its name with a scanner, and the upstream
decodes the body that is forwarded. -/
namespace AiGateway.ForwardedModel

open GoText ServedGroups List

abbrev Body := List (String × Json)

/-- The keys that a decoder takes for the field `model`. -/
def isModel (key : String) : Bool := key.toList.map Char.toLower = "model".toList

def effortSuffixes : List String := ["-max", "-xhigh", "-high", "-medium", "-low", "-minimal"]

def openAIEffortSuffixes : List String := ["-high", "-minimal", "-low", "-medium", "-none", "-xhigh"]

def deepSeekV4EffortSuffixes : List String := ["-none", "-max"]

def trimEffortSuffixWithSuffixes (modelName : String) (suffixes : List String) : String :=
  match suffixes.find? (fun suffix => hasSuffix modelName suffix) with
  | none => modelName
  | some suffix => trimSuffix modelName suffix

structure Settings where
  passThroughRequestEnabled : Bool
  thinkingModelBlacklist : List String
  thinkingAdapterEnabled : Bool

variable (s : Settings)

def shouldPreserveThinkingSuffix (modelName : String) : Bool :=
  trimSpace modelName ≠ "" && s.thinkingModelBlacklist.any (fun entry => trimSpace entry = trimSpace modelName)

def isOpenAIReasoningOModel (modelName : String) : Bool :=
  hasPrefix modelName "o1" || hasPrefix modelName "o3" || hasPrefix modelName "o4"

def isOpenAIGPT5Model (modelName : String) : Bool := hasPrefix modelName "gpt-5"

/-- The adaptors that write the name into the body. Those that have it in the URL are left out. -/
inductive Adaptor
  | openai (openRouter : Bool)
  | volcengine
  | baiduV2
  | xai
  | deepseek
  | claude
  -- The adaptors that leave the name alone, and whether they convert requests for responses
  | other (responses : Bool)
deriving DecidableEq

/-- The suffixes that an adaptor looks for, in its order. Most look at the name from the distributor,
which has none when it is empty, the others at that of the request. -/
def suffixes (originModelName name : String) : Adaptor → List String
  | .openai _ =>
    if originModelName ≠ "" && (isOpenAIReasoningOModel name || isOpenAIGPT5Model name) then
      openAIEffortSuffixes else []
  | .volcengine =>
    if originModelName ≠ "" && !shouldPreserveThinkingSuffix s originModelName && hasPrefix name "deepseek" then
      ["-thinking"] else []
  | .baiduV2 => if originModelName ≠ "" then ["-search"] else []
  | .xai =>
    (if originModelName ≠ "" then ["-search"] else []) ++ if hasPrefix name "grok-3-mini" then
      ["-high", "-low"] else []
  | .deepseek =>
    if hasPrefix (trimEffortSuffixWithSuffixes name deepSeekV4EffortSuffixes) "deepseek-v4-" then
      deepSeekV4EffortSuffixes
    else []
  | .claude =>
    (if hasPrefix name "claude-opus-4-6" || hasPrefix name "claude-opus-4-7" || hasPrefix name "claude-opus-4-8" then
      effortSuffixes else []) ++
      if s.thinkingAdapterEnabled && !shouldPreserveThinkingSuffix s name then ["-thinking"] else []
  | .other _ => []

/-- The suffixes that the adaptor of OpenAI looks for first, on channels of OpenRouter. -/
def thinkingSuffix (originModelName : String) : Adaptor → List String
  | .openai true => if originModelName = "" || shouldPreserveThinkingSuffix s originModelName then [] else ["-thinking"]
  | _ => []

/-- The name that the converted request has. Without a mapping, `UpstreamModelName` is the name from the
distributor. -/
def convertOpenAIRequest (originModelName model : String) (a : Adaptor) : String :=
  let name := trimEffortSuffixWithSuffixes model (thinkingSuffix s originModelName a)
  trimEffortSuffixWithSuffixes name (suffixes s originModelName name a)

def responsesSuffixes : Adaptor → List String
  | .openai _ => openAIEffortSuffixes
  | _ => []

def convertOpenAIResponsesRequest (upstreamModelName name : String) : Adaptor → Option String
  | .openai _ => some (trimEffortSuffixWithSuffixes name openAIEffortSuffixes)
  | .xai => some (if name = "" then upstreamModelName else name)
  | .volcengine | .other true => some name
  | .baiduV2 | .deepseek | .claude | .other false => none

/-- A parameter override that leaves the model alone. One that writes it is a model mapping. -/
structure ParamOverride where
  apply : Body → Option Body
  keeps_model : ∀ {body out}, apply body = some out → decodeString isModel out = decodeString isModel body

structure Channel where
  adaptor : Adaptor
  passThroughBodyEnabled : Bool
  paramOverride : ParamOverride
  -- For which models the policy sends chat completions as responses
  useResponses : String → Bool

abbrev Fields := { fields : Body // ∀ m ∈ fields, isModel m.1 = false }

def encode (model : String) (fields : Fields) : Body :=
  if model = "" then fields.1 else ("model", .string model) :: fields.1

def Channel.passesThrough (ch : Channel) : Bool :=
  s.passThroughRequestEnabled || ch.passThroughBodyEnabled

def setModelName (model modelName : String) : String := if modelName = "" then model else modelName

/-- The body that is sent for a request with this model, on a channel without a model mapping. -/
def textHelper (ch : Channel) (originModelName model : String) (fields responsesFields : Fields)
    (body : Body) : Option Body :=
  let upstreamModelName := originModelName
  let model := setModelName model upstreamModelName
  if !ch.passesThrough s && ch.useResponses originModelName then do
    let chat ← ch.paramOverride.apply (encode model fields)
    let name ← decodeString isModel chat
    if name = "" then none
    else
      let name ← convertOpenAIResponsesRequest upstreamModelName name ch.adaptor
      some (encode name responsesFields)
  else if ch.passesThrough s then some body
  else ch.paramOverride.apply (encode (convertOpenAIRequest s originModelName model ch.adaptor) fields)

structure Token where
  -- The channel that the token is bound to
  specificChannel : Option Channel
  -- The models of the token, when they are limited
  modelLimit : Option (List String)

/-- An attempt: its channel, the names that the steps before it went by, and the body that is sent. -/
structure Attempt where
  channel : Channel
  checked : String
  selected : String
  priced : String
  body : Body

/-- The channel, unless the distributor refuses the request. -/
def distribute (token : Token) (selectChannel : String → Option Channel) (model : String) : Option Channel :=
  match token.specificChannel with
  | some ch => some ch
  | none =>
    if token.modelLimit.any (fun limit => Channels.formatMatchingModelName model ∉ limit) then none
    else if model = "" then none
    else selectChannel model

/-- An attempt of a request. A retry selects a channel again, with the name of the first time. -/
def attempt (token : Token) (selectChannel : String → Option Channel) (fields responsesFields : Fields)
    (body : Body) : Option Attempt := do
  let model ← getJSONStringValue body "model"
  let channel ← distribute token selectChannel model
  let name ← decodeString isModel body
  if name = "" then none
  else
    let sent ← textHelper s channel model name fields responsesFields body
    some { channel := channel, checked := model, selected := model, priced := model, body := sent }

/-- The adaptor cuts nothing off the name from the distributor, or, when that is empty, all of the name
that the request has. -/
def Channel.keeps (ch : Channel) (originModelName model : String) : Bool :=
  let name := setModelName model originModelName
  let cuts := if ch.useResponses originModelName then responsesSuffixes ch.adaptor
    else thinkingSuffix s originModelName ch.adaptor ++ suffixes s originModelName name ch.adaptor
  if originModelName = "" then cuts.find? (fun suffix => hasSuffix name suffix) = some name
  else !cuts.any (fun suffix => hasSuffix name suffix)

def Named (m : String × Json) : Bool :=
  isModel m.1 && match m.2 with | .null => false | _ => true

variable {s : Settings} {ch : Channel} {body : Body} {name : String}

def noFields : Fields := ⟨[], List.forall_mem_nil _⟩

end AiGateway.ForwardedModel
