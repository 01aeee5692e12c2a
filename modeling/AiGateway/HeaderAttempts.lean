import AiGateway.HeaderOverride
import AiGateway.Run

/-! The header override of each attempt of a relayed request. One `RelayInfo` serves all attempts. -/
namespace AiGateway.Override

open GoText

structure NewAPIError where
  statusCode : Int
  message : String
  errorCode : String
  errorType : String
  skipRetry : Bool
deriving DecidableEq

structure ChannelMeta where
  paramOverride : List (String × Json)
  headersOverride : List (String × Json)
  upstreamModelName : String
  apiKey : String

structure ClientRequest where
  originModelName : String
  requestURLPath : String
  /-- `c.Request.Header`: the first value of each header. -/
  header : List (String × String)
  isChannelTest : Bool

structure RelayInfo where
  request : ClientRequest
  retryIndex : ℕ := 0
  lastError : Option NewAPIError := none
  channelMeta : Option ChannelMeta := none
  runtimeHeadersOverride : List (String × String) := []
  useRuntimeHeadersOverride : Bool := false

def cloneRequestHeaders (request : ClientRequest) : List (String × String) :=
  (request.header.map (fun e => (e.1, trimSpace e.2))).filter (fun e => e.2 ≠ "")

variable (lib : Library)

variable (info : RelayInfo)

def getHeaderOverrideMap : List (String × Json) :=
  (info.channelMeta.map (·.headersOverride)).getD []

def getParamOverrideMap : List (String × Json) :=
  (info.channelMeta.map (·.paramOverride)).getD []

def getEffectiveHeaderOverride : List (String × String) :=
  if info.useRuntimeHeadersOverride then sanitizeHeaderOverrideMap lib (untyped info.runtimeHeadersOverride)
  else sanitizeHeaderOverrideMap lib (getHeaderOverrideMap info)

def buildRequestHeadersContext (headers : List (String × String)) : List (String × String) :=
  ((headers.map (fun e => (normalizeHeaderContextKey lib e.1, trimSpace e.2))).filter
    (fun e => e.1 ≠ "" ∧ e.2 ≠ "")).foldl (fun m e => GoMap.set m e.1 e.2) []

def lastErrorContext : Option NewAPIError → List (String × Json)
  | none => []
  | some e => [("last_error", .object [("status_code", .number e.statusCode), ("message", .string e.message),
      ("code", .string e.errorCode), ("error_code", .string e.errorCode), ("type", .string e.errorType),
      ("error_type", .string e.errorType), ("skip_retry", .bool e.skipRetry)]),
    ("last_error_status_code", .number e.statusCode), ("last_error_message", .string e.message),
    ("last_error_code", .string e.errorCode), ("last_error_type", .string e.errorType)]

def entryOf (key text : String) : List (String × Json) :=
  if text = "" then [] else [(key, .string text)]

def buildParamOverrideContext : Context where
  values :=
    let upstreamModel := (info.channelMeta.map (·.upstreamModelName)).getD ""
    entryOf "model" (if upstreamModel = "" then info.request.originModelName else upstreamModel) ++
      entryOf "upstream_model" upstreamModel ++ entryOf "original_model" info.request.originModelName ++
      entryOf "request_path" info.request.requestURLPath ++
      [("retry_index", .number info.retryIndex), ("is_retry", .bool (info.retryIndex > 0)),
        ("retry", .object [("index", .number info.retryIndex), ("is_retry", .bool (info.retryIndex > 0))])] ++
      lastErrorContext info.lastError ++ [("is_channel_test", .bool info.request.isChannelTest)]
  requestHeaders := buildRequestHeadersContext lib (cloneRequestHeaders info.request)
  headerOverride := sanitizeHeaderOverrideMap lib (untyped (getEffectiveHeaderOverride lib info))

def syncRuntimeHeaderOverrideFromContext (ctx : Context) : RelayInfo :=
  { info with
    runtimeHeadersOverride := sanitizeHeaderOverrideMap lib (untyped ctx.headerOverride)
    useRuntimeHeadersOverride := true }

def applyParamOverrideWithRelayInfo (data : Json) (info : RelayInfo) : Except OverrideError (Json × RelayInfo) :=
  let paramOverride := getParamOverrideMap info
  if paramOverride.isEmpty then .ok (data, info)
  else
    match applyParamOverride lib data paramOverride (buildParamOverrideContext lib info) with
    | .error err => .error err
    | .ok (result, overrideCtx) => .ok (result, syncRuntimeHeaderOverrideFromContext lib info overrideCtx)

/-! What goes on the wire. -/

def passthroughSkipHeaderNamesLower : List String :=
  ["connection", "keep-alive", "proxy-authenticate", "proxy-authorization", "te", "trailer", "transfer-encoding",
    "upgrade", "cookie", "host", "content-length", "accept-encoding", "authorization", "x-api-key", "x-goog-api-key",
    "sec-websocket-key", "sec-websocket-version", "sec-websocket-extensions"]

def shouldSkipPassthroughHeader (name : String) : Bool :=
  trimSpace name = "" || lib.lower (trimSpace name) ∈ passthroughSkipHeaderNamesLower

def isHeaderPassthroughRuleKey (key : String) : Bool :=
  let key := trimSpace key
  if key = "" then false
  else if key = "*" then true
  else hasPrefix (lib.lower key) "re:" || hasPrefix (lib.lower key) "regex:"

inductive HeaderOverrideError
  | emptyPattern (key : String)
  | invalidPattern (err : String)
  | placeholderNotWhole (template : String)
  | placeholderNameEmpty (template : String)

inductive Passthrough
  | all
  | matching (re : String → Bool)

def passthroughOf (k : String) : Except HeaderOverrideError (Option Passthrough) :=
  let key := trimSpace (lib.lower k)
  let compile (marker : String) : Except HeaderOverrideError (Option Passthrough) :=
    let pattern := trimSpace (trimPrefix key marker)
    if pattern = "" then .error (.emptyPattern k)
    else
      match lib.regexp pattern with
      | .error err => .error (.invalidPattern err)
      | .ok re => .ok (some (.matching re))
  if key = "" then .ok none
  else if key = "*" then .ok (some .all)
  else if hasPrefix key "re:" then compile "re:"
  else if hasPrefix key "regex:" then compile "regex:"
  else .ok none

def Passthrough.passes (name : String) : Passthrough → Bool
  | .all => true
  | .matching re => re name

def ClientRequest.get (request : ClientRequest) (name : String) : String :=
  (request.header.lookup (lib.canonical name)).getD ""

def clientHeaderPlaceholderPrefix : String := "\x7bclient_header:"

def applyHeaderOverridePlaceholders (template : String) (request : ClientRequest) (apiKey : String) :
    Except HeaderOverrideError (Option String) :=
  let trimmed := trimSpace template
  if hasPrefix trimmed clientHeaderPlaceholderPrefix then
    let after := trimPrefix trimmed clientHeaderPlaceholderPrefix
    match after.toList.span (· ≠ '\x7d') with
    | (inner, [_]) =>
      let name := trimSpace (String.ofList inner)
      if name = "" then .error (.placeholderNameEmpty template)
      else
        let clientHeaderValue := request.get lib name
        .ok (if trimSpace clientHeaderValue = "" then none else some clientHeaderValue)
    | _ => .error (.placeholderNotWhole template)
  else
    let template := apiKey.intercalate (split template "\x7bapi_key\x7d")
    .ok (if trimSpace template = "" then none else some template)

def passedHeaders (request : ClientRequest) (rules : List Passthrough) : List (String × String) :=
  ((request.header.filter (fun e => ! shouldSkipPassthroughHeader lib e.1 && rules.any (Passthrough.passes e.1))).map
    (fun e => (lib.lower (trimSpace e.1), trimSpace (request.get lib e.1)))).filter (fun e => e.2 ≠ "")

def addHeader (request : ClientRequest) (apiKey : String) (headerOverride : List (String × String))
    (entry : String × String) : Except HeaderOverrideError (List (String × String)) :=
  let key := trimSpace (lib.lower entry.1)
  if isHeaderPassthroughRuleKey lib entry.1 || key = "" then .ok headerOverride
  else if request.isChannelTest && hasPrefix (trimSpace entry.2) clientHeaderPlaceholderPrefix then
    .ok headerOverride
  else
    match applyHeaderOverridePlaceholders lib entry.2 request apiKey with
    | .error err => .error err
    | .ok none => .ok headerOverride
    | .ok (some value) => .ok (GoMap.set headerOverride key value)

def processHeaderOverride : Except HeaderOverrideError (List (String × String)) := do
  let headerOverrideSource := getEffectiveHeaderOverride lib info
  let rules ←
    if info.request.isChannelTest then pure []
    else headerOverrideSource.mapM (fun e => passthroughOf lib e.1)
  let passed := (passedHeaders lib info.request (rules.filterMap id)).foldl (fun m e => GoMap.set m e.1 e.2) []
  headerOverrideSource.foldlM
    (addHeader lib info.request ((info.channelMeta.map (·.apiKey)).getD "")) passed

/-! Attempts. -/

/-- One turn of the retry loop: the channel it takes, what the handler makes of the request for it, and
how the upstream answers. -/
structure Attempt where
  retryIndex : ℕ
  channel : ChannelMeta
  /-- The converted body, with nothing where the body goes through as it came. -/
  body : Except NewAPIError (Option Json)
  /-- The error for an override that cannot be applied or sent. -/
  localError : OverrideError ⊕ HeaderOverrideError → NewAPIError
  reply : List (String × String) → Option NewAPIError

/-- The loop's `RetryIndex` and `InitChannelMeta`. -/
def initChannelMeta (a : Attempt) : RelayInfo :=
  { info with retryIndex := a.retryIndex, channelMeta := some a.channel }

def overrideParams (a : Attempt) : Except NewAPIError RelayInfo :=
  match a.body with
  | .error e => .error e
  | .ok none => .ok info
  | .ok (some data) =>
    match applyParamOverrideWithRelayInfo lib data info with
    | .error err => .error (a.localError (.inl err))
    | .ok (_, info) => .ok info

def sentHeaders (a : Attempt) : Except NewAPIError (List (String × String)) := do
  let info ← overrideParams lib (initChannelMeta info a) a
  (processHeaderOverride lib info).mapError (fun err => a.localError (.inr err))

def attempt (a : Attempt) : RelayInfo :=
  let info' :=
    match overrideParams lib (initChannelMeta info a) a with
    | .error _ => initChannelMeta info a
    | .ok info => info
  { info' with
    lastError :=
      match sentHeaders lib info a with
      | .error e => some e
      | .ok headers => a.reply headers }

end AiGateway.Override
