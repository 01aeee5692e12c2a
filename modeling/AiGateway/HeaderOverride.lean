import AiGateway.GoJson
import AiGateway.GoText

/-! The operations of a parameter override that read or change headers, the headers they leave to the
request, and what is then put on the wire. -/
namespace AiGateway.Override

open GoText List

structure ConditionOperation where
  path : String
  mode : String
  value : Json
  invert : Bool
  passMissingKey : Bool

structure ParamOperation where
  path : String
  mode : String
  value : Json
  keepOrigin : Bool
  source : String
  target : String
  conditions : List ConditionOperation
  logic : String

inductive OverrideError
  | sourceHeaderNotFound (name : String)
  | message (text : String)
  | operationFailed (mode : String) (err : OverrideError)
  /-- The error an operation `return_error` asks for. -/
  | returned (value : Json)

/-- What the overrides take from outside: the string and JSON libraries, and the operations of an
override on the body alone, which see the context but do not change it. -/
structure Library where
  /-- `fmt.Sprintf("%v", v)`. -/
  sprint : Json → String
  sprint_string : ∀ s, sprint (.string s) = s
  lower : String → String
  upper : String → String
  equalFold : String → String → Bool
  /-- `http.CanonicalHeaderKey`. -/
  canonical : String → String
  unmarshal : String → Option Json
  unmarshal_size : ∀ s v, unmarshal s = some v → v.size ≤ s.length
  /-- `regexp.Compile`, with `MatchString` of the result. -/
  regexp : String → Except String (String → Bool)
  /-- `gjson.Get` and `gjson.Result.String`. -/
  get : Json → String → Option Json
  text : Json → String
  /-- `sjson.Set`. -/
  set : Json → String → Json → Except String Json
  escape : String → String
  processNegativeIndex : Json → String → String
  bodyOperation : ParamOperation → Json → Json → Except OverrideError Json

variable (lib : Library)

def normalizeHeaderContextKey (key : String) : String := trimSpace (lib.lower key)

def isHeaderPassthroughRuleKeyForOverride (key : String) : Bool :=
  let key := trimSpace (lib.lower key)
  if key = "" then false
  else if key = "*" then true
  else hasPrefix key "re:" || hasPrefix key "regex:"

def sanitizeHeader (target : List (String × String)) (entry : String × Json) : List (String × String) :=
  let normalizedKey := normalizeHeaderContextKey lib entry.1
  if normalizedKey = "" then target
  else
    let normalizedValue := trimSpace (lib.sprint entry.2)
    if normalizedValue = "" then
      if isHeaderPassthroughRuleKeyForOverride lib normalizedKey then GoMap.set target normalizedKey "" else target
    else GoMap.set target normalizedKey normalizedValue

def sanitizeHeaderOverrideMap (source : List (String × Json)) : List (String × String) :=
  source.foldl (sanitizeHeader lib) []

def untyped (m : List (String × String)) : List (String × Json) :=
  m.map (fun e => (e.1, .string e.2))

/-! The context of the operations. -/

structure Context where
  values : List (String × Json)
  requestHeaders : List (String × String)
  headerOverride : List (String × String)

variable (ctx : Context)

/-- `contextJSON`. -/
def Context.json : Json :=
  .object (ctx.values ++ [("request_headers", .object (untyped ctx.requestHeaders)),
    ("header_override", .object (untyped ctx.headerOverride))])

def getHeaderValueFromContext (headerName : String) : Option String :=
  let headerName := normalizeHeaderContextKey lib headerName
  if headerName = "" then none
  else [ctx.headerOverride, ctx.requestHeaders].findSome? (fun headers =>
    match headers.lookup headerName with
    | none => none
    | some raw => if trimSpace raw = "" then none else some (trimSpace raw))

def splitHeaderListValue (raw : String) : List String :=
  ((split raw ",").map trimSpace).filter (· ≠ "")

mutual

def parseHeaderReplacementTokens : Json → Except OverrideError (List String)
  | .null => .ok []
  | .string raw => .ok (splitHeaderListValue raw)
  | .array raw => do
    let tokens ← parseHeaderReplacementItems raw
    return tokens.eraseDups
  | .object _ => .error (.message "header replacement value must be string, array or null")
  | raw =>
    let token := trimSpace (lib.sprint raw)
    .ok (if token = "" then [] else [token])

def parseHeaderReplacementItems : List Json → Except OverrideError (List String)
  | [] => .ok []
  | item :: items => do
    let itemTokens ← parseHeaderReplacementTokens item
    let tokens ← parseHeaderReplacementItems items
    return itemTokens ++ tokens

end

def parseHeaderAppendTokens (mapping : List (String × Json)) : Except OverrideError (List String) :=
  match mapping.lookup "$append" with
  | none => .ok []
  | some appendRaw => parseHeaderReplacementTokens lib appendRaw

def parseHeaderKeepOnlyDeclared (mapping : List (String × Json)) : Bool :=
  ((mapping.lookup "$keep_only_declared").bind Json.bool?).getD false

def replaceToken (mapping : List (String × Json)) (keepOnlyDeclared : Bool) (token : String) :
    Except OverrideError (List String) :=
  let replacementRaw :=
    match mapping.lookup token with
    | some raw => some raw
    | none => if keepOnlyDeclared then none else mapping.lookup "*"
  match replacementRaw with
  | none => .ok (if keepOnlyDeclared then [] else [token])
  | some raw => parseHeaderReplacementTokens lib raw

def resolveHeaderOverrideValueByMapping (headerName : String) (mapping : List (String × Json)) :
    Except OverrideError (Option String) := do
  if mapping.isEmpty then throw (.message "header value mapping cannot be empty")
  let appendTokens ← parseHeaderAppendTokens lib mapping
  let keepOnlyDeclared := parseHeaderKeepOnlyDeclared mapping
  let sourceTokens := ((getHeaderValueFromContext lib ctx headerName).map splitHeaderListValue).getD []
  let replaced ← sourceTokens.mapM (replaceToken lib mapping keepOnlyDeclared)
  let resultTokens := (replaced.flatten ++ appendTokens).eraseDups
  return if resultTokens.isEmpty then none else some (",".intercalate resultTokens)

def resolveHeaderOverrideValue (headerName : String) (value : Json) :
    Except OverrideError (Option String) :=
  match value with
  | .null => .error (.message "header value is required")
  | .object mapping => resolveHeaderOverrideValueByMapping lib ctx headerName mapping
  | value =>
    let headerValue := trimSpace (lib.sprint value)
    .ok (if headerValue = "" then none else some headerValue)

def keepsHeader (headerName : String) : Bool :=
  match ctx.headerOverride.lookup headerName with
  | none => false
  | some existing => trimSpace existing ≠ ""

def setHeaderOverrideInContext (headerName : String) (value : Json) (keepOrigin : Bool) :
    Except OverrideError Context := do
  let headerName := normalizeHeaderContextKey lib headerName
  if headerName = "" then throw (.message "header name is required")
  if keepOrigin && keepsHeader ctx headerName then return ctx
  match ← resolveHeaderOverrideValue lib ctx headerName value with
  | none => return { ctx with headerOverride := GoMap.delete ctx.headerOverride headerName }
  | some headerValue => return { ctx with headerOverride := GoMap.set ctx.headerOverride headerName headerValue }

def deleteHeaderOverrideInContext (headerName : String) : Except OverrideError Context :=
  let headerName := normalizeHeaderContextKey lib headerName
  if headerName = "" then .error (.message "header name is required")
  else .ok { ctx with headerOverride := GoMap.delete ctx.headerOverride headerName }

def copyHeaderInContext (fromHeader toHeader : String) (keepOrigin : Bool) :
    Except OverrideError Context :=
  let fromHeader := normalizeHeaderContextKey lib fromHeader
  let toHeader := normalizeHeaderContextKey lib toHeader
  if fromHeader = "" ∨ toHeader = "" then .error (.message "copy_header from/to is required")
  else
    match getHeaderValueFromContext lib ctx fromHeader with
    | none => .error (.sourceHeaderNotFound fromHeader)
    | some value => setHeaderOverrideInContext lib ctx toHeader (.string value) keepOrigin

def moveHeaderInContext (fromHeader toHeader : String) (keepOrigin : Bool) :
    Except OverrideError Context := do
  let fromHeader := normalizeHeaderContextKey lib fromHeader
  let toHeader := normalizeHeaderContextKey lib toHeader
  if fromHeader = "" ∨ toHeader = "" then throw (.message "move_header from/to is required")
  let ctx ← copyHeaderInContext lib ctx fromHeader toHeader keepOrigin
  if lib.equalFold fromHeader toHeader then return ctx
  deleteHeaderOverrideInContext lib ctx fromHeader

/-- A header that is not there is passed over. -/
def orMissing : Except OverrideError Context → Except OverrideError Context
  | .error (.sourceHeaderNotFound _) => .ok ctx
  | r => r

/-- The headers a copy or a move is about: the path stands for a side that is not given. -/
def headerPair (op : ParamOperation) : String × String :=
  (if trimSpace op.source = "" then trimSpace op.path else trimSpace op.source,
    if trimSpace op.target = "" then trimSpace op.path else trimSpace op.target)

def normalizeNames (values : List String) : List String :=
  ((values.map (normalizeHeaderContextKey lib)).filter (· ≠ "")).eraseDups

def someNames (names : List String) : Except OverrideError (List String) :=
  if names.isEmpty then .error (.message "pass_headers value is invalid") else .ok names

theorem trimSpace_length_le (s : String) : (trimSpace s).length ≤ s.length := by
  rw [trimSpace, String.length_ofList, length_reverse]
  have hright := (dropWhile_sublist isSpace (l := (s.toList.dropWhile isSpace).reverse)).length_le
  have hleft := (dropWhile_sublist isSpace (l := s.toList)).length_le
  rw [length_reverse] at hright
  exact hright.trans (hleft.trans (Nat.le_of_eq String.length_toList))

def parseHeaderPassThroughNames : Json → Except OverrideError (List String)
  | .null => .error (.message "pass_headers value is required")
  | .string raw =>
    let trimmed := trimSpace raw
    if trimmed = "" then .error (.message "pass_headers value is required")
    else
      match h : lib.unmarshal trimmed with
      | some parsed =>
        if hasPrefix trimmed "[" || hasPrefix trimmed "\x7b" then parseHeaderPassThroughNames parsed
        else someNames (normalizeNames lib (split trimmed ","))
      | none => someNames (normalizeNames lib (split trimmed ","))
  | .array raw => someNames (normalizeNames lib (raw.map lib.sprint))
  | .object raw =>
    let candidates (key : String) : List String :=
      match h : raw.lookup key with
      | none => []
      | some names => (parseHeaderPassThroughNames names).toOption.getD []
    someNames (normalizeNames lib (candidates "headers" ++ candidates "names" ++ candidates "header"))
  | _ => .error (.message "pass_headers value must be string, array or object")
termination_by v => v.size
decreasing_by
  · have hsize := lib.unmarshal_size _ _ h
    have hlen : trimmed.length ≤ raw.length := trimSpace_length_le raw
    rw [Json.size]
    omega
  · have hsize := Json.size_le_sizeFields h
    rw [Json.size]
    omega

/-- `pass_headers`: each header of the list that the request has. -/
def passHeaders (headerNames : List String) (keepOrigin : Bool) : Except OverrideError Context :=
  headerNames.foldlM (fun ctx name => orMissing ctx (copyHeaderInContext lib ctx name name keepOrigin)) ctx

/-! Fields kept equal in the body and in the headers. -/

inductive SyncTarget
  | json (key : String)
  | header (key : String)

def parseSyncTarget (spec : String) : Except OverrideError SyncTarget :=
  let raw := trimSpace spec
  if raw = "" then .error (.message "sync_fields target is required")
  else
    match raw.toList.span (· ≠ ':') with
    | (_, []) => .ok (.json raw)
    | (before, _ :: after) =>
      let kind := lib.lower (trimSpace (String.ofList before))
      let key := trimSpace (String.ofList after)
      if key = "" then .error (.message ("sync_fields target key is required: " ++ raw))
      else if kind = "json" ∨ kind = "body" then .ok (.json key)
      else if kind = "header" then .ok (.header key)
      else .error (.message ("sync_fields target prefix is invalid: " ++ raw))

def readSyncTargetValue (data : Json) (ctx : Context) : SyncTarget → Option Json
  | .json key =>
    match lib.get data (lib.processNegativeIndex data key) with
    | none | some .null => none
    | some (.string s) => if trimSpace s = "" then none else some (.string s)
    | some value => some value
  | .header key => (getHeaderValueFromContext lib ctx key).map .string

def writeSyncTargetValue (data : Json) (ctx : Context) (target : SyncTarget) (value : Json) :
    Except OverrideError (Json × Context) :=
  match target with
  | .json key =>
    match lib.set data (lib.processNegativeIndex data key) value with
    | .error err => .error (.message err)
    | .ok nextJSON => .ok (nextJSON, ctx)
  | .header key => (setHeaderOverrideInContext lib ctx key value false).map (fun ctx => (data, ctx))

def syncFieldsBetweenTargets (data : Json) (ctx : Context) (fromSpec toSpec : String) :
    Except OverrideError (Json × Context) := do
  let fromTarget ← parseSyncTarget lib fromSpec
  let toTarget ← parseSyncTarget lib toSpec
  match readSyncTargetValue lib data ctx fromTarget, readSyncTargetValue lib data ctx toTarget with
  | some fromValue, none => writeSyncTargetValue lib data ctx toTarget fromValue
  | none, some toValue => writeSyncTargetValue lib data ctx fromTarget toValue
  | _, _ => return (data, ctx)

/-! Conditions of an operation. -/

def compareEqual : Json → Json → Except OverrideError Bool
  | .null, target => .ok (match target with | .null => true | _ => false)
  | _, .null => .ok false
  | .bool b, .bool target => .ok (b = target)
  | .number n, .number target => .ok (n = target)
  | .string s, .string target => .ok (s = target)
  | .array v, .array target => .ok (lib.text (.array v) = lib.text (.array target))
  | .array v, .object target => .ok (lib.text (.array v) = lib.text (.object target))
  | .object v, .array target => .ok (lib.text (.object v) = lib.text (.array target))
  | .object v, .object target => .ok (lib.text (.object v) = lib.text (.object target))
  | _, _ => .error (.message "compare for different types")

def compareNumeric (compare : ℚ → ℚ → Bool) : Json → Json → Except OverrideError Bool
  | .number n, .number target => .ok (compare n target)
  | _, _ => .error (.message "numeric comparison requires both values to be numbers")

def compareGjsonValues (value target : Json) (mode : String) : Except OverrideError Bool :=
  match mode with
  | "full" => compareEqual lib value target
  | "prefix" => .ok (hasPrefix (lib.text value) (lib.text target))
  | "suffix" => .ok (hasSuffix (lib.text value) (lib.text target))
  | "contains" => .ok (contains (lib.text value) (lib.text target))
  | "gt" => compareNumeric (fun a b => a > b) value target
  | "gte" => compareNumeric (fun a b => a ≥ b) value target
  | "lt" => compareNumeric (fun a b => a < b) value target
  | "lte" => compareNumeric (fun a b => a ≤ b) value target
  | mode => .error (.message ("unsupported comparison mode: " ++ mode))

def checkSingleCondition (data context : Json) (condition : ConditionOperation) : Except OverrideError Bool :=
  -- the body is asked first, then the context
  match (lib.get data (lib.processNegativeIndex data condition.path)).or (lib.get context condition.path) with
  | none => .ok condition.passMissingKey
  | some value => do
    let result ← compareGjsonValues lib value condition.value (lib.lower condition.mode)
    return if condition.invert then !result else result

def checkConditions (data context : Json) (conditions : List ConditionOperation) (logic : String) :
    Except OverrideError Bool := do
  if conditions.isEmpty then return true
  let results ← conditions.mapM (checkSingleCondition lib data context)
  return if lib.upper logic = "AND" then results.all id else results.any id

/-! Reading the override and applying it. -/

def parseCondition : Json → Except OverrideError ConditionOperation
  | .object itemMap =>
    let path := ((itemMap.lookup "path").bind Json.string?).getD ""
    let mode := ((itemMap.lookup "mode").bind Json.string?).getD ""
    if trimSpace path = "" ∨ trimSpace mode = "" then
      .error (.message "condition path/mode is required")
    else .ok ⟨path, mode, (itemMap.lookup "value").getD .null, ((itemMap.lookup "invert").bind Json.bool?).getD false,
      ((itemMap.lookup "pass_missing_key").bind Json.bool?).getD false⟩
  | _ => .error (.message "condition must be object")

def parseConditionOperations : Json → Except OverrideError (List ConditionOperation)
  | .object entries =>
    let conditions := (entries.filter (fun e => trimSpace e.1 ≠ "")).map
      (fun e => ⟨trimSpace e.1, "full", e.2, false, false⟩)
    if conditions.isEmpty then .error (.message "conditions object must contain at least one key")
    else .ok conditions
  | .array items => items.mapM parseCondition
  | _ => .error (.message "conditions must be an array or object")

def parseOperation (op : Json) : Option ParamOperation := do
  let opMap ← op.object?
  let text (key : String) := (opMap.lookup key).bind Json.string?
  let mode ← text "mode"
  let conditions ←
    match opMap.lookup "conditions" with
    | none => some []
    | some conditions => (parseConditionOperations conditions).toOption
  return ⟨(text "path").getD "", mode, (opMap.lookup "value").getD .null,
    ((opMap.lookup "keep_origin").bind Json.bool?).getD false, (text "from").getD "", (text "to").getD "", conditions,
    (text "logic").getD "OR"⟩

def tryParseOperations (paramOverride : List (String × Json)) : Option (List ParamOperation) :=
  match paramOverride.lookup "operations" with
  | some (.array ops) => ops.mapM parseOperation
  | _ => none

def applyOperationsLegacy (data : Json) (paramOverride : List (String × Json)) : Except OverrideError Json :=
  paramOverride.foldlM (fun data e =>
    match lib.set data (lib.escape e.1) e.2 with
    | .error err => .error (.message err)
    | .ok next => .ok next) data

def buildLegacyParamOverride (paramOverride : List (String × Json)) : List (String × Json) :=
  paramOverride.filter (fun e => ! lib.equalFold (trimSpace e.1) "operations")

def applyMode (op : ParamOperation) (data : Json) (ctx : Context) : Except OverrideError (Json × Context) :=
  let changed (r : Except OverrideError Context) : Except OverrideError (Json × Context) :=
    (r.mapError (.operationFailed op.mode)).map (fun ctx => (data, ctx))
  match op.mode with
  | "return_error" => .error (.returned op.value)
  | "set_header" => changed (setHeaderOverrideInContext lib ctx op.path op.value op.keepOrigin)
  | "delete_header" => changed (deleteHeaderOverrideInContext lib ctx op.path)
  | "copy_header" =>
    changed (orMissing ctx (copyHeaderInContext lib ctx (headerPair op).1 (headerPair op).2 op.keepOrigin))
  | "move_header" =>
    changed (orMissing ctx (moveHeaderInContext lib ctx (headerPair op).1 (headerPair op).2 op.keepOrigin))
  | "pass_headers" => do
    let headerNames ← parseHeaderPassThroughNames lib op.value
    changed (passHeaders lib ctx headerNames op.keepOrigin)
  | "sync_fields" => (syncFieldsBetweenTargets lib data ctx op.source op.target).mapError (.operationFailed op.mode)
  | _ => (lib.bodyOperation op data ctx.json).map (fun data => (data, ctx))

def applyOperation (s : Json × Context) (op : ParamOperation) : Except OverrideError (Json × Context) := do
  if ← checkConditions lib s.1 s.2.json op.conditions op.logic then applyMode lib op s.1 s.2 else return s

def applyParamOverride (data : Json) (paramOverride : List (String × Json)) (ctx : Context) :
    Except OverrideError (Json × Context) := do
  if paramOverride.isEmpty then return (data, ctx)
  match tryParseOperations paramOverride with
  | none => return (← applyOperationsLegacy lib data paramOverride, ctx)
  | some operations =>
    let workingJSON ← applyOperationsLegacy lib data (buildLegacyParamOverride lib paramOverride)
    operations.foldlM (applyOperation lib) (workingJSON, ctx)

end AiGateway.Override
