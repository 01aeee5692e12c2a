import AiGateway.ChatStream
import AiGateway.GoText
import Mathlib.Data.List.AList
import Mathlib.Data.List.Sort

/-! A Responses stream told as the chunks of a chat completion: `ResponsesStreamEventToChatChunks`. -/
namespace AiGateway.Responses

open AiGateway.Convert (Usage Delta Chunk ToolCallResponse)
open AiGateway.GoText (trimSpace hasPrefix)

inductive OutputType
  | message
  | reasoning
  | functionCall
  | customToolCall
  | other (name : String)
deriving DecidableEq

def isResponsesToolOutputType : OutputType → Bool
  | .functionCall | .customToolCall => true
  | _ => false

structure ResponsesOutputContent where
  type : String := "output_text"
  text : String := ""
deriving DecidableEq

/-- `ResponsesOutput`; `arguments` is what `ArgumentsString` reads from the raw message. -/
structure ResponsesOutput where
  type : OutputType
  id : String := ""
  role : String := ""
  content : List ResponsesOutputContent := []
  callId : String := ""
  name : String := ""
  arguments : String := ""
deriving DecidableEq

/-- `OpenAIResponsesResponse`; the status is absent or the string in it, the reason that of the incomplete
details. -/
structure Response where
  id : String := ""
  createdAt : Int := 0
  status : Option String := none
  incompleteReason : Option String := none
  model : String := ""
  output : List ResponsesOutput := []
  usage : Option Usage := none
deriving DecidableEq

inductive EventType
  | created
  | completed
  | done
  | incomplete
  | failed
  | error
  | outputTextDelta
  | outputItemAdded
  | outputItemDone
  | functionArgsDelta
  | functionArgsDone
  | customToolInputDelta
  | customToolInputDone
  | reasoningSummaryDelta
  | reasoningSummaryDone
  | reasoningTextDelta
  | reasoningTextDone
  | other
deriving DecidableEq

/-- `ResponsesStreamResponse`. -/
structure Event where
  type : EventType
  response : Option Response := none
  delta : String := ""
  item : Option ResponsesOutput := none
  outputIndex : Option Int := none
  itemId : String := ""
deriving DecidableEq

/-! What a response says of itself. -/

def responseStatusString (resp : Response) : String := trimSpace (resp.status.getD "")

def responsesFinishReasonFromStatus (resp : Option Response) : Option String :=
  resp.bind (fun resp =>
    if responseStatusString resp ≠ "incomplete" then none
    else if trimSpace (resp.incompleteReason.getD "") = "content_filter" then some "content_filter"
    else some "length")

def ensureIncompleteResponse (resp : Option Response) : Response :=
  let resp := resp.getD {}
  if resp.status = none then { resp with status := some "incomplete" } else resp

def usageFromResponsesUsage (src : Option Usage) : Usage :=
  match src with
  | none => {}
  | some src =>
    { promptTokens := src.inputTokens
      inputTokens := src.inputTokens
      completionTokens := src.outputTokens
      outputTokens := src.outputTokens
      totalTokens := if src.totalTokens ≠ 0 then src.totalTokens else src.inputTokens+src.outputTokens
      promptTokensDetails :=
        match src.inputTokensDetails with
        | none => {}
        | some d => { cachedTokens := d.cachedTokens, imageTokens := d.imageTokens, audioTokens := d.audioTokens }
      completionTokenDetails := { reasoningTokens := src.completionTokenDetails.reasoningTokens } }

/-! The state of the conversion. -/

/-- The name under which a tool call is kept. The code writes these as strings with the beginnings `output:`,
`item:` and `call:`, so that two of them are never the same. -/
inductive Key
  | output (n : Int)
  | item (id : String)
  | call (id : String)
deriving DecidableEq

def Key.text : Key → String
  | .output n => "output:" ++ toString n
  | .item id => "item:" ++ id
  | .call id => "call:" ++ id

/-- `responsesStreamTool`. What has been sent of the arguments is a beginning of them, so that it is counted
here in characters. -/
structure Tool where
  key : Key
  callId : String := ""
  name : String := ""
  arguments : String := ""
  index : ℕ
  sent : Bool := false
  nameSent : Bool := false
  argsSentAt : ℕ := 0
deriving DecidableEq

/-- `ResponsesToChatStreamState`. -/
structure StreamState where
  id : String := ""
  model : String := ""
  created : Int := 0
  includeUsage : Bool := false
  usage : Usage := {}
  sentStart : Bool := false
  finalized : Bool := false
  hasSentText : Bool := false
  sawToolCall : Bool := false
  hasSentReasoning : Bool := false
  needsReasoningSummaryBreak : Bool := false
  nextToolIndex : ℕ := 0
  toolByKey : AList (fun _ : Key => Tool) := ∅
  outputIndexToKey : AList (fun _ : Int => Key) := ∅
  itemIDToKey : AList (fun _ : String => Key) := ∅
  pendingArgsByOutputIndex : AList (fun _ : Int => String) := ∅
  pendingArgsByItemID : AList (fun _ : String => String) := ∅

abbrev ToChat := StreamState × List Chunk

def ToChat.andThen (r : ToChat) (f : StreamState → ToChat) : ToChat := ((f r.1).1, r.2 ++ (f r.1).2)

variable (response : Option Response)

def applyResponseMetadata (s : StreamState) : StreamState :=
  match response with
  | none => s
  | some response =>
    { s with
      id := if response.id ≠ "" ∧ s.id = "" then response.id else s.id
      model := if response.model ≠ "" then response.model else s.model
      created := if response.createdAt ≠ 0 then response.createdAt else s.created
      usage := if response.usage = none then s.usage else usageFromResponsesUsage response.usage }

def makeChunk (s : StreamState) (delta : Delta) (finishReason : Option String) : Chunk :=
  { id := s.id, created := s.created, model := s.model, choices := [{ delta, finishReason }] }

def ensureStart (s : StreamState) : ToChat :=
  if s.sentStart then (s, [])
  else ({ s with sentStart := true }, [makeChunk s { role := "assistant", content := some "" } none])

def sendDelta (delta : Delta) (s : StreamState) : ToChat :=
  (ensureStart s).andThen (fun s => (s, [makeChunk s delta none]))

def textDelta (delta : String) (s : StreamState) : ToChat :=
  if delta = "" then (s, []) else sendDelta { content := some delta } { s with hasSentText := true }

def withBreak (delta : String) : String :=
  if hasPrefix delta "\n\n" then delta
  else if hasPrefix delta "\n" then "\n" ++ delta
  else "\n\n" ++ delta

def reasoningDelta (delta : String) (s : StreamState) : ToChat :=
  if delta = "" then (s, [])
  else
    let delta := if s.needsReasoningSummaryBreak then withBreak delta else delta
    sendDelta { reasoningContent := some delta }
      { s with needsReasoningSummaryBreak := false, hasSentReasoning := true }

/-! Tool calls. -/

variable (event : Event)

def keyForEvent : Option Key :=
  match event.outputIndex with
  | some n => some (.output n)
  | none =>
    let itemId := (event.item.map (fun item => trimSpace item.id)).getD ""
    let callId := (event.item.map (fun item => trimSpace item.callId)).getD ""
    if itemId ≠ "" then some (.item itemId)
    else if callId ≠ "" then some (.call callId)
    else if trimSpace event.itemId ≠ "" then some (.item (trimSpace event.itemId))
    else none

def responseStreamEventItemID : String :=
  let itemId := (event.item.map (fun item => trimSpace item.id)).getD ""
  if itemId ≠ "" then itemId else trimSpace event.itemId

/-- The tool is found from now on by the output index and the item of the event, and has what came for it
before it was known. -/
def registerTool (key : Key) (tool : Tool) (s : StreamState) : Tool × StreamState :=
  let byIndex : Tool × StreamState :=
    match event.outputIndex with
    | none => (tool, s)
    | some n =>
      ({ tool with arguments := tool.arguments ++ (s.pendingArgsByOutputIndex.lookup n).getD "" }, { s with
          outputIndexToKey := s.outputIndexToKey.insert n key
          pendingArgsByOutputIndex := s.pendingArgsByOutputIndex.erase n })
  let itemId := responseStreamEventItemID event
  if itemId = "" then byIndex
  else
    ({ byIndex.1 with arguments := byIndex.1.arguments ++ (byIndex.2.pendingArgsByItemID.lookup itemId).getD "" },
      { byIndex.2 with
        itemIDToKey := byIndex.2.itemIDToKey.insert itemId key
        pendingArgsByItemID := byIndex.2.pendingArgsByItemID.erase itemId })

def toolFor (key : Key) (callId : String) (s : StreamState) : Tool × StreamState :=
  match s.toolByKey.lookup key with
  | some tool => (tool, s)
  | none => ({ key, callId, index := s.nextToolIndex }, { s with nextToolIndex := s.nextToolIndex+1 })

def ensureToolForEvent (item : ResponsesOutput) (s : StreamState) : Option (Tool × StreamState) :=
  (keyForEvent event).map (fun key =>
    let r := toolFor key "" s
    let r := registerTool event key r.1 r.2
    let callId := trimSpace item.callId
    let name := trimSpace item.name
    ({ r.1 with
        callId := if callId ≠ "" then callId else if r.1.callId = "" then trimSpace item.id else r.1.callId
        name := if name ≠ "" then name else r.1.name }, r.2))

def findToolForEvent (s : StreamState) : Option Tool :=
  match event.outputIndex.bind (fun n => s.outputIndexToKey.lookup n) with
  | some key => s.toolByKey.lookup key
  | none =>
    match if trimSpace event.itemId = "" then none else s.itemIDToKey.lookup (trimSpace event.itemId) with
    | some key => s.toolByKey.lookup key
    | none => if event.item = none then none else (keyForEvent event).bind (fun key => s.toolByKey.lookup key)

def fallbackCallID : String :=
  if trimSpace event.itemId ≠ "" then trimSpace event.itemId
  else
    match event.outputIndex with
    | some n => "call_output_" ++ toString n
    | none => ""

def ensureFallbackToolForEvent (s : StreamState) : Option (Tool × StreamState) :=
  let key : Option Key :=
    match event.outputIndex with
    | some n => some (.output n)
    | none => if trimSpace event.itemId ≠ "" then some (.item (trimSpace event.itemId)) else none
  key.map (fun key =>
    let r := toolFor key (fallbackCallID event) s
    registerTool event key r.1 r.2)

def Tool.unsent (tool : Tool) : String := String.ofList (tool.arguments.toList.drop tool.argsSentAt)

/-- What is to be sent of the arguments: the delta that has come, or else what has not been sent. -/
def argsDelta (tool : Tool) (explicitDelta : String) : String :=
  if explicitDelta = "" ∧ tool.arguments.length > tool.argsSentAt then tool.unsent else explicitDelta

def toolDelta (tool : Tool) (explicitDelta : String) (s : StreamState) : ToChat :=
  let args := argsDelta tool explicitDelta
  if tool.sent ∧ args = "" ∧ (tool.name = "" ∨ tool.nameSent = true) then
    ({ s with toolByKey := s.toolByKey.insert tool.key tool }, [])
  else
    let callId := trimSpace tool.callId
    let sent : Tool :=
      { tool with
        sent := true
        nameSent := tool.nameSent || tool.name ≠ ""
        argsSentAt := tool.argsSentAt+args.length }
    let response : ToolCallResponse :=
      { index := some tool.index
        id := if callId = "" then tool.key.text else callId
        name := if tool.nameSent then "" else tool.name
        arguments := args }
    sendDelta { toolCalls := [response] }
      { s with toolByKey := s.toolByKey.insert tool.key sent, sawToolCall := true }

def toolItem (item : ResponsesOutput) (s : StreamState) : ToChat :=
  match ensureToolForEvent event item s with
  | none => (s, [])
  | some (tool, s) =>
    let args := item.arguments
    toolDelta (if args ≠ "" then { tool with arguments := args } else tool) "" s

def outputItem (s : StreamState) : ToChat :=
  match event.item with
  | none => (s, [])
  | some item => if isResponsesToolOutputType item.type then toolItem event item s else (s, [])

def toolArgumentsDelta (s : StreamState) : ToChat :=
  if event.delta = "" then (s, [])
  else
    match findToolForEvent event s with
    | some tool => toolDelta { tool with arguments := tool.arguments ++ event.delta } event.delta s
    | none =>
      -- the delta waits for its tool
      match event.outputIndex with
      | some n =>
        let pending := (s.pendingArgsByOutputIndex.lookup n).getD "" ++ event.delta
        ({ s with pendingArgsByOutputIndex := s.pendingArgsByOutputIndex.insert n pending }, [])
      | none =>
        let itemId := trimSpace event.itemId
        if itemId = "" then (s, [])
        else
          let pending := (s.pendingArgsByItemID.lookup itemId).getD "" ++ event.delta
          ({ s with pendingArgsByItemID := s.pendingArgsByItemID.insert itemId pending }, [])

def flushPendingTool (s : StreamState) : ToChat :=
  match findToolForEvent event s with
  | some tool => toolDelta tool "" s
  | none =>
    match ensureFallbackToolForEvent event s with
    | some (tool, s) => toolDelta tool "" s
    | none => (s, [])

/-! The end of the stream. -/

def messageText (out : ResponsesOutput) : String :=
  String.join ((out.content.filter (fun c => c.type = "output_text")).map (·.text))

def contentText (out : ResponsesOutput) : String := String.join (out.content.map (·.text))

def terminalOutput (s : StreamState) (out : ResponsesOutput) : ToChat :=
  if out.type = .message ∧ s.hasSentText = false then textDelta (messageText out) s
  else if out.type = .reasoning ∧ s.hasSentReasoning = false then reasoningDelta (contentText out) s
  else if isResponsesToolOutputType out.type then toolItem { type := .other, item := some out } out s
  else (s, [])

def terminalOutputChunks (s : StreamState) : ToChat :=
  ((response.map (·.output)).getD []).foldl (fun r out => r.andThen (fun s => terminalOutput s out)) (s, [])

/-- The keys that `flushAllPendingTools` goes through, in order. -/
def pendingKeys (s : StreamState) : List Key :=
  let tools := s.toolByKey.keys
  let outputs := tools ++ (s.pendingArgsByOutputIndex.keys.map Key.output).filter (· ∉ tools)
  let items := outputs ++ (s.pendingArgsByItemID.keys.map Key.item).filter (· ∉ outputs)
  items.insertionSort (fun a b => ¬ b.text < a.text)

def flushKey (s : StreamState) (key : Key) : ToChat :=
  let callId :=
    match key with
    | .output n => "call_output_" ++ toString n
    | .item id => id
    | .call id => "call:" ++ id
  let r := toolFor key callId s
  match key with
  | .output n =>
    toolDelta { r.1 with arguments := r.1.arguments ++ (r.2.pendingArgsByOutputIndex.lookup n).getD "" } ""
      { r.2 with pendingArgsByOutputIndex := r.2.pendingArgsByOutputIndex.erase n }
  | .item id =>
    toolDelta { r.1 with arguments := r.1.arguments ++ (r.2.pendingArgsByItemID.lookup id).getD "" } ""
      { r.2 with pendingArgsByItemID := r.2.pendingArgsByItemID.erase id }
  | .call _ => toolDelta r.1 "" r.2

def flushAllPendingTools (s : StreamState) : ToChat :=
  (pendingKeys s).foldl (fun r key => r.andThen (fun s => flushKey s key)) (s, [])

def finishReasonOf (sawToolCall : Bool) : String :=
  match responsesFinishReasonFromStatus response with
  | some reason => reason
  | none => if sawToolCall then "tool_calls" else "stop"

def usageChunks (s : StreamState) : List Chunk :=
  if s.includeUsage then [{ id := s.id, created := s.created, model := s.model, usage := some s.usage }] else []

def finalize (s : StreamState) : ToChat :=
  if s.finalized then (s, [])
  else
    ((flushAllPendingTools { s with finalized := true }).andThen ensureStart).andThen
      (fun s => (s, makeChunk s {} (some (finishReasonOf response s.sawToolCall)) :: usageChunks s))

def streamError (text : String) : String := "responses stream error: " ++ text

def terminal (s : StreamState) : ToChat :=
  (terminalOutputChunks response (applyResponseMetadata response s)).andThen (finalize response)

def responsesStreamEventToChatChunks (s : StreamState) : Except String ToChat :=
  match event.type with
  | .created => .ok (ensureStart (applyResponseMetadata event.response s))
  | .reasoningSummaryDelta | .reasoningTextDelta => .ok (reasoningDelta event.delta s)
  | .reasoningSummaryDone | .reasoningTextDone =>
    .ok ({ s with needsReasoningSummaryBreak := s.needsReasoningSummaryBreak || s.hasSentReasoning }, [])
  | .outputTextDelta => .ok (textDelta event.delta s)
  | .outputItemAdded | .outputItemDone => .ok (outputItem event s)
  | .functionArgsDelta | .customToolInputDelta => .ok (toolArgumentsDelta event s)
  | .functionArgsDone | .customToolInputDone => .ok (flushPendingTool event s)
  | .completed | .done => .ok (terminal event.response s)
  | .incomplete => .ok (terminal (some (ensureIncompleteResponse event.response)) s)
  | .failed => .error (streamError "response.failed")
  | .error => .error (streamError "response.error")
  | .other => .ok (s, [])

def finalizeResponsesToChatStream (s : StreamState) : ToChat := finalize none s

end AiGateway.Responses
