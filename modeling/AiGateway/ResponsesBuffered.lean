import AiGateway.ResponsesStream

/-! A Responses stream that is gathered first and then told as one chat completion:
`ResponsesBufferedAccumulator` and `ResponsesResponseToChatCompletionsResponse`. -/
namespace AiGateway.Responses

open AiGateway.Convert (Usage)
open AiGateway.GoText (trimSpace)

/-! A response as a chat completion. -/

structure ChatToolCall where
  id : String
  name : String
  arguments : String
deriving DecidableEq

/-- `OpenAITextResponse` with its one choice. -/
structure ChatResponse where
  id : String
  created : Int
  model : String
  content : String
  reasoningContent : Option String
  toolCalls : List ChatToolCall
  finishReason : String
  usage : Usage
deriving DecidableEq

def extractOutputTextFromResponses (resp : Response) : String :=
  let messages := resp.output.filter (fun out => out.type = .message ∧ (out.role = "" ∨ out.role = "assistant"))
  let text := String.join (messages.map messageText)
  if text ≠ "" then text else String.join (resp.output.map contentText)

def extractReasoningTextFromResponses (resp : Response) : String :=
  String.join ((resp.output.filter (fun out => out.type = .reasoning)).map contentText)

def chatToolCall? (out : ResponsesOutput) : Option ChatToolCall :=
  let name := trimSpace out.name
  let callId := trimSpace out.callId
  if isResponsesToolOutputType out.type = true ∧ name ≠ "" then
    some ⟨if callId = "" then trimSpace out.id else callId, name, out.arguments⟩
  else none

def responsesResponseToChatCompletionsResponse (resp : Response) (id : String) : ChatResponse :=
  let reasoning := extractReasoningTextFromResponses resp
  let toolCalls := resp.output.filterMap chatToolCall?
  { id
    created := resp.createdAt
    model := resp.model
    content := extractOutputTextFromResponses resp
    reasoningContent := if reasoning ≠ "" then some reasoning else none
    toolCalls
    finishReason :=
      match responsesFinishReasonFromStatus (some resp) with
      | some reason => reason
      | none => if toolCalls ≠ [] then "tool_calls" else "stop"
    usage := usageFromResponsesUsage resp.usage }

/-! Gathering the events. -/

/-- `responsesBufferedTool`. -/
structure BufferedTool where
  callId : String := ""
  itemId : String := ""
  name : String := ""
  arguments : String := ""
deriving DecidableEq

/-- `ResponsesBufferedAccumulator`. -/
structure Accumulator where
  text : String := ""
  reasoning : String := ""
  tools : List BufferedTool := []
  outputIndexToToolIdx : AList (fun _ : Int => ℕ) := ∅
  itemIDToToolIdx : AList (fun _ : String => ℕ) := ∅
  pendingByOutputIndex : AList (fun _ : Int => String) := ∅
  pendingByItemID : AList (fun _ : String => String) := ∅

def namedItemID (event : Event) : String :=
  let itemId := trimSpace event.itemId
  if itemId = "" then (event.item.map (fun item => trimSpace item.id)).getD "" else itemId

variable (a : Accumulator)

def findToolIndex (event : Event) : Option ℕ :=
  match event.outputIndex.bind (fun n => a.outputIndexToToolIdx.lookup n) with
  | some idx => some idx
  | none => if namedItemID event = "" then none else a.itemIDToToolIdx.lookup (namedItemID event)

def applyToolMetadata (tool : BufferedTool) (item : ResponsesOutput) : BufferedTool :=
  let itemId := trimSpace item.id
  let callId := trimSpace item.callId
  let name := trimSpace item.name
  { tool with
    itemId := if itemId ≠ "" then itemId else tool.itemId
    callId := if callId ≠ "" then callId else if tool.callId = "" then itemId else tool.callId
    name := if name ≠ "" then name else tool.name }

def newTool (event : Event) (item : ResponsesOutput) : Accumulator :=
  let tool := applyToolMetadata {} item
  let idx := a.tools.length
  let byIndex : BufferedTool × Accumulator :=
    match event.outputIndex with
    | none => (tool, a)
    | some n =>
      ({ tool with arguments := tool.arguments ++ (a.pendingByOutputIndex.lookup n).getD "" }, { a with
          outputIndexToToolIdx := a.outputIndexToToolIdx.insert n idx
          pendingByOutputIndex := a.pendingByOutputIndex.erase n })
  let byItem : BufferedTool × Accumulator :=
    if tool.itemId = "" then byIndex
    else
      ({ byIndex.1 with
          arguments := byIndex.1.arguments ++ (byIndex.2.pendingByItemID.lookup tool.itemId).getD "" },
        { byIndex.2 with
          itemIDToToolIdx := byIndex.2.itemIDToToolIdx.insert tool.itemId idx
          pendingByItemID := byIndex.2.pendingByItemID.erase tool.itemId })
  { byItem.2 with tools := byItem.2.tools ++ [byItem.1] }

def ensureTool (event : Event) (item : ResponsesOutput) : Accumulator × ℕ :=
  match findToolIndex a event with
  | some idx => ({ a with tools := a.tools.modify idx (fun tool => applyToolMetadata tool item) }, idx)
  | none => (newTool a event item, a.tools.length)

def bufferItem (event : Event) (item : ResponsesOutput) : Accumulator :=
  let r := ensureTool a event item
  if item.arguments = "" then r.1
  else { r.1 with tools := r.1.tools.modify r.2 (fun tool => { tool with arguments := item.arguments }) }

def bufferArguments (event : Event) : Accumulator :=
  match findToolIndex a event with
  | some idx =>
    { a with tools := a.tools.modify idx (fun tool => { tool with arguments := tool.arguments ++ event.delta }) }
  | none =>
    match event.outputIndex with
    | some n =>
      let pending := (a.pendingByOutputIndex.lookup n).getD "" ++ event.delta
      { a with pendingByOutputIndex := a.pendingByOutputIndex.insert n pending }
    | none =>
      let itemId := trimSpace event.itemId
      if itemId = "" then a
      else
        let pending := (a.pendingByItemID.lookup itemId).getD "" ++ event.delta
        { a with pendingByItemID := a.pendingByItemID.insert itemId pending }

def processEvent (event : Event) : Accumulator :=
  match event.type with
  | .outputTextDelta => { a with text := a.text ++ event.delta }
  | .reasoningSummaryDelta | .reasoningTextDelta => { a with reasoning := a.reasoning ++ event.delta }
  | .outputItemAdded | .outputItemDone =>
    match event.item with
    | some item => if isResponsesToolOutputType item.type then bufferItem a event item else a
    | none => a
  | .functionArgsDelta | .customToolInputDelta => bufferArguments a event
  | _ => a

/-! The response at the end. -/

def buildOutput : List ResponsesOutput :=
  (if a.reasoning = "" then [] else
    [{ type := .reasoning, content := [{ type := "summary_text", text := a.reasoning }] }]) ++
  (if a.text = "" then [] else
    [{ type := .message, role := "assistant", content := [{ type := "output_text", text := a.text }] }]) ++
  a.tools.map (fun tool =>
    { type := .functionCall, id := tool.itemId, callId := tool.callId, name := tool.name, arguments := tool.arguments })

def supplementResponseOutput (resp : Response) : Response :=
  if resp.output ≠ [] then resp else { resp with output := buildOutput a }

def scanBuffered (a : Accumulator) : List Event → Except String (Accumulator × Option Response)
  | [] => .ok (a, none)
  | event :: events =>
    let a := processEvent a event
    match event.type with
    | .completed | .done =>
      match event.response with
      | some resp => .ok (a, some resp)
      | none => scanBuffered a events
    | .incomplete => .ok (a, some (ensureIncompleteResponse event.response))
    | .failed => .error (streamError "response.failed")
    | .error => .error (streamError "response.error")
    | _ => scanBuffered a events

/-- `OaiResponsesToChatBufferedStreamHandler`, with the id and the time of the request and the upstream model,
which it falls back on where the stream has no response. -/
def bufferedStreamHandler (id : String) (now : Int) (model : String) (events : List Event) :
    Except String ChatResponse :=
  (scanBuffered {} events).map (fun r =>
    let finalResponse := r.2.getD { id, createdAt := now, model, status := some "completed" }
    responsesResponseToChatCompletionsResponse (supplementResponseOutput r.1 finalResponse) id)

end AiGateway.Responses
