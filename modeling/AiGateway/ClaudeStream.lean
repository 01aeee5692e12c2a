import AiGateway.ChatStream

/-! A chat stream told as the events of a Claude message: `StreamResponseOpenAI2Claude` and the two
handlers that feed it. -/
namespace AiGateway.Convert

inductive LastMessageType
  | none
  | text
  | tools
  | thinking
deriving DecidableEq

/-- The fields of `RelayInfo` and its `ClaudeConvertInfo` that carry the conversion. -/
structure ClaudeInfo where
  sendResponseCount : ℕ := 0
  finishReason : String := ""
  estimatePromptTokens : Int := 0
  lastMessagesType : LastMessageType := .none
  index : ℕ := 0
  usage : Option Usage := none
  done : Bool := false
  toolCallBaseIndex : ℕ := 0
  toolCallMaxIndexOffset : ℕ := 0

structure ClaudeUsage where
  inputTokens : Int
  outputTokens : Int
  cacheCreationInputTokens : Int
  cacheReadInputTokens : Int
  cacheCreation : Option (Int × Int)
deriving DecidableEq

inductive ContentBlock
  | toolUse (id name : String)
  | thinking
  | text
deriving DecidableEq

inductive BlockDelta
  | inputJson (partialJson : String)
  | thinking (thinking : String)
  | text (text : String)
deriving DecidableEq

inductive ClaudeEvent
  | messageStart (id model : String) (inputTokens : Int)
  | contentBlockStart (index : ℕ) (block : ContentBlock)
  | contentBlockDelta (index : ℕ) (delta : BlockDelta)
  | contentBlockStop (index : ℕ)
  | messageDelta (stopReason : String) (usage : ClaudeUsage)
  | messageStop
deriving DecidableEq

def normalizeCacheCreationSplit (totalTokens tokens5m tokens1h : Int) : Int × Int :=
  (tokens5m+max (totalTokens-tokens5m-tokens1h) 0, tokens1h)

def buildClaudeUsageFromOpenAIUsage (u : Usage) : ClaudeUsage :=
  let split := normalizeCacheCreationSplit u.promptTokensDetails.cachedCreationTokens
    u.claudeCacheCreation5mTokens u.claudeCacheCreation1hTokens
  { inputTokens := u.promptTokens
    outputTokens := u.completionTokens
    cacheCreationInputTokens := u.promptTokensDetails.cachedCreationTokens
    cacheReadInputTokens := u.promptTokensDetails.cachedTokens
    cacheCreation := if split.1 > 0 ∨ split.2 > 0 then some split else none }

/-- `reasonmap.OpenAIFinishReasonToClaudeStopReason`, over `strings.ToLower`. -/
def stopReasonOpenAI2Claude (lower : String → String) (reason : String) : String :=
  match lower reason with
  | "stop" => "end_turn"
  | "stop_sequence" => "stop_sequence"
  | "length" | "max_tokens" => "max_tokens"
  | "content_filter" => "refusal"
  | "tool_calls" => "tool_use"
  | _ => reason

abbrev Emit := ClaudeInfo × List ClaudeEvent

def Emit.andThen (r : Emit) (f : ClaudeInfo → Emit) : Emit := ((f r.1).1, r.2 ++ (f r.1).2)

def stopOpenBlocks (info : ClaudeInfo) : List ClaudeEvent :=
  match info.lastMessagesType with
  | .text | .thinking => [.contentBlockStop info.index]
  | .tools => (List.range (info.toolCallMaxIndexOffset+1)).map
      (fun offset => .contentBlockStop (info.toolCallBaseIndex+offset))
  | .none => []

def stopOpenBlocksAndAdvance (info : ClaudeInfo) : Emit :=
  match info.lastMessagesType with
  | .none => (info, [])
  | .tools =>
    ({ info with
        index := info.toolCallBaseIndex+info.toolCallMaxIndexOffset+1
        toolCallBaseIndex := 0
        toolCallMaxIndexOffset := 0
        lastMessagesType := .none }, stopOpenBlocks info)
  | _ => ({ info with index := info.index+1, lastMessagesType := .none }, stopOpenBlocks info)

variable (lower : String → String)

variable (chunk : Chunk)

def finishMessage (info : ClaudeInfo) : Emit :=
  let oaiUsage := chunk.usage.or info.usage
  ({ info with done := true }, stopOpenBlocks info ++
      (oaiUsage.map (fun u =>
        ClaudeEvent.messageDelta (stopReasonOpenAI2Claude lower info.finishReason)
          (buildClaudeUsageFromOpenAIUsage u))).toList ++
      [.messageStop])

/-! The first chunk. -/

def firstToolCall (toolCalls : List ToolCallResponse) (info : ClaudeInfo) : Emit :=
  match toolCalls with
  | [] => (info, [])
  | toolCall :: _ =>
    ({ info with lastMessagesType := .tools, toolCallBaseIndex := 0, toolCallMaxIndexOffset := 0 },
      .contentBlockStart 0 (.toolUse toolCall.id toolCall.name) ::
        if toolCall.arguments ≠ "" then [.contentBlockDelta 0 (.inputJson toolCall.arguments)] else [])

def firstBlock (kind : LastMessageType) (block : ContentBlock) (delta : BlockDelta) (info : ClaudeInfo) : Emit :=
  let r := if info.lastMessagesType ≠ kind then stopOpenBlocksAndAdvance info else (info, [])
  ({ r.1 with lastMessagesType := kind },
    r.2 ++ [.contentBlockStart r.1.index block, .contentBlockDelta r.1.index delta])

def firstContent (delta : Delta) (info : ClaudeInfo) : Emit :=
  if delta.getReasoningContent ≠ "" then
    firstBlock .thinking .thinking (.thinking delta.getReasoningContent) info
  else if delta.getContentString ≠ "" then firstBlock .text .text (.text delta.getContentString) info
  else (info, [])

def firstChunk (info : ClaudeInfo) : Emit :=
  let started : Emit := (info, [.messageStart chunk.id chunk.model info.estimatePromptTokens])
  match chunk.choices with
  | [] => started
  | choice :: _ =>
    let r := (started.andThen (firstToolCall choice.delta.toolCalls)).andThen (firstContent choice.delta)
    match choice.finish with
    | none => r
    | some reason => r.andThen (fun info => finishMessage lower chunk { info with finishReason := reason })

/-! The chunks that follow. -/

def ToolCallResponse.offset (toolCall : ToolCallResponse) (i : ℕ) : ℕ := toolCall.index.getD i

def fragmentEvents (base : ℕ) (fragment : ToolCallResponse × ℕ) : List ClaudeEvent :=
  let idx := base+fragment.1.offset fragment.2
  (if fragment.1.name ≠ "" then [.contentBlockStart idx (.toolUse fragment.1.id fragment.1.name)] else []) ++
    if fragment.1.arguments ≠ "" then [.contentBlockDelta idx (.inputJson fragment.1.arguments)] else []

def toolFragments (toolCalls : List ToolCallResponse) (info : ClaudeInfo) : Emit :=
  let r : Emit :=
    if info.lastMessagesType ≠ .tools then
      let advanced := stopOpenBlocksAndAdvance info
      ({ advanced.1 with toolCallBaseIndex := advanced.1.index, toolCallMaxIndexOffset := 0 }, advanced.2)
    else (info, [])
  let base := r.1.toolCallBaseIndex
  let maxOffset := toolCalls.zipIdx.foldl (fun m e => max m (e.1.offset e.2)) r.1.toolCallMaxIndexOffset
  ({ r.1 with
      lastMessagesType := .tools
      toolCallMaxIndexOffset := maxOffset
      index := base+maxOffset }, r.2 ++ toolCalls.zipIdx.flatMap (fragmentEvents base))

def nextDelta (kind : LastMessageType) (block : ContentBlock) (delta : BlockDelta) (info : ClaudeInfo) : Emit :=
  let r : Emit :=
    if info.lastMessagesType ≠ kind then
      let advanced := stopOpenBlocksAndAdvance info
      (advanced.1, advanced.2 ++ [.contentBlockStart advanced.1.index block])
    else (info, [])
  ({ r.1 with lastMessagesType := kind }, r.2 ++ [.contentBlockDelta r.1.index delta])

def nextContent (delta : Delta) (info : ClaudeInfo) : Emit :=
  if delta.toolCalls ≠ [] then toolFragments delta.toolCalls info
  else if delta.getReasoningContent ≠ "" then
    nextDelta .thinking .thinking (.thinking delta.getReasoningContent) info
  else if delta.getContentString ≠ "" then nextDelta .text .text (.text delta.getContentString) info
  else (info, [])

def usageChunk (info : ClaudeInfo) : Emit :=
  match chunk.usage.or info.usage with
  | none => (info, [])
  | some oaiUsage =>
    let stopReason := stopReasonOpenAI2Claude lower info.finishReason
    ({ info with done := true }, stopOpenBlocks info ++
        [.messageDelta (if stopReason = "" then "end_turn" else stopReason)
          (buildClaudeUsageFromOpenAIUsage oaiUsage), .messageStop])

def nextChunk (info : ClaudeInfo) : Emit :=
  match chunk.choices with
  | [] => usageChunk lower chunk info
  | choice :: _ =>
    match choice.finish with
    | none => nextContent choice.delta info
    | some reason =>
      let info := { info with finishReason := reason }
      -- the finish reason may come before the usage: the end then waits for a later chunk
      if chunk.usage = none then (info, [])
      else (nextContent choice.delta info).andThen (finishMessage lower chunk)

def streamResponseOpenAI2Claude (info : ClaudeInfo) : Emit :=
  if info.done then (info, [])
  else if info.sendResponseCount = 1 then firstChunk lower chunk info
  else nextChunk lower chunk info

/-! The handlers. -/

def received (info : ClaudeInfo) (chunk : Chunk) : ClaudeInfo :=
  { info with sendResponseCount := info.sendResponseCount+1, usage := chunk.usage.or info.usage }

/-- `HandleStreamFormat` for a client that speaks Claude. -/
def handleClaudeFormat (info : ClaudeInfo) (chunk : Chunk) : Emit :=
  streamResponseOpenAI2Claude lower chunk (received info chunk)

def handleFinalResponse (usage : Usage) (info : ClaudeInfo) (chunk : Chunk) : Emit :=
  let r := streamResponseOpenAI2Claude lower chunk { info with usage := some usage }
  ({ r.1 with done := true }, r.2)

def handleChunks (info : ClaudeInfo) (chunks : List Chunk) : Emit :=
  chunks.foldl (fun r chunk => r.andThen (fun info => handleClaudeFormat lower info chunk)) (info, [])

/-- `OaiStreamHandler`: each chunk is sent when the next one arrives, the last one with the usage that the
handler has settled on. -/
def oaiStreamHandler (usage : List Chunk → Usage) (info : ClaudeInfo) (chunks : List Chunk) : List ClaudeEvent :=
  match chunks.getLast? with
  | none => []
  | some last =>
    ((handleChunks lower info chunks.dropLast).andThen
      (fun info => handleFinalResponse lower (usage chunks) info last)).2

end AiGateway.Convert
