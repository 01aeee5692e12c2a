import AiGateway.ResponsesCalls

/-! A Claude stream told as chat chunks, event by event: `StreamResponseClaude2OpenAI`. -/
namespace AiGateway.Convert

open AiGateway.Responses (toolCallsOf)
open List

namespace Upstream

inductive ContentBlock
  | text (text : String)
  | thinking
  | toolUse (id name : String)
deriving DecidableEq

inductive BlockDelta
  | text (text : String)
  | thinking (thinking : String)
  | signature
  | inputJson (partialJson : String)
deriving DecidableEq

inductive Event
  | messageStart (id model : String)
  | contentBlockStart (index : ℕ) (block : ContentBlock)
  | contentBlockDelta (index : ℕ) (delta : BlockDelta)
  | contentBlockStop (index : ℕ)
  | messageDelta (stopReason : Option String)
  | messageStop
  | ping
deriving DecidableEq

section
variable (lower : String → String)

/-- `reasonmap.ClaudeStopReasonToOpenAIFinishReason`, over `strings.ToLower`. -/
def stopReasonClaude2OpenAI (reason : String) : String :=
  match lower reason with
  | "stop_sequence" | "end_turn" => "stop"
  | "max_tokens" => "length"
  | "tool_use" => "tool_calls"
  | "refusal" => "content_filter"
  | _ => reason

/-- The chunk for an event; a tool call has the index of its block. -/
def streamResponseClaude2OpenAI : Event → Option Chunk
  | .messageStart id model => some { id, model, choices := [{ delta := { content := some "", role := "assistant" } }] }
  | .contentBlockStart fcIdx block =>
    let delta : Delta :=
      match block with
      | .text text => { content := some text }
      | .thinking => {}
      | .toolUse id name => { toolCalls := [{ index := some fcIdx, id, name }] }
    some { choices := [{ delta }] }
  | .contentBlockDelta fcIdx delta =>
    let delta : Delta :=
      match delta with
      | .text text => { content := some text }
      | .inputJson partialJson => { toolCalls := [{ index := some fcIdx, arguments := partialJson }] }
      -- the signature is encrypted and not passed on
      | .signature => { reasoningContent := some "\n" }
      | .thinking thinking => { reasoningContent := some thinking }
    some { choices := [{ delta }] }
  | .messageDelta stopReason =>
    some { choices := [{ finishReason := (stopReason.map (stopReasonClaude2OpenAI lower)).filter (· ≠ "null") }] }
  | .contentBlockStop _ | .messageStop | .ping => none

def chunks (es : List Event) : List Chunk := es.filterMap (streamResponseClaude2OpenAI lower)

end

/-! Valid streams. -/

inductive Block
  | text (first : String) (deltas : List String)
  | thinking (deltas : List String) (signed : Bool)
  | toolUse (id name : String) (input : List String)

def Block.start : Block → ContentBlock
  | .text first _ => .text first
  | .thinking _ _ => .thinking
  | .toolUse id name _ => .toolUse id name

def Block.deltas : Block → List BlockDelta
  | .text _ deltas => deltas.map .text
  | .thinking deltas signed => deltas.map .thinking ++ if signed then [.signature] else []
  | .toolUse _ _ input => input.map .inputJson

def Block.events (i : ℕ) (b : Block) : List Event :=
  .contentBlockStart i b.start :: b.deltas.map (.contentBlockDelta i) ++ [.contentBlockStop i]

/-- A call is announced once, with its id and name, and its input follows under the same index. -/
def Block.calls (k : ℕ) : Block → List ToolCallResponse
  | .toolUse id name input =>
      { index := some k, id, name } :: input.map (fun json => { index := some k, arguments := json })
  | _ => []

def Block.content : Block → String
  | .text first deltas => String.join (first :: deltas)
  | _ => ""

def Block.thought : Block → String
  | .thinking deltas _ => String.join deltas
  | _ => ""

def Block.signed : Block → Bool
  | .thinking _ signed => signed
  | _ => false

/-- The thinking, and a line break for its signature. -/
def Block.reasoning (b : Block) : String := b.thought ++ if b.signed then "\n" else ""

variable (lower : String → String)

def told (es : List Event) : List ToolCallResponse × String × String :=
  (toolCallsOf (chunks lower es), contents (chunks lower es), reasonings (chunks lower es))

def Event.delta (e : Event) : Delta := ((streamResponseClaude2OpenAI lower e).map Chunk.delta).getD {}

variable (i : ℕ)

end Upstream

end AiGateway.Convert
