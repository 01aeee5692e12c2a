import Mathlib.Data.List.Basic

/-! The chunks of a streamed chat completion, and what they say was used. -/
namespace AiGateway.Convert

structure InputTokenDetails where
  cachedTokens : Int := 0
  cachedCreationTokens : Int := 0
  textTokens : Int := 0
  audioTokens : Int := 0
  imageTokens : Int := 0
deriving DecidableEq

structure OutputTokenDetails where
  textTokens : Int := 0
  audioTokens : Int := 0
  imageTokens : Int := 0
  reasoningTokens : Int := 0
deriving DecidableEq

structure Usage where
  promptTokens : Int := 0
  completionTokens : Int := 0
  totalTokens : Int := 0
  promptTokensDetails : InputTokenDetails := {}
  completionTokenDetails : OutputTokenDetails := {}
  inputTokens : Int := 0
  outputTokens : Int := 0
  inputTokensDetails : Option InputTokenDetails := none
  claudeCacheCreation5mTokens : Int := 0
  claudeCacheCreation1hTokens : Int := 0
deriving DecidableEq

structure ToolCallResponse where
  index : Option ℕ := none
  id : String := ""
  name : String := ""
  arguments : String := ""
deriving DecidableEq

structure Delta where
  content : Option String := none
  reasoningContent : Option String := none
  reasoning : Option String := none
  role : String := ""
  toolCalls : List ToolCallResponse := []
deriving DecidableEq

def Delta.getContentString (d : Delta) : String := d.content.getD ""

def Delta.getReasoningContent (d : Delta) : String := (d.reasoningContent.or d.reasoning).getD ""

structure Choice where
  delta : Delta := {}
  finishReason : Option String := none
deriving DecidableEq

/-- `*choice.FinishReason`, where that is set and not empty. -/
def Choice.finish (c : Choice) : Option String := c.finishReason.filter (· ≠ "")

/-- `ChatCompletionsStreamResponse`. -/
structure Chunk where
  id : String := ""
  created : Int := 0
  model : String := ""
  choices : List Choice := []
  usage : Option Usage := none
deriving DecidableEq

/-! What the chunks of one choice say. -/

def Chunk.delta (c : Chunk) : Delta := (c.choices.head?.map (·.delta)).getD {}

def contents (cs : List Chunk) : String := String.join (cs.map (fun c => c.delta.getContentString))

def reasonings (cs : List Chunk) : String := String.join (cs.map (fun c => c.delta.getReasoningContent))

theorem contents_cons (c : Chunk) (cs : List Chunk) : contents (c :: cs) = c.delta.getContentString ++ contents cs :=
  String.join_cons

theorem reasonings_cons (c : Chunk) (cs : List Chunk) :
    reasonings (c :: cs) = c.delta.getReasoningContent ++ reasonings cs :=
  String.join_cons

theorem join_singleton (t : String) : String.join [t] = t := by
  rw [String.join_cons, String.join_nil, String.append_empty]

end AiGateway.Convert
