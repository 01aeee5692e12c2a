import AiGateway.ChatStream
import AiGateway.GoJson
import Mathlib.Data.List.Dedup

/-! A chat stream told as Gemini responses, one by one: `StreamResponseOpenAI2Gemini`. -/
namespace AiGateway.Convert

open List

namespace Gemini

/-- A choice of a chunk. `toolCalls` is none for a nil slice. -/
structure StreamChoice where
  index : Int := 0
  content : Option String := none
  toolCalls : Option (List ToolCallResponse) := none
  finishReason : Option String := none

structure StreamChunk where
  choices : List StreamChoice
  usage : Option Usage := none

abbrev Args := List (String × Json)

inductive Part
  | text (text : String)
  | functionCall (name : String) (args : Args)

structure Candidate where
  index : Int
  finishReason : Option String
  parts : List Part

structure Response where
  candidates : List Candidate
  promptTokenCount : Int
  candidatesTokenCount : Int
  totalTokenCount : Int

variable (unmarshal : String → Option Args)

def parseArguments (arguments : String) : Args :=
  if arguments ≠ "" then (unmarshal arguments).getD [("arguments", .string arguments)] else []

def finishReasonOf : String → String
  | "length" => "MAX_TOKENS"
  | "content_filter" => "SAFETY"
  | _ => "STOP"

def StreamChoice.parts (choice : StreamChoice) : List Part :=
  match choice.toolCalls with
  | some toolCalls =>
    toolCalls.map (fun toolCall => .functionCall toolCall.name (parseArguments unmarshal toolCall.arguments))
  | none => if choice.content.getD "" ≠ "" then [.text (choice.content.getD "")] else []

def StreamChoice.candidate (choice : StreamChoice) : Candidate where
  index := choice.index
  finishReason := choice.finishReason.map finishReasonOf
  parts := choice.parts unmarshal

def StreamChunk.hasContent (chunk : StreamChunk) : Bool :=
  chunk.choices.any (fun choice => choice.content.getD "" ≠ "" || !(choice.toolCalls.getD []).isEmpty)

def StreamChunk.hasFinishReason (chunk : StreamChunk) : Bool :=
  chunk.choices.any (fun choice => choice.finishReason.isSome)

def streamResponseOpenAI2Gemini (estimatePromptTokens : Int) (chunk : StreamChunk) : Option Response :=
  if !chunk.hasContent && !chunk.hasFinishReason then none
  else
    some
      { candidates := chunk.choices.map (StreamChoice.candidate unmarshal)
        promptTokenCount := (chunk.usage.map Usage.promptTokens).getD estimatePromptTokens
        candidatesTokenCount := (chunk.usage.map Usage.completionTokens).getD 0
        totalTokenCount := (chunk.usage.map Usage.totalTokens).getD estimatePromptTokens }

/-! The tool calls of a stream. -/

/-- A part of a tool call, with the choice it belongs to. -/
abbrev Fragment := Int × ToolCallResponse

/-- Fragments of one choice and one index make up one call. -/
def Fragment.key (f : Fragment) : Int × Option ℕ := (f.1, f.2.index)

def StreamChoice.fragments (choice : StreamChoice) : List Fragment :=
  (choice.toolCalls.getD []).map (fun toolCall => (choice.index, toolCall))

def fragments (chunks : List StreamChunk) : List Fragment :=
  chunks.flatMap (fun chunk => chunk.choices.flatMap StreamChoice.fragments)

abbrev Call := Int × String × Args

def wholeCall (fs : List Fragment) (key : Int × Option ℕ) : Call :=
  let own := fs.filter (fun f => f.key = key)
  (key.1, String.join (own.map (·.2.name)), parseArguments unmarshal (String.join (own.map (·.2.arguments))))

/-- The calls, each put together from all its fragments. -/
def wholeCalls (fs : List Fragment) : List Call := (fs.map Fragment.key).dedup.map (wholeCall unmarshal fs)

def Candidate.functionCalls (candidate : Candidate) : List Call :=
  candidate.parts.filterMap (fun
    | .functionCall name args => some (candidate.index, name, args)
    | .text _ => none)

def functionCalls (responses : List Response) : List Call :=
  responses.flatMap (fun response => response.candidates.flatMap Candidate.functionCalls)

variable {unmarshal}

theorem functionCalls_candidate (choice : StreamChoice) : (choice.candidate unmarshal).functionCalls =
    choice.fragments.map (fun f => (f.1, f.2.name, parseArguments unmarshal f.2.arguments)) := by
  rw [Candidate.functionCalls, StreamChoice.candidate, StreamChoice.parts, StreamChoice.fragments]
  cases choice.toolCalls with
  | some toolCalls =>
    simp [Function.comp_def]
  | none =>
    dsimp only
    split <;> rfl

theorem functionCalls_stream (estimatePromptTokens : Int) (chunks : List StreamChunk) :
    functionCalls (chunks.filterMap (streamResponseOpenAI2Gemini unmarshal estimatePromptTokens)) =
      (fragments chunks).map (fun f => (f.1, f.2.name, parseArguments unmarshal f.2.arguments)) := by
  induction chunks with
  | nil => rfl
  | cons chunk chunks ih =>
    have hchoices : (chunk.choices.map (StreamChoice.candidate unmarshal)).flatMap Candidate.functionCalls =
        (chunk.choices.flatMap StreamChoice.fragments).map
          (fun f => (f.1, f.2.name, parseArguments unmarshal f.2.arguments)) := by
      rw [flatMap_map, map_flatMap]
      exact flatMap_congr (fun choice _ => functionCalls_candidate choice)
    rw [fragments, flatMap_cons, map_append, ← fragments, ← ih, ← hchoices, filterMap_cons]
    cases hsent : streamResponseOpenAI2Gemini unmarshal estimatePromptTokens chunk with
    | none =>
      rw [streamResponseOpenAI2Gemini] at hsent
      split at hsent
      · next hskip =>
        -- A chunk that is left out has no tool calls.
        rw [Bool.and_eq_true, Bool.not_eq_true', StreamChunk.hasContent, any_eq_false] at hskip
        rw [hchoices, flatMap_eq_nil_iff.mpr, map_nil, nil_append]
        intro choice hchoice
        have hempty := hskip.1 choice hchoice
        simp only [Bool.or_eq_true, Bool.not_eq_true', isEmpty_eq_false_iff, not_or, not_not] at hempty
        rw [StreamChoice.fragments, hempty.2, map_nil]
      · cases hsent
    | some response =>
      rw [streamResponseOpenAI2Gemini] at hsent
      split at hsent
      · cases hsent
      · cases hsent
        rfl

theorem filter_key {fs : List Fragment} (h : (fs.map Fragment.key).Nodup) {f : Fragment} (hf : f ∈ fs) :
    fs.filter (fun g => g.key = f.key) = [f] := by
  have heq : fs.filter (fun g => g.key = f.key) = fs.filter (· = f) := by
    apply filter_congr
    intro g hg
    rw [decide_eq_decide]
    exact ⟨fun hkey => inj_on_of_nodup_map h hg hf hkey, congrArg _⟩
  rw [heq, filter_eq, count_eq_one_of_mem (Nodup.of_map _ h) hf]
  rfl

/-- The stream has each call once and whole exactly when every call comes in a single fragment. -/
theorem function_calls_whole_iff (unmarshal : String → Option Args) (estimatePromptTokens : Int)
    (chunks : List StreamChunk) :
    (functionCalls (chunks.filterMap (streamResponseOpenAI2Gemini unmarshal estimatePromptTokens))).Perm
        (wholeCalls unmarshal (fragments chunks)) ↔
      ((fragments chunks).map Fragment.key).Nodup := by
  rw [functionCalls_stream]
  generalize fragments chunks = fs
  constructor
  · intro hperm
    have hlength : (fs.map Fragment.key).dedup.length = (fs.map Fragment.key).length := by
      simpa [wholeCalls] using hperm.length_eq.symm
    rw [← dedup_eq_self]
    exact (dedup_sublist _).eq_of_length hlength
  · intro hnodup
    have hwhole : wholeCalls unmarshal fs =
        fs.map (fun f => (f.1, f.2.name, parseArguments unmarshal f.2.arguments)) := by
      rw [wholeCalls, dedup_eq_self.mpr hnodup, map_map]
      apply map_congr_left
      intro f hf
      simp only [Function.comp_apply, wholeCall, filter_key hnodup hf, map_cons, map_nil, join_singleton]
      rfl
    rw [hwhole]

def splitCall : List StreamChunk :=
  [⟨[{ toolCalls := some [{ index := some 0, id := "call_1", name := "weather", arguments := "[" }] }], none⟩,
    ⟨[{ toolCalls := some [{ index := some 0, arguments := "]" }] }], none⟩]

theorem split_call_sent_twice :
    ¬ (functionCalls (splitCall.filterMap (streamResponseOpenAI2Gemini (fun _ => none) 0))).Perm
      (wholeCalls (fun _ => none) (fragments splitCall)) := by
  intro hperm
  exact absurd hperm.length_eq (by decide)

end Gemini

end AiGateway.Convert
