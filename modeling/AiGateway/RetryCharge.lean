import AiGateway.Run
import AiGateway.ServingGroup

/-! What the failed attempts of a request leave for its settlement in the relay info, which all attempts
share. -/
namespace AiGateway.Pricing

open List Run

inductive RelayFormat
  | openAI
  | claude
  | gemini
  | openAIResponses
  | openAIResponsesCompaction
  | openAIAudio
  | openAIImage
  | openAIRealtime
  | rerank
  | embedding
  | task
  | mjProxy
deriving DecidableEq

structure FormatInfo where
  relayFormat : RelayFormat
  requestConversionChain : List RelayFormat
  finalRequestRelayFormat : Option RelayFormat
deriving DecidableEq

variable (format : RelayFormat)

def initRequestConversionChain : FormatInfo := ⟨format, [format], none⟩

def appendRequestConversion (info : FormatInfo) (format : RelayFormat) : FormatInfo :=
  if info.requestConversionChain.getLast? = some format then info
  else { info with requestConversionChain := info.requestConversionChain ++ [format] }

def getFinalRequestRelayFormat (info : FormatInfo) : RelayFormat :=
  info.finalRequestRelayFormat.getD (info.requestConversionChain.getLast?.getD info.relayFormat)

/-- How a request is sent: as it came, or converted to a request whose type tells its format, if
`GuessRelayFormatFromRequest` knows the type. A chat completion may be converted to the
Responses API first. -/
inductive Sent
  | passThrough
  | converted (format : Option RelayFormat)
  | viaResponses (format : Option RelayFormat)
deriving DecidableEq

def Sent.formats : Sent → List RelayFormat
  | .passThrough => []
  | .converted format => format.toList
  | .viaResponses format => .openAIResponses :: format.toList

structure Basis where
  originModelName : String
  otherRatios : String → Option ℚ

structure Attempt where
  sent : Sent
  -- The answer came to `DoResponse` of the Claude adaptor.
  claudeAdaptor : Bool
  openRouter : Bool
  -- The model of a compaction is renamed, and image handlers add ratios.
  rebase : Basis → Basis

def attempt (info : FormatInfo) (a : Attempt) : FormatInfo :=
  let info := a.sent.formats.foldl appendRequestConversion info
  if a.claudeAdaptor then { info with finalRequestRelayFormat := some .claude } else info

def formatAfter (as : List Attempt) : RelayFormat :=
  getFinalRequestRelayFormat (exec attempt (initRequestConversionChain format) as)

variable (failed : List Attempt)

/-- What the settlement reads after some failed attempts and the one that is served. -/
def servedAfter (serving : Attempt) (estimatePromptTokens : Int)
    (tools : ToolUse) : Served :=
  ⟨estimatePromptTokens, formatAfter format (failed ++ [serving]) = .claude, serving.openRouter, tools⟩

def basisAfter (basis : Basis) (as : List Attempt) : Basis := as.foldl (fun basis a => a.rebase basis) basis

def ChargedAlike (basis : Basis) (failed : List Attempt) (serving : Attempt) : Prop :=
  ∀ s ts (info : Basis → RelayInfo) estimatePromptTokens tools usage,
    settledQuota s ts (info (basisAfter basis (failed ++ [serving])))
        (.text (servedAfter format failed serving estimatePromptTokens tools) usage) =
      settledQuota s ts (info (basisAfter basis [serving]))
        (.text (servedAfter format [] serving estimatePromptTokens tools) usage)

def lastFormat (as : List Attempt) : RelayFormat :=
  (as.flatMap (fun a => a.sent.formats)).getLast?.getD format

/-- The Claude adaptor answers; or no failed attempt came to its `DoResponse`, unless the request
is sent in that format anyway, and the request is converted, unless the failed attempts left a
format that is read in the same way. -/
def SameDialect (serving : Attempt) : Prop :=
  serving.claudeAdaptor = true ∨ if ∃ a ∈ failed, a.claudeAdaptor = true then
    lastFormat format [serving] = .claude
    else serving.sent.formats ≠ [] ∨ (lastFormat format failed = .claude ↔ format = .claude)

variable (info : FormatInfo)

theorem getLast?_append (formats : List RelayFormat) :
    (formats.foldl appendRequestConversion info).requestConversionChain.getLast? =
      formats.getLast?.or info.requestConversionChain.getLast? := by
  induction formats generalizing info with
  | nil => rfl
  | cons f formats ih =>
    have hlast : (appendRequestConversion info f).requestConversionChain.getLast? = some f := by
      unfold appendRequestConversion
      split
      · assumption
      · exact getLast?_concat
    rw [foldl_cons, ih, hlast, getLast?_cons]
    cases formats.getLast? <;> rfl

theorem foldl_append_relay (formats : List RelayFormat) :
    (formats.foldl appendRequestConversion info).relayFormat = info.relayFormat ∧
      (formats.foldl appendRequestConversion info).finalRequestRelayFormat = info.finalRequestRelayFormat := by
  induction formats generalizing info with
  | nil => exact ⟨rfl, rfl⟩
  | cons f formats ih =>
    rw [foldl_cons, (ih _).1, (ih _).2, appendRequestConversion]
    split <;> exact ⟨rfl, rfl⟩

/-- What some attempts leave: the Claude adaptor goes before the chain, and of the chain only the
last format counts. -/
theorem exec_attempt (as : List Attempt) : (exec attempt info as).relayFormat = info.relayFormat ∧
    (exec attempt info as).requestConversionChain.getLast? =
      (as.flatMap (fun a => a.sent.formats)).getLast?.or info.requestConversionChain.getLast? ∧
    (exec attempt info as).finalRequestRelayFormat =
      if ∃ a ∈ as, a.claudeAdaptor = true then some .claude else info.finalRequestRelayFormat := by
  induction as generalizing info with
  | nil => simp
  | cons a as ih =>
    obtain ⟨hrelay, hchain, hfinal⟩ := ih (attempt info a)
    have hstep : (attempt info a).relayFormat = info.relayFormat ∧ (attempt info a).requestConversionChain.getLast? =
          a.sent.formats.getLast?.or info.requestConversionChain.getLast? ∧
        (attempt info a).finalRequestRelayFormat =
          if a.claudeAdaptor = true then some .claude else info.finalRequestRelayFormat := by
      unfold attempt
      have hsame := foldl_append_relay info a.sent.formats
      split <;> exact ⟨hsame.1, getLast?_append info _, by simp [hsame.2, *]⟩
    rw [exec_cons, hrelay, hchain, hfinal, hstep.1, hstep.2.1, hstep.2.2, List.flatMap_cons, List.getLast?_append,
      Option.or_assoc]
    refine ⟨rfl, rfl, ?_⟩
    by_cases ha : a.claudeAdaptor = true <;> simp [ha]

variable (format : RelayFormat)

theorem formatAfter_eq (as : List Attempt) :
    formatAfter format as = if ∃ a ∈ as, a.claudeAdaptor = true then .claude else lastFormat format as := by
  obtain ⟨hrelay, hchain, hfinal⟩ := exec_attempt (initRequestConversionChain format) as
  unfold formatAfter getFinalRequestRelayFormat lastFormat
  rw [hrelay, hchain, hfinal]
  split
  · rfl
  · cases (as.flatMap (fun a => a.sent.formats)).getLast? <;> rfl

theorem lastFormat_concat (serving : Attempt) :
    lastFormat format (failed ++ [serving]) = lastFormat (lastFormat format failed) [serving] := by
  simp only [lastFormat, List.flatMap_append, List.getLast?_append, List.flatMap_singleton]
  cases serving.sent.formats.getLast? <;> rfl

theorem sameDialect_iff (serving : Attempt) :
    SameDialect format failed serving ↔
      (formatAfter format (failed ++ [serving]) = .claude ↔ formatAfter format ([] ++ [serving]) = .claude) := by
  simp only [formatAfter_eq, lastFormat_concat, SameDialect, mem_append, mem_singleton, nil_append,
    or_and_right, exists_or, exists_eq_left]
  by_cases hs : serving.claudeAdaptor = true
  · simp [hs]
  · by_cases hf : ∃ a ∈ failed, a.claudeAdaptor = true
    · simp [hs, hf]
    · simp only [hs, hf, false_or, if_false, Bool.false_eq_true]
      cases hl : serving.sent.formats with
      | nil => simp [lastFormat, hl]
      | cons => simp [lastFormat, hl, getLast?_cons]

/-- Five times the price for a token that is written to the cache for five minutes. -/
def cacheWriteInfo : RelayInfo :=
  { RelayLoop.sampleInfo "chat" with
    priceData :=
      { modelRatio := 1, cacheCreationRatio := 1, cacheCreation5mRatio := 5, groupRatioInfo := ⟨1, -1, false⟩ } }

def cacheWriteUsage : Usage :=
  { promptTokens := 2, completionTokens := 0, totalTokens := 2, cachedCreationTokens := 1
    claudeCacheCreation5mTokens := 1, usageSource := "upstream" }

def cacheWriteCharge (sv : Served) : Int :=
  settledQuota RelayLoop.sampleSetting RelayLoop.sampleTools cacheWriteInfo (.text sv (some cacheWriteUsage))

theorem cacheWriteCharge_eq : ∀ claude openRouter : Bool, cacheWriteCharge ⟨0, claude, openRouter, {}⟩ =
    if claude then if openRouter then 6 else 7 else 2 := by
  decide +kernel

/-- After failed attempts that leave the model name and the ratios alone, a request is charged
like its serving attempt alone, by ratio, by price and by expression, exactly if the usage is
read in the same dialect. -/
theorem charged_alike_iff (format : RelayFormat) (basis : Basis) (failed : List Attempt) (serving : Attempt)
    (hbasis : basisAfter basis (failed ++ [serving]) = basisAfter basis [serving]) :
    ChargedAlike format basis failed serving ↔ SameDialect format failed serving := by
  rw [sameDialect_iff]
  constructor
  · intro h
    have hcharge : cacheWriteCharge (servedAfter format failed serving 0 {}) =
        cacheWriteCharge (servedAfter format [] serving 0 {}) := h _ _ (fun _ => cacheWriteInfo) 0 {} _
    simp only [servedAfter, cacheWriteCharge_eq] at hcharge
    by_cases h₁ : formatAfter format (failed ++ [serving]) = .claude <;>
      by_cases h₂ : formatAfter format ([] ++ [serving]) = .claude <;>
      simp only [h₁, h₂, decide_true, decide_false, if_true, if_false, Bool.false_eq_true] at hcharge ⊢
    · split at hcharge <;> omega
    · split at hcharge <;> omega
  · intro h s ts info estimatePromptTokens tools usage
    simp only [servedAfter, h, hbasis]

def claudeFailure (answered : Bool) : Attempt := ⟨.converted (some .claude), answered, false, id⟩

def openAIAttempt (sent : Sent) : Attempt := ⟨sent, false, false, id⟩

/-- A Claude channel that does not answer leaves nothing for one that converts the request. -/
theorem charged_alike_unanswered :
    ChargedAlike .openAI ⟨"chat", fun _ => none⟩ [claudeFailure false]
      (openAIAttempt (.converted (some .openAI))) :=
  (charged_alike_iff .openAI ⟨"chat", fun _ => none⟩ [claudeFailure false] _ rfl).mpr
    (.inr (by simp [claudeFailure, openAIAttempt, Sent.formats]))

/-- A chat completion that fails on a Claude channel, with an error of status 200 or before a body that is passed
through, is served by an OpenAI channel. -/
theorem claude_failure_changes_charge :
    cacheWriteCharge (servedAfter .openAI [claudeFailure true] (openAIAttempt (.converted (some .openAI))) 0 {}) = 7 ∧
    cacheWriteCharge (servedAfter .openAI [] (openAIAttempt (.converted (some .openAI))) 0 {}) = 2 ∧
    cacheWriteCharge (servedAfter .openAI [claudeFailure false] (openAIAttempt .passThrough) 0 {}) = 7 ∧
    cacheWriteCharge (servedAfter .openAI [] (openAIAttempt .passThrough) 0 {}) = 2 := by
  decide +kernel

end AiGateway.Pricing
