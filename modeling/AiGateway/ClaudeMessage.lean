import AiGateway.ClaudeBlocks

/-! What a well-formed Claude stream is, and what the parts of the conversion contribute to one. -/
namespace AiGateway.Convert

open Brackets (Mark WellBracketed)
open List

def OnBlocks (es : List ClaudeEvent) : Prop := ∀ e ∈ es, e.mark?.isSome = true

/-- One message from its start to its stop: in between every block is started once, before its deltas,
and stopped once, after them. -/
def ValidStream (es : List ClaudeEvent) : Prop :=
  ∃ (id model : String) (inputTokens : Int) (body : List ClaudeEvent) (stopReason : String) (usage : ClaudeUsage),
    es = .messageStart id model inputTokens :: body ++ [.messageDelta stopReason usage, .messageStop] ∧
    OnBlocks body ∧ WellBracketed (marks body)

theorem validStream_iff (id model : String) (inputTokens : Int) {body : List ClaudeEvent} (stopReason : String)
    (usage : ClaudeUsage) (hbody : OnBlocks body) :
    ValidStream (.messageStart id model inputTokens :: body ++ [.messageDelta stopReason usage, .messageStop]) ↔
      WellBracketed (marks body) := by
  constructor
  · rintro ⟨_, _, _, _, _, _, heq, -, hw⟩
    rw [cons_append, cons_append] at heq
    have htail := (cons.inj heq).2
    rw [(append_inj' htail rfl).1]
    exact hw
  · intro hw
    exact ⟨id, model, inputTokens, body, stopReason, usage, rfl, hbody, hw⟩

variable {es : List ClaudeEvent} {info : ClaudeInfo}

theorem ValidStream.mem_messageStop (h : ValidStream es) : .messageStop ∈ es := by
  obtain ⟨_, _, _, _, _, _, rfl, -, -⟩ := h
  simp

theorem ValidStream.mem_messageDelta (h : ValidStream es) :
    ∃ stopReason usage, .messageDelta stopReason usage ∈ es := by
  obtain ⟨_, _, _, _, stopReason, usage, rfl, -, -⟩ := h
  exact ⟨stopReason, usage, by simp⟩

theorem ValidStream.start_once {e : ClaudeEvent} (h : ValidStream (e :: es)) (id model : String)
    (inputTokens : Int) : .messageStart id model inputTokens ∉ es := by
  obtain ⟨_, _, _, _, _, _, heq, hbody, -⟩ := h
  rw [cons_append] at heq
  rw [(cons.inj heq).2]
  intro hmem
  rcases mem_append.mp hmem with hmem | hmem
  · exact absurd (hbody _ hmem) Bool.false_ne_true
  · simp at hmem

theorem ValidStream.mem_messageStart (h : ValidStream es) :
    ∃ id model tokens, .messageStart id model tokens ∈ es := by
  obtain ⟨id, model, tokens, _, _, _, rfl, -, -⟩ := h
  exact ⟨id, model, tokens, by simp⟩

/-! The events of each part are events of blocks. -/

theorem forall_stopOpenBlocks {P : ClaudeEvent → Prop} (hstop : ∀ i, P (.contentBlockStop i)) (info : ClaudeInfo) :
    ∀ e ∈ stopOpenBlocks info, P e := by
  cases hl : info.lastMessagesType <;> simp only [stopOpenBlocks, hl]
  case none => exact forall_mem_nil P
  case tools => exact forall_mem_map.mpr (fun _ _ => hstop _)
  all_goals exact forall_mem_singleton.mpr (hstop _)

section
variable {P : ClaudeEvent → Prop} (hstart : ∀ i id name, P (.contentBlockStart i (.toolUse id name)))
  (hdelta : ∀ i json, P (.contentBlockDelta i (.inputJson json)))
include hstart hdelta

theorem forall_fragment (base : ℕ) (f : ToolCallResponse × ℕ) : ∀ e ∈ fragmentEvents base f, P e := by
  refine forall_mem_append.mpr ⟨?_, ?_⟩
  · split
    · exact forall_mem_singleton.mpr (hstart _ _ _)
    · exact forall_mem_nil P
  · split
    · exact forall_mem_singleton.mpr (hdelta _ _)
    · exact forall_mem_nil P

theorem forall_firstToolCall (toolCalls : List ToolCallResponse) (info : ClaudeInfo) :
    ∀ e ∈ (firstToolCall toolCalls info).2, P e := by
  cases toolCalls with
  | nil => exact forall_mem_nil P
  | cons =>
    refine forall_mem_cons.mpr ⟨hstart _ _ _, ?_⟩
    split
    · exact forall_mem_singleton.mpr (hdelta _ _)
    · exact forall_mem_nil P

end

theorem onBlocks_append {es' : List ClaudeEvent} (h : OnBlocks es) (h' : OnBlocks es') : OnBlocks (es ++ es') :=
  forall_mem_append.mpr ⟨h, h'⟩

theorem onBlocks_stopOpenBlocks : OnBlocks (stopOpenBlocks info) :=
  forall_stopOpenBlocks (fun _ => rfl) info

/-! The first chunk. -/

def firstStretch (d : Delta) : Option Stretch :=
  if d.toolCalls ≠ [] ∧ ¬ d.hasText then some ⟨[0], 0⟩ else none

theorem closes_first (p : Prop) [Decidable p] : Closes (if p then some ⟨[0], 0⟩ else none) := by
  intro s hs
  split at hs
  · cases hs
    intro o ho
    rw [Nat.le_zero.mp ho]
    exact mem_singleton_self 0
  · exact absurd hs (Option.not_mem_none _)

theorem closes_firstStretch (d : Delta) : Closes (firstStretch d) := closes_first _

def firstDelta (d : Delta) (info : ClaudeInfo) : Emit :=
  (firstToolCall d.toolCalls info).andThen (firstContent d)

section
variable (hl : info.lastMessagesType = .none)
include hl

theorem follows_firstToolCall (hi : info.index = 0) (toolCalls : List ToolCallResponse) :
    Follows (firstToolCall toolCalls info).1 (if toolCalls ≠ [] then some ⟨[0], 0⟩ else none)
      (marks (firstToolCall toolCalls info).2) := by
  cases toolCalls with
  | nil =>
    simp only [firstToolCall, Follows, hl, hi, ne_eq, not_true, if_false, true_and]
    exact Brackets.laid_nil
  | cons =>
    have hstart := Brackets.laid_nil.start (Nat.le_refl 0) id
    have hopens (i : ℕ) : (⟨[0], 0⟩ : Stretch).Opens 0 i ↔ i = 0 ∨ False := by
      constructor
      · rintro ⟨o, ho, rfl⟩
        rw [mem_singleton.mp ho]
        exact .inl rfl
      · rintro (rfl | hf)
        · exact ⟨0, mem_singleton_self 0, rfl⟩
        · exact hf.elim
    have hlaid := hstart.congr (fun i _ => hopens i)
    simp only [firstToolCall, Follows, ne_eq, cons_ne_nil, not_false_eq_true, if_true]
    refine ⟨_, rfl, rfl, ?_, ?_⟩
    · intro o ho
      exact (mem_singleton.mp ho).symm ▸ Nat.zero_le _
    · split
      · exact hlaid.delta (Nat.le_refl 0) ⟨0, mem_singleton_self 0, rfl⟩
      · exact hlaid

theorem firstToolCall_kind (toolCalls : List ToolCallResponse) {kind : LastMessageType}
    (hk : kind.single = true) : (firstToolCall toolCalls info).1.lastMessagesType ≠ kind := by
  cases toolCalls with
  | nil =>
    rw [firstToolCall, hl]
    rintro rfl
    cases hk
  | cons =>
    rintro rfl
    cases hk

theorem follows_firstDelta (hi : info.index = 0) (d : Delta) :
    Follows (firstDelta d info).1 (firstStretch d) (marks (firstDelta d info).2) := by
  have htool := follows_firstToolCall hl hi d.toolCalls
  have hfit : ToolsFit (if d.toolCalls ≠ [] then some ⟨[0], 0⟩ else none) { d with toolCalls := [] } :=
    fun _ => closes_first _
  have hnext := follows_nextContent htool hfit
  have hst : firstStretch d = follow (if d.toolCalls ≠ [] then some ⟨[0], 0⟩ else none)
    { d with toolCalls := [] } := by
    change (if d.toolCalls ≠ [] ∧ ¬ d.hasText then _ else none) = if d.hasText then none else _
    split_ifs <;> simp_all
  rw [← hst, ← marks_append, ← firstContent_eq (fun _ => firstToolCall_kind hl d.toolCalls) rfl] at hnext
  exact hnext

end

/-! What the parts leave alone. -/

structure SameMessage (info info' : ClaudeInfo) : Prop where
  done_eq : info'.done = info.done
  count_eq : info'.sendResponseCount = info.sendResponseCount
  usage_eq : info'.usage = info.usage
  reason_eq : info'.finishReason = info.finishReason

theorem SameMessage.refl (info : ClaudeInfo) : SameMessage info info := ⟨rfl, rfl, rfl, rfl⟩

theorem SameMessage.trans {a b c : ClaudeInfo} (h : SameMessage a b) (h' : SameMessage b c) : SameMessage a c :=
  ⟨h'.done_eq.trans h.done_eq, h'.count_eq.trans h.count_eq, h'.usage_eq.trans h.usage_eq,
    h'.reason_eq.trans h.reason_eq⟩

structure Inside (info : ClaudeInfo) (out : Emit) : Prop extends SameMessage info out.1 where
  onBlocks : OnBlocks out.2

theorem inside_advance (info : ClaudeInfo) : Inside info (stopOpenBlocksAndAdvance info) where
  toSameMessage := by
    cases hl : info.lastMessagesType <;> simp only [stopOpenBlocksAndAdvance, hl] <;> exact ⟨rfl, rfl, rfl, rfl⟩
  onBlocks := by
    rw [stopOpenBlocksAndAdvance_events]
    exact onBlocks_stopOpenBlocks

theorem inside_toolFragments (toolCalls : List ToolCallResponse) :
    Inside info (toolFragments toolCalls info) := by
  have hadv := inside_advance info
  have hfragments (base : ℕ) : OnBlocks (toolCalls.zipIdx.flatMap (fragmentEvents base)) :=
    forall_mem_flatMap.mpr (fun f _ => forall_fragment (fun _ _ _ => rfl) (fun _ _ => rfl) _ f)
  by_cases hl : info.lastMessagesType = .tools
  · simp only [toolFragments, hl, ne_eq, not_true, if_false]
    exact ⟨⟨rfl, rfl, rfl, rfl⟩, hfragments _⟩
  · simp only [toolFragments, hl, ne_eq, not_false_eq_true, if_true]
    exact ⟨⟨hadv.done_eq, hadv.count_eq, hadv.usage_eq, hadv.reason_eq⟩,
      onBlocks_append hadv.onBlocks (hfragments _)⟩

theorem inside_nextDelta (kind : LastMessageType) (block : ContentBlock) (delta : BlockDelta)
    : Inside info (nextDelta kind block delta info) := by
  have hadv := inside_advance info
  have hone (i : ℕ) : OnBlocks [.contentBlockDelta i delta] := forall_mem_singleton.mpr rfl
  by_cases hl : info.lastMessagesType = kind
  · simp only [nextDelta, hl, ne_eq, not_true, if_false]
    exact ⟨⟨rfl, rfl, rfl, rfl⟩, hone _⟩
  · simp only [nextDelta, hl, ne_eq, not_false_eq_true, if_true]
    exact ⟨⟨hadv.done_eq, hadv.count_eq, hadv.usage_eq, hadv.reason_eq⟩,
      onBlocks_append (onBlocks_append hadv.onBlocks (forall_mem_singleton.mpr rfl)) (hone _)⟩

theorem inside_nextContent (d : Delta) (info : ClaudeInfo) : Inside info (nextContent d info) := by
  rw [nextContent]
  split
  · exact inside_toolFragments _
  · split
    · exact inside_nextDelta _ _ _
    · split
      · exact inside_nextDelta _ _ _
      · exact ⟨SameMessage.refl info, forall_mem_nil _⟩

theorem inside_firstDelta (d : Delta) (info : ClaudeInfo) : Inside info (firstDelta d info) := by
  have htool : SameMessage info (firstToolCall d.toolCalls info).1 := by
    cases d.toolCalls with
    | nil => exact SameMessage.refl info
    | cons => exact ⟨rfl, rfl, rfl, rfl⟩
  have hcalls : OnBlocks (firstToolCall d.toolCalls info).2 :=
    forall_firstToolCall (fun _ _ _ => rfl) (fun _ _ => rfl) d.toolCalls info
  have hfirst (info' : ClaudeInfo) : Inside info' (firstContent { d with toolCalls := [] } info') := by
    have hnext := inside_nextContent { d with toolCalls := [] } info'
    rcases firstContent_cases (d := { d with toolCalls := [] }) rfl info' with h | ⟨_, h⟩
    · exact h ▸ hnext
    · rw [h]
      exact ⟨hnext.toSameMessage, forall_mem_cons.mpr ⟨rfl, hnext.onBlocks⟩⟩
  exact ⟨htool.trans (hfirst _).toSameMessage, onBlocks_append hcalls (hfirst _).onBlocks⟩

end AiGateway.Convert
