import AiGateway.ClaudeUnderway

/-! What of the chat stream arrives in the Claude stream: the texts. -/
namespace AiGateway.Convert

open List Option

def ClaudeEvent.text? : ClaudeEvent → Option String
  | .contentBlockDelta _ (.text t) => some t
  | _ => none

def ClaudeEvent.thinking? : ClaudeEvent → Option String
  | .contentBlockDelta _ (.thinking t) => some t
  | _ => none

def texts (es : List ClaudeEvent) : String := String.join (es.filterMap ClaudeEvent.text?)

def thinkings (es : List ClaudeEvent) : String := String.join (es.filterMap ClaudeEvent.thinking?)

theorem texts_append (es es' : List ClaudeEvent) : texts (es ++ es') = texts es ++ texts es' := by
  rw [texts, filterMap_append, String.join_append]
  rfl

theorem thinkings_append (es es' : List ClaudeEvent) : thinkings (es ++ es') = thinkings es ++ thinkings es' := by
  rw [thinkings, filterMap_append, String.join_append]
  rfl

def ClaudeEvent.quiet : ClaudeEvent → Bool
  | .contentBlockStart _ _ | .contentBlockDelta _ _ => false
  | _ => true

def AllQuiet (es : List ClaudeEvent) : Prop := ∀ e ∈ es, e.quiet = true

variable {es : List ClaudeEvent} {c : Chunk} {info : ClaudeInfo}

theorem allQuiet_append {es' : List ClaudeEvent} (h : AllQuiet es) (h' : AllQuiet es') : AllQuiet (es ++ es') :=
  forall_mem_append.mpr ⟨h, h'⟩

theorem filterMap_quiet {α : Type*} {read : ClaudeEvent → Option α}
    (hread : ∀ e, e.quiet = true → read e = none)
    (h : AllQuiet es) : es.filterMap read = [] := by
  rw [filterMap_eq_nil_iff]
  intro e he
  exact hread e (h e he)

theorem texts_quiet (h : AllQuiet es) : texts es = "" := by
  have hread (e : ClaudeEvent) (he : e.quiet = true) : e.text? = none := by
    cases e <;> first | rfl | cases he
  rw [texts, filterMap_quiet hread h]
  rfl

theorem thinkings_quiet (h : AllQuiet es) : thinkings es = "" := by
  have hread (e : ClaudeEvent) (he : e.quiet = true) : e.thinking? = none := by
    cases e <;> first | rfl | cases he
  rw [thinkings, filterMap_quiet hread h]
  rfl

theorem allQuiet_stopOpenBlocks : AllQuiet (stopOpenBlocks info) :=
  forall_stopOpenBlocks (fun _ => rfl) info

theorem allQuiet_advance : AllQuiet (stopOpenBlocksAndAdvance info).2 := by
  rw [stopOpenBlocksAndAdvance_events]
  exact allQuiet_stopOpenBlocks

variable (lower : String → String)

theorem allQuiet_finishMessage : AllQuiet (finishMessage lower c info).2 := by
  rw [finishMessage]
  apply allQuiet_append
  · apply allQuiet_append allQuiet_stopOpenBlocks
    intro e he
    rw [mem_toList, map_eq_some_iff] at he
    obtain ⟨_, -, rfl⟩ := he
    rfl
  · exact forall_mem_singleton.mpr rfl

theorem allQuiet_nil : AllQuiet [] := fun _ he => absurd he not_mem_nil

theorem allQuiet_usageChunk : AllQuiet (usageChunk lower c info).2 := by
  rw [usageChunk]
  split
  · exact allQuiet_nil
  · apply allQuiet_append allQuiet_stopOpenBlocks
    exact forall_mem_cons.mpr ⟨rfl, forall_mem_singleton.mpr rfl⟩

/-! What one chunk is told as. -/

def Chunk.finish (c : Chunk) : Option String := c.choices.head?.bind Choice.finish

/-- Nothing of the chunk is told: the message has ended, or a finish reason comes without the usage in a
chunk that is not the first. -/
def skips (info : ClaudeInfo) (c : Chunk) : Bool :=
  info.done || (info.sendResponseCount ≠ 0 && c.finish.isSome && c.usage.isNone)

structure SameBlocks (info info' : ClaudeInfo) : Prop where
  type_eq : info'.lastMessagesType = info.lastMessagesType
  index_eq : info'.index = info.index
  base_eq : info'.toolCallBaseIndex = info.toolCallBaseIndex
  max_eq : info'.toolCallMaxIndexOffset = info.toolCallMaxIndexOffset

theorem SameBlocks.refl (info : ClaudeInfo) : SameBlocks info info := ⟨rfl, rfl, rfl, rfl⟩

/-- How a chunk is taken: passed over, as the first one or as one that follows. Behind what is told of it
come quiet events only, and then the message may be over. -/
inductive Taken (info : ClaudeInfo) (c : Chunk) (r : Emit) : Prop
  | skipped (hskip : skips info c = true) (hes : r.2 = []) (hsame : SameBlocks info r.1) (hdone : r.1.done = info.done)
  | first (hskip : skips info c = false) (hcount : info.sendResponseCount = 0) (start : ClaudeEvent)
      (tail : List ClaudeEvent) (hstart : start.quiet = true) (hquiet : AllQuiet tail)
      (hes : r.2 = start :: (firstDelta c.delta (received info c)).2 ++ tail)
      (hstate : r.1.done = false → SameBlocks (firstDelta c.delta (received info c)).1 r.1)
  | next (hskip : skips info c = false) (hcount : info.sendResponseCount ≠ 0) (info' : ClaudeInfo)
      (tail : List ClaudeEvent) (hsame : SameBlocks info info') (hquiet : AllQuiet tail)
      (hes : r.2 = (nextContent c.delta info').2 ++ tail)
      (hstate : r.1.done = false → SameBlocks (nextContent c.delta info').1 r.1)

theorem nextContent_empty {d : Delta} (h : d = {}) : nextContent d info = (info, []) := by
  subst h
  rfl

theorem Chunk.one_choice (hone : c.choices.length ≤ 1) :
    (c.choices = [] ∧ c.delta = {} ∧ c.finish = none) ∨ (c.Ordinary ∧ c.finish = none) ∨
      (c.Finishing ∧ c.finish.isSome = true) := by
  match hchoices : c.choices, hone with
  | [], _ => exact .inl ⟨rfl, by rw [Chunk.delta, hchoices]; rfl, by rw [Chunk.finish, hchoices]; rfl⟩
  | [choice], _ =>
    have hfinish : c.finish = choice.finish := by rw [Chunk.finish, hchoices]; rfl
    cases hreason : choice.finish with
    | none => exact .inr (.inl ⟨⟨choice, hchoices, hreason⟩, by rw [hfinish, hreason]⟩)
    | some reason => exact .inr (.inr ⟨⟨choice, reason, hchoices, hreason⟩, by rw [hfinish, hreason]; rfl⟩)

theorem handleClaudeFormat_done (hdone : info.done = true) :
    handleClaudeFormat lower info c = (received info c, []) := by
  have hdone' : (received info c).done = true := hdone
  rw [handleClaudeFormat, streamResponseOpenAI2Claude, if_pos hdone']

theorem handleClaudeFormat_first (hdone : info.done = false) (hcount : info.sendResponseCount = 0)
    : handleClaudeFormat lower info c = firstChunk lower c (received info c) := by
  have hdone' : (received info c).done = false := hdone
  have hone : (received info c).sendResponseCount = 1 := congrArg (·+1) hcount
  rw [handleClaudeFormat, streamResponseOpenAI2Claude, hdone', if_neg Bool.false_ne_true, if_pos hone]

theorem taken_first (hdone : info.done = false) (hcount : info.sendResponseCount = 0)
    (hone : c.choices.length ≤ 1) : Taken info c (handleClaudeFormat lower info c) := by
  have hskip : skips info c = false := by
    rw [skips, hdone, hcount]
    rfl
  rw [handleClaudeFormat_first lower hdone hcount]
  rcases Chunk.one_choice hone with ⟨hchoices, hdelta, -⟩ | ⟨hord, -⟩ | ⟨hfin, -⟩
  · refine .first hskip hcount (.messageStart c.id c.model info.estimatePromptTokens) [] rfl
      allQuiet_nil ?_ (fun _ => ?_)
    · simp only [firstChunk, hchoices, hdelta]
      rfl
    · simp only [firstChunk, hchoices, hdelta]
      exact SameBlocks.refl _
  · rw [firstChunk_ordinary lower hord]
    exact .first hskip hcount _ [] rfl allQuiet_nil (append_nil _).symm
      (fun _ => SameBlocks.refl _)
  · obtain ⟨_, hfirst⟩ := firstChunk_finishing lower hfin
    rw [hfirst, Emit.andThen]
    refine .first hskip hcount _ _ rfl (allQuiet_finishMessage lower) rfl ?_
    intro hd
    cases hd

theorem taken_next (hdone : info.done = false) (hcount : info.sendResponseCount ≠ 0)
    (hone : c.choices.length ≤ 1) : Taken info c (handleClaudeFormat lower info c) := by
  obtain ⟨_, hn⟩ := Nat.exists_eq_succ_of_ne_zero hcount
  have hsame : SameBlocks info (received info c) := ⟨rfl, rfl, rfl, rfl⟩
  have hskips : skips info c = (c.finish.isSome && c.usage.isNone) := by
    rw [skips, hdone, decide_eq_true hcount]
    rfl
  rw [handleClaudeFormat_next lower hdone hn]
  rcases Chunk.one_choice hone with ⟨hchoices, hdelta, hfinish⟩ | ⟨hord, hfinish⟩ | ⟨hfin, hfinish⟩
  · have hnext : nextChunk lower c (received info c) = usageChunk lower c (received info c) := by
      simp only [nextChunk, hchoices]
    rw [hnext]
    refine .next (by rw [hskips, hfinish]; rfl) hcount (received info c) (usageChunk lower c (received info c)).2 hsame
      (allQuiet_usageChunk lower) ?_ ?_
    · rw [nextContent_empty hdelta]
      rfl
    · intro hd
      rw [nextContent_empty hdelta]
      rw [usageChunk] at hd ⊢
      cases hu : c.usage.or (received info c).usage with
      | none => exact SameBlocks.refl _
      | some =>
        rw [hu] at hd
        cases hd
  · rw [nextChunk_ordinary lower hord]
    exact .next (by rw [hskips, hfinish]; rfl) hcount (received info c) [] hsame
      allQuiet_nil (append_nil _).symm (fun _ => SameBlocks.refl _)
  · obtain ⟨reason, hnext⟩ := nextChunk_finishing lower hfin
    rw [hnext]
    cases hu : c.usage with
    | none =>
      rw [if_pos rfl]
      exact .skipped (by rw [hskips, hfinish, hu]; rfl) rfl ⟨rfl, rfl, rfl, rfl⟩ rfl
    | some u =>
      rw [if_neg (some_ne_none u), Emit.andThen]
      refine .next (by rw [hskips, hfinish, hu]; rfl) hcount { received info c with finishReason := reason } _
        ⟨rfl, rfl, rfl, rfl⟩ (allQuiet_finishMessage lower) rfl ?_
      intro hd
      cases hd

theorem taken (info : ClaudeInfo) (hone : c.choices.length ≤ 1) : Taken info c (handleClaudeFormat lower info c) := by
  cases hdone : info.done with
  | true =>
    rw [handleClaudeFormat_done lower hdone]
    exact .skipped (by rw [skips, hdone]; rfl) rfl ⟨rfl, rfl, rfl, rfl⟩ rfl
  | false =>
    by_cases hcount : info.sendResponseCount = 0
    · exact taken_first lower hdone hcount hone
    · exact taken_next lower hdone hcount hone

/-! Text and reasoning. -/

def said (es : List ClaudeEvent) : String × String := (texts es, thinkings es)

theorem said_append_quiet {tail : List ClaudeEvent} (h : AllQuiet tail) : said (es ++ tail) = said es := by
  rw [said, texts_append, thinkings_append, texts_quiet h, thinkings_quiet h, String.append_empty, String.append_empty]
  rfl

theorem said_quiet_append {head : List ClaudeEvent} (h : AllQuiet head) : said (head ++ es) = said es := by
  rw [said, texts_append, thinkings_append, texts_quiet h, thinkings_quiet h, String.empty_append, String.empty_append]
  rfl

theorem said_nextDelta (kind : LastMessageType) (block : ContentBlock) (delta : BlockDelta) :
    said (nextDelta kind block delta info).2 = said [.contentBlockDelta 0 delta] := by
  by_cases hl : info.lastMessagesType = kind
  · simp only [nextDelta, hl, ne_eq, not_true, if_false, nil_append]
    cases delta <;> rfl
  · simp only [nextDelta, hl, ne_eq, not_false_eq_true, if_true]
    rw [append_assoc, said_quiet_append allQuiet_advance]
    cases delta <;> rfl

def OnTools (es : List ClaudeEvent) : Prop := ∀ e ∈ es, e.text? = none ∧ e.thinking? = none

theorem said_onTools (h : OnTools es) : said es = ("", "") := by
  rw [said, texts, thinkings, filterMap_eq_nil_iff.mpr (fun e he => (h e he).1),
    filterMap_eq_nil_iff.mpr (fun e he => (h e he).2)]
  rfl

theorem said_toolFragments (toolCalls : List ToolCallResponse) :
    said (toolFragments toolCalls info).2 = ("", "") := by
  have hfragments (base : ℕ) : OnTools (toolCalls.zipIdx.flatMap (fragmentEvents base)) :=
    forall_mem_flatMap.mpr (fun f _ => forall_fragment (fun _ _ _ => ⟨rfl, rfl⟩) (fun _ _ => ⟨rfl, rfl⟩) base f)
  by_cases hl : info.lastMessagesType = .tools
  · simp only [toolFragments, hl, ne_eq, not_true, if_false, nil_append]
    exact said_onTools (hfragments _)
  · simp only [toolFragments, hl, ne_eq, not_false_eq_true, if_true]
    rw [said_quiet_append allQuiet_advance]
    exact said_onTools (hfragments _)

theorem said_text (i : ℕ) (t : String) : said [.contentBlockDelta i (.text t)] = (t, "") :=
  Prod.ext (join_singleton t) rfl

theorem said_thinking (i : ℕ) (t : String) : said [.contentBlockDelta i (.thinking t)] = ("", t) :=
  Prod.ext rfl (join_singleton t)

def Delta.spoken (d : Delta) : String × String :=
  if d.getReasoningContent ≠ "" then ("", d.getReasoningContent) else (d.getContentString, "")

theorem said_nextContent (d : Delta) :
    said (nextContent d info).2 = if d.toolCalls ≠ [] then ("", "") else d.spoken := by
  rw [nextContent]
  split
  · exact said_toolFragments _
  · rw [Delta.spoken]
    split
    · rw [said_nextDelta, said_thinking]
    · split
      · rw [said_nextDelta, said_text]
      · next htext =>
        rw [not_not] at htext
        rw [htext]
        rfl

theorem said_firstDelta (d : Delta) : said (firstDelta d info).2 = d.spoken := by
  have htool : OnTools (firstToolCall d.toolCalls info).2 :=
    forall_firstToolCall (fun _ _ _ => ⟨rfl, rfl⟩) (fun _ _ => ⟨rfl, rfl⟩) d.toolCalls info
  have hzero := said_onTools htool
  have hcontent : said (firstContent { d with toolCalls := [] } (firstToolCall d.toolCalls info).1).2 = d.spoken := by
    have hnext : said (nextContent { d with toolCalls := [] } (firstToolCall d.toolCalls info).1).2 = d.spoken :=
      said_nextContent _
    rcases firstContent_cases (d := { d with toolCalls := [] }) rfl
      (firstToolCall d.toolCalls info).1 with h | ⟨_, h⟩ <;>
      rw [h] <;> exact hnext
  rw [said, Prod.mk.injEq] at hzero
  rw [← hcontent, firstDelta, Emit.andThen, said, texts_append, thinkings_append, hzero.1, hzero.2,
    String.empty_append,
    String.empty_append]
  rfl

def spokenOf (info : ClaudeInfo) (c : Chunk) : String × String :=
  if skips info c then ("", "")
  else if info.sendResponseCount ≠ 0 ∧ c.delta.toolCalls ≠ [] then ("", "")
  else c.delta.spoken

theorem said_handle (info : ClaudeInfo) (hone : c.choices.length ≤ 1) :
    said (handleClaudeFormat lower info c).2 = spokenOf info c := by
  rcases taken lower info hone with ⟨hskip, hes, -, -⟩ | ⟨hskip, hcount, start, tail, hstart, hquiet, hes, -⟩ |
    ⟨hskip, hcount, info', tail, -, hquiet, hes, -⟩
  · rw [hes, spokenOf, if_pos hskip]
    rfl
  · have hhead : AllQuiet [start] := fun e he => (mem_singleton.mp he).symm ▸ hstart
    rw [hes, said_append_quiet hquiet, ← singleton_append, said_quiet_append hhead, said_firstDelta, spokenOf,
      if_neg (by rw [hskip]; exact Bool.false_ne_true), if_neg (fun h => h.1 hcount)]
  · rw [hes, said_append_quiet hquiet, said_nextContent]
    simp only [spokenOf, hskip, Bool.false_eq_true, if_false, hcount, ne_eq, not_false_eq_true, true_and]

/-- Nothing of the chunk's text and reasoning is dropped: it is not passed over, does not have both, and
has none beside tool calls, unless it is the first. -/
def TextKept (info : ClaudeInfo) (c : Chunk) : Prop :=
  if skips info c then ¬ c.delta.hasText
  else if info.sendResponseCount ≠ 0 ∧ c.delta.toolCalls ≠ [] then ¬ c.delta.hasText
  else c.delta.getReasoningContent = "" ∨ c.delta.getContentString = ""

instance (info : ClaudeInfo) (c : Chunk) : Decidable (TextKept info c) :=
  inferInstanceAs (Decidable (ite _ _ _))

theorem Delta.not_hasText_iff (d : Delta) :
    ¬ d.hasText ↔ ("", "") = (d.getContentString, d.getReasoningContent) := by
  rw [Delta.hasText, not_or, not_not, not_not, Prod.mk.injEq]
  exact ⟨fun h => ⟨h.2.symm, h.1.symm⟩, fun h => ⟨h.2.symm, h.1.symm⟩⟩

theorem TextKept.spokenOf {info : ClaudeInfo} {c : Chunk} (h : TextKept info c) :
    spokenOf info c = (c.delta.getContentString, c.delta.getReasoningContent) := by
  rw [TextKept] at h
  rw [Convert.spokenOf]
  split_ifs at h ⊢
  · exact c.delta.not_hasText_iff.mp h
  · exact c.delta.not_hasText_iff.mp h
  · rw [Delta.spoken]
    split
    · next hreason => rw [h.resolve_left hreason]
    · next hreason => rw [not_not.mp hreason]

def afterChunk (info : ClaudeInfo) (c : Chunk) : ClaudeInfo := (handleClaudeFormat lower info c).1

def toldOf (info : ClaudeInfo) (cs : List Chunk) : List ClaudeEvent :=
  Run.trace (afterChunk lower) (fun info c => (handleClaudeFormat lower info c).2) info cs

theorem said_toldOf_cons (info : ClaudeInfo) (hone : c.choices.length ≤ 1) (cs : List Chunk) :
    texts (toldOf lower info (c :: cs)) = (spokenOf info c).1 ++ texts (toldOf lower (afterChunk lower info c) cs) ∧
      thinkings (toldOf lower info (c :: cs)) =
        (spokenOf info c).2 ++ thinkings (toldOf lower (afterChunk lower info c) cs) := by
  have hsaid := said_handle lower info hone
  rw [said, Prod.ext_iff] at hsaid
  rw [← hsaid.1, ← hsaid.2, ← texts_append, ← thinkings_append]
  exact ⟨rfl, rfl⟩

theorem said_kept (info : ClaudeInfo) (cs : List Chunk) (hcs : ∀ c ∈ cs, c.choices.length ≤ 1)
    (hkept : Run.Along (afterChunk lower) TextKept info cs) :
    texts (toldOf lower info cs) = contents cs ∧ thinkings (toldOf lower info cs) = reasonings cs := by
  induction cs generalizing info with
  | nil => exact ⟨rfl, rfl⟩
  | cons c cs ih =>
    have hcons := said_toldOf_cons lower info (hcs c mem_cons_self) cs
    have hrest := ih (afterChunk lower info c) (fun c hc => hcs c (mem_cons_of_mem _ hc)) hkept.2
    rw [hcons.1, hcons.2, contents_cons, reasonings_cons, hkept.1.spokenOf, hrest.1, hrest.2]
    exact ⟨rfl, rfl⟩

end AiGateway.Convert
