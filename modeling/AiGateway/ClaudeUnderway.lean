import AiGateway.ClaudeMessage

/-! A message under way: the chunks from the first on, up to the one with the finish reason. -/
namespace AiGateway.Convert

open Brackets (phase)
open List Run

variable (lower : String → String)

/-- The message has started with one chunk, `n` have followed, and it has not ended; if the tool calls were
right so far (`ok`), the blocks are as the state says, and otherwise a mark is out of order. -/
structure Underway (ok : Prop) (st : Option Stretch) (n : ℕ) (r : Emit) : Prop where
  not_done : r.1.done = false
  counted : r.1.sendResponseCount = n+1
  told : ∃ id model inputTokens body, r.2 = .messageStart id model inputTokens :: body ∧ OnBlocks body ∧
    (ok → Follows r.1 st (marks body)) ∧ (¬ ok → ∃ i, phase i (marks body) = .bad)

def Chunk.Ordinary (c : Chunk) : Prop := ∃ choice, c.choices = [choice] ∧ choice.finish = none

def Chunk.Finishing (c : Chunk) : Prop := ∃ choice reason, c.choices = [choice] ∧ choice.finish = some reason

variable {c : Chunk} {cs : List Chunk}

variable {info : ClaudeInfo}

theorem firstChunk_ordinary (hc : c.Ordinary) : firstChunk lower c info = ((firstDelta c.delta info).1,
      .messageStart c.id c.model info.estimatePromptTokens :: (firstDelta c.delta info).2) := by
  obtain ⟨choice, hchoices, hfinish⟩ := hc
  have hdelta : c.delta = choice.delta := by rw [Chunk.delta, hchoices]; rfl
  simp only [firstChunk, hchoices, hfinish, hdelta]
  rfl

theorem firstChunk_finishing (hc : c.Finishing) : ∃ reason, firstChunk lower c info =
      Emit.andThen ((firstDelta c.delta info).1,
        .messageStart c.id c.model info.estimatePromptTokens :: (firstDelta c.delta info).2)
        (fun info => finishMessage lower c { info with finishReason := reason }) := by
  obtain ⟨choice, reason, hchoices, hfinish⟩ := hc
  have hdelta : c.delta = choice.delta := by rw [Chunk.delta, hchoices]; rfl
  refine ⟨reason, ?_⟩
  simp only [firstChunk, hchoices, hfinish, hdelta]
  rfl

theorem nextChunk_ordinary (hc : c.Ordinary) : nextChunk lower c info = nextContent c.delta info := by
  obtain ⟨choice, hchoices, hfinish⟩ := hc
  have hdelta : c.delta = choice.delta := by rw [Chunk.delta, hchoices]; rfl
  simp only [nextChunk, hchoices, hfinish, hdelta]

theorem nextChunk_finishing (hc : c.Finishing) : ∃ reason, nextChunk lower c info =
      if c.usage = none then ({ info with finishReason := reason }, [])
      else (nextContent c.delta { info with finishReason := reason }).andThen (finishMessage lower c) := by
  obtain ⟨choice, reason, hchoices, hfinish⟩ := hc
  have hdelta : c.delta = choice.delta := by rw [Chunk.delta, hchoices]; rfl
  refine ⟨reason, ?_⟩
  simp only [nextChunk, hchoices, hfinish, hdelta]

def beginInfo (estimatePromptTokens : Int) : ClaudeInfo := { estimatePromptTokens := estimatePromptTokens }

theorem underway_first (hc : c.Ordinary) (estimate : Int) :
    Underway True (firstStretch c.delta) 0 (handleClaudeFormat lower (beginInfo estimate) c) := by
  have hhandle : handleClaudeFormat lower (beginInfo estimate) c =
      firstChunk lower c (received (beginInfo estimate) c) := rfl
  rw [hhandle, firstChunk_ordinary lower hc]
  have hsame := inside_firstDelta c.delta (received (beginInfo estimate) c)
  refine ⟨hsame.done_eq, hsame.count_eq, ?_⟩
  · exact ⟨_, _, _, _, rfl, hsame.onBlocks, fun _ => follows_firstDelta rfl rfl _, fun hn => absurd trivial hn⟩

theorem handleClaudeFormat_next (hdone : info.done = false) {n : ℕ} (hcount : info.sendResponseCount = n+1)
    : handleClaudeFormat lower info c = nextChunk lower c (received info c) := by
  rw [handleClaudeFormat, streamResponseOpenAI2Claude]
  have hne : (received info c).sendResponseCount ≠ 1 := by
    change info.sendResponseCount+1 ≠ 1
    omega
  have hdone' : (received info c).done = false := hdone
  rw [hdone', if_neg Bool.false_ne_true, if_neg hne]

theorem underway_next {ok : Prop} {st : Option Stretch} {n : ℕ} {r : Emit} (h : Underway ok st n r)
    (hc : c.Ordinary) :
    Underway (ok ∧ ToolsFit st c.delta) (follow st c.delta) (n+1)
      (r.andThen (fun info => handleClaudeFormat lower info c)) := by
  obtain ⟨hdone, hcount, id, model, tokens, body, hes, hbody, hok, hbad⟩ := h
  have hfollows (ho : ok) : Follows (received r.1 c) st (marks body) := hok ho
  have hsame := inside_nextContent c.delta (received r.1 c)
  rw [Emit.andThen, handleClaudeFormat_next lower hdone hcount, nextChunk_ordinary lower hc]
  refine ⟨?_, ?_, id, model, tokens, body ++ _, ?_, onBlocks_append hbody hsame.onBlocks, ?_, ?_⟩
  · exact hsame.done_eq.trans hdone
  · rw [hsame.count_eq, ← hcount]
    rfl
  · rw [hes, cons_append]
  · rintro ⟨ho, hfit⟩
    rw [marks_append]
    exact follows_nextContent (hfollows ho) hfit
  · intro hn
    rw [marks_append]
    by_cases ho : ok
    · exact bad_nextContent (hfollows ho) (fun hfit => hn ⟨ho, hfit⟩)
    · obtain ⟨i, hi⟩ := hbad ho
      exact ⟨i, Brackets.phase_bad_append hi _⟩

theorem underway_run {ok : Prop} {st : Option Stretch} {n : ℕ} {r : Emit} (h : Underway ok st n r)
    (hcs : ∀ c ∈ cs, c.Ordinary) :
    Underway (ok ∧ Along follow ToolsFit st (cs.map Chunk.delta)) (exec follow st (cs.map Chunk.delta))
      (n+cs.length)
      (cs.foldl (fun r chunk => r.andThen (fun info => handleClaudeFormat lower info chunk)) r) := by
  induction cs generalizing ok st n r with
  | nil =>
    obtain ⟨hdone, hcount, id, model, tokens, body, hes, hbody, hok, hbad⟩ := h
    exact ⟨hdone, hcount, id, model, tokens, body, hes, hbody, fun ho => hok ho.1,
      fun hn => hbad (fun ho => hn ⟨ho, trivial⟩)⟩
  | cons c cs ih =>
    have hnext := ih (underway_next lower h (hcs c mem_cons_self)) (fun c hc => hcs c (mem_cons_of_mem _ hc))
    have hassoc : (ok ∧ Along follow ToolsFit st ((c :: cs).map Chunk.delta)) =
        ((ok ∧ ToolsFit st c.delta) ∧ Along follow ToolsFit (follow st c.delta) (cs.map Chunk.delta)) :=
      propext and_assoc.symm
    have hlength : n+(c :: cs).length = n+1+cs.length := by
      rw [length_cons]
      omega
    rw [hassoc, hlength]
    exact hnext

def stretchOf : List Chunk → Option Stretch
  | [] => none
  | c :: cs => exec follow (firstStretch c.delta) (cs.map Chunk.delta)

def ToolsFitAll : List Chunk → Prop
  | [] => True
  | c :: cs => Along follow ToolsFit (firstStretch c.delta) (cs.map Chunk.delta)

instance : (cs : List Chunk) → Decidable (ToolsFitAll cs)
  | [] => inferInstanceAs (Decidable True)
  | _ :: _ => inferInstanceAs (Decidable (Along _ _ _ _))

/-- In every stretch of tool calls each index is announced by a name once, before its arguments, and when
the stretch ends no index up to the largest is left out. -/
def ToolsAnnounced (cs : List Chunk) : Prop := ToolsFitAll cs ∧ Closes (stretchOf cs)

instance (cs : List Chunk) : Decidable (ToolsAnnounced cs) := inferInstanceAs (Decidable (_ ∧ _))

theorem stretchOf_concat (hne : cs ≠ []) : stretchOf (cs ++ [c]) = follow (stretchOf cs) c.delta := by
  cases cs with
  | nil => exact absurd rfl hne
  | cons =>
    rw [cons_append, stretchOf, map_append, exec_append]
    rfl

theorem toolsFitAll_concat (hne : cs ≠ []) :
    ToolsFitAll (cs ++ [c]) ↔ ToolsFitAll cs ∧ ToolsFit (stretchOf cs) c.delta := by
  cases cs with
  | nil => exact absurd rfl hne
  | cons =>
    rw [cons_append, ToolsFitAll, map_append, along_append]
    exact and_congr_right (fun _ => and_iff_left trivial)

theorem underway_chunks (hne : cs ≠ []) (hcs : ∀ c ∈ cs, c.Ordinary) (estimate : Int) :
    Underway (ToolsFitAll cs) (stretchOf cs) (cs.length-1) (handleChunks lower (beginInfo estimate) cs) := by
  cases cs with
  | nil => exact absurd rfl hne
  | cons c cs =>
    have hrun := underway_run lower (underway_first lower (hcs c mem_cons_self) estimate)
      (fun c hc => hcs c (mem_cons_of_mem _ hc))
    have htrue : ToolsFitAll (c :: cs) =
        (True ∧ Along follow ToolsFit (firstStretch c.delta) (cs.map Chunk.delta)) := (true_and _).symm
    have hlength : (c :: cs).length-1 = 0+cs.length := by
      rw [length_cons]
      omega
    rw [htrue, hlength]
    exact hrun

end AiGateway.Convert
