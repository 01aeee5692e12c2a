import AiGateway.ClaudeUnderway

/-! Which chat streams become a well-formed Claude stream. -/
namespace AiGateway.Convert

open Brackets (phase)
open List Option

variable (lower : String → String)

/-! The end of the message. -/

variable {st : Option Stretch} {info : ClaudeInfo} {ok : Prop}

theorem valid_end {body : List ClaudeEvent} (hbody : OnBlocks body)
    (hok : ok → Follows info st (marks body)) (hbad : ¬ ok → ∃ i, phase i (marks body) = .bad)
    (id model : String) (inputTokens : Int) (stopReason : String) (usage : ClaudeUsage) :
    ValidStream (.messageStart id model inputTokens :: (body ++ stopOpenBlocks info) ++
      [.messageDelta stopReason usage, .messageStop]) ↔ ok ∧ Closes st := by
  rw [validStream_iff id model inputTokens stopReason usage (onBlocks_append hbody onBlocks_stopOpenBlocks),
    marks_append]
  constructor
  · intro hw
    by_cases ho : ok
    · refine ⟨ho, ?_⟩
      by_contra hc
      exact Brackets.not_wellBracketed (bad_stop (hok ho) hc) hw
    · obtain ⟨i, hi⟩ := hbad ho
      exact absurd hw (Brackets.not_wellBracketed ⟨i, Brackets.phase_bad_append hi _⟩)
  · rintro ⟨ho, hc⟩
    exact (laid_stop (hok ho) hc).wellBracketed

theorem valid_finishing {n : ℕ} {r : Emit} (h : Underway ok st n r) {c : Chunk} (hc : c.Finishing)
    (hu : c.usage.isSome = true) (hinfo : ∀ st ms, Follows r.1 st ms → Follows info st ms) :
    ValidStream (r.2 ++ (nextChunk lower c info).2) ↔ (ok ∧ ToolsFit st c.delta) ∧
      Closes (follow st c.delta) := by
  obtain ⟨-, -, id, model, tokens, body, hes, hbody, hok, hbad⟩ := h
  obtain ⟨reason, hnext⟩ := nextChunk_finishing lower hc
  obtain ⟨u, hu⟩ := isSome_iff_exists.mp hu
  have hfollows (ho : ok) : Follows { info with finishReason := reason } st (marks body) := hinfo st _ (hok ho)
  have hbody' := onBlocks_append hbody (inside_nextContent c.delta { info with finishReason := reason }).onBlocks
  have hok' (h : ok ∧ ToolsFit st c.delta) :
      Follows (nextContent c.delta { info with finishReason := reason }).1 (follow st c.delta)
        (marks (body ++ (nextContent c.delta { info with finishReason := reason }).2)) := by
    rw [marks_append]
    exact follows_nextContent (hfollows h.1) h.2
  have hbad' (h : ¬ (ok ∧ ToolsFit st c.delta)) :
      ∃ i, phase i (marks (body ++ (nextContent c.delta { info with finishReason := reason }).2)) = .bad := by
    rw [marks_append]
    by_cases ho : ok
    · exact bad_nextContent (hfollows ho) (fun hfit => h ⟨ho, hfit⟩)
    · obtain ⟨i, hi⟩ := hbad ho
      exact ⟨i, Brackets.phase_bad_append hi _⟩
  have hend := valid_end hbody' hok' hbad' id model tokens
    (stopReasonOpenAI2Claude lower (nextContent c.delta { info with finishReason := reason }).1.finishReason)
    (buildClaudeUsageFromOpenAIUsage u)
  rw [← hend, hnext, if_neg (by rw [hu]; exact some_ne_none u), Emit.andThen, finishMessage, hu, hes]
  simp only [some_or, map_some, toList_some, append_assoc, cons_append, nil_append]

theorem valid_usageChunk {n : ℕ} {r : Emit} (h : Underway ok st n r) {c : Chunk} (hc : c.choices = [])
    (hu : c.usage.isSome = true) (hinfo : ∀ st ms, Follows r.1 st ms → Follows info st ms) :
    ValidStream (r.2 ++ (nextChunk lower c info).2) ↔ ok ∧ Closes st := by
  obtain ⟨-, -, id, model, tokens, _, hes, hbody, hok, hbad⟩ := h
  obtain ⟨u, hu⟩ := isSome_iff_exists.mp hu
  have hend := valid_end hbody (fun ho => hinfo st _ (hok ho)) hbad id model tokens
    (if stopReasonOpenAI2Claude lower info.finishReason = "" then "end_turn"
      else stopReasonOpenAI2Claude lower info.finishReason) (buildClaudeUsageFromOpenAIUsage u)
  rw [← hend, hes]
  simp only [nextChunk, hc, usageChunk, hu, some_or, append_assoc, cons_append]

/-! From the first chunk to the last. -/

theorem handleFinalResponse_next (hdone : info.done = false) (hcount : info.sendResponseCount ≠ 1)
    (usage : Usage) (c : Chunk) :
    (handleFinalResponse lower usage info c).2 = (nextChunk lower c { info with usage := some usage }).2 := by
  rw [handleFinalResponse, streamResponseOpenAI2Claude]
  simp only [hdone, hcount, if_false, Bool.false_eq_true]

theorem handleFinalResponse_done (hdone : info.done = true) (usage : Usage) (c : Chunk) :
    (handleFinalResponse lower usage info c).2 = [] := by
  rw [handleFinalResponse, streamResponseOpenAI2Claude]
  simp only [hdone, if_true]

theorem oaiStreamHandler_concat (usage : List Chunk → Usage) (cs : List Chunk) (c : Chunk) :
    oaiStreamHandler lower usage info (cs ++ [c]) = (handleChunks lower info cs).2 ++
      (handleFinalResponse lower (usage (cs ++ [c])) (handleChunks lower info cs).1 c).2 := by
  rw [oaiStreamHandler, getLast?_concat, dropLast_concat]
  rfl

theorem handleChunks_concat (cs : List Chunk) (c : Chunk) : handleChunks lower info (cs ++ [c]) =
      (handleChunks lower info cs).andThen (fun info => handleClaudeFormat lower info c) := by
  rw [handleChunks, foldl_append]
  rfl

/-- Ordinary chunks, then one with a finish reason, then nothing or one with the usage alone. -/
structure EndsNormally (pre : List Chunk) (f : Chunk) (tail : List Chunk) : Prop where
  ordinary : ∀ c ∈ pre, c.Ordinary
  finishing : f.Finishing
  usageOnly : tail = [] ∨ ∃ u, tail = [u] ∧ u.choices = [] ∧ u.usage.isSome = true

/-- The chunks whose delta is told: all but the last one with a finish reason, if the usage is not in it. -/
def told (pre : List Chunk) (f : Chunk) : List Chunk := pre ++ if f.usage.isSome then [f] else []

/-- The end of the message is told, and its start once. The last chunk is not counted, so as the second it is taken
for the first. -/
def EndTold (pre : List Chunk) (f : Chunk) (tail : List Chunk) : Prop :=
  if tail = [] then f.usage.isSome = true ∧ 2 ≤ pre.length else f.usage.isSome = true ∨ pre ≠ []

instance (pre : List Chunk) (f : Chunk) (tail : List Chunk) : Decidable (EndTold pre f tail) :=
  inferInstanceAs (Decidable (ite _ _ _))

theorem Underway.not_valid {n : ℕ} {r : Emit} (h : Underway ok st n r) : ¬ ValidStream r.2 := by
  obtain ⟨-, -, _, _, _, _, hes, hbody, -, -⟩ := h
  intro hv
  have hstop := hv.mem_messageStop
  rw [hes] at hstop
  rcases mem_cons.mp hstop with hstop | hstop
  · cases hstop
  · exact absurd (hbody _ hstop) (by decide)

theorem finishing_told {pre : List Chunk} (hne : pre ≠ []) {f : Chunk} (hu : f.usage.isSome = true) :
    ToolsAnnounced (told pre f) ↔
      (ToolsFitAll pre ∧ ToolsFit (stretchOf pre) f.delta) ∧ Closes (follow (stretchOf pre) f.delta) := by
  rw [told, if_pos hu, ToolsAnnounced, stretchOf_concat hne, toolsFitAll_concat hne]

theorem not_told {pre : List Chunk} {f : Chunk} (hu : f.usage = none) : told pre f = pre := by
  rw [told, hu]
  exact append_nil pre

section Ends

variable {pre : List Chunk} {f : Chunk} (hpre : ∀ c ∈ pre, c.Ordinary) (hf : f.Finishing)
  (usage : List Chunk → Usage)
  (estimate : Int)

include hpre hf in
theorem valid_last (hlen : 2 ≤ pre.length) :
    ValidStream (oaiStreamHandler lower usage (beginInfo estimate) (pre ++ [f])) ↔
      f.usage.isSome = true ∧ ToolsAnnounced (told pre f) := by
  have hne : pre ≠ [] := by
    rintro rfl
    exact absurd hlen (by decide)
  have hway := underway_chunks lower hne hpre estimate
  rw [oaiStreamHandler_concat]
  generalize handleChunks lower (beginInfo estimate) pre = r at hway ⊢
  have hcount : r.1.sendResponseCount ≠ 1 := by
    rw [hway.counted]
    omega
  rw [handleFinalResponse_next lower hway.not_done hcount]
  cases hu : f.usage with
  | none =>
    obtain ⟨_, hnext⟩ := nextChunk_finishing lower hf
    rw [hnext, if_pos hu, append_nil]
    constructor
    · intro hv
      exact absurd hv hway.not_valid
    · rintro ⟨hsome, -⟩
      cases hsome
  | some =>
    have hsome : f.usage.isSome = true := by rw [hu]; rfl
    have hvalid : ValidStream (r.2 ++ (nextChunk lower f { r.1 with usage := some (usage (pre ++ [f])) }).2) ↔ _ :=
      valid_finishing lower hway hf hsome (fun _ _ h => h)
    rw [hvalid, finishing_told hne hsome]
    exact ⟨fun h => ⟨rfl, h⟩, fun h => h.2⟩

include hf in
theorem not_valid_second {c : Chunk} (hc : c.Ordinary) :
    ¬ ValidStream (oaiStreamHandler lower usage (beginInfo estimate) ([c] ++ [f])) := by
  have hway := underway_chunks lower (cons_ne_nil c [])
    (fun c' hc' => (mem_singleton.mp hc').symm ▸ hc) estimate
  rw [oaiStreamHandler_concat]
  generalize handleChunks lower (beginInfo estimate) [c] = r at hway ⊢
  obtain ⟨hdone, hcount, id, model, _, _, hes, -, -, -⟩ := hway
  have hfirst : (handleFinalResponse lower (usage ([c] ++ [f])) r.1 f).2 =
      (firstChunk lower f { r.1 with usage := some (usage ([c] ++ [f])) }).2 := by
    have hone : r.1.sendResponseCount = 1 := hcount
    rw [handleFinalResponse, streamResponseOpenAI2Claude]
    simp only [hdone, hone, if_true, if_false, Bool.false_eq_true]
  rw [hfirst, hes, cons_append]
  intro hv
  have hmem : .messageStart f.id f.model r.1.estimatePromptTokens ∈
      (firstChunk lower f { r.1 with usage := some (usage ([c] ++ [f])) }).2 := by
    obtain ⟨_, hfinish⟩ := firstChunk_finishing lower hf
    rw [hfinish, Emit.andThen]
    exact mem_append_left _ mem_cons_self
  exact hv.start_once _ _ _ (mem_append_right _ hmem)

theorem nextChunk_no_start (hf : f.Finishing) (id model : String) (inputTokens : Int) :
    .messageStart id model inputTokens ∉ (nextChunk lower f info).2 := by
  obtain ⟨_, hnext⟩ := nextChunk_finishing lower hf
  rw [hnext]
  split
  · exact not_mem_nil
  · intro hmem
    rcases mem_append.mp hmem with hmem | hmem
    · exact absurd ((inside_nextContent _ _).onBlocks _ hmem) Bool.false_ne_true
    · rcases mem_append.mp hmem with hmem | hmem
      · rcases mem_append.mp hmem with hmem | hmem
        · exact absurd (onBlocks_stopOpenBlocks _ hmem) Bool.false_ne_true
        · rw [mem_toList, map_eq_some_iff] at hmem
          obtain ⟨_, -, hu⟩ := hmem
          cases hu
      · cases mem_singleton.mp hmem

include hf in
theorem not_valid_only : ¬ ValidStream (oaiStreamHandler lower usage (beginInfo estimate) ([] ++ [f])) := by
  have hfinal : (handleFinalResponse lower (usage ([] ++ [f])) (beginInfo estimate) f).2 =
      (nextChunk lower f { beginInfo estimate with usage := some (usage ([] ++ [f])) }).2 :=
    handleFinalResponse_next lower rfl Nat.zero_ne_one _ f
  intro hv
  obtain ⟨id, model, tokens, hmem⟩ := hv.mem_messageStart
  rw [oaiStreamHandler_concat] at hmem
  exact nextChunk_no_start lower hf id model tokens (hfinal ▸ hmem)

include hpre hf in
theorem valid_usage_behind (hne : pre ≠ []) {u : Chunk} (hu : u.choices = []) (huse : u.usage.isSome = true) :
    ValidStream (oaiStreamHandler lower usage (beginInfo estimate) (pre ++ [f] ++ [u])) ↔
      ToolsAnnounced (told pre f) := by
  have hway := underway_chunks lower hne hpre estimate
  rw [oaiStreamHandler_concat, handleChunks_concat, Emit.andThen]
  generalize handleChunks lower (beginInfo estimate) pre = r at hway ⊢
  obtain ⟨reason, hnext⟩ := nextChunk_finishing lower hf
  rw [handleClaudeFormat_next lower hway.not_done hway.counted]
  cases hfu : f.usage with
  | none =>
    rw [if_pos hfu] at hnext
    have hcount : (received r.1 f).sendResponseCount ≠ 1 := by
      change r.1.sendResponseCount+1 ≠ 1
      rw [hway.counted]
      omega
    have hdone : ({ received r.1 f with finishReason := reason } : ClaudeInfo).done = false := hway.not_done
    have hfinal := handleFinalResponse_next lower hdone hcount (usage (pre ++ [f] ++ [u])) u
    rw [hnext, hfinal, not_told hfu, append_nil]
    exact valid_usageChunk lower hway hu huse (fun _ _ h => h)
  | some v =>
    have hsome : f.usage.isSome = true := by rw [hfu]; rfl
    have hvalid : ValidStream (r.2 ++ (nextChunk lower f (received r.1 f)).2) ↔ _ :=
      valid_finishing lower hway hf hsome (fun _ _ h => h)
    have hdone : (nextChunk lower f (received r.1 f)).1.done = true := by
      rw [hnext, if_neg (by rw [hfu]; exact some_ne_none v)]
      rfl
    rw [finishing_told hne hsome, ← hvalid, handleFinalResponse_done lower hdone, append_nil]

include hf in
theorem valid_usage_second (u : Chunk) :
    ValidStream (oaiStreamHandler lower usage (beginInfo estimate) ([] ++ [f] ++ [u])) ↔ f.usage.isSome = true := by
  obtain ⟨reason, hfirst⟩ := firstChunk_finishing lower hf
  have hhandle : handleChunks lower (beginInfo estimate) ([] ++ [f]) =
      firstChunk lower f (received (beginInfo estimate) f) := rfl
  have hsame := inside_firstDelta f.delta (received (beginInfo estimate) f)
  have hbody := hsame.onBlocks
  have hdone : (firstChunk lower f (received (beginInfo estimate) f)).1.done = true := by
    rw [hfirst]
    rfl
  rw [oaiStreamHandler_concat, hhandle, handleFinalResponse_done lower hdone, append_nil, hfirst, Emit.andThen,
    finishMessage]
  cases hfu : f.usage with
  | none =>
    have husage : (firstDelta f.delta (received (beginInfo estimate) f)).1.usage = none := by
      rw [hsame.usage_eq, received, hfu]
      rfl
    constructor
    · intro hv
      obtain ⟨_, _, hmem⟩ := hv.mem_messageDelta
      rw [husage] at hmem
      rcases mem_append.mp hmem with hmem | hmem
      · rcases mem_cons.mp hmem with hmem | hmem
        · cases hmem
        · exact absurd (hbody _ hmem) Bool.false_ne_true
      · rcases mem_append.mp hmem with hmem | hmem
        · rw [or_none, map_none, toList_none, append_nil] at hmem
          exact absurd (onBlocks_stopOpenBlocks _ hmem) Bool.false_ne_true
        · cases mem_singleton.mp hmem
    · intro h
      cases h
  | some v =>
    have hfollows : Follows { (firstDelta f.delta (received (beginInfo estimate) f)).1 with finishReason := reason }
        (firstStretch f.delta) (marks (firstDelta f.delta (received (beginInfo estimate) f)).2) :=
      follows_firstDelta rfl rfl f.delta
    have hend := valid_end hbody (fun _ : True => hfollows) (fun hn => absurd trivial hn) f.id f.model
      (received (beginInfo estimate) f).estimatePromptTokens (stopReasonOpenAI2Claude lower reason)
      (buildClaudeUsageFromOpenAIUsage v)
    have hclosed := hend.mpr ⟨trivial, closes_firstStretch f.delta⟩
    refine ⟨fun _ => rfl, fun _ => ?_⟩
    simpa only [some_or, map_some, toList_some, append_assoc, cons_append, nil_append] using hclosed

end Ends

/-- A chat stream that ends normally becomes a well-formed Claude stream exactly if its end is told and its
tool calls are announced. -/
theorem oaiStreamHandler_valid_iff (usage : List Chunk → Usage) (estimate : Int) {pre : List Chunk} {f : Chunk}
    {tail : List Chunk} (h : EndsNormally pre f tail) :
    ValidStream (oaiStreamHandler lower usage (beginInfo estimate) (pre ++ [f] ++ tail)) ↔
      EndTold pre f tail ∧ ToolsAnnounced (told pre f) := by
  obtain ⟨hpre, hf, rfl | ⟨u, rfl, hu, huse⟩⟩ := h
  · rw [append_nil, EndTold, if_pos rfl]
    match pre, hpre with
    | [], _ =>
      constructor
      · intro hv
        exact absurd hv (not_valid_only lower hf usage estimate)
      · rintro ⟨⟨-, hlen⟩, -⟩
        exact absurd hlen (by decide)
    | [c], hpre =>
      constructor
      · intro hv
        exact absurd hv (not_valid_second lower hf usage estimate (hpre c mem_cons_self))
      · rintro ⟨⟨-, hlen⟩, -⟩
        exact absurd hlen (Nat.not_le.mpr Nat.one_lt_two)
    | c :: c' :: rest, hpre =>
      have hlen : 2 ≤ (c :: c' :: rest).length := Nat.le_add_left 2 _
      rw [valid_last lower hpre hf usage estimate hlen]
      exact ⟨fun h => ⟨⟨h.1, hlen⟩, h.2⟩, fun h => ⟨h.1.1, h.2⟩⟩
  · rw [EndTold, if_neg (cons_ne_nil u [])]
    by_cases hne : pre = []
    · subst hne
      rw [valid_usage_second lower hf usage estimate u]
      constructor
      · intro hsome
        refine ⟨.inl hsome, ?_⟩
        rw [told, if_pos hsome]
        exact ⟨trivial, closes_firstStretch f.delta⟩
      · rintro ⟨hsome | hne, -⟩
        · exact hsome
        · exact absurd rfl hne
    · rw [valid_usage_behind lower hpre hf usage estimate hne hu huse]
      exact ⟨fun h => ⟨.inr hne, h⟩, fun h => h.2⟩

end AiGateway.Convert
