import AiGateway.ClaudeToolCalls

/-! No chunk loses anything on the way: what it takes, and that text, reasoning and tool calls then arrive
whole. -/
namespace AiGateway.Convert

open List Run

def ClaudeInfo.nextIndex (info : ClaudeInfo) : ℕ := (stopOpenBlocksAndAdvance info).1.index

variable {info : ClaudeInfo} {es : List ClaudeEvent}

theorem nextIndex_tools (hl : info.lastMessagesType = .tools) :
    info.nextIndex = info.toolCallBaseIndex+info.toolCallMaxIndexOffset+1 := by
  simp only [ClaudeInfo.nextIndex, stopOpenBlocksAndAdvance, hl]

theorem nextIndex_single (hk : info.lastMessagesType.single = true) : info.nextIndex = info.index+1 := by
  cases hl : info.lastMessagesType with
  | none | tools =>
    rw [hl] at hk
    cases hk
  | text | thinking => simp only [ClaudeInfo.nextIndex, stopOpenBlocksAndAdvance, hl]

theorem nextIndex_congr {info' : ClaudeInfo} (h : SameBlocks info info') : info'.nextIndex = info.nextIndex := by
  cases hl : info.lastMessagesType <;>
    simp only [ClaudeInfo.nextIndex, stopOpenBlocksAndAdvance, h.type_eq, h.index_eq, h.base_eq, h.max_eq, hl]

structure Placed (info : ClaudeInfo) (blk : ℕ → ℕ) (k : Calls) (es : List ClaudeEvent) : Prop where
  tools : info.lastMessagesType = .tools →
    PlacedAt info.toolCallBaseIndex blk k es ∧ ∀ j ∈ k.current, j ≤ info.toolCallMaxIndexOffset
  other : info.lastMessagesType ≠ .tools → k.current = [] ∧ PlacedAt info.nextIndex blk k es

variable {toolCalls : List ToolCallResponse}

section
variable {info info' : ClaudeInfo} {blk : ℕ → ℕ} {k : Calls} {fs : List (ToolCallResponse × ℕ)}
  {es es' : List ClaudeEvent}

theorem Placed.congr (h : Placed info blk k es) (hsame : SameBlocks info info') : Placed info' blk k es where
  tools := by
    rw [hsame.type_eq, hsame.base_eq, hsame.max_eq]
    exact h.tools
  other := by
    rw [hsame.type_eq, nextIndex_congr hsame]
    exact h.other

theorem Placed.offTools (h : Placed info blk k es) (he : OffTools es') : Placed info blk k (es ++ es') where
  tools := fun hl => ⟨(h.tools hl).1.offTools he, (h.tools hl).2⟩
  other := fun hl => ⟨(h.other hl).1, (h.other hl).2.offTools he⟩

theorem Placed.advance (h : Placed info blk k es) : PlacedAt info.nextIndex blk k.endStretch es := by
  by_cases hl : info.lastMessagesType = .tools
  · obtain ⟨hplaced, hmax⟩ := h.tools hl
    rw [nextIndex_tools hl]
    apply hplaced.endStretch
    · intro j hj
      have hle := hmax j hj
      omega
    · omega
  · obtain ⟨hcurrent, hplaced⟩ := h.other hl
    apply hplaced.endStretch
    · intro j hj
      rw [hcurrent] at hj
      exact absurd hj not_mem_nil
    · exact Nat.le_refl _

variable {kind : LastMessageType}

theorem placed_single (hk : kind.single = true) (ht : Told blk k fs es)
    (hp : Placed info blk k es) (hl : info'.lastMessagesType = kind) (hi : info.nextIndex ≤ info'.index+1)
    (he : OffTools es') : Told blk k.endStretch fs (es ++ es') ∧ Placed info' blk k.endStretch (es ++ es') := by
  have hnext : info'.nextIndex = info'.index+1 := nextIndex_single (hl ▸ hk)
  refine ⟨ht.endStretch.offTools he, ⟨?_, ?_⟩⟩
  · intro htools
    rw [hl] at htools
    rw [htools] at hk
    cases hk
  · intro _
    rw [hnext]
    have hstep := hp.advance.endStretch nofun hi
    exact ⟨rfl, hstep.offTools he⟩

variable {block : ContentBlock}

theorem placed_nextDelta (hk : kind.single = true) {delta : BlockDelta}
    (hblock : ∀ i, OffTools [.contentBlockStart i block]) (hdelta : ∀ i, OffTools [.contentBlockDelta i delta])
    (ht : Told blk k fs es) (hp : Placed info blk k es) :
    Told blk k.endStretch fs (es ++ (nextDelta kind block delta info).2) ∧
      Placed (nextDelta kind block delta info).1 blk k.endStretch (es ++ (nextDelta kind block delta info).2) := by
  by_cases hl : info.lastMessagesType = kind
  · have hnext : info.nextIndex = info.index+1 := nextIndex_single (hl.symm ▸ hk)
    simp only [nextDelta, hl, ne_eq, not_true, if_false, nil_append]
    exact placed_single hk ht hp rfl (Nat.le_of_eq hnext) (hdelta _)
  · simp only [nextDelta, hl, ne_eq, not_false_eq_true, if_true]
    exact placed_single hk ht hp rfl (Nat.le_succ _)
      (offTools_append (offTools_append (offTools_quiet allQuiet_advance) (hblock _)) (hdelta _))

theorem Calls.exec_add_le (frs : List (ToolCallResponse × ℕ)) {k : Calls} {m : ℕ}
    (hm : ∀ j ∈ k.current, j ≤ m) :
    ∀ j ∈ (exec Calls.add k frs).current, j ≤ frs.foldl (fun m e => max m (e.1.offset e.2)) m := by
  induction frs generalizing k m with
  | nil => exact hm
  | cons f frs ih =>
    apply ih
    intro j hj
    rw [Calls.add] at hj
    split at hj
    · exact Nat.le_trans (hm j hj) (Nat.le_max_left _ _)
    · rcases mem_cons.mp hj with rfl | hj
      · exact Nat.le_max_right _ _
      · exact Nat.le_trans (hm j hj) (Nat.le_max_left _ _)

theorem placed_toolFragments (hfit : Along Calls.add Calls.Fits k toolCalls.zipIdx)
    (ht : Told blk k fs es) (hp : Placed info blk k es) :
    ∃ blk', Told blk' (exec Calls.add k toolCalls.zipIdx) (fs ++ toolCalls.zipIdx)
      (es ++ (toolFragments toolCalls info).2) ∧
      Placed (toolFragments toolCalls info).1 blk' (exec Calls.add k toolCalls.zipIdx)
        (es ++ (toolFragments toolCalls info).2) := by
  by_cases hl : info.lastMessagesType = .tools
  · obtain ⟨hplaced, hmax⟩ := hp.tools hl
    obtain ⟨blk', ht', hp'⟩ := told_fragments ht hplaced toolCalls.zipIdx hfit
    simp only [toolFragments, hl, ne_eq, not_true, if_false, nil_append]
    exact ⟨blk', ht', ⟨fun _ => ⟨hp', Calls.exec_add_le _ hmax⟩, fun hn => absurd rfl hn⟩⟩
  · obtain ⟨hcurrent, hplaced⟩ := hp.other hl
    have hquiet : OffTools (stopOpenBlocksAndAdvance info).2 := offTools_quiet allQuiet_advance
    obtain ⟨blk', ht', hp'⟩ := told_fragments (ht.offTools hquiet) (hplaced.offTools hquiet) toolCalls.zipIdx hfit
    have hmax : ∀ j ∈ k.current, j ≤ 0 := by
      rw [hcurrent]
      exact fun j hj => absurd hj not_mem_nil
    simp only [toolFragments, hl, ne_eq, not_false_eq_true, if_true, ← append_assoc]
    exact ⟨blk', ht', ⟨fun _ => ⟨hp', Calls.exec_add_le _ hmax⟩, fun hn => absurd rfl hn⟩⟩

/-! One chunk. -/

def Calls.follow (k : Calls) (d : Delta) : Calls :=
  if d.toolCalls ≠ [] then exec Calls.add k d.toolCalls.zipIdx
  else if d.hasText then k.endStretch else k

theorem placed_nextContent {d : Delta} (hfit : Along Calls.add Calls.Fits k d.toolCalls.zipIdx)
    (ht : Told blk k fs es) (hp : Placed info blk k es) :
    ∃ blk', Told blk' (k.follow d) (fs ++ d.toolCalls.zipIdx) (es ++ (nextContent d info).2) ∧
      Placed (nextContent d info).1 blk' (k.follow d) (es ++ (nextContent d info).2) := by
  by_cases htools : d.toolCalls = []
  · have hnil : d.toolCalls.zipIdx = [] := by
      rw [htools]
      rfl
    rw [hnil, append_nil, Calls.follow, if_neg (not_not.mpr htools), nextContent, if_neg (not_not.mpr htools)]
    by_cases hreason : d.getReasoningContent = ""
    · rw [if_neg (not_not.mpr hreason)]
      by_cases htext : d.getContentString = ""
      · rw [if_neg (not_not.mpr htext), if_neg (fun h => h.elim (· hreason) (· htext)), append_nil]
        exact ⟨blk, ht, hp⟩
      · rw [if_pos htext, if_pos (.inr htext)]
        exact ⟨blk, placed_nextDelta rfl (fun _ _ => ⟨rfl, rfl⟩) (fun _ _ => ⟨rfl, rfl⟩) ht hp⟩
    · rw [if_pos hreason, if_pos (.inl hreason)]
      exact ⟨blk, placed_nextDelta rfl (fun _ _ => ⟨rfl, rfl⟩) (fun _ _ => ⟨rfl, rfl⟩) ht hp⟩
  · rw [Calls.follow, if_pos htools, nextContent, if_pos htools]
    exact placed_toolFragments hfit ht hp

end

/-! The first chunk. -/

theorem told_none (blk : ℕ → ℕ) : Told blk {} [] es where
  known := fun _ => ⟨nofun, fun h => h.elim (absurd · not_mem_nil) (absurd · not_mem_nil)⟩
  uses := nofun
  json := nofun
  apart := nofun

theorem placedAt_none (base : ℕ) (blk : ℕ → ℕ) (he : OffTools es) : PlacedAt base blk {} es where
  current := nofun
  past := nofun
  clean := fun _ _ => he _

theorem placed_firstToolCall (hl : info.lastMessagesType = .none)
    (he : OffTools es) (hlen : toolCalls.length ≤ 1) (hzero : ∀ f ∈ toolCalls.zipIdx, callOf f = 0) :
    ∃ blk, Told blk (exec Calls.add {} toolCalls.zipIdx) toolCalls.zipIdx (es ++ (firstToolCall toolCalls info).2) ∧
      Placed (firstToolCall toolCalls info).1 blk (exec Calls.add {} toolCalls.zipIdx)
        (es ++ (firstToolCall toolCalls info).2) := by
  match toolCalls, hlen, hzero with
  | [], _, _ =>
    rw [firstToolCall, append_nil]
    refine ⟨id, told_none _, ⟨?_, ?_⟩⟩
    · intro htools
      rw [hl] at htools
      cases htools
    · intro _
      exact ⟨rfl, placedAt_none _ _ he⟩
  | [toolCall], _, hzero =>
    have hcall : callOf (toolCall, 0) = 0 := hzero (toolCall, 0) mem_cons_self
    have hevents : (firstToolCall [toolCall] info).2 =
        [.contentBlockStart 0 (.toolUse toolCall.id toolCall.name)] ++ inputEvents 0 toolCall.arguments := rfl
    have huse (b : ℕ) : toolUsesAt b (firstToolCall [toolCall] info).2 =
        if 0+callOf (toolCall, 0) = b then [(toolCall.id, toolCall.name)] else [] := by
      rw [hevents, toolUsesAt_append, toolUsesAt_input, append_nil, toolUsesAt_start, hcall]
    have hjson (b : ℕ) : inputJsonAt b (firstToolCall [toolCall] info).2 =
        if 0+callOf (toolCall, 0) = b then toolCall.arguments else "" := by
      have hstart : inputJsonAt b [.contentBlockStart 0 (.toolUse toolCall.id toolCall.name)] = "" := rfl
      rw [hevents, inputJsonAt_append, hstart, String.empty_append, inputJsonAt_input, hcall]
    have hexec : exec Calls.add {} [(toolCall, 0)] = ⟨[callOf (toolCall, 0)], []⟩ := by
      change Calls.add {} (toolCall, 0) = _
      rw [Calls.add, if_neg (fun h => h.elim (absurd · not_mem_nil) (absurd · not_mem_nil))]
    have hplaced : PlacedAt 0 id {} es := placedAt_none 0 id he
    have hnew := told_new (told_none id) hplaced not_mem_nil not_mem_nil huse hjson
    rw [zipIdx_singleton, hexec]
    refine ⟨_, hnew.1, ⟨fun _ => ⟨hnew.2, ?_⟩, fun hn => absurd rfl hn⟩⟩
    intro j hj
    rw [mem_singleton.mp hj, hcall]
    exact Nat.zero_le _

def firstCalls (d : Delta) : Calls :=
  let k := exec Calls.add {} d.toolCalls.zipIdx
  if d.hasText then k.endStretch else k

theorem placed_firstDelta (hl : info.lastMessagesType = .none)
    (he : OffTools es) {d : Delta} (hlen : d.toolCalls.length ≤ 1)
    (hzero : ∀ f ∈ d.toolCalls.zipIdx, callOf f = 0) :
    ∃ blk, Told blk (firstCalls d) d.toolCalls.zipIdx (es ++ (firstDelta d info).2) ∧
      Placed (firstDelta d info).1 blk (firstCalls d) (es ++ (firstDelta d info).2) := by
  obtain ⟨_, ht, hp⟩ := placed_firstToolCall hl he hlen hzero
  have hnext := placed_nextContent (d := { d with toolCalls := [] }) trivial ht hp
  rw [← firstContent_eq (fun _ => firstToolCall_kind hl d.toolCalls) rfl, zipIdx_nil, append_nil,
    append_assoc] at hnext
  exact hnext

/-! The whole stream. -/

/-- No tool call of the chunk is dropped: it is not passed over, is one with index 0 if the chunk is the
first, and otherwise its fragments fit. -/
def CallsKept (s : ClaudeInfo × Calls) (c : Chunk) : Prop :=
  if skips s.1 c then c.delta.toolCalls = []
  else if s.1.sendResponseCount = 0 then
    c.delta.toolCalls.length ≤ 1 ∧ ∀ f ∈ c.delta.toolCalls.zipIdx, callOf f = 0
  else Along Calls.add Calls.Fits s.2 c.delta.toolCalls.zipIdx

instance (s : ClaudeInfo × Calls) (c : Chunk) : Decidable (CallsKept s c) :=
  inferInstanceAs (Decidable (ite _ _ _))

variable (lower : String → String)

def withCalls (s : ClaudeInfo × Calls) (c : Chunk) : ClaudeInfo × Calls :=
  (afterChunk lower s.1 c, if skips s.1 c then s.2
    else if s.1.sendResponseCount = 0 then firstCalls c.delta
    else s.2.follow c.delta)

theorem count_handle (c : Chunk) : (afterChunk lower info c).sendResponseCount = info.sendResponseCount+1 := by
  rw [afterChunk, handleClaudeFormat, streamResponseOpenAI2Claude]
  split
  · rfl
  · split
    · rw [firstChunk]
      split
      · rfl
      · next choice _ _ =>
        have hsame := inside_firstDelta choice.delta (received info c)
        dsimp only
        split <;> exact hsame.count_eq
    · rw [nextChunk]
      split
      · rw [usageChunk]
        split <;> rfl
      · split
        · exact (inside_nextContent _ (received info c)).count_eq
        · dsimp only
          split
          · rfl
          · exact (inside_nextContent _ { received info c with finishReason := _ }).count_eq

def Holding (s : ClaudeInfo × Calls) (fs : List (ToolCallResponse × ℕ)) (es : List ClaudeEvent) : Prop :=
  ∃ blk, Told blk s.2 fs es ∧ (s.1.done = false → Placed s.1 blk s.2 es)

theorem holding_first (estimate : Int) {c : Chunk} (hone : c.choices.length ≤ 1)
    (hkept : CallsKept (beginInfo estimate, {}) c) :
    Holding (withCalls lower (beginInfo estimate, {}) c) c.delta.toolCalls.zipIdx
      (handleClaudeFormat lower (beginInfo estimate) c).2 := by
  rcases taken lower (beginInfo estimate) hone with ⟨hskip, -, -, -⟩ |
    ⟨hskip, hcount, start, tail, hstart, hquiet, hes, hstate⟩ | ⟨hskip, hcount, -⟩
  · cases hskip
  · have hkept' : c.delta.toolCalls.length ≤ 1 ∧ ∀ f ∈ c.delta.toolCalls.zipIdx, callOf f = 0 := hkept
    have hhead : OffTools [start] := offTools_quiet (fun e he => (mem_singleton.mp he).symm ▸ hstart)
    have htype : (received (beginInfo estimate) c).lastMessagesType = .none := rfl
    obtain ⟨blk, ht, hp⟩ := placed_firstDelta htype hhead hkept'.1 hkept'.2
    refine ⟨blk, ?_, ?_⟩
    · rw [hes]
      exact ht.offTools (offTools_quiet hquiet)
    · intro hdone
      rw [hes]
      exact (hp.congr (hstate hdone)).offTools (offTools_quiet hquiet)
  · exact absurd rfl hcount

variable {s : ClaudeInfo × Calls} {fs : List (ToolCallResponse × ℕ)}

theorem holding_next (hcount : s.1.sendResponseCount ≠ 0) (h : Holding s fs es) {c : Chunk}
    (hone : c.choices.length ≤ 1) (hkept : CallsKept s c) :
    Holding (withCalls lower s c) (fs ++ c.delta.toolCalls.zipIdx) (es ++ (handleClaudeFormat lower s.1 c).2) := by
  obtain ⟨blk, ht, hp⟩ := h
  have hdone (hskip : skips s.1 c = false) : s.1.done = false := (Bool.or_eq_false_iff.mp hskip).1
  rcases taken lower s.1 hone with ⟨hskip, hes, hsame, hd⟩ | ⟨-, hzero, -⟩ | ⟨hskip, -, _, _, hsame,
    hquiet, hes, hstate⟩
  · rw [CallsKept, if_pos hskip] at hkept
    simp only [Holding, withCalls, hskip, if_true]
    rw [hes, hkept, append_nil, zipIdx_nil, append_nil]
    exact ⟨blk, ht, fun hd' => (hp (hd.symm.trans hd')).congr hsame⟩
  · exact absurd hzero hcount
  · simp only [CallsKept, hskip, Bool.false_eq_true, if_false, hcount] at hkept
    obtain ⟨blk', ht', hp'⟩ := placed_nextContent hkept ht ((hp (hdone hskip)).congr hsame)
    simp only [Holding, withCalls, hskip, Bool.false_eq_true, if_false, hcount]
    rw [hes, ← append_assoc]
    refine ⟨blk', ht'.offTools (offTools_quiet hquiet), ?_⟩
    intro hd
    exact (hp'.congr (hstate hd)).offTools (offTools_quiet hquiet)

theorem holding_run (cs : List Chunk) (hcount : s.1.sendResponseCount ≠ 0) (h : Holding s fs es)
    (hcs : ∀ c ∈ cs, c.choices.length ≤ 1) (hkept : Along (withCalls lower) CallsKept s cs) :
    Holding (exec (withCalls lower) s cs) (fs ++ fragments cs) (es ++ toldOf lower s.1 cs) := by
  induction cs generalizing s fs es with
  | nil =>
    rw [fragments, flatMap_nil, append_nil, toldOf, trace, append_nil]
    exact h
  | cons c cs ih =>
    have hone := hcs c mem_cons_self
    have hcount' : (withCalls lower s c).1.sendResponseCount ≠ 0 := by
      rw [withCalls, count_handle]
      exact Nat.succ_ne_zero _
    have hrest := ih hcount' (holding_next lower hcount h hone hkept.1) (fun c' hc' => hcs c' (mem_cons_of_mem _ hc'))
      hkept.2
    rw [append_assoc, append_assoc] at hrest
    exact hrest

theorem callsTold (estimate : Int) (cs : List Chunk) (hcs : ∀ c ∈ cs, c.choices.length ≤ 1)
    (hkept : Along (withCalls lower) CallsKept (beginInfo estimate, {}) cs) :
    CallsTold (fragments cs) (toldOf lower (beginInfo estimate) cs) := by
  cases cs with
  | nil => exact ⟨id, nofun⟩
  | cons c cs =>
    have hone := hcs c mem_cons_self
    have hcount : (withCalls lower (beginInfo estimate, {}) c).1.sendResponseCount ≠ 0 := by
      rw [withCalls, count_handle]
      exact Nat.succ_ne_zero _
    obtain ⟨blk, ht, -⟩ := holding_run lower cs hcount (holding_first lower estimate hone hkept.1)
      (fun c' hc' => hcs c' (mem_cons_of_mem _ hc')) hkept.2
    exact ⟨blk, fun j hj => ⟨ht.uses j hj, ht.json j hj, fun i hi => ht.apart i hi j hj⟩⟩

/-- Text, reasoning and tool calls arrive whole where no chunk loses any of them. -/
theorem content_kept (estimate : Int) (cs : List Chunk) (hcs : ∀ c ∈ cs, c.choices.length ≤ 1)
    (htext : Along (afterChunk lower) TextKept (beginInfo estimate) cs)
    (hcalls : Along (withCalls lower) CallsKept (beginInfo estimate, {}) cs) :
    texts (toldOf lower (beginInfo estimate) cs) = contents cs ∧
      thinkings (toldOf lower (beginInfo estimate) cs) = reasonings cs ∧
      CallsTold (fragments cs) (toldOf lower (beginInfo estimate) cs) := by
  have hsaid := said_kept lower (beginInfo estimate) cs hcs htext
  exact ⟨hsaid.1, hsaid.2, callsTold lower estimate cs hcs hcalls⟩

def Chunk.ofDelta (d : Delta) : Chunk := { choices := [{ delta := d }] }

def plainChunks : List Chunk :=
  [.ofDelta { reasoningContent := some "the weather" }, .ofDelta { content := some "One moment." },
    .ofDelta { toolCalls := [{ index := some 0, id := "call_1", name := "weather", arguments := "[1" },
      { index := some 1, id := "call_2", name := "time" }] },
    .ofDelta { toolCalls := [{ index := some 1, arguments := "[]" }, { index := some 0, arguments := ", 2" }] },
    { choices := [{ delta := { toolCalls := [{ index := some 0, arguments := "]" }] }
                    finishReason := some "tool_calls" }]
      usage := some {} }]

theorem content_kept_plain :
    texts (toldOf id (beginInfo 0) plainChunks) = contents plainChunks ∧
      thinkings (toldOf id (beginInfo 0) plainChunks) = reasonings plainChunks ∧
      CallsTold (fragments plainChunks) (toldOf id (beginInfo 0) plainChunks) :=
  content_kept id 0 plainChunks (by decide) (by decide +kernel) (by decide +kernel)

def mixedChunks : List Chunk :=
  [.ofDelta { role := "assistant" },
    .ofDelta { content := some "One moment.", toolCalls := [{ index := some 0, id := "call_1", name := "weather" }] }]

theorem content_lost : (∀ c ∈ mixedChunks, c.choices.length ≤ 1) ∧
    contents mixedChunks = "One moment." ∧ texts (toldOf id (beginInfo 0) mixedChunks) = "" := by
  refine ⟨by decide, by decide +kernel, by decide +kernel⟩

end AiGateway.Convert
