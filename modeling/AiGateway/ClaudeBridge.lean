import AiGateway.ClaudeValid
import AiGateway.ResponsesStream

/-! A Responses stream told as a Claude message, through the chat chunks in between: the handler never tells
the end of the message. -/
namespace AiGateway.Responses

open AiGateway.Convert (Usage Delta Chunk ClaudeInfo ClaudeEvent Emit handleClaudeFormat firstChunk
  received firstChunk_ordinary nextChunk_ordinary nextChunk_finishing inside_firstDelta
    inside_nextContent beginInfo ValidStream EndsNormally EndTold ToolsAnnounced told oaiStreamHandler
      oaiStreamHandler_valid_iff streamResponseOpenAI2Claude handleClaudeFormat_next)
open List

/-! The handler. -/

section
variable (lower : String → String)

def sendChatChunk (info : ClaudeInfo) (chunk : Chunk) : Emit :=
  if chunk.choices = [] ∧ chunk.usage = none then (info, []) else handleClaudeFormat lower info chunk

def sendChatChunks (r : Emit) (chunks : List Chunk) : Emit :=
  chunks.foldl (fun r chunk => r.andThen (fun info => sendChatChunk lower info chunk)) r

def scanToClaude (s : StreamState) (r : Emit) : List Event → StreamState × Emit × Option String
  | [] => (s, r, none)
  | event :: events =>
    match responsesStreamEventToChatChunks event s with
    | .error err => (s, r, some err)
    | .ok sent => scanToClaude sent.1 (sendChatChunks lower r sent.2) events

/-- `OaiResponsesToChatStreamHandler` for a client that speaks Claude: what it tells, and the error it ends
with. If the stream does not say what was used, `estimated` does. -/
def oaiResponsesToChatStreamHandler (estimated : StreamState → Usage) (info : ClaudeInfo) (s : StreamState)
    (events : List Event) : List ClaudeEvent × Option String :=
  match scanToClaude lower s (info, []) events with
  | (_, r, some err) => (r.2, some err)
  | (s, r, none) =>
    let usage := if s.usage.totalTokens = 0 then estimated s else s.usage
    let sent := finalizeResponsesToChatStream { s with usage }
    ((sendChatChunks lower ({ r.1 with usage := some usage }, r.2) sent.2).2, none)

end

/-! The chunks in between. -/

def Plain (c : Chunk) : Prop := (∃ choice, c.choices = [choice]) ∧ c.usage = none

/-- Without a usage chunk asked for, the chunks are plain, and the first of the stream has no finish reason. -/
structure Sends (s : StreamState) (r : ToChat) : Prop where
  asked : r.1.includeUsage = s.includeUsage
  plain : s.includeUsage = false → ∀ c ∈ r.2, Plain c
  started : s.sentStart = true → r.1.sentStart = true
  first : s.sentStart = false →
    (r.2 = [] ∧ r.1.sentStart = false) ∨ (r.1.sentStart = true ∧ ∃ c cs, r.2 = c :: cs ∧ c.Ordinary)

variable {s : StreamState}

theorem sends_nothing {s' : StreamState} (hasked : s'.includeUsage = s.includeUsage)
    (hstart : s'.sentStart = s.sentStart) :
    Sends s (s', []) where
  asked := hasked
  plain := fun _ _ hc => absurd hc not_mem_nil
  started := fun h => hstart.trans h
  first := fun h => .inl ⟨rfl, hstart.trans h⟩

theorem Sends.congr {s' : StreamState} {r : ToChat} (h : Sends s' r) (hasked : s'.includeUsage = s.includeUsage)
    (hstart : s'.sentStart = s.sentStart) : Sends s r where
  asked := h.asked.trans hasked
  plain := fun hn => h.plain (hasked.trans hn)
  started := fun hs => h.started (hstart.trans hs)
  first := fun hs => h.first (hstart.trans hs)

theorem Sends.andThen {r : ToChat} (h : Sends s r) {f : StreamState → ToChat} (hf : Sends r.1 (f r.1)) :
    Sends s (r.andThen f) := by
  refine ⟨hf.asked.trans h.asked, ?_, fun hs => hf.started (h.started hs), ?_⟩
  · intro hn c hc
    rcases mem_append.mp hc with hc | hc
    · exact h.plain hn c hc
    · exact hf.plain (h.asked.trans hn) c hc
  · intro hs
    rcases h.first hs with ⟨hnone, hstart⟩ | ⟨hstart, c, cs, hcs, hc⟩
    · rw [ToChat.andThen, hnone]
      exact hf.first hstart
    · refine .inr ⟨hf.started hstart, c, cs ++ (f r.1).2, ?_, hc⟩
      rw [ToChat.andThen, hcs]
      rfl

theorem sends_foldl {α : Type*} (l : List α) {f : α → StreamState → ToChat}
    (hf : ∀ a ∈ l, ∀ s, Sends s (f a s))
    {r : ToChat} (h : Sends s r) : Sends s (l.foldl (fun r a => r.andThen (f a)) r) := by
  induction l generalizing r with
  | nil => exact h
  | cons a l ih =>
    exact ih (fun b hb => hf b (mem_cons_of_mem _ hb)) (h.andThen (hf a mem_cons_self r.1))

theorem plain_makeChunk (d : Delta) (reason : Option String) : Plain (makeChunk s d reason) :=
  ⟨⟨_, rfl⟩, rfl⟩

theorem sends_ensureStart : Sends s (ensureStart s) := by
  rw [ensureStart]
  split
  · exact sends_nothing rfl rfl
  · exact ⟨rfl, fun _ => forall_mem_singleton.mpr (plain_makeChunk _ _), fun _ => rfl,
      fun _ => .inr ⟨rfl, _, [], rfl, _, rfl, rfl⟩⟩

theorem ensureStart_started : (ensureStart s).1.sentStart = true := by
  rw [ensureStart]
  split
  · assumption
  · rfl

theorem sends_behind (hstart : s.sentStart = true) {cs : List Chunk}
    (hcs : s.includeUsage = false → ∀ c ∈ cs, Plain c) : Sends s (s, cs) where
  asked := rfl
  plain := hcs
  started := fun h => h
  first := fun h => absurd (hstart.symm.trans h) (by decide)

theorem sends_sendDelta (d : Delta) : Sends s (sendDelta d s) := by
  apply sends_ensureStart.andThen
  exact sends_behind ensureStart_started (fun _ => forall_mem_singleton.mpr (plain_makeChunk _ _))

theorem sends_textDelta (delta : String) : Sends s (textDelta delta s) := by
  rw [textDelta]
  split
  · exact sends_nothing rfl rfl
  · exact (sends_sendDelta _).congr rfl rfl

theorem sends_reasoningDelta (delta : String) : Sends s (reasoningDelta delta s) := by
  rw [reasoningDelta]
  split
  · exact sends_nothing rfl rfl
  · exact (sends_sendDelta _).congr rfl rfl

theorem sends_toolDelta (tool : Tool) (explicitDelta : String) : Sends s (toolDelta tool explicitDelta s) := by
  rw [toolDelta]
  split
  · exact sends_nothing rfl rfl
  · exact (sends_sendDelta _).congr rfl rfl

theorem toolFor_same (key : Key) (callId : String) (s : StreamState) :
    (toolFor key callId s).2.includeUsage = s.includeUsage ∧ (toolFor key callId s).2.sentStart = s.sentStart := by
  rw [toolFor]
  split <;> exact ⟨rfl, rfl⟩

variable (event : Event)

theorem registerTool_same (key : Key) (tool : Tool) (s : StreamState) :
    (registerTool event key tool s).2.includeUsage = s.includeUsage ∧
      (registerTool event key tool s).2.sentStart = s.sentStart := by
  cases hindex : event.outputIndex with
  | none | some =>
    simp only [registerTool, hindex]
    split <;> exact ⟨rfl, rfl⟩

theorem sends_toolItem (item : ResponsesOutput) : Sends s (toolItem event item s) := by
  rw [toolItem]
  split
  · exact sends_nothing rfl rfl
  · next tool s' hensure =>
    obtain ⟨key, -, heq⟩ := Option.map_eq_some_iff.mp hensure
    have hs' : s' = (registerTool event key (toolFor key "" s).1 (toolFor key "" s).2).2 := (congrArg Prod.snd heq).symm
    have hregister := registerTool_same event key (toolFor key "" s).1 (toolFor key "" s).2
    have htool := toolFor_same key "" s
    rw [hs']
    exact (sends_toolDelta _ _).congr (hregister.1.trans htool.1) (hregister.2.trans htool.2)

theorem sends_outputItem : Sends s (outputItem event s) := by
  rw [outputItem]
  split
  · exact sends_nothing rfl rfl
  · split
    · exact sends_toolItem _ _
    · exact sends_nothing rfl rfl

theorem sends_toolArgumentsDelta : Sends s (toolArgumentsDelta event s) := by
  rw [toolArgumentsDelta]
  split
  · exact sends_nothing rfl rfl
  · split
    · exact sends_toolDelta _ _
    · split
      · exact sends_nothing rfl rfl
      · dsimp only
        split <;> exact sends_nothing rfl rfl

theorem sends_flushPendingTool : Sends s (flushPendingTool event s) := by
  rw [flushPendingTool]
  split
  · exact sends_toolDelta _ _
  · split
    · next tool s' hensure =>
      obtain ⟨key, -, heq⟩ := Option.map_eq_some_iff.mp hensure
      have hregister := registerTool_same event key (toolFor key (fallbackCallID event) s).1
        (toolFor key (fallbackCallID event) s).2
      have htool := toolFor_same key (fallbackCallID event) s
      rw [heq] at hregister
      exact (sends_toolDelta _ _).congr (hregister.1.trans htool.1) (hregister.2.trans htool.2)
    · exact sends_nothing rfl rfl

theorem sends_terminalOutput (out : ResponsesOutput) : Sends s (terminalOutput s out) := by
  rw [terminalOutput]
  split
  · exact sends_textDelta _
  · split
    · exact sends_reasoningDelta _
    · split
      · exact sends_toolItem _ _
      · exact sends_nothing rfl rfl

theorem sends_flushKey (key : Key) : Sends s (flushKey s key) := by
  cases key with
  | output n =>
    have htool := toolFor_same (.output n) ("call_output_" ++ toString n) s
    exact (sends_toolDelta _ _).congr htool.1 htool.2
  | item id =>
    have htool := toolFor_same (.item id) id s
    exact (sends_toolDelta _ _).congr htool.1 htool.2
  | call id =>
    have htool := toolFor_same (.call id) ("call:" ++ id) s
    exact (sends_toolDelta _ _).congr htool.1 htool.2

theorem sends_end (hstart : s.sentStart = true) (reason : String) :
    Sends s (s, makeChunk s {} (some reason) :: usageChunks s) := by
  apply sends_behind hstart
  intro hasked c hc
  rcases mem_cons.mp hc with rfl | hc
  · exact plain_makeChunk _ _
  · rw [usageChunks, hasked] at hc
    exact absurd hc not_mem_nil

variable (response : Option Response)

theorem sends_finalize : Sends s (finalize response s) := by
  rw [finalize]
  split
  · exact sends_nothing rfl rfl
  · have hflush : Sends s (flushAllPendingTools { s with finalized := true }) :=
      sends_foldl (pendingKeys { s with finalized := true }) (fun key _ _ => sends_flushKey key)
        (sends_nothing rfl rfl)
    exact (hflush.andThen sends_ensureStart).andThen (sends_end ensureStart_started _)

theorem applyResponseMetadata_same : (applyResponseMetadata response s).includeUsage = s.includeUsage ∧
      (applyResponseMetadata response s).sentStart = s.sentStart := by
  cases response with
  | none | some => exact ⟨rfl, rfl⟩

theorem sends_terminal : Sends s (terminal response s) := by
  obtain ⟨hasked, hstart⟩ := applyResponseMetadata_same response
  have houtput : Sends s (terminalOutputChunks response (applyResponseMetadata response s)) :=
    sends_foldl _ (fun out _ _ => sends_terminalOutput out) (sends_nothing hasked hstart)
  exact houtput.andThen (sends_finalize response)

theorem sends_event {event : Event} {r : ToChat} (h : responsesStreamEventToChatChunks event s = .ok r) :
    Sends s r := by
  rw [responsesStreamEventToChatChunks] at h
  cases htype : event.type <;> rw [htype] at h <;> cases h
  case created =>
    obtain ⟨hasked, hstart⟩ := applyResponseMetadata_same event.response
    exact sends_ensureStart.congr hasked hstart
  case reasoningSummaryDelta => exact sends_reasoningDelta _
  case reasoningTextDelta => exact sends_reasoningDelta _
  case reasoningSummaryDone => exact sends_nothing rfl rfl
  case reasoningTextDone => exact sends_nothing rfl rfl
  case outputTextDelta => exact sends_textDelta _
  case outputItemAdded => exact sends_outputItem event
  case outputItemDone => exact sends_outputItem event
  case functionArgsDelta => exact sends_toolArgumentsDelta event
  case customToolInputDelta => exact sends_toolArgumentsDelta event
  case functionArgsDone => exact sends_flushPendingTool event
  case customToolInputDone => exact sends_flushPendingTool event
  case completed => exact sends_terminal _
  case done => exact sends_terminal _
  case incomplete => exact sends_terminal _
  case other => exact sends_nothing rfl rfl

/-! What becomes of them. -/

/-- The message has started once a chunk was sent, and has not ended. -/
structure Waiting (started : Bool) (r : Emit) : Prop where
  not_done : r.1.done = false
  counted : r.1.sendResponseCount = 0 ↔ started = false
  no_stop : .messageStop ∉ r.2

variable (lower : String → String)

theorem sendChatChunk_plain {c : Chunk} (hc : Plain c) (info : ClaudeInfo) :
    sendChatChunk lower info c = handleClaudeFormat lower info c := by
  obtain ⟨⟨_, hchoices⟩, -⟩ := hc
  apply if_neg
  rw [hchoices]
  exact fun hn => absurd hn.1 (cons_ne_nil _ _)

variable {r : Emit}

theorem waiting_first (h : Waiting false r) {c : Chunk} (hc : c.Ordinary) (hplain : Plain c) :
    Waiting true (r.andThen (fun info => sendChatChunk lower info c)) := by
  have hcount : (received r.1 c).sendResponseCount = 1 := congrArg (·+1) (h.counted.mpr rfl)
  have hdone : (received r.1 c).done = false := h.not_done
  have hhandle : handleClaudeFormat lower r.1 c = firstChunk lower c (received r.1 c) := by
    rw [handleClaudeFormat, streamResponseOpenAI2Claude, hdone, if_neg Bool.false_ne_true, if_pos hcount]
  have hsame := inside_firstDelta c.delta (received r.1 c)
  rw [Emit.andThen, sendChatChunk_plain lower hplain, hhandle, firstChunk_ordinary lower hc]
  refine ⟨hsame.done_eq.trans hdone, ?_, ?_⟩
  · rw [hsame.count_eq, hcount]
    constructor
    · intro h
      cases h
    · intro h
      cases h
  · intro hmem
    rcases mem_append.mp hmem with hmem | hmem
    · exact h.no_stop hmem
    · rcases mem_cons.mp hmem with hmem | hmem
      · cases hmem
      · exact absurd (hsame.onBlocks _ hmem) Bool.false_ne_true

theorem waiting_next (h : Waiting true r) {c : Chunk} (hplain : Plain c) :
    Waiting true (r.andThen (fun info => sendChatChunk lower info c)) := by
  have hcount : ∃ n, r.1.sendResponseCount = n+1 :=
    Nat.exists_eq_succ_of_ne_zero (fun hn => absurd (h.counted.mp hn) nofun)
  obtain ⟨_, hn⟩ := hcount
  have hcounted {info : ClaudeInfo} (heq : info.sendResponseCount = (received r.1 c).sendResponseCount) :
      info.sendResponseCount = 0 ↔ true = false := by
    rw [heq]
    exact ⟨nofun, nofun⟩
  have hdone : (received r.1 c).done = false := h.not_done
  rw [Emit.andThen, sendChatChunk_plain lower hplain, handleClaudeFormat_next lower h.not_done hn]
  obtain ⟨⟨choice, hchoices⟩, husage⟩ := hplain
  cases hfinish : choice.finish with
  | none =>
    have hsame := inside_nextContent c.delta (received r.1 c)
    rw [nextChunk_ordinary lower ⟨choice, hchoices, hfinish⟩]
    refine ⟨hsame.done_eq.trans hdone, hcounted hsame.count_eq, ?_⟩
    intro hmem
    rcases mem_append.mp hmem with hmem | hmem
    · exact h.no_stop hmem
    · exact absurd (hsame.onBlocks _ hmem) Bool.false_ne_true
  | some reason =>
    obtain ⟨_, hnext⟩ := nextChunk_finishing lower ⟨choice, reason, hchoices, hfinish⟩
    rw [if_pos husage] at hnext
    rw [hnext, append_nil]
    exact ⟨hdone, hcounted rfl, h.no_stop⟩

theorem waiting_run (h : Waiting true r) {cs : List Chunk} (hcs : ∀ c ∈ cs, Plain c) :
    Waiting true (sendChatChunks lower r cs) := by
  induction cs generalizing r with
  | nil => exact h
  | cons c cs ih =>
    exact ih (waiting_next lower h (hcs c mem_cons_self)) (fun c' hc' => hcs c' (mem_cons_of_mem _ hc'))

theorem waiting_sends {t : ToChat} (h : Waiting s.sentStart r) (hsends : Sends s t)
    (hasked : s.includeUsage = false) : Waiting t.1.sentStart (sendChatChunks lower r t.2) := by
  have hplain := hsends.plain hasked
  cases hstart : s.sentStart with
  | true =>
    rw [hsends.started hstart]
    exact waiting_run lower (hstart ▸ h) hplain
  | false =>
    rcases hsends.first hstart with ⟨hnone, hstart'⟩ | ⟨hstart', c, _, hcs, hc⟩
    · rw [hnone, hstart', ← hstart]
      exact h
    · rw [hcs] at hplain ⊢
      rw [hstart']
      exact waiting_run lower (waiting_first lower (hstart ▸ h) hc (hplain c mem_cons_self))
        (fun c' hc' => hplain c' (mem_cons_of_mem _ hc'))

theorem waiting_scan (events : List Event) (h : Waiting s.sentStart r) (hasked : s.includeUsage = false) :
    (scanToClaude lower s r events).1.includeUsage = false ∧
      Waiting (scanToClaude lower s r events).1.sentStart (scanToClaude lower s r events).2.1 := by
  induction events generalizing s r with
  | nil => exact ⟨hasked, h⟩
  | cons event events ih =>
    cases hevent : responsesStreamEventToChatChunks event s with
    | error =>
      rw [scanToClaude, hevent]
      exact ⟨hasked, h⟩
    | ok =>
      have hsends := sends_event hevent
      rw [scanToClaude, hevent]
      exact ih (waiting_sends lower h hsends hasked) (hsends.asked.trans hasked)

theorem no_stop_handler (estimated : StreamState → Usage) (estimate : Int) (hstart : s.sentStart = false)
    (hasked : s.includeUsage = false) (events : List Event) :
    .messageStop ∉ (oaiResponsesToChatStreamHandler lower estimated (beginInfo estimate) s events).1 := by
  have hbegin : Waiting s.sentStart (beginInfo estimate, []) := by
    refine ⟨rfl, ?_, not_mem_nil⟩
    rw [hstart]
    exact ⟨fun _ => rfl, fun _ => rfl⟩
  obtain ⟨hasked', hwait⟩ := waiting_scan lower events hbegin hasked
  rw [oaiResponsesToChatStreamHandler]
  split
  · next s' r err hscan =>
    rw [hscan] at hwait
    exact hwait.no_stop
  · next s' r hscan =>
    rw [hscan] at hwait hasked'
    have husage (usage : Usage) : Waiting s'.sentStart ({ r.1 with usage := some usage }, r.2) :=
      ⟨hwait.not_done, hwait.counted, hwait.no_stop⟩
    have hfinal (usage : Usage) : Sends s' (finalizeResponsesToChatStream { s' with usage }) :=
      (sends_finalize none).congr rfl rfl
    exact (waiting_sends lower (husage _) (hfinal _) hasked').no_stop

/-! Both ways to a Claude client. -/

inductive Source
  | chat (pre : List Chunk) (finish : Chunk) (tail : List Chunk)
  | responses (id model : String) (created : Int) (events : List Event)

variable (usage : List Chunk → Usage) (estimated : StreamState → Usage) (estimate : Int)

def Source.toClaude : Source → List ClaudeEvent × Option String
  | .chat pre finish tail => (oaiStreamHandler lower usage (beginInfo estimate) (pre ++ [finish] ++ tail), none)
  | .responses id model created events =>
    oaiResponsesToChatStreamHandler lower estimated (beginInfo estimate) { id, model, created } events

def Source.Normal : Source → Prop
  | .chat pre finish tail => EndsNormally pre finish tail
  | .responses id model created events =>
    (oaiResponsesToChatStreamHandler lower estimated (beginInfo estimate) { id, model, created } events).2 = none

/-- The end of the message is told and its tool calls are announced; that of a Responses stream never is. -/
def Source.Complete : Source → Prop
  | .chat pre finish tail => EndTold pre finish tail ∧ ToolsAnnounced (told pre finish)
  | .responses _ _ _ _ => False

theorem toClaude_valid_iff (src : Source) (h : src.Normal lower estimated estimate) :
    ValidStream (src.toClaude lower usage estimated estimate).1 ↔ src.Complete := by
  cases src with
  | chat => exact oaiStreamHandler_valid_iff lower usage estimate h
  | responses id model created events =>
    constructor
    · intro hvalid
      exact no_stop_handler lower estimated estimate rfl rfl events hvalid.mem_messageStop
    · exact False.elim

def callingSource : Source :=
  .chat [{ choices := [{ delta := { role := "assistant", content := some "One moment." } }] },
      { choices := [{ delta := {
        toolCalls := [{ index := some 0, id := "call_1", name := "weather", arguments := "[1" },
        { index := some 1, id := "call_2", name := "time" }] } }] },
      { choices := [{ delta := { toolCalls := [{ index := some 1, arguments := "[]" },
        { index := some 0, arguments := "]" }] } }] }]
    { choices := [{ finishReason := some "tool_calls" }], usage := some {} } []

theorem toClaude_valid_calling : ValidStream (callingSource.toClaude id (fun _ => {}) (fun _ => {}) 0).1 := by
  have hnormal : callingSource.Normal id (fun _ => {}) 0 := by
    refine ⟨?_, ⟨_, _, rfl, rfl⟩, .inl rfl⟩
    rw [forall_mem_cons, forall_mem_cons, forall_mem_singleton]
    exact ⟨⟨_, rfl, rfl⟩, ⟨_, rfl, rfl⟩, _, rfl, rfl⟩
  exact (toClaude_valid_iff id (fun _ => {}) (fun _ => {}) 0 callingSource hnormal).mpr
    ⟨by decide, by decide +kernel⟩

def plainSource : Source :=
  .chat [{ id := "1", model := "model", choices := [{ delta := { role := "assistant" } }] },
      { id := "1", model := "model", choices := [{ delta := { content := some "Hi" } }] }]
    { id := "1", model := "model", choices := [{ finishReason := some "stop" }] } []

def plainResponses : Source :=
  .responses "1" "model" 0 [{ type := .created }, { type := .outputTextDelta, delta := "Hi" },
    { type := .completed
      response := some { status := some "completed", usage := some { inputTokens := 1, outputTokens := 1 } } }]

theorem toClaude_unfinished : plainSource.Normal id (fun _ => {}) 0 ∧ plainResponses.Normal id (fun _ => {}) 0 ∧
      (plainSource.toClaude id (fun _ => {}) (fun _ => {}) 0).1 =
        [.messageStart "1" "model" 0, .contentBlockStart 0 .text, .contentBlockDelta 0 (.text "Hi")] ∧
      (plainResponses.toClaude id (fun _ => {}) (fun _ => {}) 0).1 =
        [.messageStart "1" "model" 0, .contentBlockStart 0 .text, .contentBlockDelta 0 (.text "Hi")] := by
  have hok : (plainResponses.toClaude id (fun _ => {}) (fun _ => {}) 0).2 = none := by decide +kernel
  refine ⟨⟨?_, ⟨_, _, rfl, rfl⟩, .inl rfl⟩, hok, by decide +kernel, by decide +kernel⟩
  rw [forall_mem_cons, forall_mem_singleton]
  exact ⟨⟨_, rfl, rfl⟩, _, rfl, rfl⟩

end AiGateway.Responses
