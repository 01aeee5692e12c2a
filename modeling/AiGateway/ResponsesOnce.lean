import AiGateway.ResponsesRepeat

/-! A Responses stream as a whole: what a well-formed one is, and when its chat stream tells every call once
and the text of its messages. -/
namespace AiGateway.Responses

open AiGateway.Convert (Chunk contents)
open AiGateway.GoText (trimSpace)
open List Option Run

def Event.output (e : Event) : List ResponsesOutput := (e.response.map (·.output)).getD []

variable (body : List Event)

def announced : List Call := exec afterEvent [] body

def allCalls (last : Event) : List Call := exec afterOutput (announced body) last.output

/-! The text. -/

def outputTexts (outs : List ResponsesOutput) : List String :=
  (outs.filter (fun out => out.type = .message)).map messageText

def streamText (last : Event) : String :=
  if deltaText body = "" then String.join (outputTexts last.output) else deltaText body

def TextOnce (last : Event) : Prop :=
  deltaText body ≠ "" ∨ ((outputTexts last.output).filter (· ≠ "")).length ≤ 1

instance (body : List Event) (last : Event) : Decidable (TextOnce body last) :=
  inferInstanceAs (Decidable (_ ∨ _))

variable (outs : List ResponsesOutput)

theorem foldl_keptText_of_ne {text : String} (h : text ≠ "") : outs.foldl keptText text = text := by
  induction outs with
  | nil => rfl
  | cons out outs ih =>
    have hkept : keptText text out = text := if_neg (fun hn => h hn.2)
    rw [foldl_cons, hkept, ih]

theorem join_eq_empty_iff (l : List String) : String.join l = "" ↔ (l.filter (· ≠ "")).length = 0 := by
  induction l with
  | nil => exact ⟨fun _ => rfl, fun _ => rfl⟩
  | cons t l ih =>
    rw [String.join_cons]
    by_cases ht : t = ""
    · subst ht
      rw [String.empty_append, ih, filter_cons, if_neg (by decide)]
    · rw [filter_cons, if_pos (decide_eq_true ht), length_cons]
      constructor
      · intro hnil
        have hlength := congrArg String.length hnil
        rw [String.length_append] at hlength
        have hzero : ("" : String).length = 0 := rfl
        exact absurd (String.length_eq_zero_iff.mp (by omega)) ht
      · intro hzero
        exact absurd hzero (Nat.succ_ne_zero _)

theorem foldl_keptText_iff :
    outs.foldl keptText "" = String.join (outputTexts outs) ↔
      ((outputTexts outs).filter (· ≠ "")).length ≤ 1 := by
  induction outs with
  | nil => exact ⟨fun _ => Nat.zero_le _, fun _ => rfl⟩
  | cons out outs ih =>
    by_cases hmessage : out.type = .message
    · have htexts : outputTexts (out :: outs) = messageText out :: outputTexts outs := by
        rw [outputTexts, filter_cons, if_pos (decide_eq_true hmessage)]
        rfl
      have hkept : keptText "" out = messageText out := if_pos ⟨hmessage, rfl⟩
      rw [foldl_cons, hkept, htexts, String.join_cons]
      by_cases htext : messageText out = ""
      · rw [htext, String.empty_append, ih, filter_cons, if_neg (by decide)]
      · rw [foldl_keptText_of_ne outs htext, filter_cons, if_pos (decide_eq_true htext), length_cons]
        constructor
        · intro heq
          have hrest : "" = String.join (outputTexts outs) := by
            apply (String.append_right_inj (messageText out)).mp
            rw [String.append_empty]
            exact heq
          rw [(join_eq_empty_iff _).mp hrest.symm]
        · intro hle
          have hzero : ((outputTexts outs).filter (· ≠ "")).length = 0 := Nat.le_zero.mp (Nat.le_of_succ_le_succ hle)
          rw [(join_eq_empty_iff _).mpr hzero, String.append_empty]
    · have htexts : outputTexts (out :: outs) = outputTexts outs := by
        rw [outputTexts, filter_cons, if_neg (by rwa [decide_eq_true_iff])]
        rfl
      have hkept : keptText "" out = "" := if_neg (fun hn => hmessage hn.1)
      rw [foldl_cons, hkept, htexts, ih]

theorem keptText_iff (last : Event) :
    last.output.foldl keptText (deltaText body) = streamText body last ↔ TextOnce body last := by
  rw [streamText, TextOnce]
  by_cases htext : deltaText body = ""
  · rw [htext, if_pos rfl, foldl_keptText_iff]
    exact ⟨.inr, fun h => h.resolve_left (fun hn => hn rfl)⟩
  · rw [if_neg htext, foldl_keptText_of_ne _ htext]
    exact ⟨fun _ => .inl htext, fun _ => rfl⟩

/-! The whole stream. -/

/-- Events that fit each other and what was announced, and one at the end that says how the response ended. -/
structure WellFormed (last : Event) : Prop where
  events : Along afterEvent EventOk [] body
  last_type : last.type ∈ [.completed, .done, .incomplete]
  incomplete : last.type = .incomplete →
    ∀ resp ∈ last.response, resp.status = none ∨ responseStatusString resp = "incomplete"
  complete : last.type ≠ .incomplete → ∀ resp ∈ last.response, responseStatusString resp ≠ "incomplete"
  outputs : Along afterOutput OutputOk (announced body) last.output
  text : deltaText body ≠ "" → ∀ t ∈ outputTexts last.output, t ≠ "" →
    String.join (outputTexts last.output) = deltaText body

def responsesToChat (s : StreamState) (events : List Event) : Except String (List Chunk) :=
  (runEvents (s, []) events).map (fun r => (r.andThen finalizeResponsesToChatStream).2)

/-- One index for each call, in the order of the calls, with its id and name and its arguments. -/
def ToldOnce (calls : List Call) (chunks : List Chunk) : Prop :=
  collected chunks = numbered calls ∧ ∀ f ∈ toolCallsOf chunks, ∃ c, calls[f.index.getD 0]? = some c ∧
    f.id = c.callId

def EndsWith (reason : String) (chunks : List Chunk) : Prop :=
  ∃ pre final tail, chunks = pre ++ final :: tail ∧
    (∀ c ∈ pre, ∀ choice ∈ c.choices, choice.finishReason = none) ∧
    final.choices = [{ finishReason := some reason }] ∧ ∀ c ∈ tail, c.choices = []

def lastResponse (last : Event) : Option Response :=
  if last.type = .incomplete then some (ensureIncompleteResponse last.response) else last.response

theorem output_lastResponse (last : Event) : ((lastResponse last).map (·.output)).getD [] = last.output := by
  rw [lastResponse, Event.output]
  split
  · rw [ensureIncompleteResponse]
    cases last.response with
    | none => rfl
    | some =>
      rw [getD_some, map_some, map_some, getD_some, getD_some]
      split <;> rfl
  · rfl

variable {last : Event}

theorem terminal_event (h : last.type ∈ [EventType.completed, .done, .incomplete]) (s : StreamState) :
    responsesStreamEventToChatChunks last s = .ok (terminal (lastResponse last) s) := by
  rw [responsesStreamEventToChatChunks, lastResponse]
  cases htype : last.type with
  | completed | done | incomplete => rfl
  | _ =>
    rw [htype] at h
    exact absurd h (by decide)

theorem finishReason_lastResponse {body : List Event} (h : WellFormed body last) (saw : Bool) :
    finishReasonOf (lastResponse last) saw = "tool_calls" ↔ saw = true ∧ last.type ≠ .incomplete := by
  have htrim : trimSpace "incomplete" = "incomplete" := by decide +kernel
  rw [finishReasonOf, lastResponse]
  by_cases htype : last.type = .incomplete
  · have hstatus : responseStatusString (ensureIncompleteResponse last.response) = "incomplete" := by
      rw [ensureIncompleteResponse]
      cases hresp : last.response with
      | none => exact htrim
      | some resp =>
        rw [getD_some]
        split
        · exact htrim
        · next hne => exact (h.incomplete htype resp hresp).resolve_left hne
    have hreason (t : String) (ht : t ≠ "tool_calls") :
        t = "tool_calls" ↔ saw = true ∧ last.type ≠ .incomplete :=
      ⟨fun he => absurd he ht, fun hn => absurd htype hn.2⟩
    rw [if_pos htype, responsesFinishReasonFromStatus, bind_some, if_neg (not_not.mpr hstatus)]
    by_cases hfilter : trimSpace ((ensureIncompleteResponse last.response).incompleteReason.getD "") = "content_filter"
    · rw [if_pos hfilter]
      exact hreason "content_filter" (by decide)
    · rw [if_neg hfilter]
      exact hreason "length" (by decide)
  · have hnone : responsesFinishReasonFromStatus last.response = none := by
      rw [responsesFinishReasonFromStatus]
      cases hresp : last.response with
      | none => rfl
      | some resp => rw [bind_some, if_pos (h.complete htype resp hresp)]
    rw [if_neg htype, hnone]
    cases saw with
    | true => exact ⟨fun _ => ⟨rfl, htype⟩, fun _ => rfl⟩
    | false =>
      constructor
      · intro heq
        exact absurd heq (by decide)
      · rintro ⟨hfalse, -⟩
        cases hfalse

theorem isEmpty_record (same : Call → Bool) (key : Key) (item : ResponsesOutput) (calls : List Call) :
    (recordCall same key item calls).isEmpty = false := by
  rw [recordCall]
  cases calls with
  | nil => rfl
  | cons => split <;> rfl

theorem isEmpty_exec {calls kept : List Call} (h : kept.isEmpty = calls.isEmpty) :
    (exec keptOutput kept outs).isEmpty = (exec afterOutput calls outs).isEmpty := by
  induction outs generalizing calls kept with
  | nil => exact h
  | cons out outs ih =>
    apply ih
    rw [keptOutput, afterOutput]
    split
    · rw [isEmpty_record, isEmpty_record]
    · exact h

theorem toolCallsOf_append (cs cs' : List Chunk) : toolCallsOf (cs ++ cs') = toolCallsOf cs ++ toolCallsOf cs' :=
  flatMap_append

theorem said_end {calls : List Call} {text : String} {pre : List Chunk} (h : Said calls text pre) (s : StreamState)
    (reason : String) : EndsWith reason (pre ++ makeChunk s {} (some reason) :: usageChunks s) ∧
      ToldOnce calls (pre ++ makeChunk s {} (some reason) :: usageChunks s) ∧
      contents (pre ++ makeChunk s {} (some reason) :: usageChunks s) = text := by
  have htools : toolCallsOf (makeChunk s {} (some reason) :: usageChunks s) = [] := by
    rw [usageChunks]
    split <;> rfl
  have htext : contents (makeChunk s {} (some reason) :: usageChunks s) = "" := by
    rw [usageChunks]
    split <;> rfl
  refine ⟨⟨pre, _, _, rfl, ?_, rfl, ?_⟩, ⟨?_, ?_⟩, ?_⟩
  · intro c hc choice hchoice
    obtain ⟨_, hchoices, hnone⟩ := h.plain c hc
    rw [hchoices, mem_singleton] at hchoice
    rw [hchoice, hnone]
  · intro c hc
    rw [usageChunks] at hc
    split at hc
    · rw [mem_singleton.mp hc]
    · exact absurd hc not_mem_nil
  · rw [collected, toolCallsOf_append, htools, append_nil]
    exact h.calls_eq
  · rw [toolCallsOf_append, htools, append_nil]
    exact h.ids
  · rw [contents_append, htext, String.append_empty, h.text_eq]

def keptCalls (last : Event) : List Call := exec keptOutput (announced body) last.output

/-- The chat stream of a well-formed Responses stream: it tells the entries that the code keeps. -/
theorem responsesToChat_kept (id model : String) (created : Int) (includeUsage : Bool) {body : List Event}
    (h : WellFormed body last) :
    ∃ chunks, responsesToChat (.begin id model created includeUsage) (body ++ [last]) = .ok chunks ∧
      EndsWith (finishReasonOf (lastResponse last) !(keptCalls body last).isEmpty) chunks ∧
      ToldOnce (keptCalls body last) chunks ∧ contents chunks = last.output.foldl keptText (deltaText body) := by
  obtain ⟨r, hrun, hsim⟩ := sim_run body (sim_begin id model created includeUsage) h.events
  rw [String.empty_append] at hsim
  have hfits := fits_of_ok last.output (behind_refl hsim.keyed) h.outputs
  have hgoing := going_outputs last.output (going_metadata hsim.going (lastResponse last)) hfits
  obtain ⟨s, pre, hend, hended⟩ := finalize_chunks hgoing (lastResponse last)
  have hterminal : r.andThen (terminal (lastResponse last)) =
      ToChat.andThen (last.output.foldl (fun r out => ToChat.andThen r (fun s => terminalOutput s out))
        (applyResponseMetadata (lastResponse last) r.1, r.2)) (finalize (lastResponse last)) := by
    rw [← andThen_foldl]
    simp only [terminal, terminalOutputChunks, output_lastResponse, ToChat.andThen, append_assoc]
  have hchunks : responsesToChat (.begin id model created includeUsage) (body ++ [last]) =
      .ok (pre ++ makeChunk s {} (some (finishReasonOf (lastResponse last) s.sawToolCall)) :: usageChunks s) := by
    rw [responsesToChat, hrun [last], runEvents, terminal_event h.last_type, Except.bind]
    change Except.map _ (Except.ok (r.andThen (terminal (lastResponse last)))) = _
    have hfinal : finalizeResponsesToChatStream s = (s, []) := by
      rw [finalizeResponsesToChatStream, finalize, hended.ended_eq, if_pos rfl]
    rw [hterminal, hend, Except.map, ToChat.andThen, hfinal, append_nil]
  have hsaw : s.sawToolCall = !(keptCalls body last).isEmpty := hended.tools.saw
  rw [hsaw] at hchunks
  exact ⟨_, hchunks, said_end hended.said s _⟩

/-- Every call is told once and the text is that of the messages exactly if no call with an output index comes
again in the last output and, without deltas, no more than one message has text. -/
theorem calls_told_once_iff (id model : String) (created : Int) (includeUsage : Bool) {body : List Event} {last : Event}
    (h : WellFormed body last) :
    ∃ chunks reason, responsesToChat (.begin id model created includeUsage) (body ++ [last]) = .ok chunks ∧
      EndsWith reason chunks ∧ (reason = "tool_calls" ↔ allCalls body last ≠ [] ∧ last.type ≠ .incomplete) ∧
      ((ToldOnce (allCalls body last) chunks ∧ contents chunks = streamText body last) ↔
        NotIndexed (announced body) last.output ∧ TextOnce body last) := by
  obtain ⟨_, -, hsim⟩ := sim_run body (sim_begin id model created includeUsage) h.events
  have hkeyed : Keyed (announced body) := hsim.keyed
  obtain ⟨chunks, hchunks, hends, htold, htext⟩ := responsesToChat_kept id model created includeUsage h
  have hempty : (keptCalls body last).isEmpty = (allCalls body last).isEmpty :=
    isEmpty_exec last.output (rfl : (announced body).isEmpty = (announced body).isEmpty)
  refine ⟨chunks, _, hchunks, hends, ?_, ?_⟩
  · rw [finishReason_lastResponse h, hempty, Bool.not_eq_true', isEmpty_eq_false_iff]
  · rw [htext, keptText_iff]
    constructor
    · rintro ⟨hcalls, honce⟩
      refine ⟨notIndexed_of_length hkeyed h.outputs ?_, honce⟩
      have hlength := congrArg length (htold.1.symm.trans hcalls.1)
      rw [numbered, numbered, length_mapIdx, length_mapIdx] at hlength
      exact hlength.le
    · rintro ⟨hindexed, honce⟩
      refine ⟨?_, honce⟩
      rw [keptCalls, exec_kept_eq last.output hkeyed h.outputs hindexed] at htold
      exact htold

def weatherCall (arguments : String) : ResponsesOutput :=
  { type := .functionCall, id := "fc_1", callId := "call_1", name := "weather", arguments }

def timeCall (arguments : String) : ResponsesOutput :=
  { type := .functionCall, id := "fc_2", callId := "call_2", name := "time", arguments }

def parallelBody : List Event :=
  [{ type := .created }, { type := .outputTextDelta, delta := "One " },
    { type := .outputTextDelta, delta := "moment." },
    { type := .outputItemAdded, item := some (weatherCall "") },
      { type := .outputItemAdded, item := some (timeCall "") },
    { type := .functionArgsDelta, delta := "[1", itemId := "fc_1" },
    { type := .functionArgsDelta, delta := "[", itemId := "fc_2" },
    { type := .functionArgsDelta, delta := "]", itemId := "fc_1" }, { type := .functionArgsDone, itemId := "fc_1" },
    { type := .outputItemDone, item := some (timeCall "[]") },
      { type := .outputItemDone, item := some (weatherCall "[1]") }]

def parallelLast : Event :=
  { type := .completed
    response := some
      { status := some "completed"
        output := [{ type := .message, content := [{ text := "One moment." }] }, weatherCall "[1]",
          timeCall "[]"] } }

theorem calls_told_once_parallel :
    allCalls parallelBody parallelLast = [.ofItem (.item "fc_1") (weatherCall "[1]"),
      .ofItem (.item "fc_2") (timeCall "[]")] ∧
      ∃ chunks, responsesToChat (.begin "resp_1" "model" 0 false) (parallelBody ++ [parallelLast]) = .ok chunks ∧
        EndsWith "tool_calls" chunks ∧ ToldOnce (allCalls parallelBody parallelLast) chunks ∧
        contents chunks = streamText parallelBody parallelLast := by
  have hwell : WellFormed parallelBody parallelLast := by
    refine ⟨by decide +kernel, by decide, nofun, ?_, by decide +kernel, by decide +kernel⟩
    intro _ resp hresp
    cases hresp
    decide +kernel
  have hcalls : allCalls parallelBody parallelLast =
      [.ofItem (.item "fc_1") (weatherCall "[1]"), .ofItem (.item "fc_2") (timeCall "[]")] := by decide +kernel
  obtain ⟨chunks, reason, hchunks, hends, hreason, htold⟩ := calls_told_once_iff "resp_1" "model" 0 false hwell
  have hfinish : reason = "tool_calls" := by
    apply hreason.mpr
    rw [hcalls]
    exact ⟨nofun, nofun⟩
  obtain ⟨honce, htext⟩ := htold.mpr ⟨by decide +kernel, by decide +kernel⟩
  rw [hfinish] at hends
  exact ⟨hcalls, chunks, hchunks, hends, honce, htext⟩

def indexedBody : List Event :=
  [{ type := .created },
    { type := .outputItemAdded, item := some (weatherCall ""), outputIndex := some 0, itemId := "fc_1" },
    { type := .functionArgsDelta, delta := "[]", outputIndex := some 0, itemId := "fc_1" },
    { type := .outputItemDone, item := some (weatherCall "[]"), outputIndex := some 0, itemId := "fc_1" }]

def indexedLast : Event :=
  { type := .completed, response := some { status := some "completed", output := [weatherCall "[]"] } }

theorem call_told_twice : WellFormed indexedBody indexedLast ∧
      allCalls indexedBody indexedLast = [.ofItem (.output 0) (weatherCall "[]")] ∧
      (responsesToChat (.begin "resp_1" "model" 0 false) (indexedBody ++ [indexedLast])).toOption.map collected =
        some [⟨0, "call_1", "weather", "[]"⟩, ⟨1, "call_1", "weather", "[]"⟩] := by
  refine ⟨⟨by decide +kernel, by decide, nofun, ?_, by decide +kernel, by decide +kernel⟩, by decide +kernel,
    by decide +kernel⟩
  intro _ resp hresp
  cases hresp
  decide +kernel

end AiGateway.Responses
