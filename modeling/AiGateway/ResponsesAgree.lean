import AiGateway.ResponsesGathered

/-! The chat stream of a Responses stream, put together by the client, and the chat completion of the gathered
stream: when both say the same. -/
namespace AiGateway.Responses

open AiGateway.Convert (Chunk contents join_singleton)
open AiGateway.GoText (trimSpace)
open List Run

structure Aggregate where
  content : String
  toolCalls : List ChatToolCall
  finishReason : Option String
deriving DecidableEq

def aggregate (chunks : List Chunk) : Aggregate where
  content := contents chunks
  toolCalls := (collected chunks).map (fun t => ⟨t.id, t.name, t.arguments⟩)
  finishReason := (chunks.flatMap (fun c => c.choices)).findSome? (fun choice => choice.finishReason)

def ChatResponse.aggregate (chat : ChatResponse) : Aggregate :=
  ⟨chat.content, chat.toolCalls, some chat.finishReason⟩

def Call.chat (c : Call) : ChatToolCall := ⟨c.callId, c.name, c.arguments⟩

theorem numbered_chat (calls : List Call) :
    (numbered calls).map (fun t => (⟨t.id, t.name, t.arguments⟩ : ChatToolCall)) = calls.map Call.chat := by
  apply ext_getElem?
  intro i
  rw [getElem?_map, getElem?_numbered, getElem?_map, Option.map_map]
  rfl

theorem findSome_endsWith {reason : String} {chunks : List Chunk} (h : EndsWith reason chunks) :
    (chunks.flatMap (fun c => c.choices)).findSome? (fun choice => choice.finishReason) = some reason := by
  obtain ⟨pre, _, _, rfl, hpre, hfinal, -⟩ := h
  have hnone : (pre.flatMap (fun c => c.choices)).findSome? (fun choice => choice.finishReason) = none := by
    rw [findSome?_eq_none_iff]
    intro choice hchoice
    obtain ⟨c, hc, hmem⟩ := mem_flatMap.mp hchoice
    exact hpre c hc choice hmem
  rw [flatMap_append, findSome?_append, hnone, Option.none_or, flatMap_cons, hfinal]
  rfl

/-! The chat completion. -/

variable {last : Event}

theorem scan_last (h : last.type ∈ [EventType.completed, .done, .incomplete]) (a : Accumulator) :
    scanBuffered a [last] = .ok (a, lastResponse last) := by
  rw [scanBuffered, lastResponse, processEvent]
  rcases mem_cons.mp h with htype | h
  · rw [htype]
    cases last.response <;> rfl
  rcases mem_cons.mp h with htype | h
  · rw [htype]
    cases last.response <;> rfl
  · rw [mem_singleton.mp h]
    rfl

def finalResponse (id : String) (now : Int) (model : String) (last : Event) (a : Accumulator) : Response :=
  supplementResponseOutput a ((lastResponse last).getD { id, createdAt := now, model, status := some "completed" })

theorem output_finalResponse (id : String) (now : Int) (model : String) (last : Event) (a : Accumulator) :
    (finalResponse id now model last a).output = if last.output = [] then buildOutput a else last.output := by
  have houtput : ((lastResponse last).getD { id, createdAt := now, model, status := some "completed" }).output =
      last.output := by
    rw [← output_lastResponse]
    cases lastResponse last <;> rfl
  rw [finalResponse, supplementResponseOutput, houtput]
  by_cases hempty : last.output = []
  · rw [if_neg (not_not.mpr hempty), if_pos hempty]
  · rw [if_pos hempty, if_neg hempty, houtput]

theorem status_finalResponse (id : String) (now : Int) (model : String) (last : Event) (a : Accumulator) :
    responsesFinishReasonFromStatus (some (finalResponse id now model last a)) =
      responsesFinishReasonFromStatus (lastResponse last) := by
  have hsupplement (resp : Response) : responsesFinishReasonFromStatus (some (supplementResponseOutput a resp)) =
      responsesFinishReasonFromStatus (some resp) := by
    rw [supplementResponseOutput]
    split <;> rfl
  have htrim : trimSpace "completed" ≠ "incomplete" := by decide +kernel
  rw [finalResponse, hsupplement]
  cases lastResponse last with
  | none => exact if_pos htrim
  | some => rfl

theorem aggregate_completion (resp : Response) (id : String) :
    (responsesResponseToChatCompletionsResponse resp id).aggregate =
      ⟨extractOutputTextFromResponses resp, resp.output.filterMap chatToolCall?,
        some (finishReasonOf (some resp) !(resp.output.filterMap chatToolCall?).isEmpty)⟩ := by
  have hreason : (responsesResponseToChatCompletionsResponse resp id).finishReason =
      finishReasonOf (some resp) !(resp.output.filterMap chatToolCall?).isEmpty := by
    rw [finishReasonOf, responsesResponseToChatCompletionsResponse]
    cases responsesFinishReasonFromStatus (some resp) with
    | some => rfl
    | none => cases resp.output.filterMap chatToolCall? <;> rfl
  rw [ChatResponse.aggregate, hreason]
  rfl

/-! Without an output in the last event: the response that was gathered. -/

def Call.built (c : Call) : ResponsesOutput :=
  { type := .functionCall, id := c.id, callId := c.callId, name := c.name, arguments := c.arguments }

def reasoningBuilt (reasoning : String) : List ResponsesOutput :=
  if reasoning = "" then [] else [{ type := .reasoning, content := [{ type := "summary_text", text := reasoning }] }]

def textBuilt (text : String) : List ResponsesOutput :=
  if text = "" then []
  else [{ type := .message, role := "assistant", content := [{ type := "output_text", text := text }] }]

section
variable {calls : List Call} {text reasoning : String} {a : Accumulator}

theorem buildOutput_eq (h : Gathered calls text reasoning a) :
    buildOutput a = reasoningBuilt reasoning ++ textBuilt text ++ calls.map Call.built := by
  rw [buildOutput, h.text_eq, h.reasoning_eq, h.tools_eq, map_map]
  rfl

theorem calls_built (h : Gathered calls text reasoning a) :
    (buildOutput a).filterMap chatToolCall? = calls.map Call.chat := by
  have hcall (c : Call) (hc : c ∈ calls) : chatToolCall? c.built = some c.chat := by
    obtain ⟨hcall, hname⟩ := h.names c hc
    simp only [chatToolCall?, Call.built, Call.chat, hcall.2, hname.2, hcall.1, hname.1,
      isResponsesToolOutputType, ne_eq,
      not_false_eq_true, and_self, if_true, if_false]
  have hcalls : (calls.map Call.built).filterMap chatToolCall? = calls.map Call.chat := by
    rw [filterMap_map, ← filterMap_eq_map]
    exact filterMap_congr hcall
  have hreasoning : (reasoningBuilt reasoning).filterMap chatToolCall? = [] := by
    rw [reasoningBuilt]
    split <;> rfl
  have htext : (textBuilt text).filterMap chatToolCall? = [] := by
    rw [textBuilt]
    split <;> rfl
  rw [buildOutput_eq h, filterMap_append, filterMap_append, hreasoning, htext, hcalls]
  rfl

theorem join_quiet : String.join ((calls.map Call.built).map contentText) = "" := by
  induction calls with
  | nil => rfl
  | cons c calls ih =>
    rw [map_cons, map_cons, String.join_cons, ih]
    rfl

theorem text_built (h : Gathered calls text reasoning a) {resp : Response} (houtput : resp.output = buildOutput a) :
    extractOutputTextFromResponses resp = if text ≠ "" then text else reasoning := by
  have hmessages : resp.output.filter (fun out => out.type = .message ∧ (out.role = "" ∨ out.role = "assistant")) =
      textBuilt text := by
    have hcalls : (calls.map Call.built).filter (fun out => out.type = .message ∧
      (out.role = "" ∨ out.role = "assistant")) =
        [] := by
      rw [filter_eq_nil_iff]
      intro out hout
      obtain ⟨_, -, rfl⟩ := mem_map.mp hout
      rw [decide_eq_true_iff]
      exact fun hn => nomatch hn.1
    rw [houtput, buildOutput_eq h, filter_append, filter_append, hcalls, append_nil, reasoningBuilt, textBuilt]
    split <;> split <;> rfl
  have hreasoning : String.join ((reasoningBuilt reasoning).map contentText) = reasoning := by
    rw [reasoningBuilt]
    split
    · next hempty => exact hempty.symm
    · exact (join_singleton _).trans (join_singleton reasoning)
  have htext (f : ResponsesOutput → String) (hf : f = messageText ∨ f = contentText) :
      String.join ((textBuilt text).map f) = text := by
    rw [textBuilt]
    split
    · next hempty => exact hempty.symm
    · rcases hf with rfl | rfl <;> exact (join_singleton _).trans (join_singleton text)
  have hall : String.join (resp.output.map contentText) = reasoning ++ text := by
    rw [houtput, buildOutput_eq h, map_append, map_append, String.join_append, String.join_append, join_quiet,
      String.append_empty, hreasoning, htext _ (.inr rfl)]
  rw [extractOutputTextFromResponses, hmessages, htext _ (.inl rfl), hall]
  by_cases hempty : text = ""
  · rw [if_neg (not_not.mpr hempty), if_neg (not_not.mpr hempty), hempty, String.append_empty]
  · rw [if_pos hempty, if_pos hempty]

end

/-! With an output in the last event. -/

def listedCalls (outs : List ResponsesOutput) : List ChatToolCall :=
  (outs.filter (fun out => isResponsesToolOutputType out.type)).map
    (fun out => ⟨out.callId, out.name, out.arguments⟩)

variable (outs : List ResponsesOutput)

theorem proper_of_ok {calls : List Call} (h : Along afterOutput OutputOk calls outs) :
    ∀ out ∈ outs, isResponsesToolOutputType out.type = true → Proper out := by
  induction outs generalizing calls with
  | nil => exact nofun
  | cons out outs ih =>
    intro out' hout' htool
    rcases mem_cons.mp hout' with rfl | hout'
    · exact (h.1 htool).1
    · exact ih h.2 out' hout' htool

theorem calls_listed {outs : List ResponsesOutput}
    (h : ∀ out ∈ outs, isResponsesToolOutputType out.type = true → Proper out) :
    outs.filterMap chatToolCall? = listedCalls outs := by
  induction outs with
  | nil => rfl
  | cons out outs ih =>
    have hrest := ih (fun out' hout' => h out' (mem_cons_of_mem _ hout'))
    by_cases htool : isResponsesToolOutputType out.type = true
    · have hproper := h out mem_cons_self htool
      have hcall : chatToolCall? out = some ⟨out.callId, out.name, out.arguments⟩ := by
        simp only [chatToolCall?, hproper.callId_ne.2, hproper.callId_ne.1, hproper.name_ne.2, hproper.name_ne.1, htool,
          ne_eq, not_false_eq_true, and_self, if_true, if_false]
      rw [filterMap_cons, hcall, hrest, listedCalls, listedCalls, filter_cons, if_pos htool, map_cons]
    · have hcall : chatToolCall? out = none := if_neg (fun hn => htool hn.1)
      rw [filterMap_cons, hcall, hrest, listedCalls, listedCalls, filter_cons, if_neg htool]

theorem ids_after_subset (calls : List Call) :
    calls.map Call.id ⊆ (exec afterOutput calls outs).map Call.id := by
  induction outs generalizing calls with
  | nil => exact List.Subset.refl _
  | cons out outs ih =>
    apply List.Subset.trans _ (ih (afterOutput calls out))
    rw [afterOutput]
    split
    · rw [ids_recordCall]
      split
      · exact List.Subset.refl _
      · exact subset_append_left _ _
    · exact List.Subset.refl _

theorem id_mem_after (calls : List Call) {out : ResponsesOutput} (hout : out ∈ outs)
    (htool : isResponsesToolOutputType out.type = true) :
    out.id ∈ (exec afterOutput calls outs).map Call.id := by
  induction outs generalizing calls with
  | nil => exact absurd hout not_mem_nil
  | cons out' outs ih =>
    rcases mem_cons.mp hout with rfl | hout
    · apply ids_after_subset outs (afterOutput calls out)
      rw [afterOutput, if_pos htool, ids_recordCall]
      split
      · next hany =>
        obtain ⟨c, hc, hid⟩ := any_eq_true.mp hany
        exact mem_map.mpr ⟨c, hc, of_decide_eq_true hid⟩
      · exact mem_append_right _ (mem_singleton_self _)
    · exact ih (afterOutput calls out') hout

theorem length_listed_le {outs : List ResponsesOutput} (calls : List Call)
    (h : ((outs.filter (fun out => isResponsesToolOutputType out.type)).map (·.id)).Nodup) :
    (listedCalls outs).length ≤ (exec afterOutput calls outs).length := by
  have hsubset : (outs.filter (fun out => isResponsesToolOutputType out.type)).map (·.id) ⊆
      (exec afterOutput calls outs).map Call.id := by
    intro id hid
    obtain ⟨out, hout, rfl⟩ := mem_map.mp hid
    obtain ⟨hout, htool⟩ := mem_filter.mp hout
    exact id_mem_after outs calls hout htool
  have hle := (subperm_of_subset h hsubset).length_le
  rw [length_map, length_map] at hle
  rwa [listedCalls, length_map]

theorem text_listed {resp : Response}
    (hroles : ∀ out ∈ resp.output, out.type = .message → out.role = "" ∨ out.role = "assistant") :
    extractOutputTextFromResponses resp =
      if String.join (outputTexts resp.output) ≠ "" then String.join (outputTexts resp.output)
      else String.join (resp.output.map contentText) := by
  have hmessages : resp.output.filter (fun out => out.type = .message ∧ (out.role = "" ∨ out.role = "assistant")) =
      resp.output.filter (fun out => out.type = .message) := by
    apply filter_congr
    intro out hout
    rw [decide_eq_decide]
    exact ⟨fun hn => hn.1, fun htype => ⟨htype, hroles out hout htype⟩⟩
  rw [extractOutputTextFromResponses, hmessages]
  rfl

/-! Both ways. -/

/-- A well-formed stream in which an event names its own item, and the last output is that of one assistant and
lists an item once. -/
structure Coherent (body : List Event) (last : Event) : Prop extends WellFormed body last where
  names : ∀ e ∈ body, NamesItem e
  distinct : ((last.output.filter (fun out => isResponsesToolOutputType out.type)).map (·.id)).Nodup
  roles : ∀ out ∈ last.output, out.type = .message → out.role = "" ∨ out.role = "assistant"

/-- The last output lists all calls complete and in order, none of which has an output index, and its text is
that of the stream; if there is no output, not only reasoning came. -/
def Agreeable (body : List Event) (last : Event) : Prop :=
  if last.output = [] then deltaText body ≠ "" ∨ deltaReasoning body = ""
  else
    (NotIndexed (announced body) last.output ∧ listedCalls last.output = (allCalls body last).map Call.chat) ∧
      TextOnce body last ∧
      (String.join (outputTexts last.output) = "" → String.join (last.output.map contentText) = deltaText body)

instance (body : List Event) (last : Event) : Decidable (Agreeable body last) :=
  inferInstanceAs (Decidable (ite _ _ _))

theorem calls_agree_iff {body : List Event} (hkeyed : Keyed (announced body)) (h : Coherent body last) :
    (keptCalls body last).map Call.chat = listedCalls last.output ↔
      NotIndexed (announced body) last.output ∧ listedCalls last.output = (allCalls body last).map Call.chat := by
  constructor
  · intro heq
    have hlength : (keptCalls body last).length ≤ (allCalls body last).length := by
      have hlisted := congrArg length heq
      rw [length_map] at hlisted
      rw [hlisted]
      exact length_listed_le (announced body) h.distinct
    have hn : NotIndexed (announced body) last.output := notIndexed_of_length hkeyed h.outputs hlength
    rw [keptCalls, exec_kept_eq last.output hkeyed h.outputs hn] at heq
    exact ⟨hn, heq.symm⟩
  · rintro ⟨hn, hlisted⟩
    rw [hlisted, keptCalls, exec_kept_eq last.output hkeyed h.outputs hn]
    rfl

theorem text_agrees_iff {body : List Event} (h : WellFormed body last) :
    last.output.foldl keptText (deltaText body) =
        (if String.join (outputTexts last.output) ≠ "" then String.join (outputTexts last.output)
          else String.join (last.output.map contentText)) ↔
      TextOnce body last ∧
        (String.join (outputTexts last.output) = "" →
          String.join (last.output.map contentText) = deltaText body) := by
  by_cases hempty : String.join (outputTexts last.output) = ""
  · have honce : TextOnce body last := .inr (by rw [(join_eq_empty_iff _).mp hempty]; exact Nat.zero_le 1)
    have hkept : last.output.foldl keptText (deltaText body) = deltaText body := by
      rw [(keptText_iff body last).mpr honce, streamText, hempty]
      split
      · next hnone => exact hnone.symm
      · rfl
    rw [if_neg (not_not.mpr hempty), hkept]
    exact ⟨fun heq => ⟨honce, fun _ => heq.symm⟩, fun hr => (hr.2 hempty).symm⟩
  · -- the deltas, if there were any, were the text of the messages
    have hstream : streamText body last = String.join (outputTexts last.output) := by
      rw [streamText]
      split
      · rfl
      · next htext =>
        have hsome : ∃ t ∈ outputTexts last.output, t ≠ "" := by
          by_contra hnone
          push Not at hnone
          apply hempty
          rw [join_eq_empty_iff, length_eq_zero_iff, filter_eq_nil_iff]
          intro t ht
          rw [decide_eq_true_iff, not_not]
          exact hnone t ht
        obtain ⟨t, ht, hne⟩ := hsome
        exact (h.text htext t ht hne).symm
    rw [if_pos hempty, ← hstream, keptText_iff]
    exact ⟨fun honce => ⟨honce, fun hn => absurd hn (hstream ▸ hempty)⟩, fun hr => hr.1⟩

theorem aggregate_chunks {calls : List Call} {chunks : List Chunk}
    (hends : EndsWith (finishReasonOf (lastResponse last) !calls.isEmpty) chunks)
    (htold : ToldOnce calls chunks) :
    aggregate chunks =
      ⟨contents chunks, calls.map Call.chat,
        some (finishReasonOf (lastResponse last) !(calls.map Call.chat).isEmpty)⟩ := by
  rw [aggregate, htold.1, numbered_chat, findSome_endsWith hends, isEmpty_map]

theorem aggregate_eq_iff {text text' : String} {calls calls' : List ChatToolCall} (reason : Bool → String) :
    (⟨text, calls, some (reason !calls.isEmpty)⟩ : Aggregate) =
      ⟨text', calls', some (reason !calls'.isEmpty)⟩ ↔
      calls = calls' ∧ text = text' := by
  constructor
  · intro heq
    exact ⟨congrArg Aggregate.toolCalls heq, congrArg Aggregate.content heq⟩
  · rintro ⟨rfl, rfl⟩
    rfl

/-- The stream and the gathered response agree exactly if the last output is complete, in order and without
calls that have an output index. -/
theorem bridges_agree_iff (id model : String) (now : Int) (includeUsage : Bool) {body : List Event} {last : Event}
    (h : Coherent body last) :
    ∃ chunks chat, responsesToChat (.begin id model now includeUsage) (body ++ [last]) = .ok chunks ∧
      bufferedStreamHandler id now model (body ++ [last]) = .ok chat ∧
      (aggregate chunks = chat.aggregate ↔ Agreeable body last) := by
  obtain ⟨_, -, hsim⟩ := sim_run body (sim_begin id model now includeUsage) h.events
  obtain ⟨chunks, hchunks, hends, htold, htext⟩ := responsesToChat_kept id model now includeUsage h.toWellFormed
  obtain ⟨a, hscan, hgathered⟩ :=
    gathered_run body (sim_begin id model now includeUsage) gathered_begin h.events h.names
  rw [String.empty_append, String.empty_append] at hgathered
  have hbuffered : bufferedStreamHandler id now model (body ++ [last]) =
      .ok (responsesResponseToChatCompletionsResponse (finalResponse id now model last a) id) := by
    rw [bufferedStreamHandler, hscan, scan_last h.last_type]
    rfl
  have hreason (saw : Bool) : finishReasonOf (some (finalResponse id now model last a)) saw =
      finishReasonOf (lastResponse last) saw := by
    rw [finishReasonOf, finishReasonOf, status_finalResponse]
  have houtput := output_finalResponse id now model last a
  refine ⟨chunks, _, hchunks, hbuffered, ?_⟩
  rw [aggregate_chunks hends htold, aggregate_completion, hreason, aggregate_eq_iff, htext, Agreeable]
  by_cases hempty : last.output = []
  · rw [if_pos hempty] at houtput ⊢
    rw [houtput, calls_built hgathered, text_built hgathered houtput, keptCalls, hempty]
    change (announced body).map Call.chat = (announced body).map Call.chat ∧ deltaText body = _ ↔ _
    by_cases hnone : deltaText body = ""
    · rw [if_neg (not_not.mpr hnone), hnone]
      exact ⟨fun heq => .inr heq.2.symm, fun hr => ⟨rfl, (hr.resolve_left (fun hn => hn rfl)).symm⟩⟩
    · rw [if_pos hnone]
      exact ⟨fun _ => .inl hnone, fun _ => ⟨rfl, rfl⟩⟩
  · rw [if_neg hempty] at houtput ⊢
    have hroles : ∀ out ∈ (finalResponse id now model last a).output, out.type = .message → out.role = "" ∨
        out.role = "assistant" := by
      rw [houtput]
      exact h.roles
    rw [text_listed hroles, houtput, calls_listed (proper_of_ok last.output h.outputs), calls_agree_iff hsim.keyed h,
      text_agrees_iff h.toWellFormed]

theorem bridges_agree_parallel :
    ∃ chunks chat, responsesToChat (.begin "resp_1" "model" 0 false) (parallelBody ++ [parallelLast]) = .ok chunks ∧
      bufferedStreamHandler "resp_1" 0 "model" (parallelBody ++ [parallelLast]) = .ok chat ∧
      aggregate chunks = chat.aggregate := by
  have hcoherent : Coherent parallelBody parallelLast := by
    refine ⟨⟨by decide +kernel,
      by decide, nofun, ?_, by decide +kernel, by decide +kernel⟩, by decide +kernel, by decide,
      by decide⟩
    intro _ resp hresp
    cases hresp
    decide +kernel
  obtain ⟨chunks, chat, hchunks, hchat, hagree⟩ := bridges_agree_iff "resp_1" "model" 0 false hcoherent
  exact ⟨chunks, chat, hchunks, hchat, hagree.mpr (by decide +kernel)⟩

theorem bridges_differ : Coherent indexedBody indexedLast ∧
      (responsesToChat (.begin "resp_1" "model" 0 false) (indexedBody ++ [indexedLast])).toOption.map aggregate =
        some ⟨"", [⟨"call_1", "weather", "[]"⟩, ⟨"call_1", "weather", "[]"⟩], some "tool_calls"⟩ ∧
      (bufferedStreamHandler "resp_1" 0 "model" (indexedBody ++ [indexedLast])).toOption.map ChatResponse.aggregate =
        some ⟨"", [⟨"call_1", "weather", "[]"⟩], some "tool_calls"⟩ := by
  refine ⟨⟨⟨by decide +kernel,
    by decide, nofun, ?_, by decide +kernel, by decide +kernel⟩, by decide +kernel, by decide,
    by decide⟩, by decide +kernel, by decide +kernel⟩
  intro _ resp hresp
  cases hresp
  decide +kernel

end AiGateway.Responses
