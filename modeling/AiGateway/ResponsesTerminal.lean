import AiGateway.ResponsesUnderway

/-! The last event of a Responses stream: the output of the response is told where it is new, and the chat
stream ends. -/
namespace AiGateway.Responses

open AiGateway.Convert (Chunk)
open List

/-! The output of the response. -/

/-- The entries of the tools after an item of the output, which is kept under its id. -/
def keptOutput (calls : List Call) (out : ResponsesOutput) : List Call :=
  if isResponsesToolOutputType out.type then
    recordCall (fun c => c.key = .item out.id) (.item out.id) out calls else calls

/-- The text after an item of the output: a message is told if there was no text before it. -/
def keptText (text : String) (out : ResponsesOutput) : String :=
  if out.type = .message ∧ text = "" then messageText out else text

def OutputFits (calls : List Call) (out : ResponsesOutput) : Prop :=
  isResponsesToolOutputType out.type = true → Proper out ∧ ∀ c ∈ calls, c.key = .item out.id → c.Continues out

variable {calls : List Call} {text : String} {ended : Bool} {r : ToChat} {out : ResponsesOutput}

theorem going_message (h : Going calls text ended r)
    (htype : out.type = .message) : Going calls (keptText text out) ended
      (r.andThen (fun s => terminalOutput s out)) := by
  have hsent : r.1.hasSentText = false ↔ text = "" := by
    rw [h.sent_text, decide_eq_false_iff_not, not_not]
  by_cases htext : text = ""
  · have hterm : terminalOutput r.1 out = textDelta (messageText out) r.1 := if_pos ⟨htype, hsent.mpr htext⟩
    have hkept : keptText text out = messageText out := if_pos ⟨htype, htext⟩
    have hgoing := going_textDelta h (messageText out)
    rw [htext, String.empty_append] at hgoing
    rw [hkept, ToChat.andThen, hterm]
    exact hgoing
  · have hterm : terminalOutput r.1 out = (r.1, []) := by
      rw [terminalOutput, if_neg (fun hn => htext (hsent.mp hn.2)), htype]
      rfl
    have hkept : keptText text out = text := if_neg (fun hn => htext hn.2)
    rw [hkept, ToChat.andThen, hterm, append_nil]
    exact h

theorem going_call (h : Going calls text ended r)
    (htool : isResponsesToolOutputType out.type = true) (hfits : OutputFits calls out) :
    Going (recordCall (fun c => c.key = .item out.id) (.item out.id) out calls) text ended
      (r.andThen (fun s => terminalOutput s out)) := by
  obtain ⟨hproper, hcont⟩ := hfits htool
  have hkey : keyForEvent { type := .other, item := some out } = some (.item out.id) := keyForEvent_item rfl hproper
  have hterm : terminalOutput r.1 out = toolItem { type := .other, item := some out } out r.1 := by
    cases htype : out.type with
    | functionCall
    | customToolCall => simp only [terminalOutput, htype, reduceCtorEq, false_and, if_false,
        isResponsesToolOutputType, if_true]
    | _ =>
      rw [htype] at htool
      cases htool
  obtain ⟨htools, hsaid, hbut⟩ := toolItem_step h.tools h.said hproper hkey hcont
  rw [ToChat.andThen, hterm]
  exact (h.registered _ _).but htools hsaid hbut

theorem going_output (h : Going calls text ended r) (hfits : OutputFits calls out) :
    Going (keptOutput calls out) (keptText text out) ended (r.andThen (fun s => terminalOutput s out)) := by
  have hcalls (ht : isResponsesToolOutputType out.type = false) : keptOutput calls out = calls := by
    rw [keptOutput, ht, if_neg Bool.false_ne_true]
  have hrecord (ht : isResponsesToolOutputType out.type = true) :
      keptOutput calls out = recordCall (fun c => c.key = .item out.id) (.item out.id) out calls := if_pos ht
  have htext (ht : out.type ≠ .message) : keptText text out = text := if_neg (fun hn => ht hn.1)
  have hsilent : Going calls text ended (r.1, r.2 ++ []) := by
    rw [append_nil]
    exact h
  cases htype : out.type with
  | message =>
    rw [hcalls (by rw [htype]; rfl)]
    exact going_message h htype
  | reasoning =>
    rw [hcalls (by rw [htype]; rfl), htext (by rw [htype]; decide), ToChat.andThen, terminalOutput, htype]
    cases r.1.hasSentReasoning with
    | false => exact going_reasoningDelta h (contentText out)
    | true => exact hsilent
  | functionCall | customToolCall =>
    have htool : isResponsesToolOutputType out.type = true := by rw [htype]; rfl
    rw [hrecord htool, htext (by rw [htype]; decide)]
    exact going_call h htool hfits
  | other =>
    rw [hcalls (by rw [htype]; rfl), htext (by rw [htype]; simp), ToChat.andThen, terminalOutput, htype]
    exact hsilent

theorem andThen_foldl {α : Type*} (f : StreamState → α → ToChat) (as : List α) (r : ToChat) :
    r.andThen (fun s => as.foldl (fun r a => r.andThen (fun s => f s a)) (s, [])) =
      as.foldl (fun r a => r.andThen (fun s => f s a)) r := by
  induction as generalizing r with
  | nil =>
    rw [ToChat.andThen, foldl_nil, append_nil]
    rfl
  | cons a as ih =>
    rw [foldl_cons, ← ih]
    have hstep : (([] : List Chunk) ++ (f r.1 a).2) = (f r.1 a).2 := nil_append _
    rw [ToChat.andThen, foldl_cons, ToChat.andThen, hstep, ← ih (f r.1 a)]
    simp only [ToChat.andThen, append_assoc]

theorem going_outputs (outs : List ResponsesOutput)
    (h : Going calls text ended r) (hfits : Run.Along keptOutput OutputFits calls outs) :
    Going (Run.exec keptOutput calls outs) (outs.foldl keptText text) ended
      (outs.foldl (fun r out => r.andThen (fun s => terminalOutput s out)) r) := by
  induction outs generalizing calls text r with
  | nil => exact h
  | cons out outs ih => exact ih (going_output h hfits.1) hfits.2

/-! The end. -/

theorem going_flush (h : Going calls text ended r) {key : Key}
    (hkey : key ∈ calls.map Call.key) : Going calls text ended (r.andThen (fun s => flushKey s key)) := by
  obtain ⟨c, hc, rfl⟩ := mem_map.mp hkey
  obtain ⟨i, hi⟩ := mem_iff_getElem?.mp hc
  have hknown := h.tools.known i c hi
  have hflush : flushKey r.1 c.key = toolDelta { c.tool i with arguments := c.arguments ++ "" } "" r.1 := by
    cases hk : c.key with
    | output n =>
      rw [hk] at hknown
      have hsame : { r.1 with pendingArgsByOutputIndex := r.1.pendingArgsByOutputIndex.erase n } = r.1 := by
        rw [h.tools.none_by_index, erase_empty, ← h.tools.none_by_index]
      have hnone : (r.1.pendingArgsByOutputIndex.lookup n).getD "" = "" := by
        rw [h.tools.none_by_index]
        rfl
      simp only [flushKey, toolFor, hknown, hnone, hsame]
      rfl
    | item id =>
      rw [hk] at hknown
      have hsame : { r.1 with pendingArgsByItemID := r.1.pendingArgsByItemID.erase id } = r.1 := by
        rw [h.tools.none_by_id, erase_empty, ← h.tools.none_by_id]
      have hnone : (r.1.pendingArgsByItemID.lookup id).getD "" = "" := by
        rw [h.tools.none_by_id]
        rfl
      simp only [flushKey, toolFor, hknown, hnone, hsame]
      rfl
    | call =>
      rw [hk] at hknown
      simp only [flushKey, toolFor, hknown, String.append_empty]
      rfl
  have hexplicit : "" = "" ∨ "" = "" := .inl rfl
  obtain ⟨htools, hsaid, hbut⟩ := told_more h.tools h.said hi hexplicit
  have hself : calls.set i { c with arguments := c.arguments ++ "" } = calls := by
    rw [String.append_empty]
    exact set_self hi
  rw [hself] at htools hsaid
  rw [ToChat.andThen, hflush]
  exact h.but htools hsaid hbut

theorem mem_pendingKeys {s : StreamState} (h : Tools calls s) {key : Key} (hkey : key ∈ pendingKeys s) :
    key ∈ calls.map Call.key := by
  rw [pendingKeys, mem_insertionSort, h.none_by_index, h.none_by_id] at hkey
  simp only [AList.keys_empty, map_nil, filter_nil, append_nil] at hkey
  by_contra hn
  have hnone := h.unknown key hn
  rw [AList.lookup_eq_none, AList.mem_keys] at hnone
  exact hnone hkey

theorem going_flushAll (h : Going calls text ended r) : Going calls text ended (r.andThen flushAllPendingTools) := by
  have hfold (keys : List Key) (hkeys : ∀ key ∈ keys, key ∈ calls.map Call.key) {r : ToChat}
    (h : Going calls text ended r) :
      Going calls text ended (keys.foldl (fun r key => r.andThen (fun s => flushKey s key)) r) := by
    induction keys generalizing r with
    | nil => exact h
    | cons key keys ih =>
      exact ih (fun k hk => hkeys k (mem_cons_of_mem _ hk)) (going_flush h (hkeys key mem_cons_self))
  have hall := hfold (pendingKeys r.1) (fun _ hkey => mem_pendingKeys h.tools hkey) h
  rw [← andThen_foldl] at hall
  exact hall

theorem finalize_chunks (h : Going calls text false r) (response : Option Response) :
    ∃ s pre, r.andThen (finalize response) =
        (s, pre ++ makeChunk s {} (some (finishReasonOf response s.sawToolCall)) :: usageChunks s) ∧
          Going calls text true (s, pre) := by
  have hmarked : Going calls text true ({ r.1 with finalized := true }, r.2) :=
    ⟨h.tools.congr ⟨rfl, rfl, rfl, rfl, rfl⟩, h.said, h.sent_text, rfl⟩
  have hstarted := going_start (going_flushAll hmarked)
  refine ⟨_, _, ?_, hstarted⟩
  rw [ToChat.andThen, finalize, h.ended_eq, if_neg Bool.false_ne_true]
  simp only [ToChat.andThen, append_assoc]

end AiGateway.Responses
