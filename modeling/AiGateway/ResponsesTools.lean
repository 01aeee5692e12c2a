import AiGateway.ResponsesCalls

/-! The tools of the conversion stand for the calls, and the chunks tell them: what one item, one piece of
arguments and one piece of text do to that. -/
namespace AiGateway.Responses

open AiGateway.Convert (Delta Chunk contents join_singleton)
open AiGateway.GoText (trimSpace)
open List Option

def Call.tool (c : Call) (i : ℕ) : Tool :=
  { key := c.key, callId := c.callId, name := c.name, arguments := c.arguments, index := i,
    sent := true, nameSent := true,
    argsSentAt := c.arguments.length }

def Call.unsent (c : Call) (i : ℕ) : Tool :=
  { key := c.key, callId := c.callId, name := c.name, arguments := c.arguments, index := i }

structure Tools (calls : List Call) (s : StreamState) : Prop where
  next_eq : s.nextToolIndex = calls.length
  known : ∀ (i : ℕ) (c : Call), calls[i]? = some c → s.toolByKey.lookup c.key = some (c.tool i)
  unknown : ∀ key ∉ calls.map Call.key, s.toolByKey.lookup key = none
  none_by_index : s.pendingArgsByOutputIndex = ∅
  none_by_id : s.pendingArgsByItemID = ∅
  saw : s.sawToolCall = !calls.isEmpty
  apart : (calls.map Call.key).Nodup
  proper : ∀ c ∈ calls, c.callId ≠ "" ∧ trimSpace c.callId = c.callId

/-- The chunks tell the calls and the text, and none of them has a finish reason. -/
structure Said (calls : List Call) (text : String) (chunks : List Chunk) : Prop where
  calls_eq : collected chunks = numbered calls
  ids : ∀ f ∈ toolCallsOf chunks, ∃ c, calls[f.index.getD 0]? = some c ∧ f.id = c.callId
  text_eq : contents chunks = text
  plain : ∀ c ∈ chunks, ∃ choice, c.choices = [choice] ∧ choice.finishReason = none

/-! Chunks. -/

theorem contents_append (cs cs' : List Chunk) : contents (cs ++ cs') = contents cs ++ contents cs' := by
  rw [contents, map_append, String.join_append]
  rfl

theorem ensureStart_state (s : StreamState) : (ensureStart s).1 = { s with sentStart := true } := by
  rw [ensureStart]
  split
  · next h => rw [← h]
  · rfl

theorem sendDelta_state (d : Delta) (s : StreamState) : (sendDelta d s).1 = { s with sentStart := true } :=
  ensureStart_state s

variable {calls : List Call} {chunks : List Chunk} {c : Call} {s : StreamState}

variable {text rest explicit : String}

section
variable {calls' : List Call} {d : Delta} (h : Said calls text chunks) (s : StreamState)
  (hcollect : d.toolCalls.foldl collect (numbered calls) = numbered calls')
  (hkept : ∀ (i : ℕ) (c : Call), calls[i]? = some c → ∃ c', calls'[i]? = some c' ∧ c'.callId = c.callId)
  (hids : ∀ f ∈ d.toolCalls, ∃ c, calls'[f.index.getD 0]? = some c ∧ f.id = c.callId)

include h hcollect hkept hids in
theorem said_chunk : Said calls' (text ++ d.getContentString) (chunks ++ [makeChunk s d none]) := by
  have hfragments : toolCallsOf (chunks ++ [makeChunk s d none]) = toolCallsOf chunks ++ d.toolCalls := by
    rw [toolCallsOf, flatMap_append, flatMap_singleton]
    rfl
  refine ⟨?_, ?_, ?_, ?_⟩
  · rw [collected, hfragments, foldl_append]
    change d.toolCalls.foldl collect (collected chunks) = _
    rw [h.calls_eq, hcollect]
  · intro f hf
    rw [hfragments, mem_append] at hf
    rcases hf with hf | hf
    · obtain ⟨c, hc, hid⟩ := h.ids f hf
      obtain ⟨c', hc', hid'⟩ := hkept _ c hc
      exact ⟨c', hc', hid.trans hid'.symm⟩
    · exact hids f hf
  · rw [contents_append, h.text_eq]
    exact congrArg (text ++ ·) (join_singleton _)
  · exact forall_mem_append.mpr ⟨h.plain, forall_mem_singleton.mpr ⟨_, rfl, rfl⟩⟩

include h in
theorem said_start : Said calls text (chunks ++ (ensureStart s).2) := by
  rw [ensureStart]
  split
  · rw [append_nil]
    exact h
  · have hplain := said_chunk (d := { role := "assistant", content := some "" }) h s rfl
      (fun _ c hc => ⟨c, hc, rfl⟩) nofun
    rwa [Delta.getContentString, getD_some, String.append_empty] at hplain

include h hcollect hkept hids in
theorem said_send : Said calls' (text ++ d.getContentString) (chunks ++ (sendDelta d s).2) := by
  have hsend := said_chunk (said_start h s) (ensureStart s).1 hcollect hkept hids
  rwa [append_assoc] at hsend

include h in
theorem said_send_plain (hd : d.toolCalls = []) :
    Said calls (text ++ d.getContentString) (chunks ++ (sendDelta d s).2) := by
  apply said_send h s
  · rw [hd]
    rfl
  · exact fun i c hc => ⟨c, hc, rfl⟩
  · rw [hd]
    exact nofun

end

/-! One tool. -/

theorem argsDelta_eq {tool : Tool} {sent : String} (hargs : tool.arguments = sent ++ rest)
    (hsent : tool.argsSentAt = sent.length) (h : explicit = "" ∨ explicit = rest) : argsDelta tool
      explicit = rest := by
  have hlength : tool.arguments.length = sent.length+rest.length := by rw [hargs, String.length_append]
  rw [argsDelta]
  split
  · rw [Tool.unsent, hargs, hsent, String.toList_append, ← String.length_toList, drop_left, String.ofList_toList]
  · next hn =>
    rcases h with rfl | rfl
    · have hzero : rest.length = 0 := by
        by_contra hne
        exact hn ⟨rfl, by omega⟩
      exact (String.length_eq_zero_iff.mp hzero).symm
    · rfl

theorem toolDelta_known (hid : c.callId ≠ "" ∧ trimSpace c.callId = c.callId) (i : ℕ)
    (h : explicit = "" ∨ explicit = rest) :
    toolDelta { c.tool i with arguments := c.arguments ++ rest } explicit s =
      if rest = "" then ({ s with toolByKey := s.toolByKey.insert c.key (c.tool i) }, [])
      else sendDelta { toolCalls := [⟨some i, c.callId, "", rest⟩] }
        { s with
          toolByKey := s.toolByKey.insert c.key (Call.tool { c with arguments := c.arguments ++ rest } i)
          sawToolCall := true } := by
  rw [toolDelta, argsDelta_eq rfl rfl h]
  by_cases hrest : rest = ""
  · subst hrest
    rw [if_pos rfl, if_pos ⟨rfl, rfl, .inr rfl⟩, String.append_empty]
    rfl
  · have htrim : trimSpace ({ c.tool i with arguments := c.arguments ++ rest } : Tool).callId = c.callId := hid.2
    have hlength : c.arguments.length+rest.length = (c.arguments ++ rest).length := (String.length_append _ _).symm
    rw [if_neg hrest, if_neg (fun hn => hrest hn.2.1)]
    simp only [htrim, if_neg hid.1]
    simp only [Call.tool, hlength, Bool.true_or, if_true]

theorem toolDelta_new (hid : c.callId ≠ "" ∧ trimSpace c.callId = c.callId) (hname : c.name ≠ "") (i : ℕ)
    : toolDelta (c.unsent i) "" s =
      sendDelta { toolCalls := [⟨some i, c.callId, c.name, c.arguments⟩] }
        { s with toolByKey := s.toolByKey.insert c.key (c.tool i), sawToolCall := true } := by
  have hargs : argsDelta (c.unsent i) "" = c.arguments := argsDelta_eq String.empty_append.symm rfl (.inl rfl)
  rw [toolDelta, hargs, if_neg (fun hn => Bool.false_ne_true hn.1)]
  simp only [Call.unsent, hid.2, if_neg hid.1, hname, Call.tool, Nat.zero_add, Bool.false_or, ne_eq,
    not_false_eq_true, decide_true,
    Bool.false_eq_true, if_false]

/-! The tools and the chunks together. -/

def SameBut (s s' : StreamState) : Prop :=
  ∃ tools saw started next,
    s' = { s with toolByKey := tools, sawToolCall := saw, sentStart := started, nextToolIndex := next }

section SameBut
variable {s s' : StreamState} (h : SameBut s s')
include h

theorem SameBut.index_eq : s'.outputIndexToKey = s.outputIndexToKey := by
  obtain ⟨_, _, _, _, rfl⟩ := h
  rfl

theorem SameBut.id_eq : s'.itemIDToKey = s.itemIDToKey := by
  obtain ⟨_, _, _, _, rfl⟩ := h
  rfl

end SameBut

structure SameTools (s s' : StreamState) : Prop where
  tools_eq : s'.toolByKey = s.toolByKey
  next_eq : s'.nextToolIndex = s.nextToolIndex
  index_eq : s'.pendingArgsByOutputIndex = s.pendingArgsByOutputIndex
  item_eq : s'.pendingArgsByItemID = s.pendingArgsByItemID
  saw_eq : s'.sawToolCall = s.sawToolCall

theorem Tools.congr {s' : StreamState} (h : Tools calls s) (hsame : SameTools s s') : Tools calls s' := by
  refine ⟨hsame.next_eq.trans h.next_eq, ?_, ?_, hsame.index_eq.trans h.none_by_index,
    hsame.item_eq.trans h.none_by_id, hsame.saw_eq.trans h.saw, h.apart, h.proper⟩
  · rw [hsame.tools_eq]
    exact h.known
  · rw [hsame.tools_eq]
    exact h.unknown

theorem tools_set (h : Tools calls s) {i : ℕ} (hi : calls[i]? = some c) (c' : Call)
    (hkey : c'.key = c.key) (hid : c'.callId = c.callId) :
    Tools (calls.set i c') { s with toolByKey := s.toolByKey.insert c.key (c'.tool i), sawToolCall := true } := by
  have hmem : c ∈ calls := mem_of_getElem? hi
  have hkeys : (calls.set i c').map Call.key = calls.map Call.key := map_set_same hi hkey
  refine ⟨?_, ?_, ?_, h.none_by_index, h.none_by_id, ?_, ?_, ?_⟩
  · rw [h.next_eq, length_set]
  · intro j d hj
    rcases Run.getElem?_set_some hj with ⟨rfl, rfl⟩ | ⟨hne, hj⟩
    · rw [hkey, AList.lookup_insert]
    · have hother : d.key ≠ c.key := fun hk => hne ((nodup_map_iff h.apart hi hj).mp hk).symm
      rw [AList.lookup_insert_ne hother]
      exact h.known j d hj
  · intro key hkey'
    rw [hkeys] at hkey'
    have hother : key ≠ c.key := fun hk => hkey' (hk ▸ mem_map_of_mem hmem)
    rw [AList.lookup_insert_ne hother]
    exact h.unknown key hkey'
  · have hne : calls.set i c' ≠ [] := by
      rw [ne_eq, set_eq_nil_iff]
      rintro rfl
      cases hi
    cases hcases : calls.set i c' with
    | nil => exact absurd hcases hne
    | cons => rfl
  · rw [hkeys]
    exact h.apart
  · apply Run.forall_mem_set h.proper
    rw [hid]
    exact h.proper c hmem

theorem tools_append (h : Tools calls s)
    (hkey : c.key ∉ calls.map Call.key) (hid : c.callId ≠ "" ∧ trimSpace c.callId = c.callId) :
    Tools (calls ++ [c]) { s with
      toolByKey := s.toolByKey.insert c.key (c.tool calls.length), nextToolIndex :=
        s.nextToolIndex+1, sawToolCall := true } := by
  refine ⟨?_, ?_, ?_, h.none_by_index, h.none_by_id, ?_, ?_, ?_⟩
  · rw [h.next_eq, length_append, length_singleton]
  · intro j d hj
    rcases Run.getElem?_concat_some hj with hj | ⟨rfl, rfl⟩
    · have hother : d.key ≠ c.key := fun hk => hkey (hk ▸ mem_map_of_mem (mem_of_getElem? hj))
      rw [AList.lookup_insert_ne hother]
      exact h.known j d hj
    · exact AList.lookup_insert _
  · intro key hkey'
    rw [map_append, mem_append, not_or] at hkey'
    have hother : key ≠ c.key := fun hk => hkey'.2 (hk ▸ mem_singleton_self _)
    rw [AList.lookup_insert_ne hother]
    exact h.unknown key hkey'.1
  · cases calls <;> rfl
  · rw [map_append, map_singleton, ← concat_eq_append]
    exact h.apart.concat hkey
  · exact Run.forall_mem_concat h.proper hid

theorem told_more (ht : Tools calls s) (hs : Said calls text chunks) {i : ℕ} (hi : calls[i]? = some c)
    (h : explicit = "" ∨ explicit = rest) : Tools (calls.set i { c with arguments := c.arguments ++ rest })
        (toolDelta { c.tool i with arguments := c.arguments ++ rest } explicit s).1 ∧
      Said (calls.set i { c with arguments := c.arguments ++ rest }) text
        (chunks ++ (toolDelta { c.tool i with arguments := c.arguments ++ rest } explicit s).2) ∧
      SameBut s (toolDelta { c.tool i with arguments := c.arguments ++ rest } explicit s).1 := by
  have hproper := ht.proper c (mem_of_getElem? hi)
  have hlt : i < calls.length := (List.getElem?_eq_some_iff.mp hi).1
  rw [toolDelta_known hproper i h]
  by_cases hrest : rest = ""
  · subst hrest
    have hsaw : s.sawToolCall = true := by
      rw [ht.saw]
      cases calls with
      | nil => cases hi
      | cons => rfl
    have hset : Tools (calls.set i c) { s with toolByKey := s.toolByKey.insert c.key (c.tool i) } :=
      (tools_set ht hi c rfl rfl).congr ⟨rfl, rfl, rfl, rfl, hsaw⟩
    rw [if_pos rfl, String.append_empty, append_nil]
    refine ⟨hset, ?_, ⟨_, _, _, _, rfl⟩⟩
    rw [set_self hi]
    exact hs
  · rw [if_neg hrest, sendDelta_state]
    have hsend (s : StreamState) := said_send (d := { toolCalls := [⟨some i, c.callId, "", rest⟩] }) hs s
      (collect_more hi hproper.1 rest) ?_ ?_
    · have hset := tools_set ht hi { c with arguments := c.arguments ++ rest } rfl rfl
      simp only [Delta.getContentString, getD_none, String.append_empty] at hsend
      exact ⟨hset.congr ⟨rfl, rfl, rfl, rfl, rfl⟩, hsend _, ⟨_, _, _, _, rfl⟩⟩
    · intro j d hj
      rw [getElem?_set]
      split
      · next he =>
        subst he
        rw [hi] at hj
        cases hj
        exact ⟨_, rfl, rfl⟩
      · exact ⟨d, hj, rfl⟩
    · intro f hf
      rw [mem_singleton.mp hf, getD_some, getElem?_set, if_pos rfl, if_pos hlt]
      exact ⟨_, rfl, rfl⟩

theorem told_new (ht : Tools calls s) (hs : Said calls text chunks) (hkey : c.key ∉ calls.map Call.key)
    (hid : c.callId ≠ "" ∧ trimSpace c.callId = c.callId) (hname : c.name ≠ "") :
    Tools (calls ++ [c]) (toolDelta (c.unsent calls.length) "" { s with nextToolIndex := s.nextToolIndex+1 }).1 ∧
      Said (calls ++ [c]) text
        (chunks ++ (toolDelta (c.unsent calls.length) "" { s with nextToolIndex := s.nextToolIndex+1 }).2) ∧
      SameBut s (toolDelta (c.unsent calls.length) "" { s with nextToolIndex := s.nextToolIndex+1 }).1 := by
  rw [toolDelta_new hid hname, sendDelta_state]
  have hsend (s : StreamState) :=
    said_send (d := { toolCalls := [⟨some calls.length, c.callId, c.name, c.arguments⟩] }) hs s
      (collect_new c) ?_ ?_
  · simp only [Delta.getContentString, getD_none, String.append_empty] at hsend
    exact ⟨(tools_append ht hkey hid).congr ⟨rfl, rfl, rfl, rfl, rfl⟩, hsend _, ⟨_, _, _, _, rfl⟩⟩
  · intro j d hj
    have hlt : j < calls.length := (List.getElem?_eq_some_iff.mp hj).1
    exact ⟨d, by rw [getElem?_append_left hlt, hj], rfl⟩
  · intro f hf
    rw [mem_singleton.mp hf, getD_some]
    exact ⟨c, getElem?_concat_length, rfl⟩

end AiGateway.Responses
