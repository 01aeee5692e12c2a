import AiGateway.ResponsesItems
import AiGateway.Run

/-! A well-formed Responses stream up to its last event: after each event the chunks tell the calls and the
text that have come so far. -/
namespace AiGateway.Responses

open AiGateway.Convert (Delta Chunk)
open AiGateway.GoText (trimSpace)
open List

/-- The keys are those of the ids or of output indices, and ids are there. -/
structure Keyed (calls : List Call) : Prop where
  key_eq : ∀ c ∈ calls, c.key = .item c.id ∨ ∃ n, c.key = .output n
  id_ne : ∀ c ∈ calls, c.id ≠ ""
  ids : (calls.map Call.id).Nodup

structure Findable (calls : List Call) (s : StreamState) : Prop where
  by_index : ∀ c ∈ calls, ∀ n, c.key = .output n → s.outputIndexToKey.lookup n = some c.key
  by_id : ∀ c ∈ calls, s.itemIDToKey.lookup c.id = some c.key

/-- What has come so far is told; `ended` says whether the end of the stream has begun. -/
structure Going (calls : List Call) (text : String) (ended : Bool) (r : ToChat) : Prop where
  tools : Tools calls r.1
  said : Said calls text r.2
  sent_text : r.1.hasSentText = decide (text ≠ "")
  ended_eq : r.1.finalized = ended

/-- The stream is under way: what has come so far is told, and the calls are found. -/
structure Sim (calls : List Call) (text : String) (r : ToChat) : Prop where
  going : Going calls text false r
  findable : Findable calls r.1
  keyed : Keyed calls

/-- The state that a stream begins in: `NewResponsesToChatStreamState`, with the id and the time of the request. -/
def StreamState.begin (id model : String) (created : Int) (includeUsage : Bool) : StreamState :=
  { id, model, created, includeUsage }

theorem sim_begin (id model : String) (created : Int) (includeUsage : Bool) :
    Sim [] "" (StreamState.begin id model created includeUsage, []) := by
  refine ⟨⟨⟨rfl, ?_, fun _ _ => rfl, rfl, rfl, rfl, nodup_nil, ?_⟩, ⟨rfl, ?_, rfl, ?_⟩, rfl, rfl⟩,
    ⟨?_, ?_⟩,
    ⟨?_, ?_, nodup_nil⟩⟩
  · intro i c hc
    cases hc
  all_goals exact fun c hc => absurd hc not_mem_nil

/-! Text and reasoning. -/

structure SameMaps (s s' : StreamState) : Prop where
  index_eq : s'.outputIndexToKey = s.outputIndexToKey
  id_eq : s'.itemIDToKey = s.itemIDToKey

variable {calls : List Call} {text : String} {r : ToChat} {e : Event}

variable {s : StreamState} {same : Call → Bool} {i : ℕ} {c : Call}

theorem Going.but {calls' : List Call} {ended : Bool} {cs : List Chunk} {s' : StreamState}
    (h : Going calls text ended (s, cs))
    {cs' : List Chunk} (htools : Tools calls' s') (hsaid : Said calls' text cs') (hbut : SameBut s s') :
    Going calls' text ended (s', cs') := by
  obtain ⟨_, _, _, _, rfl⟩ := hbut
  exact ⟨htools, hsaid, h.sent_text, h.ended_eq⟩

variable {key : Key}

theorem Going.registered {ended : Bool} (h : Going calls text ended r) (e : Event) (key : Key) :
    Going calls text ended (registered e key r.1, r.2) :=
  ⟨h.tools.congr ⟨rfl, rfl, rfl, rfl, rfl⟩, h.said, h.sent_text, h.ended_eq⟩

theorem Sim.congr {text' : String} {r' : ToChat} (h : Sim calls text r)
    (hgoing : Going calls text' false r') (hsame : SameMaps r.1 r'.1) : Sim calls text' r' := by
  refine ⟨hgoing, ⟨?_, ?_⟩, h.keyed⟩
  · rw [hsame.index_eq]
    exact h.findable.by_index
  · rw [hsame.id_eq]
    exact h.findable.by_id

section Speech
variable {calls : List Call} {text : String} {ended : Bool} {r : ToChat}

theorem going_start (h : Going calls text ended r) : Going calls text ended (r.andThen ensureStart) := by
  refine ⟨?_, said_start h.said r.1, ?_, ?_⟩
  all_goals rw [ToChat.andThen, ensureStart_state]
  · exact h.tools.congr ⟨rfl, rfl, rfl, rfl, rfl⟩
  · exact h.sent_text
  · exact h.ended_eq

theorem going_metadata (h : Going calls text ended r) (response : Option Response) :
    Going calls text ended (applyResponseMetadata response r.1, r.2) := by
  cases response with
  | none => exact h
  | some => exact ⟨h.tools.congr ⟨rfl, rfl, rfl, rfl, rfl⟩, h.said, h.sent_text, h.ended_eq⟩

theorem sameMaps_metadata (response : Option Response) (s : StreamState) :
    SameMaps s (applyResponseMetadata response s) := by
  cases response with
  | none | some => exact ⟨rfl, rfl⟩

variable {delta : String}

theorem append_ne_empty (h : delta ≠ "") : text ++ delta ≠ "" := by
  intro hnil
  have hlength := congrArg String.length hnil
  rw [String.length_append] at hlength
  have hzero : ("" : String).length = 0 := rfl
  exact h (String.length_eq_zero_iff.mp (by omega))

theorem going_textDelta (h : Going calls text ended r) (delta : String) :
    Going calls (text ++ delta) ended (r.andThen (textDelta delta)) := by
  rw [ToChat.andThen, textDelta]
  split
  · next hdelta =>
    rw [hdelta, String.append_empty, append_nil]
    exact h
  · next hdelta =>
    have hsend := said_send_plain h.said { r.1 with hasSentText := true } (d := { content := some delta }) rfl
    refine ⟨?_, hsend, ?_, ?_⟩
    all_goals rw [sendDelta_state]
    · exact h.tools.congr ⟨rfl, rfl, rfl, rfl, rfl⟩
    · exact (decide_eq_true (append_ne_empty hdelta)).symm
    · exact h.ended_eq

theorem sameMaps_textDelta : SameMaps s (textDelta delta s).1 := by
  rw [textDelta]
  split
  · exact ⟨rfl, rfl⟩
  · rw [sendDelta_state]
    exact ⟨rfl, rfl⟩

theorem going_reasoningDelta (h : Going calls text ended r) (delta : String) :
    Going calls text ended (r.andThen (reasoningDelta delta)) := by
  rw [ToChat.andThen, reasoningDelta]
  split
  · rw [append_nil]
    exact h
  · have hsaid (d : String) (s : StreamState) :
        Said calls text (r.2 ++ (sendDelta { reasoningContent := some d } s).2) := by
      have hplain := said_send_plain h.said s (d := { reasoningContent := some d }) rfl
      rwa [Delta.getContentString, Option.getD_none, String.append_empty] at hplain
    refine ⟨?_, hsaid _ _, ?_, ?_⟩
    all_goals rw [sendDelta_state]
    · exact h.tools.congr ⟨rfl, rfl, rfl, rfl, rfl⟩
    · exact h.sent_text
    · exact h.ended_eq

theorem sameMaps_reasoningDelta : SameMaps s (reasoningDelta delta s).1 := by
  rw [reasoningDelta]
  split
  · exact ⟨rfl, rfl⟩
  · rw [sendDelta_state]
    exact ⟨rfl, rfl⟩

end Speech

/-! Items. -/

theorem Call.repeated_key (item : ResponsesOutput) : (c.repeated item).key = c.key := by
  rw [Call.repeated]
  split <;> rfl

theorem Call.repeated_id (item : ResponsesOutput) : (c.repeated item).id = c.id := by
  rw [Call.repeated]
  split <;> rfl

theorem mem_recordCall {item : ResponsesOutput} {c' : Call} (h : c' ∈ recordCall same key item calls) :
    (∃ c ∈ calls, c'.key = c.key ∧ c'.id = c.id) ∨ (c'.key = key ∧ c'.id = item.id) := by
  rw [recordCall] at h
  split at h
  · obtain ⟨c, hc, rfl⟩ := mem_map.mp h
    refine .inl ⟨c, hc, ?_⟩
    split
    · exact ⟨c.repeated_key item, c.repeated_id item⟩
    · exact ⟨rfl, rfl⟩
  · rcases mem_append.mp h with hc | hc
    · exact .inl ⟨c', hc, rfl, rfl⟩
    · rw [mem_singleton.mp hc]
      exact .inr ⟨rfl, rfl⟩

theorem ids_recordCall (item : ResponsesOutput) : (recordCall same key item calls).map Call.id =
      if calls.any same then calls.map Call.id else calls.map Call.id ++ [item.id] := by
  rw [recordCall]
  split
  · rw [map_map]
    apply map_congr_left
    intro c _
    rw [Function.comp_apply]
    split
    · exact c.repeated_id item
    · rfl
  · rw [map_append]
    rfl

section Item
variable {calls : List Call} {text : String} {r : ToChat} {e : Event} {item : ResponsesOutput}

theorem keyForEvent_item (hitem : e.item = some item) (hproper : Proper item) :
    keyForEvent e = some (itemKey e item) := by
  rw [keyForEvent, itemKey]
  cases e.outputIndex with
  | some => rfl
  | none =>
    simp only [hitem, Option.map_some, Option.getD_some, hproper.id_ne.2, hproper.id_ne.1, ne_eq,
      not_false_eq_true, if_true]

theorem responseStreamEventItemID_item (hitem : e.item = some item) (hproper : Proper item) :
    responseStreamEventItemID e = item.id := by
  simp only [responseStreamEventItemID, hitem, Option.map_some, Option.getD_some, hproper.id_ne.2,
    hproper.id_ne.1, ne_eq,
    not_false_eq_true, if_true]

theorem Keyed.record (h : Keyed calls) (hproper : Proper item)
    (hkey : key = .item item.id ∨ ∃ n, key = .output n) (hsame : ∀ c ∈ calls, c.id = item.id →
      same c = true) :
    Keyed (recordCall same key item calls) := by
  refine ⟨?_, ?_, ?_⟩
  · intro c' hc'
    rcases mem_recordCall hc' with ⟨c, hc, hck, hid⟩ | ⟨hck, hid⟩
    · rw [hck, hid]
      exact h.key_eq c hc
    · rw [hck, hid]
      exact hkey
  · intro c' hc'
    rcases mem_recordCall hc' with ⟨c, hc, -, hid⟩ | ⟨-, hid⟩
    · rw [hid]
      exact h.id_ne c hc
    · rw [hid]
      exact hproper.id_ne.1
  · rw [ids_recordCall]
    split
    · exact h.ids
    · next hany =>
      rw [← concat_eq_append]
      apply h.ids.concat
      intro hmem
      obtain ⟨c, hc, hid⟩ := mem_map.mp hmem
      exact hany (any_eq_true.mpr ⟨c, hc, hsame c hc hid⟩)

theorem itemKey_cases : itemKey e item = .item item.id ∨ ∃ n, itemKey e item = .output n := by
  rw [itemKey]
  cases e.outputIndex with
  | some n => exact .inr ⟨n, rfl⟩
  | none => exact .inl rfl

theorem findable_record (h : Findable calls s) (hitem : e.item = some item) (hproper : Proper item)
    (hsame : ∀ c ∈ calls, c.key = itemKey e item ↔ c.id = item.id) :
    Findable (recordCall (fun c => c.key = itemKey e item) (itemKey e item) item calls)
      (registered e (itemKey e item) s) := by
  have hid := responseStreamEventItemID_item hitem hproper
  refine ⟨?_, ?_⟩
  · intro c' hc' n hn
    cases hindex : e.outputIndex with
    | some m =>
      have hkey : itemKey e item = .output m := by rw [itemKey, hindex]
      simp only [registered, hindex]
      by_cases hnm : n = m
      · subst hnm
        rw [AList.lookup_insert, hn, hkey]
      · rw [AList.lookup_insert_ne hnm]
        rcases mem_recordCall hc' with ⟨c, hc, hck, -⟩ | ⟨hck, -⟩
        · rw [hck]
          exact h.by_index c hc n (hck.symm.trans hn)
        · rw [hn, hkey] at hck
          cases hck
          exact absurd rfl hnm
    | none =>
      simp only [registered, hindex]
      rcases mem_recordCall hc' with ⟨c, hc, hck, -⟩ | ⟨hck, -⟩
      · rw [hck]
        exact h.by_index c hc n (hck.symm.trans hn)
      · rw [hn, itemKey, hindex] at hck
        cases hck
  · intro c' hc'
    simp only [registered, hid, hproper.id_ne.1, if_false]
    by_cases hci : c'.id = item.id
    · rw [hci, AList.lookup_insert]
      rcases mem_recordCall hc' with ⟨c, hc, hck, hcid⟩ | ⟨hck, -⟩
      · rw [hck, (hsame c hc).mpr (hcid.symm.trans hci)]
      · rw [hck]
    · rw [AList.lookup_insert_ne hci]
      rcases mem_recordCall hc' with ⟨c, hc, hck, hcid⟩ | ⟨-, hcid⟩
      · rw [hck, hcid]
        exact h.by_id c hc
      · exact absurd hcid hci

theorem sim_item (h : Sim calls text r) (hitem : e.item = some item) (hproper : Proper item)
    (hok : ∀ c ∈ calls, (c.key = itemKey e item ↔ c.id = item.id) ∧ (c.id = item.id → c.Continues item)) :
    Sim (recordCall (fun c => c.key = itemKey e item) (itemKey e item) item calls) text
      (r.andThen (toolItem e item)) := by
  have hsame (c : Call) (hc : c ∈ calls) := (hok c hc).1
  obtain ⟨htools, hsaid, hbut⟩ := toolItem_step h.going.tools h.going.said hproper (keyForEvent_item hitem hproper)
    (fun c hc hkey => (hok c hc).2 ((hsame c hc).mp hkey))
  have hfind := findable_record h.findable hitem hproper hsame
  refine ⟨(h.going.registered _ _).but htools hsaid hbut, ⟨?_, ?_⟩, h.keyed.record hproper (itemKey_cases) ?_⟩
  · rw [ToChat.andThen, hbut.index_eq]
    exact hfind.by_index
  · rw [ToChat.andThen, hbut.id_eq]
    exact hfind.by_id
  · intro c hc hid
    exact decide_eq_true ((hsame c hc).mpr hid)

end Item

/-! Arguments. -/

theorem find_addressed (h : Sim calls text r)
    (hi : calls[i]? = some c) (ha : Addresses e c = true) : findToolForEvent e r.1 = some (c.tool i) := by
  have hmem := mem_of_getElem? hi
  have hknown := h.going.tools.known i c hi
  rw [findToolForEvent]
  cases hindex : e.outputIndex with
  | some n =>
    simp only [Addresses, hindex, decide_eq_true_eq] at ha
    simp only [Option.bind_some, h.findable.by_index c hmem n ha, hknown]
  | none =>
    simp only [Addresses, hindex, decide_eq_true_eq] at ha
    have hne : trimSpace e.itemId ≠ "" := ha ▸ h.keyed.id_ne c hmem
    have hfound : r.1.itemIDToKey.lookup (trimSpace e.itemId) = some c.key := ha ▸ h.findable.by_id c hmem
    simp only [Option.bind_none, hne, if_false, hfound, hknown]

section
variable (hkeys : (calls.map Call.key).Nodup) (hids : (calls.map Call.id).Nodup) (hi : calls[i]? = some c)
  (ha : Addresses e c = true)
include hkeys hids hi ha

theorem addresses_iff {j : ℕ} {d : Call} (hj : calls[j]? = some d) : Addresses e d = true ↔ j = i := by
  constructor
  · intro hd
    cases hindex : e.outputIndex with
    | some =>
      simp only [Addresses, hindex, decide_eq_true_eq] at ha hd
      exact (nodup_map_iff hkeys hi hj).mp (hd.trans ha.symm)
    | none =>
      simp only [Addresses, hindex, decide_eq_true_eq] at ha hd
      exact (nodup_map_iff hids hi hj).mp (hd.trans ha.symm)
  · rintro rfl
    rw [hi] at hj
    cases hj
    exact ha

theorem extendCall_eq_set :
    extendCall (Addresses e) e.delta calls = calls.set i { c with arguments := c.arguments ++ e.delta } :=
  map_ite_eq_set (fun c : Call => { c with arguments := c.arguments ++ e.delta }) hi
    (fun _ _ hj => addresses_iff hkeys hids hi ha hj)

end

theorem sim_more (h : Sim calls text r)
    (hi : calls[i]? = some c) {rest explicit : String} (hexplicit : explicit = "" ∨ explicit = rest) :
    Sim (calls.set i { c with arguments := c.arguments ++ rest }) text
      (r.andThen (toolDelta { c.tool i with arguments := c.arguments ++ rest } explicit)) := by
  obtain ⟨htools, hsaid, hbut⟩ := told_more h.going.tools h.going.said hi hexplicit
  have hmem (d : Call) (hd : d ∈ calls.set i { c with arguments := c.arguments ++ rest }) :
      ∃ d' ∈ calls, d.key = d'.key ∧ d.id = d'.id := by
    rcases mem_or_eq_of_mem_set hd with hd | rfl
    · exact ⟨d, hd, rfl, rfl⟩
    · exact ⟨c, mem_of_getElem? hi, rfl, rfl⟩
  refine ⟨h.going.but htools hsaid hbut, ⟨?_, ?_⟩, ⟨?_, ?_, ?_⟩⟩
  · intro d hd n hn
    obtain ⟨d', hd', hkey, -⟩ := hmem d hd
    rw [ToChat.andThen, hbut.index_eq, hkey]
    exact h.findable.by_index d' hd' n (hkey.symm.trans hn)
  · intro d hd
    obtain ⟨d', hd', hkey, hid⟩ := hmem d hd
    rw [ToChat.andThen, hbut.id_eq, hkey, hid]
    exact h.findable.by_id d' hd'
  · intro d hd
    obtain ⟨d', hd', hkey, hid⟩ := hmem d hd
    rw [hkey, hid]
    exact h.keyed.key_eq d' hd'
  · intro d hd
    obtain ⟨d', hd', -, hid⟩ := hmem d hd
    rw [hid]
    exact h.keyed.id_ne d' hd'
  · rw [map_set_same (b := { c with arguments := c.arguments ++ rest }) hi rfl]
    exact h.keyed.ids

theorem sim_args (h : Sim calls text r) (ha : ∃ c ∈ calls, Addresses e c = true) :
    Sim (extendCall (Addresses e) e.delta calls) text (r.andThen (toolArgumentsDelta e)) := by
  obtain ⟨c, hc, ha⟩ := ha
  obtain ⟨i, hi⟩ := mem_iff_getElem?.mp hc
  have hexplicit : e.delta = "" ∨ e.delta = e.delta := .inr rfl
  have hmore := sim_more h hi hexplicit
  rw [extendCall_eq_set h.going.tools.apart h.keyed.ids hi ha]
  by_cases hdelta : e.delta = ""
  · have hnothing : r.andThen (toolArgumentsDelta e) = r := by
      rw [ToChat.andThen, toolArgumentsDelta, if_pos hdelta, append_nil]
    rw [hnothing, hdelta, String.append_empty, set_self hi]
    exact h
  · have hargs : toolArgumentsDelta e r.1 = toolDelta { c.tool i with arguments := c.arguments ++
      e.delta } e.delta r.1 := by
      rw [toolArgumentsDelta, if_neg hdelta, find_addressed h hi ha]
      rfl
    rw [ToChat.andThen, hargs]
    exact hmore

theorem sim_argsDone (h : Sim calls text r)
    (ha : ∃ c ∈ calls, Addresses e c = true) : Sim calls text (r.andThen (flushPendingTool e)) := by
  obtain ⟨c, hc, ha⟩ := ha
  obtain ⟨i, hi⟩ := mem_iff_getElem?.mp hc
  have hexplicit : "" = "" ∨ "" = "" := .inl rfl
  have hmore := sim_more h hi hexplicit
  rw [String.append_empty, set_self hi] at hmore
  have hflush : flushPendingTool e r.1 = toolDelta (c.tool i) "" r.1 := by
    rw [flushPendingTool, find_addressed h hi ha]
  rw [ToChat.andThen, hflush]
  exact hmore

/-! The events before the last one. -/

theorem Sim.event_of {calls' : List Call} {cs : List Chunk}
    (h : Sim calls text (s, cs)) (hcalls : calls' = calls) (htext : e.text = "") : Sim calls'
      (text ++ e.text) (s, cs) := by
  rw [hcalls, htext, String.append_empty]
  exact h

theorem call?_cases (e : Event) :
    (e.call? = none ∧ ∀ item, e.item = some item → isResponsesToolOutputType item.type = false) ∨
    ∃ item, e.item = some item ∧ isResponsesToolOutputType item.type = true ∧ e.call? = some item := by
  rw [Event.call?]
  cases hi : e.item with
  | none => exact .inl ⟨rfl, nofun⟩
  | some item =>
    by_cases htool : isResponsesToolOutputType item.type = true
    · exact .inr ⟨item, rfl, htool, if_pos htool⟩
    · refine .inl ⟨if_neg htool, ?_⟩
      rintro _ ⟨⟩
      exact Bool.eq_false_of_not_eq_true htool

theorem sim_outputItem (h : Sim calls text r) (ht : e.type.isItem = true) (hok : EventOk calls e) :
    Sim (afterEvent calls e) text (r.andThen (outputItem e)) := by
  rw [EventOk, if_pos ht] at hok
  rw [afterEvent, if_pos ht, ToChat.andThen]
  rcases call?_cases e with ⟨hcall, hnone⟩ | ⟨item, hi, htool, hcall⟩
  · rw [hcall, outputItem]
    cases hi : e.item with
    | none => simpa using h
    | some item => simpa [hnone item hi] using h
  · obtain ⟨hproper, hcalls⟩ := hok item hcall
    have hitem : outputItem e r.1 = toolItem e item r.1 := by
      rw [outputItem, hi]
      exact if_pos htool
    rw [hcall, hitem]
    exact sim_item h hi hproper hcalls

theorem EventOk.isLast_eq (hok : EventOk calls e) : e.type.isLast = false := by
  rw [EventOk] at hok
  cases htype : e.type <;> rw [htype] at hok <;> first | rfl | exact hok

theorem EventOk.addressed (hok : EventOk calls e) (ha : (e.type.isArgsDelta || e.type.isArgsDone) = true) :
    ∃ c ∈ calls, Addresses e c = true := by
  rw [EventOk] at hok
  cases htype : e.type <;> rw [htype] at hok ha <;> first | exact hok | cases ha

theorem afterEvent_args (ha : e.type.isArgsDelta = true) :
    afterEvent calls e = extendCall (Addresses e) e.delta calls := by
  rw [afterEvent]
  cases htype : e.type <;> rw [htype] at ha <;> first | rfl | cases ha

theorem afterEvent_plain (hi : e.type.isItem = false) (ha : e.type.isArgsDelta = false) :
    afterEvent calls e = calls := by
  rw [afterEvent, hi, if_neg Bool.false_ne_true, ha, if_neg Bool.false_ne_true]

theorem sim_event (h : Sim calls text r)
    (hok : EventOk calls e) : ∃ r', responsesStreamEventToChatChunks e r.1 = .ok r' ∧
      Sim (afterEvent calls e) (text ++ e.text) (r'.1, r.2 ++ r'.2) := by
  have hnothing : Sim calls text (r.1, r.2 ++ []) := by
    rw [append_nil]
    exact h
  have hargs := hok.addressed
  have hplain := @afterEvent_plain calls e
  have hextend := @afterEvent_args calls e
  cases htype : e.type
  all_goals
    simp only [htype] at hargs hplain hextend
  case completed | done | incomplete | failed | error => cases htype ▸ hok.isLast_eq
  all_goals
    rw [responsesStreamEventToChatChunks, htype]
    refine ⟨_, rfl, ?_⟩
  case outputTextDelta =>
    have htext : e.text = e.delta := by rw [Event.text, htype]; rfl
    rw [hplain rfl rfl, htext]
    exact h.congr (going_textDelta h.going e.delta) (sameMaps_textDelta)
  all_goals
    have htext : e.text = "" := by rw [Event.text, htype]; rfl
  case outputItemAdded | outputItemDone => exact (sim_outputItem h (by rw [htype]; rfl) hok).event_of rfl htext
  case functionArgsDelta | customToolInputDelta => exact (sim_args h (hargs rfl)).event_of (hextend rfl) htext
  case created =>
    have hgoing := going_start (going_metadata h.going e.response)
    have hmaps := sameMaps_metadata e.response r.1
    refine (h.congr hgoing ?_).event_of (hplain rfl rfl) htext
    rw [ToChat.andThen, ensureStart_state]
    exact ⟨hmaps.index_eq, hmaps.id_eq⟩
  case functionArgsDone | customToolInputDone => exact (sim_argsDone h (hargs rfl)).event_of (hplain rfl rfl) htext
  case reasoningSummaryDelta | reasoningTextDelta =>
    exact (h.congr (going_reasoningDelta h.going e.delta) (sameMaps_reasoningDelta)).event_of (hplain rfl rfl) htext
  case reasoningSummaryDone | reasoningTextDone =>
    have hframe : Sim calls text
        ({ r.1 with needsReasoningSummaryBreak := r.1.needsReasoningSummaryBreak || r.1.hasSentReasoning
          }, r.2 ++ []) := by
      refine h.congr ⟨h.going.tools.congr ⟨rfl, rfl, rfl, rfl, rfl⟩, hnothing.going.said, ?_, ?_⟩ ⟨rfl, rfl⟩
      · exact h.going.sent_text
      · exact h.going.ended_eq
    exact hframe.event_of (hplain rfl rfl) htext
  case other => exact hnothing.event_of (hplain rfl rfl) htext

def runEvents (r : ToChat) : List Event → Except String ToChat
  | [] => .ok r
  | e :: es => (responsesStreamEventToChatChunks e r.1).bind (fun r' => runEvents (r'.1, r.2 ++ r'.2) es)

def deltaText (es : List Event) : String := String.join (es.map Event.text)

theorem sim_run (es : List Event) (h : Sim calls text r) (hok : Run.Along afterEvent EventOk calls es) :
    ∃ r', (∀ rest, runEvents r (es ++ rest) = runEvents r' rest) ∧
      Sim (Run.exec afterEvent calls es) (text ++ deltaText es) r' := by
  induction es generalizing calls text r with
  | nil =>
    refine ⟨r, fun _ => rfl, ?_⟩
    rw [deltaText, map_nil, String.join_nil, String.append_empty]
    exact h
  | cons e es ih =>
    obtain ⟨_, heq, hsim⟩ := sim_event h hok.1
    obtain ⟨r'', hrest, hsim'⟩ := ih hsim hok.2
    refine ⟨r'', ?_, ?_⟩
    · intro rest
      rw [cons_append, runEvents, heq]
      exact hrest rest
    · rw [deltaText, map_cons, String.join_cons, ← String.append_assoc]
      exact hsim'

end AiGateway.Responses
