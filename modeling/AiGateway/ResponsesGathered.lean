import AiGateway.ResponsesBuffered
import AiGateway.ResponsesOnce

/-! The gathered tools are the calls of the stream. -/
namespace AiGateway.Responses

open AiGateway.GoText (trimSpace)
open List Option

def Call.buffered (c : Call) : BufferedTool :=
  { callId := c.callId, itemId := c.id, name := c.name, arguments := c.arguments }

structure Gathered (calls : List Call) (text reasoning : String) (a : Accumulator) : Prop where
  text_eq : a.text = text
  reasoning_eq : a.reasoning = reasoning
  tools_eq : a.tools = calls.map Call.buffered
  by_index : ∀ (i : ℕ) (c : Call), calls[i]? = some c → ∀ n, c.key = .output n →
    a.outputIndexToToolIdx.lookup n = some i
  index_free : ∀ n, .output n ∉ calls.map Call.key → a.outputIndexToToolIdx.lookup n = none
  by_id : ∀ (i : ℕ) (c : Call), calls[i]? = some c → a.itemIDToToolIdx.lookup c.id = some i
  id_free : ∀ id, id ∉ calls.map Call.id → a.itemIDToToolIdx.lookup id = none
  none_by_index : a.pendingByOutputIndex = ∅
  none_by_id : a.pendingByItemID = ∅
  names : ∀ c ∈ calls, (c.callId ≠ "" ∧ trimSpace c.callId = c.callId) ∧
    (c.name ≠ "" ∧ trimSpace c.name = c.name)

def NamesItem (e : Event) : Prop :=
  e.type.isItem = true → ∀ item ∈ e.call?, trimSpace e.itemId = "" ∨ trimSpace e.itemId = item.id

instance (e : Event) : Decidable (NamesItem e) := inferInstanceAs (Decidable (_ → _))

theorem gathered_begin : Gathered [] "" "" {} where
  text_eq := rfl
  reasoning_eq := rfl
  tools_eq := rfl
  by_index := fun _ _ h => nomatch h
  index_free := fun _ _ => rfl
  by_id := fun _ _ h => nomatch h
  id_free := fun _ _ => rfl
  none_by_index := rfl
  none_by_id := rfl
  names := nofun

variable {i : ℕ}

theorem modify_eq_set {α : Type*} {l : List α} {a : α} (h : l[i]? = some a) (f : α → α) :
    l.modify i f = l.set i (f a) := by
  rw [modify_eq_set_getElem?, h]
  rfl

section
variable {calls : List Call} {text reasoning : String} {a : Accumulator} {e : Event} {item : ResponsesOutput}

variable {c : Call}

theorem Gathered.tool_at (h : Gathered calls text reasoning a) (hi : calls[i]? = some c) :
    a.tools[i]? = some c.buffered := by
  rw [h.tools_eq, getElem?_map, hi]
  rfl

theorem gathered_set (h : Gathered calls text reasoning a) {c' : Call} (hi : calls[i]? = some c)
    (hkey : c'.key = c.key) (hid : c'.id = c.id) (hcall : c'.callId = c.callId) (hname : c'.name = c.name) :
    Gathered (calls.set i c') text reasoning { a with tools := a.tools.set i c'.buffered } := by
  -- the entry at a place has the key and the id that it had
  have hat (j : ℕ) (d : Call) (hj : (calls.set i c')[j]? = some d) :
      ∃ d', calls[j]? = some d' ∧ d'.key = d.key ∧ d'.id = d.id := by
    rcases Run.getElem?_set_some hj with ⟨rfl, rfl⟩ | ⟨-, hj⟩
    · exact ⟨c, hi, hkey.symm, hid.symm⟩
    · exact ⟨d, hj, rfl, rfl⟩
  refine ⟨h.text_eq, h.reasoning_eq, ?_, ?_, ?_, ?_, ?_, h.none_by_index, h.none_by_id, ?_⟩
  · rw [map_set, ← h.tools_eq]
  · intro j d hj n hn
    obtain ⟨d', hj', hkey', -⟩ := hat j d hj
    exact h.by_index j d' hj' n (hkey'.trans hn)
  · rw [map_set_same hi hkey]
    exact h.index_free
  · intro j d hj
    obtain ⟨d', hj', -, hid'⟩ := hat j d hj
    rw [← hid']
    exact h.by_id j d' hj'
  · rw [map_set_same hi hid]
    exact h.id_free
  · apply Run.forall_mem_set h.names
    rw [hcall, hname]
    exact h.names c (mem_of_getElem? hi)

theorem applyToolMetadata_known (hproper : Proper item) (hid : c.id = item.id)
    (hcall : c.callId = item.callId) (hname : c.name = item.name) :
    applyToolMetadata c.buffered item = c.buffered := by
  simp only [applyToolMetadata, Call.buffered, hproper.id_ne.2, hproper.id_ne.1, hproper.callId_ne.2,
    hproper.callId_ne.1,
    hproper.name_ne.2, hproper.name_ne.1, hid, hcall, hname, ne_eq, not_false_eq_true, if_true]

theorem applyToolMetadata_new (hproper : Proper item) :
    applyToolMetadata {} item = { callId := item.callId, itemId := item.id, name := item.name } := by
  simp only [applyToolMetadata, hproper.id_ne.2, hproper.id_ne.1, hproper.callId_ne.2, hproper.callId_ne.1,
    hproper.name_ne.2, hproper.name_ne.1, ne_eq, not_false_eq_true, if_true]

theorem namedItemID_item (hitem : e.item = some item) (hproper : Proper item)
    (hnames : trimSpace e.itemId = "" ∨ trimSpace e.itemId = item.id) : namedItemID e = item.id := by
  rw [namedItemID, hitem, map_some, getD_some, hproper.id_ne.2]
  split
  · rfl
  · next hne => exact hnames.resolve_left hne

theorem findToolIndex_named
    (hindex : e.outputIndex.bind (fun n => a.outputIndexToToolIdx.lookup n) = none) {id : String}
    (hname : namedItemID e = id) (hne : id ≠ "") : findToolIndex a e = a.itemIDToToolIdx.lookup id := by
  rw [findToolIndex, hindex, hname]
  exact if_neg hne

section
variable (h : Gathered calls text reasoning a) (hitem : e.item = some item) (hproper : Proper item)
  (hnames : trimSpace e.itemId = "" ∨ trimSpace e.itemId = item.id)
include h hitem hproper hnames

theorem find_known (hi : calls[i]? = some c) (hkey : c.key = itemKey e item) (hid : c.id = item.id) :
    findToolIndex a e = some i := by
  cases hindex : e.outputIndex with
  | some n =>
    rw [itemKey, hindex] at hkey
    simp only [findToolIndex, hindex, bind_some, h.by_index i c hi n hkey]
  | none =>
    have hnone : e.outputIndex.bind (fun n => a.outputIndexToToolIdx.lookup n) = none := by rw [hindex]; rfl
    rw [findToolIndex_named hnone (namedItemID_item hitem hproper hnames) hproper.id_ne.1, ← hid]
    exact h.by_id i c hi

theorem find_new (hkey : itemKey e item ∉ calls.map Call.key) (hid : item.id ∉ calls.map Call.id) :
    findToolIndex a e = none := by
  have hnone : e.outputIndex.bind (fun n => a.outputIndexToToolIdx.lookup n) = none := by
    cases hindex : e.outputIndex with
    | some n =>
      rw [itemKey, hindex] at hkey
      exact h.index_free n hkey
    | none => rfl
  rw [findToolIndex_named hnone (namedItemID_item hitem hproper hnames) hproper.id_ne.1]
  exact h.id_free item.id hid

end

def placedTool (a : Accumulator) (e : Event) (item : ResponsesOutput) : Accumulator :=
  { a with
    outputIndexToToolIdx :=
      match e.outputIndex with
      | some n => a.outputIndexToToolIdx.insert n a.tools.length
      | none => a.outputIndexToToolIdx
    itemIDToToolIdx := a.itemIDToToolIdx.insert item.id a.tools.length }

section
variable (h : Gathered calls text reasoning a)
include h

theorem newTool_eq (hproper : Proper item) : newTool a e item =
      { placedTool a e item with tools := a.tools ++
        [{ callId := item.callId, itemId := item.id, name := item.name }] } := by
  cases hindex : e.outputIndex with
  | some =>
    simp only [newTool, placedTool, hindex, applyToolMetadata_new hproper, hproper.id_ne.1, if_false, h.none_by_index,
      h.none_by_id, AList.lookup_empty, erase_empty, getD_none, String.append_empty]
  | none =>
    simp only [newTool, placedTool, hindex, applyToolMetadata_new hproper, hproper.id_ne.1, if_false,
      h.none_by_id, AList.lookup_empty, erase_empty, getD_none, String.append_empty]

theorem gathered_append (hkey : itemKey e item ∉ calls.map Call.key) (hid : item.id ∉ calls.map Call.id)
    (hproper : Proper item) :
    Gathered (calls ++ [.ofItem (itemKey e item) item]) text reasoning
      { placedTool a e item with tools := a.tools ++ [(Call.ofItem (itemKey e item) item).buffered] } := by
  have hlength : a.tools.length = calls.length := by rw [h.tools_eq, length_map]
  refine ⟨h.text_eq, h.reasoning_eq, ?_, ?_, ?_, ?_, ?_, h.none_by_index, h.none_by_id, ?_⟩
  · rw [map_append, ← h.tools_eq]
    rfl
  · intro j d hj n hn
    rcases Run.getElem?_concat_some hj with hj | ⟨rfl, rfl⟩
    · have hmem : .output n ∈ calls.map Call.key := hn ▸ mem_map_of_mem (mem_of_getElem? hj)
      cases hindex : e.outputIndex with
      | some m =>
        have hne : n ≠ m := by
          rintro rfl
          rw [itemKey, hindex] at hkey
          exact hkey hmem
        simp only [placedTool, hindex, AList.lookup_insert_ne hne]
        exact h.by_index j d hj n hn
      | none =>
        simp only [placedTool, hindex]
        exact h.by_index j d hj n hn
    · cases hindex : e.outputIndex with
      | some =>
        rw [Call.ofItem, itemKey, hindex] at hn
        cases hn
        simp only [placedTool, hindex, AList.lookup_insert, hlength]
      | none =>
        rw [Call.ofItem, itemKey, hindex] at hn
        cases hn
  · intro n hn
    rw [map_append, mem_append, not_or] at hn
    cases hindex : e.outputIndex with
    | some m =>
      have hne : n ≠ m := by
        rintro rfl
        apply hn.2
        rw [map_singleton, Call.ofItem, itemKey, hindex]
        exact mem_singleton_self _
      simp only [placedTool, hindex, AList.lookup_insert_ne hne]
      exact h.index_free n hn.1
    | none =>
      simp only [placedTool, hindex]
      exact h.index_free n hn.1
  · intro j d hj
    rcases Run.getElem?_concat_some hj with hj | ⟨rfl, rfl⟩
    · have hne : d.id ≠ item.id := fun he => hid (he ▸ mem_map_of_mem (mem_of_getElem? hj))
      simp only [placedTool, AList.lookup_insert_ne hne]
      exact h.by_id j d hj
    · simp only [placedTool, Call.ofItem, AList.lookup_insert, hlength]
  · intro id hn
    rw [map_append, mem_append, not_or] at hn
    have hne : id ≠ item.id := fun he => hn.2 (he ▸ mem_singleton_self _)
    simp only [placedTool, AList.lookup_insert_ne hne]
    exact h.id_free id hn.1
  · exact Run.forall_mem_concat h.names ⟨hproper.callId_ne, hproper.name_ne⟩

theorem gathered_item (hkeys : (calls.map Call.key).Nodup) (hitem : e.item = some item)
    (hproper : Proper item) (hnames : trimSpace e.itemId = "" ∨ trimSpace e.itemId = item.id)
    (hok : ∀ c ∈ calls, (c.key = itemKey e item ↔ c.id = item.id) ∧ (c.id = item.id → c.Continues item)) :
    Gathered (recordCall (fun c => c.key = itemKey e item) (itemKey e item) item calls) text reasoning
      (bufferItem a e item) := by
  rcases recordCall_cases hkeys (itemKey e item) item with ⟨i, c, hi, hkey, hrecord⟩ | ⟨hfresh, hrecord⟩
  · have hmem := mem_of_getElem? hi
    have hid := (hok c hmem).1.mp hkey
    obtain ⟨hcall, hname, -⟩ := (hok c hmem).2 hid
    have hsame : a.tools.modify i (fun tool => applyToolMetadata tool item) = a.tools := by
      rw [modify_eq_set (h.tool_at hi), applyToolMetadata_known hproper hid hcall hname, set_self (h.tool_at hi)]
    have hensure : ensureTool a e item = (a, i) := by
      simp only [ensureTool, find_known h hitem hproper hnames hi hkey hid, hsame]
    rw [hrecord, bufferItem, hensure, Call.repeated]
    split
    · rw [set_self hi]
      exact h
    · rw [modify_eq_set (h.tool_at hi)]
      exact gathered_set h hi rfl rfl rfl rfl
  · have hfresh' : item.id ∉ calls.map Call.id := by
      intro hmem
      obtain ⟨c, hc, hci⟩ := mem_map.mp hmem
      exact hfresh (((hok c hc).1.mpr hci) ▸ mem_map_of_mem hc)
    have hensure : ensureTool a e item = (newTool a e item, a.tools.length) := by
      simp only [ensureTool, find_new h hitem hproper hnames hfresh hfresh']
    have happend := gathered_append h hfresh hfresh' hproper
    rw [hrecord, bufferItem, hensure, newTool_eq h hproper]
    split
    · next hempty =>
      rw [Call.ofItem, Call.buffered, hempty] at happend
      rw [Call.ofItem, hempty]
      exact happend
    · rw [modify_eq_set (getElem?_concat_length), set_append_right _ _ (Nat.le_refl _), Nat.sub_self]
      exact happend

theorem find_addressed_tool (hi : calls[i]? = some c) (hne : c.id ≠ "") (ha : Addresses e c = true) :
    findToolIndex a e = some i := by
  cases hindex : e.outputIndex with
  | some n =>
    simp only [Addresses, hindex, decide_eq_true_eq] at ha
    simp only [findToolIndex, hindex, bind_some, h.by_index i c hi n ha]
  | none =>
    simp only [Addresses, hindex, decide_eq_true_eq] at ha
    have hnone : e.outputIndex.bind (fun n => a.outputIndexToToolIdx.lookup n) = none := by rw [hindex]; rfl
    have hname : namedItemID e = c.id := by
      rw [namedItemID, ← ha]
      exact if_neg hne
    rw [findToolIndex_named hnone hname hne]
    exact h.by_id i c hi

theorem gathered_args (hkeys : (calls.map Call.key).Nodup) (hkeyed : Keyed calls)
    (ha : ∃ c ∈ calls, Addresses e c = true) :
    Gathered (extendCall (Addresses e) e.delta calls) text reasoning (bufferArguments a e) := by
  obtain ⟨c, hc, ha⟩ := ha
  obtain ⟨_, hi⟩ := mem_iff_getElem?.mp hc
  rw [extendCall_eq_set hkeys hkeyed.ids hi ha, bufferArguments, find_addressed_tool h hi (hkeyed.id_ne c hc) ha]
  simp only [modify_eq_set (h.tool_at hi)]
  exact gathered_set h hi rfl rfl rfl rfl

end

end

def Event.reasoning (e : Event) : String :=
  if e.type = .reasoningSummaryDelta ∨ e.type = .reasoningTextDelta then e.delta else ""

def deltaReasoning (es : List Event) : String := String.join (es.map Event.reasoning)

variable {calls : List Call} {text reasoning : String} {a : Accumulator}

section
variable (h : Gathered calls text reasoning a)
include h

theorem Gathered.speech {text' reasoning' : String} :
    Gathered calls text' reasoning' { a with text := text', reasoning := reasoning' } :=
  ⟨rfl, rfl, h.tools_eq, h.by_index, h.index_free, h.by_id, h.id_free, h.none_by_index, h.none_by_id, h.names⟩

theorem Gathered.quiet {calls' : List Call} {e : Event} (hcalls : calls' = calls) (htext : e.text = "")
    (hreason : e.reasoning = "") : Gathered calls' (text ++ e.text) (reasoning ++ e.reasoning) a := by
  rw [hcalls, htext, hreason, String.append_empty, String.append_empty]
  exact h

theorem gathered_outputItem (hkeys : (calls.map Call.key).Nodup) {e : Event} (ht : e.type.isItem = true)
    (hok : EventOk calls e) (hnames : NamesItem e) :
    Gathered (afterEvent calls e) text reasoning
      (match e.item with
        | some item => if isResponsesToolOutputType item.type then bufferItem a e item else a
        | none => a) := by
  rw [EventOk, if_pos ht] at hok
  rw [afterEvent, if_pos ht]
  rcases call?_cases e with ⟨hcall, hnone⟩ | ⟨item, hi, htool, hcall⟩
  · rw [hcall]
    cases hi : e.item with
    | none => exact h
    | some item => simpa [hnone item hi] using h
  · obtain ⟨hproper, hcalls⟩ := hok item hcall
    simp only [hcall, hi, htool, if_true]
    exact gathered_item h hkeys hi hproper (hnames ht item hcall) hcalls

end

theorem gathered_event {r : ToChat} (hsim : Sim calls text r)
    (h : Gathered calls text reasoning a) {e : Event} (hok : EventOk calls e) (hnames : NamesItem e) :
    Gathered (afterEvent calls e) (text ++ e.text) (reasoning ++ e.reasoning) (processEvent a e) := by
  have hkeys := hsim.going.tools.apart
  have hargs := hok.addressed
  have hplain := @afterEvent_plain calls e
  have hextend := @afterEvent_args calls e
  cases htype : e.type
  all_goals
    simp only [htype] at hplain hargs hextend
    rw [processEvent, htype]
  case outputTextDelta =>
    have htext : e.text = e.delta := by rw [Event.text, htype]; rfl
    have hreason : e.reasoning = "" := by rw [Event.reasoning, htype]; rfl
    rw [hplain rfl rfl, htext, hreason, String.append_empty, ← h.text_eq, ← h.reasoning_eq]
    exact h.speech
  case reasoningSummaryDelta | reasoningTextDelta =>
    have htext : e.text = "" := by rw [Event.text, htype]; rfl
    have hreason : e.reasoning = e.delta := by rw [Event.reasoning, htype]; rfl
    rw [hplain rfl rfl, htext, hreason, String.append_empty, ← h.text_eq, ← h.reasoning_eq]
    exact h.speech
  all_goals
    have htext : e.text = "" := by rw [Event.text, htype]; rfl
    have hreason : e.reasoning = "" := by rw [Event.reasoning, htype]; rfl
  case outputItemAdded | outputItemDone =>
    exact (gathered_outputItem h hkeys (by rw [htype]; rfl) hok hnames).quiet rfl htext hreason
  case functionArgsDelta | customToolInputDelta =>
    exact (gathered_args h hkeys hsim.keyed (hargs rfl)).quiet (hextend rfl) htext hreason
  all_goals exact h.quiet (hplain rfl rfl) htext hreason

theorem gathered_run (es : List Event) {r : ToChat}
    (hsim : Sim calls text r) (h : Gathered calls text reasoning a) (hok : Run.Along afterEvent EventOk calls es)
    (hnames : ∀ e ∈ es, NamesItem e) : ∃ a', (∀ rest, scanBuffered a (es ++ rest) = scanBuffered a' rest) ∧
      Gathered (Run.exec afterEvent calls es) (text ++ deltaText es) (reasoning ++ deltaReasoning es) a' := by
  induction es generalizing calls text reasoning a r with
  | nil =>
    refine ⟨a, fun _ => rfl, ?_⟩
    rw [deltaText, deltaReasoning, map_nil, map_nil, String.join_nil, String.append_empty, String.append_empty]
    exact h
  | cons e es ih =>
    obtain ⟨_, -, hsim'⟩ := sim_event hsim hok.1
    obtain ⟨a', hrest, h'⟩ := ih hsim' (gathered_event hsim h hok.1 (hnames e mem_cons_self)) hok.2
      (fun e' he' => hnames e' (mem_cons_of_mem _ he'))
    have hgoes (rest : List Event) : scanBuffered a (e :: rest) = scanBuffered (processEvent a e) rest := by
      rw [scanBuffered]
      cases htype : e.type
      case completed | done | incomplete | failed | error => cases htype ▸ hok.1.isLast_eq
      all_goals rfl
    refine ⟨a', ?_, ?_⟩
    · intro rest
      rw [cons_append, hgoes]
      exact hrest rest
    · rw [deltaText, deltaReasoning, map_cons, map_cons, String.join_cons, String.join_cons,
        ← String.append_assoc, ← String.append_assoc]
      exact h'

end AiGateway.Responses
