import AiGateway.ResponsesTools

/-! An item of a Responses stream that has a call, and what a well-formed stream is up to its last event. -/
namespace AiGateway.Responses

open AiGateway.Convert (Chunk)
open AiGateway.GoText (trimSpace)
open List Option

/-! Items. -/

def registered (e : Event) (key : Key) (s : StreamState) : StreamState :=
  { s with
    outputIndexToKey :=
      match e.outputIndex with
      | some n => s.outputIndexToKey.insert n key
      | none => s.outputIndexToKey
    itemIDToKey :=
      if responseStreamEventItemID e = "" then s.itemIDToKey
      else s.itemIDToKey.insert (responseStreamEventItemID e) key }

theorem erase_empty {α : Type*} [DecidableEq α] {β : α → Type*} (a : α) :
    AList.erase a (∅ : AList β) = ∅ := AList.ext rfl

variable {s : StreamState} {item : ResponsesOutput}

theorem registerTool_quiet (hindex : s.pendingArgsByOutputIndex = ∅) (hitem : s.pendingArgsByItemID = ∅)
    (e : Event) (key : Key) (tool : Tool) : registerTool e key tool s = (tool, registered e key s) := by
  cases hn : e.outputIndex with
  | none =>
    by_cases hid : responseStreamEventItemID e = ""
    · simp only [registerTool, registered, hn, hid, if_true]
    · simp only [registerTool, registered, hn, hid, if_false, hitem, AList.lookup_empty, erase_empty, getD_none,
        String.append_empty]
  | some =>
    by_cases hid : responseStreamEventItemID e = ""
    · simp only [registerTool, registered, hn, hid, if_true, hindex, AList.lookup_empty, erase_empty, getD_none,
        String.append_empty]
    · simp only [registerTool, registered, hn, hid, if_false, hindex, hitem, AList.lookup_empty, erase_empty,
        getD_none, String.append_empty]

section
variable {item : ResponsesOutput} (hproper : Proper item)
include hproper

theorem Proper.id_ne : item.id ≠ "" ∧ trimSpace item.id = item.id := hproper _ mem_cons_self

theorem Proper.callId_ne : item.callId ≠ "" ∧ trimSpace item.callId = item.callId :=
  hproper _ (mem_cons_of_mem _ mem_cons_self)

theorem Proper.name_ne : item.name ≠ "" ∧ trimSpace item.name = item.name :=
  hproper _ (mem_cons_of_mem _ (mem_cons_of_mem _ mem_cons_self))

end

section
variable {e : Event} {key : Key} (hindex : s.pendingArgsByOutputIndex = ∅)
  (hitem : s.pendingArgsByItemID = ∅) (hproper : Proper item) (hkey : keyForEvent e = some key)
include hindex hitem hproper hkey

theorem ensureTool_known {tool : Tool} (hfound : s.toolByKey.lookup key = some tool) :
    ensureToolForEvent e item s = some ({ tool with callId := item.callId, name := item.name },
      registered e key s) := by
  rw [ensureToolForEvent, hkey, map_some]
  simp only [toolFor, hfound, registerTool_quiet hindex hitem, hproper.callId_ne.2, hproper.name_ne.2,
    hproper.callId_ne.1,
    hproper.name_ne.1, ne_eq, not_false_eq_true, if_true]

theorem ensureTool_new (hfound : s.toolByKey.lookup key = none) : ensureToolForEvent e item s =
      some ({ key, callId := item.callId, name := item.name, index := s.nextToolIndex },
        { registered e key s with nextToolIndex := s.nextToolIndex+1 }) := by
  have hquiet := registerTool_quiet (s := { s with nextToolIndex := s.nextToolIndex+1 }) hindex hitem e key
  rw [ensureToolForEvent, hkey, map_some]
  simp only [toolFor, hfound, hquiet, hproper.callId_ne.2, hproper.name_ne.2, hproper.callId_ne.1,
    hproper.name_ne.1, ne_eq, not_false_eq_true, if_true]
  rfl

end

theorem exists_append_of_prefix {a b : String} (h : a.toList <+: b.toList) : ∃ rest, b = a ++ rest := by
  obtain ⟨rest, hrest⟩ := h
  refine ⟨String.ofList rest, ?_⟩
  apply String.toList_injective
  rw [String.toList_append, String.toList_ofList, hrest]

theorem toolItem_step {calls : List Call} {text : String} {chunks : List Chunk} (ht : Tools calls s)
    (hs : Said calls text chunks) {e : Event} (hproper : Proper item) {key : Key}
    (hkey : keyForEvent e = some key) (hcont : ∀ c ∈ calls, c.key = key → c.Continues item) :
    Tools (recordCall (fun c => c.key = key) key item calls) (toolItem e item s).1 ∧
      Said (recordCall (fun c => c.key = key) key item calls) text (chunks ++ (toolItem e item s).2) ∧
      SameBut (registered e key s) (toolItem e item s).1 := by
  have ht' : Tools calls (registered e key s) := ht.congr ⟨rfl, rfl, rfl, rfl, rfl⟩
  rcases recordCall_cases ht.apart key item with ⟨i, c, hi, rfl, hrecord⟩ | ⟨hfresh, hrecord⟩
  · obtain ⟨hid, hname, hargs⟩ := hcont c (mem_of_getElem? hi) rfl
    -- what the item has beyond what is known
    have hrest : ∃ rest, c.repeated item = { c with arguments := c.arguments ++ rest } ∧
        (if item.arguments ≠ "" then { c.tool i with arguments := item.arguments } else c.tool i) =
          { c.tool i with arguments := c.arguments ++ rest } := by
      rw [Call.repeated]
      by_cases hempty : item.arguments = ""
      · rw [if_pos hempty, if_neg (not_not.mpr hempty)]
        refine ⟨"", ?_⟩
        rw [String.append_empty]
        exact ⟨rfl, rfl⟩
      · obtain ⟨rest, hrest⟩ := exists_append_of_prefix (hargs.resolve_left hempty)
        rw [if_neg hempty, if_pos hempty, hrest]
        exact ⟨rest, rfl, rfl⟩
    obtain ⟨rest, hrepeated, htool⟩ := hrest
    have hensure := ensureTool_known ht.none_by_index ht.none_by_id hproper hkey (ht.known i c hi)
    rw [← hid, ← hname] at hensure
    have hitem : toolItem e item s =
        toolDelta { c.tool i with arguments := c.arguments ++ rest } "" (registered e c.key s) := by
      rw [toolItem, hensure, ← htool]
      rfl
    rw [hrecord, hrepeated, hitem]
    exact told_more ht' hs hi (.inl rfl)
  · have hensure := ensureTool_new ht.none_by_index ht.none_by_id hproper hkey (ht.unknown key hfresh)
    have hitem : toolItem e item s = toolDelta ((Call.ofItem key item).unsent calls.length) ""
        { registered e key s with nextToolIndex := (registered e key s).nextToolIndex+1 } := by
      rw [toolItem, hensure, ← ht.next_eq]
      by_cases hempty : item.arguments = ""
      · simp only [Call.unsent, Call.ofItem, hempty, ne_eq, not_true, if_false]
        rfl
      · simp only [Call.unsent, Call.ofItem, hempty, ne_eq, not_false_eq_true, if_true]
        rfl
    rw [hrecord, hitem]
    exact told_new ht' hs hfresh hproper.callId_ne hproper.name_ne.1

/-! Well-formed events. -/

def EventType.isItem : EventType → Bool
  | .outputItemAdded | .outputItemDone => true
  | _ => false

def EventType.isArgsDelta : EventType → Bool
  | .functionArgsDelta | .customToolInputDelta => true
  | _ => false

def EventType.isArgsDone : EventType → Bool
  | .functionArgsDone | .customToolInputDone => true
  | _ => false

def EventType.isLast : EventType → Bool
  | .completed | .done | .incomplete | .failed | .error => true
  | _ => false

def Event.call? (e : Event) : Option ResponsesOutput := e.item.filter (fun item => isResponsesToolOutputType item.type)

def itemKey (e : Event) (item : ResponsesOutput) : Key :=
  match e.outputIndex with
  | some n => .output n
  | none => .item item.id

def Addresses (e : Event) (c : Call) : Bool :=
  match e.outputIndex with
  | some n => c.key = .output n
  | none => c.id = trimSpace e.itemId

/-- An item is that of a new call or goes on with one that has the same ids and the same output index, or none
like it; arguments come for calls that are known. -/
def EventOk (calls : List Call) (e : Event) : Prop :=
  if e.type.isItem then
    ∀ item ∈ e.call?, Proper item ∧
      ∀ c ∈ calls, (c.key = itemKey e item ↔ c.id = item.id) ∧ (c.id = item.id → c.Continues item)
  else if e.type.isArgsDelta || e.type.isArgsDone then ∃ c ∈ calls, Addresses e c = true
  else e.type.isLast = false

instance (calls : List Call) (e : Event) : Decidable (EventOk calls e) :=
  inferInstanceAs (Decidable (ite _ _ _))

def afterEvent (calls : List Call) (e : Event) : List Call :=
  if e.type.isItem then
    match e.call? with
    | some item => recordCall (fun c => c.key = itemKey e item) (itemKey e item) item calls
    | none => calls
  else if e.type.isArgsDelta then extendCall (Addresses e) e.delta calls
  else calls

def Event.text (e : Event) : String := if e.type = .outputTextDelta then e.delta else ""

end AiGateway.Responses
