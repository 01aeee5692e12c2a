import AiGateway.ClaudeContent

/-! What of the chat stream arrives in the Claude stream: the tool calls. -/
namespace AiGateway.Convert

open List Function Option

def ClaudeEvent.toolUse? (b : ℕ) : ClaudeEvent → Option (String × String)
  | .contentBlockStart i (.toolUse id name) => if i = b then some (id, name) else none
  | _ => none

def ClaudeEvent.inputJson? (b : ℕ) : ClaudeEvent → Option String
  | .contentBlockDelta i (.inputJson s) => if i = b then some s else none
  | _ => none

def toolUsesAt (b : ℕ) (es : List ClaudeEvent) : List (String × String) := es.filterMap (ClaudeEvent.toolUse? b)

def inputJsonAt (b : ℕ) (es : List ClaudeEvent) : String := String.join (es.filterMap (ClaudeEvent.inputJson? b))

variable (b : ℕ)

theorem toolUsesAt_append (es es' : List ClaudeEvent) :
    toolUsesAt b (es ++ es') = toolUsesAt b es ++ toolUsesAt b es' :=
  filterMap_append

theorem inputJsonAt_append (es es' : List ClaudeEvent) :
    inputJsonAt b (es ++ es') = inputJsonAt b es ++ inputJsonAt b es' := by
  rw [inputJsonAt, filterMap_append, String.join_append]
  rfl

def OffTools (es : List ClaudeEvent) : Prop := ∀ b, toolUsesAt b es = [] ∧ inputJsonAt b es = ""

theorem offTools_append {es es' : List ClaudeEvent} (h : OffTools es) (h' : OffTools es') : OffTools (es ++ es') := by
  intro b
  rw [toolUsesAt_append, inputJsonAt_append, (h b).1, (h b).2, (h' b).1, (h' b).2]
  exact ⟨rfl, rfl⟩

theorem offTools_quiet {es : List ClaudeEvent} (h : AllQuiet es) : OffTools es := by
  intro b
  have huse (e : ClaudeEvent) (he : e.quiet = true) : e.toolUse? b = none := by
    cases e <;> first | rfl | cases he
  have hjson (e : ClaudeEvent) (he : e.quiet = true) : e.inputJson? b = none := by
    cases e <;> first | rfl | cases he
  rw [toolUsesAt, inputJsonAt, filterMap_quiet huse h, filterMap_quiet hjson h]
  exact ⟨rfl, rfl⟩

/-! The fragments of the calls. -/

def callOf (f : ToolCallResponse × ℕ) : ℕ := f.1.offset f.2

def fragments (cs : List Chunk) : List (ToolCallResponse × ℕ) := cs.flatMap (fun c => c.delta.toolCalls.zipIdx)

def callArguments (j : ℕ) (fs : List (ToolCallResponse × ℕ)) : String :=
  String.join ((fs.filter (fun f => callOf f = j)).map (fun f => f.1.arguments))

def callHead (j : ℕ) (fs : List (ToolCallResponse × ℕ)) : Option (String × String) :=
  (fs.find? (fun f => callOf f = j)).map (fun f => (f.1.id, f.1.name))

/-- Each call has a tool block of its own, started once with its id and name, whose input is its arguments. -/
def CallsTold (fs : List (ToolCallResponse × ℕ)) (es : List ClaudeEvent) : Prop :=
  ∃ block : ℕ → ℕ, ∀ j ∈ fs.map callOf, toolUsesAt (block j) es = (callHead j fs).toList ∧
    inputJsonAt (block j) es = callArguments j fs ∧ ∀ i ∈ fs.map callOf, block i = block j → i = j

theorem callArguments_concat (j : ℕ) (fs : List (ToolCallResponse × ℕ)) (f : ToolCallResponse × ℕ) :
    callArguments j (fs ++ [f]) = callArguments j fs ++ if callOf f = j then f.1.arguments else "" := by
  rw [callArguments, filter_append, map_append, String.join_append]
  by_cases hf : callOf f = j
  · rw [if_pos hf, filter_singleton, decide_eq_true hf]
    exact congrArg (_ ++ ·) (join_singleton f.1.arguments)
  · rw [if_neg hf, filter_singleton, decide_eq_false hf]
    rfl

theorem callHead_concat (j : ℕ) (fs : List (ToolCallResponse × ℕ)) (f : ToolCallResponse × ℕ) :
    callHead j (fs ++ [f]) =
      if j ∈ fs.map callOf then callHead j fs
      else if callOf f = j then some (f.1.id, f.1.name) else none := by
  have hfind : (fs.find? (fun f => callOf f = j)).isSome = true ↔ j ∈ fs.map callOf := by
    rw [find?_isSome, List.mem_map]
    simp only [decide_eq_true_eq]
  rw [callHead, find?_append]
  by_cases hj : j ∈ fs.map callOf
  · obtain ⟨_, hf'⟩ := isSome_iff_exists.mp (hfind.mpr hj)
    rw [if_pos hj, hf', callHead, hf']
    rfl
  · have hnone : fs.find? (fun f => callOf f = j) = none :=
      not_isSome_iff_eq_none.mp (fun h => hj (hfind.mp h))
    rw [if_neg hj, hnone, none_or, find?_singleton]
    by_cases hf : callOf f = j
    · rw [if_pos hf, decide_eq_true hf]
      rfl
    · rw [if_neg hf, decide_eq_false hf]
      rfl

theorem toolUsesAt_start (i : ℕ) (id name : String) :
    toolUsesAt b [.contentBlockStart i (.toolUse id name)] = if i = b then [(id, name)] else [] := by
  by_cases hb : i = b
  · rw [if_pos hb, toolUsesAt, filterMap_cons, ClaudeEvent.toolUse?, if_pos hb]
    rfl
  · rw [if_neg hb, toolUsesAt, filterMap_cons, ClaudeEvent.toolUse?, if_neg hb]
    rfl

def inputEvents (i : ℕ) (arguments : String) : List ClaudeEvent :=
  if arguments ≠ "" then [.contentBlockDelta i (.inputJson arguments)] else []

theorem toolUsesAt_input (i : ℕ) (arguments : String) : toolUsesAt b (inputEvents i arguments) = [] := by
  rw [inputEvents]
  split <;> rfl

theorem inputJsonAt_input (i : ℕ) (arguments : String) :
    inputJsonAt b (inputEvents i arguments) = if i = b then arguments else "" := by
  rw [inputEvents]
  by_cases hargs : arguments = ""
  · rw [if_neg (not_not.mpr hargs), hargs, ite_self]
    rfl
  · rw [if_pos hargs]
    by_cases hb : i = b
    · rw [if_pos hb, inputJsonAt, filterMap_cons, ClaudeEvent.inputJson?, if_pos hb]
      exact join_singleton _
    · rw [if_neg hb, inputJsonAt, filterMap_cons, ClaudeEvent.inputJson?, if_neg hb]
      rfl

theorem fragmentEvents_eq (base : ℕ) (f : ToolCallResponse × ℕ) :
    fragmentEvents base f =
      (if f.1.name ≠ "" then [.contentBlockStart (base+callOf f) (.toolUse f.1.id f.1.name)] else []) ++
        inputEvents (base+callOf f) f.1.arguments := rfl

theorem toolUsesAt_fragment (base : ℕ) (f : ToolCallResponse × ℕ) : toolUsesAt b (fragmentEvents base f) =
      if f.1.name ≠ "" then (if base+callOf f = b then [(f.1.id, f.1.name)] else []) else [] := by
  rw [fragmentEvents_eq, toolUsesAt_append, toolUsesAt_input, append_nil]
  split
  · exact toolUsesAt_start b _ _ _
  · rfl

theorem inputJsonAt_fragment (base : ℕ) (f : ToolCallResponse × ℕ) :
    inputJsonAt b (fragmentEvents base f) = if base+callOf f = b then f.1.arguments else "" := by
  have hstart : inputJsonAt b (if f.1.name ≠ "" then
      [.contentBlockStart (base+callOf f) (.toolUse f.1.id f.1.name)] else []) = "" := by
    split <;> rfl
  rw [fragmentEvents_eq, inputJsonAt_append, hstart, String.empty_append, inputJsonAt_input]

/-! The calls of this stretch and of the earlier ones. -/

structure Calls where
  current : List ℕ := []
  past : List ℕ := []

/-- The first fragment of a call has its name and the others have none; of a call from an earlier stretch
nothing follows. -/
def Calls.Fits (k : Calls) (f : ToolCallResponse × ℕ) : Prop :=
  if callOf f ∈ k.current then f.1.name = ""
  else if callOf f ∈ k.past then f.1.name = "" ∧ f.1.arguments = ""
  else f.1.name ≠ ""

instance (k : Calls) (f : ToolCallResponse × ℕ) : Decidable (k.Fits f) :=
  inferInstanceAs (Decidable (ite _ _ _))

def Calls.add (k : Calls) (f : ToolCallResponse × ℕ) : Calls :=
  if callOf f ∈ k.current ∨ callOf f ∈ k.past then k else { k with current := callOf f :: k.current }

def Calls.endStretch (k : Calls) : Calls := ⟨[], k.current ++ k.past⟩

structure Told (blk : ℕ → ℕ) (k : Calls) (fs : List (ToolCallResponse × ℕ)) (es : List ClaudeEvent) :
    Prop where
  known : ∀ j, j ∈ fs.map callOf ↔ j ∈ k.current ∨ j ∈ k.past
  uses : ∀ j ∈ fs.map callOf, toolUsesAt (blk j) es = (callHead j fs).toList
  json : ∀ j ∈ fs.map callOf, inputJsonAt (blk j) es = callArguments j fs
  apart : ∀ i ∈ fs.map callOf, ∀ j ∈ fs.map callOf, blk i = blk j → i = j

/-- The blocks of the stretch begin at `base`, behind those of the earlier ones. -/
structure PlacedAt (base : ℕ) (blk : ℕ → ℕ) (k : Calls) (es : List ClaudeEvent) : Prop where
  current : ∀ j ∈ k.current, blk j = base+j
  past : ∀ j ∈ k.past, blk j < base
  clean : ∀ o ∉ k.current, toolUsesAt (base+o) es = [] ∧ inputJsonAt (base+o) es = ""

theorem callArguments_fresh {j : ℕ} {fs : List (ToolCallResponse × ℕ)} (hj : j ∉ fs.map callOf) :
    callArguments j fs = "" := by
  have hnone : fs.filter (fun f => callOf f = j) = [] := by
    apply filter_eq_nil_iff.mpr
    intro f hf hcall
    exact hj (mem_map.mpr ⟨f, hf, of_decide_eq_true hcall⟩)
  rw [callArguments, hnone]
  rfl

section
variable {base : ℕ} {blk : ℕ → ℕ} {k : Calls} {fs : List (ToolCallResponse × ℕ)} {es es' : List ClaudeEvent}

theorem Told.offTools (h : Told blk k fs es) (he : OffTools es') : Told blk k fs (es ++ es') where
  known := h.known
  uses := by
    intro j hj
    rw [toolUsesAt_append, (he _).1, append_nil, h.uses j hj]
  json := by
    intro j hj
    rw [inputJsonAt_append, (he _).2, String.append_empty, h.json j hj]
  apart := h.apart

theorem PlacedAt.offTools (h : PlacedAt base blk k es) (he : OffTools es') : PlacedAt base blk k (es ++ es') where
  current := h.current
  past := h.past
  clean := by
    intro o ho
    rw [toolUsesAt_append, inputJsonAt_append, (he _).1, (he _).2, append_nil, String.append_empty]
    exact h.clean o ho

theorem PlacedAt.block_iff (h : PlacedAt base blk k es) {j : ℕ} (hj : j ∈ k.current ∨ j ∈ k.past) (o : ℕ) :
    base+o = blk j ↔ j ∈ k.current ∧ o = j := by
  rcases hj with hj | hj
  · have hblk := h.current j hj
    constructor
    · intro he
      exact ⟨hj, by omega⟩
    · rintro ⟨-, rfl⟩
      exact hblk.symm
  · have hblk := h.past j hj
    constructor
    · intro he
      omega
    · rintro ⟨hcur, rfl⟩
      exact (h.current o hcur).symm

variable {f : ToolCallResponse × ℕ}

theorem Told.mem_concat_iff (h : Told blk k fs es) (hf : callOf f ∈ k.current ∨ callOf f ∈ k.past)
    (j : ℕ) : j ∈ (fs ++ [f]).map callOf ↔ j ∈ fs.map callOf := by
  rw [map_append, mem_append, map_singleton, mem_singleton]
  constructor
  · rintro (hj | rfl)
    · exact hj
    · exact (h.known _).mpr hf
  · exact .inl

section

variable (ht : Told blk k fs es) (hp : PlacedAt base blk k es)

include ht hp

theorem told_known (hf : callOf f ∈ k.current ∨ (callOf f ∈ k.past ∧ f.1.arguments = ""))
    (hname : f.1.name = "") :
    Told blk k (fs ++ [f]) (es ++ fragmentEvents base f) ∧
      PlacedAt base blk k (es ++ fragmentEvents base f) := by
  have hmem := ht.mem_concat_iff (hf.imp_right And.left)
  have huse (b : ℕ) : toolUsesAt b (fragmentEvents base f) = [] := by
    rw [toolUsesAt_fragment, if_neg (not_not.mpr hname)]
  refine ⟨⟨fun j => (hmem j).trans (ht.known j), ?_, ?_, ?_⟩, ⟨hp.current, hp.past, ?_⟩⟩
  · intro j hj
    rw [hmem] at hj
    rw [toolUsesAt_append, huse, append_nil, callHead_concat, if_pos hj, ht.uses j hj]
  · intro j hj
    rw [hmem] at hj
    rw [inputJsonAt_append, inputJsonAt_fragment, callArguments_concat, ht.json j hj]
    rcases hf with hf | ⟨_, hargs⟩
    · have hcall : base+callOf f = blk j ↔ callOf f = j := by
        rw [hp.block_iff ((ht.known j).mp hj)]
        exact ⟨fun h => h.2, fun h => ⟨h ▸ hf, h⟩⟩
      simp only [hcall]
    · rw [hargs, ite_self, ite_self]
  · intro i hi j hj
    rw [hmem] at hi hj
    exact ht.apart i hi j hj
  · intro o ho
    have hnone : (if base+callOf f = base+o then f.1.arguments else "") = "" := by
      rcases hf with hf | ⟨_, hargs⟩
      · exact if_neg (fun he : base+callOf f = base+o => ho (Nat.add_left_cancel he ▸ hf))
      · rw [hargs, ite_self]
    rw [toolUsesAt_append, huse, inputJsonAt_append, inputJsonAt_fragment, hnone, append_nil, String.append_empty]
    exact hp.clean o ho

theorem told_new (hcur : callOf f ∉ k.current) (hpast : callOf f ∉ k.past) (he : ∀ b, toolUsesAt b es' =
      if base+callOf f = b then [(f.1.id, f.1.name)] else [])
    (hj : ∀ b, inputJsonAt b es' = if base+callOf f = b then f.1.arguments else "") :
    Told (Function.update blk (callOf f) (base+callOf f)) { k with current := callOf f :: k.current }
      (fs ++ [f]) (es ++ es') ∧
      PlacedAt base (Function.update blk (callOf f) (base+callOf f))
        { k with current := callOf f :: k.current } (es ++ es') := by
  have hfresh : callOf f ∉ fs.map callOf := fun h => ((ht.known _).mp h).elim hcur hpast
  have hother {j : ℕ} (hj : j ∈ k.current ∨ j ∈ k.past) : j ≠ callOf f := by
    rintro rfl
    exact hj.elim hcur hpast
  -- the block of a call that is known is another one
  have hblk {j : ℕ} (hj : j ∈ k.current ∨ j ∈ k.past) : base+callOf f ≠ blk j :=
    fun h => hother hj ((hp.block_iff hj _).mp h).2.symm
  have hmem (j : ℕ) : j ∈ (fs ++ [f]).map callOf ↔ j ∈ fs.map callOf ∨ j = callOf f := by
    rw [map_append, mem_append, map_singleton, mem_singleton]
  refine ⟨⟨?_, ?_, ?_, ?_⟩, ⟨?_, ?_, ?_⟩⟩
  · intro j
    rw [hmem, ht.known, mem_cons]
    exact ⟨fun h => h.elim (fun h => h.elim (fun h => .inl (.inr h)) .inr) (fun h => .inl (.inl h)),
      fun h => h.elim (fun h => h.elim .inr (fun h => .inl (.inl h))) (fun h => .inl (.inr h))⟩
  · intro j hj'
    rcases (hmem j).mp hj' with hj' | rfl
    · have hknown := (ht.known j).mp hj'
      rw [update_of_ne (hother hknown), toolUsesAt_append, he, if_neg (hblk hknown), append_nil,
        callHead_concat, if_pos hj', ht.uses j hj']
    · rw [update_self, toolUsesAt_append, (hp.clean _ hcur).1, he, if_pos rfl, callHead_concat, if_neg hfresh,
        if_pos rfl]
      rfl
  · intro j hj'
    rcases (hmem j).mp hj' with hj' | rfl
    · have hknown := (ht.known j).mp hj'
      rw [update_of_ne (hother hknown), inputJsonAt_append, hj, if_neg (hblk hknown), callArguments_concat,
        if_neg (hother hknown).symm, ht.json j hj']
    · rw [update_self, inputJsonAt_append, (hp.clean _ hcur).2, hj, if_pos rfl, callArguments_concat, if_pos rfl,
        callArguments_fresh hfresh]
  · intro i hi j hj' heq
    rcases (hmem i).mp hi with hi | rfl <;> rcases (hmem j).mp hj' with hj' | rfl
    · rw [update_of_ne (hother ((ht.known i).mp hi)), update_of_ne (hother ((ht.known j).mp hj'))] at heq
      exact ht.apart i hi j hj' heq
    · rw [update_of_ne (hother ((ht.known i).mp hi)), update_self] at heq
      exact absurd heq.symm (hblk ((ht.known i).mp hi))
    · rw [update_of_ne (hother ((ht.known j).mp hj')), update_self] at heq
      exact absurd heq (hblk ((ht.known j).mp hj'))
    · rfl
  · intro j hj'
    rcases mem_cons.mp hj' with rfl | hj'
    · exact update_self _ _ _
    · rw [update_of_ne (hother (.inl hj'))]
      exact hp.current j hj'
  · intro j hj'
    rw [update_of_ne (hother (.inr hj'))]
    exact hp.past j hj'
  · intro o ho
    rw [mem_cons, not_or] at ho
    have hne : base+callOf f ≠ base+o := fun h => ho.1 (Nat.add_left_cancel h).symm
    rw [toolUsesAt_append, inputJsonAt_append, he, hj, if_neg hne, if_neg hne, append_nil, String.append_empty]
    exact hp.clean o ho.2

theorem told_fragment (hf : k.Fits f) : ∃ blk', Told blk' (k.add f) (fs ++ [f]) (es ++ fragmentEvents base f) ∧
      PlacedAt base blk' (k.add f) (es ++ fragmentEvents base f) := by
  by_cases hcur : callOf f ∈ k.current
  · rw [Calls.Fits, if_pos hcur] at hf
    rw [Calls.add, if_pos (.inl hcur)]
    exact ⟨blk, told_known ht hp (.inl hcur) hf⟩
  · by_cases hpast : callOf f ∈ k.past
    · rw [Calls.Fits, if_neg hcur, if_pos hpast] at hf
      rw [Calls.add, if_pos (.inr hpast)]
      exact ⟨blk, told_known ht hp (.inr ⟨hpast, hf.2⟩) hf.1⟩
    · rw [Calls.Fits, if_neg hcur, if_neg hpast] at hf
      rw [Calls.add, if_neg (fun h => h.elim hcur hpast)]
      have huse (b : ℕ) : toolUsesAt b (fragmentEvents base f) =
          if base+callOf f = b then [(f.1.id, f.1.name)] else [] := by
        rw [toolUsesAt_fragment, if_pos hf]
      exact ⟨_, told_new ht hp hcur hpast huse (fun b => inputJsonAt_fragment b base f)⟩

theorem told_fragments (frs : List (ToolCallResponse × ℕ)) (hf : Run.Along Calls.add Calls.Fits k frs) :
    ∃ blk', Told blk' (Run.exec Calls.add k frs) (fs ++ frs) (es ++ frs.flatMap (fragmentEvents base)) ∧
      PlacedAt base blk' (Run.exec Calls.add k frs) (es ++ frs.flatMap (fragmentEvents base)) := by
  induction frs generalizing blk k fs es with
  | nil =>
    rw [append_nil, flatMap_nil, append_nil]
    exact ⟨blk, ht, hp⟩
  | cons f frs ih =>
    obtain ⟨_, ht', hp'⟩ := told_fragment ht hp hf.1
    have hrest := ih ht' hp' hf.2
    rw [append_assoc, append_assoc] at hrest
    exact hrest

end

/-! From stretch to stretch. -/

theorem Told.endStretch (h : Told blk k fs es) : Told blk k.endStretch fs es where
  known := by
    intro j
    rw [h.known, Calls.endStretch, mem_append]
    exact ⟨.inr, fun h => h.resolve_left not_mem_nil⟩
  uses := h.uses
  json := h.json
  apart := h.apart

theorem PlacedAt.endStretch (h : PlacedAt base blk k es) {next : ℕ} (hnext : ∀ j ∈ k.current, base+j < next)
    (hle : base ≤ next) : PlacedAt next blk k.endStretch es where
  current := nofun
  past := by
    intro j hj
    rcases mem_append.mp hj with hj | hj
    · rw [h.current j hj]
      exact hnext j hj
    · exact Nat.lt_of_lt_of_le (h.past j hj) hle
  clean := by
    intro o _
    obtain ⟨d, rfl⟩ := Nat.exists_eq_add_of_le hle
    rw [Nat.add_assoc]
    apply h.clean
    intro hcur
    have hlt := hnext _ hcur
    omega

end

end AiGateway.Convert
