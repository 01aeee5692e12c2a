import AiGateway.Brackets
import AiGateway.ClaudeStream
import AiGateway.Run

/-! The blocks that the conversion has open, followed over the chunks. -/
namespace AiGateway.Convert

open Brackets (Mark phase Laid)
open List Run

def ClaudeEvent.mark? : ClaudeEvent → Option (Mark ℕ)
  | .contentBlockStart i _ => some (.start i)
  | .contentBlockDelta i _ => some (.delta i)
  | .contentBlockStop i => some (.stop i)
  | _ => none

def marks (es : List ClaudeEvent) : List (Mark ℕ) := es.filterMap ClaudeEvent.mark?

@[simp] theorem marks_nil : marks [] = [] := rfl

@[simp] theorem marks_append (es es' : List ClaudeEvent) : marks (es ++ es') = marks es ++ marks es' :=
  filterMap_append

theorem marks_stops (base n : ℕ) : marks ((List.range n).map (fun offset => .contentBlockStop (base+offset))) =
      (List.range n).map (fun k => .stop (base+k)) := by
  rw [marks, filterMap_map]
  exact congrFun filterMap_eq_map _

/-! Stretches of tool calls. -/

/-- The tool calls since the last text or reasoning: which indices were announced by a name, and the
largest index. -/
structure Stretch where
  announced : List ℕ
  top : ℕ

def Stretch.begin : Stretch := ⟨[], 0⟩

/-- A name announces its index for the first time; arguments alone come to an announced index. -/
def Stretch.Fits (s : Stretch) (f : ToolCallResponse × ℕ) : Prop :=
  if f.1.name ≠ "" then f.1.offset f.2 ∉ s.announced
  else f.1.arguments ≠ "" → f.1.offset f.2 ∈ s.announced

def Stretch.add (s : Stretch) (f : ToolCallResponse × ℕ) : Stretch :=
  ⟨if f.1.name ≠ "" then f.1.offset f.2 :: s.announced else s.announced, max s.top (f.1.offset f.2)⟩

def Stretch.Closed (s : Stretch) : Prop := ∀ o ≤ s.top, o ∈ s.announced

def Stretch.Bounded (s : Stretch) : Prop := ∀ o ∈ s.announced, o ≤ s.top

def Stretch.Opens (s : Stretch) (base i : ℕ) : Prop := ∃ o ∈ s.announced, i = base+o

instance (s : Stretch) (f : ToolCallResponse × ℕ) : Decidable (s.Fits f) :=
  inferInstanceAs (Decidable (ite _ _ _))

instance (s : Stretch) : Decidable s.Closed :=
  inferInstanceAs (Decidable (∀ o ≤ s.top, o ∈ s.announced))

theorem Stretch.opens_iff (s : Stretch) (base o : ℕ) : s.Opens base (base+o) ↔ o ∈ s.announced := by
  constructor
  · rintro ⟨o', ho', heq⟩
    rwa [show o = o' by omega]
  · intro ho
    exact ⟨o, ho, rfl⟩

variable {s : Stretch} {ms : List (Mark ℕ)} {info : ClaudeInfo} {st : Option Stretch}
  {kind : LastMessageType}

theorem Stretch.bounded_add (h : s.Bounded) (f : ToolCallResponse × ℕ) : (s.add f).Bounded := by
  intro o ho
  rw [Stretch.add] at ho ⊢
  split at ho
  · rcases mem_cons.mp ho with rfl | ho
    · exact Nat.le_max_right _ _
    · exact Nat.le_trans (h o ho) (Nat.le_max_left _ _)
  · exact Nat.le_trans (h o ho) (Nat.le_max_left _ _)

theorem Stretch.bounded_exec (h : s.Bounded) (fs : List (ToolCallResponse × ℕ)) :
    (exec Stretch.add s fs).Bounded :=
  exec_invariant_all Stretch.Bounded (fun _ f hs => Stretch.bounded_add hs f) s fs h

theorem Stretch.top_exec (s : Stretch) (fs : List (ToolCallResponse × ℕ)) :
    (exec Stretch.add s fs).top = fs.foldl (fun m e => max m (e.1.offset e.2)) s.top := by
  induction fs generalizing s with
  | nil => rfl
  | cons f fs ih => exact ih (s.add f)

variable {base : ℕ} {f : ToolCallResponse × ℕ} {toolCalls : List ToolCallResponse}

theorem laid_fragment (h : Laid base (s.Opens base) ms) (hf : s.Fits f) :
    Laid base ((s.add f).Opens base) (ms ++ marks (fragmentEvents base f)) := by
  have hle : base ≤ base+f.1.offset f.2 := Nat.le_add_right _ _
  by_cases hname : f.1.name = ""
  · have hfits : f.1.arguments ≠ "" → f.1.offset f.2 ∈ s.announced := by
      rwa [Stretch.Fits, if_neg (not_not.mpr hname)] at hf
    have hadd : (s.add f).Opens base = s.Opens base := by
      funext i
      rw [Stretch.Opens, Stretch.Opens, Stretch.add, if_neg (not_not.mpr hname)]
    rw [hadd, fragmentEvents, if_neg (not_not.mpr hname), nil_append]
    split
    · next hargs => exact h.delta hle ((s.opens_iff base _).mpr (hfits hargs))
    · rwa [marks_nil, append_nil]
  · have hnew : ¬ s.Opens base (base+f.1.offset f.2) := by
      rw [s.opens_iff]
      rwa [Stretch.Fits, if_pos hname] at hf
    have hadd (i : ℕ) : (s.add f).Opens base i ↔ i = base+f.1.offset f.2 ∨ s.Opens base i := by
      rw [Stretch.Opens, Stretch.add, if_pos hname]
      simp only [mem_cons, exists_eq_or_imp]
      rfl
    have hstart := (h.start hle hnew).congr (fun i _ => hadd i)
    rw [fragmentEvents, if_pos hname, marks_append, ← append_assoc]
    split
    · exact hstart.delta hle ((hadd _).mpr (.inl rfl))
    · rw [marks_nil, append_nil]
      exact hstart

theorem bad_fragment (h : Laid base (s.Opens base) ms)
    (hf : ¬ s.Fits f) : ∃ i, phase i (ms ++ marks (fragmentEvents base f)) = .bad := by
  have hle : base ≤ base+f.1.offset f.2 := Nat.le_add_right _ _
  refine ⟨base+f.1.offset f.2, ?_⟩
  by_cases hname : f.1.name = ""
  · rw [Stretch.Fits, if_neg (not_not.mpr hname), Classical.not_imp] at hf
    rw [fragmentEvents, if_neg (not_not.mpr hname), if_pos hf.1, nil_append]
    exact h.bad_delta hle (fun ho => hf.2 ((s.opens_iff base _).mp ho))
  · rw [Stretch.Fits, if_pos hname, not_not] at hf
    rw [fragmentEvents, if_pos hname, marks_append, ← append_assoc]
    exact Brackets.phase_bad_append (h.bad_start hle ((s.opens_iff base _).mpr hf)) _

variable (fs : List (ToolCallResponse × ℕ))

theorem laid_fragments (h : Laid base (s.Opens base) ms) (hfs : Along Stretch.add Stretch.Fits s fs) :
    Laid base ((exec Stretch.add s fs).Opens base) (ms ++ marks (fs.flatMap (fragmentEvents base))) := by
  induction fs generalizing s ms with
  | nil => simpa using h
  | cons f fs ih =>
    rw [flatMap_cons, marks_append, ← append_assoc]
    exact ih (laid_fragment h hfs.1) hfs.2

theorem bad_fragments (h : Laid base (s.Opens base) ms) (hfs : ¬ Along Stretch.add Stretch.Fits s fs) :
    ∃ i, phase i (ms ++ marks (fs.flatMap (fragmentEvents base))) = .bad := by
  induction fs generalizing s ms with
  | nil => exact absurd trivial hfs
  | cons f fs ih =>
    rw [flatMap_cons, marks_append, ← append_assoc]
    by_cases hf : s.Fits f
    · exact ih (laid_fragment h hf) (fun hfs' => hfs ⟨hf, hfs'⟩)
    · obtain ⟨i, hi⟩ := bad_fragment h hf
      exact ⟨i, Brackets.phase_bad_append hi _⟩

/-! One chunk after the other. -/

def Closes (st : Option Stretch) : Prop := ∀ s ∈ st, s.Closed

instance (st : Option Stretch) : Decidable (Closes st) :=
  inferInstanceAs (Decidable (∀ s ∈ st, s.Closed))

def Delta.hasText (d : Delta) : Prop := d.getReasoningContent ≠ "" ∨ d.getContentString ≠ ""

instance (d : Delta) : Decidable d.hasText :=
  inferInstanceAs (Decidable (_ ∨ _))

def follow (st : Option Stretch) (d : Delta) : Option Stretch :=
  if d.toolCalls ≠ [] then some (exec Stretch.add (st.getD .begin) d.toolCalls.zipIdx)
  else if d.hasText then none
  else st

/-- The tool calls of a chunk that is not the first one fit the stretch; text or reasoning ends it. -/
def ToolsFit (st : Option Stretch) (d : Delta) : Prop :=
  if d.toolCalls ≠ [] then Along Stretch.add Stretch.Fits (st.getD .begin) d.toolCalls.zipIdx
  else d.hasText → Closes st

instance (st : Option Stretch) (d : Delta) : Decidable (ToolsFit st d) :=
  inferInstanceAs (Decidable (ite _ _ _))

def Follows (info : ClaudeInfo) (st : Option Stretch) (ms : List (Mark ℕ)) : Prop :=
  match info.lastMessagesType with
  | .none => st = none ∧ Laid info.index (fun _ => False) ms
  | .text | .thinking => st = none ∧ Laid info.index (· = info.index) ms
  | .tools => ∃ s, st = some s ∧ info.toolCallMaxIndexOffset = s.top ∧ s.Bounded ∧
      Laid info.toolCallBaseIndex (s.Opens info.toolCallBaseIndex) ms

theorem stopOpenBlocksAndAdvance_events : (stopOpenBlocksAndAdvance info).2 = stopOpenBlocks info := by
  cases hl : info.lastMessagesType <;> simp only [stopOpenBlocksAndAdvance, stopOpenBlocks, hl]

theorem stopOpenBlocksAndAdvance_none : (stopOpenBlocksAndAdvance info).1.lastMessagesType = .none := by
  cases hl : info.lastMessagesType <;> simp only [stopOpenBlocksAndAdvance, hl]

section
variable (h : Follows info st ms)
include h

theorem laid_stop (hc : Closes st) :
    Laid (stopOpenBlocksAndAdvance info).1.index (fun _ => False) (ms ++ marks (stopOpenBlocks info)) := by
  have hone {ms : List (Mark ℕ)} (hlaid : Laid info.index (· = info.index) ms) :
      Laid (info.index+1) (fun _ => False) (ms ++ [.stop info.index]) := by
    refine (hlaid.stop rfl).congr ?_
    intro i hi
    constructor
    · exact False.elim
    · intro h'
      omega
  cases hl : info.lastMessagesType with
  | none =>
    simp only [Follows, hl] at h
    simp only [stopOpenBlocksAndAdvance, stopOpenBlocks, hl, marks_nil, append_nil]
    exact h.2
  | text | thinking =>
    simp only [Follows, hl] at h
    simp only [stopOpenBlocksAndAdvance, stopOpenBlocks, hl]
    exact hone h.2
  | tools =>
    simp only [Follows, hl] at h
    obtain ⟨s, hst, htop, hbound, hlaid⟩ := h
    have hclosed : s.Closed := hc s hst
    have hstops := hlaid.stops (s.top+1) (fun k hk => (s.opens_iff _ k).mpr (hclosed k (by omega)))
    simp only [stopOpenBlocksAndAdvance, stopOpenBlocks, hl, htop]
    rw [marks_stops]
    refine hstops.congr ?_
    intro i hi
    constructor
    · exact False.elim
    · rintro ⟨o, ho, heq⟩
      have hle := hbound o ho
      omega

theorem bad_stop (hc : ¬ Closes st) : ∃ i, phase i (ms ++ marks (stopOpenBlocks info)) = .bad := by
  have hnone : st ≠ none := by
    rintro rfl
    exact hc (fun s hs => absurd hs (by simp))
  cases hl : info.lastMessagesType with
  | none | text | thinking =>
    simp only [Follows, hl] at h
    exact absurd h.1 hnone
  | tools =>
    simp only [Follows, hl] at h
    obtain ⟨s, rfl, htop, -, hlaid⟩ := h
    have hopen : ∃ o, o ≤ s.top ∧ o ∉ s.announced := by
      by_contra hall
      push Not at hall
      exact hc (fun s' hs' => by cases hs'; exact hall)
    obtain ⟨o, ho, hnot⟩ := hopen
    have hbad := hlaid.bad_stops (Nat.lt_succ_of_le ho) (fun hop => hnot ((s.opens_iff _ o).mp hop))
    refine ⟨info.toolCallBaseIndex+o, ?_⟩
    simp only [stopOpenBlocks, hl, htop]
    rw [marks_stops]
    exact hbad

theorem follows_advance (hc : Closes st) :
    Follows (stopOpenBlocksAndAdvance info).1 none (ms ++ marks (stopOpenBlocksAndAdvance info).2) := by
  have hlaid := laid_stop h hc
  rw [stopOpenBlocksAndAdvance_events]
  simp only [Follows, stopOpenBlocksAndAdvance_none]
  exact ⟨trivial, hlaid⟩

theorem Follows.stretch_none (hl : info.lastMessagesType ≠ .tools) : st = none := by
  cases hl' : info.lastMessagesType with
  | tools => exact absurd hl' hl
  | none | text | thinking =>
    simp only [Follows, hl'] at h
    exact h.1

end

theorem closes_none : Closes none := fun _ hs => absurd hs (Option.not_mem_none _)

theorem laid_toolBase (h : Follows info st ms) : ∃ (base : ℕ) (before : List ClaudeEvent),
      (toolFragments toolCalls info).2 = before ++ toolCalls.zipIdx.flatMap (fragmentEvents base) ∧
      (toolFragments toolCalls info).1.toolCallBaseIndex = base ∧
      (toolFragments toolCalls info).1.toolCallMaxIndexOffset =
        toolCalls.zipIdx.foldl (fun m e => max m (e.1.offset e.2)) (st.getD .begin).top ∧
      (st.getD .begin).Bounded ∧ Laid base ((st.getD .begin).Opens base) (ms ++ marks before) := by
  by_cases hl : info.lastMessagesType = .tools
  · simp only [Follows, hl] at h
    obtain ⟨_, rfl, htop, hbound, hlaid⟩ := h
    refine ⟨info.toolCallBaseIndex, [], ?_, ?_, ?_, hbound, ?_⟩
    · simp only [toolFragments, hl, ne_eq, not_true, if_false]
    · simp only [toolFragments, hl, ne_eq, not_true, if_false]
    · simp only [toolFragments, hl, ne_eq, not_true, if_false, htop]
      rfl
    · rw [marks_nil, append_nil]
      exact hlaid
  · have hst := h.stretch_none hl
    subst hst
    refine ⟨(stopOpenBlocksAndAdvance info).1.index, (stopOpenBlocksAndAdvance info).2, ?_, ?_, ?_, ?_, ?_⟩
    · simp only [toolFragments, hl, ne_eq, not_false_eq_true, if_true]
    · simp only [toolFragments, hl, ne_eq, not_false_eq_true, if_true]
    · simp only [toolFragments, hl, ne_eq, not_false_eq_true, if_true]
      rfl
    · intro o ho
      exact absurd ho not_mem_nil
    · rw [stopOpenBlocksAndAdvance_events]
      refine (laid_stop h closes_none).congr ?_
      intro i hi
      constructor
      · rintro ⟨_, ho, -⟩
        exact absurd ho not_mem_nil
      · exact False.elim

theorem toolFragments_tools : (toolFragments toolCalls info).1.lastMessagesType = .tools := rfl

theorem follows_toolFragments (h : Follows info st ms)
    (hfit : Along Stretch.add Stretch.Fits (st.getD .begin) toolCalls.zipIdx) : Follows (toolFragments toolCalls info).1
      (some (exec Stretch.add (st.getD .begin) toolCalls.zipIdx))
      (ms ++ marks (toolFragments toolCalls info).2) := by
  obtain ⟨_, _, hevents, hbase, htop, hbound, hlaid⟩ := laid_toolBase h
  have hall := laid_fragments toolCalls.zipIdx hlaid hfit
  simp only [Follows, toolFragments_tools]
  refine ⟨_, rfl, ?_, Stretch.bounded_exec hbound _, ?_⟩
  · rw [htop, Stretch.top_exec]
  · rw [hbase, hevents, marks_append, ← append_assoc]
    exact hall

theorem bad_toolFragments (h : Follows info st ms)
    (hfit : ¬ Along Stretch.add Stretch.Fits (st.getD .begin) toolCalls.zipIdx) :
    ∃ i, phase i (ms ++ marks (toolFragments toolCalls info).2) = .bad := by
  obtain ⟨_, _, hevents, -, -, -, hlaid⟩ := laid_toolBase h
  obtain ⟨i, hi⟩ := bad_fragments toolCalls.zipIdx hlaid hfit
  refine ⟨i, ?_⟩
  rw [hevents, marks_append, ← append_assoc]
  exact hi

def LastMessageType.single : LastMessageType → Bool
  | .text | .thinking => true
  | _ => false

theorem follows_single (hk : kind.single = true) (hl : info.lastMessagesType = kind) :
    Follows info st ms ↔ st = none ∧ Laid info.index (· = info.index) ms := by
  cases kind with
  | none | tools => cases hk
  | text | thinking => simp only [Follows, hl]

theorem follows_opened (hk : kind.single = true)
    (h : Follows info none ms) (hl : info.lastMessagesType = .none) (block : ContentBlock) (delta : BlockDelta) :
    Follows { info with lastMessagesType := kind } none
      (ms ++ marks [.contentBlockStart info.index block, .contentBlockDelta info.index delta]) := by
  simp only [Follows, hl] at h
  rw [follows_single hk rfl]
  have hstart := (h.2.start (Nat.le_refl _) id).delta (Nat.le_refl _) (.inl rfl)
  refine ⟨rfl, ?_⟩
  have hmarks : marks [.contentBlockStart info.index block, .contentBlockDelta info.index delta] =
      [.start info.index] ++ [.delta info.index] := rfl
  rw [hmarks, ← append_assoc]
  exact hstart.congr (fun i _ => ⟨fun hi => .inl hi, fun hi => hi.elim id False.elim⟩)

variable {d : Delta}

/-- If no block of text or reasoning is open, the first chunk's text is told as that of a later one. -/
theorem firstContent_eq (hl : ∀ kind : LastMessageType, kind.single = true → info.lastMessagesType ≠ kind)
    (hd : d.toolCalls = []) : firstContent d info = nextContent d info := by
  simp [firstContent, nextContent, firstBlock, nextDelta, hd, hl .text rfl, hl .thinking rfl]

/-- For the same kind of block again, the first chunk announces the block once more. -/
theorem firstContent_cases (hd : d.toolCalls = []) (info : ClaudeInfo) :
    firstContent d info = nextContent d info ∨ ∃ block,
      firstContent d info = ((nextContent d info).1,
        .contentBlockStart info.index block :: (nextContent d info).2) := by
  have hblock (kind : LastMessageType) (block : ContentBlock) (delta : BlockDelta) :
      firstBlock kind block delta info = nextDelta kind block delta info ∨ ∃ block',
        firstBlock kind block delta info = ((nextDelta kind block delta info).1,
          .contentBlockStart info.index block' :: (nextDelta kind block delta info).2) := by
    by_cases hl : info.lastMessagesType = kind
    · exact .inr ⟨block, by simp [firstBlock, nextDelta, hl]⟩
    · exact .inl (by simp [firstBlock, nextDelta, hl])
  rw [firstContent, nextContent, if_neg (not_not.mpr hd)]
  split
  · exact hblock _ _ _
  · split
    · exact hblock _ _ _
    · exact .inl rfl

theorem follows_nextDelta
    (hk : kind.single = true) (h : Follows info st ms) (hc : Closes st) (block : ContentBlock) (delta : BlockDelta) :
    Follows (nextDelta kind block delta info).1 none (ms ++ marks (nextDelta kind block delta info).2) := by
  by_cases hl : info.lastMessagesType = kind
  · have hsingle := (follows_single hk hl).mp h
    simp only [nextDelta, hl, ne_eq, not_true, if_false, nil_append]
    rw [follows_single hk rfl]
    exact ⟨rfl, hsingle.2.delta (Nat.le_refl _) rfl⟩
  · have hadv := follows_advance h hc
    have hopen := follows_opened hk hadv (stopOpenBlocksAndAdvance_none) block delta
    simp only [nextDelta, hl, ne_eq, not_false_eq_true, if_true]
    rw [append_assoc, marks_append, ← append_assoc]
    exact hopen

theorem bad_nextDelta
    (hk : kind.single = true) (h : Follows info st ms) (hc : ¬ Closes st) (block : ContentBlock) (delta : BlockDelta) :
    ∃ i, phase i (ms ++ marks (nextDelta kind block delta info).2) = .bad := by
  have hl : info.lastMessagesType ≠ kind := by
    rintro rfl
    have hnone := ((follows_single hk rfl).mp h).1
    exact hc (hnone ▸ closes_none)
  obtain ⟨i, hi⟩ := bad_stop h hc
  refine ⟨i, ?_⟩
  simp only [nextDelta, hl, ne_eq, not_false_eq_true, if_true, stopOpenBlocksAndAdvance_events]
  rw [append_assoc, marks_append, ← append_assoc]
  exact Brackets.phase_bad_append hi _

theorem follows_nextContent (h : Follows info st ms) (hd : ToolsFit st d) :
    Follows (nextContent d info).1 (follow st d) (ms ++ marks (nextContent d info).2) := by
  by_cases htools : d.toolCalls = []
  · have hfit : d.hasText → Closes st := by
      rwa [ToolsFit, if_neg (not_not.mpr htools)] at hd
    rw [nextContent, follow, if_neg (not_not.mpr htools), if_neg (not_not.mpr htools)]
    by_cases hreason : d.getReasoningContent = ""
    · by_cases htext : d.getContentString = ""
      · have hno : ¬ d.hasText := by
          rintro (hh | hh)
          · exact hh hreason
          · exact hh htext
        rw [if_neg (not_not.mpr hreason), if_neg (not_not.mpr htext), if_neg hno, marks_nil, append_nil]
        exact h
      · rw [if_neg (not_not.mpr hreason), if_pos htext, if_pos (.inr htext)]
        exact follows_nextDelta rfl h (hfit (.inr htext)) _ _
    · rw [if_pos hreason, if_pos (.inl hreason)]
      exact follows_nextDelta rfl h (hfit (.inl hreason)) _ _
  · rw [ToolsFit, if_pos htools] at hd
    rw [nextContent, follow, if_pos htools, if_pos htools]
    exact follows_toolFragments h hd

theorem bad_nextContent (h : Follows info st ms) (hd : ¬ ToolsFit st d) :
    ∃ i, phase i (ms ++ marks (nextContent d info).2) = .bad := by
  by_cases htools : d.toolCalls = []
  · rw [ToolsFit, if_neg (not_not.mpr htools), Classical.not_imp] at hd
    obtain ⟨htext, hc⟩ := hd
    rw [nextContent, if_neg (not_not.mpr htools)]
    by_cases hreason : d.getReasoningContent = ""
    · have hcontent : d.getContentString ≠ "" := htext.resolve_left (not_not.mpr hreason)
      rw [if_neg (not_not.mpr hreason), if_pos hcontent]
      exact bad_nextDelta rfl h hc _ _
    · rw [if_pos hreason]
      exact bad_nextDelta rfl h hc _ _
  · rw [ToolsFit, if_pos htools] at hd
    rw [nextContent, if_pos htools]
    exact bad_toolFragments h hd

end AiGateway.Convert
