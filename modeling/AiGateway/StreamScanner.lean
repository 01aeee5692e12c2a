import AiGateway.GoText

/-! The scanner of a relayed event stream: which lines of the upstream reach the handler. -/
namespace AiGateway.StreamScanner

open GoText List

def lineData (line : String) : String := trimSpace (.ofList (line.toList.drop 5))

/-- What the loop sends to `dataChan` when nothing stops it from outside. -/
def scan : List String → List String
  | [] => []
  | line :: lines =>
    if line.utf8ByteSize < 6 then scan lines
    else if !hasPrefix line "data:" && !hasPrefix line "[DONE]" then scan lines
    else if lineData line = "" then scan lines
    else if !hasPrefix (lineData line) "[DONE]" then lineData line :: scan lines
    else []

def isTerminator (line : String) : Bool :=
  if hasPrefix line "data:" then lineData line = "[DONE]" else trimSpace line = "[DONE]"

/-- The contents of the data lines before the first terminator. -/
def payloads (lines : List String) : List String :=
  (((lines.takeWhile (!isTerminator ·)).filter (hasPrefix · "data:")).map lineData).filter (· ≠ "")

theorem exists_eq_append {s p : String} (h : hasPrefix s p = true) : ∃ t, s = p ++ .ofList t := by
  obtain ⟨t, ht⟩ := isPrefixOf_iff_prefix.mp h
  exact ⟨t, String.toList_inj.mp (by simp [ht])⟩

variable {line : String} {lines : List String}

theorem scan_data (h : hasPrefix line "data:" = true) : scan (line :: lines) =
    if lineData line = "" then scan lines
    else if !hasPrefix (lineData line) "[DONE]" then lineData line :: scan lines else [] := by
  rw [scan]
  split
  · next hsize =>
    obtain ⟨t, rfl⟩ := exists_eq_append h
    have hrest : (String.ofList t).utf8ByteSize = 0 := by
      rw [String.utf8ByteSize_append] at hsize
      change 5+_ < 6 at hsize
      omega
    rw [String.utf8ByteSize_eq_zero_iff.mp hrest, if_pos (by decide)]
  · simp [h]

/-- Behind `[DONE` there is the bracket, and this is taken for a payload. -/
theorem scan_done (h : hasPrefix line "[DONE]" = true) : scan [line] ≠ [] ∧ payloads [line] = [] := by
  obtain ⟨t, rfl⟩ := exists_eq_append h
  have hdata : (lineData ("[DONE]" ++ .ofList t)).toList.head? = some ']' := by
    simp [lineData, trimSpace, dropWhile_append, show isSpace ']' = false by decide, apply_ite]
  obtain ⟨cs, hcs⟩ := head?_eq_some_iff.mp hdata
  have hprefix : hasPrefix ("[DONE]" ++ .ofList t) "data:" = false := by
    rw [hasPrefix, String.toList_append]
    rfl
  constructor
  · simp [scan, hcs, hasPrefix, ← String.toList_inj]
    exact Nat.le_add_right 6 _
  · simp [payloads, takeWhile_cons, hprefix, apply_ite]

def Contentless (line : String) : Prop :=
  hasPrefix line "data:" = true → lineData line = "" ∨ lineData line = "[DONE]"

theorem payloads_eq_nil (h : ∀ line ∈ lines, Contentless line) : payloads lines = [] := by
  simp only [payloads, filter_eq_nil_iff, mem_map, mem_filter]
  rintro _ ⟨line, ⟨hline, hdata⟩, rfl⟩
  have hnot := mem_takeWhile_imp hline
  rcases h line ((takeWhile_sublist _).mem hline) hdata with hempty | hdone
  · simp [hempty]
  · simp [isTerminator, hdata, hdone] at hnot

/-- Whatever the order of an upstream's lines, they are read as they should be exactly if none begins
with `[DONE]`, no content but the terminator does, and none is a `[DONE]` behind spaces, which is
skipped, unless no line has a content. -/
theorem payloads_exact_iff (sent : String → Prop) :
    (∀ lines, (∀ line ∈ lines, sent line) → scan lines = payloads lines) ↔
      ∀ line, sent line → hasPrefix line "[DONE]" = false ∧
        (hasPrefix line "data:" = true → hasPrefix (lineData line) "[DONE]" = true → lineData line = "[DONE]") ∧
        (hasPrefix line "data:" = false → trimSpace line = "[DONE]" → ∀ other, sent other →
          Contentless other) := by
  constructor
  · intro hexact line hline
    have hone {line : String} (hline : sent line) :
        scan [line] = payloads [line] := hexact [line] (by simpa using hline)
    have hdone : hasPrefix line "[DONE]" = false := by
      by_contra hdone
      have hscan := scan_done (by simpa using hdone)
      exact hscan.1 ((hone hline).trans hscan.2)
    refine ⟨hdone, ?_, ?_⟩
    · intro hdata hprefix
      by_contra hne
      have hsome : lineData line ≠ "" := by
        intro h
        simp [h, hasPrefix] at hprefix
      have hread := hone hline
      simp [scan_data, payloads, isTerminator, hdata, hprefix, hne, hsome] at hread
    · -- the terminator is skipped, and the other line is read
      intro hplain hterminator other hother hdata
      have hread := hexact [line, other] (by simp [hline, hother])
      have hskip : scan [line, other] = scan [other] := by simp [scan, hplain, hdone]
      have hnone : payloads [line, other] = [] := by simp [payloads, isTerminator, hplain, hterminator]
      rw [hskip, hnone, hone hother] at hread
      by_contra hcontent
      rw [not_or] at hcontent
      simp [payloads, isTerminator, hdata, hcontent] at hread
  · intro hplain lines hlines
    induction lines with
    | nil => rfl
    | cons line lines ih =>
      have hrest := ih (fun l hl => hlines l (mem_cons_of_mem line hl))
      obtain ⟨hdone, hcontent, hskipped⟩ := hplain line (hlines line mem_cons_self)
      cases hdata : hasPrefix line "data:" with
      | false =>
        have hskip : scan (line :: lines) = payloads lines := by simp [scan, hdata, hdone, hrest]
        by_cases hterminator : trimSpace line = "[DONE]"
        · have hnone : payloads (line :: lines) = [] := by simp [payloads, isTerminator, hdata, hterminator]
          rw [hskip, hnone]
          exact payloads_eq_nil (fun l hl => hskipped hdata hterminator l (hlines l (mem_cons_of_mem line hl)))
        · rw [hskip]
          simp [payloads, isTerminator, hdata, hterminator]
      | true =>
        rw [scan_data hdata, hrest]
        by_cases hterminator : lineData line = "[DONE]"
        · have hself : hasPrefix "[DONE]" "[DONE]" = true := by decide
          simp [payloads, isTerminator, hdata, hterminator, hself]
        · simp [payloads, isTerminator, hdata, hterminator, mt (hcontent hdata), filter_cons]

theorem bare_terminator_forwarded : scan ["data: a", "[DONE]", "data: b"] = ["a", "]", "b"] ∧
    payloads ["data: a", "[DONE]", "data: b"] = ["a"] := by
  decide

end AiGateway.StreamScanner
