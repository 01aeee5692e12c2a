import AiGateway.GoJson
import Mathlib.Data.Finset.Max

/-! The parameter override of the old form: each key is set in the body, by the path that
`escapeSjsonLiteralKey` makes of it. -/
namespace AiGateway.LegacyOverride

open List

abbrev Fields := String → Option Json

def complexChars : List Char := ['|', '#', '@', '*', '?']

def consHead (c : Char) : List (List Char) → List (List Char)
  | [] => [[c]]
  | key :: keys => (c :: key) :: keys

/-- The keys of a path, or `none` for one that is more than keys. A colon in front of a key is not part of it. -/
def parsePath : Bool → List Char → Option (List (List Char))
  | _, [] => some [[]]
  | start, c :: cs =>
    if start ∧ c = ':' then parsePath false cs
    else if c = '\\' then
      match cs with
      | [] => some [[]]
      | d :: ds => (parsePath false ds).map (consHead d)
    else if c = '.' then (parsePath true cs).map ([] :: ·)
    else if c ∈ complexChars then none
    else (parsePath false cs).map (consHead c)

/-- What is known of `sjson.SetBytes`. -/
structure Sjson where
  setBytes : Fields → String → Json → Except String Fields
  setBytes_empty : ∀ fields value, setBytes fields "" value = .error "path cannot be empty"
  setBytes_key : ∀ fields path key value, path ≠ "" → parsePath true path.toList = some [key] →
    setBytes fields path value = .ok (Function.update fields (String.ofList key) (some value))
  -- Such a path replaces values that are there, and adds no member.
  setBytes_complex : ∀ fields path value, path ≠ "" → parsePath true path.toList = none →
    ∃ out, setBytes fields path value = .ok out ∧ ∀ key, fields key = none → out key = none

def escapedChars : List Char := ['.', '*', '?', '\\']

def escapeChar (c : Char) : List Char := if c ∈ escapedChars then ['\\', c] else [c]

def escapeSjsonLiteralKey (key : String) : String :=
  if key.toList.any (· ∈ escapedChars) then String.ofList (key.toList.flatMap escapeChar) else key

variable (lib : Sjson)

/-- The entries come in the order in which the loop ranges over the map. -/
def applyOperationsLegacy (paramOverride : List (String × Json)) (fields : Fields) :
    Except String Fields :=
  paramOverride.foldlM (fun result e => lib.setBytes result (escapeSjsonLiteralKey e.1) e.2) fields

structure ParamOverride where
  entries : List (String × Json)
  nodup : (entries.map Prod.fst).Nodup

/-- In every order and every object each key is assigned its value, and the other members stay. -/
def Literal (m : ParamOverride) : Prop :=
  ∀ fields order, order.Perm m.entries → ∃ out, applyOperationsLegacy lib order fields = .ok out ∧
    (∀ e ∈ m.entries, out e.1 = some e.2) ∧ ∀ key, (∀ e ∈ m.entries, e.1 ≠ key) → out key = fields key

/-- One of the special characters is not escaped: `|`, `#` or `@`. -/
def unescaped (cs : List Char) : Bool := cs.any (fun c => c ∈ complexChars ∧ c ∉ escapedChars)

def Plain (key : String) : Prop := key ≠ "" ∧ unescaped key.toList = false ∧ key.toList.head? ≠ some ':'

instance (key : String) : Decidable (Plain key) := inferInstanceAs (Decidable (_ ∧ _ ∧ _))

def dropColon (cs : List Char) : List Char := if cs.head? = some ':' then cs.tail else cs

theorem parsePath_cons (start : Bool) {c : Char} (hc : c ≠ '\\') (cs : List Char) :
    parsePath start (c :: cs) = if start ∧ c = ':' then parsePath false cs
      else if c = '.' then (parsePath true cs).map ([] :: ·)
      else if c ∈ complexChars then none else (parsePath false cs).map (consHead c) := by
  rw [parsePath.eq_def]
  simp only [hc, if_false]

/-- The only key of the path is the key itself, up to a colon in front of it. -/
theorem parsePath_escaped (start : Bool) (cs : List Char) : parsePath start (cs.flatMap escapeChar) =
    if unescaped cs then none else some [if start then dropColon cs else cs] := by
  induction cs generalizing start with
  | nil => cases start <;> rfl
  | cons c cs ih =>
    rw [flatMap_cons, escapeChar, dropColon, head?_cons, unescaped, any_cons]
    change _ = if decide (c ∈ complexChars ∧ c ∉ escapedChars) || unescaped cs then _ else _
    by_cases hesc : c ∈ escapedChars
    · have hcolon : some c ≠ some ':' := fun h => absurd (Option.some.inj h ▸ hesc) (by decide)
      rw [if_pos hesc, cons_append, singleton_append, parsePath, ih, if_neg hcolon, decide_eq_false (fun h => h.2 hesc),
        Bool.false_or]
      cases start <;> cases unescaped cs <;> rfl
    · have hback : c ≠ '\\' := fun h => hesc (h ▸ by decide)
      have hdot : c ≠ '.' := fun h => hesc (h ▸ by decide)
      rw [if_neg hesc, singleton_append, parsePath_cons start hback, if_neg hdot, ih]
      by_cases hc : c = ':'
      · subst hc
        cases start <;> cases unescaped cs <;> rfl
      · by_cases hin : c ∈ complexChars <;> cases start <;> cases unescaped cs <;> simp [hc, hin, hesc, consHead]

theorem toList_escape (key : String) : (escapeSjsonLiteralKey key).toList = key.toList.flatMap escapeChar := by
  rw [escapeSjsonLiteralKey]
  split
  · exact String.toList_ofList
  · next hnone =>
    have hsame : ∀ c ∈ key.toList, escapeChar c = [c] := by
      intro c hc
      exact if_neg (fun hin => hnone (any_eq_true.mpr ⟨c, hc, decide_eq_true hin⟩))
    rw [flatMap_congr hsame, flatMap_singleton']

theorem escape_ne_empty {key : String} (hne : key ≠ "") : escapeSjsonLiteralKey key ≠ "" := by
  rw [ne_eq, ← String.toList_eq_nil_iff, toList_escape, flatMap_eq_nil_iff]
  intro hnil
  obtain ⟨c, hc⟩ := exists_mem_of_ne_nil _ (mt String.toList_eq_nil_iff.mp hne)
  have hchar := hnil c hc
  rw [escapeChar] at hchar
  split at hchar <;> cases hchar

theorem setBytes_escape (fields : Fields) {key : String} (hne : key ≠ "")
    (hchars : unescaped key.toList = false) (value : Json) : lib.setBytes fields (escapeSjsonLiteralKey key) value =
      .ok (Function.update fields (String.ofList (dropColon key.toList)) (some value)) := by
  apply lib.setBytes_key _ _ _ _ (escape_ne_empty hne)
  rw [toList_escape, parsePath_escaped, hchars]
  rfl

theorem setBytes_unescaped (fields : Fields) {key : String} (hne : key ≠ "")
    (hchars : unescaped key.toList = true) (value : Json) :
    ∃ out, lib.setBytes fields (escapeSjsonLiteralKey key) value = .ok out ∧ ∀ key, fields key = none →
      out key = none := by
  apply lib.setBytes_complex _ _ _ (escape_ne_empty hne)
  rw [toList_escape, parsePath_escaped, hchars, if_pos rfl]

theorem legacy_of_plain (fields : Fields) (es : List (String × Json)) (hnodup : (es.map Prod.fst).Nodup)
    (hplain : ∀ e ∈ es, Plain e.1) : ∃ out, applyOperationsLegacy lib es fields = .ok out ∧
      (∀ e ∈ es, out e.1 = some e.2) ∧ ∀ key, (∀ e ∈ es, e.1 ≠ key) → out key = fields key := by
  induction es generalizing fields with
  | nil => exact ⟨fields, rfl, nofun, fun _ _ => rfl⟩
  | cons e es ih =>
    obtain ⟨hnew, hnodup⟩ := nodup_cons.mp hnodup
    obtain ⟨⟨hne, hchars, hhead⟩, hplain⟩ := forall_mem_cons.mp hplain
    obtain ⟨out, hout, hset, hkept⟩ := ih (Function.update fields e.1 (some e.2)) hnodup hplain
    refine ⟨out, ?_, ?_, ?_⟩
    · rw [applyOperationsLegacy, foldlM_cons, setBytes_escape lib fields hne hchars, dropColon, if_neg hhead,
        String.ofList_toList]
      exact hout
    · refine forall_mem_cons.mpr ⟨?_, hset⟩
      rw [hkept e.1 (fun d hd h => hnew (mem_map.mpr ⟨d, hd, h⟩)), Function.update_self]
    · intro key hkey
      obtain ⟨hne, hkey⟩ := forall_mem_cons.mp hkey
      rw [hkept key hkey, Function.update_of_ne hne.symm]

theorem legacy_misses {lib : Sjson} {k : String} (hk : ¬ Plain k) {es : List (String × Json)} {fields out : Fields}
    (hes : ∀ e ∈ es, ¬ Plain e.1 → e.1.length ≤ k.length) (hfields : fields k = none)
    (hout : applyOperationsLegacy lib es fields = .ok out) : out k = none := by
  induction es generalizing fields with
  | nil =>
    cases hout
    exact hfields
  | cons e es ih =>
    obtain ⟨hlen, hes⟩ := forall_mem_cons.mp hes
    rw [applyOperationsLegacy, foldlM_cons] at hout
    by_cases hempty : e.1 = ""
    · have hpath : escapeSjsonLiteralKey "" = "" := rfl
      rw [hempty, hpath, lib.setBytes_empty] at hout
      cases hout
    by_cases hchars : unescaped e.1.toList = true
    · obtain ⟨next, hnext, hnone⟩ := setBytes_unescaped lib fields hempty hchars e.2
      rw [hnext] at hout
      exact ih hes (hnone k hfields) hout
    · rw [setBytes_escape lib fields hempty (eq_false_of_ne_true hchars)] at hout
      refine ih hes ?_ hout
      rw [Function.update_of_ne, hfields]
      rintro rfl
      -- What is set is the key itself, or it is shorter by the colon.
      by_cases hhead : e.1.toList.head? = some ':'
      · have hshort := hlen (fun h => h.2.2 hhead)
        obtain ⟨cs, hcs⟩ := head?_eq_some_iff.mp hhead
        rw [dropColon, if_pos hhead, String.length_ofList, ← String.length_toList, hcs] at hshort
        exact Nat.not_succ_le_self _ hshort
      · rw [dropColon, if_neg hhead, String.ofList_toList] at hk
        exact hk ⟨hempty, eq_false_of_ne_true hchars, hhead⟩

/-- The override is a literal assignment exactly if no key is empty, has one of the characters that are not
escaped, or begins with a colon. -/
theorem legacy_literal_iff (lib : Sjson) (m : ParamOverride) : Literal lib m ↔ ∀ e ∈ m.entries, Plain e.1 := by
  constructor
  · intro h
    by_contra hbad
    push Not at hbad
    obtain ⟨e, he, hplain⟩ := hbad
    -- The longest such key is not set for another one.
    let bad := (m.entries.map Prod.fst).toFinset.filter (fun key => ¬ Plain key)
    have hmem (e : String × Json) (he : e ∈ m.entries) (hplain : ¬ Plain e.1) : e.1 ∈ bad :=
      Finset.mem_filter.mpr ⟨mem_toFinset.mpr (mem_map_of_mem he), hplain⟩
    obtain ⟨k, hk, hmax⟩ := bad.exists_max_image String.length ⟨e.1, hmem e he hplain⟩
    obtain ⟨hkey, hplain⟩ := Finset.mem_filter.mp hk
    obtain ⟨e, he, rfl⟩ := mem_map.mp (mem_toFinset.mp hkey)
    obtain ⟨out, hout, hset, _⟩ := h (fun _ => none) m.entries (Perm.refl _)
    have hmiss := legacy_misses hplain (fun d hd hd' => hmax d.1 (hmem d hd hd')) rfl hout
    rw [hset e he] at hmiss
    cases hmiss
  · intro hplain fields order hperm
    obtain ⟨out, hout, hset, hkept⟩ := legacy_of_plain lib fields order ((hperm.map _).nodup_iff.mpr m.nodup)
      (fun e he => hplain e (hperm.mem_iff.mp he))
    exact ⟨out, hout, fun e he => hset e (hperm.mem_iff.mpr he),
      fun key hkey => hkept key (fun e he => hkey e (hperm.mem_iff.mp he))⟩

def keysOnly : Sjson where
  setBytes fields path value :=
    if path = "" then .error "path cannot be empty"
    else match parsePath true path.toList with
      | some [key] => .ok (Function.update fields (String.ofList key) (some value))
      | _ => .ok fields
  setBytes_empty _ _ := rfl
  setBytes_key fields path key value hne hpath := by rw [if_neg hne, hpath]
  setBytes_complex fields path value hne hpath := ⟨fields, by rw [if_neg hne, hpath], fun _ h => h⟩

/-- In an empty object: a bar makes the key a path that is not found, a colon is cut off, and the empty
key is refused. -/
theorem legacy_keys_lost :
    applyOperationsLegacy keysOnly [("a|b", .null)] (fun _ => none) = .ok (fun _ => none) ∧
      applyOperationsLegacy keysOnly [(":a", .null)] (fun _ => none) =
        .ok (Function.update (fun _ => none) "a" (some .null)) ∧
      applyOperationsLegacy keysOnly [("", .null)] (fun _ => none) = .error "path cannot be empty" :=
  ⟨rfl, rfl, rfl⟩

end AiGateway.LegacyOverride
