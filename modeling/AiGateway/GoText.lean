import Mathlib.Algebra.Order.Ring.Int
import Mathlib.Data.List.DropRight
import Mathlib.Data.List.Infix

/-! The string functions of the Go library that the modelled code calls. -/
namespace AiGateway.GoText

open List

def isSpace (c : Char) : Bool :=
  (c.toNat ∈ [0x09, 0x0A, 0x0B, 0x0C, 0x0D, 0x20, 0x85, 0xA0, 0x1680, 0x2028, 0x2029, 0x202F,
    0x205F, 0x3000]) || (0x2000 ≤ c.toNat && c.toNat ≤ 0x200A)

def trimSpace (s : String) : String :=
  String.ofList (((s.toList.dropWhile isSpace).reverse.dropWhile isSpace).reverse)

theorem dropWhile_rdropWhile_dropWhile (p : Char → Bool) (l : List Char) :
    ((l.dropWhile p).rdropWhile p).dropWhile p = (l.dropWhile p).rdropWhile p := by
  rw [dropWhile_eq_self_iff]
  intro hpos
  have hpre : (l.dropWhile p).rdropWhile p <+: l.dropWhile p := rdropWhile_prefix p _
  have hne : l.dropWhile p ≠ [] := by
    intro hnil
    rw [hnil] at hpos
    simp at hpos
  rw [hpre.getElem hpos, ← head_eq_getElem hne]
  exact Bool.eq_false_iff.mp (head_dropWhile_not p hne)

@[simp] theorem trimSpace_trimSpace (s : String) : trimSpace (trimSpace s) = trimSpace s := by
  have htrim (t : String) : trimSpace t = String.ofList ((t.toList.dropWhile isSpace).rdropWhile isSpace) := rfl
  rw [htrim, htrim, String.toList_ofList, dropWhile_rdropWhile_dropWhile, rdropWhile_idempotent]

def contains (s substr : String) : Bool :=
  decide (substr.toList <:+: s.toList)

def parseDigits : List Char → ℕ → Option ℕ
  | [], n => some n
  | c :: cs, n => if c.isDigit then parseDigits cs (10*n+(c.toNat - '0'.toNat)) else none

def int64 (n : Int) : Option Int := if -2^63 ≤ n ∧ n < 2^63 then some n else none

def parseInt (s : String) : Option Int :=
  match s.toList with
  | [] | ['-'] | ['+'] => none
  | '-' :: cs => (parseDigits cs 0).bind (fun n => int64 (-n))
  | '+' :: cs => (parseDigits cs 0).bind (fun n => int64 n)
  | cs => (parseDigits cs 0).bind (fun n => int64 n)

/-- The number that `strconv.Atoi(s)` returns beside its error: zero for a text that is no number, and
the nearest one for a number out of range. -/
def atoi (s : String) : Int :=
  let nearest (n : Int) : Int := max (-2^63) (min n (2^63-1))
  match s.toList with
  | [] | ['-'] | ['+'] => 0
  | '-' :: cs => ((parseDigits cs 0).map (fun n => nearest (-n))).getD 0
  | '+' :: cs => ((parseDigits cs 0).map (fun n => nearest n)).getD 0
  | cs => ((parseDigits cs 0).map (fun n => nearest n)).getD 0

/-- The pieces between the occurrences of `sep`; `skip` characters of the last one found are still
to be passed over, and `piece` is the reversed beginning of the current piece. -/
def splitChars (sep : List Char) : List Char → (skip : ℕ) → (piece : List Char) → List (List Char)
  | [], _, piece => [piece.reverse]
  | _ :: cs, skip+1, piece => splitChars sep cs skip piece
  | c :: cs, 0, piece =>
    if sep.isPrefixOf (c :: cs) then piece.reverse :: splitChars sep cs (sep.length-1) []
    else splitChars sep cs 0 (c :: piece)

/-- `strings.Split(s, sep)` for a separator that is not empty. -/
def split (s sep : String) : List String :=
  (splitChars sep.toList s.toList 0 []).map String.ofList

def trim (s : String) (c : Char) : String :=
  String.ofList (((s.toList.dropWhile (· = c)).reverse.dropWhile (· = c)).reverse)

def hasPrefix (s p : String) : Bool := p.toList.isPrefixOf s.toList

def hasSuffix (s p : String) : Bool := p.toList.isSuffixOf s.toList

def trimPrefix (s p : String) : String :=
  if hasPrefix s p then String.ofList (s.toList.drop p.toList.length) else s

def trimSuffix (s p : String) : String :=
  if hasSuffix s p then String.ofList (s.toList.take (s.toList.length-p.toList.length)) else s

def replaceChars (old new : List Char) : List Char → List Char
  | [] => []
  | c :: cs => if old.isPrefixOf (c :: cs) then new ++ (c :: cs).drop old.length else c :: replaceChars old new cs

/-- `strings.Replace(s, old, new, 1)` for an `old` that is not empty. -/
def replaceFirst (s old new : String) : String :=
  String.ofList (replaceChars old.toList new.toList s.toList)

end AiGateway.GoText
