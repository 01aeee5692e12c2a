import Mathlib.Data.Rat.Defs
import Mathlib.Tactic.Common

/-! Loosely typed values: what the decoder leaves in an `interface{}`, and maps by name. A map is the
list of its entries in the order the code ranges over them. -/
namespace AiGateway

inductive Json
  | null
  | bool (b : Bool)
  | number (value : ℚ)
  | string (s : String)
  | array (items : List Json)
  | object (fields : List (String × Json))

namespace Json

def string? : Json → Option String
  | .string s => some s
  | _ => none

def bool? : Json → Option Bool
  | .bool b => some b
  | _ => none

def object? : Json → Option (List (String × Json))
  | .object fields => some fields
  | _ => none

mutual

def size : Json → ℕ
  | .null | .bool _ | .number _ => 1
  | .string s => s.length+1
  | .array items => sizeItems items+1
  | .object fields => sizeFields fields+1

def sizeItems : List Json → ℕ
  | [] => 0
  | v :: vs => v.size+sizeItems vs

def sizeFields : List (String × Json) → ℕ
  | [] => 0
  | e :: es => e.2.size+sizeFields es

end

theorem size_le_sizeFields {fields : List (String × Json)} {key : String} {v : Json}
    (h : fields.lookup key = some v) : v.size ≤ sizeFields fields := by
  induction fields with
  | nil => simp at h
  | cons e es ih =>
    obtain ⟨k, w⟩ := e
    rw [sizeFields]
    rw [List.lookup_cons] at h
    split at h
    · cases h
      exact Nat.le_add_right _ _
    · exact (ih h).trans (Nat.le_add_left _ _)

end Json

namespace GoMap

variable {V : Type*}

def delete (m : List (String × V)) (key : String) : List (String × V) :=
  m.filter (fun e => e.1 ≠ key)

def set (m : List (String × V)) (key : String) (v : V) : List (String × V) :=
  (key, v) :: delete m key

end GoMap

end AiGateway
