import AiGateway.GoText
import Mathlib.Logic.Function.Basic
import Mathlib.Tactic.Common

/-! Hashes of a Redis server and the commands on them, each atomic. The time to live of a key lapses at
an arbitrary moment. -/
namespace AiGateway.Redis

open Function

structure Entry where
  hash : String → Option String
  volatile : Bool

abbrev Db (K : Type*) := K → Option Entry

variable {K : Type*} [DecidableEq K]

def noFields : String → Option String := fun _ => none

def written (data : List (String × String)) (hash : String → Option String) (field : String) : Option String :=
  match data.lookup field with
  | some text => some text
  | none => hash field

variable (db : Db K)

def put (key : K) (hash : String → Option String) (volatile : Bool) : Db K :=
  Function.update db key (some ⟨hash, volatile⟩)

def hset (key : K) (data : List (String × String)) : Db K :=
  match db key with
  | none => put db key (written data noFields) false
  | some e => put db key (written data e.hash) e.volatile

/-- The text of a number as `HINCRBY` accepts it: signed 64 bits, no plus sign, no zero in front. -/
def integer (text : String) : Option Int :=
  match GoText.parseInt text with
  | none => none
  | some n => if toString n = text then some n else none

/-- The number of a counter. A field that is not there counts as zero. -/
def counter : Option String → Option Int
  | none => some 0
  | some text => integer text

def incremented (text : Option String) (delta : Int) : Option String :=
  match counter text with
  | none => none
  | some n => if -2^63 ≤ n+delta ∧ n+delta < 2^63 then some (toString (n+delta)) else none

def hincrby (key : K) (field : String) (delta : Int) : Db K × Bool :=
  match incremented ((db key).bind (fun e => e.hash field)) delta with
  | none => (db, true)
  | some text => (hset db key [(field, text)], false)

/-- `EXPIRE key seconds`, for a positive time. -/
def expire (key : K) : Db K :=
  match db key with
  | none => db
  | some e => put db key e.hash true

/-- The reply to `TTL key`. `seconds` is the rounded time that the key has left. -/
def ttl (key : K) (seconds : ℕ) : Int :=
  match db key with
  | none => -2
  | some e => if e.volatile then seconds else -1

def del (key : K) : Db K := Function.update db key none

def lapse (key : K) : Db K :=
  match db key with
  | none => db
  | some e => if e.volatile then del db key else db

/-! What a hash has: `fields key` are the fields that it is to have. -/

def Whole (fields : K → List String) (db : Db K) : Prop :=
  ∀ key e, db key = some e → ∀ f ∈ fields key, (e.hash f).isSome

variable {fields : K → List String} {db : Db K}

variable {hash : String → Option String} {data : List (String × String)} {key : K}

theorem Whole.put (h : Whole fields db) (hhash : ∀ f ∈ fields key, (hash f).isSome) (volatile : Bool) :
    Whole fields (put db key hash volatile) := by
  intro key' e he
  by_cases hk : key' = key
  · subst hk
    rw [Redis.put, update_self, Option.some.injEq] at he
    subst he
    exact hhash
  · rw [Redis.put, update_of_ne hk] at he
    exact h key' e he

theorem Whole.del (h : Whole fields db) (key : K) : Whole fields (del db key) := by
  intro key' e he
  by_cases hk : key' = key
  · subst hk
    rw [Redis.del, update_self] at he
    cases he
  · rw [Redis.del, update_of_ne hk] at he
    exact h key' e he

theorem Whole.lapse (h : Whole fields db) (key : K) : Whole fields (lapse db key) := by
  rw [Redis.lapse]
  cases hkey : db key with
  | none => exact h
  | some e =>
    by_cases hv : e.volatile = true
    · simp only [hv, if_true]
      exact h.del key
    · simp only [hv]
      exact h

theorem Whole.expire (h : Whole fields db) (key : K) : Whole fields (expire db key) := by
  rw [Redis.expire]
  cases hkey : db key with
  | none => exact h
  | some e => exact h.put (h key e hkey) true

theorem isSome_written_of_hash {f : String} (h : (hash f).isSome) : (written data hash f).isSome := by
  rw [written]
  cases data.lookup f with
  | none => exact h
  | some => rfl

theorem isSome_written_of_data {f : String} (h : f ∈ data.map Prod.fst) : (written data hash f).isSome := by
  rw [written]
  cases hl : data.lookup f with
  | some => rfl
  | none =>
    obtain ⟨p, hp, rfl⟩ := List.mem_map.mp h
    exact absurd (List.lookup_eq_none_iff.mp hl p hp) (by simp)

theorem Whole.hset_all (h : Whole fields db) (hdata : ∀ f ∈ fields key, f ∈ data.map Prod.fst) :
    Whole fields (hset db key data) := by
  rw [Redis.hset]
  cases hkey : db key with
  | none => exact h.put (fun f hf => isSome_written_of_data (hdata f hf)) false
  | some e => exact h.put (fun f hf => isSome_written_of_data (hdata f hf)) e.volatile

theorem Whole.hset_present (h : Whole fields db) (hkey : (db key).isSome) (data : List (String × String)) :
    Whole fields (hset db key data) := by
  obtain ⟨e, he⟩ := Option.isSome_iff_exists.mp hkey
  rw [Redis.hset, he]
  exact h.put (fun f hf => isSome_written_of_hash (h key e he f hf)) e.volatile

theorem Whole.hincrby_present (h : Whole fields db) (hkey : (db key).isSome) (field : String) (delta : Int) :
    Whole fields (hincrby db key field delta).1 := by
  rw [hincrby]
  cases incremented ((db key).bind (fun e => e.hash field)) delta with
  | none => exact h
  | some => exact h.hset_present hkey _

end AiGateway.Redis
