import AiGateway.Interleave
import Mathlib.Logic.Function.Basic

/-! The lock of an order: one mutex for each trade number in a map, with a count of its users that is
changed under `createLock`. -/
namespace AiGateway.OrderLock

open Interleave (Machine System)

structure RefCountedMutex where
  locked : Bool
  refCount : Int
deriving DecidableEq

/-- `createLock`, the map, the mutexes by their addresses, and the next free address. -/
structure Memory where
  createLock : Bool
  orderLocks : String → Option ℕ
  heap : ℕ → RefCountedMutex
  free : ℕ

def Memory.initial : Memory := ⟨false, fun _ => none, fun _ => ⟨false, 0⟩, 0⟩

/-- The next step of a thread that locks an order and unlocks it later. `r` is the mutex
that `LockOrder` has found or made, `found` the one that `UnlockOrder` has. -/
inductive Pc
  -- `LockOrder`
  | lockCreate (tradeNo : String)
  | load (tradeNo : String)
  | store (tradeNo : String)
  | increment (tradeNo : String) (r : ℕ)
  | unlockCreate (tradeNo : String) (r : ℕ)
  | lockMutex (tradeNo : String) (r : ℕ)
  -- `LockOrder` has returned.
  | locked (tradeNo : String) (r : ℕ)
  -- `UnlockOrder`
  | find (tradeNo : String) (r : ℕ)
  | unlockMutex (tradeNo : String) (r found : ℕ)
  | relockCreate (tradeNo : String) (r : ℕ)
  | decrement (tradeNo : String) (r : ℕ)
  | check (tradeNo : String) (r : ℕ)
  | delete (tradeNo : String) (r : ℕ)
  | leave (tradeNo : String)
  | returned (tradeNo : String)
deriving DecidableEq

def setLocked (locked : Bool) (x : RefCountedMutex) : RefCountedMutex := { x with locked := locked }

def addReference (n : Int) (x : RefCountedMutex) : RefCountedMutex := { x with refCount := x.refCount+n }

def Memory.modify (m : Memory) (r : ℕ) (f : RefCountedMutex → RefCountedMutex) : Memory :=
  { m with heap := Function.update m.heap r (f (m.heap r)) }

def Memory.store (m : Memory) (t : String) : Memory where
  createLock := m.createLock
  orderLocks := Function.update m.orderLocks t (some m.free)
  heap := Function.update m.heap m.free ⟨false, 0⟩
  free := m.free+1

def next (pc : Pc) (m : Memory) (_ : Unit) : Memory × Pc :=
  match pc with
  | .lockCreate t => if m.createLock then (m, .lockCreate t) else ({ m with createLock := true }, .load t)
  | .load t =>
    match m.orderLocks t with
    | some r => (m, .increment t r)
    | none => (m, .store t)
  | .store t => (m.store t, .increment t m.free)
  | .increment t r => (m.modify r (addReference 1), .unlockCreate t r)
  | .unlockCreate t r => ({ m with createLock := false }, .lockMutex t r)
  | .lockMutex t r => if (m.heap r).locked then (m, .lockMutex t r) else (m.modify r (setLocked true), .locked t r)
  | .locked t r => (m, .find t r)
  | .find t r =>
    match m.orderLocks t with
    | some found => (m, .unlockMutex t r found)
    | none => (m, .returned t)
  | .unlockMutex t _ found => (m.modify found (setLocked false), .relockCreate t found)
  | .relockCreate t r => if m.createLock then (m, .relockCreate t r) else
      ({ m with createLock := true }, .decrement t r)
  | .decrement t r => (m.modify r (addReference (-1)), .check t r)
  | .check t r => if (m.heap r).refCount = 0 then (m, .delete t r) else (m, .leave t)
  | .delete t _ => ({ m with orderLocks := Function.update m.orderLocks t none }, .leave t)
  | .leave t => ({ m with createLock := false }, .returned t)
  | .returned t => (m, .returned t)

def machine : Machine Memory Pc String Unit Empty where
  start t _ := .lockCreate t
  next := next
  env _ e := nomatch e

abbrev Action := Interleave.Action String Unit Empty

def initial : System Memory Pc := ⟨.initial, []⟩

end AiGateway.OrderLock
