import AiGateway.Run
import AiGateway.Table
import Mathlib.Algebra.BigOperators.Group.List.Basic

/-! Batched accounting: deltas are collected in stores, and `batchUpdate` swaps the stores out and
writes them. A step is one section under a lock, or one database write. -/
namespace AiGateway

structure User where
  id : Int
  quota : Int := 0
  usedQuota : Int := 0
  requestCount : Int := 0
  email : String := ""
  stripeCustomer : String := ""
  affCount : Int := 0
  affQuota : Int := 0
  affHistoryQuota : Int := 0
deriving DecidableEq

abbrev Users := Table User.id

/-- Amounts collected under keys: a key that is not there counts as zero. -/
abbrev Tally (K : Type*) := Table (Prod.fst : K × Int → K)

namespace Tally
open Table

variable {K : Type*} [DecidableEq K]

def get (t : Tally K) (k : K) : Int := ((t.find k).map Prod.snd).getD 0

def add (t : Tally K) (k : K) (n : Int) : Tally K :=
  match t.find k with
  | none => t.insert (k, n)
  | some (_, old) => t.save (k, old+n)

@[simp] theorem get_empty (k : K) : get (.empty : Tally K) k = 0 := rfl

theorem get_of_rows_nil {t : Tally K} (h : t.rows = []) (k : K) : t.get k = 0 := by
  simp [get, find, h]

theorem get_add (t : Tally K) (k : K) (n : Int) (k' : K) : (t.add k n).get k' = t.get k'+if k' = k then n else 0 := by
  unfold add
  split
  · next h =>
    by_cases hk : k' = k
    · subst hk
      rw [get, find_insert _ _ _ h, if_pos rfl, if_pos rfl, get, h]
      simp
    · rw [get, find_insert_of_ne _ hk, if_neg hk, add_zero]
      rfl
  · next k₀ old h =>
    by_cases hk : k' = k
    · subst hk
      rw [get, find_save_of_key _ rfl h, if_pos rfl, get, h]
      rfl
    · rw [get, find_save_of_ne _ hk, if_neg hk, add_zero]
      rfl

theorem get_delete (t : Tally K) (k k' : K) : get (t.delete k) k' = if k' = k then 0 else t.get k' := by
  rw [get, find_delete]
  split <;> rfl

end Tally

namespace Batch

inductive BatchType
  | userQuota | tokenQuota | usedQuota | channelUsedQuota | requestCount
deriving DecidableEq

def BatchType.all : List BatchType := [.userQuota, .tokenQuota, .usedQuota, .channelUsedQuota, .requestCount]

theorem BatchType.mem_all (t : BatchType) : t ∈ BatchType.all := by
  cases t <;> decide

structure Token where
  id : Int
  remainQuota : Int
  usedQuota : Int
deriving DecidableEq

structure Channel where
  id : Int
  usedQuota : Int
deriving DecidableEq

structure Db where
  users : Users
  tokens : Table Token.id
  channels : Table Channel.id

def Db.value (db : Db) : BatchType → Int → Option Int
  | .userQuota, id => (db.users.find id).map User.quota
  | .tokenQuota, id => (db.tokens.find id).map Token.remainQuota
  | .usedQuota, id => (db.users.find id).map User.usedQuota
  | .channelUsedQuota, id => (db.channels.find id).map Channel.usedQuota
  | .requestCount, id => (db.users.find id).map User.requestCount

def Token.increase (quota : Int) (r : Token) : Token :=
  { r with remainQuota := r.remainQuota+quota, usedQuota := r.usedQuota-quota }

def Channel.use (quota : Int) (r : Channel) : Channel := { r with usedQuota := r.usedQuota+quota }

def addToUser (quota usedQuota requestCount : Int) (r : User) : User :=
  { r with quota := r.quota+quota, usedQuota := r.usedQuota+usedQuota, requestCount := r.requestCount+requestCount }

def increaseTokenQuota (id quota : Int) (db : Db) : Db :=
  { db with tokens := db.tokens.modify id (Token.increase quota) (fun _ => rfl) }

def updateChannelUsedQuota (id quota : Int) (db : Db) : Db :=
  { db with channels := db.channels.modify id (Channel.use quota) (fun _ => rfl) }

def updateUserQuotaUsedQuotaAndRequestCount (id quota usedQuota requestCount : Int) (db : Db) : Db :=
  if quota = 0 ∧ usedQuota = 0 ∧ requestCount = 0 then db
  else { db with users := db.users.modify id (addToUser quota usedQuota requestCount) (fun _ => rfl) }

inductive Target
  | tokens | channels | users
deriving DecidableEq

def Target.types : Target → List BatchType
  | .tokens => [.tokenQuota]
  | .channels => [.channelUsedQuota]
  | .users => [.userQuota, .usedQuota, .requestCount]

def Target.write (target : Target) (id : Int) (amount : BatchType → Int) (db : Db) : Db :=
  match target with
  | .tokens => increaseTokenQuota id (amount .tokenQuota) db
  | .channels => updateChannelUsedQuota id (amount .channelUsedQuota) db
  | .users => updateUserQuotaUsedQuotaAndRequestCount id (amount .userQuota) (amount .usedQuota)
      (amount .requestCount) db

abbrev Stores := BatchType → Tally Int

def Stores.empty : Stores := fun _ => .empty

inductive Phase
  | check (rest : List BatchType)
  | swap (rest : List BatchType)
  | write (target : Target)
  | done
deriving DecidableEq

def Target.next : Target → Phase
  | .tokens => .write .channels
  | .channels => .write .users
  | .users => .done

/-- A run of `batchUpdate` with what it has swapped out and not yet written. -/
structure BatchRun where
  phase : Phase
  stores : Stores

structure Record where
  type : BatchType
  id : Int
  value : Int
deriving DecidableEq

/-- The database, the shared stores and the runs; beside them, what was recorded so far and
what the failed writes were to add. -/
structure System where
  db : Db
  stores : Stores
  runs : List BatchRun
  records : List Record
  failed : List Record

def System.initial (db : Db) : System := ⟨db, .empty, [], [], []⟩

inductive Action
  | addNewRecord (r : Record)
  | start
  -- The next section of a run; `key` is the one that the iteration of a map picks.
  | batchUpdate (run : ℕ) (key : Int) (fails : Bool)
deriving DecidableEq

def Stores.drop (s : Stores) (target : Target) (id : Int) : Stores :=
  fun t => if t ∈ target.types then (s t).delete id else s t

/-- What a failed write was to add. An all-zero write is not sent. -/
def BatchRun.dropped (run : BatchRun) (target : Target) (id : Int) : List Record :=
  target.types.map (fun t => ⟨t, id, (run.stores t).get id⟩)

def BatchRun.hasKey (run : BatchRun) (target : Target) (id : Int) : Bool :=
  target.types.any (fun t => ((run.stores t).find id).isSome)

def BatchRun.isEmpty (run : BatchRun) (target : Target) : Bool :=
  target.types.all (fun t => (run.stores t).rows = [])

def System.set (x : System) (n : ℕ) (run : BatchRun) : System := { x with runs := x.runs.set n run }

def advance (x : System) (n : ℕ) (run : BatchRun) (key : Int) (fails : Bool) : System :=
  match run.phase with
  | .check [] => x.set n { run with phase := .done }
  | .check (t :: rest) =>
    if (x.stores t).rows = [] then x.set n { run with phase := .check rest }
    else x.set n { run with phase := .swap BatchType.all }
  | .swap [] => x.set n { run with phase := .write .tokens }
  | .swap (t :: rest) =>
    ({ x with stores := Function.update x.stores t .empty } : System).set n
      ⟨.swap rest, Function.update run.stores t (x.stores t)⟩
  | .write target =>
    if run.isEmpty target then x.set n { run with phase := target.next }
    else if run.hasKey target key then
      let run' : BatchRun := { run with stores := run.stores.drop target key }
      if fails then ({ x with failed := x.failed ++ run.dropped target key } : System).set n run'
      else ({ x with db := target.write key (fun t => (run.stores t).get key) x.db } : System).set n run'
    else x
  | .done => x

def step (x : System) : Action → System
  | .addNewRecord r => { x with
      stores := Function.update x.stores r.type ((x.stores r.type).add r.id r.value), records := x.records ++ [r] }
  | .start => { x with runs := x.runs ++ [⟨.check BatchType.all, .empty⟩] }
  | .batchUpdate n key fails =>
    match x.runs[n]? with
    | none => x
    | some run => advance x n run key fails

def recordsOf (as : List Action) : List Record :=
  as.filterMap (fun | .addNewRecord r => some r | _ => none)

inductive Call
  | increaseUserQuota (id quota : Int)
  | decreaseUserQuota (id quota : Int)
  | increaseTokenQuota (id quota : Int)
  | decreaseTokenQuota (id quota : Int)
  | updateUserUsedQuotaAndRequestCount (id quota : Int)
  | updateChannelUsedQuota (id quota : Int)
deriving DecidableEq

/-- The calls of `addNewRecord`; a negative quota is refused where the sign is in the name. -/
def Call.records : Call → List Record
  | .increaseUserQuota id quota => if quota < 0 then [] else [⟨.userQuota, id, quota⟩]
  | .decreaseUserQuota id quota => if quota < 0 then [] else [⟨.userQuota, id, -quota⟩]
  | .increaseTokenQuota id quota => if quota < 0 then [] else [⟨.tokenQuota, id, quota⟩]
  | .decreaseTokenQuota id quota => if quota < 0 then [] else [⟨.tokenQuota, id, -quota⟩]
  | .updateUserUsedQuotaAndRequestCount id quota => [⟨.usedQuota, id, quota⟩, ⟨.requestCount, id, 1⟩]
  | .updateChannelUsedQuota id quota => [⟨.channelUsedQuota, id, quota⟩]

def Call.unbatched (db : Db) : Call → Db
  | .increaseUserQuota id quota =>
    if quota < 0 then db else { db with users := db.users.modify id (addToUser quota 0 0) (fun _ => rfl) }
  | .decreaseUserQuota id quota =>
    if quota < 0 then db else { db with users := db.users.modify id (addToUser (-quota) 0 0) (fun _ => rfl) }
  | .increaseTokenQuota id quota => if quota < 0 then db else Batch.increaseTokenQuota id quota db
  | .decreaseTokenQuota id quota => if quota < 0 then db else Batch.increaseTokenQuota id (-quota) db
  | .updateUserUsedQuotaAndRequestCount id quota =>
    { db with users := db.users.modify id (addToUser 0 quota 1) (fun _ => rfl) }
  | .updateChannelUsedQuota id quota => Batch.updateChannelUsedQuota id quota db

def recorded (rs : List Record) (t : BatchType) (id : Int) : Int :=
  ((rs.filter (fun r => r.type = t ∧ r.id = id)).map Record.value).sum

def inFlight (runs : List BatchRun) (t : BatchType) (id : Int) : Int :=
  (runs.map (fun run => (run.stores t).get id)).sum

section Writes

variable {db : Db}

theorem map_find_modify {R : Type} {key : R → Int} (t : Table key) (id : Int) (f : R → R)
    (hf : ∀ r, key (f r) = key r)
    (column : R → Int) (n : Int) (hn : ∀ r, column (f r) = column r+n) (id' : Int) :
    ((t.modify id f hf).find id').map column = ((t.find id').map column).map
      (fun v => v+if id' = id then n else 0) := by
  rw [Table.find_modify]
  by_cases hid : id' = id
  · simp only [if_pos hid, Option.map_map, Function.comp_def, hn]
  · simp only [if_neg hid, add_zero, Option.map_id']

theorem map_add_zero (v : Option Int) : v.map (fun v => v+0) = v := by
  simp

theorem value_updateUser (id quota usedQuota requestCount : Int) (column : User → Int) (n : Int)
    (hn : ∀ r, column (addToUser quota usedQuota requestCount r) = column r+n)
    (hzero : quota = 0 ∧ usedQuota = 0 ∧ requestCount = 0 → n = 0) (id' : Int) :
    ((updateUserQuotaUsedQuotaAndRequestCount id quota usedQuota requestCount db).users.find id').map column =
      ((db.users.find id').map column).map (fun v => v+if id' = id then n else 0) := by
  unfold updateUserQuotaUsedQuotaAndRequestCount
  split
  · next h =>
    rw [hzero h, ite_self, map_add_zero]
  · exact map_find_modify db.users id (addToUser quota usedQuota requestCount) (fun _ => rfl) column n hn id'

theorem value_write (target : Target) (id : Int) (amount : BatchType → Int) (t : BatchType) (id' : Int) :
    (target.write id amount db).value t id' =
      (db.value t id').map (fun v => v+if t ∈ target.types ∧ id' = id then amount t else 0) := by
  have hsplit : (db.value t id').map (fun v => v+if t ∈ target.types ∧ id' = id then amount t else 0) =
      if t ∈ target.types then (db.value t id').map (fun v => v+if id' = id then amount t else 0)
      else db.value t id' := by
    by_cases h : t ∈ target.types
    · simp only [h, true_and, if_true]
    · simp only [h, false_and, if_false, map_add_zero]
  rw [hsplit]
  cases target with
  | tokens =>
    cases t with
    | tokenQuota =>
      exact map_find_modify db.tokens id (Token.increase _) (fun _ => rfl) Token.remainQuota _ (fun _ => rfl) id'
    | _ => rfl
  | channels =>
    cases t with
    | channelUsedQuota =>
      exact map_find_modify db.channels id (Channel.use _) (fun _ => rfl) Channel.usedQuota _ (fun _ => rfl) id'
    | _ => rfl
  | users =>
    cases t with
    | userQuota => exact value_updateUser id _ _ _ User.quota _ (fun _ => rfl) (fun h => h.1) id'
    | usedQuota => exact value_updateUser id _ _ _ User.usedQuota _ (fun _ => rfl) (fun h => h.2.1) id'
    | requestCount => exact value_updateUser id _ _ _ User.requestCount _ (fun _ => rfl) (fun h => h.2.2) id'
    | tokenQuota | channelUsedQuota =>
      simp only [Target.write, updateUserQuotaUsedQuotaAndRequestCount]
      split <;> rfl

theorem token_total_write (target : Target) (id : Int) (amount : BatchType → Int) (id' : Int) :
    ((target.write id amount db).tokens.find id').map (fun r => r.remainQuota+r.usedQuota) =
      (db.tokens.find id').map (fun r => r.remainQuota+r.usedQuota) := by
  cases target with
  | tokens =>
    have hkeep (r : Token) : (r.increase (amount .tokenQuota)).remainQuota+(r.increase (amount .tokenQuota)).usedQuota =
        r.remainQuota+r.usedQuota+0 := by
      simp only [Token.increase]
      omega
    have h := map_find_modify db.tokens id (Token.increase _) (fun _ => rfl)
      (fun r => r.remainQuota+r.usedQuota) 0 hkeep id'
    simp only [ite_self] at h
    rw [map_add_zero] at h
    exact h
  | channels => rfl
  | users =>
    simp only [Target.write, updateUserQuotaUsedQuotaAndRequestCount]
    split <;> rfl

end Writes

end Batch

end AiGateway
