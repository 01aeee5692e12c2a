import AiGateway.RecordCache

/-! The hashes of the cache have all fields of their records in every run in which each write
of single fields still finds the key that its `TTL` has found. -/
namespace AiGateway.RecordCache

open Interleave (System Assertion Keeps Holds Guard)
open Redis (Db Whole)
open List Function Run

section

variable {cfg : Config} {hash : String → Option String} {fs : List Field} {obj obj' : Object}

theorem readFields_cons {f : Field} (h : readFields cfg hash (f :: fs) obj = .ok obj') :
    (hash f.name = none ∧ readFields cfg hash fs obj = .ok obj') ∨
    ∃ text v, hash f.name = some text ∧ readField cfg f text = .ok v ∧
      readFields cfg hash fs (Function.update obj f.name v) = .ok obj' := by
  rw [readFields] at h
  split at h
  · next hf => exact .inl ⟨hf, h⟩
  · next text hf =>
    split at h
    · cases h
    · next v hv => exact .inr ⟨text, v, hf, hv, h⟩

theorem readFields_frame (h : readFields cfg hash fs obj = .ok obj') {name : String}
    (hname : name ∉ fs.map Field.name) :
    obj' name = obj name := by
  induction fs generalizing obj with
  | nil =>
    cases h
    rfl
  | cons f fs ih =>
    rw [map_cons, mem_cons, not_or] at hname
    rcases readFields_cons h with ⟨-, h⟩ | ⟨_, _, -, -, h⟩
    · exact ih h hname.2
    · rw [ih h hname.2, update_of_ne hname.1]

theorem readFields_mem (h : readFields cfg hash fs obj = .ok obj') (hnodup : (fs.map Field.name).Nodup) {f : Field}
    (hf : f ∈ fs) {text : String} (htext : hash f.name = some text) : readField cfg f text = .ok (obj' f.name) := by
  induction fs generalizing obj with
  | nil => cases hf
  | cons g fs ih =>
    rw [map_cons, nodup_cons] at hnodup
    rcases mem_cons.mp hf with rfl | hf
    · rcases readFields_cons h with ⟨hnone, -⟩ | ⟨_, _, htext', hv, h⟩
      · cases hnone.symm.trans htext
      · cases htext'.symm.trans htext
        rw [readFields_frame h hnodup.1, update_self, hv]
    · rcases readFields_cons h with ⟨-, h⟩ | ⟨-, _, -, -, h⟩ <;> exact ih h hnodup.2 hf

end

theorem fields_nodup (key : Key) : (key.fields.map Field.name).Nodup := by
  cases key with
  | user =>
    change (UserBase.fields.map Field.name).Nodup
    decide
  | token =>
    change (Token.fields.map Field.name).Nodup
    decide

variable (cfg : Config)

/-- The object of a hit: each stored field of the record is read from the hash. -/
def ReadFrom (lookup : Lookup) (hash : String → Option String) (obj : Object) : Prop :=
  ∀ f ∈ (lookup.cacheKey cfg).fields, f.stored →
    ∃ text value, hash f.name = some text ∧ readField cfg f text = .ok value ∧
      obj f.name = lookup.finish (Function.update (zeroObject (lookup.cacheKey cfg).fields) f.name value) f.name

theorem finish_congr (lookup : Lookup) {obj obj' : Object} {name : String} (h : obj name = obj' name) :
    lookup.finish obj name = lookup.finish obj' name := by
  cases lookup with
  | user => exact h
  | token =>
    by_cases hk : name = "Key"
    · subst hk
      rw [Lookup.finish, Lookup.finish, update_self, update_self]
    · rw [Lookup.finish, Lookup.finish, update_of_ne hk, update_of_ne hk]
      exact h

variable {db : Db Key}

theorem readFrom_of_whole {cfg : Config} (hwhole : Whole Key.stored db) {lookup : Lookup} {obj : Object}
    (h : redisHGetObj cfg db (lookup.cacheKey cfg) = .ok obj) :
    ∃ e, db (lookup.cacheKey cfg) = some e ∧ ReadFrom cfg lookup e.hash (lookup.finish obj) := by
  rw [redisHGetObj] at h
  cases he : db (lookup.cacheKey cfg) with
  | none =>
    simp only [he] at h
    cases h
  | some e =>
    simp only [he] at h
    refine ⟨e, rfl, ?_⟩
    intro f hf hs
    have hname : f.name ∈ (lookup.cacheKey cfg).stored :=
      mem_map_of_mem (mem_filter.mpr ⟨hf, hs⟩)
    obtain ⟨text, htext⟩ := Option.isSome_iff_exists.mp (hwhole _ e he f.name hname)
    refine ⟨text, obj f.name, htext, readFields_mem h (fields_nodup _) hf htext, ?_⟩
    apply finish_congr
    rw [update_self]

def Pc.Complete : Pc → Prop
  | .setObj key data => ∀ f ∈ key.stored, f ∈ data.map Prod.fst
  | _ => True

theorem populateUserCache_complete (user : Object) : (populateUserCache user).Complete := by
  intro f hf
  simpa [populateUserCache, objectData, Key.stored, Key.fields, getUserCacheKey] using hf

theorem cacheSetToken_complete (token : Object) : (cacheSetToken cfg token).Complete := by
  intro f hf
  simpa [cacheSetToken, objectData, Key.stored, Key.fields, tokenCacheKey] using hf

theorem writeNext_complete (key : Key) (writes : List Write) : (writeNext key writes).Complete := by
  cases writes <;> trivial

theorem afterMiss_complete (lookup : Lookup) (row : Option Object) :
    (afterMiss cfg lookup row).Complete := by
  cases row with
  | none => trivial
  | some obj =>
    cases lookup with
    | user => exact populateUserCache_complete obj
    | token => exact cacheSetToken_complete cfg obj

theorem start_complete (c : Call) (db : Db Key) : (start cfg c db).Complete := by
  cases c with
  | populateUserCache user => exact populateUserCache_complete user
  | cacheSetToken token => exact cacheSetToken_complete cfg token
  | invalidateUserCache | cacheDeleteToken | get => trivial
  | _ =>
    rw [start]
    exact writeNext_complete _ _

theorem next_complete (pc : Pc) (db : Db Key) (input : Input) : (next cfg pc db input).2.Complete := by
  cases pc with
  | setObj | delKey | returned => trivial
  | checkTTL key w rest =>
    rw [next]
    split
    · trivial
    · split
      · trivial
      · exact writeNext_complete key rest
  | transaction key w rest =>
    simp only [next]
    split
    · trivial
    · exact writeNext_complete key rest
  | getAll lookup =>
    rw [next]
    split
    · exact afterMiss_complete cfg lookup input.row
    · cases redisHGetObj cfg db (lookup.cacheKey cfg) with
      | error => exact afterMiss_complete cfg lookup input.row
      | ok => trivial

def presentOk : Guard (Db Key) Pc Call Input Key where
  call _ _ := True
  run db pc input :=
    match pc with
    | .transaction key _ _ => input.executed = true → (db key).isSome = true
    | _ => True
  env _ _ := True

theorem transact_whole (h : Whole Key.stored db) {key : Key} (hkey : (db key).isSome) (w : Write) :
    Whole Key.stored (transact db key w).1 := by
  cases w with
  | hincrby field delta => exact (h.hincrby_present hkey field delta).expire key
  | hset => exact (h.hset_present hkey _).expire key

theorem setObj_whole (h : Whole Key.stored db) {key : Key} {data : List (String × String)}
    (hdata : (Pc.setObj key data).Complete) : Whole Key.stored (setObj cfg db key data) := by
  rw [setObj]
  split
  · exact (h.hset_all hdata).expire key
  · exact h.hset_all hdata

theorem next_whole (h : Whole Key.stored db) {pc : Pc} (hpc : pc.Complete) {input : Input}
    (hok : presentOk.run db pc input) : Whole Key.stored (next cfg pc db input).1 := by
  cases pc with
  | setObj =>
    cases hx : input.executed with
    | true => simpa only [next, hx, if_true] using setObj_whole cfg h hpc
    | false =>
      simp only [next, hx]
      exact h
  | checkTTL =>
    rw [next]
    split
    · exact h
    · split <;> exact h
  | transaction key w =>
    cases hx : input.executed with
    | true => simpa only [next, hx, if_true] using transact_whole h (hok hx) w
    | false =>
      simp only [next, hx]
      exact h
  | delKey key =>
    cases hx : input.executed with
    | true => simpa only [next, hx, if_true] using h.del key
    | false =>
      simp only [next, hx]
      exact h
  | getAll lookup =>
    rw [next]
    split
    · exact h
    · cases redisHGetObj cfg db (lookup.cacheKey cfg) <;> exact h
  | returned => exact h

def wholeRecords : Assertion (Db Key) Pc Empty where
  shared := Whole Key.stored
  own _ pc := pc.Complete
  pair _ _ _ := True
  value _ k := nomatch k
  weight _ k := nomatch k

theorem wholeRecords_kept : Keeps (machine cfg) presentOk wholeRecords where
  symm _ := trivial
  call {db c} _ _ := ⟨start_complete cfg c db, fun k => nomatch k⟩
  call_pair _ _ _ := trivial
  run {db pc input} h hpc _ hok := ⟨next_whole cfg h hpc hok, next_complete cfg pc db input, fun k => nomatch k⟩
  other _ _ hb _ _ _ := ⟨hb, trivial⟩
  others _ _ _ _ _ _ _ _ := trivial
  env {_ key} h _ := ⟨h.lapse key, fun k => nomatch k⟩
  env_own _ _ hl := hl
  env_pair _ _ _ := trivial

theorem wholeRecords_run (as : List Action) (hok : Along (machine cfg).step presentOk.Ok initial as) :
    Holds wholeRecords (exec (machine cfg).step initial as) := by
  refine Holds.run (wholeRecords_kept cfg) (Holds.initial ?_ ?_) as hok
  · nofun
  · intro k
    cases k

/-- In every state of a run in which no write of single fields has lost its key since the
`TTL`, each hash has all stored fields of its record, and a hit reads each of them. -/
theorem cached_records_whole (cfg : Config) (as : List Action)
    (hok : Along (machine cfg).step presentOk.Ok initial as) :
    (∀ key e, (exec (machine cfg).step initial as).shared key = some e →
      ∀ f ∈ key.fields, f.stored → (e.hash f.name).isSome) ∧
        ∀ (i : ℕ) (lookup : Lookup) (input : Input) (obj : Object),
      (exec (machine cfg).step initial as).procs[i]? = some (.getAll lookup) →
      ((machine cfg).step (exec (machine cfg).step initial as) (.run i input)).procs[i]? =
        some (.returned (.hit obj)) →
      ∃ e, (exec (machine cfg).step initial as).shared (lookup.cacheKey cfg) = some e ∧
        ReadFrom cfg lookup e.hash obj := by
  have hwhole := (wholeRecords_run cfg as hok).shared
  refine ⟨?_, ?_⟩
  · intro key e he f hf hs
    exact hwhole key e he f.name (mem_map_of_mem (mem_filter.mpr ⟨hf, hs⟩))
  · intro i lookup input obj hi hhit
    obtain ⟨hlt, _⟩ := List.getElem?_eq_some_iff.mp hi
    rw [Interleave.Machine.step_run input hi, getElem?_set_self hlt, Option.some.injEq] at hhit
    -- The step of a lookup ends in a hit only with what `RedisHGetObj` has read.
    change (next cfg (.getAll lookup) (exec (machine cfg).step initial as).shared input).2 =
      .returned (.hit obj) at hhit
    have hmiss : afterMiss cfg lookup input.row ≠ .returned (.hit obj) := by
      cases hrow : input.row with
      | none =>
        nofun
      | some =>
        intro h
        cases lookup <;> cases h
    rw [next] at hhit
    split at hhit
    · exact absurd hhit hmiss
    · cases hget : redisHGetObj cfg (exec (machine cfg).step initial as).shared (lookup.cacheKey cfg) with
      | error =>
        simp only [hget] at hhit
        exact absurd hhit hmiss
      | ok =>
        simp only [hget, Pc.returned.injEq, Result.hit.injEq] at hhit
        subst hhit
        exact readFrom_of_whole hwhole hget

instance (db : Db Key) (pc : Pc) (input : Input) : Decidable (presentOk.run db pc input) := by
  cases pc <;> dsimp only [presentOk] <;> infer_instance

instance (x : System (Db Key) Pc) (a : Action) : Decidable (presentOk.Ok x a) :=
  presentOk.decideOk (fun _ _ => .isTrue trivial) inferInstance (fun _ _ => .isTrue trivial) x a

def sampleConfig : Config := ⟨60, id, fun _ => none⟩

def sampleUser : Object
  | "Id" => .int 1
  | "Group" => .string "vip"
  | "Status" => .int 1
  | "Quota" => .int 500
  | _ => .string ""

def chargedUser : List Action :=
  [.call (.populateUserCache sampleUser), .run 0 {}, .call (.cacheIncrUserQuota 1 (-20)), .run 1 { seconds := 60 },
    .run 1 {}, .call (.get (.user 1))]

theorem cached_records_whole_charged : Along (machine sampleConfig).step presentOk.Ok initial chargedUser ∧
      ∀ e, (exec (machine sampleConfig).step initial chargedUser).shared (.user 1) = some e →
        ∀ f ∈ UserBase.fields, f.stored → (e.hash f.name).isSome := by
  refine ⟨by decide, ?_⟩
  intro e he
  exact (cached_records_whole sampleConfig chargedUser (by decide)).1 (.user 1) e he

/-- User 1 is cached; between the `TTL` and the `HINCRBY` of a charge the key lapses. -/
def lapsedUser : List Action :=
  [.call (.populateUserCache sampleUser), .run 0 {}, .call (.cacheIncrUserQuota 1 (-20)), .run 1 { seconds := 1 },
    .env (.user 1), .run 1 {}]

/-- The `HINCRBY` makes a new hash that has the quota and nothing else. -/
theorem lapsed_key_leaves_partial_record : ¬ ∀ (cfg : Config) (as : List Action) (key : Key) (e : Redis.Entry),
      (exec (machine cfg).step initial as).shared key = some e →
      ∀ f ∈ key.fields, f.stored → (e.hash f.name).isSome := by
  intro h
  cases he : (exec (machine sampleConfig).step initial lapsedUser).shared (.user 1) with
  | none =>
    have hthere : ((exec (machine sampleConfig).step initial lapsedUser).shared (.user 1)).isSome = true := by
      decide
    rw [he] at hthere
    cases hthere
  | some e =>
    have hid := h sampleConfig lapsedUser (.user 1) e he ⟨"Id", .int, false⟩ (by decide) rfl
    have hnone : ((exec (machine sampleConfig).step initial lapsedUser).shared (.user 1)).bind
        (fun e => e.hash "Id") = none := by
      decide
    rw [he, Option.bind_some] at hnone
    rw [hnone] at hid
    cases hid

end AiGateway.RecordCache
