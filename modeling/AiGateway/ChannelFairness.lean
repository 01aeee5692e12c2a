import AiGateway.ChannelPolling
import AiGateway.RoundRobin

/-! With the memory cache: the keys that requests get from one channel, between changes of its status
and rebuilds. The state is the entry of the channel in `channelsIDM`. A call of `GetNextEnabledKey`
holds the polling lock, which other calls and changes of the status wait for. `InitChannelCache` does
not take it, so rebuilds can come between a call's read of the polling index and its write. -/
namespace AiGateway.Channels.Fairness

open List RoundRobin Run

/-- `GetNextEnabledKey` on the object `c`: the key and its index, and the object after the call. The
polling index is read from the object in the cache, and written to `c`. -/
def getNextEnabledKey (json : Json) (cached : Option Channel) (c : Channel) (random : ℕ) :
    Option (String × ℕ) × Channel :=
  let keys := c.getKeys json
  let key (i : ℕ) := some (keys.getD i "", i)
  if !c.channelInfo.isMultiKey then (some (c.key, 0), c)
  else if keys = [] then (none, c)
  else
    match c.channelInfo.enabledIdx keys with
    | [] => (none, c)
    | first :: rest =>
      match c.channelInfo.multiKeyMode with
      | .random => (key ((first :: rest).getD (random % (rest.length+1)) 0), c)
      | .polling =>
        match cached with
        | none => (none, c)
        | some o =>
          match c.channelInfo.poll keys o.channelInfo.multiKeyPollingIndex with
          | some i =>
            let info := { c.channelInfo with multiKeyPollingIndex := ((i+1) % keys.length : ℕ) }
            (key i, { c with channelInfo := info })
          | none => (key first, c)
      | .other _ => (key first, c)

inductive Action
  /-- A call on the object in the cache, or on another one: an object that a rebuild has replaced since
  it was read, or a copy of the row. The rows are of the rebuilds between its read and its write. -/
  | getNextEnabledKey (receiver : Option Channel) (random : ℕ) (rebuilds : List (Option Channel))
  | updateChannelStatus (a : StatusCall) (time : Int)
  | initChannelCache (row : Option Channel)

def rebuild (cached row : Option Channel) : Option Channel := row.map (Cache.keepPollingIndex cached)

def step (json : Json) (cached : Option Channel) : Action → Option Channel
  | .getNextEnabledKey none random [] => cached.map (fun c => (getNextEnabledKey json cached c random).2)
  -- The object that gets the next index is not in the cache, or not any more.
  | .getNextEnabledKey _ _ rebuilds => rebuilds.foldl rebuild cached
  | .updateChannelStatus a time => cached.map (fun c =>
    if c.channelInfo.isMultiKey then handlerMultiKeyUpdate json c a.usingKey a.status a.reason time
    else { c with status := a.status })
  | .initChannelCache row => rebuild cached row

def answers (json : Json) (cached : Option Channel) : Action → List (Option (String × ℕ))
  | .getNextEnabledKey receiver random _ =>
    (receiver.or cached).toList.map (fun c => (getNextEnabledKey json cached c random).1)
  | _ => []

variable {json : Json} {keys : List String} {enabled : List ℕ} {cached : Option Channel} {c c' : Channel}

/-- The channel polls; `keys` are its keys, and `enabled` the indexes of those that are enabled. -/
structure Polls (json : Json) (keys : List String) (enabled : List ℕ) (c : Channel) : Prop where
  mode : c.channelInfo.isMultiKey = true ∧ c.channelInfo.multiKeyMode = .polling
  keys_eq : c.getKeys json = keys
  enabled_eq : c.channelInfo.enabledIdx keys = enabled

instance : Decidable (Polls json keys enabled c) :=
  decidable_of_iff ((c.channelInfo.isMultiKey = true ∧ c.channelInfo.multiKeyMode = .polling) ∧
    c.getKeys json = keys ∧ c.channelInfo.enabledIdx keys = enabled) ⟨fun h =>
      ⟨h.1, h.2.1, h.2.2⟩, fun h => ⟨h.1, h.2, h.3⟩⟩

def Allowed (keys : List String) (enabled : List ℕ) : Option (String × ℕ) → Prop
  | none => enabled = []
  | some (key, i) => i ∈ enabled ∧ keys[i]? = some key

/-- Each enabled key is returned as often as the others, up to one. -/
def Fair (keys : List String) (enabled : List ℕ) (served : List (Option (String × ℕ))) : Prop :=
  ∀ i ∈ enabled, served.count (some (keys.getD i "", i)) = served.length / enabled.length ∨
    served.count (some (keys.getD i "", i)) = (served.length+enabled.length-1) / enabled.length

def startOf (keys : List String) (index : Int) : ℕ := if index < 0 ∨ index ≥ keys.length then 0 else index.toNat

def dueAt (keys : List String) (enabled : List ℕ) (c : Channel) : ℕ :=
  turn enabled (startOf keys c.channelInfo.multiKeyPollingIndex)

theorem Polls.answer (h : Polls json keys enabled c) (hne : enabled ≠ []) {q : ℕ}
    (hq : dueAt keys enabled c ≡ q [MOD enabled.length])
    (random : ℕ) : ∃ i c', enabled[q % enabled.length]? = some i ∧
      getNextEnabledKey json (some c) c random = (some (keys.getD i "", i), c') ∧
      dueAt keys enabled c' ≡ q+1 [MOD enabled.length] := by
  have henabled : enabled = places (fun i => c.channelInfo.getStatus i = channelStatusEnabled) keys.length :=
    h.enabled_eq.symm
  have hkeys : 0 < keys.length := length_pos_iff.mpr (by rintro rfl; exact hne henabled)
  have hstart (index : Int) : startOf keys index < keys.length := by
    rw [startOf]
    split <;> omega
  have hscan : c.channelInfo.poll keys c.channelInfo.multiKeyPollingIndex = enabled[q % enabled.length]? := by
    rw [henabled, ← show _ % _ = q % _ from henabled ▸ hq, dueAt, ← scan_eq (hstart _)]
    rfl
  obtain ⟨i, hi⟩ : ∃ i, enabled[q % enabled.length]? = some i :=
    ⟨_, getElem?_eq_getElem (Nat.mod_lt _ (length_pos_iff.mpr hne))⟩
  obtain ⟨first, rest, hrest⟩ := exists_cons_of_ne_nil hne
  refine ⟨i, { c with channelInfo :=
    { c.channelInfo with multiKeyPollingIndex := ((i+1) % keys.length : ℕ) } }, hi, ?_, ?_⟩
  · simp only [getNextEnabledKey, h.mode.1, h.mode.2, h.keys_eq, h.enabled_eq, hscan, hi]
    simp [hrest, ne_nil_of_length_pos hkeys]
  · have hindex : startOf keys ((i+1) % keys.length : ℕ) = (i+1) % keys.length := by
      have := Nat.mod_lt (i+1) hkeys
      rw [startOf, if_neg (by omega), Int.toNat_natCast]
    have hnext := turn_next (hstart _) (hscan.trans hi)
    rw [dueAt, hindex]
    exact (henabled ▸ hnext).trans (hq.add_right 1)

def polled (key : String) (disabled : List (ℕ × Int)) : Channel where
  id := 1
  key := key
  status := channelStatusEnabled
  channelInfo := { isMultiKey := true, multiKeyMode := .polling, multiKeyStatusList := disabled }

end AiGateway.Channels.Fairness
