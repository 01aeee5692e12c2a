import AiGateway.RelayLoop
import Mathlib.Data.List.Pairwise

/-! The retries of a request are bounded: the pair of group index and retry counter grows
from attempt to attempt, in the order of the groups. -/
namespace AiGateway.RelayLoop
open Pricing List

/-! What one choice of a channel does. -/

def Config.groupCount (cfg : Config) : ℕ := if cfg.auto then cfg.autoGroups.length else 0

/-- The state after a channel was chosen in a round that began with `st`. Either the loop stays
at the group and priority of the channel, or it goes on with the next group. -/
structure Moved (cfg : Config) (st st' : State) (c : Chosen) : Prop where
  attempts : st'.attempts = st.attempts
  channelMeta : st'.channelMeta = st.channelMeta
  start : st.index ≤ c.groupIndex
  stay : c.groupIndex = st.index → c.priorityRetry = st.retry
  move : st.index < c.groupIndex → c.priorityRetry = 0
  place : st'.index = c.groupIndex ∧ st'.retry = c.priorityRetry ∧ st'.resetNextTry = false ∨
    cfg.auto = true ∧ st.channelMeta = true ∧ st'.index = c.groupIndex+1 ∧ st'.retry = 0 ∧
      st'.resetNextTry = true
  group : cfg.auto = true ∧ st.channelMeta = true ∨ st.index < c.groupIndex → c.groupIndex < cfg.groupCount

def State.Sorted (st : State) : Prop := st.indexes.Pairwise (· ≥ ·)

variable {st st' : State} {cfg : Config} {c : Chosen}

variable {i : ℕ} {groups : List String} {round : Round}

theorem State.Sorted.setIndex (h : st.Sorted) (hi : st.index ≤ i) : (st.setIndex i).Sorted := by
  rw [Sorted, State.setIndex, pairwise_cons]
  refine ⟨?_, h⟩
  intro j hj
  cases hs : st.indexes with
  | nil =>
    rw [hs] at hj
    cases hj
  | cons =>
    rw [State.index, hs, headD_cons] at hi
    rw [Sorted, hs, pairwise_cons] at h
    rw [hs] at hj
    rcases mem_cons.mp hj with rfl | hj
    · exact hi
    · exact (h.1 j hj).trans hi

theorem State.Sorted.skipGroup {st : State} (h : st.Sorted) {i : ℕ} (hi : st.index ≤ i) : (st.skipGroup i).Sorted :=
  h.setIndex (hi.trans (Nat.le_succ i))

theorem State.Sorted.takeGroup (cfg : Config) (h : st.Sorted) (hi : st.index ≤ i) (group : String)
    (priorityRetry : ℕ) : (st.takeGroup cfg group i priorityRetry).Sorted := by
  have hst : ({ st with autoGroup := some group } : State).Sorted := h
  rw [State.takeGroup]
  split
  · exact hst.setIndex (hi.trans (Nat.le_succ i))
  · exact hst.setIndex hi

theorem searchGroups_sorted (s : ℕ)
    (h : st.Sorted) (hi : st.index ≤ i) : (searchGroups cfg round s i groups st).1.Sorted := by
  induction groups generalizing i st with
  | nil => exact h
  | cons group groups ih =>
    rw [searchGroups]
    cases hp : (round.pick group (if s < i then 0 else st.retry)).1 with
    | none => exact ih (h.skipGroup hi) le_rfl
    | some => exact h.takeGroup cfg hi group _

theorem takeGroup_place (hreset : st.resetNextTry = false) (group : String) (i p : ℕ)
    (hp : st.retry = p) : (st.takeGroup cfg group i p).index = i ∧ (st.takeGroup cfg group i p).retry = p ∧
        (st.takeGroup cfg group i p).resetNextTry = false ∨
      (st.takeGroup cfg group i p).index = i+1 ∧ (st.takeGroup cfg group i p).retry = 0 ∧
        (st.takeGroup cfg group i p).resetNextTry = true := by
  rw [State.takeGroup]
  split
  · exact .inr ⟨rfl, rfl, rfl⟩
  · exact .inl ⟨rfl, hp, hreset⟩

theorem takeGroup_attempts (cfg : Config) (st : State) (group : String) (i p : ℕ) :
    (st.takeGroup cfg group i p).attempts = st.attempts ∧
    (st.takeGroup cfg group i p).channelMeta = st.channelMeta ∧
      (st.takeGroup cfg group i p).info = st.info ∧ (st.takeGroup cfg group i p).autoGroup = some group := by
  rw [State.takeGroup]
  split <;> exact ⟨rfl, rfl, rfl, rfl⟩

/-- What a search has found. `st` is the state in which the search for the round began. -/
structure Found (cfg : Config) (s : ℕ) (st st' : State) (i : ℕ) (groups : List String) (c : Chosen) : Prop where
  attempts : st'.attempts = st.attempts
  channelMeta : st'.channelMeta = st.channelMeta
  info : st'.info = st.info
  autoGroup : st'.autoGroup = some c.group
  start : i ≤ c.groupIndex
  range : c.groupIndex < i+groups.length
  stay : c.groupIndex = s → c.priorityRetry = st.retry
  move : s < c.groupIndex → c.priorityRetry = 0
  place : st'.index = c.groupIndex ∧ st'.retry = c.priorityRetry ∧ st'.resetNextTry = false ∨
    st'.index = c.groupIndex+1 ∧ st'.retry = 0 ∧ st'.resetNextTry = true

/-- The search for a channel. Once it has left its first group, the counter is zero. -/
theorem searchGroups_found {s : ℕ} (hi : s ≤ i) (hretry : s < i → st.retry = 0) (hreset : st.resetNextTry = false)
    (h : searchGroups cfg round s i groups st = (st', some c)) : Found cfg s st st' i groups c := by
  induction groups generalizing i st with
  | nil => cases h
  | cons group groups ih =>
    rw [searchGroups] at h
    cases hp : (round.pick group (if s < i then 0 else st.retry)).1 with
    | none =>
      simp only [hp] at h
      have hrest : Found cfg s (st.skipGroup i) st' (i+1) groups c :=
        ih (hi.trans (Nat.le_succ i)) (fun _ => rfl) hreset h
      have hlen : (group :: groups).length = groups.length+1 := rfl
      refine ⟨hrest.attempts, hrest.channelMeta, hrest.info, hrest.autoGroup, ?_, ?_, ?_, hrest.move, hrest.place⟩
      · exact (Nat.le_succ i).trans hrest.start
      · have hrange := hrest.range
        omega
      · intro hc
        have hstart := hrest.start
        omega
    | some =>
      simp only [hp, Prod.mk.injEq, Option.some.injEq] at h
      obtain ⟨rfl, rfl⟩ := h
      obtain ⟨hat, hmeta, hinfo, hauto⟩ := takeGroup_attempts cfg st group i (if s < i then 0 else st.retry)
      have hprio : st.retry = if s < i then 0 else st.retry := by
        split
        · next hlt => exact hretry hlt
        · rfl
      refine ⟨hat, hmeta, hinfo, hauto, le_rfl, ?_, ?_, ?_, takeGroup_place hreset group i _ hprio⟩
      · simp only [length_cons]
        omega
      · intro _
        exact hprio.symm
      · intro hlt
        exact if_pos hlt

theorem getChannel_cases (h : getChannel cfg round st = (st', some c)) :
    (st.channelMeta = true ∧ ∃ st₁, cacheGetRandomSatisfiedChannel cfg round st = (st₁, some c) ∧
      st' = st₁.updateGroupRatio cfg) ∨
    (st.channelMeta ≠ true ∧ st' = st ∧
      c = ⟨cfg.channelId, st.autoGroup.getD cfg.tokenGroup, st.index, st.retry⟩) := by
  rw [getChannel] at h
  split at h
  · next hmeta =>
    split at h
    · cases h
    · next st₁ c' hs =>
      split at h <;> cases h
      exact .inl ⟨hmeta, st₁, hs, rfl⟩
  · next hmeta =>
    cases h
    exact .inr ⟨hmeta, rfl, rfl⟩

theorem getChannel_moved (hreset : st.resetNextTry = false)
    (h : getChannel cfg round st = (st', some c)) : Moved cfg st st' c := by
  rcases getChannel_cases h with ⟨hmeta, st₁, hs, rfl⟩ | ⟨hmeta, rfl, rfl⟩
  · rw [cacheGetRandomSatisfiedChannel] at hs
    split at hs
    · next hauto =>
      split at hs
      · have hfound := searchGroups_found le_rfl (fun hlt => absurd hlt (lt_irrefl _)) hreset hs
        refine ⟨hfound.attempts, hfound.channelMeta, hfound.start, hfound.stay, hfound.move, ?_, ?_⟩
        · rcases hfound.place with hplace | hplace
          · exact .inl hplace
          · exact .inr ⟨hauto, hmeta, hplace⟩
        · intro _
          have hrange := hfound.range
          rw [length_drop] at hrange
          rw [Config.groupCount, if_pos hauto]
          have hstart := hfound.start
          omega
      · cases hs
    · next hauto =>
      split at hs <;> cases hs
      refine ⟨rfl, rfl, le_rfl, fun _ => rfl, fun hlt => absurd hlt (lt_irrefl _), .inl ⟨rfl, rfl, hreset⟩, ?_⟩
      exact fun h => h.elim (fun ha => absurd ha.1 hauto) (fun hlt => absurd hlt (lt_irrefl _))
  · refine ⟨rfl, rfl, le_rfl, fun _ => rfl, fun hlt => absurd hlt (lt_irrefl _), .inl ⟨rfl, rfl, hreset⟩, ?_⟩
    exact fun h => h.elim (fun hm => absurd hm.2 hmeta) (fun hlt => absurd hlt (lt_irrefl _))

theorem getChannel_attempts (cfg : Config) (round : Round) (st : State) :
    (getChannel cfg round st).1.attempts = st.attempts := by
  have hgroups (s i : ℕ) (groups : List String) (st : State) :
      (searchGroups cfg round s i groups st).1.attempts = st.attempts := by
    induction groups generalizing i st with
    | nil => rfl
    | cons group groups ih =>
      rw [searchGroups]
      cases hp : (round.pick group (if s < i then 0 else st.retry)).1 with
      | none => exact ih (i+1) (st.skipGroup i)
      | some => exact (takeGroup_attempts cfg st group i _).1
  have hsearch : (cacheGetRandomSatisfiedChannel cfg round st).1.attempts = st.attempts := by
    rw [cacheGetRandomSatisfiedChannel]
    split
    · split
      · exact hgroups _ _ _ st
      · rfl
    · split <;> rfl
  rw [getChannel]
  split
  · cases hs : cacheGetRandomSatisfiedChannel cfg round st with
    | mk st1 found =>
      rw [hs] at hsearch
      cases found <;> exact hsearch
  · rfl

theorem getChannel_sorted (cfg : Config) (round : Round) (h : st.Sorted) : (getChannel cfg round st).1.Sorted := by
  rw [getChannel]
  split
  · have hsearch : (cacheGetRandomSatisfiedChannel cfg round st).1.Sorted := by
      rw [cacheGetRandomSatisfiedChannel]
      split
      · split
        · exact searchGroups_sorted st.index h le_rfl
        · exact h
      · split <;> exact h
    cases hs : cacheGetRandomSatisfiedChannel cfg round st with
    | mk st1 found =>
      rw [hs] at hsearch
      cases found <;> exact hsearch
  · exact h

/-! The attempts that are still possible, and the order of those that were made. -/

/-- A bound of the attempts from a state on: the rest of the group, and the groups after it. -/
def State.room (cfg : Config) (st : State) : ℕ :=
  if cfg.auto && st.channelMeta && decide (cfg.groupCount ≤ st.index) then 0
  else (cfg.groupCount-(st.index+1))*(cfg.retryTimes+1)+(cfg.retryTimes+1-st.retry)

def Config.bound (cfg : Config) : ℕ := (cfg.retryTimes+1)*max 1 cfg.groupCount

/-- By group index, and within one by the retry counter: of the values with which the rounds began, and of the group
and priority of the attempts. -/
structure Precedes (a b : Attempt) : Prop where
  index : a.index ≤ b.index
  retryIndex : a.index = b.index → a.retryIndex < b.retryIndex
  groupIndex : a.groupIndex ≤ b.groupIndex
  priorityRetry : a.groupIndex = b.groupIndex → a.priorityRetry < b.priorityRetry

/-- An attempt that was made before a round begins at group index `i` with counter `r`. -/
structure Before (a : Attempt) (i r : ℕ) : Prop where
  start : a.index ≤ a.groupIndex
  stay : a.groupIndex = a.index → a.priorityRetry = a.retryIndex
  groupIndex : a.groupIndex ≤ i
  priorityRetry : a.groupIndex = i → a.priorityRetry < r

theorem Before.mono {a : Attempt} {r i' r' : ℕ} (h : Before a i r) (hi : i ≤ i') (hr : i = i' → r ≤ r') :
    Before a i' r' := by
  refine ⟨h.start, h.stay, h.groupIndex.trans hi, ?_⟩
  intro he
  have hle := h.groupIndex
  have hii : i = i' := by omega
  have hlt := h.priorityRetry (by omega)
  exact hlt.trans_le (hr hii)

theorem Before.precedes {a b : Attempt} (h : Before a b.index b.retryIndex) (hstart : b.index ≤ b.groupIndex)
    (hstay : b.groupIndex = b.index → b.priorityRetry = b.retryIndex) : Precedes a b := by
  have ha := h.start
  have hi := h.groupIndex
  refine ⟨ha.trans hi, ?_, hi.trans hstart, ?_⟩
  · intro he
    have hp := h.stay (by omega)
    have hlt := h.priorityRetry (by omega)
    omega
  · intro he
    have hp := hstay (by omega)
    have hlt := h.priorityRetry (by omega)
    omega

structure Begun (cfg : Config) (st : State) : Prop where
  reset : st.resetNextTry = false
  room : st.attempts.length+st.room cfg ≤ cfg.bound
  sorted : st.Sorted
  ordered : st.attempts.Pairwise Precedes
  before : ∀ a ∈ st.attempts, Before a st.index st.retry

structure Bounded (cfg : Config) (r : Report) : Prop where
  attempts : r.state.attempts.length ≤ cfg.bound
  sorted : r.state.Sorted
  ordered : r.state.attempts.Pairwise Precedes

section
variable (h : Moved cfg st st' c)
include h

theorem Moved.next (round : Round) (a : Attempt) :
    ((st'.attempted round a).increaseRetry.index = c.groupIndex ∧
        (st'.attempted round a).increaseRetry.retry = c.priorityRetry+1 ∨
      cfg.auto = true ∧ st.channelMeta = true ∧ (st'.attempted round a).increaseRetry.index = c.groupIndex+1 ∧
        (st'.attempted round a).increaseRetry.retry = 0) ∧
          (st'.attempted round a).increaseRetry.resetNextTry = false ∧
    (st'.attempted round a).increaseRetry.indexes = st'.indexes ∧
    (st'.attempted round a).increaseRetry.attempts = st.attempts ++ [a] ∧
    (st'.attempted round a).increaseRetry.channelMeta = (st.channelMeta || round.initialises) := by
  have hat := h.attempts
  have hmeta := h.channelMeta
  rcases h.place with ⟨hi, hr, hf⟩ | ⟨hauto, hm, hi, hr, hf⟩
  · have hinc : (st'.attempted round a).increaseRetry = { st'.attempted round a with retry := st'.retry+1 } := by
      simp only [State.increaseRetry, State.attempted, hf, Bool.false_eq_true, if_false]
    rw [hinc]
    refine ⟨.inl ⟨hi, congrArg (·+1) hr⟩, hf, rfl, ?_, ?_⟩
    · exact congrArg (· ++ [a]) hat
    · exact congrArg (· || round.initialises) hmeta
  · have hinc : (st'.attempted round a).increaseRetry = { st'.attempted round a with resetNextTry := false } := by
      simp only [State.increaseRetry, State.attempted, hf, if_true]
    rw [hinc]
    refine ⟨.inr ⟨hauto, hm, hi, hr⟩, rfl, rfl, ?_, ?_⟩
    · exact congrArg (· ++ [a]) hat
    · exact congrArg (· || round.initialises) hmeta

theorem Moved.room_eq :
    st.room cfg = (cfg.groupCount-(st.index+1))*(cfg.retryTimes+1)+(cfg.retryTimes+1-st.retry) := by
  rw [State.room, if_neg]
  intro hfull
  rw [Bool.and_eq_true, Bool.and_eq_true, decide_eq_true_eq] at hfull
  have hlt := h.group (.inl hfull.1)
  have hle := h.start
  omega

theorem Moved.room_lt (hretry : st.retry ≤ cfg.retryTimes) (round : Round) (a : Attempt) :
    (st'.attempted round a).increaseRetry.room cfg < st.room cfg := by
  have hstart := h.start
  obtain ⟨hplace, _, _, _, hmeta⟩ := h.next round a
  rw [h.room_eq]
  -- The groups after the one of the attempt.
  have hgroups (n : ℕ) (hn : n ≤ cfg.groupCount-(st.index+1)) :
      n*(cfg.retryTimes+1) ≤ (cfg.groupCount-(st.index+1))*(cfg.retryTimes+1) :=
    Nat.mul_le_mul_right _ hn
  rcases hplace with ⟨hi, hr⟩ | ⟨hauto, hm, hi, hr⟩
  · rw [State.room, hi, hr]
    split
    · omega
    · rcases Nat.eq_or_lt_of_le hstart with heq | hlt
      · -- The same group, one priority further.
        have hp := h.stay heq.symm
        rw [← heq, hp]
        omega
      · -- A later group, from its first priority on.
        have hp := h.move hlt
        have hcount := h.group (.inr hlt)
        have hle := hgroups (cfg.groupCount-(c.groupIndex+1)+1) (by omega)
        rw [Nat.add_mul, Nat.one_mul] at hle
        rw [hp]
        omega
  · rw [State.room, hi, hr, hmeta, hauto, hm]
    simp only [Bool.true_or, Bool.and_self, Bool.true_and, decide_eq_true_eq]
    split
    · omega
    · next hleft =>
      have hle := hgroups (cfg.groupCount-(c.groupIndex+1+1)+1) (by omega)
      rw [Nat.add_mul, Nat.one_mul] at hle
      omega

theorem Moved.ordered (hb : Begun cfg st) :
    (st.attempts ++ [(⟨c, st.index, st.retry⟩ : Attempt)]).Pairwise Precedes := by
  rw [pairwise_append]
  refine ⟨hb.ordered, pairwise_singleton _ _, ?_⟩
  intro a ha b hb'
  rw [mem_singleton] at hb'
  subst hb'
  have hbefore := hb.before a ha
  exact Before.precedes hbefore h.start h.stay

theorem Moved.begun (hb : Begun cfg st) (hretry : st.retry ≤ cfg.retryTimes) (hsorted : st'.Sorted)
    (round : Round) : Begun cfg (st'.attempted round ⟨c, st.index, st.retry⟩).increaseRetry := by
  have hlt := h.room_lt hretry round ⟨c, st.index, st.retry⟩
  have hroom := hb.room
  obtain ⟨hplace, hreset, hindexes, hattempts, _⟩ := h.next round ⟨c, st.index, st.retry⟩
  have hstart := h.start
  refine ⟨hreset, ?_, ?_, ?_, ?_⟩
  · rw [hattempts, length_append, length_singleton]
    omega
  · rw [State.Sorted, hindexes]
    exact hsorted
  · rw [hattempts]
    exact h.ordered hb
  · intro a ha
    rw [hattempts, mem_append, mem_singleton] at ha
    rcases ha with ha | rfl
    · -- An earlier attempt: the new round begins later than this one did.
      have hold := hb.before a ha
      rcases hplace with ⟨hi, hr⟩ | ⟨_, _, hi, hr⟩
      · apply hold.mono
        · omega
        · intro he
          have hp := h.stay (by omega)
          omega
      · apply hold.mono
        · omega
        · intro he
          omega
    · -- The attempt of this round.
      refine ⟨h.start, h.stay, ?_, ?_⟩
      · rcases hplace with ⟨hi, _⟩ | ⟨_, _, hi, _⟩
        · exact hi.symm.le
        · rw [hi]
          exact Nat.le_succ _
      · intro he
        rcases hplace with ⟨_, hr⟩ | ⟨_, _, hi, _⟩
        · rw [hr]
          exact Nat.lt_succ_self _
        · dsimp only at he
          omega

end

/-- How a round goes: it ends the loop, without an attempt or with one, or the loop goes on. -/
inductive RoundSpec (cfg : Config) (st : State) (round : Round) : State ⊕ Report → Prop
  | exhausted : RoundSpec cfg st round (.inr ⟨st, .exhausted⟩)
  | idle {st' : State} {found : Option Chosen} {ended : Ended} (hretry : st.retry ≤ cfg.retryTimes)
      (hget : getChannel cfg round st = (st', found)) (hended : ended ≠ .served) : RoundSpec cfg st
        round (.inr ⟨st', ended⟩)
  | last {st' : State} {c : Chosen} (hretry : st.retry ≤ cfg.retryTimes)
      (hget : getChannel cfg round st = (st', some c))
      (ended : Ended) : RoundSpec cfg st round (.inr ⟨st'.attempted round ⟨c, st.index, st.retry⟩, ended⟩)
  | next {st' : State} {c : Chosen} (hretry : st.retry ≤ cfg.retryTimes)
      (hget : getChannel cfg round st = (st', some c)) :
      RoundSpec cfg st round (.inl (st'.attempted round ⟨c, st.index, st.retry⟩).increaseRetry)

theorem relayRound_spec (cfg : Config) (st : State) (round : Round) :
    RoundSpec cfg st round (relayRound cfg st round) := by
  rw [relayRound]
  split
  · exact .exhausted
  · next hretry =>
    split
    · next hget => exact .idle (not_lt.mp hretry) hget nofun
    · next hget =>
      split
      · exact .idle (not_lt.mp hretry) hget nofun
      · dsimp only
        split
        · exact .last (not_lt.mp hretry) hget _
        · split
          · exact .next (not_lt.mp hretry) hget
          · exact .last (not_lt.mp hretry) hget _

theorem relayRound_begun (hb : Begun cfg st)
    (h : relayRound cfg st round = .inl st') : Begun cfg st' ∧ st'.room cfg < st.room cfg := by
  have hsorted := getChannel_sorted cfg round hb.sorted
  cases h ▸ relayRound_spec cfg st round with
  | next hretry hget =>
    rw [hget] at hsorted
    have hmoved := getChannel_moved hb.reset hget
    exact ⟨hmoved.begun hb hretry hsorted round, hmoved.room_lt hretry round _⟩

theorem relayRound_bounded {r : Report} (hb : Begun cfg st) (h : relayRound cfg st round = .inr r) : Bounded cfg r := by
  have hroom := hb.room
  have hsorted := getChannel_sorted cfg round hb.sorted
  have hattempts := getChannel_attempts cfg round st
  cases h ▸ relayRound_spec cfg st round with
  | exhausted => exact ⟨(Nat.le_add_right _ _).trans hroom, hb.sorted, hb.ordered⟩
  | idle _ hget =>
    rw [hget] at hsorted hattempts
    refine ⟨?_, hsorted, ?_⟩
    · rw [hattempts]
      omega
    · rw [hattempts]
      exact hb.ordered
  | last hretry hget =>
    rw [hget] at hsorted hattempts
    have hmoved := getChannel_moved hb.reset hget
    have heq := hmoved.room_eq
    refine ⟨?_, hsorted, ?_⟩
    · rw [State.attempted, hattempts, length_append, length_singleton]
      omega
    · rw [State.attempted, hattempts]
      exact hmoved.ordered hb

theorem begin_begun (cfg : Config) (autoGroup : Option String) (index : Option ℕ) (channelMeta : Bool)
    (info : RelayInfo) :
    Begun cfg (State.begin autoGroup index channelMeta info) := by
  refine ⟨rfl, ?_, ?_, List.Pairwise.nil, ?_⟩
  · change 0+(State.begin autoGroup index channelMeta info).room cfg ≤ cfg.bound
    rw [State.room, Config.bound]
    split
    · exact Nat.zero_le _
    · have hgroups : cfg.groupCount-((State.begin autoGroup index channelMeta info).index+1)+1 ≤
        max 1 cfg.groupCount := by
        omega
      have hle := Nat.mul_le_mul_right (cfg.retryTimes+1) hgroups
      rw [Nat.add_mul, Nat.one_mul, Nat.mul_comm (max 1 cfg.groupCount)] at hle
      omega
  · cases index with
    | none => exact List.Pairwise.nil
    | some => exact pairwise_singleton _ _
  · nofun

/-- The loop ends after at most `(R+1) * max(1, G)` attempts, and of two attempts the later one is at a later group,
or at the same one with a larger counter. -/
theorem relay_retries_bounded (cfg : Config) (rounds : ℕ → Round) (autoGroup : Option String) (index : Option ℕ)
    (channelMeta : Bool) (info : RelayInfo) : ∃ report, (∀ fuel, (cfg.retryTimes+1)*max 1 cfg.groupCount < fuel →
        relay cfg fuel rounds (State.begin autoGroup index channelMeta info) = some report) ∧
      report.state.attempts.length ≤ (cfg.retryTimes+1)*max 1 cfg.groupCount ∧
      report.state.indexes.Pairwise (· ≥ ·) ∧
      report.state.attempts.Pairwise Precedes := by
  have hbegun := begin_begun cfg autoGroup index channelMeta info
  obtain ⟨report, hpost, hrun⟩ := Loop.run_ends (Begun cfg) (State.room cfg) (Bounded cfg)
    (fun _ _ _ hs h => relayRound_begun hs h) (fun _ _ _ hs h => relayRound_bounded hs h) _ hbegun rounds
  refine ⟨report, ?_, hpost.attempts, hpost.sorted, hpost.ordered⟩
  intro fuel hf
  apply hrun
  have hroom : 0+(State.begin autoGroup index channelMeta info).room cfg ≤ (cfg.retryTimes+1)*max 1 cfg.groupCount :=
    hbegun.room
  omega

end AiGateway.RelayLoop
