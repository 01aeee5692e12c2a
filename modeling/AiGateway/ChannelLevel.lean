import AiGateway.ChannelCache
import Mathlib.Data.List.Dedup

/-! The choice among some channels as the random number varies: the priority of an attempt, and the
draw by weight among the channels that have it. -/
namespace AiGateway.Channels

open List WeightedPick

section Levels

theorem mem_distinctPriorities {l : List Int} {p : Int} : p ∈ distinctPriorities l ↔ p ∈ l := by
  rw [distinctPriorities, mem_insertionSort, mem_dedup]

theorem distinctPriorities_congr {l l' : List Int} (h : ∀ p, p ∈ l ↔ p ∈ l') :
    distinctPriorities l = distinctPriorities l' := by
  have hdedup : l.dedup.Perm l'.dedup := by
    rw [perm_ext_iff_of_nodup (nodup_dedup l) (nodup_dedup l')]
    intro p
    rw [mem_dedup, mem_dedup, h]
  have hperm : (distinctPriorities l).Perm (distinctPriorities l') :=
    (perm_insertionSort _ _).trans (hdedup.trans (perm_insertionSort _ _).symm)
  exact hperm.eq_of_pairwise' (pairwise_insertionSort _ _) (pairwise_insertionSort _ _)

variable {retry : Int}

theorem priorityFor_mem {priorities : List Int} (hne : priorities ≠ []) (hretry : 0 ≤ retry) :
    ∃ p ∈ priorities, priorityFor priorities retry = some p := by
  have hlength : 0 < priorities.length := length_pos_iff.mpr hne
  have hindex : ∃ n : ℕ, (if retry ≥ priorities.length then (priorities.length : Int)-1 else retry) = n ∧
      n < priorities.length := by
    split
    · exact ⟨priorities.length-1, by omega, by omega⟩
    · exact ⟨retry.toNat, by omega, by omega⟩
  obtain ⟨n, hn, hlt⟩ := hindex
  refine ⟨priorities[n], getElem_mem hlt, ?_⟩
  simp only [priorityFor, hn]
  rw [if_neg (by omega), Int.toNat_natCast, getElem?_eq_getElem hlt]

theorem priorityFor_nil (hretry : 0 ≤ retry) : priorityFor [] retry = none := by
  simp [priorityFor, hretry]

theorem priorityFor_zero (l : List Int) : priorityFor (distinctPriorities l) 0 = l.max? := by
  cases hd : distinctPriorities l with
  | nil =>
    have hl : l = [] := by
      rw [eq_nil_iff_forall_not_mem]
      intro p hp
      have hin := mem_distinctPriorities.mpr hp
      rw [hd] at hin
      cases hin
    rw [hl, priorityFor_nil (le_refl 0), max?_nil]
  | cons p ps =>
    have hsorted : (p :: ps).Pairwise (· ≥ ·) := hd ▸ pairwise_insertionSort _ _
    have hmax : l.max? = some p := by
      rw [max?_eq_some_iff]
      refine ⟨mem_distinctPriorities.mp (hd ▸ mem_cons_self), ?_⟩
      intro q hq
      have hin : q ∈ p :: ps := hd ▸ mem_distinctPriorities.mpr hq
      rcases mem_cons.mp hin with rfl | hin
      · exact le_refl q
      · exact (pairwise_cons.mp hsorted).1 q hin
    rw [hmax, priorityFor, if_neg]
    · rfl
    · rw [length_cons]
      push_cast
      omega

def level (cs : List Channel) (retry : Int) : Option Int :=
  priorityFor (distinctPriorities (cs.map Channel.getPriority)) retry

variable {cs : List Channel}

theorem priorityFor_eq_level :
    priorityFor (distinctPriorities (cs.map Channel.getPriority)) retry = level cs retry := rfl

theorem level_mem (hne : cs ≠ []) (hretry : 0 ≤ retry) : ∃ c ∈ cs, level cs retry = some c.getPriority := by
  have hpriorities : distinctPriorities (cs.map Channel.getPriority) ≠ [] := by
    obtain ⟨c, hc⟩ := exists_mem_of_ne_nil cs hne
    exact ne_nil_of_mem (mem_distinctPriorities.mpr (mem_map_of_mem hc))
  obtain ⟨p, hp, hlevel⟩ := priorityFor_mem hpriorities hretry
  obtain ⟨c, hc, rfl⟩ := mem_map.mp (mem_distinctPriorities.mp hp)
  exact ⟨c, hc, hlevel⟩

theorem level_congr {α : Type} {l : List α} {priority : α → Int}
    (h : ∀ p, p ∈ l.map priority ↔ p ∈ cs.map Channel.getPriority) :
    priorityFor (distinctPriorities (l.map priority)) retry = level cs retry := by
  rw [level, distinctPriorities_congr h]

end Levels

section Weights

/-- A channel without a weight is drawn only if no channel beside it has one. -/
def Drawable (targets : List Channel) (c : Channel) : Prop :=
  c.getWeight = 0 → ∀ c' ∈ targets, c'.getWeight = 0

variable {targets : List Channel}

theorem totalWeight_smoothing :
    (smoothing (WeightedPick.total Channel.getWeight targets) targets.length).totalWeight =
      WeightedPick.total (smoothing (WeightedPick.total Channel.getWeight targets) targets.length).weight targets := by
  have haffine (s : Smoothing) : total s.weight targets =
      total Channel.getWeight targets*s.smoothingFactor+targets.length*s.smoothingAdjustment :=
    total_affine s.smoothingFactor s.smoothingAdjustment
  rw [haffine, Smoothing.totalWeight]
  simp only [smoothing]
  split
  · next hzero =>
    dsimp only
    omega
  · split
    · dsimp only
      omega
    · dsimp only
      omega

variable {c : Channel}

theorem smoothing_weight_pos :
    0 < (smoothing (WeightedPick.total Channel.getWeight targets) targets.length).weight c ↔ Drawable targets c := by
  rw [Drawable, ← total_eq_zero]
  simp only [smoothing]
  split
  · next hzero => simp [Smoothing.weight, hzero]
  · next hzero =>
    simp only [hzero, imp_false]
    split
    · simp only [Smoothing.weight]
      omega
    · simp only [Smoothing.weight]
      omega

theorem exists_chooseByWeight :
    (∃ r, chooseByWeight targets r = some c) ↔ c ∈ targets ∧ Drawable targets c := by
  simp only [chooseByWeight, totalWeight_smoothing]
  rw [← smoothing_weight_pos]
  constructor
  · rintro ⟨r, hr⟩
    exact ⟨pick_mem hr, pick_pos (Int.natCast_nonneg _) hr⟩
  · rintro ⟨hc, hw⟩
    obtain ⟨r, hlt, hr⟩ := exists_pick (fun w => w < 0) (d := 0) (fun n => decide_eq_false (by omega))
      (decide_eq_true (by omega)) hw hc
    refine ⟨r, ?_⟩
    rw [Nat.mod_eq_of_lt hlt]
    exact hr

theorem chooseByWeight_single (r : ℕ) : chooseByWeight [c] r = some c := by
  have hpos : Drawable [c] c := by
    intro hzero c' hc'
    rw [mem_singleton.mp hc']
    exact hzero
  rw [← smoothing_weight_pos] at hpos
  simp only [chooseByWeight, totalWeight_smoothing]
  rw [pick, if_pos]
  apply decide_eq_true
  have hsum : total (smoothing (total Channel.getWeight [c]) [c].length).weight [c] =
      (smoothing (total Channel.getWeight [c]) [c].length).weight c := by
    rw [total_cons, total_nil, Nat.add_zero]
  rw [hsum]
  have hlt := Nat.mod_lt r hpos
  omega

variable {group model : String}

theorem exists_chooseByPriority {cs : List Channel} {retry : Int} :
    (∃ r, chooseByPriority group model cs retry r = .found c) ↔
      c ∈ cs ∧ level cs retry = some c.getPriority ∧
        Drawable (cs.filter (fun c' => c'.getPriority = c.getPriority)) c := by
  cases hlevel : level cs retry with
  | none => simp only [chooseByPriority, priorityFor_eq_level, hlevel, reduceCtorEq, exists_false, false_and, and_false]
  | some target =>
    simp only [chooseByPriority, priorityFor_eq_level, hlevel]
    cases htargets : cs.filter (fun c' => c'.getPriority = target) with
    | nil =>
      constructor
      · rintro ⟨r, hr⟩
        cases hr
      · rintro ⟨hc, htarget, _⟩
        obtain rfl := Option.some.inj htarget
        have hin : c ∈ cs.filter (fun c' => c'.getPriority = c.getPriority) :=
          mem_filter.mpr ⟨hc, decide_eq_true rfl⟩
        rw [htargets] at hin
        cases hin
    | cons t ts =>
      have hchoose : (∃ r, chooseByWeight (t :: ts) r = some c) ↔
          c ∈ cs ∧ c.getPriority = target ∧ Drawable (t :: ts) c := by
        rw [exists_chooseByWeight, ← htargets, mem_filter, decide_eq_true_eq, and_assoc]
      constructor
      · rintro ⟨r, hr⟩
        dsimp only at hr
        split at hr
        · next chosen hchosen =>
          cases hr
          obtain ⟨hc, rfl, hdraw⟩ := hchoose.mp ⟨r, hchosen⟩
          exact ⟨hc, rfl, htargets ▸ hdraw⟩
        · cases hr
      · rintro ⟨hc, htarget, hdraw⟩
        obtain rfl := Option.some.inj htarget
        obtain ⟨r, hr⟩ := hchoose.mpr ⟨hc, rfl, htargets ▸ hdraw⟩
        refine ⟨r, ?_⟩
        simp only [hr]

theorem chooseByPriority_single {retry : Int} (hretry : 0 ≤ retry) (r : ℕ) :
    chooseByPriority group model [c] retry r = .found c := by
  obtain ⟨c', hc', hlevel⟩ := level_mem (cons_ne_nil c []) hretry
  rw [mem_singleton.mp hc'] at hlevel
  have htargets : [c].filter (fun c' => c'.getPriority = c.getPriority) = [c] := by
    rw [filter_cons_of_pos (by simp), filter_nil]
  simp only [chooseByPriority, priorityFor_eq_level, hlevel, htargets, chooseByWeight_single]

def Cache.requestIds (cache : Cache) (group model requestPath : String) : List Int :=
  if cache.candidates group model requestPath = [] then
    cache.candidates group (formatMatchingModelName model) requestPath
  else cache.candidates group model requestPath

/-- The choice is made by priority among the channels of the ids. A single one is returned at once,
which is what the choice by priority would do. -/
theorem Cache.getRandomSatisfiedChannel_eq {cache : Cache} {requestPath : String} {retry : Int}
    (hretry : 0 ≤ retry) (hsome : ∀ id ∈ cache.requestIds group model requestPath, ∃ c,
      cache.channelsIDM id = some c)
    {channels : List Channel}
    (hchannels : channels = (cache.requestIds group model requestPath).filterMap cache.channelsIDM)
    (r : ℕ) : cache.getRandomSatisfiedChannel group model retry requestPath r =
      if channels = [] then .noChannel else chooseByPriority group model channels retry r := by
  subst hchannels
  simp only [getRandomSatisfiedChannel]
  rw [← requestIds]
  generalize cache.requestIds group model requestPath = ids at hsome ⊢
  rcases ids with _ | ⟨id, _ | ⟨id', ids⟩⟩
  · rfl
  · obtain ⟨c, hc⟩ := hsome id mem_cons_self
    have hchannels : [id].filterMap cache.channelsIDM = [c] := by
      rw [filterMap_cons_some hc, filterMap_nil]
    simp only [hc, hchannels, cons_ne_nil, if_false, chooseByPriority_single hretry r]
  · have hnone : (id :: id' :: ids).find? (fun i => (cache.channelsIDM i).isNone) = none := by
      rw [find?_eq_none]
      intro i hi hisNone
      obtain ⟨_, hc⟩ := hsome i hi
      rw [hc] at hisNone
      cases hisNone
    obtain ⟨_, hc⟩ := hsome id mem_cons_self
    have hne : (id :: id' :: ids).filterMap cache.channelsIDM ≠ [] := by
      rw [filterMap_cons_some hc]
      exact cons_ne_nil _ _
    simp only [hnone, if_neg hne]

theorem chooseByPriority_ne_noChannel (cs : List Channel) (retry : Int) (r : ℕ) :
    chooseByPriority group model cs retry r ≠ .noChannel := by
  intro h
  rw [chooseByPriority] at h
  repeat' split at h
  all_goals cases h

end Weights

end AiGateway.Channels
