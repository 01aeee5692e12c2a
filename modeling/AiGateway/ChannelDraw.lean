import AiGateway.ChannelQuery

/-! The draw by weight as a whole: how many of the draws give each of the channels that the memory
cache, or the tables, have for a request at the priority of the attempt. The sums of the weights are
64-bit integers here. -/
namespace AiGateway.Channels

open List WeightedPick Option

namespace Cache

/-- `targetChannels`. There are none when an id is missing in the map, which is an error. -/
def targetChannels (cache : Cache) (group model : String) (retry : Int) (requestPath : String) : List Channel :=
  let ids := cache.requestIds group model requestPath
  if ids.any (fun id => (cache.channelsIDM id).isNone) then []
  else
    let channels := ids.filterMap cache.channelsIDM
    match level channels retry with
    | none => []
    | some targetPriority => channels.filter (fun c => c.getPriority = targetPriority)

end Cache

def smoothingOf (targets : List Channel) : Smoothing :=
  smoothing (total Channel.getWeight targets) targets.length

theorem chooseByWeight_smoothingOf (targets : List Channel) (r : ℕ) :
    chooseByWeight targets r =
      pick (fun w => w < 0) (smoothingOf targets).weight targets ((r%(smoothingOf targets).totalWeight : ℕ) : Int) :=
  rfl

theorem totalWeight_smoothingOf (targets : List Channel) :
    (smoothingOf targets).totalWeight = total (smoothingOf targets).weight targets :=
  totalWeight_smoothing

variable {targets : List Channel}

theorem smoothing_uniform (hzero : ∀ c ∈ targets, c.getWeight = 0) :
    smoothingOf targets = ⟨1, 100, targets.length*100⟩ := by
  rw [smoothingOf, smoothing, if_pos (total_eq_zero.mpr hzero)]

theorem smoothing_proportional (hpos : ∃ c ∈ targets, 0 < c.getWeight) :
    0 < (smoothingOf targets).smoothingFactor ∧ (smoothingOf targets).smoothingAdjustment = 0 := by
  have hsum : total Channel.getWeight targets ≠ 0 := by
    intro hzero
    obtain ⟨c, hc, hw⟩ := hpos
    exact hw.ne' (total_eq_zero.mp hzero c hc)
  rw [smoothingOf, smoothing, if_neg hsum]
  split
  · exact ⟨Nat.zero_lt_succ 99, rfl⟩
  · exact ⟨Nat.one_pos, rfl⟩

theorem totalWeight_pos (hne : targets ≠ []) : 0 < (smoothingOf targets).totalWeight := by
  by_cases hzero : ∀ c ∈ targets, c.getWeight = 0
  · have hlength : 0 < targets.length := length_pos_iff.mpr hne
    rw [smoothing_uniform hzero]
    change 0 < targets.length*100*1
    omega
  · push Not at hzero
    obtain ⟨c, hc, hw⟩ := hzero
    have hweight : 0 < (smoothingOf targets).weight c := by
      rw [smoothingOf, smoothing_weight_pos, Drawable]
      exact fun hzero => absurd hzero hw
    rw [totalWeight_smoothingOf]
    apply Nat.pos_of_ne_zero
    intro htotal
    exact hweight.ne' (total_eq_zero.mp htotal c hc)

theorem chooseByWeight_isSome (hne : targets ≠ []) (r : ℕ) :
    ∃ c ∈ targets, chooseByWeight targets r = some c := by
  have hlt : ((r%(smoothingOf targets).totalWeight : ℕ) : Int) < total (smoothingOf targets).weight targets := by
    rw [← totalWeight_smoothingOf]
    exact_mod_cast Nat.mod_lt r (totalWeight_pos hne)
  have hsome : ∃ c, pick (fun w => decide (w < 0)) (smoothingOf targets).weight targets
      ((r%(smoothingOf targets).totalWeight : ℕ) : Int) = some c :=
    pick_isSome (fun w hw => decide_eq_true hw) hlt hne
  obtain ⟨c, hc⟩ := hsome
  exact ⟨c, pick_mem hc, hc⟩

theorem countP_chooseByWeight (targets : List Channel) (c : Channel) :
    (range (smoothingOf targets).totalWeight).countP (fun r => chooseByWeight targets r = some c) =
      targets.count c*(smoothingOf targets).weight c := by
  rw [← countP_pick, ← totalWeight_smoothingOf]
  apply countP_congr
  intro r hr
  rw [chooseByWeight_smoothingOf, Nat.mod_eq_of_lt (mem_range.mp hr)]

section Wrap

/-- `smoothing` with the integers of the source. Sums and products wrap as a whole, so they are
wrapped here where the source looks at them. -/
def smoothingInt (targets : List Channel) : Smoothing :=
  let sumWeight := total Channel.getWeight targets
  if wrap sumWeight = 0 then ⟨1, 100, targets.length*100⟩
  else if (wrap sumWeight).tdiv targets.length < 10 then ⟨100, 0, sumWeight⟩
  else ⟨1, 0, sumWeight⟩

/-- `GetRandomSatisfiedChannel` from the sum of the weights on, with the integers of the source. -/
def drawInt (targets : List Channel) (r : ℕ) : Selection :=
  let s := smoothingInt targets
  let totalWeight := wrap s.totalWeight
  -- `rand.Intn` takes a positive bound only
  if totalWeight ≤ 0 then .panicked
  else
    match pickInt (fun w => w < 0) s.weight targets (r%totalWeight) with
    | some c => .found c
    | none => .error "channel not found"

/-- `GetRandomSatisfiedChannel` with the integers of the source. They do not matter when nothing is
drawn: for an only candidate, or without a channel to draw from. -/
def Cache.getRandomSatisfiedChannelInt (cache : Cache) (group model : String) (retry : Int) (requestPath : String)
    (r : ℕ) : Selection :=
  match cache.requestIds group model requestPath, cache.targetChannels group model retry requestPath with
  | _ :: _ :: _, c :: targets => drawInt (c :: targets) r
  | _, _ => cache.getRandomSatisfiedChannel group model retry requestPath r

theorem smoothingInt_eq (hfit : total Channel.getWeight targets < 2^63) :
    smoothingInt targets = smoothingOf targets := by
  have hdiv : ((total Channel.getWeight targets : Int).tdiv targets.length < 10) =
      (total Channel.getWeight targets/targets.length < 10) := by
    rw [← Int.ofNat_tdiv]
    exact propext (by omega)
  simp only [smoothingInt, smoothingOf, smoothing, wrap_eq (n := total Channel.getWeight targets) (by omega) (by omega),
    Int.natCast_eq_zero, hdiv]

/-- Only weights below ten on average are scaled, so the total fits when their sum does. -/
theorem totalWeight_fits (hfit : total Channel.getWeight targets < 2^63) (hlength : targets.length*1000 < 2^63)
    (hne : targets ≠ []) : (smoothingOf targets).totalWeight < 2^63 := by
  rw [smoothingOf, Smoothing.totalWeight, smoothing]
  split
  · change targets.length*100*1 < 2^63
    omega
  · split
    · next hless =>
      have hsum := (Nat.div_lt_iff_lt_mul (length_pos_iff.mpr hne)).mp hless
      change total Channel.getWeight targets*100 < 2^63
      omega
    · change total Channel.getWeight targets*1 < 2^63
      omega

theorem drawInt_eq (hfit : total Channel.getWeight targets < 2^63) (hlength : targets.length*1000 < 2^63)
    (hne : targets ≠ []) {r : ℕ} {c : Channel} (hc : chooseByWeight targets r = some c) :
    drawInt targets r = .found c := by
  have hpos := totalWeight_pos hne
  have htotal := totalWeight_fits hfit hlength hne
  have hmod := Nat.mod_lt r hpos
  have hpick : pickInt (fun w => decide (w < 0)) (smoothingOf targets).weight targets
      ((r : Int)%(smoothingOf targets).totalWeight) = some c := by
    rw [← hc, chooseByWeight_smoothingOf, ← Int.natCast_mod]
    exact pickInt_eq (fun w hw => decide_eq_true hw) (totalWeight_smoothingOf targets ▸ htotal) (by omega)
  simp only [drawInt, smoothingInt_eq hfit]
  rw [wrap_eq (by omega) (by omega), if_neg (by omega), hpick]

section Choice

variable {cache : Cache} {group model requestPath : String} {retry : ℕ}
  (hne : cache.targetChannels group model retry requestPath ≠ [])

include hne

theorem getRandomSatisfiedChannelInt_only (hids : (cache.requestIds group model requestPath).length = 1) (r : ℕ) :
    ∃ c ∈ cache.targetChannels group model retry requestPath,
      cache.getRandomSatisfiedChannelInt group model retry requestPath r = .found c := by
  obtain ⟨id, hid⟩ := length_eq_one_iff.mp hids
  obtain ⟨c, hc⟩ := exists_mem_of_ne_nil _ hne
  refine ⟨c, hc, ?_⟩
  have hfound : cache.channelsIDM id = some c := by
    simp only [Cache.targetChannels, hid] at hc
    split at hc
    · cases hc
    · split at hc
      · cases hc
      · simpa using (mem_filter.mp hc).1
  rw [Cache.getRandomSatisfiedChannelInt, hid]
  simp only [Cache.getRandomSatisfiedChannel]
  rw [← Cache.requestIds, hid]
  simp only [hfound]

theorem getRandomSatisfiedChannelInt_draw (hids : 1 < (cache.requestIds group model requestPath).length) (r : ℕ) :
    cache.getRandomSatisfiedChannelInt group model retry requestPath r =
      drawInt (cache.targetChannels group model retry requestPath) r := by
  rw [Cache.getRandomSatisfiedChannelInt]
  split
  · next htargets => rw [htargets]
  · next hother =>
    obtain ⟨c, targets, htargets⟩ := exists_cons_of_ne_nil hne
    obtain ⟨id, ids, hcons⟩ := exists_cons_of_length_pos (Nat.zero_lt_of_lt hids)
    rw [hcons] at hids
    obtain ⟨id', ids', hrest⟩ := exists_cons_of_length_pos (Nat.lt_of_succ_lt_succ hids)
    exact absurd htargets (hother id id' ids' c targets (hrest ▸ hcons))

end Choice

theorem total_le_weight (targets : List Channel) :
    total Channel.getWeight targets ≤ total (smoothingInt targets).weight targets := by
  have hfactor : 1 ≤ (smoothingInt targets).smoothingFactor := by
    rw [smoothingInt]
    split
    · exact le_rfl
    · split
      · exact Nat.le_of_ble_eq_true rfl
      · exact le_rfl
  apply sum_le_sum
  intro c _
  rw [Smoothing.weight]
  have hscaled := Nat.le_mul_of_pos_right c.getWeight hfactor
  omega

/-- An only candidate is given without a draw. Else the draw in memory is exact whenever the sum of
the weights fits: it is positive, there is always a channel, every occurrence of a channel is chosen
by as many draws as its effective weight, and these are equal without weights and else proportional
to the weights. -/
theorem draws_exact_iff (cache : Cache) (group model requestPath : String) (retry : ℕ) {targets : List Channel}
    {s : Smoothing} (totalWeight : Int) (htargets : targets = cache.targetChannels group model retry requestPath)
    (hs : s = smoothingInt targets) (htotal : totalWeight = wrap s.totalWeight) (hne : targets ≠ [])
    (hlength : targets.length*1000 < 2^63) :
    ((cache.requestIds group model requestPath).length = 1 →
      ∀ r, ∃ c ∈ targets, cache.getRandomSatisfiedChannelInt group model retry requestPath r = .found c) ∧
    (1 < (cache.requestIds group model requestPath).length →
      ((0 < totalWeight ∧
        (∀ r : ℕ, r < totalWeight →
          ∃ c ∈ targets, cache.getRandomSatisfiedChannelInt group model retry requestPath r = .found c) ∧
        (∀ c ∈ targets, (range totalWeight.toNat).countP
            (fun r => cache.getRandomSatisfiedChannelInt group model retry requestPath r = .found c) =
          targets.count c*(c.getWeight*s.smoothingFactor+s.smoothingAdjustment)) ∧
        ((∀ c ∈ targets, c.getWeight = 0) → s.smoothingAdjustment = 100 ∧ totalWeight = targets.length*100) ∧
        ((∃ c ∈ targets, 0 < c.getWeight) → 0 < s.smoothingFactor ∧ s.smoothingAdjustment = 0 ∧
          totalWeight = total Channel.getWeight targets*s.smoothingFactor)) ↔
        total Channel.getWeight targets < 2^63)) := by
  refine ⟨?_, fun hids => ⟨?_, ?_⟩⟩
  · subst htargets
    exact getRandomSatisfiedChannelInt_only hne
  · -- the draws of the channels add up to the sum of their effective weights, which is too large
    rintro ⟨_, _, hcount, _, _⟩
    have hinj : Set.InjOn Selection.found targets.toFinset := fun _ _ _ _ h => Selection.found.inj h
    have hshare := sum_countP_le hinj
      (fun r => cache.getRandomSatisfiedChannelInt group model retry requestPath r) totalWeight.toNat
    have hsum : total s.weight targets = ∑ c ∈ targets.toFinset, targets.count c*s.weight c := by
      rw [total, Finset.sum_list_map_count]
      simp only [Nat.nsmul_eq_mul]
    have hcounts : ∑ c ∈ targets.toFinset, targets.count c*s.weight c ≤ totalWeight.toNat := by
      refine le_of_eq_of_le (Finset.sum_congr rfl ?_) hshare
      intro c hc
      exact (hcount c (List.mem_toFinset.mp hc)).symm
    have hweights : total Channel.getWeight targets ≤ total s.weight targets := hs ▸ total_le_weight targets
    have hlt := wrap_lt s.totalWeight
    omega
  · intro hfit
    obtain rfl : s = smoothingOf targets := hs.trans (smoothingInt_eq hfit)
    have hfits := totalWeight_fits hfit hlength hne
    have hpositive := totalWeight_pos hne
    obtain rfl : totalWeight = (smoothingOf targets).totalWeight := htotal.trans (wrap_eq (by omega) (by omega))
    have hdraw (r : ℕ) : ∃ c ∈ targets, chooseByWeight targets r = some c ∧
        cache.getRandomSatisfiedChannelInt group model retry requestPath r = .found c := by
      obtain ⟨c, hc, hchosen⟩ := chooseByWeight_isSome hne r
      refine ⟨c, hc, hchosen, ?_⟩
      rw [← drawInt_eq hfit hlength hne hchosen, htargets]
      exact getRandomSatisfiedChannelInt_draw (htargets ▸ hne) hids r
    refine ⟨Int.ofNat_lt.mpr hpositive, ?_, ?_, ?_, ?_⟩
    · intro r _
      obtain ⟨c, hc, _, hfound⟩ := hdraw r
      exact ⟨c, hc, hfound⟩
    · intro c _
      rw [Int.toNat_natCast, ← Smoothing.weight, ← countP_chooseByWeight]
      apply countP_congr
      intro r _
      obtain ⟨_, _, hchosen, hfound⟩ := hdraw r
      rw [hchosen, hfound, decide_eq_true_eq, decide_eq_true_eq, Selection.found.injEq, some.injEq]
    · intro hzero
      rw [smoothing_uniform hzero]
      exact ⟨rfl, congrArg Nat.cast (Nat.mul_one _)⟩
    · intro hpos
      obtain ⟨hfactor, hadjust⟩ := smoothing_proportional hpos
      have haffine : total (smoothingOf targets).weight targets = _ :=
        total_affine (smoothingOf targets).smoothingFactor (smoothingOf targets).smoothingAdjustment
      refine ⟨hfactor, hadjust, ?_⟩
      rw [totalWeight_smoothingOf, haffine, hadjust, Nat.mul_zero, Nat.add_zero, Nat.cast_mul]

def weighted (id : Int) (weight : ℕ) : Channel := { id := id, weight := some weight }

def weightedCache (first second : ℕ) : Cache where
  group2model2channels := fun _ => some (fun _ => [1, 2])
  channelsIDM := fun id => some (weighted id (if id = 1 then first else second))
  channel2advancedCustomConfig := []
  generation := 1

theorem draws_exact_iff_sample :
    (weightedCache 3 1).targetChannels "default" "gpt" 0 "" = [weighted 1 3, weighted 2 1] ∧
    (range 400).countP (fun r => (weightedCache 3 1).getRandomSatisfiedChannelInt "default" "gpt" 0 "" r =
      .found (weighted 1 3)) = 300 := by
  have htargets : [weighted 1 3, weighted 2 1] = (weightedCache 3 1).targetChannels "default" "gpt" 0 "" := by decide
  have hfit : total Channel.getWeight [weighted 1 3, weighted 2 1] < 2^63 := by decide +kernel
  have hexact := draws_exact_iff (weightedCache 3 1) "default" "gpt" "" 0 400 htargets (smoothingInt_eq hfit).symm
    (by decide +kernel) (cons_ne_nil _ _) (by decide +kernel)
  exact ⟨htargets.symm, ((hexact.2 (by decide)).mpr hfit).2.2.1 (weighted 1 3) mem_cons_self⟩

/-- Two weights of `2^62` wrap to a total of zero. -/
theorem heavy_channels_panic :
    (weightedCache (2^62) (2^62)).targetChannels "default" "gpt" 0 "" = [weighted 1 (2^62), weighted 2 (2^62)] ∧
      ∀ r, (weightedCache (2^62) (2^62)).getRandomSatisfiedChannelInt "default" "gpt" 0 "" r = .panicked := by
  have hids : (weightedCache (2^62) (2^62)).requestIds "default" "gpt" "" = [1, 2] := rfl
  have htargets : (weightedCache (2^62) (2^62)).targetChannels "default" "gpt" 0 "" =
      [weighted 1 (2^62), weighted 2 (2^62)] := by decide
  have hzero : wrap (smoothingInt [weighted 1 (2^62), weighted 2 (2^62)]).totalWeight = 0 := by decide +kernel
  refine ⟨htargets, ?_⟩
  intro r
  rw [Cache.getRandomSatisfiedChannelInt, hids, htargets]
  dsimp only
  rw [drawInt, hzero]
  rfl

end Wrap

section Database

variable {env : Env} {db : Db} {group model requestPath : String} {retry : Int}

/-- `GetChannel` with the integers of the source: `weightSum` is unsigned and converted for the draw. -/
def Db.getChannelInt (env : Env) (db : Db) (group model : String) (retry : Int) (requestPath : String) (r : ℕ) :
    Selection :=
  match db.drawnAbilities env group model retry requestPath with
  | [] => db.getChannel env group model retry requestPath r
  | a :: abilities =>
    let weightSum := wrap (total (fun a => a.weight+10) (a :: abilities))
    if weightSum ≤ 0 then .panicked
    else db.firstChannel (pickInt (fun w => w ≤ 0) (fun a => a.weight+10) (a :: abilities) (r%weightSum))

theorem getChannelInt_eq
    (hfit : total (fun a => a.weight+10) (db.drawnAbilities env group model retry requestPath) < 2^63) :
    db.getChannelInt env group model retry requestPath = db.getChannel env group model retry requestPath := by
  funext r
  rw [Db.getChannelInt]
  split
  · rfl
  · next a abilities hdrawn =>
    rw [hdrawn] at hfit
    have hpos : 0 < total (fun a => a.weight+10) (a :: abilities) := by
      rw [total_cons]
      omega
    have hmod := Nat.mod_lt r hpos
    have hstop (w : Int) (hw : w < 0) : decide (w ≤ 0) = true := decide_eq_true (le_of_lt hw)
    dsimp only
    rw [wrap_eq (by omega) (by omega), if_neg (by omega), ← Int.natCast_mod, pickInt_eq hstop hfit (by omega)]
    rw [Db.drawnAbilities] at hdrawn
    split at hdrawn
    · cases hdrawn
    · next hquery =>
      simp only [Db.getChannel, hquery, hdrawn]

/-- The first ability also has the draw at which the loop reaches zero. -/
theorem countP_first {a : Ability} {abilities : List Ability}
    (h : a :: abilities = db.drawnAbilities env group model retry requestPath) {c : Channel}
    (hc : db.channels.find a.channelId = some c) {k : ℕ} (hk : k ≤ a.weight+11)
    (hle : k ≤ total (fun a => a.weight+10) (a :: abilities)) :
    (range k).countP (fun r => db.getChannel env group model retry requestPath r = .found c) = k := by
  rw [countP_eq_length.mpr, length_range]
  intro r hr
  rw [mem_range] at hr
  obtain ⟨b, hb, hget⟩ := getChannel_spec h (cons_ne_nil _ _) r
  rw [Nat.mod_eq_of_lt (by omega)] at hb
  obtain rfl := some.inj (hb.symm.trans (pick_head_of_le (by omega)))
  exact decide_eq_true (hget c hc)

/-- The draw from the tables, of a sum that fits, is exact for a single ability only: the loop stops
at zero already, so the first of several has a draw more than its weight. -/
theorem database_draws_exact_iff (env : Env) (db : Db) (group model : String) (retry : Int) (requestPath : String)
    {abilities : List Ability} (hdrawn : abilities = db.drawnAbilities env group model retry requestPath)
    {weightSum : ℕ} (hsum : weightSum = total (fun a => a.weight+10) abilities) (hfit : weightSum < 2^63) :
    (∀ a ∈ abilities, ∃ c, db.channels.find a.channelId = some c ∧ (range weightSum).countP
        (fun r => db.getChannelInt env group model retry requestPath r = .found c) = a.weight+10) ↔
      abilities = [] ∨ ∃ a c, abilities = [a] ∧ db.channels.find a.channelId = some c := by
  rw [getChannelInt_eq (by rw [← hdrawn, ← hsum]; exact hfit)]
  constructor
  · intro hexact
    cases abilities with
    | nil => exact .inl rfl
    | cons a abilities =>
      obtain ⟨c, hc, hcount⟩ := hexact a mem_cons_self
      cases abilities with
      | nil => exact .inr ⟨a, c, rfl, hc⟩
      | cons b abilities =>
        have hle : a.weight+11 ≤ weightSum := by
          rw [hsum, total_cons, total_cons]
          omega
        have hmore := (countP_first hdrawn hc le_rfl (hsum ▸ hle)).symm.trans_le (range_sublist.mpr hle).countP_le
        omega
  · rintro (rfl | ⟨a, c, rfl, hc⟩) b hb
    · cases hb
    · obtain rfl := mem_singleton.mp hb
      rw [total_cons, total_nil, Nat.add_zero] at hsum
      exact ⟨c, hc, hsum ▸ countP_first hdrawn hc (by omega) (by rw [total_cons]; omega)⟩

theorem database_draws_exact_single :
    let db := Db.empty.insert sampleChannel
    ∃ c, db.channels.find 1 = some c ∧
      (range 15).countP (fun r => db.getChannelInt sampleEnv "g" "m" 0 "" r = .found c) = 15 :=
  ((database_draws_exact_iff sampleEnv (Db.empty.insert sampleChannel) "g" "m" 0 "" rfl rfl (by decide)).mpr
    (.inr ⟨_, _, rfl, rfl⟩)) _ mem_cons_self

theorem first_ability_overdrawn :
    let db := (Db.empty.insert sampleChannel).insert { sampleChannel with id := 2 }
    (db.drawnAbilities sampleEnv "g" "m" 0 "").map (fun a => a.weight+10) = [15, 15] ∧
      (range 30).countP (fun r => (db.getChannelInt sampleEnv "g" "m" 0 "" r).channelId = some 1) = 16 := by
  decide +kernel

end Database

end AiGateway.Channels
