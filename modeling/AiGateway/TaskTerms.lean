import AiGateway.Rounding
import AiGateway.TaskPrice

/-! The terms of a task from its submission to its settlement: what the order of the ratios changes,
what becomes of the ratios of an earlier task, and which group ratio the settlement takes. -/
namespace AiGateway.TaskPrice
open Pricing Rounding List

/-! The order of the ratios. -/

def changing (ratios : List ℚ) : List ℚ := ratios.filter (· ≠ 1)

theorem applyOtherRatios_eq (ratios : List ℚ) (quota : Int) :
    applyOtherRatios ratios quota = mulTrunc (changing ratios) quota := by
  rw [applyOtherRatios, mulTrunc, changing, foldl_filter]
  simp only [decide_eq_true_eq]

theorem recalcQuotaFromRatios_eq (quota : Int) {otherRatios : List ℚ} (hpos : ∀ r ∈ otherRatios, 0 < r)
    (ratios : List ℚ) : recalcQuotaFromRatios quota otherRatios ratios =
      intPart (divTrunc (changing otherRatios) quota*(changing ratios).prod) := by
  have hundone : otherRatios.foldl (fun quota ra => if ra ≠ 1 ∧ 0 < ra then intPart (quota/ra) else quota) quota =
      divTrunc (changing otherRatios) quota := by
    rw [divTrunc, changing, foldl_filter]
    apply foldl_ext
    intro q r hr
    simp only [hpos r hr, and_true, decide_eq_true_eq]
  have hagain (base : ℚ) : ratios.foldl (fun (result : ℚ) ra => if ra ≠ 1 then result*ra else result) base =
      base*(changing ratios).prod := by
    induction ratios generalizing base with
    | nil => simp [changing]
    | cons r ratios ih =>
      rw [foldl_cons, ih, changing, changing, filter_cons]
      by_cases hr : r = 1
      · simp [hr]
      · simp [hr, mul_assoc]
  rw [recalcQuotaFromRatios, hundone, hagain]

theorem exists_perm_of_map {α β : Type*} (f : α → β) {l : List α} {σ : List β} (h : σ.Perm (l.map f)) :
    ∃ l' : List α, l'.Perm l ∧ l'.map f = σ := by
  induction σ generalizing l with
  | nil => exact ⟨[], (map_eq_nil_iff.mp h.nil_eq.symm) ▸ .refl _, rfl⟩
  | cons b σ ih =>
    obtain ⟨a, ha, rfl⟩ := mem_map.mp (h.subset mem_cons_self)
    obtain ⟨front, back, rfl⟩ := append_of_mem ha
    have hrest : σ.Perm ((front ++ back).map f) := by
      rw [map_append, map_cons] at h
      rw [map_append]
      exact (h.trans perm_middle).cons_inv
    obtain ⟨l', hl', rfl⟩ := ih hrest
    exact ⟨a :: l', (hl'.cons a).trans perm_middle.symm, rfl⟩

theorem exists_order {entries : List (String × ℚ)} {σ : List ℚ} (h : σ.Perm (changing (entries.map Prod.snd))) :
    ∃ l : List (String × ℚ), l.Perm entries ∧ changing (l.map Prod.snd) = σ := by
  have hchanging : ∀ r ∈ σ, decide (r ≠ 1) = true := fun r hr => (mem_filter.mp (h.subset hr)).2
  rw [changing, filter_map] at h
  obtain ⟨l, hl, rfl⟩ := exists_perm_of_map Prod.snd h
  refine ⟨l ++ entries.filter (fun e => !decide (e.2 ≠ 1)),
    (hl.append_right _).trans (filter_append_perm _ _), ?_⟩
  rw [changing, map_append, filter_append, filter_eq_self.mpr hchanging, filter_map, filter_filter]
  simp

/-- The order of the ratios makes no difference, and adjusting by the same ratios neither, exactly for a
quota that splits into a part that they multiply exactly and a rest that they reduce to nothing. -/
theorem order_free_iff (m : RatioMap) (hpos : ∀ e ∈ m.entries, 0 < e.2) (base : Int) :
    ((∀ l l' : List (String × ℚ), l.Perm m.entries → l'.Perm m.entries →
        applyOtherRatios (l.map Prod.snd) base = applyOtherRatios (l'.map Prod.snd) base) ∧
      ∀ l undone again : List (String × ℚ), l.Perm m.entries → undone.Perm m.entries → again.Perm m.entries →
        recalcQuotaFromRatios (applyOtherRatios (l.map Prod.snd) base) (undone.map Prod.snd) (again.map Prod.snd) =
          applyOtherRatios (l.map Prod.snd) base) ↔
      Splits |base| (changing (m.entries.map Prod.snd)) := by
  have hpos' {l : List (String × ℚ)} (hl : l.Perm m.entries) : ∀ r ∈ l.map Prod.snd, 0 < r := by
    intro r hr
    obtain ⟨e, he, rfl⟩ := mem_map.mp hr
    exact hpos e (hl.subset he)
  have hperm {l : List (String × ℚ)} (hl : l.Perm m.entries) :
      (changing (l.map Prod.snd)).Perm (changing (m.entries.map Prod.snd)) := (hl.map _).filter _
  have hfactors : ∀ r ∈ changing (m.entries.map Prod.snd), 0 < r := fun r hr =>
    hpos' (.refl _) r (mem_of_mem_filter hr)
  rw [← orderFree_iff hfactors]
  constructor
  · rintro ⟨hsame, hagain⟩
    refine ⟨?_, ?_⟩
    · intro σ τ hσ hτ
      obtain ⟨l, hl, rfl⟩ := exists_order hσ
      obtain ⟨l', hl', rfl⟩ := exists_order hτ
      rw [← applyOtherRatios_eq, ← applyOtherRatios_eq, hsame l l' hl hl']
    · intro σ τ hσ hτ
      obtain ⟨l, hl, rfl⟩ := exists_order hσ
      obtain ⟨l', hl', rfl⟩ := exists_order hτ
      rw [← applyOtherRatios_eq, ← recalcQuotaFromRatios_eq _ (hpos' hl'), hagain l l' _ hl hl' (.refl _)]
  · rintro ⟨hsame, hagain⟩
    refine ⟨?_, ?_⟩
    · intro l l' hl hl'
      rw [applyOtherRatios_eq, applyOtherRatios_eq, hsame _ _ (hperm hl) (hperm hl')]
    · intro l undone again hl hundone hagain'
      rw [applyOtherRatios_eq, recalcQuotaFromRatios_eq _ (hpos' hundone), (hperm hagain').prod_eq,
        hagain _ _ (hperm hl) (hperm hundone)]

def eightSeconds : RatioMap := ⟨[("seconds", 8), ("size", 1)], by decide⟩

theorem order_free_eight_seconds : (∀ e ∈ eightSeconds.entries, 0 < e.2) ∧
    ∀ l l' : List (String × ℚ), l.Perm eightSeconds.entries → l'.Perm eightSeconds.entries →
      applyOtherRatios (l.map Prod.snd) 5 = applyOtherRatios (l'.map Prod.snd) 5 := by
  refine ⟨by decide, ((order_free_iff eightSeconds (by decide) 5).mpr ⟨5, 0, by decide, le_rfl, rfl, ?_, ?_⟩).1⟩
  · intro S hS
    rcases Multiset.le_singleton.mp hS with rfl | rfl
    · exact ⟨5, by norm_num⟩
    · exact ⟨40, by norm_num⟩
  · intro σ hσ
    rw [perm_singleton.mp hσ]
    decide +kernel

/-- A quota of 3 becomes 2 or 3, and adjusting 7 by the ratio it was multiplied by takes 11 to 10. -/
theorem order_changes_price :
    applyOtherRatios [3/2, 2/3] 3 = 2 ∧ applyOtherRatios [2/3, 3/2] 3 = 3 ∧
      applyOtherRatios [5/3] 7 = 11 ∧ recalcQuotaFromRatios 11 [5/3] [5/3] = 10 := by decide +kernel

/-! The ratios of an earlier task. -/

variable {e : String × ℚ}

theorem preCharge_eq {sub : Submission} {t charged : TaskRelay} (h : preCharge sub t = .ok charged) :
    charged = { t with billing := charged.billing } := by
  rw [preCharge] at h
  split at h
  · cases h
    rfl
  · split at h
    · cases h
    · cases h
      rfl

section Charged

variable {s : TaskSetting} {sub : Submission} {t base charged : TaskRelay}
variable (hcharged : preCharge sub (multiply s sub (estimate sub base)) = .ok charged)

include hcharged

end Charged

/-- The ratio is that of the user's group for the group in use. -/
def TaskRelay.RatioOf (s : TaskSetting) (userGroup : String) (t : TaskRelay) : Prop :=
  t.info.priceData.groupRatioInfo.groupRatio = s.setting.ratioFor userGroup t.info.usingGroup

variable {s : TaskSetting} {sub : Submission} {t : TaskRelay} {userGroup : String}

theorem handleGroupRatio_eq (s : Setting) (autoGroup : Option String) (info : RelayInfo) :
    (handleGroupRatio s autoGroup info).1.groupRatio = s.ratioFor info.userGroup (autoGroup.getD info.usingGroup) := by
  cases autoGroup with
  | none => exact handleGroupRatio_ratio s info.usingGroup info
  | some group => exact handleGroupRatio_ratio s group info

theorem reprice_group (s : TaskSetting) (sub : Submission) (h : t.info.userGroup = userGroup) :
    (reprice s sub t).1.info.userGroup = userGroup ∧
    ((reprice s sub t).2 = none → (reprice s sub t).1.RatioOf s userGroup) := by
  obtain ⟨info, hinfo⟩ : ∃ info, info = { t.info with originModelName := sub.modelName t } := ⟨_, rfl⟩
  have huser : info.userGroup = userGroup := hinfo ▸ h
  have hratio := handleGroupRatio_eq s.setting sub.autoGroup info
  have hrest := handleGroupRatio_info s.setting sub.autoGroup info
  rw [huser] at hratio
  rw [reprice, modelPriceHelperPerCall, ← hinfo]
  cases hg : handleGroupRatio s.setting sub.autoGroup info with | mk groupRatioInfo info' =>
  rw [hg] at hratio hrest
  dsimp only at hratio hrest ⊢
  subst hrest
  cases perCallPrice s { info with usingGroup := sub.autoGroup.getD info.usingGroup } with
  | error => exact ⟨huser, nofun⟩
  | ok => exact ⟨huser, fun _ => hratio⟩

theorem adjust_info : (adjust sub t).info = t.info := by
  rw [adjust]
  split <;> rfl

theorem relayTaskSubmit_group (s : TaskSetting) (sub : Submission) (h : t.info.userGroup = userGroup) :
    (relayTaskSubmit s sub t).1.info.userGroup = userGroup ∧
      ((relayTaskSubmit s sub t).2 = none → (relayTaskSubmit s sub t).1.RatioOf s userGroup) := by
  have hprice := reprice_group s sub h
  rw [relayTaskSubmit]
  cases sub.early with
  | some => exact ⟨h, nofun⟩
  | none =>
    cases hr : reprice s sub t with | mk base e =>
    rw [hr] at hprice
    cases e with
    | some => exact ⟨hprice.1, nofun⟩
    | none =>
      have hinfo : (multiply s sub (estimate sub base)).info = base.info := by
        rw [multiply]
        split <;> rfl
      have hratio := hprice.2 rfl
      dsimp only
      cases hpre : preCharge sub (multiply s sub (estimate sub base)) with
      | error => exact ⟨hinfo ▸ hprice.1, nofun⟩
      | ok charged =>
        have hcharged : charged.info = base.info := (congrArg TaskRelay.info (preCharge_eq hpre)).trans hinfo
        dsimp only
        cases sub.late with
        | some => exact ⟨hcharged ▸ hprice.1, nofun⟩
        | none =>
          have hadjusted : (adjust sub charged).info = base.info := (adjust_info).trans hcharged
          unfold TaskRelay.RatioOf at hratio ⊢
          rw [hadjusted]
          exact ⟨hprice.1, fun _ => hratio⟩

theorem recalculate_terms {order : Ranging} {group : Option String} {data : Json} {totalTokens : Int}
    {terms : TokenTerms}
    (h : recalculateTaskQuotaByTokens s order group (storeTask s t data) totalTokens = some terms) :
    terms.groupRatio = s.setting.ratioFor (settlementGroup group (storeTask s t data))
        (settlementGroup group (storeTask s t data)) ∧
      terms.otherRatios = (order.visit t.otherRatios).filter (fun e => e.2 ≠ 1 ∧ 0 < e.2) := by
  simp only [recalculateTaskQuotaByTokens] at h
  split at h
  · cases h
  split at h
  · cases h
  split at h
  · cases h
  cases h
  refine ⟨?_, rfl⟩
  rw [Setting.ratioFor]
  cases s.setting.ratios.groupGroupRatio _ _ <;> rfl

theorem filter_positive_perm_iff {l l' : List (String × ℚ)} (hl : l.Perm l') :
    (l.filter (fun e => e.2 ≠ 1 ∧ 0 < e.2)).Perm (l'.filter (fun e => e.2 ≠ 1)) ↔ ∀ e ∈ l', 0 < e.2 := by
  constructor
  · intro hperm e he
    by_cases hone : e.2 = 1
    · rw [hone]
      exact one_pos
    · have hmem := hperm.mem_iff.mpr (mem_filter.mpr ⟨he, decide_eq_true hone⟩)
      exact (of_decide_eq_true (mem_filter.mp hmem).2).2
  · intro hpos
    have hsame : l.filter (fun e => e.2 ≠ 1 ∧ 0 < e.2) = l.filter (fun e => e.2 ≠ 1) := by
      apply filter_congr
      intro e he
      simp only [hpos e (hl.subset he), and_true]
    rw [hsame]
    exact hl.filter _

/-- The settlement takes the ratios of the submission exactly if the group of the settlement has for itself the ratio
that the user's group has for the group in use, and every stored ratio is positive. -/
theorem settled_on_submission_terms_iff (s : TaskSetting) (sub : Submission) (t₀ t : TaskRelay)
    (hsubmit : relayTaskSubmit s sub t₀ = (t, none)) (data : Json) (order : Ranging) (userGroup : Option String)
    (totalTokens : Int) (terms : TokenTerms)
    (hterms : recalculateTaskQuotaByTokens s order userGroup (storeTask s t data) totalTokens = some terms) :
    (∃ context, (storeTask s t data).billingContext = some context ∧
      context.groupRatio = t.info.priceData.groupRatioInfo.groupRatio ∧ terms.groupRatio = context.groupRatio ∧
      context.otherRatios = t.otherRatios ∧
      terms.otherRatios.Perm (context.otherRatios.entries.filter (fun e => e.2 ≠ 1))) ↔
    s.setting.ratioFor (settlementGroup userGroup (storeTask s t data))
      (settlementGroup userGroup (storeTask s t data)) =
        s.setting.ratioFor t₀.info.userGroup t.info.usingGroup ∧
      ∀ e ∈ t.otherRatios.entries, 0 < e.2 := by
  have hratio : t.info.priceData.groupRatioInfo.groupRatio = s.setting.ratioFor t₀.info.userGroup
    t.info.usingGroup := by
    have hgroup := relayTaskSubmit_group s sub (rfl : t₀.info.userGroup = _)
    rw [hsubmit] at hgroup
    exact hgroup.2 rfl
  obtain ⟨hgroup, hothers⟩ := recalculate_terms hterms
  rw [← filter_positive_perm_iff (order.perm t.otherRatios), ← hothers, ← hgroup, ← hratio]
  constructor
  · rintro ⟨_, hcontext, -, hsame, -, hperm⟩
    cases hcontext
    exact ⟨hsame, hperm⟩
  · rintro ⟨hsame, hperm⟩
    exact ⟨_, rfl, rfl, hsame, rfl, hperm⟩

/-! A user of the group `vip`, which has the group `default` at half its ratio. -/

def vipSetting : TaskSetting where
  setting := {
    ratios := ⟨500000, fun _ => 0, fun _ => 0, fun _ => 0, fun _ => 0, fun _ => 1,
      fun user group => if user = "vip" ∧ group = "default" then some (1/2) else none⟩
    modelPrice := fun _ => none
    modelRatio := fun name => (2, true, name)
    cacheRatio := fun _ => 1
    createCacheRatio := fun _ => 1
    imageRatio := fun _ => 1
    preConsumedQuota := 0
    enableFreeModelPreConsume := true
    tieredExpr := fun _ => false
    billingExpr := fun _ => none
    runExpr := fun _ _ => none }
  defaultModelPrice := fun _ => none
  taskPricePatches := []

def inOrder : Ranging := ⟨RatioMap.entries, fun _ => .refl _⟩

def soraSubmission : Submission where
  adaptor := ⟨soraEstimateBilling (some ("8", 0, "")), fun _ => .empty⟩
  early := none
  autoGroup := none
  coverName := ""
  preConsume := fun _ => none
  late := none
  estimated := inOrder
  applied := inOrder
  undone := inOrder
  adjusted := inOrder

def soraRelay (userGroup : String) (action : TaskAction) : TaskRelay where
  info := ⟨"sora-1", userGroup, "default", false, 0, { groupRatioInfo := ⟨1, -1, false⟩ }, none⟩
  userId := 1
  upstreamModelName := "sora-1"
  action := action
  originTaskId := ""
  channelId := 1
  quota := 0
  otherRatios := .empty
  billing := none

def soraTask (userGroup : String) (action : TaskAction) : PricedTask :=
  storeTask vipSetting (relayTaskSubmit vipSetting soraSubmission (soraRelay userGroup action)).1 (.object [])

example : (soraTask "default" (.other "generate")).quota = 4000000 := by decide +kernel

theorem settled_on_submission_terms_default :
    ∃ context, (soraTask "default" (.other "generate")).billingContext = some context ∧
      context.groupRatio = 1 ∧ (1 : ℚ) = context.groupRatio ∧
      [("seconds", 8)].Perm (context.otherRatios.entries.filter (fun e => e.2 ≠ 1)) := by
  obtain ⟨context, hcontext, _, hsettled, _, hothers⟩ :=
    (settled_on_submission_terms_iff vipSetting soraSubmission (soraRelay "default" (.other "generate")) _
      (Prod.ext rfl (by decide +kernel)) (.object []) inOrder none 100 ⟨2, 1, [("seconds", 8)]⟩
      (by decide +kernel)).mpr ⟨by decide +kernel, by decide +kernel⟩
  exact ⟨context, hcontext, hsettled.symm, hsettled, hothers⟩

/-- 8 seconds of a model with the ratio 2: the submission is priced at half, the settlement is not. -/
theorem vip_settled_at_full_ratio :
    (soraTask "vip" (.other "generate")).billingContext.map BillingContext.groupRatio = some (1/2) ∧
      (recalculateTaskQuotaByTokens vipSetting inOrder none (soraTask "vip" (.other "generate")) 100).map
        TokenTerms.groupRatio = some 1 := by decide +kernel

/-! A remix of the 8 seconds. -/

end AiGateway.TaskPrice
