import Mathlib.Algebra.BigOperators.Group.Multiset.Basic
import Mathlib.Algebra.Order.BigOperators.GroupWithZero.List
import Mathlib.Algebra.Order.Field.Basic
import Mathlib.Algebra.Order.Round
import Mathlib.Data.Multiset.AddSub
import Mathlib.Data.Rat.Floor
import Mathlib.Tactic.FieldSimp
import Mathlib.Tactic.Linarith

/-! Rounding of exact prices to whole units; products and quotients that are cut to their integer part after
every factor: what the order of the factors changes, and when dividing by the factors can be undone. -/
namespace AiGateway.Rounding
open List

def roundAway (q : ℚ) : ℤ :=
  if 0 ≤ q then ⌊q+1/2⌋ else -⌊-q+1/2⌋

def intPart (q : ℚ) : ℤ := q.num.tdiv q.den

theorem roundAway_nonneg {q : ℚ} (hq : 0 ≤ q) : 0 ≤ roundAway q := by
  rw [roundAway, if_pos hq]
  apply Int.floor_nonneg.mpr
  linarith

theorem intPart_of_nonneg {q : ℚ} (hq : 0 ≤ q) : intPart q = ⌊q⌋ := by
  rw [intPart, Rat.floor_def', Int.tdiv_eq_ediv_of_nonneg (Rat.num_nonneg.mpr hq)]

theorem roundAway_eq_zero_iff {q : ℚ} (hq : 0 ≤ q) : roundAway q = 0 ↔ q < 1/2 := by
  rw [roundAway, if_pos hq, Int.floor_eq_zero_iff, Set.mem_Ico]
  constructor
  · intro h
    linarith [h.2]
  · intro h
    constructor <;> linarith

def mulTrunc (rs : List ℚ) (q : ℤ) : ℤ := rs.foldl (fun q r => intPart (q*r)) q

def divTrunc (rs : List ℚ) (q : ℤ) : ℤ := rs.foldl (fun q r => intPart (q/r)) q

theorem mulTrunc_cons (r : ℚ) (rs : List ℚ) (q : ℤ) : mulTrunc (r :: rs) q = mulTrunc rs (intPart (q*r)) := rfl

theorem divTrunc_eq (rs : List ℚ) (q : ℤ) : divTrunc rs q = mulTrunc (rs.map (·⁻¹)) q := by
  rw [divTrunc, mulTrunc, foldl_map]
  simp only [div_eq_mul_inv]

theorem intPart_neg (x : ℚ) : intPart (-x) = -intPart x := by
  rw [intPart, intPart, Rat.num_neg_eq_neg_num, Rat.den_neg_eq_den, Int.neg_tdiv]

@[simp] theorem intPart_intCast (n : ℤ) : intPart (n : ℚ) = n := by
  rw [intPart, Rat.num_intCast, Rat.den_intCast, Nat.cast_one, Int.tdiv_one]

theorem mulTrunc_neg (rs : List ℚ) (q : ℤ) : mulTrunc rs (-q) = -mulTrunc rs q := by
  induction rs generalizing q with
  | nil => rfl
  | cons r rs ih => rw [mulTrunc_cons, mulTrunc_cons, Int.cast_neg, neg_mul, intPart_neg, ih]

def Whole (x : ℚ) : Prop := ∃ n : ℤ, (n : ℚ) = x

/-- Nothing is cut off, whichever of the factors a number is multiplied by. -/
def Exact (b : ℚ) (rs : List ℚ) : Prop := ∀ S : Multiset ℚ, S ≤ ↑rs → Whole (b*S.prod)

/-- The least number that the factors, in this order, do not reduce to nothing. -/
def least : List ℚ → ℤ
  | [] => 1
  | r :: rs => ⌈(least rs : ℚ)/r⌉

variable {rs : List ℚ} {b q : ℤ}

theorem Exact.head {b r : ℚ} (h : Exact b (r :: rs)) : Whole (b*r) := by
  have hsub : ({r} : Multiset ℚ) ≤ ↑(r :: rs) := by
    rw [Multiset.singleton_le]
    exact mem_cons_self
  have hr := h {r} hsub
  rwa [Multiset.prod_singleton] at hr

theorem Exact.tail {b r : ℚ} (h : Exact b (r :: rs)) : Exact (b*r) rs := by
  intro S hS
  have hcons := h (r ::ₘ S) (by
    rw [← Multiset.cons_coe]
    exact Multiset.cons_le_cons r hS)
  rwa [Multiset.prod_cons, ← mul_assoc] at hcons

theorem Exact.perm {b : ℚ} {rs' : List ℚ} (h : Exact b rs) (hp : rs'.Perm rs) : Exact b rs' := by
  intro S hS
  apply h S
  rwa [← Multiset.coe_eq_coe.mpr hp]

theorem intPart_mul {r : ℚ} (hq : 0 ≤ q) (hr : 0 < r) :
    intPart (q*r) = ⌊(q*r : ℚ)⌋ ∧ 0 ≤ ⌊(q*r : ℚ)⌋ := by
  have hprod : (0 : ℚ) ≤ q*r := mul_nonneg (Int.cast_nonneg hq) hr.le
  exact ⟨intPart_of_nonneg hprod, Int.floor_nonneg.mpr hprod⟩

section
variable (hpos : ∀ r ∈ rs, 0 < r)
include hpos

theorem mulTrunc_bounds (hq : 0 ≤ q) : 0 ≤ mulTrunc rs q ∧ (mulTrunc rs q : ℚ) ≤ q*rs.prod := by
  induction rs generalizing q with
  | nil => simpa [mulTrunc] using hq
  | cons r rs ih =>
    obtain ⟨hr, hrest⟩ := forall_mem_cons.mp hpos
    obtain ⟨hcut, hnonneg⟩ := intPart_mul hq hr
    obtain ⟨hrest0, hle⟩ := ih hrest hnonneg
    rw [mulTrunc_cons, hcut, prod_cons, ← mul_assoc]
    exact ⟨hrest0, hle.trans (mul_le_mul_of_nonneg_right (Int.floor_le _) (prod_pos hrest).le)⟩

theorem mulTrunc_add (hb : 0 ≤ b) (hexact : Exact b rs) (hq : 0 ≤ q) :
    (mulTrunc rs (b+q) : ℚ) = b*rs.prod+mulTrunc rs q := by
  induction rs generalizing b q with
  | nil => simp [mulTrunc]
  | cons r rs ih =>
    obtain ⟨hr, hrest⟩ := forall_mem_cons.mp hpos
    obtain ⟨n, hn⟩ := hexact.head
    have hn0 : 0 ≤ n := by
      have hbr : (0 : ℚ) ≤ b*r := mul_nonneg (Int.cast_nonneg hb) hr.le
      rw [← hn] at hbr
      exact_mod_cast hbr
    obtain ⟨hcut, hnonneg⟩ := intPart_mul hq hr
    have hstep : intPart (((b+q : ℤ) : ℚ)*r) = n+⌊(q*r : ℚ)⌋ := by
      have hsum : ((b+q : ℤ) : ℚ)*r = n+q*r := by rw [Int.cast_add, add_mul, hn]
      rw [(intPart_mul (add_nonneg hb hq) hr).1, hsum, Int.floor_intCast_add]
    have htail : Exact (n : ℚ) rs := by
      rw [hn]
      exact hexact.tail
    rw [mulTrunc_cons, hstep, ih hrest hn0 htail hnonneg, mulTrunc_cons, hcut, prod_cons, hn, mul_assoc]

theorem mulTrunc_eq_zero_iff (hq : 0 ≤ q) : mulTrunc rs q = 0 ↔ q < least rs := by
  induction rs generalizing q with
  | nil =>
    rw [mulTrunc, foldl_nil, least]
    omega
  | cons r rs ih =>
    obtain ⟨hr, hrest⟩ := forall_mem_cons.mp hpos
    obtain ⟨hcut, hnonneg⟩ := intPart_mul hq hr
    rw [mulTrunc_cons, hcut, ih hrest hnonneg, least, Int.floor_lt, Int.lt_ceil, lt_div_iff₀ hr]

/-- When a product that is cut reaches the exact one, nothing has been cut on the way. -/
theorem whole_of_mulTrunc (hq : 0 ≤ q) (h : (mulTrunc rs q : ℚ) = q*rs.prod) {pre post : List ℚ}
    (hrs : rs = pre ++ post) : Whole (q*pre.prod) := by
  induction rs generalizing q pre with
  | nil =>
    obtain ⟨rfl, rfl⟩ := append_eq_nil_iff.mp hrs.symm
    exact ⟨q, by simp⟩
  | cons r rs ih =>
    obtain ⟨hr, hrest⟩ := forall_mem_cons.mp hpos
    obtain ⟨hcut, hnonneg⟩ := intPart_mul hq hr
    cases pre with
    | nil => exact ⟨q, by simp⟩
    | cons =>
      rw [cons_append] at hrs
      obtain ⟨rfl, hpre⟩ := cons.inj hrs
      rw [mulTrunc_cons, hcut, prod_cons, ← mul_assoc] at h
      have hle := (mulTrunc_bounds hrest hnonneg).2
      have hfloor : (⌊(q*r : ℚ)⌋ : ℚ) = q*r := by
        apply le_antisymm (Int.floor_le _)
        rw [h] at hle
        exact le_of_mul_le_mul_right hle (prod_pos hrest)
      have hwhole := ih hrest hnonneg (by rw [h, hfloor]) hpre
      rwa [hfloor, mul_assoc, ← prod_cons] at hwhole

end

/-! Dividing again. -/

theorem inv_pos_of_mem (hpos : ∀ r ∈ rs, 0 < r) : ∀ r ∈ rs.map (·⁻¹), 0 < r :=
  forall_mem_map.mpr (fun r hr => inv_pos.mpr (hpos r hr))

theorem divTrunc_exact (hpos : ∀ r ∈ rs, 0 < r) (hexact : Exact b rs) {q : ℤ}
    (hq : (q : ℚ) = b*rs.prod) : divTrunc rs q = b := by
  induction rs generalizing q with
  | nil =>
    rw [prod_nil, mul_one] at hq
    exact_mod_cast hq
  | cons r rs ih =>
    obtain ⟨_, hrest⟩ := forall_mem_cons.mp hpos
    have hquot : (q : ℚ)/r = b*rs.prod := by
      rw [hq, prod_cons]
      field_simp
    -- the quotient is the product with the other factors, which is whole
    have hothers : Exact b rs := by
      intro S hS
      apply hexact S
      rw [← Multiset.cons_coe]
      exact hS.trans (Multiset.le_cons_self _ r)
    obtain ⟨_, hn⟩ := hothers rs le_rfl
    rw [Multiset.prod_coe] at hn
    change divTrunc rs (intPart (q/r)) = b
    rw [hquot, ← hn, intPart_intCast]
    exact ih hrest hothers hn

/-- The factors lead to one product in every order, and dividing it by them in any order and
multiplying by them all at once leads there again. -/
structure OrderFree (b : ℤ) (rs : List ℚ) : Prop where
  same : ∀ σ τ : List ℚ, σ.Perm rs → τ.Perm rs → mulTrunc σ b = mulTrunc τ b
  again : ∀ σ τ : List ℚ, σ.Perm rs → τ.Perm rs →
    intPart (divTrunc τ (mulTrunc σ b)*rs.prod) = mulTrunc σ b

/-- A number splits into a part that the factors multiply exactly and a rest that every order of
them reduces to nothing. -/
def Splits (b : ℤ) (rs : List ℚ) : Prop :=
  ∃ exact rest : ℤ, 0 ≤ exact ∧ 0 ≤ rest ∧ b = exact+rest ∧ Exact exact rs ∧
    ∀ σ : List ℚ, σ.Perm rs → rest < least σ

theorem OrderFree.of_splits (hpos : ∀ r ∈ rs, 0 < r) (h : Splits b rs) : OrderFree b rs := by
  obtain ⟨exact, rest, hexact0, hrest0, rfl, hexact, hrest⟩ := h
  have hpos' {σ : List ℚ} (hσ : σ.Perm rs) : ∀ r ∈ σ, 0 < r := fun r hr => hpos r (hσ.mem_iff.mp hr)
  have hmul (σ : List ℚ) (hσ : σ.Perm rs) : (mulTrunc σ (exact+rest) : ℚ) = exact*rs.prod := by
    rw [mulTrunc_add (hpos' hσ) hexact0 (hexact.perm hσ) hrest0,
      (mulTrunc_eq_zero_iff (hpos' hσ) hrest0).mpr (hrest σ hσ), hσ.prod_eq, Int.cast_zero, add_zero]
  refine ⟨?_, ?_⟩
  · intro σ τ hσ hτ
    exact_mod_cast (hmul σ hσ).trans (hmul τ hτ).symm
  · intro σ τ hσ hτ
    have hdiv : divTrunc τ (mulTrunc σ (exact+rest)) = exact :=
      divTrunc_exact (hpos' hτ) (hexact.perm hτ) (by rw [hmul σ hσ, hτ.prod_eq])
    rw [hdiv, ← hmul σ hσ, intPart_intCast]

theorem OrderFree.splits (hpos : ∀ r ∈ rs, 0 < r) (hb : 0 ≤ b) (h : OrderFree b rs) : Splits b rs := by
  have hpos' {σ : List ℚ} (hσ : σ.Perm rs) : ∀ r ∈ σ, 0 < r := fun r hr => hpos r (hσ.mem_iff.mp hr)
  have hprod : 0 < rs.prod := prod_pos hpos
  obtain ⟨q, hq⟩ : ∃ q, q = mulTrunc rs b := ⟨_, rfl⟩
  obtain ⟨hq0, hmul⟩ := mulTrunc_bounds hpos hb
  rw [← hq] at hq0 hmul
  -- the divisions cut nothing, in whatever order they are done
  have hdiv (τ : List ℚ) (hτ : τ.Perm rs) :
      0 ≤ divTrunc τ q ∧ (divTrunc τ q : ℚ) = q*(τ.map (·⁻¹)).prod := by
    obtain ⟨hnonneg, hle⟩ := mulTrunc_bounds (inv_pos_of_mem (hpos' hτ)) hq0
    rw [← divTrunc_eq] at hnonneg hle
    refine ⟨hnonneg, le_antisymm hle ?_⟩
    have hagain := h.again rs τ (.refl rs) hτ
    rw [← hq, intPart_of_nonneg (mul_nonneg (Int.cast_nonneg hnonneg) hprod.le)] at hagain
    rw [← prod_inv, hτ.prod_eq, ← div_eq_mul_inv, div_le_iff₀ hprod]
    conv_lhs => rw [← hagain]
    exact Int.floor_le _
  have hbase : (divTrunc rs q : ℚ) = q/rs.prod := by
    rw [(hdiv rs (.refl rs)).2, ← prod_inv, div_eq_mul_inv]
  have hexact : Exact (divTrunc rs q : ℚ) rs := by
    intro S hS
    -- multiplying by `S` is dividing the product by the other factors
    obtain ⟨T, hT⟩ := Multiset.le_iff_exists_add.mp hS
    have hperm : (T.toList ++ S.toList).Perm rs := by
      rw [← Multiset.coe_eq_coe, ← Multiset.coe_add, Multiset.coe_toList, Multiset.coe_toList, hT, add_comm]
    have hcut := (hdiv _ hperm).2
    rw [divTrunc_eq] at hcut
    have hwhole := whole_of_mulTrunc (inv_pos_of_mem (hpos' hperm)) hq0 hcut map_append
    have hsplit : rs.prod = T.prod*S.prod := by
      rw [← hperm.prod_eq, prod_append, Multiset.prod_toList, Multiset.prod_toList]
    rw [← prod_inv, Multiset.prod_toList, ← div_eq_mul_inv] at hwhole
    have hST : 0 < T.prod*S.prod := hsplit ▸ hprod
    rw [hbase, hsplit, div_mul_eq_mul_div, mul_div_mul_right _ _ (right_ne_zero_of_mul hST.ne')]
    exact hwhole
  have hexact0 := (hdiv rs (.refl rs)).1
  have hproduct : (divTrunc rs q : ℚ)*rs.prod = q := by rw [hbase, div_mul_cancel₀ _ hprod.ne']
  have hle : divTrunc rs q ≤ b := by
    rw [← hproduct] at hmul
    exact_mod_cast le_of_mul_le_mul_right hmul hprod
  have hrest0 : 0 ≤ b-divTrunc rs q := by omega
  refine ⟨divTrunc rs q, b-divTrunc rs q, hexact0, hrest0, by omega, hexact, ?_⟩
  intro σ hσ
  have hadd := mulTrunc_add (hpos' hσ) hexact0 (hexact.perm hσ) hrest0
  rw [add_sub_cancel, h.same σ rs hσ (.refl rs), ← hq, hσ.prod_eq, hproduct] at hadd
  rw [← mulTrunc_eq_zero_iff (hpos' hσ) hrest0]
  have hzero : (mulTrunc σ (b-divTrunc rs q) : ℚ) = 0 := by linarith
  exact_mod_cast hzero

theorem orderFree_neg : OrderFree (-b) rs ↔ OrderFree b rs := by
  have himp {b : ℤ} (h : OrderFree b rs) : OrderFree (-b) rs := by
    refine ⟨?_, ?_⟩
    · intro σ τ hσ hτ
      rw [mulTrunc_neg, mulTrunc_neg, h.same σ τ hσ hτ]
    · intro σ τ hσ hτ
      rw [mulTrunc_neg, divTrunc_eq, mulTrunc_neg, ← divTrunc_eq, Int.cast_neg, neg_mul, intPart_neg,
        h.again σ τ hσ hτ]
  refine ⟨fun h => ?_, himp⟩
  have hneg := himp h
  rwa [neg_neg] at hneg

theorem orderFree_iff (hpos : ∀ r ∈ rs, 0 < r) (b : ℤ) : OrderFree b rs ↔ Splits |b| rs := by
  have habs : OrderFree b rs ↔ OrderFree |b| rs := by
    rcases abs_choice b with h | h
    · rw [h]
    · rw [h, orderFree_neg]
  rw [habs]
  exact ⟨OrderFree.splits hpos (abs_nonneg b), OrderFree.of_splits hpos⟩

end AiGateway.Rounding
