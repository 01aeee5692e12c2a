import AiGateway.Table

/-! A table that is derived from another: each row of the source stands for some rows of the derived
table, which name it as their owner. -/
namespace AiGateway.DerivedTable

open Table List

variable {S D K L : Type*} [DecidableEq K] {key : S → K} {dkey : D → L}

/-- The derived rows are those that the rows of the source stand for, and no others. -/
def Mirrors (owner : D → K) (expand : S → List D) (src : Table key) (drv : Table dkey) : Prop :=
  ∀ d, d ∈ drv.rows ↔ ∃ s, src.find (owner d) = some s ∧ d ∈ expand s

variable {owner : D → K} {expand : S → List D} {src src' : Table key} {drv drv' : Table dkey}

theorem mirrors_refresh (changed : K → Prop) (h : Mirrors owner expand src drv)
    (hsrc : ∀ k, ¬ changed k → src'.find k = src.find k)
    (hnew : ∀ d, changed (owner d) → (d ∈ drv'.rows ↔ ∃ s, src'.find (owner d) = some s ∧ d ∈ expand s))
    (hold : ∀ d, ¬ changed (owner d) → (d ∈ drv'.rows ↔ d ∈ drv.rows)) : Mirrors owner expand src' drv' := by
  intro d
  by_cases hd : changed (owner d)
  · exact hnew d hd
  · rw [hold d hd, hsrc _ hd]
    exact h d

/-- A bulk update of the source is followed by the bulk update of the derived table that
commutes with it. -/
theorem mirrors_update (howner : ∀ s, ∀ d ∈ expand s, owner d = key s) {f : S → S} {g : D → D}
    (hf : ∀ s, key (f s) = key s) (hg : ∀ d, dkey (g d) = dkey d) (hgo : ∀ d, owner (g d) = owner d)
    (h : Mirrors owner expand src drv) (hcomm : ∀ s ∈ src.rows, expand (f s) = (expand s).map g) :
    Mirrors owner expand (src.update f hf) (drv.update g hg) := by
  intro d
  constructor
  · intro hd
    obtain ⟨d', hd', rfl⟩ := mem_map.mp hd
    obtain ⟨s, hs, hin⟩ := (h d').mp hd'
    have hrow : s ∈ src.rows := ((find_some_iff src _ s).mp hs).1
    refine ⟨f s, ?_, ?_⟩
    · rw [find_update, hgo, hs]
      rfl
    · rw [hcomm s hrow]
      exact mem_map_of_mem hin
  · rintro ⟨_, hs', hin⟩
    rw [find_update] at hs'
    obtain ⟨s, hs, rfl⟩ := Option.map_eq_some_iff.mp hs'
    have hrow : s ∈ src.rows := ((find_some_iff src _ s).mp hs).1
    rw [hcomm s hrow] at hin
    obtain ⟨d', hd', rfl⟩ := mem_map.mp hin
    refine mem_map_of_mem ((h d').mpr ⟨s, ?_, hd'⟩)
    rw [howner s d' hd']
    exact find_mem src s hrow

theorem mirrors_deleteWhere (howner : ∀ s, ∀ d ∈ expand s, owner d = key s) (p : K → Bool)
    (h : Mirrors owner expand src drv) :
    Mirrors owner expand (src.deleteWhere (fun s => p (key s))) (drv.deleteWhere (fun d => p (owner d))) := by
  intro d
  rw [mem_deleteWhere, h d]
  constructor
  · rintro ⟨⟨s, hs, hin⟩, hp⟩
    rw [howner s d hin] at hp
    exact ⟨s, find_deleteWhere_some.mpr ⟨hs, hp⟩, hin⟩
  · rintro ⟨s, hs, hin⟩
    obtain ⟨hs', hp⟩ := find_deleteWhere_some.mp hs
    rw [howner s d hin]
    exact ⟨⟨s, howner s d hin ▸ hs', hin⟩, hp⟩

end AiGateway.DerivedTable
