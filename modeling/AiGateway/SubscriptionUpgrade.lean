import AiGateway.SubscriptionRestore

/-! Upgrades are undone in every history in which the row that raised the user is the last of its
chain to end. -/
namespace AiGateway.Subscription
open GoText Fault Run

/-- What holds in every state of an admissible history that began in the group `base`. -/
structure GroupHistory.Sound (u : Int) (base : String) (x : GroupHistory) : Prop where
  restorable : Restorable u base x.clock x.db
  base_eq : x.base = base

namespace GroupHistory.Sound

variable {off u : Int} {base : String} {x : GroupHistory}

theorem purchase (h : x.Sound u base) {userId now : Int} {plan : SubscriptionPlan} {fails : GroupStmt → Option String}
    (hok : UpgradeOk off u x (.purchase userId plan now fails)) :
    (x.step off u (.purchase userId plan now fails)).Sound u base := by
  have hlater := h.restorable.later hok.1
  rw [GroupHistory.step]
  split
  · exact ⟨hlater, h.base_eq⟩
  next sub db hrun =>
  have hcreate := purchaseTx_ok hrun
  by_cases hu : userId = u
  · subst hu
    have hpurchase : PurchaseOk off userId plan now ⟨x.db, base, x.clock⟩ := h.base_eq ▸ hok.2 rfl
    refine ⟨hlater.purchase hpurchase hcreate, ?_⟩
    change (if beginsChain userId userId now sub x.db = true then x.db.group userId else x.base) = base
    split
    · next hbegins => exact Restorable.base_eq hpurchase hcreate hbegins
    · exact h.base_eq
  · have hnot : beginsChain u userId now sub x.db = false := by simp [beginsChain, hu]
    refine ⟨hlater.purchaseOther hu hcreate, ?_⟩
    change (if beginsChain u userId now sub x.db = true then x.db.group u else x.base) = base
    rw [hnot, if_neg (by simp)]
    exact h.base_eq

theorem step (h : x.Sound u base) (hne : base ≠ "") (htrim : trimSpace base = base) (a : GroupAction)
    (hok : UpgradeOk off u x a) : (x.step off u a).Sound u base := by
  cases a with
  | purchase => exact h.purchase hok
  | invalidate id now | delete id now =>
    have hlater := h.restorable.later hok.1
    have hremove : RemoveOk u id now ⟨x.db, base, now⟩ := h.base_eq ▸ hok.2
    rw [GroupHistory.step]
    split
    · exact ⟨hlater, h.base_eq⟩
    · next hrun =>
      first
      | exact ⟨hlater.invalidate hne htrim hremove hrun, h.base_eq⟩
      | exact ⟨hlater.delete hne htrim hremove hrun, h.base_eq⟩
  | sweep limit order =>
    have hlater := h.restorable.later hok.1
    exact ⟨hlater.sweep hne htrim hok.2 order limit, h.base_eq⟩

theorem initial {groups : Int → Option String} (hgroup : groups u = some base) :
    (GroupHistory.initial u groups).Sound u base := by
  have hbase : (groups u).getD "" = base := by rw [hgroup]; rfl
  refine ⟨⟨?_, ?_, ?_, .inl hbase⟩, hbase⟩
  · change (groups u).isSome = true
    rw [hgroup]
    rfl
  · intro s hs
    cases hs
  · intro s hs
    cases hs

theorem group_eq (h : x.Sound u base) {now : Int} (hsettled : x.Settled u now) : x.db.group u = base := by
  rcases h.restorable.raised with hbase | ⟨root, hroot⟩
  · exact hbase
  · obtain ⟨hmem, hu, hact, _⟩ := GroupDb.mem_upgradesOf.mp hroot.mem
    have hended := hsettled.1 root hroot.mem
    have hunexpired := hsettled.2 root hmem hu hact
    omega

end GroupHistory.Sound

/-- In every history in which the row that raised the user ends last, the user is back in the group of the beginning
once no upgrade is unexpired and the ended ones are processed. -/
theorem upgrades_undone (off u : Int) (groups : Int → Option String) (base : String)
    (as : List GroupAction) (now : Int)
    (hgroup : groups u = some base) (hne : base ≠ "") (htrim : trimSpace base = base)
    (hok : Along (GroupHistory.step off u) (UpgradeOk off u) (GroupHistory.initial u groups) as)
    (hsettled : (exec (GroupHistory.step off u) (GroupHistory.initial u groups) as).Settled u now) :
    (exec (GroupHistory.step off u) (GroupHistory.initial u groups) as).db.group u =
        (exec (GroupHistory.step off u) (GroupHistory.initial u groups) as).base ∧
      (exec (GroupHistory.step off u) (GroupHistory.initial u groups) as).base = base := by
  have hsound : (exec (GroupHistory.step off u) (GroupHistory.initial u groups) as).Sound u base :=
    exec_invariant (fun x => x.Sound u base) (fun x a hx ha => hx.step hne htrim a ha) _ as
      (GroupHistory.Sound.initial hgroup) hok
  exact ⟨(hsound.group_eq hsettled).trans hsound.base_eq.symm, hsound.base_eq⟩

theorem upgrades_undone_sample :
    let plan : SubscriptionPlan := { id := 1, durationUnit := .custom, customSeconds := 1000, upgradeGroup := "vip" }
    let short : SubscriptionPlan := { id := 2, durationUnit := .custom, customSeconds := 300, upgradeGroup := "vip" }
    let groups : Int → Option String := fun _ => some "default"
    let x := exec (GroupHistory.step 0 1) (GroupHistory.initial 1 groups)
      [.purchase 1 plan 100 never, .purchase 1 short 200 never, .purchase 2 plan 250 never,
        .sweep 0 ⟨id, fun _ => .refl _⟩ 600 never, .sweep 0 ⟨id, fun _ => .refl _⟩ 1200 never]
    x.db.group 1 = x.base ∧ x.base = "default" :=
  upgrades_undone 0 1 (fun _ => some "default") "default" _ 1200 rfl (by decide) (by decide) (by decide) (by decide)

/-- The plan is renewed while it runs. The row of the renewal notes no group, since the user
is in `vip` already, and it ends last: the sweep finds nothing to give back. -/
theorem renewed_upgrade_stays :
    let plan : SubscriptionPlan := { id := 1, durationUnit := .custom, customSeconds := 1000, upgradeGroup := "vip" }
    let x := exec (GroupHistory.step 0 1) (GroupHistory.initial 1 (fun _ => some "default"))
      [.purchase 1 plan 100 never, .purchase 1 plan 600 never, .sweep 0 ⟨id, fun _ => .refl _⟩ 1700 never]
    x.Settled 1 1700 ∧ x.db.upgradesOf 1 = [] ∧ x.base = "default" ∧ x.db.group 1 = "vip" := by
  decide

end AiGateway.Subscription
