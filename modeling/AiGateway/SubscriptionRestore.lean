import AiGateway.SubscriptionHistory

/-! The invariant of a user's rows: the user is in the group of the beginning, or the row
that raised the user is the one that decides, and each operation keeps it so. -/
namespace AiGateway.Subscription
open GoText Fault Table

structure Snapshot (base : String) (s : UserSubscription) : Prop where
  down : s.downgradeGroup = ""
  up : trimSpace s.upgradeGroup = s.upgradeGroup
  prev : s.prevUserGroup = "" ∨ (s.prevUserGroup = base ∧ s.upgradeGroup ≠ base)

/-- All other upgrades of the user, expired ones included, come before the row in the order
in which the sweep looks at them. -/
def Dominates (u : Int) (db : GroupDb) (root : UserSubscription) : Prop :=
  ∀ s ∈ db.subs.rows, s.userId = u → s.upgradeGroup ≠ "" → s.status ≠ .cancelled → s.id ≠ root.id →
    endRank s < endRank root

structure Root (u : Int) (base : String) (db : GroupDb) (root : UserSubscription) : Prop where
  mem : root ∈ db.upgradesOf u
  group : db.group u = root.upgradeGroup
  prev : root.prevUserGroup = base
  last : Dominates u db root

/-- The user is in the group the chain began with, or the row that raised the user will be
the one that decides. -/
structure Restorable (u : Int) (base : String) (clock : Int) (db : GroupDb) : Prop where
  user : (db.groups u).isSome = true
  snapshots : ∀ s ∈ db.subs.rows, s.userId = u → Snapshot base s
  expired : ∀ s ∈ db.subs.rows, s.userId = u → s.status = .expired → s.endTime ≤ clock
  raised : db.group u = base ∨ ∃ root, Root u base db root

variable {s root : UserSubscription}

theorem endRank_lt {t : UserSubscription} :
    endRank s < endRank t ↔ s.endTime < t.endTime ∨ (s.endTime = t.endTime ∧ s.id < t.id) :=
  Prod.Lex.toLex_lt_toLex

variable {base : String} {due : UserSubscription → Bool}

section Root

variable {u : Int} {db db' : GroupDb}

theorem Root.row (h : Root u base db root) : root ∈ db.subs.rows := (GroupDb.mem_upgradesOf.mp h.mem).1

theorem Root.userId (h : Root u base db root) : root.userId = u := (GroupDb.mem_upgradesOf.mp h.mem).2.1

theorem Root.keep (h : Root u base db root) (hgroup : db'.group u = db.group u) (hrow : root ∈ db'.subs.rows)
    (hlast : Dominates u db' root) : Root u base db' root where
  mem := GroupDb.mem_upgradesOf.mpr ⟨hrow, (GroupDb.mem_upgradesOf.mp h.mem).2⟩
  group := hgroup.trans h.group
  prev := h.prev
  last := hlast

end Root

theorem Snapshot.trim_prev (h : Snapshot base s)
    (htrim : trimSpace base = base) (hne : trimSpace s.prevUserGroup ≠ "") : trimSpace s.prevUserGroup = base := by
  rcases h.prev with he | ⟨he, _⟩
  · rw [he] at hne
    exact absurd rfl hne
  · rw [he, htrim]

theorem Snapshot.expiryTarget_eq (h : Snapshot base s) (current : String) :
    expiryTarget s current = if s.upgradeGroup = "" ∨ trimSpace s.prevUserGroup = "" then ""
      else if current ≠ s.upgradeGroup then "" else trimSpace s.prevUserGroup := by
  have hdown : trimSpace s.downgradeGroup = "" := by
    rw [h.down]
    rfl
  simp only [expiryTarget, hdown, h.up, ne_eq, not_true_eq_false, if_false]

theorem Snapshot.expiryTarget_base (h : Snapshot base s)
    (htrim : trimSpace base = base) {current : String} (hne : expiryTarget s current ≠ "") :
    expiryTarget s current = base := by
  rw [h.expiryTarget_eq] at hne ⊢
  split_ifs at hne ⊢
  · exact absurd rfl hne
  · exact absurd rfl hne
  · exact h.trim_prev htrim hne

theorem Root.expiryTarget_eq {u : Int} {db : GroupDb}
    (h : Root u base db root) (hne : base ≠ "") (htrim : trimSpace base = base) (hsnap : Snapshot base root) :
    expiryTarget { root with status := .expired } (db.group u) = base := by
  have hup := (GroupDb.mem_upgradesOf.mp h.mem).2.2.2
  have hprev : trimSpace root.prevUserGroup = base := by rw [h.prev, htrim]
  have hcopy : Snapshot base { root with status := .expired } := ⟨hsnap.down, hsnap.up, hsnap.prev⟩
  rw [hcopy.expiryTarget_eq, h.group]
  simp [hup, hprev, hne]

theorem Dominates.expire {u : Int} {db : GroupDb} (h : Dominates u db root)
    (hdue : ∀ s, due s = true → s.status = .active) : Dominates u (db.expire due) root := by
  intro s hs hu hup hst hid
  rcases (db.mem_expire due s).mp hs with ⟨hold, _⟩ | ⟨r, hr, hd, rfl⟩
  · exact h s hold hu hup hst hid
  · exact h r hr hu hup (by simp [hdue r hd]) hid

namespace Restorable

variable {u : Int} {base : String} {clock : Int} {db : GroupDb}

variable {now : Int} {db' : GroupDb} {plan : SubscriptionPlan} {fails : GroupStmt → Option String}
  {sub : UserSubscription}

theorem later (h : Restorable u base clock db) (hnow : clock ≤ now) : Restorable u base now db where
  user := h.user
  snapshots := h.snapshots
  expired := by
    intro s hs hu hexp
    have hend := h.expired s hs hu hexp
    omega
  raised := h.raised

theorem frame (h : Restorable u base clock db) (hgroup : db'.groups u = db.groups u)
    (hrows : ∀ s, s.userId = u → (s ∈ db'.subs.rows ↔ s ∈ db.subs.rows)) : Restorable u base clock db' where
  user := hgroup ▸ h.user
  snapshots s hs hu := h.snapshots s ((hrows s hu).mp hs) hu
  expired s hs hu := h.expired s ((hrows s hu).mp hs) hu
  raised := by
    have hsame : db'.group u = db.group u := by
      rw [GroupDb.group, hgroup]
      rfl
    rcases h.raised with hbase | ⟨root, hroot⟩
    · exact .inl (hsame.trans hbase)
    · right
      refine ⟨root, hroot.keep hsame ((hrows root hroot.userId).mpr hroot.row) ?_⟩
      intro s hs hsu
      exact hroot.last s ((hrows s hsu).mp hs) hsu

theorem settle (hrows : ∀ s ∈ db.subs.rows, s.userId = u → Snapshot base s)
    (hexp : ∀ s ∈ db.subs.rows, s.userId = u → s.status = .expired → s.endTime ≤ clock)
    (huser : (db.groups u).isSome = true) : Restorable u base clock (db.setGroup u base) where
  user := by
    rw [GroupDb.isSome_setGroup]
    exact huser
  snapshots := hrows
  expired := hexp
  raised := .inl (db.group_setGroup huser base)

/-! #### Purchases -/

theorem add (h : Restorable u base clock db) {row : UserSubscription} (hsnap : Snapshot base row)
    (hactive : row.status = .active) (hbelow : db.group u = base ∨ row.upgradeGroup = "" ∨
      ∃ s ∈ db.upgradesOf u, row.endTime < s.endTime) : Restorable u base clock (db.create row) where
  user := h.user
  snapshots := by
    intro s hs hu
    rcases (db.mem_create row s).mp hs with hold | rfl
    · exact h.snapshots s hold hu
    · exact ⟨hsnap.down, hsnap.up, hsnap.prev⟩
  expired := by
    intro s hs hu hexp
    rcases (db.mem_create row s).mp hs with hold | rfl
    · exact h.expired s hold hu hexp
    · rw [hactive] at hexp
      cases hexp
  raised := by
    rcases h.raised with hbase | ⟨root, hroot⟩
    · exact .inl hbase
    rcases hbelow with hbase | hbelow
    · exact .inl hbase
    right
    refine ⟨root, hroot.keep rfl ((db.mem_create row root).mpr (.inl hroot.row)) ?_⟩
    intro s hs hsu hsup hst hid
    rcases (db.mem_create row s).mp hs with hold | rfl
    · exact hroot.last s hold hsu hsup hst hid
    rcases hbelow with hnone | ⟨t, ht, hlt⟩
    · exact absurd hnone hsup
    · -- The row ends before some upgrade of the chain, and that one not after the root.
      apply endRank_lt.mpr
      left
      change row.endTime < root.endTime
      by_cases he : t.id = root.id
      · rw [db.subs.eq_of_key (GroupDb.mem_upgradesOf.mp ht).1 hroot.row he] at hlt
        exact hlt
      · obtain ⟨htm, htu, hta, htup⟩ := GroupDb.mem_upgradesOf.mp ht
        have hrank := endRank_lt.mp (hroot.last t htm htu htup (by simp [hta]) he)
        omega

theorem raise (h : Restorable u base clock db) (hbase : db.group u = base) (row : UserSubscription)
    (hsnap : Snapshot base row) (hactive : row.status = .active) (hu : row.userId = u) (hup : row.upgradeGroup ≠ "")
    (hprev : row.prevUserGroup = base) (hclock : clock < row.endTime)
    (hlast : ∀ s ∈ db.upgradesOf u, s.endTime ≤ row.endTime) :
    Restorable u base clock ((db.setGroup u row.upgradeGroup).create row) := by
  have hadd : Restorable u base clock (db.create row) := h.add hsnap hactive (.inl hbase)
  refine ⟨?_, hadd.snapshots, hadd.expired, .inr ⟨{ row with id := db.nextId }, ?_, ?_, hprev, ?_⟩⟩
  · change ((db.setGroup u row.upgradeGroup).groups u).isSome = true
    rw [GroupDb.isSome_setGroup]
    exact h.user
  · exact GroupDb.mem_upgradesOf.mpr ⟨(GroupDb.mem_create _ row _).mpr (.inr rfl), hu, hactive, hup⟩
  · exact db.group_setGroup h.user row.upgradeGroup
  intro s hs hsu hsup hst hid
  rcases (GroupDb.mem_create _ row s).mp hs with hold | rfl
  · apply endRank_lt.mpr
    change s.endTime < row.endTime ∨ (s.endTime = row.endTime ∧ s.id < db.nextId)
    have hfresh := db.fresh s.id (List.mem_map_of_mem hold)
    cases hstatus : s.status with
    | active =>
      have hend := hlast s (GroupDb.mem_upgradesOf.mpr ⟨hold, hsu, hstatus, hsup⟩)
      omega
    | expired =>
      have hend := h.expired s hold hsu hstatus
      omega
    | cancelled => exact absurd hstatus hst
  · exact absurd rfl hid

theorem purchase {off : Int} (h : Restorable u base now db) (hok : PurchaseOk off u plan now ⟨db, base, clock⟩)
    (hcreate : createUserSubscriptionFromPlan off fails u plan now db = .ok (sub, db')) :
    Restorable u base now db' := by
  obtain ⟨endUnix, _, _, hend, hraise, rfl, rfl⟩ := create_ok hcreate
  obtain ⟨hdown, hok⟩ := hok
  rw [hend] at hok
  have hup : trimSpace (trimSpace plan.upgradeGroup) = trimSpace plan.upgradeGroup := trimSpace_trimSpace _
  -- The group stays when the plan has none or the user is in it already; the row then has
  -- no group to go back to.
  rcases raiseGroup_ok hraise with ⟨rfl, rfl, hsame⟩ | ⟨hne, hother, rfl, rfl⟩
  · refine h.add ⟨hdown, hup, .inl rfl⟩ rfl ?_
    by_cases hnone : trimSpace plan.upgradeGroup = ""
    · exact .inr (.inl hnone)
    · have hgroup := hsame.resolve_left hnone
      obtain ⟨_, hrenew⟩ := hok hnone
      rw [if_pos hgroup.symm] at hrenew
      exact hrenew.imp_right .inr
  · obtain ⟨hlater, hupgrade⟩ := hok hne
    rw [if_neg (Ne.symm hother)] at hupgrade
    obtain ⟨hbase, hlast⟩ := hupgrade
    change db.group u = base at hbase
    have hsnap : Snapshot base (purchasedSubscription off u plan now endUnix (db.group u)) :=
      ⟨hdown, hup, .inr ⟨hbase, fun he => hother (hbase.trans he.symm)⟩⟩
    exact h.raise hbase (purchasedSubscription off u plan now endUnix (db.group u)) hsnap rfl rfl hne hbase hlater hlast

theorem purchaseOther {off v : Int} (h : Restorable u base clock db) (hv : v ≠ u)
    (hcreate : createUserSubscriptionFromPlan off fails v plan now db = .ok (sub, db')) :
    Restorable u base clock db' := by
  obtain ⟨_, _, mid, _, hraise, _, rfl⟩ := create_ok hcreate
  have hmid : mid.groups u = db.groups u ∧ mid.subs = db.subs := by
    rcases raiseGroup_ok hraise with ⟨_, rfl, _⟩ | ⟨_, _, _, rfl⟩
    · exact ⟨rfl, rfl⟩
    · exact ⟨db.setGroup_of_ne (Ne.symm hv) _, rfl⟩
  refine h.frame hmid.1 ?_
  intro s hsu
  rw [GroupDb.mem_create, hmid.2, or_iff_left_iff_imp]
  rintro rfl
  exact absurd hsu hv

theorem base_eq {off : Int} (hok : PurchaseOk off u plan now ⟨db, base, clock⟩)
    (hcreate : createUserSubscriptionFromPlan off fails u plan now db = .ok (sub, db'))
    (hbegins : beginsChain u u now sub db = true) : db.group u = base := by
  obtain ⟨endUnix, prev, mid, hend, _, rfl, rfl⟩ := create_ok hcreate
  have hb : trimSpace plan.upgradeGroup ≠ "" ∧ ∀ s ∈ db.upgradesOf u, s.endTime ≤ now := by
    simpa [beginsChain, purchasedSubscription] using hbegins
  obtain ⟨hne, hended⟩ := hb
  have hends := hok.2
  rw [hend] at hends
  obtain ⟨hlater, hcase⟩ := hends hne
  split at hcase
  · rcases hcase with hbase | ⟨s, hs, hlt⟩
    · exact hbase
    · -- The renewed upgrade would be unexpired.
      have hle := hended s hs
      omega
  · exact hcase.1

/-! #### Cancellations and deletions -/

variable {id : Int}

theorem remove (h : Restorable u base clock db) (huser : (db'.groups u).isSome = true)
    (hgroup : db'.group u = base ∨ (db'.group u = db.group u ∧ ∀ root, Root u base db root → root.id ≠ id))
    (hkeep : ∀ s ∈ db.subs.rows, s.id ≠ id → s ∈ db'.subs.rows)
    (hrows : ∀ s ∈ db'.subs.rows, s.userId = u → s ∈ db.subs.rows ∨
      (s.status = .cancelled ∧ Snapshot base s)) :
    Restorable u base clock db' where
  user := huser
  snapshots := by
    intro s hs hu
    rcases hrows s hs hu with hold | ⟨_, hsnap⟩
    · exact h.snapshots s hold hu
    · exact hsnap
  expired := by
    intro s hs hu hexp
    rcases hrows s hs hu with hold | ⟨hst, _⟩
    · exact h.expired s hold hu hexp
    · rw [hst] at hexp
      cases hexp
  raised := by
    rcases hgroup with hbase | ⟨hsame, hother⟩
    · exact .inl hbase
    rcases h.raised with hbase | ⟨root, hroot⟩
    · exact .inl (hsame.trans hbase)
    right
    refine ⟨root, hroot.keep hsame (hkeep root hroot.row (hother root hroot)) ?_⟩
    intro s hs hsu hsup hst hid
    rcases hrows s hs hsu with hold | ⟨hc, _⟩
    · exact hroot.last s hold hsu hsup hst hid
    · exact absurd hc hst

section

variable (h : Restorable u base clock db) (hne : base ≠ "") (htrim : trimSpace base = base)
  (hok : RemoveOk u id now ⟨db, base, clock⟩)

include h hne htrim hok

theorem downgrade (hsub : db.subs.find id = some sub) (hu : sub.userId = u) (st : SubscriptionStatus) (e : Int)
    {mid : GroupDb} (hgroups : mid.groups = db.groups)
    (hmid : ∀ s ∈ mid.subs.rows, s.id ≠ id → s ∈ db.subs.rows) {target : String}
    (hdown : downgradeUserGroupForSubscription fails { sub with status := st, endTime := e } now mid
      = .ok (target, db')) : (db'.groups u).isSome = true ∧
      (db'.group u = base ∨ (db'.group u = db.group u ∧ ∀ root, Root u base db root → root.id ≠ id)) := by
  obtain ⟨hmem, hid⟩ := (find_some_iff db.subs id sub).mp hsub
  have hsnap := h.snapshots sub hmem hu
  have hsame : mid.group u = db.group u := by
    rw [GroupDb.group, hgroups]
    rfl
  have huser : (mid.groups u).isSome = true := hgroups ▸ h.user
  have hempty : trimSpace sub.downgradeGroup = "" := by
    rw [hsnap.down]
    rfl
  -- Either the group of the snapshot is written, or one of the checks stopped the downgrade.
  rcases downgrade_cases hempty hdown with ⟨rfl, hprev⟩ | ⟨rfl, hwhy⟩
  · refine ⟨by rw [GroupDb.isSome_setGroup]; exact huser, .inl ?_⟩
    rw [hsnap.trim_prev htrim hprev, hu]
    exact mid.group_setGroup huser base
  refine ⟨huser, ?_⟩
  by_cases hbase : db.group u = base
  · exact .inl (hsame.trans hbase)
  refine .inr ⟨hsame, ?_⟩
  intro root hroot hrid
  have hrow : root = sub :=
    db.subs.eq_of_key hroot.row hmem (hrid.trans hid.symm)
  subst hrow
  have hprev : trimSpace root.prevUserGroup = base := by rw [hroot.prev, htrim]
  -- The root passes every check, so none of them can have stopped it.
  rcases hwhy with hnone | hactive | hgroup | hempty | hcurrent
  · exact (GroupDb.mem_upgradesOf.mp hroot.mem).2.2.2 (hsnap.up.symm.trans hnone)
  · -- Another upgrade is unexpired, so it would have to end after the root.
    simp only [activeUpgrade, Bool.and_eq_true, List.any_eq_true, decide_eq_true_eq, hu] at hactive
    obtain ⟨_, s, hs, hsid, hsu, hsa, hlt, hsup⟩ := hactive
    have hsid' : s.id ≠ id := fun he => hsid (he.trans hid.symm)
    have hsmem := GroupDb.mem_upgradesOf.mpr ⟨hmid s hs hsid', hsu, hsa, hsup⟩
    rcases hok root hroot.mem hrid with hb | ⟨t, ht, hrank⟩ | hended
    · exact hbase hb
    · obtain ⟨htm, htu, hta, htup⟩ := GroupDb.mem_upgradesOf.mp ht
      have hne' : t.id ≠ root.id := fun he =>
        absurd hrank (by rw [db.subs.eq_of_key htm hmem he]; exact lt_irrefl _)
      exact absurd hrank (hroot.last t htm htu htup (by simp [hta]) hne').not_gt
    · have hle := hended s hsmem hsid'
      omega
  · rw [hu] at hgroup
    exact hgroup (hsame.trans (hroot.group.trans hsnap.up.symm))
  · exact hne (hprev.symm.trans hempty)
  · change trimSpace root.prevUserGroup = db'.group root.userId at hcurrent
    rw [hu] at hcurrent
    exact hbase (hsame.symm.trans (hcurrent.symm.trans hprev))

theorem removed (hsub : db.subs.find id = some sub) {st : SubscriptionStatus} {e : Int} {mid mid' : GroupDb}
    (hgroups : mid.groups = db.groups)
    (hmid : ∀ s ∈ mid.subs.rows, s.id ≠ id → s ∈ db.subs.rows) {target : String}
    (hdown : downgradeUserGroupForSubscription fails { sub with status := st, endTime := e } now mid =
      .ok (target, mid'))
    (hgroups' : db'.groups = mid'.groups) (hkeep : ∀ s ∈ db.subs.rows, s.id ≠ id → s ∈ db'.subs.rows)
    (hrows : ∀ s ∈ db'.subs.rows, s = { sub with status := .cancelled, endTime := now } ∨ s ∈ db.subs.rows) :
    Restorable u base clock db' := by
  obtain ⟨hmem, hid⟩ := (find_some_iff db.subs id sub).mp hsub
  by_cases hu : sub.userId = u
  · have hsnap := h.snapshots sub hmem hu
    obtain ⟨huser, hgroup⟩ := h.downgrade hne htrim hok hsub hu st e hgroups hmid hdown
    rw [GroupDb.group, ← hgroups'] at hgroup
    refine h.remove (hgroups' ▸ huser) hgroup hkeep ?_
    intro s hs _
    rcases hrows s hs with rfl | hs
    · exact .inr ⟨rfl, hsnap.down, hsnap.up, hsnap.prev⟩
    · exact .inl hs
  · have hother := (downgrade_frame hdown).2 u (Ne.symm hu)
    refine h.frame (by rw [hgroups', hother, hgroups]) ?_
    intro s hsu
    constructor
    · intro hs
      rcases hrows s hs with rfl | hs
      · exact absurd hsu hu
      · exact hs
    · intro hs
      apply hkeep s hs
      intro he
      rw [db.subs.eq_of_key hs hmem (he.trans hid.symm)] at hsu
      exact hu hsu

variable {msg : String}

theorem invalidate (hrun : adminInvalidateUserSubscription fails id now db = .ok (msg, db')) :
    Restorable u base clock db' := by
  obtain ⟨sub, _, hsub, hdown⟩ := invalidate_ok hrun
  have hid := ((find_some_iff db.subs id sub).mp hsub).2
  have hsubs := (downgrade_frame hdown).1
  refine h.removed hne htrim hok hsub (db.save_groups _) ?_ hdown rfl ?_ ?_
  · intro s hs hne
    rcases mem_save hs with rfl | ⟨hs, _⟩
    · exact absurd hid hne
    · exact hs
  · intro s hs hne
    rw [hsubs]
    exact mem_save_of_ne hs (fun he => hne (he.trans hid))
  · intro s hs
    rw [hsubs] at hs
    exact (mem_save hs).imp_right And.left

theorem delete (hrun : adminDeleteUserSubscription fails id now db = .ok (msg, db')) :
    Restorable u base clock db' := by
  obtain ⟨sub, _, mid, hsub, hdown, rfl⟩ := delete_ok hrun
  have hrows (s : UserSubscription) : s ∈ (mid.delete id).subs.rows ↔ s ∈ db.subs.rows ∧ s.id ≠ id := by
    rw [← (downgrade_frame hdown).1]
    exact mem_delete
  exact h.removed hne htrim hok hsub rfl (fun s hs _ => hs) hdown rfl (fun s hs hne => (hrows s).mpr ⟨hs, hne⟩)
    (fun s hs => .inr ((hrows s).mp hs).1)

end

/-! #### The sweep -/

theorem root_decides (hdue : ∀ s, due s = true ↔ s.userId = u ∧ s.status = .active ∧ 0 < s.endTime ∧
    s.endTime ≤ now)
    (hroot : Root u base db root) (hend : due root = true) (hquery : fails (.findExpired u) = none)
    (hsnap : ∀ s ∈ (db.expire due).subs.rows, s.userId = u → Snapshot base s) :
    activeUpgrade fails u now (fun _ => true) (db.expire due) = false ∧
      lastExpired fails u (db.expire due) = some { root with status := .expired } := by
  obtain ⟨hmem, hu, hact, hup⟩ := GroupDb.mem_upgradesOf.mp hroot.mem
  have hended := ((hdue root).mp hend).2.2.2
  have hlast : Dominates u (db.expire due) root := hroot.last.expire (fun s hs => ((hdue s).mp hs).2.1)
  have hin : { root with status := .expired } ∈ (db.expire due).subs.rows :=
    (db.mem_expire due _).mpr (.inr ⟨root, hmem, hend, rfl⟩)
  constructor
  · rw [Bool.eq_false_iff]
    intro hactive
    simp only [activeUpgrade, Bool.and_eq_true, List.any_eq_true, decide_eq_true_eq] at hactive
    obtain ⟨_, s, hs, _, hsu, hsa, hlt, hsup⟩ := hactive
    -- The root itself is marked now, and the others end before it.
    by_cases hid : s.id = root.id
    · have he := (db.expire due).subs.eq_of_key hs hin hid
      rw [he] at hsa
      cases hsa
    · have hrank := endRank_lt.mp (hlast s hs hsu hsup (by simp [hsa]) hid)
      omega
  · obtain ⟨last, hlastSome⟩ := lastExpired_isSome hquery hin hu rfl hup
    obtain ⟨hm, hlu, hexp, hnames, hmax⟩ := lastExpired_some hlastSome
    have hlup : last.upgradeGroup ≠ "" := hnames.resolve_left (not_not.mpr (hsnap last hm hlu).down)
    by_cases hid : last.id = root.id
    · rw [hlastSome, (db.expire due).subs.eq_of_key hm hin hid]
    · have hbelow := hlast last hm hlu hlup (by simp [hexp]) hid
      exact absurd hbelow (not_lt.mpr (hmax { root with status := .expired } hin hu rfl hup))

theorem sweepOwn (h : Restorable u base clock db) (hne : base ≠ "") (htrim : trimSpace base = base)
    (hnow : clock ≤ now) (hquery : fails (.findExpired u) = none)
    (hrun : revertExpired fails u now (db.expire (fun s => s.userId = u && ended now s)) = .ok db') :
    Restorable u base now db' := by
  generalize hgen : (fun s : UserSubscription => decide (s.userId = u) && ended now s) = due at hrun
  have hdue (s : UserSubscription) : due s = true ↔
      s.userId = u ∧ s.status = .active ∧ 0 < s.endTime ∧ s.endTime ≤ now := by
    simp [← hgen, ended]
  have hsnap : ∀ s ∈ (db.expire due).subs.rows, s.userId = u → Snapshot base s := by
    intro s hs hu
    rcases (db.mem_expire due s).mp hs with ⟨hold, _⟩ | ⟨r, hr, _, rfl⟩
    · exact h.snapshots s hold hu
    · have hr := h.snapshots r hr hu
      exact ⟨hr.down, hr.up, hr.prev⟩
  have hexp : ∀ s ∈ (db.expire due).subs.rows, s.userId = u → s.status = .expired → s.endTime ≤ now := by
    intro s hs hu hst
    rcases (db.mem_expire due s).mp hs with ⟨hold, _⟩ | ⟨r, hr, hd, rfl⟩
    · have hend := h.expired s hold hu hst
      omega
    · exact ((hdue r).mp hd).2.2.2
  -- The sweep moves the user to the group of the last expired row, which is the base; or it
  -- leaves the group, which at a root that is due it does only when the user is back already.
  rcases revertExpired_cases hrun with ⟨last, hlast, rfl, htarget⟩ | ⟨rfl, hwhy⟩
  · obtain ⟨hm, hlu, _⟩ := lastExpired_some hlast
    rw [(hsnap last hm hlu).expiryTarget_base htrim htarget]
    exact settle hsnap hexp h.user
  refine ⟨h.user, hsnap, hexp, ?_⟩
  rcases h.raised with hbase | ⟨root, hroot⟩
  · exact .inl hbase
  cases hd : due root with
  | false =>
    have hlast : Dominates u (db.expire due) root := hroot.last.expire (fun s hs => ((hdue s).mp hs).2.1)
    exact .inr ⟨root, hroot.keep rfl ((db.mem_expire due root).mpr (.inl ⟨hroot.row, hd⟩)) hlast⟩
  | true =>
    obtain ⟨hidle, hdecides⟩ := root_decides hdue hroot hd hquery hsnap
    have htarget : expiryTarget { root with status := .expired } (db.group u) = base :=
      hroot.expiryTarget_eq hne htrim (h.snapshots root hroot.row hroot.userId)
    rcases hwhy with hactive | hnone | ⟨_, hlast, hstay⟩
    · rw [hidle] at hactive
      cases hactive
    · rw [hdecides] at hnone
      cases hnone
    · rw [hdecides] at hlast
      cases hlast
      change expiryTarget _ (db.group u) = "" ∨ expiryTarget _ (db.group u) = db.group u at hstay
      rw [htarget] at hstay
      exact .inl (hstay.resolve_left hne).symm

theorem sweepOther (h : Restorable u base clock db) {v : Int} (hv : v ≠ u)
    (hrun : revertExpired fails v now (db.expire (fun s => s.userId = v && ended now s)) = .ok db') :
    Restorable u base clock db' := by
  have hmarked : Restorable u base clock (db.expire (fun s => s.userId = v && ended now s)) := by
    refine h.frame rfl ?_
    intro s hsu
    rw [GroupDb.mem_expire]
    constructor
    · rintro (⟨hs, _⟩ | ⟨_, _, hd, rfl⟩)
      · exact hs
      · -- A marked row is one of the other user.
        simp only [Bool.and_eq_true, decide_eq_true_eq] at hd
        exact absurd (hd.1.symm.trans hsu) hv
    · intro hs
      refine .inl ⟨hs, ?_⟩
      simp [hsu, Ne.symm hv]
  rcases revertExpired_cases hrun with ⟨_, _, rfl, _⟩ | ⟨rfl, _⟩
  · exact hmarked.frame (GroupDb.setGroup_of_ne _ (Ne.symm hv) _) (fun s _ => Iff.rfl)
  · exact hmarked

section

variable (hne : base ≠ "") (htrim : trimSpace base = base) (hquery : fails (.findExpired u) = none)

include hne htrim hquery

theorem sweepUser (h : Restorable u base now db) {v : Int} {n : ℕ}
    (hrun : expireUserSubscriptions fails v now db = (n, .ok db')) : Restorable u base now db' := by
  have hbody := expireUser_ok hrun
  by_cases hv : v = u
  · subst hv
    exact h.sweepOwn hne htrim (le_refl now) hquery hbody
  · exact h.sweepOther hv hbody

theorem sweepUsers (userIds : List Int) (expiredCount : ℕ) (db : GroupDb)
    (h : Restorable u base now db) : Restorable u base now (expireUsers fails now userIds expiredCount db).2 := by
  -- Users are swept one transaction after another, and the first failure ends the sweep.
  induction userIds generalizing expiredCount db with
  | nil => exact h
  | cons v userIds ih =>
    rw [expireUsers]
    split
    · exact h
    · next n db' hrun => exact ih (expiredCount+n) db' (h.sweepUser hne htrim hquery hrun)

theorem sweep (h : Restorable u base now db) (order : MapOrder) (limit : Int) :
    Restorable u base now (expireDueSubscriptions fails order limit now db).2 := by
  simp only [expireDueSubscriptions]
  split
  · exact h
  · exact sweepUsers hne htrim hquery _ 0 db h

end

end Restorable

end AiGateway.Subscription
