import AiGateway.SubscriptionGroup

/-! What each transaction on the user's group does when it goes through, and what decides
whether it gives a group back. -/
namespace AiGateway.Subscription
open GoText Fault List

variable {fails : GroupStmt → Option String} {userId now : Int} {db db' : GroupDb}
  {sub : UserSubscription}

theorem getUserGroupById_ok {g : String} (h : getUserGroupById fails userId db = .ok g) : g = db.group userId := by
  unfold getUserGroupById at h
  split at h
  · cases h
  · obtain ⟨_, _, h⟩ := bind_eq_ok h
    exact (Except.ok.inj h).symm

theorem raiseGroup_ok {up prev : String} (h : raiseGroup fails userId up db = .ok (prev, db')) :
    (prev = "" ∧ db' = db ∧ (up = "" ∨ db.group userId = up)) ∨
      (up ≠ "" ∧ db.group userId ≠ up ∧ prev = db.group userId ∧ db' = db.setGroup userId up) := by
  unfold raiseGroup at h
  split at h
  · next hup =>
    cases h
    exact .inl ⟨rfl, rfl, .inl hup⟩
  · next hup =>
    obtain ⟨_, hcurrent, h⟩ := bind_eq_ok h
    have hc := getUserGroupById_ok hcurrent
    subst hc
    split at h
    · next hne =>
      obtain ⟨_, _, h⟩ := bind_eq_ok h
      cases h
      exact .inr ⟨hup, hne, rfl, rfl⟩
    · next hsame =>
      cases h
      exact .inl ⟨rfl, rfl, .inr (not_not.mp hsame)⟩

theorem create_ok {off : Int} {plan : SubscriptionPlan}
    (h : createUserSubscriptionFromPlan off fails userId plan now db = .ok (sub, db')) :
    ∃ endUnix prev mid, calcPlanEndTime off now plan = .ok endUnix ∧
      raiseGroup fails userId (trimSpace plan.upgradeGroup) db = .ok (prev, mid) ∧
      sub = { purchasedSubscription off userId plan now endUnix prev with id := mid.nextId } ∧
      db' = mid.create (purchasedSubscription off userId plan now endUnix prev) := by
  unfold createUserSubscriptionFromPlan at h
  split at h
  · cases h
  split at h
  · cases h
  obtain ⟨_, _, h⟩ := bind_eq_ok h
  obtain ⟨endUnix, hend, h⟩ := bind_eq_ok h
  obtain ⟨⟨prev, mid⟩, hraise, h⟩ := bind_eq_ok h
  obtain ⟨_, _, h⟩ := bind_eq_ok h
  cases h
  exact ⟨endUnix, prev, mid, hend, hraise, rfl, rfl⟩

/-- Without a downgrade group of its own, a subscription gives back the group it noted, and
only to a user who is still in the group it raised to. -/
theorem downgrade_cases {target : String} (hdown : trimSpace sub.downgradeGroup = "")
    (h : downgradeUserGroupForSubscription fails sub now db = .ok (target, db')) :
    (db' = db.setGroup sub.userId (trimSpace sub.prevUserGroup) ∧ trimSpace sub.prevUserGroup ≠ "") ∨
      (db' = db ∧ (trimSpace sub.upgradeGroup = "" ∨
        activeUpgrade fails sub.userId now (fun s => s.id ≠ sub.id) db = true ∨
        db.group sub.userId ≠ trimSpace sub.upgradeGroup ∨ trimSpace sub.prevUserGroup = "" ∨
        trimSpace sub.prevUserGroup = db.group sub.userId)) := by
  simp only [downgradeUserGroupForSubscription, hdown, true_and, if_true] at h
  split at h
  · next hup =>
    cases h
    exact .inr ⟨rfl, .inl hup⟩
  obtain ⟨_, hcurrent, h⟩ := bind_eq_ok h
  have hc := getUserGroupById_ok hcurrent
  subst hc
  split at h
  · next hactive =>
    cases h
    exact .inr ⟨rfl, .inr (.inl hactive)⟩
  split at h
  · next hgroup =>
    cases h
    exact .inr ⟨rfl, .inr (.inr (.inl hgroup))⟩
  split at h
  · next htarget =>
    cases h
    exact .inr ⟨rfl, .inr (.inr (.inr htarget))⟩
  · next htarget =>
    obtain ⟨_, _, h⟩ := bind_eq_ok h
    cases h
    exact .inl ⟨rfl, fun he => htarget (.inl he)⟩

theorem downgrade_frame {target : String} (h : downgradeUserGroupForSubscription fails sub now db = .ok (target, db')) :
    db'.subs = db.subs ∧ ∀ u, u ≠ sub.userId → db'.groups u = db.groups u := by
  simp only [downgradeUserGroupForSubscription] at h
  -- Which group it is does not matter here.
  generalize (if trimSpace sub.downgradeGroup = "" then trimSpace sub.prevUserGroup
    else trimSpace sub.downgradeGroup) = g at h
  split at h
  · cases h
    exact ⟨rfl, fun _ _ => rfl⟩
  obtain ⟨_, _, h⟩ := bind_eq_ok h
  split_ifs at h
  case neg =>
    obtain ⟨_, _, h⟩ := bind_eq_ok h
    cases h
    exact ⟨rfl, fun u hu => db.setGroup_of_ne hu target⟩
  all_goals
    cases h
    exact ⟨rfl, fun _ _ => rfl⟩

theorem invalidate_ok {id : Int} {msg : String} (h : adminInvalidateUserSubscription fails id now db = .ok (msg, db')) :
    ∃ sub target, db.subs.find id = some sub ∧
      downgradeUserGroupForSubscription fails { sub with status := .cancelled, endTime := now } now
        (db.save { sub with status := .cancelled, endTime := now }) = .ok (target, db') := by
  unfold adminInvalidateUserSubscription at h
  split at h
  · cases h
  obtain ⟨_, _, h⟩ := bind_eq_ok h
  split at h
  · cases h
  · next sub hsub =>
    obtain ⟨_, _, h⟩ := bind_eq_ok h
    obtain ⟨⟨target, _⟩, hdown, h⟩ := bind_eq_ok h
    obtain ⟨_, _, h⟩ := bind_eq_ok h
    cases h
    exact ⟨sub, target, hsub, hdown⟩

theorem delete_ok {id : Int} {msg : String} (h : adminDeleteUserSubscription fails id now db = .ok (msg, db')) :
    ∃ sub target mid, db.subs.find id = some sub ∧
      downgradeUserGroupForSubscription fails sub now db = .ok (target, mid) ∧ db' = mid.delete id := by
  unfold adminDeleteUserSubscription at h
  split at h
  · cases h
  obtain ⟨_, _, h⟩ := bind_eq_ok h
  split at h
  · cases h
  · next sub hsub =>
    obtain ⟨⟨target, mid⟩, hdown, h⟩ := bind_eq_ok h
    obtain ⟨_, _, h⟩ := bind_eq_ok h
    obtain ⟨_, _, h⟩ := bind_eq_ok h
    cases h
    exact ⟨sub, target, mid, hsub, hdown, rfl⟩

theorem lastExpired_some {last : UserSubscription} (h : lastExpired fails userId db = some last) :
    last ∈ db.subs.rows ∧ last.userId = userId ∧ last.status = .expired ∧
      (last.downgradeGroup ≠ "" ∨ last.upgradeGroup ≠ "") ∧
      ∀ s ∈ db.subs.rows, s.userId = userId → s.status = .expired → s.upgradeGroup ≠ "" →
        endRank s ≤ endRank last := by
  unfold lastExpired at h
  split at h
  · cases h
  · have hmem := argmax_mem h
    simp only [mem_filter, decide_eq_true_eq] at hmem
    refine ⟨hmem.1, hmem.2.1, hmem.2.2.1, hmem.2.2.2, ?_⟩
    intro s hs hu hexp hup
    apply le_of_mem_argmax _ h
    simp [hs, hu, hexp, hup]

theorem lastExpired_isSome {s : UserSubscription}
    (hfails : fails (.findExpired userId) = none) (hs : s ∈ db.subs.rows) (hu : s.userId = userId)
    (hexp : s.status = .expired) (hup : s.upgradeGroup ≠ "") : ∃ last, lastExpired fails userId db = some last := by
  rw [← Option.isSome_iff_exists, lastExpired, hfails, Option.isSome_iff_ne_none]
  intro hnone
  rw [if_neg (by simp), argmax_eq_none, filter_eq_nil_iff] at hnone
  exact hnone s hs (by simp [hu, hexp, hup])

theorem revertExpired_cases (h : revertExpired fails userId now db = .ok db') :
    (∃ last, lastExpired fails userId db = some last ∧
        db' = db.setGroup userId (expiryTarget last (db.group userId)) ∧
          expiryTarget last (db.group userId) ≠ "") ∨
      (db' = db ∧ (activeUpgrade fails userId now (fun _ => true) db = true ∨ lastExpired fails userId db = none ∨
        ∃ last, lastExpired fails userId db = some last ∧
          (expiryTarget last (db.group userId) = "" ∨ expiryTarget last (db.group userId) = db.group userId))) := by
  unfold revertExpired at h
  split at h
  · next hactive =>
    cases h
    exact .inr ⟨rfl, .inl hactive⟩
  split at h
  · next hnone =>
    cases h
    exact .inr ⟨rfl, .inr (.inl hnone)⟩
  · next last hlast =>
    obtain ⟨_, hcurrent, h⟩ := bind_eq_ok h
    have hc := getUserGroupById_ok hcurrent
    subst hc
    simp only at h
    split at h
    · next htarget =>
      cases h
      exact .inr ⟨rfl, .inr (.inr ⟨last, hlast, htarget⟩)⟩
    · next htarget =>
      obtain ⟨_, _, h⟩ := bind_eq_ok h
      cases h
      exact .inl ⟨last, hlast, rfl, fun he => htarget (.inl he)⟩

theorem expireUser_ok {n : ℕ} (h : expireUserSubscriptions fails userId now db = (n, .ok db')) :
    revertExpired fails userId now (db.expire (fun s => s.userId = userId && ended now s)) = .ok db' := by
  unfold expireUserSubscriptions at h
  split at h
  · cases h
  · have hbody := congrArg Prod.snd h
    obtain ⟨_, hmid, hrest⟩ := bind_eq_ok hbody
    obtain ⟨_, _, hdone⟩ := bind_eq_ok hrest
    cases hdone
    exact hmid

end AiGateway.Subscription
