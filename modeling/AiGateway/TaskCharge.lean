import AiGateway.TaskLedger

/-! What a task has been charged in all, against the quota in its row, over every run. -/
namespace AiGateway.Tasks
open Billing Fault List Function Run

def billedTask (x : TaskSystem) : Action → Option Task
  | .sweepNext _ i => (x.sweeps[i]?).bind List.head?
  | a => polledTask x a

def Prepaid (x : TaskSystem) : Action → Prop
  | .pollVideo _ i channelId upstreamId answer => ∀ t info, videoTask x i channelId upstreamId = some t →
      readAs answer = some info → info.status = .success → keepsQuota answer info t = true
  | _ => True

/-- The steps on the ledger: the refunds are in order, nothing is settled, and what a refund
gives back is still there. -/
def LedgerOk (l : Ledger) : Event → Prop
  | .elsewhere _ => True
  | .task a => StepOk l.sys a ∧ Prepaid l.sys a ∧ ∀ t, billedTask l.sys a = some t →
      Adjustable l.store t (-t.quota)

theorem refundCall_cases (t : Task) : refundCall t = [] ∨ t.quota ≠ 0 ∧ refundCall t = [.refund t] := by
  unfold refundCall
  by_cases hq : t.quota = 0
  · exact .inl (if_pos hq)
  · exact .inr ⟨hq, if_neg hq⟩

variable {info : TaskInfo} {t : Task}

theorem applyResult_perCall {env : PollEnv} {t' : Task} (h : applyResult env t info = some t') :
    t'.privateData.perCallBilling = t.privateData.perCallBilling := by
  unfold applyResult at h
  dsimp only at h
  split at h <;> cases h
  all_goals first | rfl | (split <;> rfl)

theorem keepsQuota_polled {env : PollEnv} {a : VideoAnswer} {t' : Task}
    (h : polled env a t = some (info, t')) : keepsQuota a info t' = keepsQuota a info t := by
  have hcall := applyResult_perCall (polled_eq_some.mp h).2
  have hquota := (polled_spec h).2.1.quota
  simp only at hcall
  simp only [keepsQuota, hcall, hquota]

variable {x : TaskSystem} {a : Action}

/-- A step bills at most once: it refunds a task it holds, or recalculates one. -/
inductive Bills (x : TaskSystem) (a : Action) : List BillingCall → Prop
  | none : Bills x a []
  | refund {t t' : Task} (ht : billedTask x a = some t) (hpay : t'.payment = t.payment) (hquota : t'.quota = t.quota)
      (hq : t'.quota ≠ 0) : Bills x a [.refund t']
  | recalculate (t : Task) (actualQuota : Int) (hnot : ¬ Prepaid x a) : Bills x a [.recalculate t actualQuota]

theorem StepWrite.bills {rows : Rows} {calls : List BillingCall} (h : StepWrite x a rows calls) : Bills x a calls := by
  have hrefund {t : Task} (ht : billedTask x a = some t) (new : Task) (hpay : new.payment = t.payment)
      (hquota : new.quota = t.quota) : Bills x a (refundCall new) := by
    rcases refundCall_cases new with hr | ⟨hq, hr⟩
    · rw [hr]
      exact .none
    · rw [hr]
      exact .refund ht hpay hquota hq
  cases h with
  | pollVideo env answer ht =>
    next t =>
    cases hp : polled env answer t with
    | none =>
      rw [updateVideoSingleTask_dropped hp]
      exact .none
    | some r =>
      obtain ⟨info, t'⟩ := r
      have hsame := (polled_spec hp).2.1
      rcases updateVideoSingleTask_calls hp x.rows with hc | hc
      · rw [hc]
        exact .none
      · rw [hc]
        unfold billResult
        split
        · next hs =>
          -- A success: there is something to recalculate when the quota is not kept.
          have hsettle := settle_calls answer info t'
          rw [keepsQuota_polled hp] at hsettle
          split at hsettle
          · rw [hsettle]
            exact .none
          · next hkeep =>
            obtain ⟨_, _, _, hcall⟩ := hsettle
            rw [hcall]
            exact .recalculate _ _ (fun hpre => hkeep (hpre t info ht (polled_eq_some.mp hp).1 hs))
        · exact hrefund ht t' hsame.payment.symm hsame.quota.symm
        · exact .none
  | pollSuno ht =>
    next i item t =>
    unfold updateSunoTask
    split
    · dsimp only
      split
      · exact hrefund ht (sunoUpdated t item) rfl rfl
      · exact .none
    · exact .none
  | sweepNext env hs =>
    next i t rest =>
    have ht : billedTask x (.sweepNext env i) = some t := by simp [billedTask, hs]
    simp only [sweepTask]
    split
    · exact hrefund ht (timedOut env t) rfl rfl
    · exact .none
  -- The other steps never bill.
  | _ => exact .none

theorem StepWrite.wrote {rows : Rows} {calls : List BillingCall} (h : StepWrite x a rows calls)
    (hinv : Inv x) (hok : StepOk x a) (hsubmit : ∀ t, a ≠ .submit t) : Wrote x.rows rows calls := by
  cases h with
  | idle => exact .refl x.rows
  | submit t => exact absurd rfl (hsubmit t)
  | failNull hp => exact bulk_wrote none (hok _ hp)
  | failChannel channelId hp => exact bulk_wrote _ (hok _ hp)
  | pollSuno ht =>
    obtain ⟨p, hp, hplat, htask, _⟩ := step_pollSuno_some ht
    have hheld := hinv.passes p (mem_of_getElem? hp) _ _ htask
    exact (updateSunoTask_wrote (hheld.imp (fun _ => hplat)) (fun r hr hneed => hok p _ r hp htask hr hneed)).1
  | pollVideo env answer ht =>
    obtain ⟨p, hp, hplat, hmem, htask, _⟩ := step_pollVideo_some ht env answer
    exact (updateVideoSingleTask_wrote env answer (hinv.passes p (mem_of_getElem? hp) _ _ htask) hplat
      (hok p _ hp hmem htask)).1
  | sweepNext env hs =>
    obtain ⟨hheld, hd⟩ := hinv.sweeps _ (mem_of_getElem? hs) _ mem_cons_self
    exact sweepTask_wrote env hheld hd
  | finishFetch env answer ht =>
    exact tryRealtimeFetch_wrote env answer (hinv.fetches _ (mem_of_getElem? ht))
      (fun info r ha hr hst => hok _ info r ht ha hr hst)

/-- A task is charged its quota until it is refunded, and nothing afterwards. -/
def Paid (r : Task) (refunds : List Task) (charged : Int) : Prop :=
  (refunds = [] ∧ charged = r.quota) ∨ (r.status = .failure ∧ refunds ≠ [] ∧ charged = 0)

theorem Paid.transition {r r' : Task} {before refunds : List Task} {charged : Int} (h : Paid r before charged)
    (hb : Booked r before) (hs : SameTask r r') (ht : Transition r r' refunds) :
    Paid r' (before ++ refunds) (charged-(refunds.map Task.quota).sum) := by
  rcases ht with ⟨rfl, hu⟩ | ⟨hr, hr', _, _, rfl, hq, _⟩
  · rw [append_nil, map_nil, sum_nil, Int.sub_zero]
    rcases h with ⟨hnone, hc⟩ | ⟨hf, hsome, hc⟩
    · exact .inl ⟨hnone, hc.trans hs.quota⟩
    · -- A refunded task had a quota and stays a failure.
      refine .inr ⟨?_, hsome, hc⟩
      rcases hu with hz | hiff | ⟨_, hf'⟩
      · exact absurd (hb.free hz) hsome
      · exact hiff.mp hf
      · exact hf'
  · rcases h with ⟨_, hc⟩ | ⟨hf, _⟩
    · refine .inr ⟨hr', by simp, ?_⟩
      rw [map_singleton, sum_singleton, hq, hc, Int.sub_self]
    · exact absurd hf hr

theorem Transition.payment {r r' : Task} {refunds : List Task} (h : Transition r r' refunds) (t : Task)
    (ht : t ∈ refunds) : t.payment = r.payment := by
  rcases h with ⟨rfl, _⟩ | ⟨_, _, _, _, rfl, _, hp⟩
  · cases ht
  · rw [mem_singleton.mp ht, hp]

/-- The invariant of the ledger. A token that is there has been charged like the task. -/
structure Balanced (tokenKey : Int → String) (l : Ledger) : Prop where
  inv : Inv l.sys
  paid : ∀ id r, l.sys.rows.find id = some r → Paid r (refundsOf l.sys.calls id) (l.charged id)
  token : ∀ id r, l.sys.rows.find id = some r → 0 < r.privateData.tokenId →
    tokenKey r.privateData.tokenId ≠ "" → l.tokenCharged id = l.charged id

theorem adjustable_congr {t' : Task} (h : t'.payment = t.payment) (st : Store) (delta : Int) :
    Adjustable st t' delta ↔ Adjustable st t delta := by
  simp only [Task.payment, Payment.mk.injEq] at h
  obtain ⟨_, hsource, hsub, _⟩ := h
  simp only [Adjustable, taskIsSubscription, hsource, hsub]

theorem drop_calls {y : TaskSystem} {calls : List BillingCall} (h : y.calls = x.calls ++ calls) :
    y.calls.drop x.calls.length = calls := by
  rw [h, drop_left]

section Step

variable {env : Env} (hf : env.fails = never) {tokenKey : Int → String} {l : Ledger}
include hf

theorem foldl_bill {calls : List BillingCall}
    (h : calls = [] ∨ ∃ t, t.quota ≠ 0 ∧ Adjustable l.store t (-t.quota) ∧ calls = [.refund t]) (id : Int) :
    (calls.foldl (bill env tokenKey) l).sys = l.sys ∧ (calls.foldl (bill env tokenKey) l).charged id =
        l.charged id-((refundsOf calls id).map Task.quota).sum ∧
      ((∀ t ∈ refundsOf calls id, 0 < t.privateData.tokenId ∧ tokenKey t.privateData.tokenId ≠ "") →
        (calls.foldl (bill env tokenKey) l).tokenCharged id =
          l.tokenCharged id-((refundsOf calls id).map Task.quota).sum) := by
  rcases h with rfl | ⟨t, hq, hadj, rfl⟩
  · simp
  · have hamount : (BillingCall.refund t).amount ≠ 0 := by
      change -t.quota ≠ 0
      omega
    obtain ⟨htaken, htoken⟩ := execute_taken hf tokenKey hamount (fun _ _ hc => by cases hc) hadj
    simp only [BillingCall.task, BillingCall.amount] at htaken htoken
    simp only [foldl_cons, foldl_nil, bill, BillingCall.task, htaken]
    -- The refund is booked under the task's own id and under no other.
    by_cases hid : t.id = id
    · subst hid
      have hrefunds : refundsOf [.refund t] t.id = [t] := by simp [refundsOf]
      simp only [hrefunds, map_singleton, sum_singleton, update_self, mem_singleton, forall_eq, true_and]
      refine ⟨by omega, ?_⟩
      rintro ⟨hpos, hkey⟩
      rw [htoken hpos hkey]
      omega
    · have hrefunds : refundsOf [.refund t] id = [] := by simp [refundsOf, hid]
      simp [hrefunds, update_of_ne (Ne.symm hid)]

theorem Balanced.task (h : Balanced tokenKey l) (hok : LedgerOk l (.task a)) (hsubmit : ∀ t, a ≠ .submit t) :
    Balanced tokenKey (ledgerStep env tokenKey l (.task a)) := by
  obtain ⟨hstep, hpre, hadj⟩ := hok
  obtain ⟨calls, hcalls, hwrite⟩ := step_write a
  have hw := hwrite.wrote h.inv hstep hsubmit
  have hsub : submitted l a = l := by
    cases a with
    | submit t => exact absurd rfl (hsubmit t)
    | _ => rfl
  have hl : ledgerStep env tokenKey l (.task a) = calls.foldl (bill env tokenKey) { l with sys := step l.sys a } := by
    simp only [ledgerStep, drop_calls hcalls, hsub]
  have hbill' : calls = [] ∨ ∃ t, t.quota ≠ 0 ∧ Adjustable l.store t (-t.quota) ∧ calls = [.refund t] := by
    cases hwrite.bills with
    | none => exact .inl rfl
    | refund ht hpay hquota hq =>
      refine .inr ⟨_, hq, ?_, rfl⟩
      rw [adjustable_congr hpay, hquota]
      exact hadj _ ht
    | recalculate _ _ hnot => exact absurd hpre hnot
  -- First the rows change, then the refund is carried out on the balances.
  let l₁ : Ledger := { l with sys := step l.sys a }
  have hledger (id : Int) := @foldl_bill env hf tokenKey l₁ calls hbill' id
  rw [hl]
  have hsys := (hledger 0).1
  refine ⟨?_, ?_, ?_⟩
  · rw [hsys]
    exact h.inv.step hstep
  · intro id r' hr'
    rw [hsys] at hr' ⊢
    obtain ⟨r, hr, hsame, htrans⟩ := hw.row hr'
    rw [(hledger id).2.1, hcalls, refundsOf_append]
    exact (h.paid id r hr).transition (h.inv.booked id r hr) hsame htrans
  · intro id r' hr' hid hkey
    rw [hsys] at hr'
    obtain ⟨r, hr, hsame, htrans⟩ := hw.row hr'
    have htid : r'.privateData.tokenId = r.privateData.tokenId := (congrArg Payment.tokenId hsame.payment).symm
    rw [htid] at hid hkey
    -- A refund goes to the token the task was charged with.
    have hthere (t : Task) (ht : t ∈ refundsOf calls id) :
        0 < t.privateData.tokenId ∧ tokenKey t.privateData.tokenId ≠ "" := by
      have hpay : t.privateData.tokenId = r.privateData.tokenId := congrArg Payment.tokenId (htrans.payment t ht)
      rw [hpay]
      exact ⟨hid, hkey⟩
    rw [(hledger id).2.1, (hledger id).2.2 hthere]
    have hold := h.token id r hr hid hkey
    change l.tokenCharged id-_ = l.charged id-_
    rw [hold]

end Step

theorem Balanced.submit {tokenKey : Int → String} {l : Ledger} (h : Balanced tokenKey l) (env : Env)
    (ht : t.status = .notStart) : Balanced tokenKey (ledgerStep env tokenKey l (.task (.submit t))) := by
  have hl : ledgerStep env tokenKey l (.task (.submit t)) =
      { submitted l (.submit t) with sys := step l.sys (.submit t) } := by
    simp only [ledgerStep]
    have hcalls : (step l.sys (.submit t)).calls = l.sys.calls ++ [] := (append_nil _).symm
    rw [drop_calls hcalls]
    rfl
  have hinv := h.inv.submit ht
  rw [hl]
  cases hr₀ : l.sys.rows.find t.id with
  | some =>
    -- The primary key is taken: no row, no charge.
    have hstep : step l.sys (.submit t) = l.sys := by simp only [step, Table.insert_of_find hr₀]
    rw [hstep] at hinv ⊢
    simp only [submitted, hr₀]
    exact h
  | none =>
    simp only [submitted, hr₀]
    have hrefunds : refundsOf l.sys.calls t.id = [] := h.inv.unknown t.id hr₀
    refine ⟨hinv, ?_, ?_⟩
    · intro id r hr
      have hr : (l.sys.rows.insert t).find id = some r := hr
      rw [Table.find_insert _ _ _ hr₀] at hr
      split at hr
      · next hid =>
        cases hr
        subst hid
        exact .inl ⟨hrefunds, update_self ..⟩
      · next hid =>
        change Paid r (refundsOf l.sys.calls id) (update l.charged t.id t.quota id)
        rw [update_of_ne hid]
        exact h.paid id r hr
    · intro id r hr hpos hkey
      have hr : (l.sys.rows.insert t).find id = some r := hr
      rw [Table.find_insert _ _ _ hr₀] at hr
      change update l.tokenCharged t.id t.quota id = update l.charged t.id t.quota id
      split at hr
      · next hid =>
        subst hid
        rw [update_self, update_self]
      · next hid =>
        rw [update_of_ne hid, update_of_ne hid]
        exact h.token id r hr hpos hkey

theorem Balanced.step {env : Env} (hf : env.fails = never) {tokenKey : Int → String} {l : Ledger}
    (h : Balanced tokenKey l) {e : Event} (hok : LedgerOk l e) : Balanced tokenKey (ledgerStep env tokenKey l e) := by
  cases e with
  | elsewhere => exact ⟨h.inv, h.paid, h.token⟩
  | task a =>
    by_cases hsubmit : ∃ t, a = .submit t
    · obtain ⟨t, rfl⟩ := hsubmit
      exact h.submit env hok.1
    · exact h.task hf hok (fun t he => hsubmit ⟨t, he⟩)

variable {answer : VideoAnswer} {upstreamId : String}

theorem step_success (poll : PollEnv) {i : ℕ} {channelId : Int} {r : Task}
    (ht : videoTask x i channelId upstreamId = some t) (hopen : t.status.done = false)
    (hread : readAs answer = some info) (hs : info.status = .success) (hr : x.rows.find t.id = some r)
    (hst : r.status = t.status) :
    ∃ t', polled poll answer t = some (info, t') ∧ t'.status = .success ∧
      (step x (.pollVideo poll i channelId upstreamId answer)).rows.find t.id = some t' ∧
      (step x (.pollVideo poll i channelId upstreamId answer)).calls =
        x.calls ++ (settleTaskBillingOnComplete answer info t').2 := by
  obtain ⟨t', happ⟩ : ∃ t', applyResult poll { t with data := answer.data } info = some t' := by
    simp only [applyResult, hs]
    exact ⟨_, rfl⟩
  have hpolled : polled poll answer t = some (info, t') := polled_eq_some.mpr ⟨hread, happ⟩
  obtain ⟨_, hsame, hstatus⟩ := polled_spec hpolled
  have hdone : t'.status = .success := hstatus.trans hs
  have hsnap : snapshotEqual t t' = false := by
    have hne : t.status ≠ t'.status := by
      intro he
      rw [he, hdone] at hopen
      cases hopen
    simp [snapshotEqual, hne]
  have hwon : (updateWithStatus x.rows t' t.status).1 = true := by
    have hr' : x.rows.find t'.id = some r := hsame.id ▸ hr
    rw [updateWithStatus_eq hr', if_pos hst]
  have hpoll := updateVideoSingleTask_open hpolled hopen x.rows
  rw [if_pos ⟨hsnap, hwon⟩] at hpoll
  obtain ⟨_, _, _, _, _, hstep⟩ := step_pollVideo_some ht poll answer
  rw [hstep, hpoll]
  refine ⟨t', hpolled, hdone, Table.find_save_of_key x.rows hsame.id.symm hr, ?_⟩
  simp only [billResult, hs]

theorem Balanced.success {env : Env} (hf : env.fails = never) {tokenKey : Int → String} {l : Ledger}
    (h : Balanced tokenKey l) (poll : PollEnv) {i : ℕ} {channelId : Int} {r : Task}
    (ht : videoTask l.sys i channelId upstreamId = some t) (hopen : t.status.done = false)
    (hwallet : taskIsSubscription t = false) (hread : readAs answer = some info)
    (hs : info.status = .success) (hr : l.sys.rows.find t.id = some r) (hst : r.status = t.status) :
    ∃ r', (ledgerStep env tokenKey l (.task (.pollVideo poll i channelId upstreamId answer))).sys.rows.find t.id =
        some r' ∧ r'.status = .success ∧
      ((ledgerStep env tokenKey l (.task (.pollVideo poll i channelId upstreamId answer))).charged t.id = r'.quota ↔
        keepsQuota answer info t = true) := by
  obtain ⟨t', hpolled, hdone, hrow, hcalls⟩ := step_success poll ht hopen hread hs hr hst
  obtain ⟨p, hp, _, _, htask, _⟩ := step_pollVideo_some ht poll answer
  have hsame := (polled_spec hpolled).2.1
  -- So far the task was charged what its row says, which is what the new row says.
  have hquota : t.quota = r.quota := by
    obtain ⟨r₀, hr₀, _, _, hq⟩ := h.inv.passes p (mem_of_getElem? hp) _ t htask
    rw [hr] at hr₀
    cases hr₀
    exact hq (.inr hopen)
  have hcharged : l.charged t.id = t'.quota := by
    rcases h.paid t.id r hr with ⟨_, hc⟩ | ⟨hfail, _, _⟩
    · rw [hc, ← hquota, hsame.quota]
    · rw [hst] at hfail
      rw [hfail] at hopen
      cases hopen
  have hsettle := settle_calls answer info t'
  rw [keepsQuota_polled hpolled] at hsettle
  simp only [ledgerStep, drop_calls hcalls]
  cases hkeep : keepsQuota answer info t with
  | true =>
    rw [hkeep, if_pos rfl] at hsettle
    rw [hsettle]
    exact ⟨t', hrow, hdone, fun _ => rfl, fun _ => hcharged⟩
  | false =>
    rw [hkeep, if_neg (by simp)] at hsettle
    obtain ⟨actualQuota, hpos, hother, hcall⟩ := hsettle
    rw [hcall]
    refine ⟨t', hrow, hdone, ?_⟩
    -- A wallet takes any change, so the settlement goes through and the row does not follow.
    have hadj : Adjustable l.store t' (actualQuota-t'.quota) := by
      rw [adjustable_congr hsame.payment.symm]
      intro hsub
      rw [hwallet] at hsub
      cases hsub
    have hamount : (BillingCall.recalculate t' actualQuota).amount ≠ 0 := by
      change actualQuota-t'.quota ≠ 0
      omega
    obtain ⟨htaken, _⟩ := execute_taken hf tokenKey hamount (fun _ _ hc => by cases hc; exact hpos) hadj
    simp only [BillingCall.task, BillingCall.amount] at htaken
    simp only [foldl_cons, foldl_nil, bill, BillingCall.task, htaken, submitted, ← hsame.id,
      update_self, hcharged, Bool.false_eq_true, iff_false]
    omega

def emptyLedger (st : Store) : Ledger := ⟨initial, st, fun _ => 0, fun _ => 0⟩

/-- In every admissible run a task that succeeded has been charged the quota in its row, one that was refunded
nothing, and the token the same; a settlement agrees with the row exactly when it keeps the quota. -/
theorem ledger_matches_row (env : Env) (hf : env.fails = never) (tokenKey : Int → String) (st : Store)
    (events : List Event) (hok : Along (ledgerStep env tokenKey) LedgerOk (emptyLedger st) events) :
    let l := exec (ledgerStep env tokenKey) (emptyLedger st) events
    (∀ r ∈ l.sys.rows.rows, (r.status = .success → l.charged r.id = r.quota) ∧
      (refundsOf l.sys.calls r.id ≠ [] → l.charged r.id = 0) ∧
      (0 < r.privateData.tokenId → tokenKey r.privateData.tokenId ≠ "" →
        l.tokenCharged r.id = l.charged r.id)) ∧
    ∀ poll i channelId upstreamId answer t info r, videoTask l.sys i channelId upstreamId = some t →
      t.status.done = false → taskIsSubscription t = false → readAs answer = some info →
        info.status = .success →
      l.sys.rows.find t.id = some r → r.status = t.status →
        let l' := ledgerStep env tokenKey l (.task (.pollVideo poll i channelId upstreamId answer))
        ∃ r', l'.sys.rows.find t.id = some r' ∧ r'.status = .success ∧
          (l'.charged t.id = r'.quota ↔ keepsQuota answer info t = true) := by
  intro l
  have hinit : Balanced tokenKey (emptyLedger st) := by
    exact ⟨.initial, fun id r hr => (by cases hr), fun id r hr => (by cases hr)⟩
  have hbal : Balanced tokenKey l :=
    exec_invariant (Balanced tokenKey) (fun _ _ h hok => h.step hf hok) (emptyLedger st) events hinit hok
  refine ⟨?_, ?_⟩
  · intro r hr
    have hfind := Table.find_mem l.sys.rows r hr
    refine ⟨?_, ?_, hbal.token r.id r hfind⟩
    · intro hs
      rcases hbal.paid r.id r hfind with ⟨_, hc⟩ | ⟨hfail, _⟩
      · exact hc
      · rw [hs] at hfail
        cases hfail
    · intro hsome
      rcases hbal.paid r.id r hfind with ⟨hnone, _⟩ | ⟨_, _, hc⟩
      · exact absurd hnone hsome
      · exact hc
  · intro poll i channelId upstreamId answer t info r ht hopen hwallet hread hs hr hst
    exact hbal.success hf poll ht hopen hwallet hread hs hr hst

def failedTask : Task :=
  { sampleTask with status := .failure, progress := "100%", finishTime := 1800000600, failReason := "no credit" }

theorem unbilled_adjustable {x : TaskSystem} {a : Action} (ha : billedTask x a = none) (st : Store) :
    ∀ t, billedTask x a = some t → Adjustable st t (-t.quota) := by
  intro t ht
  rw [ha] at ht
  cases ht

theorem samplePoll_ok {x : TaskSystem} {i : ℕ} {p : Pass} (hp : x.passes[i]? = some p)
    (htask : p.taskM "up-1" = some sampleTask) (answer : VideoAnswer) (st : Store) :
    StepOk x (.pollVideo sampleEnv i 7 "up-1" answer) ∧
      ∀ t, billedTask x (.pollVideo sampleEnv i 7 "up-1" answer) = some t → Adjustable st t (-t.quota) := by
  constructor
  · intro q t hq _ ht
    rw [hp] at hq
    cases hq
    rw [htask] at ht
    cases ht
    rfl
  · intro t ht hsub
    have ht : videoTask x i 7 "up-1" = some t := ht
    simp only [videoTask, hp] at ht
    split at ht
    · cases ht
    · rw [htask] at ht
      cases ht
      cases hsub

/-- A task that fails upstream is refunded, and its ledger ends at zero. -/
theorem ledger_matches_row_sample :
    let answer : VideoAnswer := { result := some { status := .failure, reason := "no credit" } }
    let events : List Event := [.task (.submit sampleTask), .task (.startPoll 10),
      .task (.pollVideo sampleEnv 0 7 "up-1" answer), .elsewhere Billing.sampleStore]
    let l := exec (ledgerStep Billing.sampleEnv (fun _ => "sk")) (emptyLedger Billing.sampleStore) events
    (refundsOf l.sys.calls 1).length = 1 ∧ l.charged 1 = 0 ∧ l.tokenCharged 1 = 0 := by
  intro answer events l
  have hprepaid (x : TaskSystem) : Prepaid x (.pollVideo sampleEnv 0 7 "up-1" answer) := by
    intro t info _ hinfo hs
    cases hinfo
    cases hs
  have hok : Along (ledgerStep Billing.sampleEnv (fun _ => "sk")) LedgerOk
      (emptyLedger Billing.sampleStore) events := by
    refine ⟨⟨rfl, trivial, unbilled_adjustable rfl _⟩, ⟨trivial, trivial, unbilled_adjustable rfl _⟩, ?_, trivial,
      trivial⟩
    obtain ⟨hstep, hrefund⟩ := samplePoll_ok (x := step (step initial (.submit sampleTask)) (.startPoll 10)) (i := 0)
      (p := buildPass (.other "kling") [sampleTask]) rfl rfl answer Billing.sampleStore
    exact ⟨hstep, hprepaid _, hrefund⟩
  obtain ⟨hrows, _⟩ := ledger_matches_row Billing.sampleEnv rfl (fun _ => "sk") Billing.sampleStore events hok
  obtain ⟨_, hzero, htoken⟩ := hrows failedTask (by decide)
  have hone : (refundsOf l.sys.calls 1).length = 1 := by decide
  have hcharged : l.charged 1 = 0 := by
    apply hzero
    intro hnone
    have hnone : refundsOf l.sys.calls 1 = [] := hnone
    rw [hnone] at hone
    cases hone
  have htoken : l.tokenCharged 1 = l.charged 1 := htoken (by decide) (by decide)
  exact ⟨hone, hcharged, htoken.trans hcharged⟩

/-- The adaptor settles a task of quota 100 at 70. The user has paid 70, and the row of the
successful task still says 100. -/
theorem settled_quota_not_persisted :
    let answer : VideoAnswer := { result := some { status := .success }, adaptorQuota := 70 }
    let events : List Event :=
      [.task (.submit sampleTask), .task (.startPoll 10), .task (.pollVideo sampleEnv 0 7 "up-1" answer)]
    let l := exec (ledgerStep Billing.sampleEnv (fun _ => "sk")) (emptyLedger Billing.sampleStore) events
    l.sys.rows.rows.map (fun r => (r.status, r.quota)) = [(.success, 100)] ∧ l.charged 1 = 70 ∧
      l.tokenCharged 1 = 70 ∧ l.store.userQuota 1 = Billing.sampleStore.userQuota 1+30 := by
  decide

end AiGateway.Tasks
