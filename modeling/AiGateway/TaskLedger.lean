import AiGateway.TaskPolled

/-! The ledger of the tasks: what each has been charged in all, kept call by call while the
polls settle and refund, beside the quota that its row says. -/
namespace AiGateway.Tasks
open Billing Fault

def taken (st : Store) (t : Task) : Int :=
  if taskIsSubscription t then st.used t.privateData.subscriptionId else -st.userQuota t.userId

def tokenTaken (st : Store) (t : Task) : Int := -st.tokenQuota t.privateData.tokenId

def execute (env : Env) (tokenKey : Int → String) (st : Store) : BillingCall → Store
  | .refund t => refundTaskQuota env (tokenKey t.privateData.tokenId) t st
  | .recalculate t actualQuota => (recalculateTaskQuota env (tokenKey t.privateData.tokenId) t actualQuota st).2

structure Ledger where
  sys : TaskSystem
  store : Store
  charged : Int → Int
  tokenCharged : Int → Int

def bill (env : Env) (tokenKey : Int → String) (l : Ledger) (c : BillingCall) : Ledger :=
  let st := execute env tokenKey l.store c
  { l with
    store := st
    charged := Function.update l.charged c.task.id
      (l.charged c.task.id+(taken st c.task-taken l.store c.task))
    tokenCharged := Function.update l.tokenCharged c.task.id
      (l.tokenCharged c.task.id+(tokenTaken st c.task-tokenTaken l.store c.task)) }

inductive Event
  | task (a : Action)
  | elsewhere (st : Store)

def submitted (l : Ledger) : Action → Ledger
  | .submit t =>
    match l.sys.rows.find t.id with
    | some _ => l
    | none => { l with
        charged := Function.update l.charged t.id t.quota
        tokenCharged := Function.update l.tokenCharged t.id t.quota }
  | _ => l

def ledgerStep (env : Env) (tokenKey : Int → String) (l : Ledger) : Event → Ledger
  | .elsewhere st => { l with store := st }
  | .task a =>
    let sys := step l.sys a
    (sys.calls.drop l.sys.calls.length).foldl (bill env tokenKey) { submitted l a with sys := sys }

def keepsQuota (a : VideoAnswer) (info : TaskInfo) (t : Task) : Bool :=
  if t.privateData.perCallBilling then true
  else if 0 < a.adaptorQuota then a.adaptorQuota = t.quota
  else if 0 < info.totalTokens then
    match a.tokenQuota with
    | none => true
    | some actualQuota => actualQuota ≤ 0 ∨ actualQuota = t.quota
  else true

theorem recalculateCall_calls (t : Task) (actualQuota : Int) : (recalculateCall t actualQuota).2 =
      if actualQuota ≤ 0 ∨ actualQuota = t.quota then [] else [.recalculate t actualQuota] := by
  unfold recalculateCall
  split <;> rfl

theorem settle_calls (a : VideoAnswer) (info : TaskInfo) (t : Task) :
    if keepsQuota a info t then (settleTaskBillingOnComplete a info t).2 = []
    else ∃ actualQuota, 0 < actualQuota ∧ actualQuota ≠ t.quota ∧
      (settleTaskBillingOnComplete a info t).2 = [.recalculate t actualQuota] := by
  have hrec (q : Int) : if decide (q ≤ 0 ∨ q = t.quota) = true then (recalculateCall t q).2 = []
      else ∃ actualQuota, 0 < actualQuota ∧ actualQuota ≠ t.quota ∧
        (recalculateCall t q).2 = [.recalculate t actualQuota] := by
    rw [recalculateCall_calls]
    by_cases hq : q ≤ 0 ∨ q = t.quota
    · simp [hq]
    · rw [if_neg (by simpa using hq), if_neg hq]
      exact ⟨q, by omega, by omega, rfl⟩
  unfold keepsQuota settleTaskBillingOnComplete
  by_cases hcall : t.privateData.perCallBilling = true
  · simp [hcall]
  · simp only [hcall, Bool.false_eq_true, if_false]
    by_cases ha : 0 < a.adaptorQuota
    · have h := hrec a.adaptorQuota
      have hle : ¬ a.adaptorQuota ≤ 0 := by omega
      simp only [hle, false_or] at h
      simp only [ha, if_true]
      exact h
    · simp only [ha, if_false]
      by_cases hi : 0 < info.totalTokens
      · simp only [hi, if_true]
        cases a.tokenQuota with
        | none => simp
        | some q => exact hrec q
      · simp [hi]

/-- The funding source of the task can be moved by `delta`. A wallet always can; a
subscription has to be there, and to have been used for what it gives back. -/
def Adjustable (st : Store) (t : Task) (delta : Int) : Prop :=
  taskIsSubscription t = true → ∃ sub, st.sub.subs.find t.privateData.subscriptionId = some sub ∧
    0 ≤ sub.amountUsed+delta ∧ (0 < sub.amountTotal → sub.amountUsed+delta ≤ sub.amountTotal)

section
variable {env : Env} (hf : env.fails = never)
include hf

theorem adjustUser_never (site : Site) (id delta : Int) (st : Store) :
    adjustUser env site id delta st = .ok (st.addUser id (-delta)) := by
  have hfree : env.fails (.user site) = none := by
    rw [hf]
    rfl
  unfold adjustUser
  split
  · exact changeQuota_eq hfree (by omega)
  · exact changeQuota_eq hfree (by omega)

theorem taskAdjustFunding_taken {t : Task} {delta : Int} {st : Store} (hd : delta ≠ 0)
    (h : Adjustable st t delta) :
    ∃ st', taskAdjustFunding env t delta st = .ok st' ∧ taken st' t = taken st t+delta ∧
      st'.tokenQuota = st.tokenQuota := by
  cases hs : taskIsSubscription t with
  | false =>
    refine ⟨st.addUser t.userId (-delta), ?_, ?_, rfl⟩
    · rw [taskAdjustFunding, hs, if_neg (by simp), adjustUser_never hf]
    · simp only [taken, hs, Bool.false_eq_true, if_false, Store.addUser, Function.update_self]
      omega
  | true =>
    obtain ⟨sub, hsub, hnn, hlim⟩ := h hs
    have hid : 0 < t.privateData.subscriptionId := by
      simp only [taskIsSubscription, decide_eq_true_eq] at hs
      exact hs.2
    refine ⟨st.addUsed t.privateData.subscriptionId delta, ?_, ?_, addUsed_tokenQuota⟩
    · rw [taskAdjustFunding, if_pos hs, postConsumeDelta_eq hf hid hsub hd hnn, if_neg]
      rintro ⟨htotal, hlt⟩
      exact absurd (hlim htotal) (by omega)
    · have hfind : (st.addUsed t.privateData.subscriptionId delta).sub.subs.find t.privateData.subscriptionId =
          some { sub with amountUsed := sub.amountUsed+delta } := by
        have hkey := Table.find_key st.sub.subs hsub
        simp only [Store.addUsed, hsub]
        exact Table.find_save_of_key st.sub.subs hkey hsub
      simp only [taken, hs, if_true, used_eq hfind, used_eq hsub]

theorem taskAdjustTokenQuota_taken (tokenKey : String) (t : Task) {delta : Int} (hd : delta ≠ 0)
    (st : Store) : taken (taskAdjustTokenQuota env tokenKey t delta st) t = taken st t ∧
      (0 < t.privateData.tokenId → tokenKey ≠ "" →
        tokenTaken (taskAdjustTokenQuota env tokenKey t delta st) t = tokenTaken st t+delta) := by
  have hfree : env.fails (.token .charge) = none := by
    rw [hf]
    rfl
  by_cases hskip : t.privateData.tokenId ≤ 0 ∨ tokenKey = ""
  · have hsame : taskAdjustTokenQuota env tokenKey t delta st = st := by
      unfold taskAdjustTokenQuota
      rcases hskip with hle | hkey
      · rw [if_pos (.inl hle)]
      · rw [if_pos hkey, ite_self]
    rw [hsame]
    refine ⟨rfl, ?_⟩
    intro hid hkey
    exact absurd hskip (by simp [hkey, hid])
  · rw [not_or] at hskip
    have hmoved : taskAdjustTokenQuota env tokenKey t delta st = st.addToken t.privateData.tokenId (-delta) := by
      rw [taskAdjustTokenQuota, if_neg (by omega), if_neg hskip.2]
      split
      · next h =>
        split at h
        · exact (changeQuota_ok h).2
        · exact (changeQuota_ok h).2
      · next h =>
        -- Without failures of the storage the token's row is always written.
        split at h
        · rw [decreaseTokenQuota, changeQuota_eq hfree (by omega)] at h
          cases h
        · rw [increaseTokenQuota, changeQuota_eq hfree (by omega)] at h
          cases h
    rw [hmoved]
    refine ⟨rfl, fun _ _ => ?_⟩
    simp only [tokenTaken, Store.addToken, Function.update_self]
    omega

end

def BillingCall.amount : BillingCall → Int
  | .refund t => -t.quota
  | .recalculate t actualQuota => actualQuota-t.quota

theorem execute_taken {env : Env} (hf : env.fails = never) (tokenKey : Int → String) {st : Store} {c : BillingCall}
    (hc : c.amount ≠ 0) (hpos : ∀ t q, c = .recalculate t q → 0 < q) (h : Adjustable st c.task c.amount) :
    taken (execute env tokenKey st c) c.task = taken st c.task+c.amount ∧
      (0 < c.task.privateData.tokenId → tokenKey c.task.privateData.tokenId ≠ "" →
        tokenTaken (execute env tokenKey st c) c.task = tokenTaken st c.task+c.amount) := by
  obtain ⟨st₁, hst₁, htaken, htoken⟩ := taskAdjustFunding_taken hf hc h
  obtain ⟨hsame, hmoved⟩ :=
    taskAdjustTokenQuota_taken hf (tokenKey c.task.privateData.tokenId) c.task hc st₁
  have hexec : execute env tokenKey st c =
      taskAdjustTokenQuota env (tokenKey c.task.privateData.tokenId) c.task c.amount st₁ := by
    cases c with
    | refund t =>
      have hq : t.quota ≠ 0 := by
        intro hq
        simp [BillingCall.amount, hq] at hc
      simp only [BillingCall.amount, BillingCall.task] at hst₁ ⊢
      simp only [execute, refundTaskQuota, if_neg hq, hst₁]
    | recalculate t q =>
      have hq := hpos t q rfl
      simp only [BillingCall.amount, BillingCall.task] at hst₁ hc ⊢
      simp only [execute, recalculateTaskQuota, if_neg (show ¬ q ≤ 0 by omega), if_neg hc, hst₁]
  have hold : tokenTaken st₁ c.task = tokenTaken st c.task := by simp only [tokenTaken, htoken]
  rw [hexec, hsame, htaken]
  refine ⟨rfl, ?_⟩
  intro hid hkey
  rw [hmoved hid hkey, hold]

end AiGateway.Tasks
