import AiGateway.TaskCharge

/-! A failed task gets its quota back once, over every run made of writes that keep to that: what the
refunds return to the funding source and to the token, call by call. -/
namespace AiGateway.Tasks
open Billing Fault List Run

/-- What a refund has returned to the funding source of the task and to its token. -/
structure Receipt where
  task : Task
  returned : Int
  tokenReturned : Int

variable (env : Env) (tokenKey : Int → String)

def receipts : Store → List BillingCall → List Receipt
  | _, [] => []
  | st, .refund t :: calls =>
    let st' := execute env tokenKey st (.refund t)
    ⟨t, taken st t-taken st' t, tokenTaken st t-tokenTaken st' t⟩ :: receipts st' calls
  | st, .recalculate t actualQuota :: calls => receipts (execute env tokenKey st (.recalculate t actualQuota)) calls

def receiptsOf (l : Ledger) : Event → List Receipt
  | .elsewhere _ => []
  | .task a => receipts env tokenKey l.store ((step l.sys a).calls.drop l.sys.calls.length)

/-- The refunds are in order, and the funding source can take back what they return. -/
def RefundOk (l : Ledger) : Event → Prop
  | .elsewhere _ => True
  | .task a => StepOk l.sys a ∧ ∀ t, billedTask l.sys a = some t → Adjustable l.store t (-t.quota)

/-- The whole quota came back, to the token also if it is there. -/
def Receipt.Full (x : Receipt) : Prop :=
  x.returned = x.task.quota ∧ (0 < x.task.privateData.tokenId → tokenKey x.task.privateData.tokenId ≠ "" →
    x.tokenReturned = x.task.quota)

/-- Each refund that was called for has returned the quota of its task. -/
structure Returned (l : Ledger) (xs : List Receipt) : Prop where
  inv : Inv l.sys
  tasks : ∀ id, (xs.filter (fun x => x.task.id = id)).map Receipt.task = refundsOf l.sys.calls id
  full : ∀ x ∈ xs, x.Full tokenKey

theorem foldl_bill_sys (calls : List BillingCall) (l : Ledger) : (calls.foldl (bill env tokenKey) l).sys = l.sys := by
  induction calls generalizing l with
  | nil => rfl
  | cons c calls ih => exact ih (bill env tokenKey l c)

variable {env tokenKey}

theorem Returned.step (hf : env.fails = never) {l : Ledger} {xs : List Receipt} (h : Returned tokenKey l xs) (e : Event)
    (hok : RefundOk l e) : Returned tokenKey (ledgerStep env tokenKey l e) (xs ++ receiptsOf env tokenKey l e) := by
  cases e with
  | elsewhere => simpa only [receiptsOf, append_nil] using ⟨h.inv, h.tasks, h.full⟩
  | task a =>
    obtain ⟨calls, hcalls, hwrite⟩ := step_write (x := l.sys) a
    have hsys : (ledgerStep env tokenKey l (.task a)).sys = Tasks.step l.sys a := by
      rw [ledgerStep]
      exact foldl_bill_sys env tokenKey _ _
    have hnew : receiptsOf env tokenKey l (.task a) = receipts env tokenKey l.store calls := by
      rw [receiptsOf, drop_calls hcalls]
    -- The receipts of the step are those of its refunds.
    have hstep : (∀ id, ((receipts env tokenKey l.store calls).filter (fun x => x.task.id = id)).map Receipt.task =
        refundsOf calls id) ∧ ∀ x ∈ receipts env tokenKey l.store calls, x.Full tokenKey := by
      cases hwrite.bills with
      | none | recalculate => simp [receipts, refundsOf]
      | @refund t t' ht hpay hquota hq =>
        have hamount : (BillingCall.refund t').amount ≠ 0 := by
          change -t'.quota ≠ 0
          omega
        have hadj : Adjustable l.store t' (-t'.quota) := by
          rw [adjustable_congr hpay, hquota]
          exact hok.2 t ht
        obtain ⟨htaken, htoken⟩ := execute_taken hf tokenKey hamount (fun _ _ hc => by cases hc) hadj
        simp only [BillingCall.task, BillingCall.amount] at htaken htoken
        refine ⟨?_, ?_⟩
        · intro id
          by_cases hid : t'.id = id <;> simp [receipts, refundsOf, hid]
        · intro x hx
          obtain rfl := mem_singleton.mp hx
          refine ⟨?_, ?_⟩
          · simp only [htaken]
            omega
          · intro hpos hkey
            simp only [htoken hpos hkey]
            omega
    rw [hnew]
    refine ⟨?_, ?_, ?_⟩
    · rw [hsys]
      exact h.inv.step hok.1
    · intro id
      rw [hsys, hcalls, refundsOf_append, filter_append, map_append, h.tasks, hstep.1]
    · intro x hx
      rcases mem_append.mp hx with hx | hx
      · exact h.full x hx
      · exact hstep.2 x hx

/-- In every state of a run, a failed task that is not a legacy one and had a quota has had it returned
once, to its own payer and to its token if that is there, and a successful task never. -/
theorem failed_task_refunded_once (env : Env) (hf : env.fails = never) (tokenKey : Int → String) (st : Store)
    (events : List Event) (hok : Along (ledgerStep env tokenKey) RefundOk (emptyLedger st) events) :
    let all := trace (ledgerStep env tokenKey) (receiptsOf env tokenKey) (emptyLedger st) events
    ∀ r ∈ (exec (ledgerStep env tokenKey) (emptyLedger st) events).sys.rows.rows,
      (r.status = .failure → r.quota ≠ 0 → isLegacy r = false →
        ∃ x, all.filter (fun x => x.task.id = r.id) = [x] ∧ x.task.payment = r.payment ∧ x.returned = r.quota ∧
          (0 < r.privateData.tokenId → tokenKey r.privateData.tokenId ≠ "" → x.tokenReturned = r.quota)) ∧
      (r.status = .success → all.filter (fun x => x.task.id = r.id) = []) := by
  intro all r hr
  have hinit : Returned tokenKey (emptyLedger st) [] := ⟨.initial, fun _ => rfl, fun _ hx => absurd hx not_mem_nil⟩
  have h : Returned tokenKey (exec (ledgerStep env tokenKey) (emptyLedger st) events) ([] ++ all) :=
    trace_invariant (Returned tokenKey) (fun _ _ e h hok => h.step hf e hok) hinit hok
  rw [nil_append] at h
  have hbooked := h.inv.booked r.id r (Table.find_mem _ r hr)
  have htasks := h.tasks r.id
  refine ⟨?_, ?_⟩
  · intro hfailed hquota hlegacy
    obtain ⟨t, hone, hq, hpay⟩ := hbooked.failed hfailed hquota hlegacy
    rw [hone] at htasks
    obtain ⟨x, hx, rfl⟩ := map_eq_singleton_iff.mp htasks
    have hmem : x ∈ all := (mem_filter.mp (hx ▸ mem_singleton_self x)).1
    obtain ⟨hreturned, htoken⟩ := h.full x hmem
    have htid : x.task.privateData.tokenId = r.privateData.tokenId := congrArg Payment.tokenId hpay
    rw [htid, hq] at htoken
    exact ⟨x, hx, hpay, hreturned.trans hq, htoken⟩
  · intro hs
    rw [hbooked.unfailed (by rw [hs]; simp)] at htasks
    exact map_eq_nil_iff.mp htasks

/-- A task that fails upstream is seen by two passes, and refunded by the first of them. -/
theorem failed_task_refunded_once_sample :
    let answer : VideoAnswer := { result := some { status := .failure, reason := "no credit" } }
    let events : List Event := [.task (.submit sampleTask), .task (.startPoll 10), .task (.startPoll 10),
      .task (.pollVideo sampleEnv 0 7 "up-1" answer), .elsewhere Billing.sampleStore,
      .task (.pollVideo sampleEnv 1 7 "up-1" answer)]
    let l := emptyLedger Billing.sampleStore
    ∃ x, (trace (ledgerStep Billing.sampleEnv (fun _ => "sk")) (receiptsOf Billing.sampleEnv (fun _ => "sk")) l
        events).filter (fun x => x.task.id = 1) = [x] ∧ x.returned = 100 ∧ x.tokenReturned = 100 := by
  intro answer events l
  have hpoll {y : Ledger} {i : ℕ} (hp : y.sys.passes[i]? = some (buildPass (.other "kling") [sampleTask])) :
      RefundOk y (.task (.pollVideo sampleEnv i 7 "up-1" answer)) := samplePoll_ok hp rfl answer y.store
  have hok : Along (ledgerStep Billing.sampleEnv (fun _ => "sk")) RefundOk l events :=
    ⟨⟨rfl, unbilled_adjustable rfl _⟩, ⟨trivial, unbilled_adjustable rfl _⟩, ⟨trivial, unbilled_adjustable rfl _⟩,
      hpoll rfl, trivial, hpoll rfl, trivial⟩
  obtain ⟨x, hx, _, hreturned, htoken⟩ := (failed_task_refunded_once Billing.sampleEnv rfl (fun _ => "sk")
    Billing.sampleStore events hok failedTask (by decide)).1 rfl (by decide) rfl
  exact ⟨x, hx, hreturned, htoken (by decide) (by decide)⟩

/-- A task whose channel is gone, and one whose failure a user sees first, fail and nothing is returned;
two polling passes that both hold a Suno task return its quota twice. -/
theorem failed_task_refunds_go_wrong :
    let run (actions : List Action) := exec (ledgerStep Billing.sampleEnv (fun _ => "sk"))
      (emptyLedger Billing.sampleStore) (actions.map .task)
    let returned (actions : List Action) := (trace (ledgerStep Billing.sampleEnv (fun _ => "sk"))
      (receiptsOf Billing.sampleEnv (fun _ => "sk")) (emptyLedger Billing.sampleStore) (actions.map .task)).map
        (fun x => (x.returned, x.tokenReturned))
    let gone := [.submit sampleTask, .startPoll 10, .failChannel 0 7]
    let fetched := [.submit sampleTask, .startFetch 1 "task_a", .finishFetch sampleEnv 0 (some { status := .failure }),
      .startPoll 10]
    let suno := [.submit { sampleTask with platform := .suno }, .startPoll 10, .startPoll 10,
      .pollSuno 0 { taskId := "up-1", status := .failure }, .pollSuno 1 { taskId := "up-1", status := .failure }]
    isLegacy sampleTask = false ∧
    ((run gone).sys.rows.rows.map Task.status = [.failure] ∧ returned gone = []) ∧
    ((run fetched).sys.rows.rows.map Task.status = [.failure] ∧ returned fetched = [] ∧
      (run fetched).sys.passes.length = 0) ∧
    ((run suno).sys.rows.rows.map Task.status = [.failure] ∧ returned suno = [(100, 100), (100, 100)]) := by
  decide

end AiGateway.Tasks
