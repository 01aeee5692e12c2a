import AiGateway.PaymentManual
import AiGateway.PaymentStatements

/-! Orders and codes under concurrent handlers. -/
namespace AiGateway.Payment
open ReadCommitted Fault List Table Run

variable {ref : Ref}

variable (cfg : Settings)

theorem statusOf_frame (db : PaymentDb) (w : Write) (hw : w.lock ≠ .ref ref) :
    statusOf ref (w.apply cfg db) = statusOf ref db := by
  cases w with
  | credit => cases ref <;> rfl
  | saveOrder t =>
    cases ref with
    | code => rfl
    | order tradeNo =>
      have hne : tradeNo ≠ t.tradeNo := fun he => hw (by rw [he]; rfl)
      simp only [statusOf, Write.apply, find_save_of_ne _ hne]
  | saveCode r =>
    cases ref with
    | order => rfl
    | code key =>
      have hne : key ≠ r.key := fun he => hw (by rw [he]; rfl)
      simp only [statusOf, Write.apply, find_save_of_ne _ hne]

theorem closesOnce (ref : Ref) :
    (program cfg).ClosesOnce (.ref ref) (isOpen ref) (fun l => l.closing = some ref)
    (fun r => r.closes = some ref) NotStale where
  frame := by
    intro db w hw
    have hsame := statusOf_frame cfg db w hw
    change isOpen ref (w.apply cfg db) = isOpen ref db
    rw [isOpen, isOpen, hsame]
  goto := by
    intro l db f l' h
    rw [(goto_spec h).1]
  other := by
    intro l db f w l' h hw
    cases write_spec h with
    | close ref' hlock hbefore hafter =>
      have hne : ref' ≠ ref := fun he => hw (he ▸ hlock)
      simp [hbefore, hafter, hne]
    | credit userId amount contact u quota huser hadd hclosing => rw [hclosing]
  close := by
    intro l db f w l' h hw
    cases write_spec h with
    | close ref' hlock hbefore hafter hcloses hopen =>
      have he : ref' = ref := Lock.ref.inj (hlock.symm.trans hw)
      subst he
      exact ⟨by simp [hbefore], by simp [hafter], hcloses, hopen⟩
    | credit => cases hw
  commit := by
    intro l db f r h
    rw [(commit_spec h).1]

variable {id : Int}

theorem quotaOf_frame (db : PaymentDb) (w : Write) (hw : w.lock ≠ .user id) :
    quotaOf (w.apply cfg db) id = quotaOf db id := by
  cases w with
  | saveOrder | saveCode => rfl
  | credit userId =>
    have hne : id ≠ userId := fun he => hw (by rw [he]; rfl)
    simp only [quotaOf, Write.apply, find_modify, if_neg hne]

theorem quotaOf_apply_credit (db : PaymentDb) (userId : Int) (amount : Amount) (contact : Contact) :
    quotaOf (Write.apply cfg db (.credit userId amount contact)) userId =
      (quotaOf db userId).map (fun q => (amount.addTo cfg q).getD q) := by
  simp only [quotaOf, Write.apply, find_modify, if_true, Option.map_map]
  rfl

theorem addsTo (id : Int) :
    (program cfg).AddsTo (.user id) (fun db => quotaOf db id) (Statement.pending id) (Answer.gain id) NotStale where
  congr := by
    intro db db' w h
    change quotaOf (w.apply cfg db) id = quotaOf (w.apply cfg db') id
    by_cases hw : w.lock = .user id
    · cases w with
      | credit userId =>
        have hid : userId = id := Lock.user.inj hw
        subst hid
        rw [quotaOf_apply_credit, quotaOf_apply_credit, h]
      | saveOrder | saveCode => cases hw
    · rw [quotaOf_frame cfg db w hw, quotaOf_frame cfg db' w hw]
      exact h
  frame := fun db w hw => quotaOf_frame cfg db w hw
  goto := fun h => (goto_spec h).2.1 id
  other := by
    intro l db f w l' h hw
    cases write_spec h with
    | close ref hlock hbefore hafter hcloses hopen hpending => exact hpending id
    | credit userId amount contact u quota huser hadd hclosing hbefore hafter =>
      have hne : userId ≠ id := fun he => hw (by rw [← he]; rfl)
      rw [hafter id, hbefore id, if_neg hne]
  own := by
    intro l db f w l' h hw _
    cases write_spec h with
    | close ref hlock => cases hlock.symm.trans hw
    | credit userId amount contact u quota huser hadd hclosing hbefore hafter =>
      have hid : userId = id := Lock.user.inj hw
      subst hid
      have hq : quotaOf db userId = some u.quota := by
        rw [quotaOf, huser]
        rfl
      change quotaOf (Write.apply cfg db (.credit userId amount contact)) userId = _
      rw [quotaOf_apply_credit, hq, hafter, hbefore, if_pos rfl]
      simp [hadd]
  commit := fun h => (commit_spec h).2.1 id

theorem owes (ref : Ref) : (program cfg).Owes follow (Statement.owes ref)
    (fun r => if r.credits = some ref then 1 else 0) (fun r => if r.closes = some ref then 1 else 0) where
  goto := fun h => le_of_eq ((goto_spec h).2.2 ref)
  write := by
    intro l db f w l' h
    cases write_spec h with
    | close ref' hlock hbefore hafter hcloses hopen hpending howes
    | credit userId amount contact u quota huser hadd hclosing hbefore hafter howes => exact le_of_eq (howes ref)
  nonneg := by
    intro l
    unfold Statement.owes
    split
    · split <;> decide
    · split <;> decide
    · exact le_refl 0
  commit := fun h => (commit_spec h).2.2 ref

theorem sum_ite_eq_countP {α : Type*} (p : α → Prop) [DecidablePred p] (as : List α) :
    (as.map (fun a => if p a then (1 : Int) else 0)).sum = as.countP (fun a => p a) := by
  induction as with
  | nil => rfl
  | cons a as ih =>
    rw [map_cons, sum_cons, ih, countP_cons]
    by_cases ha : p a
    · simp [ha, add_comm]
    · simp [ha]

section Runs

variable {cfg : Settings} {db : PaymentDb} {calls : List Call}

def start (db : PaymentDb) (calls : List Call) : System PaymentDb Write Statement Answer :=
  System.initial db (calls.map Call.first)

theorem first_closing (c : Call) : c.first.closing = none := by cases c <;> rfl

theorem first_pending (c : Call) : c.first.pending id = 0 := by cases c <;> rfl

theorem first_owes (c : Call) : c.first.owes ref = 0 := by cases c <;> rfl

variable {as : List (ℕ × Option String)}

theorem closed_run (ref : Ref) (as : List (ℕ × Option String))
    (hok : Along ((program cfg).chain follow) ((program cfg).StepOk NotStale) (start db calls) as) :
    (program cfg).Inv (Program.ClosesOnce.Closed (isOpen ref) (fun r => r.closes = some ref) db)
      (Program.ClosesOnce.Running (program cfg) (.ref ref) (isOpen ref) (fun l => l.closing = some ref))
      (exec ((program cfg).chain follow) (start db calls) as) := by
  refine Program.Inv.run_chain ((closesOnce cfg ref).keeps db) ?_ ?_ as hok
  · intro db' log l ws f r l' _ _ _ hf
    apply Program.ClosesOnce.Running.begin
    cases r with
    | saved =>
      cases hf
      rfl
    | _ => cases hf
  · apply Program.Inv.initial
    · exact Nat.zero_add _
    · intro l hl
      obtain ⟨_, _, rfl⟩ := mem_map.mp hl
      apply Program.ClosesOnce.Running.begin
      simp [first_closing]

theorem total_run (hok : Along ((program cfg).chain follow) ((program cfg).StepOk NotStale) (start db calls) as) :
    let x := exec ((program cfg).chain follow) (start db calls) as
    quotaOf x.db id = (quotaOf db id).map (fun q => q+(x.log.map (Answer.gain id)).sum) := by
  intro x
  have hinv : (program cfg).Inv (Program.AddsTo.Total (fun db => quotaOf db id) (Answer.gain id) db)
      (Program.AddsTo.Running (program cfg) (.user id) (fun db => quotaOf db id) (Statement.pending id)) x := by
    refine Program.Inv.run_chain ((addsTo cfg id).keeps db) ?_ ?_ as hok
    · intro db' log l ws f r l' _ _ _ hf
      apply Program.AddsTo.Running.begin
      cases r with
      | saved =>
        cases hf
        rfl
      | _ => cases hf
    · apply Program.Inv.initial
      · simp [Program.AddsTo.Total]
      · intro l hl
        obtain ⟨c, _, rfl⟩ := mem_map.mp hl
        exact Program.AddsTo.Running.begin (first_pending c)
  exact hinv.data

theorem credits_le_closes : let x := exec ((program cfg).chain follow) (start db calls) as
    x.log.countP (fun r => r.credits = some ref) ≤ x.log.countP (fun r => r.closes = some ref) := by
  intro x
  have hcovered : Program.Owes.Covered (Statement.owes ref) (fun r => if r.credits = some ref then 1 else 0)
      (fun r => if r.closes = some ref then 1 else 0) x := by
    refine (owes cfg ref).run ?_ as
    have hzero : ((start db calls).txs.map (Program.Owes.owed (Statement.owes ref))).sum = 0 := by
      apply sum_eq_zero
      intro n hn
      simp only [start, System.initial, map_map, mem_map] at hn
      obtain ⟨c, _, rfl⟩ := hn
      exact first_owes c
    unfold Program.Owes.Covered
    rw [hzero]
    exact le_refl 0
  have hnonneg : 0 ≤ (x.txs.map (Program.Owes.owed (Statement.owes ref))).sum := by
    apply sum_nonneg
    intro n hn
    obtain ⟨t, _, rfl⟩ := mem_map.mp hn
    cases t with
    | active l => exact (owes cfg ref).nonneg l
    | finished => exact le_refl 0
  unfold Program.Owes.Covered at hcovered
  rw [sum_ite_eq_countP, sum_ite_eq_countP] at hcovered
  omega

theorem status_kept (as bs : List (ℕ × Option String))
    (hok : Along ((program cfg).chain follow) ((program cfg).StepOk NotStale) (start db calls) (as ++ bs)) :
    let x := exec ((program cfg).chain follow) (start db calls) as
    let y := exec ((program cfg).chain follow) (start db calls) (as ++ bs)
    statusOf ref y.db = statusOf ref x.db ∨ isOpen ref x.db = true ∧ isOpen ref y.db = false := by
  intro x y
  induction bs using reverseRecOn with
  | nil =>
    left
    simp [y, x]
  | append_singleton bs b ih =>
    rw [← append_assoc] at hok
    obtain ⟨hbefore, _⟩ := along_append.mp hok
    have hprev := ih hbefore
    let z := exec ((program cfg).chain follow) (start db calls) (as ++ bs)
    have hy : y = (program cfg).chain follow z b := by
      simp only [y, z, exec_append]
      rfl
    have hinv := closed_run ref (as ++ bs) hbefore
    -- A status that one more commit changes was open before it and is not any more.
    have hstep : statusOf ref y.db = statusOf ref z.db ∨ isOpen ref z.db = true ∧ isOpen ref y.db = false := by
      rw [hy]
      rcases Program.chain_db (program cfg) follow z b with hsame | ⟨l, ws, hi, hview⟩
      · rw [hsame]
        exact .inl rfl
      · rw [hview]
        by_cases hne : statusOf ref ((program cfg).view z.db ws) = statusOf ref z.db
        · exact .inl hne
        · exact .inr ((hinv.running b.1 l ws hi).closed_of_ne (statusOf_frame cfg) hne)
    have hopen (u v : PaymentDb) (h : statusOf ref u = statusOf ref v) : isOpen ref u = isOpen ref v := by
      rw [isOpen, isOpen, h]
    rcases hprev with hsame | ⟨hwas, hnow⟩
    · rcases hstep with hs | ⟨hz, hy'⟩
      · exact .inl (hs.trans hsame)
      · exact .inr ⟨(hopen _ _ hsame).symm.trans hz, hy'⟩
    · rcases hstep with hs | ⟨hz, _⟩
      · exact .inr ⟨hwas, (hopen _ _ hs).trans hnow⟩
      · exact absurd (hz.symm.trans hnow) (by decide)

end Runs

/-- With the statements of any processes interleaved at will: when every save of an order or a code
finds the row that was read, each is credited at most once, and a final status stays. -/
theorem paid_out_at_most_once (cfg : Settings) (db : PaymentDb) (calls : List Call) (as : List (ℕ × Option String))
    (hok : Along ((program cfg).chain follow) ((program cfg).StepOk NotStale) (start db calls) as) :
    let run := exec ((program cfg).chain follow) (start db calls)
    (∀ ref, (run as).log.countP (fun r => r.credits = some ref) ≤ 1) ∧
    (∀ id, quotaOf (run as).db id = (quotaOf db id).map (fun q => q+((run as).log.map (Answer.gain id)).sum)) ∧
    ∀ ref as₁ as₂, as = as₁ ++ as₂ →
      (statusOf ref (run as₁).db = statusOf ref db ∨ isOpen ref db = true ∧ isOpen ref (run as₁).db = false) ∧
      (isOpen ref (run as₁).db = false → statusOf ref (run as).db = statusOf ref (run as₁).db) := by
  intro run
  refine ⟨?_, fun id => total_run hok, ?_⟩
  · intro ref
    have hclosed := (closed_run ref as hok).data
    have hle : (run as).log.countP (fun r => r.credits = some ref) ≤ (run as).log.countP
      (fun r => r.closes = some ref) :=
      credits_le_closes
    unfold Program.ClosesOnce.Closed at hclosed
    have hone := Bool.toNat_le (isOpen ref db)
    change (run as).log.countP _+_ = _ at hclosed
    omega
  · rintro ref as₁ as₂ rfl
    have hfirst := (along_append.mp hok).1
    refine ⟨status_kept [] as₁ hfirst, ?_⟩
    intro hfinal
    rcases status_kept as₁ as₂ hok with hsame | ⟨hopen, _⟩
    · exact hsame
    · exact absurd (hopen.symm.trans hfinal) (by decide)

def sampleCallbacks : List Call := replicate 2 (.complete (recharge "cus_1") "T1" 100)

def sampleStripe : PaymentDb :=
  ⟨.single { sampleOrder with money := 3, paymentProvider := .stripe }, .empty, sampleUsers⟩

theorem paid_out_at_most_once_sample :
    Along ((program sampleSettings).chain follow) ((program sampleSettings).StepOk NotStale)
      (start sampleStripe sampleCallbacks) (replicate 5 (0, none) ++ replicate 5 (1, none)) ∧
    (exec ((program sampleSettings).chain follow) (start sampleStripe sampleCallbacks)
      (replicate 5 (0, none) ++ replicate 5 (1, none))).log.countP (fun r => r.credits = some (.order "T1")) ≤ 1 :=
  have hok : Along ((program sampleSettings).chain follow) ((program sampleSettings).StepOk NotStale)
      (start sampleStripe sampleCallbacks) (replicate 5 (0, none) ++ replicate 5 (1, none)) := by decide +kernel
  ⟨hok, (paid_out_at_most_once sampleSettings sampleStripe sampleCallbacks _ hok).1 (.order "T1")⟩

/-- Both callbacks read the pending order before the first one commits; each saves it and
credits the user. -/
theorem order_paid_out_twice :
    let x := exec ((program sampleSettings).chain follow) (start sampleStripe sampleCallbacks)
      ([(0, none), (1, none)] ++ replicate 4 (0, none) ++ replicate 4 (1, none))
    x.log = [.completed (.order "T1") 1 1500000, .completed (.order "T1") 1 1500000] ∧
      quotaOf sampleStripe 1 = some 10 ∧ quotaOf x.db 1 = some 3000010 := by
  decide +kernel

end AiGateway.Payment
