import AiGateway.BatchUpdate
import AiGateway.TransactionRules
import Mathlib.Algebra.Group.Prod
import Mathlib.Algebra.Order.Ring.Rat

/-! Concurrent changes of one user's row: quota updates add to the column, while an invitation and a
transfer of the reward read the row and save all of it. A select takes no lock. -/
namespace AiGateway.UserQuota
open ReadCommitted Option Run

structure Config where
  quotaForInviter : Int
  quotaPerUnit : ℚ
  -- The quota per unit as the log prints it.
  minimum : String

inductive Write
  | addQuota (id delta : Int)
  | save (u : User)
deriving DecidableEq

def Write.lock : Write → Int
  | .addQuota id _ => id
  | .save u => u.id

def addTo (delta : Int) (u : User) : User := { u with quota := u.quota+delta }

theorem addTo_id (delta : Int) (u : User) : (addTo delta u).id = u.id := rfl

def Write.apply (users : Users) : Write → Users
  | .addQuota id delta => users.modify id (addTo delta) (addTo_id delta)
  | .save u => users.save u

inductive Change
  | inviteUser
  | transferAffQuotaToQuota (quota : Int)
deriving DecidableEq

def Change.refusal : Change → User → Option String
  | .inviteUser, _ => none
  | .transferAffQuotaToQuota quota, u => if u.affQuota < quota then some "邀请额度不足！" else none

def Change.apply (cfg : Config) : Change → User → User
  | .inviteUser, u => { u with
      affCount := u.affCount+1, affQuota := u.affQuota+cfg.quotaForInviter,
      affHistoryQuota := u.affHistoryQuota+cfg.quotaForInviter }
  | .transferAffQuotaToQuota quota, u => { u with affQuota := u.affQuota-quota, quota := u.quota+quota }

def Change.precheck (cfg : Config) (id : Int) : Change → Option String
  | .inviteUser => if id = 0 then some "id 为空！" else none
  | .transferAffQuotaToQuota quota =>
    if (quota : ℚ) < cfg.quotaPerUnit then some ("转移额度最小为" ++ cfg.minimum ++ "！") else none

inductive Adjust
  | increaseUserQuota (quota : Int)
  | decreaseUserQuota (quota : Int)
deriving DecidableEq

def Adjust.quota : Adjust → Int
  | .increaseUserQuota quota => quota
  | .decreaseUserQuota quota => quota

def Adjust.delta : Adjust → Int
  | .increaseUserQuota quota => quota
  | .decreaseUserQuota quota => -quota

inductive Statement
  | update (id : Int) (a : Adjust)
  | updated (id : Int) (a : Adjust)
  | find (id : Int) (c : Change)
  | save (c : Change) (u : User)
  | saved (c : Change) (u : User)
deriving DecidableEq

inductive Answer
  | adjusted (id : Int) (a : Adjust)
  | changed (id : Int) (c : Change)
deriving DecidableEq

def next (cfg : Config) (users : Users) (fault : Option String) : Statement → Effect Write Statement Answer
  | .update id a =>
    if a.quota < 0 then .rollback "quota 不能为负数！"
    else match fault with
      | some e => .rollback e
      | none => .write (.addQuota id a.delta) (.updated id a)
  | .updated id a =>
    match fault with
    | some e => .rollback e
    | none => .commit (.adjusted id a)
  | .find id c =>
    match c.precheck cfg id, fault, users.find id with
    | some e, _, _ => .rollback e
    | none, some e, _ => .rollback e
    | none, none, none => .rollback "record not found"
    | none, none, some u =>
      match c.refusal u with
      | some e => .rollback e
      | none => .goto (.save c u)
  | .save c u =>
    match fault with
    | some e => .rollback e
    | none => .write (.save (c.apply cfg u)) (.saved c u)
  | .saved c u =>
    match fault with
    | some e => .rollback e
    | none => .commit (.changed u.id c)

def program (cfg : Config) : Program Users Write Int Statement Answer where
  apply := Write.apply
  lock := Write.lock
  next := fun l users fault => next cfg users fault l

inductive Call
  | adjust (id : Int) (a : Adjust)
  | change (id : Int) (c : Change)
deriving DecidableEq

def Call.first : Call → Statement
  | .adjust id a => .update id a
  | .change id c => .find id c

def balances (k : Int) (users : Users) : Option (Int × Int) := (users.find k).map (fun u => (u.quota, u.affQuota))

def Change.gain (cfg : Config) : Change → Int × Int
  | .inviteUser => (0, cfg.quotaForInviter)
  | .transferAffQuotaToQuota quota => (quota, -quota)

def Answer.gain (cfg : Config) (k : Int) : Answer → Int × Int
  | .adjusted id a => if id = k then (a.delta, 0) else 0
  | .changed id c => if id = k then c.gain cfg else 0

def Statement.pending (cfg : Config) (k : Int) : Statement → Int × Int
  | .updated id a => if id = k then (a.delta, 0) else 0
  | .saved c u => if u.id = k then c.gain cfg else 0
  | _ => 0

def NotStale (k : Int) : Statement → Users → Prop
  | .save _ u, users => u.id = k → balances k users = some (u.quota, u.affQuota)
  | _, _ => True

instance (k : Int) (l : Statement) (users : Users) : Decidable (NotStale k l users) :=
  match l with
  | .save _ _ => inferInstanceAs (Decidable (_ → _))
  | .update _ _ | .updated _ _ | .find _ _ | .saved _ _ => .isTrue trivial

section Rule

variable {cfg : Config} {k : Int}

theorem Change.apply_id (c : Change) (u : User) : (c.apply cfg u).id = u.id := by
  cases c <;> rfl

theorem Change.apply_balances (c : Change) (u : User) :
    ((c.apply cfg u).quota, (c.apply cfg u).affQuota) = (u.quota, u.affQuota)+c.gain cfg := by
  cases c with
  | inviteUser => simp [Change.apply, Change.gain]
  | transferAffQuotaToQuota =>
    simp only [Change.apply, Change.gain, Prod.mk_add_mk]
    rfl

theorem balances_addQuota (users : Users) (id delta : Int) : balances k (Write.apply users (.addQuota id delta)) =
      (balances k users).map (fun v => v+if id = k then (delta, 0) else 0) := by
  rw [balances, Write.apply, Table.find_modify, balances, map_map]
  by_cases h : id = k
  · rw [if_pos h.symm, if_pos h, map_map]
    congr 1
    funext u
    simp [addTo]
  · rw [if_neg (Ne.symm h), if_neg h]
    congr 1
    funext u
    simp

theorem balances_save (users : Users) (u : User) : balances k (Write.apply users (.save u)) =
      if u.id = k then (balances k users).map (fun _ => (u.quota, u.affQuota)) else balances k users := by
  rw [balances, Write.apply, Table.find_save]
  by_cases h : u.id = k
  · rw [if_pos h.symm, if_pos h, balances, map_map, map_map]
    rfl
  · rw [if_neg (Ne.symm h), if_neg h, balances]

inductive Does (cfg : Config) : Statement → Effect Write Statement Answer → Prop
  | rollback (l : Statement) (e : String) : Does cfg l (.rollback e)
  | read (id : Int) (c : Change) (u : User) : Does cfg (.find id c) (.goto (.save c u))
  | add (id : Int) (a : Adjust) : Does cfg (.update id a) (.write (.addQuota id a.delta) (.updated id a))
  | save (c : Change) (u : User) : Does cfg (.save c u) (.write (.save (c.apply cfg u)) (.saved c u))
  | added (id : Int) (a : Adjust) : Does cfg (.updated id a) (.commit (.adjusted id a))
  | saved (c : Change) (u : User) : Does cfg (.saved c u) (.commit (.changed u.id c))

theorem next_does (l : Statement) (users : Users) (f : Option String) : Does cfg l ((program cfg).next l users f) := by
  change Does cfg l (next cfg users f l)
  cases l with
  | update id a =>
    simp only [next]
    split
    · exact .rollback _ _
    · split
      · exact .rollback _ _
      · exact .add id a
  | find id c =>
    simp only [next]
    split
    · exact .rollback _ _
    · exact .rollback _ _
    · exact .rollback _ _
    · split
      · exact .rollback _ _
      · exact .read id c _
  | updated | save | saved =>
    cases f with
    | some e => exact .rollback _ e
    | none => constructor

theorem addsTo (cfg : Config) (k : Int) :
    (program cfg).AddsTo k (balances k) (Statement.pending cfg k) (Answer.gain cfg k) (NotStale k) where
  congr := by
    intro users users' w h
    cases w with
    | addQuota id delta =>
      exact (balances_addQuota users id delta).trans (h ▸ (balances_addQuota users' id delta).symm)
    | save u => exact (balances_save users u).trans (h ▸ (balances_save users' u).symm)
  frame := by
    intro users w hk
    cases w with
    | addQuota id delta =>
      have hid : id ≠ k := hk
      refine (balances_addQuota users id delta).trans ?_
      simp [hid]
    | save u => exact (balances_save users u).trans (if_neg hk)
  goto := by
    intro l users f l' h
    cases h ▸ next_does l users f
    rfl
  other := by
    intro l users f w l' h hk
    cases h ▸ next_does l users f with
    | add => exact if_neg hk
    | save c u => exact if_neg (fun hu => hk ((c.apply_id u).trans hu))
  own := by
    intro l users f w l' h hk hok
    cases h ▸ next_does l users f with
    | add id a =>
      have hid : id = k := hk
      refine (balances_addQuota users id a.delta).trans ?_
      simp only [Statement.pending, if_pos hid, sub_zero]
    | save c u =>
      have hid : u.id = k := (c.apply_id u).symm.trans hk
      have hread := hok hid
      refine (balances_save users _).trans ?_
      simp only [if_pos ((c.apply_id u).trans hid), hread, map_some, Statement.pending, if_pos hid, sub_zero]
      rw [c.apply_balances]
  commit := by
    intro l users f r h
    cases h ▸ next_does l users f <;> rfl

end Rule

/-- No change of the user's quota or reward is lost when every save of the row finds what it
has read: at every point the two are the initial ones with the changes of all calls that
have succeeded. -/
theorem quota_changes_survive (cfg : Config) (users : Users) (calls : List Call) (k : Int) (u : User)
    (hu : users.find k = some u) (as : List (ℕ × Option String))
    (hok : Along (program cfg).step ((program cfg).StepOk (NotStale k))
      (System.initial users (calls.map Call.first)) as) :
    let x := exec (program cfg).step (System.initial users (calls.map Call.first)) as
    ∃ u', x.db.find k = some u' ∧ u'.quota = u.quota+(x.log.map (fun r => (r.gain cfg k).1)).sum ∧
      u'.affQuota = u.affQuota+(x.log.map (fun r => (r.gain cfg k).2)).sum := by
  intro x
  have hbegin (l : Statement) (hl : l ∈ calls.map Call.first) : l.pending cfg k = 0 := by
    obtain ⟨c, _, rfl⟩ := List.mem_map.mp hl
    cases c <;> rfl
  have hstart : (program cfg).Inv (Program.AddsTo.Total (balances k) (Answer.gain cfg k) users)
      (Program.AddsTo.Running (program cfg) k (balances k) (Statement.pending cfg k))
      (System.initial users (calls.map Call.first)) := by
    apply Program.Inv.initial
    · simp [Program.AddsTo.Total]
    · intro l hl
      exact Program.AddsTo.Running.begin (hbegin l hl)
  have hinv := hstart.run ((addsTo cfg k).keeps users) as hok
  have htotal : balances k x.db = some ((u.quota, u.affQuota)+(x.log.map (Answer.gain cfg k)).sum) := by
    rw [hinv.data, balances, hu]
    rfl
  obtain ⟨u', hu', he⟩ := map_eq_some_iff.mp htotal
  have hsum (log : List Answer) : (log.map (Answer.gain cfg k)).sum =
      ((log.map (fun r => (r.gain cfg k).1)).sum, (log.map (fun r => (r.gain cfg k).2)).sum) := by
    induction log with
    | nil => rfl
    | cons r log ih =>
      simp only [List.map_cons, List.sum_cons, ih]
      rfl
  rw [hsum] at he
  exact ⟨u', hu', congrArg Prod.fst he, congrArg Prod.snd he⟩

def sampleConfig : Config := ⟨20, 50, "50"⟩

def sampleUsers : Users := .single { id := 1, quota := 100, affQuota := 60 }

def sampleCalls : List Call := [.change 1 (.transferAffQuotaToQuota 50), .adjust 1 (.decreaseUserQuota 30)]

theorem quota_changes_survive_sample :
    Along (program sampleConfig).step ((program sampleConfig).StepOk (NotStale 1))
      (System.initial sampleUsers (sampleCalls.map Call.first))
      [(0, none), (0, none), (0, none), (1, none), (1, none)] ∧
    ∃ u', (exec (program sampleConfig).step (System.initial sampleUsers (sampleCalls.map Call.first))
      [(0, none), (0, none), (0, none), (1, none), (1, none)]).db.find 1 = some u' :=
  have hok : Along (program sampleConfig).step ((program sampleConfig).StepOk (NotStale 1))
      (System.initial sampleUsers (sampleCalls.map Call.first))
      [(0, none), (0, none), (0, none), (1, none), (1, none)] := by decide +kernel
  have h := quota_changes_survive sampleConfig sampleUsers sampleCalls 1 { id := 1, quota := 100, affQuota := 60 }
    (by decide) _ hok
  ⟨hok, h.imp (fun _ hu => hu.1)⟩

/-- The charge is made between the read and the save of the transfer: both succeed, and the
charge is gone. -/
theorem charge_lost_to_transfer :
    let x := exec (program sampleConfig).step (System.initial sampleUsers (sampleCalls.map Call.first))
      [(0, none), (1, none), (1, none), (0, none), (0, none)]
    x.log = [.adjusted 1 (.decreaseUserQuota 30), .changed 1 (.transferAffQuotaToQuota 50)] ∧
      x.db.rows.map (fun u => (u.quota, u.affQuota)) = [(150, 10)] := by
  decide +kernel

end AiGateway.UserQuota
