import AiGateway.SecondFactor

/-! Validations that do not overlap keep the guards of the second factor. -/
namespace AiGateway.SecondFactor

open Interleave List Exclusive Run

variable {codes : Codes} {s : State}

/-- What holds of the history at all times. While a backup code is being marked as used, it is
`pending`. -/
structure Sound (s : State) (pending : Option ℕ) : Prop where
  once : ∀ id, s.history.count (.accepted id) ≤ 1
  used : ∀ id, .accepted id ∈ s.history → pending = some id ∨ ∀ c ∈ s.codes, c.id = id → c.isUsed = true
  unlocked : ∀ right, .evaluated true right ∉ s.history
  fresh : ∀ base before after, .saved base before after ∈ s.history → before = base

/-- The counter of the row covers the wrong codes since the last success or lock. -/
def Counted (s : State) : Prop :=
  streak s.history ≤ s.row.failedAttempts ∧ (maxFailAttempts ≤ s.row.failedAttempts → streak s.history = 0)

/-- A wrong code has been evaluated: what is about to be saved counts it, and locks if it is one
too many. -/
structure Failed (s : State) (copy : TwoFA) : Prop where
  counts : copy.failedAttempts = s.row.failedAttempts+1
  streak_le : streak s.history ≤ s.row.failedAttempts+1
  streak_last : maxFailAttempts ≤ s.row.failedAttempts → streak s.history ≤ 1
  locks : maxFailAttempts ≤ s.row.failedAttempts+1 → SecondFactor.locks s.row copy = true

def Underway (s : State) : Pc → Prop
  | .evaluate copy _ _ | .find copy _ _ =>
    Sound s none ∧ Counted s ∧ copy = s.row ∧ s.row.isLocked s.now = false
  | .compare copy _ found _ => Sound s none ∧ Counted s ∧ copy = s.row ∧ s.row.isLocked s.now = false ∧
      found = s.codes.filter (fun c => !c.isUsed)
  | .use copy code => Sound s (some code.id) ∧ streak s.history = 0 ∧ copy = s.row ∧ code.isUsed = true
  | .save base copy valid _ => Sound s none ∧ base = s.row ∧
      (valid = true → streak s.history = 0) ∧ (valid = false → Failed s copy)
  | .check _ _ | .done _ => False

theorem isLocked_mono {t : TwoFA} {now now' : ℕ} (h : t.isLocked now = false) (hle : now ≤ now') :
    t.isLocked now' = false := by
  unfold TwoFA.isLocked at h ⊢
  cases hd : t.lockedUntil with
  | none => rfl
  | some =>
    rw [hd] at h
    simp only [decide_eq_false_iff_not, not_lt] at h ⊢
    omega

theorem failed_increment (hc : Counted s) (hfree : s.row.isLocked s.now = false) :
    Failed (s.evaluated false) (s.row.incrementFailedAttempts s.now) := by
  obtain ⟨hle, hzero⟩ := hc
  have hstreak : streak (s.evaluated false).history = streak s.history+1 := rfl
  have hrow : (s.evaluated false).row = s.row := rfl
  refine ⟨?_, ?_, ?_, ?_⟩
  · unfold TwoFA.incrementFailedAttempts
    split <;> rfl
  · rw [hstreak, hrow]
    omega
  · intro hmax
    rw [hrow] at hmax
    have hnone := hzero hmax
    omega
  · intro hmax
    rw [hrow] at hmax ⊢
    unfold TwoFA.incrementFailedAttempts
    rw [if_pos hmax]
    -- The old lock has run out, so the new one is another one.
    have hne : some (s.now+lockoutDuration) ≠ s.row.lockedUntil := by
      intro heq
      have hlocked : s.row.isLocked s.now = true := by
        simp [TwoFA.isLocked, ← heq, lockoutDuration]
      rw [hlocked] at hfree
      cases hfree
    simp only [SecondFactor.locks, Option.isSome_some, Bool.true_and, decide_eq_true_eq]
    exact hne

theorem Sound.cons {s' : State} {pending : Option ℕ} {event : Event} (h : Sound s pending)
    (hhistory : s'.history = event :: s.history) (hcodes : s'.codes = s.codes)
    (haccept : ∀ id, event ≠ .accepted id)
    (hlock : ∀ right, event ≠ .evaluated true right)
    (hsave : ∀ base before after, event = .saved base before after → before = base) : Sound s' pending := by
  refine ⟨?_, ?_, ?_, ?_⟩
  · intro id
    rw [hhistory, count_cons_of_ne (haccept id)]
    exact h.once id
  · intro id hid
    rw [hhistory] at hid
    rw [hcodes]
    rcases mem_cons.mp hid with heq | hid
    · exact absurd heq.symm (haccept id)
    · exact h.used id hid
  · intro right hmem
    rw [hhistory] at hmem
    rcases mem_cons.mp hmem with heq | hmem
    · exact hlock right heq.symm
    · exact h.unlocked right hmem
  · intro base before after hmem
    rw [hhistory] at hmem
    rcases mem_cons.mp hmem with heq | hmem
    · exact hsave base before after heq.symm
    · exact h.fresh base before after hmem

theorem Sound.evaluated (h : Sound s none) (hfree : s.row.isLocked s.now = false) (right : Bool) :
    Sound (s.evaluated right) none := by
  have hhistory : (s.evaluated right).history = .evaluated (s.row.isLocked s.now) right :: s.history := rfl
  apply h.cons hhistory rfl nofun _ nofun
  intro right' heq
  rw [hfree] at heq
  cases heq

theorem Sound.accept (h : Sound s none) {c : BackupCode} (hc : c ∈ s.codes) (hunused : c.isUsed = false) :
    Sound { s with history := .accepted c.id :: s.history } (some c.id) := by
  have hnew : .accepted c.id ∉ s.history := by
    intro hmem
    rcases h.used c.id hmem with hnone | hall
    · cases hnone
    · rw [hall c hc rfl] at hunused
      cases hunused
  refine ⟨?_, ?_, ?_, ?_⟩
  · intro id
    have hle := h.once id
    by_cases hid : c.id = id
    · subst hid
      have hzero := count_eq_zero.mpr hnew
      rw [count_cons_self, hzero]
    · have hne : Event.accepted c.id ≠ .accepted id := by
        intro heq
        cases heq
        exact hid rfl
      rw [count_cons_of_ne hne]
      exact hle
  · intro id hid
    rcases mem_cons.mp hid with heq | hid
    · cases heq
      exact .inl rfl
    · rcases h.used id hid with hnone | hall
      · cases hnone
      · exact .inr hall
  · intro right hmem
    rcases mem_cons.mp hmem with heq | hmem
    · cases heq
    · exact h.unlocked right hmem
  · intro base before after hmem
    rcases mem_cons.mp hmem with heq | hmem
    · cases heq
    · exact h.fresh base before after hmem

theorem Sound.use {code : BackupCode} (h : Sound s (some code.id)) (hused : code.isUsed = true) :
    Sound { s with codes := saveCode s.codes code } none := by
  refine ⟨h.once, ?_, h.unlocked, h.fresh⟩
  intro id hid
  right
  intro c hc hcid
  obtain ⟨c', hc', rfl⟩ := mem_map.mp hc
  split at hcid
  · next hsame => rw [if_pos hsame, hused]
  · next hother =>
    rw [if_neg hother]
    rcases h.used id hid with hpending | hall
    · cases hpending
      exact absurd hcid hother
    · exact hall c' hc' hcid

theorem Sound.save (h : Sound s none) (copy : TwoFA) :
    Sound { s with row := copy, history := .saved s.row s.row copy :: s.history } none := by
  let saved : State := { s with row := copy, history := .saved s.row s.row copy :: s.history }
  have hhistory : saved.history = .saved s.row s.row copy :: s.history := rfl
  apply h.cons hhistory rfl nofun nofun
  intro base before after heq
  cases heq
  rfl

theorem counted_of_zero (hzero : streak s.history = 0) : Counted s := by
  refine ⟨?_, fun _ => hzero⟩
  rw [hzero]
  exact Nat.zero_le _

theorem counted_save_valid (copy : TwoFA) (hzero : streak s.history = 0) :
    Counted { s with row := copy, history := .saved s.row s.row copy :: s.history } := by
  apply counted_of_zero
  simp only [streak, hzero, ite_self]

theorem counted_save_failed {copy : TwoFA} (h : Failed s copy) :
    Counted { s with row := copy, history := .saved s.row s.row copy :: s.history } := by
  by_cases hmax : maxFailAttempts ≤ s.row.failedAttempts+1
  · -- The save locks.
    have hlock := h.locks hmax
    apply counted_of_zero
    simp only [streak, hlock, if_true]
  · have hle : streak (.saved s.row s.row copy :: s.history) ≤ streak s.history := by
      simp only [streak]
      split
      · exact Nat.zero_le _
      · exact le_rfl
    have hcounts := h.counts
    have hbound := h.streak_le
    refine ⟨?_, ?_⟩
    · dsimp only
      omega
    · intro hge
      dsimp only at hge
      omega

def Idle (s : State) : Prop := Sound s none ∧ Counted s

section Steps

variable {pc : Pc}

theorem check_leaves (attempts : List Attempt) (h : Idle s) :
    Exclusive.Leaves Pc.phase Idle Underway (next codes (.check s.row attempts) s) := by
  obtain ⟨hs, hc⟩ := h
  cases attempts with
  | nil => exact leaves_idle nofun ⟨hs, hc⟩
  | cons attempt =>
    cases hlock : s.row.isLocked s.now with
    | true =>
      simp only [next, hlock, if_true]
      exact leaves_idle nofun ⟨hs, hc⟩
    | false =>
      cases attempt with
      | totp =>
        simp only [next, hlock, Bool.false_eq_true, if_false]
        exact leaves_busy rfl ⟨hs, hc, rfl, hlock⟩
      | backup code =>
        cases hcode : codes.normalizeBackupCode code with
        | none =>
          simp only [next, hlock, hcode, Bool.false_eq_true, if_false]
          exact leaves_idle nofun ⟨hs, hc⟩
        | some =>
          simp only [next, hlock, hcode, Bool.false_eq_true, if_false]
          exact leaves_busy rfl ⟨hs, hc, rfl, hlock⟩

theorem wrong_leaves (rest : List Attempt) (hs : Sound s none) (hc : Counted s)
    (hfree : s.row.isLocked s.now = false) : Exclusive.Leaves Pc.phase Idle Underway
      (s.evaluated false, .save s.row (s.row.incrementFailedAttempts s.now) false rest) :=
  leaves_busy rfl ⟨hs.evaluated hfree false, rfl, nofun, fun _ => failed_increment hc hfree⟩

theorem run_leaves (hp : pc.phase = .underway) (h : Underway s pc) :
    Exclusive.Leaves Pc.phase Idle Underway (next codes pc s) := by
  cases pc with
  | check | done => cases hp
  | evaluate copy code rest =>
    obtain ⟨hs, hc, rfl, hfree⟩ := h
    simp only [next]
    split
    · exact leaves_busy rfl ⟨hs.evaluated hfree true, rfl, fun _ => rfl, nofun⟩
    · exact wrong_leaves rest hs hc hfree
  | find =>
    obtain ⟨hs, hc, rfl, hfree⟩ := h
    exact leaves_busy rfl ⟨hs, hc, rfl, hfree, rfl⟩
  | compare copy code found rest =>
    obtain ⟨hs, hc, rfl, hfree, rfl⟩ := h
    simp only [next]
    split
    · exact wrong_leaves rest hs hc hfree
    · next c hfound =>
      -- The backup code was found among those that are not used.
      have hmem := mem_filter.mp (mem_of_find?_eq_some hfound)
      have hunused : c.isUsed = false := by simpa using hmem.2
      have haccept := (hs.evaluated hfree true).accept hmem.1 hunused
      exact leaves_busy rfl ⟨haccept, rfl, rfl, rfl⟩
  | use =>
    obtain ⟨hs, hzero, rfl, hused⟩ := h
    exact leaves_busy rfl ⟨hs.use hused, rfl, fun _ => hzero, nofun⟩
  | save base copy valid =>
    obtain ⟨hs, rfl, hvalid, hfailed⟩ := h
    cases valid with
    | true => exact leaves_idle nofun ⟨hs.save copy, counted_save_valid copy (hvalid rfl)⟩
    | false => exact leaves_idle nofun ⟨hs.save copy, counted_save_failed (hfailed rfl)⟩

end Steps

theorem Underway.tick {pc : Pc} (h : Underway s pc) (elapsed : ℕ) : Underway { s with now := s.now+elapsed } pc := by
  have hle : s.now ≤ s.now+elapsed := Nat.le_add_right _ _
  cases pc with
  | check | done => cases h
  | evaluate | find =>
    obtain ⟨hs, hc, hcopy, hfree⟩ := h
    exact ⟨⟨hs.once, hs.used, hs.unlocked, hs.fresh⟩, hc, hcopy, isLocked_mono hfree hle⟩
  | compare =>
    obtain ⟨hs, hc, hcopy, hfree, hfound⟩ := h
    exact ⟨⟨hs.once, hs.used, hs.unlocked, hs.fresh⟩, hc, hcopy, isLocked_mono hfree hle, hfound⟩
  | use =>
    obtain ⟨hs, hzero, hcopy, hused⟩ := h
    exact ⟨⟨hs.once, hs.used, hs.unlocked, hs.fresh⟩, hzero, hcopy, hused⟩
  | save =>
    obtain ⟨hs, hbase, hvalid, hfailed⟩ := h
    refine ⟨⟨hs.once, hs.used, hs.unlocked, hs.fresh⟩, hbase, hvalid, ?_⟩
    intro hv
    have hf := hfailed hv
    exact ⟨hf.counts, hf.streak_le, hf.streak_last, hf.locks⟩

theorem validations_keeps : Exclusive.Keeps Pc.phase Idle Underway (validations codes) current where
  call := fun _ => rfl
  first := by
    intro s pc _ hp hok h
    cases pc with
    | check copy attempts =>
      have hcopy : copy = s.row := hok copy rfl
      subst hcopy
      exact check_leaves attempts h
    | _ => cases hp
  run := fun hp _ h => run_leaves hp h
  stop := by
    intro s pc _ hp
    cases pc with
    | done => rfl
    | _ => cases hp
  env := fun _ h => ⟨⟨h.1.once, h.1.used, h.1.unlocked, h.1.fresh⟩, h.2⟩
  during := fun _ _ _ h => h.tick _

theorem Sound.guarded {pending : Option ℕ} (h : Sound s pending) (hstreak : streak s.history ≤ maxFailAttempts) :
    Guarded s.history := by
  refine ⟨h.once, hstreak, h.unlocked, ?_⟩
  intro base before after hmem hne
  exact absurd (h.fresh base before after hmem) hne

theorem Counted.streak_le (h : Counted s) : streak s.history ≤ maxFailAttempts := by
  obtain ⟨hle, hzero⟩ := h
  by_cases hmax : maxFailAttempts ≤ s.row.failedAttempts
  · have hnone := hzero hmax
    omega
  · omega

theorem Failed.streak_bound {copy : TwoFA} (h : Failed s copy) : streak s.history ≤ maxFailAttempts := by
  have hle := h.streak_le
  by_cases hmax : maxFailAttempts ≤ s.row.failedAttempts
  · have hone := h.streak_last hmax
    have hpos : 1 ≤ maxFailAttempts := by decide
    omega
  · omega

theorem Underway.guarded {pc : Pc} (h : Underway s pc) : Guarded s.history := by
  cases pc with
  | check | done => cases h
  | evaluate | find | compare => exact h.1.guarded h.2.1.streak_le
  | use =>
    have hzero := h.2.1
    exact h.1.guarded (by omega)
  | save base copy valid =>
    obtain ⟨hs, _, hvalid, hfailed⟩ := h
    cases valid with
    | true =>
      have hzero := hvalid rfl
      exact hs.guarded (by omega)
    | false => exact hs.guarded (hfailed rfl).streak_bound

/-- In every run in which validations do not overlap, the guards hold. -/
theorem guarded_of_apart (codes : Codes) (now : ℕ) (row : TwoFA) (backupCodes : List BackupCode)
    (as : List (Action (List Attempt) Unit ℕ))
    (ha : Along (validations codes).step (current.Ok Pc.phase) ⟨⟨now, row, backupCodes, []⟩, []⟩ as) :
    Guarded (exec (validations codes).step ⟨⟨now, row, backupCodes, []⟩, []⟩ as).shared.history := by
  have hsound : Sound ⟨now, row, backupCodes, []⟩ none := ⟨by simp, by simp, by simp, by simp⟩
  have hcounted : Counted ⟨now, row, backupCodes, []⟩ := ⟨Nat.zero_le _, fun _ => rfl⟩
  have hstart : Exclusive.Holds Pc.phase Idle Underway ⟨⟨now, row, backupCodes, []⟩, []⟩ :=
    Exclusive.Holds.initial ⟨hsound, hcounted⟩
  cases hstart.run (validations_keeps) as ha with
  | idle _ h => exact h.1.guarded h.2.streak_le
  | busy i pc _ _ _ h => exact h.guarded

def plainCodes : Codes := ⟨fun _ _ _ => false, some, fun code hash => code = hash⟩

def freshRow : TwoFA := ⟨"secret", 0, none, none⟩

/-- A wrong TOTP code that is a right backup code, and then the same backup code again. -/
theorem guarded_of_apart_retry :
    Guarded (exec (validations plainCodes).step ⟨⟨0, freshRow, [⟨1, "A", false, none⟩], []⟩, []⟩
      [.call [.totp "A", .backup "A"], .run 0 (), .run 0 (), .run 0 (), .run 0 (), .run 0 (), .run 0 (), .run 0 (),
        .run 0 (), .call [.backup "A"], .run 1 (), .run 1 (), .run 1 (), .run 1 ()]).shared.history :=
  guarded_of_apart plainCodes 0 freshRow [⟨1, "A", false, none⟩] _ (by decide)

/-- Two validations of one backup code both find it unused, and a validation with an old copy of
the row clears the lock that another one has stored. -/
theorem overlapping_not_guarded :
    ¬ Guarded (exec (validations plainCodes).step ⟨⟨0, freshRow, [⟨1, "A", false, none⟩], []⟩, []⟩
      [.call [.backup "A"], .call [.backup "A"], .run 0 (), .run 1 (), .run 0 (), .run 1 (), .run 0 (),
        .run 1 ()]).shared.history ∧
    ¬ Guarded (exec (validations plainCodes).step
      ⟨⟨0, ⟨"secret", 4, none, none⟩, [⟨1, "A", false, none⟩], []⟩, []⟩
      [.call [.totp "0"], .call [.backup "A"], .run 0 (), .run 0 (), .run 0 (), .run 1 (), .run 1 (), .run 1 (),
        .run 1 (), .run 1 ()]).shared.history := by
  constructor
  · intro h
    have honce := h.once 1
    revert honce
    decide
  · intro h
    have hfresh := h.fresh ⟨"secret", 4, none, none⟩ ⟨"secret", 5, some 300000, none⟩
      ⟨"secret", 0, none, some 0⟩
    revert hfresh
    decide

end AiGateway.SecondFactor
