import AiGateway.Exclusive

/-! Validations of TOTP codes and of backup codes, one statement at a time. A validation works on a copy
of the row that was read before, and saves all of it. -/
namespace AiGateway.SecondFactor

open Interleave

def maxFailAttempts : ℕ := 5

def lockoutDuration : ℕ := 300*1000

structure TwoFA where
  secret : String
  failedAttempts : ℕ
  lockedUntil : Option ℕ
  lastUsedAt : Option ℕ
deriving DecidableEq

structure BackupCode where
  id : ℕ
  codeHash : String
  isUsed : Bool
  usedAt : Option ℕ
deriving DecidableEq

def TwoFA.isLocked (t : TwoFA) (now : ℕ) : Bool :=
  match t.lockedUntil with
  | none => false
  | some deadline => now < deadline

def TwoFA.incrementFailedAttempts (t : TwoFA) (now : ℕ) : TwoFA :=
  if maxFailAttempts ≤ t.failedAttempts+1 then
    { t with failedAttempts := t.failedAttempts+1, lockedUntil := some (now+lockoutDuration) }
  else { t with failedAttempts := t.failedAttempts+1 }

def TwoFA.used (t : TwoFA) (now : ℕ) : TwoFA :=
  { t with failedAttempts := 0, lockedUntil := none, lastUsedAt := some now }

/-- The checks of codes that the validations rest on: of a TOTP code at some time, the normal form
of a backup code if it has the right format, and of a code against a hash. -/
structure Codes where
  validateTOTPCode : String → String → ℕ → Bool
  normalizeBackupCode : String → Option String
  validatePasswordAndHash : String → String → Bool

inductive Attempt
  | totp (code : String)
  | backup (code : String)
deriving DecidableEq

/-- What has happened: a code was evaluated, with a lock in the row or without one, a backup code
was accepted, the row `before` was replaced by a validation that had read `base`. -/
inductive Event
  | evaluated (locked right : Bool)
  | accepted (id : ℕ)
  | saved (base before after : TwoFA)
deriving DecidableEq

structure State where
  now : ℕ
  row : TwoFA
  codes : List BackupCode
  -- The latest event first.
  history : List Event
deriving DecidableEq

/-- Where a request is. It holds the copy of the row and the attempts that are left: a code may be
tried as a TOTP code first and then as a backup code, with the same copy. -/
inductive Pc
  | check (copy : TwoFA) (attempts : List Attempt)
  | evaluate (copy : TwoFA) (code : String) (rest : List Attempt)
  | find (copy : TwoFA) (code : String) (rest : List Attempt)
  | compare (copy : TwoFA) (code : String) (found : List BackupCode) (rest : List Attempt)
  | use (copy : TwoFA) (backupCode : BackupCode)
  | save (base copy : TwoFA) (valid : Bool) (rest : List Attempt)
  | done (valid : Bool)
deriving DecidableEq

def State.evaluated (s : State) (right : Bool) : State :=
  { s with history := .evaluated (s.row.isLocked s.now) right :: s.history }

def saveCode (codes : List BackupCode) (code : BackupCode) : List BackupCode :=
  codes.map (fun c => if c.id = code.id then code else c)

def next (codes : Codes) (pc : Pc) (s : State) : State × Pc :=
  match pc with
  | .check _ [] => (s, .done false)
  | .check copy (attempt :: rest) =>
    if copy.isLocked s.now then (s, .check copy rest)
    else
      match attempt with
      | .totp code => (s, .evaluate copy code rest)
      | .backup code =>
        match codes.normalizeBackupCode code with
        -- An error, which counts as no attempt.
        | none => (s, .check copy rest)
        | some code => (s, .find copy code rest)
  | .evaluate copy code rest =>
    if codes.validateTOTPCode copy.secret code s.now then (s.evaluated true, .save copy (copy.used s.now) true rest)
    else (s.evaluated false, .save copy (copy.incrementFailedAttempts s.now) false rest)
  | .find copy code rest => (s, .compare copy code (s.codes.filter (fun c => !c.isUsed)) rest)
  | .compare copy code found rest =>
    match found.find? (fun c => codes.validatePasswordAndHash code c.codeHash) with
    | none => (s.evaluated false, .save copy (copy.incrementFailedAttempts s.now) false rest)
    | some c =>
      ({ s.evaluated true with history := .accepted c.id :: (s.evaluated true).history },
        .use copy { c with isUsed := true, usedAt := some s.now })
  | .use copy code => ({ s with codes := saveCode s.codes code }, .save copy (copy.used s.now) true [])
  | .save base copy valid rest =>
    ({ s with row := copy, history := .saved base s.row copy :: s.history },
      if valid then .done true else .check copy rest)
  | .done _ => (s, pc)

/-- The requests of a user. One begins with `GetTwoFAByUserId`. -/
def validations (codes : Codes) : Machine State Pc (List Attempt) Unit ℕ where
  start attempts s := .check s.row attempts
  next pc s _ := next codes pc s
  env s elapsed := { s with now := s.now+elapsed }

def locks (base after : TwoFA) : Bool := after.lockedUntil.isSome && after.lockedUntil ≠ base.lockedUntil

/-- The wrong codes that have been evaluated since a success or a lock. -/
def streak : List Event → ℕ
  | [] => 0
  | .evaluated _ right :: history => if right then 0 else streak history+1
  | .accepted _ :: history => streak history
  | .saved base _ after :: history => if locks base after then 0 else streak history

/-- A write clears a lock or resets the counter. -/
def Undoes (before after : TwoFA) : Prop :=
  before.lockedUntil.isSome ∧ after.lockedUntil = none ∨ after.failedAttempts < before.failedAttempts

instance (before after : TwoFA) : Decidable (Undoes before after) := by
  unfold Undoes
  infer_instance

/-- What the second factor is to guarantee. -/
structure Guarded (history : List Event) : Prop where
  /-- Every backup code is accepted at most once. -/
  once : ∀ id, history.count (.accepted id) ≤ 1
  /-- After this many wrong codes there has been a lock. -/
  bounded : streak history ≤ maxFailAttempts
  /-- No code is evaluated while a lock is stored. -/
  unlocked : ∀ right, .evaluated true right ∉ history
  /-- No write undoes what another attempt has stored. -/
  fresh : ∀ base before after, .saved base before after ∈ history → before ≠ base → ¬ Undoes before after

def Pc.phase : Pc → Exclusive.Phase
  | .check _ _ => .waiting
  | .evaluate _ _ _ | .find _ _ _ | .compare _ _ _ _ | .use _ _ | .save _ _ _ _ => .underway
  | .done _ => .finished

def Pc.checked : Pc → Option TwoFA
  | .check copy _ => some copy
  | _ => none

abbrev current : Exclusive.Condition State Pc (List Attempt) Unit ℕ where
  call _ _ := True
  run s pc _ := ∀ copy ∈ pc.checked, copy = s.row
  env _ _ := True
  during _ _ _ := True

end AiGateway.SecondFactor
