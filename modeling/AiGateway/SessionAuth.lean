import AiGateway.GoText
import AiGateway.Run
import AiGateway.Table

/-! The middleware of the dashboard. A request with a session is judged by the role and status that were
saved at the login, one with an access token by the row of the user. -/
namespace AiGateway.SessionAuth

open GoText List Option

def roleGuestUser : Int := 0

def roleCommonUser : Int := 1

def roleAdminUser : Int := 10

def roleRootUser : Int := 100

inductive UserStatus
  | enabled
  | disabled
deriving DecidableEq

structure User where
  id : Int
  username : String
  role : Int
  status : UserStatus
  accessToken : Option String
  deleted : Bool
deriving DecidableEq

abbrev Users := Table User.id

structure Session where
  id : Int
  username : String
  role : Int
  status : UserStatus
deriving DecidableEq

def isValidateRole (role : Int) : Bool :=
  role = roleGuestUser || role = roleCommonUser || role = roleAdminUser || role = roleRootUser

def validUserInfo (username : String) (role : Int) : Bool := trimSpace username ≠ "" && isValidateRole role

/-- `GetUserById`. The queries leave out rows that are marked as deleted. -/
def getUserById (users : Users) (id : Int) : Option User :=
  if id = 0 then none else (users.find id).filter (fun u => !u.deleted)

def validateAccessToken (users : Users) (token : String) : Option User :=
  if token = "" then none else users.rows.find? (fun u => !u.deleted && u.accessToken = some token)

inductive UserHeader
  | missing
  | malformed
  | id (value : Int)
deriving DecidableEq

/-- What the middleware reads: the values that the store returns for the session, if it was
saved by a login, the token in the header `Authorization` and the header `New-Api-User`. -/
structure Request where
  session : Option Session
  accessToken : String
  apiUser : UserHeader
deriving DecidableEq

inductive AuthError
  | notLoggedIn
  | accessTokenInvalid
  | userInfoInvalid
  | userIdNotProvided
  | userIdFormatError
  | userIdMismatch
  | userBanned
  | insufficientPrivilege
deriving DecidableEq

def identify (users : Users) (r : Request) : Except AuthError Session :=
  match r.session with
  | some s => .ok s
  | none =>
    if r.accessToken = "" then .error .notLoggedIn
    else
      match validateAccessToken users r.accessToken with
      | none => .error .accessTokenInvalid
      | some u =>
        if u.username = "" then .error .accessTokenInvalid
        else if !validUserInfo u.username u.role then .error .userInfoInvalid
        else .ok ⟨u.id, u.username, u.role, u.status⟩

def authHelper (users : Users) (minRole : Int) (r : Request) : Except AuthError Int := do
  let s ← identify users r
  match r.apiUser with
  | .missing => .error .userIdNotProvided
  | .malformed => .error .userIdFormatError
  | .id apiUserId =>
    if s.id ≠ apiUserId then .error .userIdMismatch
    else if s.status = .disabled then .error .userBanned
    else if s.role < minRole then .error .insufficientPrivilege
    else if !validUserInfo s.username s.role then .error .userInfoInvalid
    else .ok s.id

inductive Middleware
  | userAuth
  | adminAuth
  | rootAuth
  | tokenOrUserAuth
deriving DecidableEq

def Middleware.minRole : Middleware → Option Int
  | .userAuth => some roleCommonUser
  | .adminAuth => some roleAdminUser
  | .rootAuth => some roleRootUser
  | .tokenOrUserAuth => none

/-- The user as whom a request passes. What `TokenOrUserAuth` does not let pass by its session
is left to `TokenAuth`, which asks for the key of a token. -/
def passes (users : Users) (r : Request) (m : Middleware) : Option Int :=
  match m.minRole with
  | some minRole => (authHelper users minRole r).toOption
  | none => (r.session.filter (fun s => s.status = .enabled)).map Session.id

structure State where
  users : Users
  sessions : List Session

/-- The user is logged in in session `i`; if there is none, in a new one. -/
def setupLogin (x : State) (i : ℕ) (u : User) : State :=
  { x with sessions := ⟨u.id, u.username, u.role, u.status⟩ :: x.sessions.eraseIdx i }

def canManageTargetRole (myRole targetRole : Int) : Bool := myRole = roleRootUser || targetRole < myRole

inductive ManageAction
  | disable
  | enable
  | delete
  | promote
  | demote
deriving DecidableEq

/-- The row that `ManageUser` writes, if it does not refuse. -/
def managed (myRole : Int) (u : User) : ManageAction → Option User
  | .disable => if u.role = roleRootUser then none else some { u with status := .disabled }
  | .enable => some { u with status := .enabled }
  | .delete => if u.role = roleRootUser then none else some { u with deleted := true }
  | .promote =>
    if myRole ≠ roleRootUser || roleAdminUser ≤ u.role then none else some { u with role := roleAdminUser }
  | .demote =>
    if u.role = roleRootUser || u.role = roleCommonUser then none else some { u with role := roleCommonUser }

/-- `ManageUser` reads rows that are marked as deleted too, but its update does not find them. -/
def manageUser (users : Users) (myRole id : Int) (action : ManageAction) : Users :=
  match users.find id with
  | none => users
  | some u =>
    if canManageTargetRole myRole u.role && !u.deleted then
      ((managed myRole u action).map users.save).getD users
    else users

def deleteUser (users : Users) (myRole id : Int) : Users :=
  match getUserById users id with
  | none => users
  | some u => if myRole ≤ u.role then users else users.delete id

def deleteSelf (users : Users) (id : Int) : Users :=
  match getUserById users id with
  | none => users
  | some u => if u.role = roleRootUser then users else users.save { u with deleted := true }

inductive Action
  | login (i : ℕ) (id : Int)
  | logout (i : ℕ)
  | manage (myRole id : Int) (action : ManageAction)
  | deleteUser (myRole id : Int)
  | deleteSelf (id : Int)
deriving DecidableEq

def step (x : State) : Action → State
  | .login i id =>
    match getUserById x.users id with
    | none => x
    | some u => setupLogin x i u
  | .logout i => { x with sessions := x.sessions.eraseIdx i }
  | .manage myRole id action => { x with users := manageUser x.users myRole id action }
  | .deleteUser myRole id => { x with users := deleteUser x.users myRole id }
  | .deleteSelf id => { x with users := deleteSelf x.users id }

/-- The user from whom a privilege is taken. -/
def Action.revokes : Action → Option Int
  | .manage _ id .disable | .manage _ id .delete | .manage _ id .demote => some id
  | .deleteUser _ id | .deleteSelf id => some id
  | _ => none

/-- No session of the user is stored when a privilege is taken. -/
def LoggedOut (x : State) (a : Action) : Prop := ∀ id ∈ a.revokes, ∀ s ∈ x.sessions, s.id ≠ id

instance (x : State) (a : Action) : Decidable (LoggedOut x a) := by
  unfold LoggedOut
  infer_instance

/-- The user exists, is enabled and has the role that the middleware requires. -/
def Permitted (users : Users) (m : Middleware) (id : Int) : Prop :=
  ∃ u ∈ users.find id, u.deleted = false ∧ u.status = .enabled ∧ ∀ minRole ∈ m.minRole, minRole ≤ u.role

instance (users : Users) (m : Middleware) (id : Int) : Decidable (Permitted users m id) := by
  unfold Permitted
  infer_instance

/-- The request passes only as a user who is permitted. -/
def Current (x : State) (r : Request) : Prop := ∀ m, ∀ id ∈ passes x.users r m, Permitted x.users m id

def Backed (users : Users) (s : Session) : Prop :=
  ∃ u ∈ users.find s.id, u.deleted = false ∧ s.role ≤ u.role ∧ (s.status = .enabled → u.status = .enabled)

variable {users : Users} {r : Request} {s : Session} {m : Middleware} {id : Int} {u : User}

theorem getUserById_some (h : getUserById users id = some u) :
    users.find id = some u ∧ u.deleted = false := by
  unfold getUserById at h
  split at h
  · cases h
  · obtain ⟨hfind, hdel⟩ := filter_eq_some_iff.mp h
    exact ⟨hfind, by simpa using hdel⟩

theorem validateAccessToken_some {token : String} (h : validateAccessToken users token = some u) :
    users.find u.id = some u ∧ u.deleted = false := by
  unfold validateAccessToken at h
  split at h
  · cases h
  · have hprop := find?_some h
    simp only [Bool.and_eq_true, Bool.not_eq_true'] at hprop
    exact ⟨users.find_mem u (mem_of_find?_eq_some h), hprop.1⟩

theorem identify_backed (h : identify users r = .ok s) (hs : ∀ t ∈ r.session, Backed users t) : Backed users s := by
  unfold identify at h
  repeat' split at h
  all_goals cases h
  · next hsession => exact hs s hsession
  · next u hu _ _ =>
    obtain ⟨hfind, hdel⟩ := validateAccessToken_some hu
    exact ⟨u, hfind, hdel, le_refl _, fun hstatus => hstatus⟩

theorem authHelper_ok {minRole : Int} (h : authHelper users minRole r = .ok id) :
    ∃ s, identify users r = .ok s ∧ s.id = id ∧ s.status = .enabled ∧ minRole ≤ s.role := by
  unfold authHelper at h
  cases hs : identify users r with
  | error => simp [hs, bind, Except.bind] at h
  | ok s =>
    simp only [hs, bind, Except.bind] at h
    split at h
    · cases h
    · cases h
    · next apiUserId _ =>
      split_ifs at h with _ hstatus hrole _
      cases h
      refine ⟨s, rfl, rfl, ?_, not_lt.mp hrole⟩
      cases hst : s.status with
      | enabled => rfl
      | disabled => exact absurd hst hstatus

theorem current_of_backed {x : State} (hs : ∀ t ∈ r.session, Backed x.users t) : Current x r := by
  intro m id h
  unfold passes at h
  cases hm : m.minRole with
  | some minRole =>
    simp only [hm] at h
    cases hauth : authHelper x.users minRole r with
    | error => simp [hauth, Except.toOption] at h
    | ok =>
      simp only [hauth, Except.toOption, mem_some_iff] at h
      subst h
      obtain ⟨s, hident, rfl, hstatus, hrole⟩ := authHelper_ok hauth
      obtain ⟨u, hu, hdel, hle, hen⟩ := identify_backed hident hs
      refine ⟨u, hu, hdel, hen hstatus, ?_⟩
      simp only [hm, mem_some_iff, forall_eq']
      omega
  | none =>
    simp only [hm] at h
    obtain ⟨s, hfilter, rfl⟩ := map_eq_some_iff.mp h
    obtain ⟨hsession, hstatus⟩ := filter_eq_some_iff.mp hfilter
    obtain ⟨u, hu, hdel, _, hen⟩ := hs s hsession
    refine ⟨u, hu, hdel, hen (by simpa using hstatus), ?_⟩
    simp [hm]

theorem Backed.of_find {users' : Users} (h : Backed users s) (hfind : users'.find s.id = users.find s.id) :
    Backed users' s := by
  obtain ⟨u, hu, hrest⟩ := h
  exact ⟨u, hfind.trans hu, hrest⟩

variable {action : ManageAction}

variable {myRole : Int}

theorem managed_id {u' : User} (h : managed myRole u action = some u') : u'.id = u.id := by
  cases action with
  | enable =>
    cases h
    rfl
  | disable | delete | promote | demote =>
    simp only [managed] at h
    split at h
    · cases h
    · cases h
      rfl

theorem manageUser_cases :
    manageUser users myRole id action = users ∨ ∃ u u', users.find id = some u ∧ u'.id = id ∧
      managed myRole u action = some u' ∧ manageUser users myRole id action = users.save u' := by
  unfold manageUser
  cases hu : users.find id with
  | none => exact .inl rfl
  | some u =>
    simp only
    split
    · cases hw : managed myRole u action with
      | none => exact .inl rfl
      | some u' => exact .inr ⟨u, u', rfl, (managed_id hw).trans (users.find_key hu), hw, rfl⟩
    · exact .inl rfl

theorem find_manageUser {k : Int} (hk : k ≠ id) : (manageUser users myRole id action).find k = users.find k := by
  rcases manageUser_cases with h | ⟨u, u', _, hid, _, h⟩
  · rw [h]
  · rw [h]
    exact users.find_save_of_ne (by rwa [hid])

theorem managed_grows {u' : User} (haction : action = .enable ∨ action = .promote)
    (h : managed myRole u action = some u') :
    u'.deleted = u.deleted ∧ u.role ≤ u'.role ∧ (u.status = .enabled → u'.status = .enabled) := by
  rcases haction with rfl | rfl
  · cases h
    exact ⟨rfl, le_refl _, fun _ => rfl⟩
  · simp only [managed] at h
    split at h
    · cases h
    · next hrole =>
      simp only [Bool.or_eq_true, decide_eq_true_eq, not_or, not_le] at hrole
      cases h
      exact ⟨rfl, le_of_lt hrole.2, fun hstatus => hstatus⟩

theorem Backed.manageUser (h : Backed users s) (myRole id : Int)
    (haction : action = .enable ∨ action = .promote) : Backed (manageUser users myRole id action) s := by
  by_cases hs : s.id = id
  · rcases manageUser_cases with hm | ⟨u, u', hu, hid, hw, hm⟩
    · rwa [hm]
    · obtain ⟨hdel, hrole, hstatus⟩ := managed_grows haction hw
      obtain ⟨v, hv, hvdel, hle, hen⟩ := h
      rw [hs, hu, mem_some_iff] at hv
      subst hv
      refine ⟨u', ?_, hdel.trans hvdel, le_trans hle hrole, fun he => hstatus (hen he)⟩
      rw [hm, hs]
      exact users.find_save_of_key hid hu
  · exact h.of_find (find_manageUser hs)

theorem find_deleteUser {k : Int} (hk : k ≠ id) : (deleteUser users myRole id).find k = users.find k := by
  unfold deleteUser
  split
  · rfl
  · split
    · rfl
    · rw [Table.find_delete, if_neg hk]

theorem find_deleteSelf {k : Int} (hk : k ≠ id) : (deleteSelf users id).find k = users.find k := by
  unfold deleteSelf
  split
  · rfl
  · next u hu =>
    split
    · rfl
    · apply users.find_save_of_ne
      rwa [users.find_key (getUserById_some hu).1]

theorem backed_step {x : State} (h : ∀ s ∈ x.sessions, Backed x.users s) {a : Action} (ha : LoggedOut x a) :
    ∀ s ∈ (step x a).sessions, Backed (step x a).users s := by
  intro s hs
  cases a with
  | login =>
    simp only [step] at hs ⊢
    split at hs
    · exact h s hs
    · next u hu =>
      rcases mem_cons.mp hs with rfl | hs
      · obtain ⟨hfind, hdel⟩ := getUserById_some hu
        rw [← Table.find_key _ hfind] at hfind
        exact ⟨u, hfind, hdel, le_refl _, fun hstatus => hstatus⟩
      · exact h s (mem_of_mem_eraseIdx hs)
  | logout => exact h s (mem_of_mem_eraseIdx hs)
  | manage myRole id action =>
    have hb := h s hs
    cases action with
    | enable => exact hb.manageUser myRole id (.inl rfl)
    | promote => exact hb.manageUser myRole id (.inr rfl)
    | disable | delete | demote => exact hb.of_find (find_manageUser (ha id rfl s hs))
  | deleteUser myRole id => exact (h s hs).of_find (find_deleteUser (ha id rfl s hs))
  | deleteSelf id => exact (h s hs).of_find (find_deleteSelf (ha id rfl s hs))

def reached (users : Users) (as : List Action) : State := Run.exec step ⟨users, []⟩ as

/-- In every history a request with an access token passes only if its user may; and one with a
session, if the user has been logged out whenever a privilege was taken. -/
theorem privileges_current (users : Users) (as : List Action) :
    (∀ r, r.session = none → Current (reached users as) r) ∧
    (Run.Along step LoggedOut ⟨users, []⟩ as →
      ∀ r, (∀ s ∈ r.session, s ∈ (reached users as).sessions) → Current (reached users as) r) := by
  constructor
  · intro r hr
    exact current_of_backed (by simp [hr])
  · intro hok r hr
    have hb := Run.exec_invariant (fun x : State => ∀ s ∈ x.sessions, Backed x.users s)
      (fun _ _ h ha => backed_step h ha) ⟨users, []⟩ as (by simp) hok
    exact current_of_backed (fun s hs => hb s (hr s hs))

def sampleUsers : Users :=
  ⟨[⟨1, "root", roleRootUser, .enabled, none, false⟩,
    ⟨2, "admin", roleAdminUser, .enabled, none, false⟩], by decide⟩

def adminSession : Session := ⟨2, "admin", roleAdminUser, .enabled⟩

/-- The administrator logs out before the demotion. -/
theorem privileges_current_logout :
    Run.Along step LoggedOut ⟨sampleUsers, []⟩ [.login 0 1, .login 1 2, .logout 0, .manage 100 2 .demote] ∧
      Current (reached sampleUsers [.login 0 1, .login 1 2, .logout 0, .manage 100 2 .demote])
        ⟨some ⟨1, "root", roleRootUser, .enabled⟩, "", .id 1⟩ :=
  ⟨by decide, (privileges_current sampleUsers _).2 (by decide) _ (by decide)⟩

/-- A demoted administrator passes `AdminAuth` with the old session; one who has been disabled
or deleted passes as well. -/
theorem revoked_session_passes :
    [Action.manage 100 2 .demote, .manage 100 2 .disable, .manage 100 2 .delete, .deleteUser 100 2, .deleteSelf 2].all
      (fun a => adminSession ∈ (reached sampleUsers [.login 0 2, a]).sessions ∧
        passes (reached sampleUsers [.login 0 2, a]).users ⟨some adminSession, "", .id 2⟩ .adminAuth = some 2 ∧
        ¬ Permitted (reached sampleUsers [.login 0 2, a]).users .adminAuth 2) = true := by
  decide

end AiGateway.SessionAuth
