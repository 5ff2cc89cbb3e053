import BackendTemplate.BearerAuth
import BackendTemplate.LoginOutcomes
import BackendTemplate.OAuthClients
import BackendTemplate.RoleStore
import BackendTemplate.SessionPages

/-!
# What a Token Can Change

A token says who its user is and which scopes were consented to. The routes of a user are behind
`require_scope`; those that administer roles and clients are behind `require_admin`, which asks for
a permission of the user and looks at no scope. One authenticated route has neither guard: the
verification of a second-factor code, which looks at a code and consumes it when it is a recovery
code.

`ApiState` is the service between two requests, with the users that the accounts and the roles
share. Hydra's client registry is a parameter: what it answers to a call, and what it is after.

## Main results

* `verify2FA_ends` — the verification of a code changes at most the users, and only for a recovery
  code.
* `handle_users` — a request on roles writes no user.
* `scopes_bound_changes` — what a token with none of the scopes can change, on every route.
-/

namespace BackendTemplate

open Atomic Atomic.Prog

/-! ### Guards -/

/-- `SCOPE_PROFILE`. -/
def scopeProfile : String := "profile"

/-- `SCOPE_ACCOUNT_WRITE`. -/
def scopeAccountWrite : String := "account:write"

/-- `SCOPE_SESSIONS_WRITE`. -/
def scopeSessionsWrite : String := "sessions:write"

/-- What a guard raises. -/
inductive GuardError
  | permissionDenied (detail : String)
  | rbac (e : RbacError)
deriving DecidableEq

/-- The guards of the routes. -/
inductive Guard
  | requireAdmin
  | requireScope (scope : String)

/-- **A guard**, on the user of the token and the stored roles. -/
def Guard.check (user : UserSecuritySchema) (db : RbacDb) : Guard → Except GuardError Unit
  | .requireAdmin => do
      let isAdmin ← (db.checkPermission user.userId adminPermission).mapError .rbac
      if !isAdmin then .error (.permissionDenied "Admin permission required") else .ok ()
  | .requireScope scope =>
      if scope ∉ user.scopes then
        .error (.permissionDenied ("OAuth scope \"" ++ scope ++ "\" required"))
      else .ok ()

/-! ### Hydra's clients -/

/-- **Hydra's client registry**: what it answers to the calls of the admin API, and the registry
after. -/
structure Registry (κ : Type) where
  create : Json → κ → HttpResponse × κ
  list : ℕ → κ → HttpResponse
  delete : String → κ → HttpResponse × κ
  rotate : String → κ → HttpResponse × κ

/-- What the use cases on one client raise. -/
inductive OAuthClientError
  | oauthClientNotFound (clientId : String)
  | api (e : AdminApiError)
deriving DecidableEq

/-- `_raise_client_status`, with the error the use cases make of Hydra's 404. -/
def raiseClientStatus (clientId : String) (response : HttpResponse) :
    Except OAuthClientError Unit :=
  if response.statusCode = 404 then .error (.oauthClientNotFound clientId)
  else (raiseForStatus response).mapError .api

/-- `DeleteOAuthClientUseCase`, over what Hydra answers. -/
def deleteOAuthClient (clientId : String) (response : HttpResponse) :
    Except OAuthClientError Unit :=
  raiseClientStatus clientId response

/-- `RotateClientSecretOutput`. -/
structure RotateClientSecretOutput where
  clientId : String
  clientSecret : Option String
deriving DecidableEq

/-- `RotateClientSecretUseCase`, over what Hydra answers. -/
def rotateClientSecret (clientId : String) (response : HttpResponse) :
    Except OAuthClientError RotateClientSecretOutput := do
  raiseClientStatus clientId response
  let client ← (validateBody HydraClient.validate response).mapError .api
  pure { clientId := client.clientId, clientSecret := client.clientSecret }

/-! ### The profile -/

/-- `GetMeOutput`. -/
structure GetMeOutput where
  userId : String
  username : String
  email : Option String := none
  isEmailVerified : Bool := false
  isLocked : Bool := false
  hasTwoFactor : Bool := false
deriving DecidableEq

/-- `GetMeUseCase`, with `SQLAlchemyUserReader.get_by_id`. -/
def getMe (env : Env) (now : Instant) (users : List UserRow) (userId : Uuid) :
    Except AppError GetMeOutput := do
  let id ← UserID.make userId
  match users.find? fun row => row.id = id.value with
  | none => .error (.userNotFound (some userId))
  | some row =>
      let lockInfo : AccountLockInfo := { isLocked := row.isLocked, lockUntil := row.lockUntil }
      pure
        { userId := env.uuidStr row.id
          username := row.username
          email := row.email
          isEmailVerified := row.isEmailVerified
          isLocked := lockInfo.isLockedOut now
          hasTwoFactor := row.twoFactorSecret.any (fun s => !s.isEmpty) &&
            row.twoFactorEnabledAt.isSome }

/-! ### The service between two requests -/

/-- **The state of the service** between two requests: the tables of the accounts, those of the
roles, which share the users, and Hydra's clients. No transaction is open. -/
structure ApiState (κ : Type) where
  world : World Unit
  roles : RbacDb
  clients : κ
  users : roles.users = world.db.users
  idle : world.pending () = []

namespace ApiState

variable {κ : Type}

/-- The role store, with the clock and the random source of the service. -/
def roleStore (s : ApiState κ) : RoleStore := ⟨s.roles, s.world.clock, s.world.rng⟩

/-- The state that a request on accounts leaves. -/
def withWorld (s : ApiState κ) (w : World Unit) : ApiState κ where
  world := w.rollback ()
  roles := { s.roles with users := w.db.users }
  clients := s.clients
  users := rfl
  idle := by simp

end ApiState

theorem RbacDb.view_users (db : RbacDb) (ws : List RowWrite) :
    (RowLocks.view RbacDb.apply db ws).users = db.users := by
  induction ws generalizing db with
  | nil => rfl
  | cons wr ws ih =>
      refine (ih (db.apply wr)).trans ?_
      cases wr <;> rfl

/-- The users, committed and current. -/
def RbacSolo.HasUsers (users : List UserRow) (s : RbacSolo) : Prop :=
  s.committed.users = users ∧ s.current.users = users

/-- No call on roles writes a user. -/
theorem RbacSolo.HasUsers.answer {env : Env} {commitFails : Bool} {users : List UserRow}
    (o : RbacOp) (s : RbacSolo) (h : s.HasUsers users) :
    (soloAnswer env commitFails o s).2.HasUsers users := by
  cases o with
  | execute statement =>
      rw [soloAnswer]
      split
      · exact ⟨h.1, (RbacDb.view_users _ _).trans h.2⟩
      · exact h
  | commit =>
      rw [soloAnswer]
      split
      · exact ⟨h.1, h.1⟩
      · exact ⟨h.2, h.2⟩
  | _ => exact h

/-- **A request on roles writes no user.** -/
theorem handle_users (env : Env) (commitFails : Bool) (st : RoleStore) (req : RbacRequest) :
    (st.handle env commitFails req).2.db.users = st.db.users := by
  have hbegin : st.begin.HasUsers st.db.users := ⟨rfl, rfl⟩
  exact (run_invariant RbacSolo.HasUsers.answer req.useCase hbegin).1

/-- The state that a request on roles leaves. -/
def ApiState.withRoles {κ : Type} (env : Env) (commitFails : Bool) (s : ApiState κ)
    (req : RbacRequest) : ApiState κ where
  world := { s.world with rng := (s.roleStore.handle env commitFails req).2.rng }
  roles := (s.roleStore.handle env commitFails req).2.db
  clients := s.clients
  users := (handle_users env commitFails s.roleStore req).trans s.users
  idle := s.idle

/-! ### Routes -/

/-- **The authenticated routes** of `UserController`, `AuthController`, `SessionController`,
`RolesController` and `AdminClientsController`, with what a request brings. -/
inductive Route
  | getMe
  | updateProfile (username email : Option String)
  | deleteMe
  | changePassword (oldPassword newPassword : String)
  | enable2FA
  | confirm2FA (code : String)
  | disable2FA (currentPassword : String)
  | verify2FA (code : String)
  | getSessions (limit offset : ℕ)
  | revokeSession (sessionId : String)
  | revokeAllSessions
  | createRole (name : String) (description : Option String)
  | deleteRole (roleId : Uuid)
  | listRoles
  | assignRole (roleId userId : Uuid)
  | revokeRole (roleId userId : Uuid)
  | getUserRoles (userId : Uuid)
  | addPermission (roleId : Uuid) (permissionName : String)
  | removePermission (roleId : Uuid) (permissionName : String)
  | createClient (data : CreateOAuthClientInput)
  | listClients
  | deleteClient (clientId : String)
  | rotateSecret (clientId : String)

/-- The guard of a route: its own, or that of its controller. -/
def Route.guard : Route → Option Guard
  | .getMe | .updateProfile _ _ | .getSessions _ _ => some (.requireScope scopeProfile)
  | .deleteMe | .changePassword _ _ | .enable2FA | .confirm2FA _ | .disable2FA _ =>
      some (.requireScope scopeAccountWrite)
  | .revokeSession _ | .revokeAllSessions => some (.requireScope scopeSessionsWrite)
  | .verify2FA _ => none
  | _ => some .requireAdmin

/-- What a request is answered with: an error of its guard, or what its use case ends with. -/
inductive ApiAnswer
  | refused (e : GuardError)
  | account (x : Except AppError Response)
  | profile (x : Except AppError GetMeOutput)
  | sessions (x : Except AppError SessionsPage)
  | role (x : Except RbacError (Option RoleOutput))
  | roleList (x : Except RbacError (List RoleReadDTO))
  | client (x : Except AdminApiError CreateOAuthClientOutput)
  | clientList (x : Except AdminApiError (List ClientDTO))
  | deleted (x : Except OAuthClientError Unit)
  | rotated (x : Except OAuthClientError RotateClientSecretOutput)

/-- **What a handler runs** once its guard has passed: a use case on the accounts or on the roles,
reads only, or a call of Hydra, which leaves a registry. -/
inductive Action (κ : Type)
  | account (r : Request)
  | roles (r : RbacRequest)
  | reads (answer : ApiAnswer)
  | hydra (answer : ApiAnswer) (clients : κ)

/-- `RbacDb.getUserRoles` for an id that is yet to be checked: `GetUserRolesUseCase`. -/
def getUserRolesUseCase (db : RbacDb) (u : Uuid) : Except RbacError (List RoleReadDTO) := do
  let userId ← rbacUserID u
  pure (db.getUserRoles userId.value)

/-- **The handlers.** -/
def Route.action {κ : Type} (env : Env) (hydra : Registry κ) (s : ApiState κ) (user : Uuid) :
    Route → Action κ
  | .getMe => .reads (.profile (BackendTemplate.getMe env s.world.clock s.world.db.users user))
  | .updateProfile username email => .account (.updateProfile user username email)
  | .deleteMe => .account (.deleteMe user)
  | .changePassword oldPassword newPassword =>
      .account (.changePassword user oldPassword newPassword)
  | .enable2FA => .account (.enable2FA user)
  | .confirm2FA code => .account (.confirm2FA user code)
  | .disable2FA currentPassword => .account (.disable2FA user currentPassword)
  | .verify2FA code => .account (.verify2FA user code)
  | .getSessions limit offset =>
      .reads (.sessions (getUserSessions s.world.db.sessions user limit offset))
  | .revokeSession sessionId => .account (.revokeSession user sessionId)
  | .revokeAllSessions => .account (.revokeAllSessions user)
  | .createRole name description => .roles (.createRole name description)
  | .deleteRole roleId => .roles (.deleteRole roleId)
  | .listRoles => .reads (.roleList (.ok (s.roles.rolesWithPermissions s.roles.roles)))
  | .assignRole roleId userId => .roles (.assignRole userId roleId (some user))
  | .revokeRole roleId userId => .roles (.revokeRole userId roleId)
  | .getUserRoles userId => .reads (.roleList (getUserRolesUseCase s.roles userId))
  | .addPermission roleId permissionName => .roles (.addPermissionToRole roleId permissionName)
  | .removePermission roleId permissionName =>
      .roles (.removePermissionFromRole roleId permissionName)
  | .createClient data =>
      .hydra (.client (createOAuthClient (fun payload => (hydra.create payload s.clients).1) data))
        (hydra.create (clientToWire data.registration) s.clients).2
  | .listClients =>
      .reads (.clientList (listOAuthClients fun pageSize => hydra.list pageSize s.clients))
  | .deleteClient clientId =>
      .hydra (.deleted (deleteOAuthClient clientId (hydra.delete clientId s.clients).1))
        (hydra.delete clientId s.clients).2
  | .rotateSecret clientId =>
      .hydra (.rotated (rotateClientSecret clientId (hydra.rotate clientId s.clients).1))
        (hydra.rotate clientId s.clients).2

/-- The guard of the route lets the user of the token pass. -/
def Route.Passes (user : UserSecuritySchema) (db : RbacDb) (route : Route) : Prop :=
  ∀ g ∈ route.guard, g.check user db = .ok ()

/-- **What handling a request comes to**, alone: its answer and the state it leaves. -/
inductive ApiHandles {κ : Type} (env : Env) (hydra : Registry κ) (user : UserSecuritySchema)
    (s : ApiState κ) (route : Route) : ApiAnswer → ApiState κ → Prop
  | refused {g : Guard} {e : GuardError} (hg : route.guard = some g)
      (he : g.check user s.roles = .error e) : ApiHandles env hydra user s route (.refused e) s
  | account {r : Request} {c : Cfg Unit} {x : Except AppError Response}
      (hpass : route.Passes user s.roles)
      (ha : route.action env hydra s user.userId = .account r)
      (hr : Runs env (fun _ => r) Machine.anyStep s.world c) (hx : c.threads () = .done x) :
      ApiHandles env hydra user s route (.account x) (s.withWorld c.shared)
  | roles {r : RbacRequest} (commitFails : Bool) (hpass : route.Passes user s.roles)
      (ha : route.action env hydra s user.userId = .roles r) :
      ApiHandles env hydra user s route (.role (s.roleStore.handle env commitFails r).1)
        (s.withRoles env commitFails r)
  | reads {a : ApiAnswer} (hpass : route.Passes user s.roles)
      (ha : route.action env hydra s user.userId = .reads a) :
      ApiHandles env hydra user s route a s
  | hydra {a : ApiAnswer} {clients : κ} (hpass : route.Passes user s.roles)
      (ha : route.action env hydra s user.userId = .hydra a clients) :
      ApiHandles env hydra user s route a { s with clients := clients }

/-! ### The code of a signed-in user -/

/-- The code is one of the recovery codes of the account. -/
def Db.IsRecoveryCode (env : Env) (db : Db) (x : Uuid) (code : String) : Prop :=
  ∃ u, db.acquireUser env (.id x) = .ok (some u) ∧ u.HoldsCode (env.sha256 code)

/-- **What the verification of a code keeps**: the sessions and the refresh tokens, and the users
unless the code is a recovery code. -/
structure VerifyKeeps (env : Env) (userId : Uuid) (code : String) (db db' : Db) : Prop where
  sessions : db'.sessions = db.sessions
  refreshTokens : db'.refreshTokens = db.refreshTokens
  users : ¬ db.IsRecoveryCode env userId code → db'.users = db.users

section Verify

variable {env : Env} {w : World Unit} {userId : Uuid} {code : String}

theorem VerifyKeeps.refl (db : Db) : VerifyKeeps env userId code db db := ⟨rfl, rfl, fun _ => rfl⟩

/-- A code that is refused leaves the account as it is. -/
theorem verifyTwoFactor_refused {u : User} {now : Instant} :
    (u.verifyTwoFactor env now code).1 = false → (u.verifyTwoFactor env now code).2 = u := by
  rw [User.verifyTwoFactor]
  split
  · exact fun _ => rfl
  · split
    · exact fun _ => rfl
    · split
      · exact fun _ => rfl
      · split
        · rintro ⟨⟩
        · exact fun _ => rfl

/-- Only a recovery code changes the account. -/
theorem verifyTwoFactor_changes {u : User} {now : Instant}
    (h : (u.verifyTwoFactor env now code).2 ≠ u) : u.HoldsCode (env.sha256 code) := by
  have htrue : (u.verifyTwoFactor env now code).1 = true := by
    rw [← Bool.not_eq_false]
    exact fun hfalse => h (verifyTwoFactor_refused hfalse)
  exact (verifyTwoFactor_consumes (Prod.ext htrue rfl) h).1

/-- What is committed of one update of an account leaves the other tables. -/
theorem commit_update (hidle : w.pending () = []) (row : UserRow) (n d : ℕ) :
    ((((w.issue () [.userUpdate row]).draw n).after d).commit env ()).db.sessions = w.db.sessions ∧
      ((((w.issue () [.userUpdate row]).draw n).after d).commit env ()).db.refreshTokens =
        w.db.refreshTokens := by
  have hview : (((w.issue () [.userUpdate row]).draw n).after d).view () =
      w.db.apply (.userUpdate row) := by
    rw [← view_of_idle hidle]
    exact view_issue_draw w () (.userUpdate row) n
  have hkept : (w.db.apply (.userUpdate row)).sessions = w.db.sessions ∧
      (w.db.apply (.userUpdate row)).refreshTokens = w.db.refreshTokens := ⟨rfl, rfl⟩
  obtain ⟨-, hsessions, htokens⟩ :=
    commit_tables env (((w.issue () [.userUpdate row]).draw n).after d) ()
  rw [hview] at hsessions htokens
  exact ⟨hsessions.trans hkept.1, htokens.trans hkept.2⟩

/-- The end of the verification, for the account that was found. -/
theorem checkCode_ends {u : User} (hidle : w.pending () = [])
    (hread : w.db.acquireUser env (.id userId) = .ok (some u)) :
    EndsUnder env (fun _ => True) (fun _ w' => VerifyKeeps env userId code w.db w'.db)
      (do
        let result ← ask (.verifyTwoFactor u code)
        if result.2 ≠ u then do
          let _ ← UserRepo.update result.2
          commit
          pure (Response.verified result.1)
        else pure (.verified result.1)) w := by
  refine ends_ask fun d _ _ => ⟨u.verifyTwoFactor env (w.after d).clock code, w.after d, rfl, ?_⟩
  split
  · rename_i hchanged
    have hcode : w.db.IsRecoveryCode env userId code := ⟨u, hread, verifyTwoFactor_changes hchanged⟩
    refine ends_attempt.mpr (ends_call fun d' ch x w₁ _ he => ?_)
    rcases exec_updateUser he with ⟨e, rfl, -, rfl⟩ | ⟨rfl, -, -, rfl⟩
    · exact .refl _
    · refine ends_attempt.mpr (ends_call fun d'' ch' x' w₂ _ he' => ?_)
      rcases exec_commit he' with ⟨rfl, rfl⟩ | ⟨rfl, rfl⟩
      · exact .refl _
      · -- the commit writes the account and the events, and no other table
        have hidle' : ((w.after d).after d').pending () = [] := hidle
        exact ⟨(commit_update hidle' _ _ _).1, (commit_update hidle' _ _ _).2,
          fun hnot => absurd hcode hnot⟩
  · exact .refl _

/-- **The verification of a code**, alone. -/
theorem verify2FA_ends (hidle : w.pending () = []) :
    EndsUnder env (fun _ => True) (fun _ w' => VerifyKeeps env userId code w.db w'.db)
      (verify2FA userId code) w := by
  rw [verify2FA]
  cases hid : UserID.make userId with
  | error e => exact .refl _
  | ok id =>
      have hvalue := UserID.make_ok hid
      refine ends_attempt.mpr (ends_ask fun d _ _ => ⟨_, _, rfl, ?_⟩)
      cases hread : ((w.after d).view ()).acquireUser env (.id id.value) with
      | error e => exact .refl _
      | ok found =>
          cases found with
          | none => exact .refl _
          | some u =>
              rw [hvalue] at hread
              change (w.view ()).acquireUser env (.id userId) = _ at hread
              rw [view_of_idle hidle] at hread
              exact checkCode_ends (w := w.after d) hidle hread

end Verify

/-! ### What a token can change -/

/-- The token has none of the scopes that a route asks for. -/
structure UserSecuritySchema.Unscoped (user : UserSecuritySchema) : Prop where
  profile : scopeProfile ∉ user.scopes
  accountWrite : scopeAccountWrite ∉ user.scopes
  sessionsWrite : scopeSessionsWrite ∉ user.scopes

/-- The user has the permission that `require_admin` asks for. -/
def RbacDb.IsAdmin (db : RbacDb) (u : Uuid) : Prop :=
  db.checkPermission u adminPermission = .ok true

/-- The route writes to the tables of the roles. -/
def Route.editsRoles : Route → Bool
  | .createRole _ _ | .deleteRole _ | .assignRole _ _ | .revokeRole _ _ | .addPermission _ _
  | .removePermission _ _ => true
  | _ => false

/-- The route writes to Hydra's clients. -/
def Route.editsClients : Route → Bool
  | .createClient _ | .deleteClient _ | .rotateSecret _ => true
  | _ => false

/-- **What handling a request changes is bounded**: no session and no refresh token, no user but for
a recovery code of the caller, and the roles and the clients only by the routes of administrators
that are there for it. -/
structure Bounded {κ : Type} (env : Env) (user : UserSecuritySchema) (route : Route)
    (s s' : ApiState κ) : Prop where
  sessions : s'.world.db.sessions = s.world.db.sessions
  refreshTokens : s'.world.db.refreshTokens = s.world.db.refreshTokens
  users : (∀ code, route = .verify2FA code → ¬ s.world.db.IsRecoveryCode env user.userId code) →
    s'.world.db.users = s.world.db.users
  roles : ¬ (route.editsRoles = true ∧ s.roles.IsAdmin user.userId) →
    s'.roles.roles = s.roles.roles ∧ s'.roles.rolePermissions = s.roles.rolePermissions ∧
      s'.roles.userRoles = s.roles.userRoles
  clients : ¬ (route.editsClients = true ∧ s.roles.IsAdmin user.userId) → s'.clients = s.clients

section Scopes

variable {κ : Type} {env : Env} {hydra : Registry κ} {user : UserSecuritySchema}
  {s s' : ApiState κ} {route : Route} {db : RbacDb}

theorem Bounded.refl (s : ApiState κ) : Bounded env user route s s :=
  ⟨rfl, rfl, fun _ => rfl, fun _ => ⟨rfl, rfl, rfl⟩, fun _ => rfl⟩

/-- A scope that the token does not have. -/
theorem Route.Passes.scope {scope : String} (h : route.Passes user db)
    (hguard : route.guard = some (.requireScope scope)) : scope ∈ user.scopes := by
  by_contra hnot
  have hcheck := h _ hguard
  rw [Guard.check, if_pos hnot] at hcheck
  cases hcheck

/-- A user whom `require_admin` lets pass. -/
theorem Route.Passes.isAdmin (h : route.Passes user db)
    (hguard : route.guard = some .requireAdmin) : db.IsAdmin user.userId := by
  have hcheck := h _ hguard
  rw [Guard.check] at hcheck
  rw [RbacDb.IsAdmin]
  cases hadmin : db.checkPermission user.userId adminPermission with
  | error e =>
      rw [hadmin] at hcheck
      cases hcheck
  | ok isAdmin =>
      rw [hadmin] at hcheck
      cases isAdmin with
      | true => rfl
      | false => cases hcheck

/-- **Without its scopes a token reaches one use case on the accounts**, the verification of a code:
the others are behind a scope. -/
theorem Route.Passes.verifies {r : Request} (h : route.Passes user db) (hscopes : user.Unscoped)
    (ha : route.action env hydra s user.userId = .account r) :
    ∃ code, route = .verify2FA code ∧ r = .verify2FA user.userId code := by
  cases route with
  | verify2FA code => exact ⟨code, rfl, (Action.account.inj ha).symm⟩
  | updateProfile username email => exact absurd (h.scope rfl) hscopes.profile
  | deleteMe => exact absurd (h.scope rfl) hscopes.accountWrite
  | changePassword oldPassword newPassword => exact absurd (h.scope rfl) hscopes.accountWrite
  | enable2FA => exact absurd (h.scope rfl) hscopes.accountWrite
  | confirm2FA code => exact absurd (h.scope rfl) hscopes.accountWrite
  | disable2FA currentPassword => exact absurd (h.scope rfl) hscopes.accountWrite
  | revokeSession sessionId => exact absurd (h.scope rfl) hscopes.sessionsWrite
  | revokeAllSessions => exact absurd (h.scope rfl) hscopes.sessionsWrite
  | _ => cases ha

/-- The use cases on the roles are behind `require_admin`. -/
theorem Route.Passes.edits_roles {r : RbacRequest} (h : route.Passes user db)
    (ha : route.action env hydra s user.userId = .roles r) :
    route.editsRoles = true ∧ db.IsAdmin user.userId := by
  cases route with
  | createRole | deleteRole | assignRole | revokeRole | addPermission | removePermission =>
      exact ⟨rfl, h.isAdmin rfl⟩
  | _ => cases ha

/-- So are the calls that change Hydra's clients. -/
theorem Route.Passes.edits_clients {a : ApiAnswer} {clients : κ} (h : route.Passes user db)
    (ha : route.action env hydra s user.userId = .hydra a clients) :
    route.editsClients = true ∧ db.IsAdmin user.userId := by
  cases route with
  | createClient | deleteClient | rotateSecret => exact ⟨rfl, h.isAdmin rfl⟩
  | _ => cases ha

/-- **What a token without its scopes can change**, on every authenticated route and for every
request. -/
theorem scopes_bound_changes {a : ApiAnswer} (hscopes : user.Unscoped)
    (h : ApiHandles env hydra user s route a s') : Bounded env user route s s' := by
  cases h with
  | refused hg he => exact .refl s
  | reads hpass ha => exact .refl s
  | roles commitFails hpass ha =>
      exact ⟨rfl, rfl, fun _ => rfl, fun hnot => absurd (hpass.edits_roles ha) hnot, fun _ => rfl⟩
  | hydra hpass ha =>
      exact ⟨rfl, rfl, fun _ => rfl, fun _ => ⟨rfl, rfl, rfl⟩,
        fun hnot => absurd (hpass.edits_clients ha) hnot⟩
  | account hpass ha hr hx =>
      obtain ⟨code, rfl, rfl⟩ := hpass.verifies hscopes ha
      have hunder : Runs env (fun _ => .verify2FA user.userId code) (Machine.Under fun _ => True)
          s.world _ := hr.mono fun c l _ => by cases l <;> trivial
      have hlasts : (machine env Unit).Lasts () fun (_ : Except AppError Response) w' =>
          VerifyKeeps env user.userId code s.world.db w'.db :=
        ⟨fun _ _ _ h => h, fun _ _ h => h⟩
      have hkeeps := (verify2FA_ends s.idle).outcome hlasts hunder hx
      exact ⟨hkeeps.sessions, hkeeps.refreshTokens, fun hcode => hkeeps.users (hcode code rfl),
        fun _ => ⟨rfl, rfl, rfl⟩, fun _ => rfl⟩

end Scopes

/-! ### A token for its name only -/

namespace Reference

/-- The scope that says who the user is, and nothing else. -/
def openidOnly : UserSecuritySchema := ⟨aliceId, {"openid"}⟩

theorem openidOnly_unscoped : openidOnly.Unscoped := by
  constructor <;> decide

/-- A registry that keeps the payloads it is sent. -/
def payloads : Registry (List Json) where
  create payload clients := (echo payload, clients ++ [payload])
  list _ _ := ⟨200, "", some (.arr [])⟩
  delete _ clients := (⟨404, "", none⟩, clients)
  rotate _ clients := (⟨404, "", none⟩, clients)

/-- The account is an administrator and has a second factor with one recovery code. -/
def administrated : ApiState (List Json) where
  world := world Unit (tables (alice true ["3f9a1c7b"]) false)
  roles := { adminStore.db with users := [alice true ["3f9a1c7b"]] }
  clients := []
  users := rfl
  idle := rfl

theorem administrated_isAdmin : administrated.roles.IsAdmin aliceId :=
  adminStore_administers.check (u := ⟨aliceId, by decide⟩)

end Reference

open Reference

/-- A code that is not a recovery code changes nothing. -/
theorem wrong_code_bounded : openidOnly.Unscoped ∧
    ∃ s', ApiHandles Reference.env payloads openidOnly administrated (.verify2FA "000000")
        (.account (.ok (.verified false))) s' ∧
      Bounded Reference.env openidOnly (.verify2FA "000000") administrated s' := by
  obtain ⟨c, hc, hx⟩ : ∃ c, (machine Reference.env Unit).run
      (start Reference.env (fun _ => .verify2FA aliceId "000000") administrated.world)
      (moves () 3) = some c ∧ c.result () = some (.ok (.verified false)) := by
    decide +kernel
  have hpass : Route.Passes openidOnly administrated.roles (.verify2FA "000000") := by
    rintro g ⟨⟩
  have hhandles : ApiHandles Reference.env payloads openidOnly administrated (.verify2FA "000000")
      (.account (.ok (.verified false))) (administrated.withWorld c.shared) :=
    .account hpass rfl (Machine.reach_of_run (Machine.runsWith_any _ _ _) hc)
      (Config.result_eq_some.mp hx)
  exact ⟨openidOnly_unscoped, _, hhandles, scopes_bound_changes openidOnly_unscoped hhandles⟩

/-- An administrator's token creates a role, with no scope but that. -/
theorem openid_creates_role : openidOnly.Unscoped ∧
    ∃ a s', ApiHandles Reference.env payloads openidOnly administrated
        (.createRole "auditors" none) a s' ∧ s'.roles.roles ≠ administrated.roles.roles := by
  have hpass : Route.Passes openidOnly administrated.roles (.createRole "auditors" none) := by
    rintro g ⟨⟩
    have hadmin : administrated.roles.checkPermission openidOnly.userId adminPermission =
        .ok true := administrated_isAdmin
    rw [Guard.check, hadmin]
    rfl
  refine ⟨openidOnly_unscoped, _, _, .roles false hpass rfl, ?_⟩
  decide +kernel

end BackendTemplate
