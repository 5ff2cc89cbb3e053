import BackendTemplate.World

/-!
# The User Service, the Challenge Store and the Used-Code Registry

The application services as programs over the calls of `BackendTemplate.World`. Each
definition follows its source line by line: the order of the calls is the order in which
the source awaits them, reads the clock and draws random values.
-/

namespace BackendTemplate

open Atomic Atomic.Prog

/-- A program of the service. -/
abbrev Act (α : Type) := Prog calls AppError α

/-- A call of the service. -/
def ask (o : Op) : Act o.Res := perform (S := calls) o

/-- A call that can raise. -/
def attempt {α : Type} (p : Act (Except AppError α)) : Act α := p >>= ofExcept

/-- Python's truth test of an optional string. -/
def truthy (s : Option String) : Bool := s.isSome && s != some ""

theorem truthy_iff {o : Option String} : truthy o = true ↔ ∃ s, o = some s ∧ s ≠ "" := by
  cases o with
  | none => simp [truthy]
  | some s => simp [truthy]

/-! ### Repositories and unit of work -/

namespace UserRepo

/-- The shape shared by the `acquire_*` methods. -/
def acquire (q : UserQuery) : Act (Option User) := attempt (ask (.acquireUser q))

/-- `acquire_by_id`. -/
def acquireById (u : UserID) : Act (Option User) := acquire (.id u.value)

/-- `acquire_by_username`. -/
def acquireByUsername (n : Username) : Act (Option User) := acquire (.username n.value)

/-- `acquire_by_email`. -/
def acquireByEmail (e : Email) : Act (Option User) := acquire (.email e.value)

/-- `acquire_by_verification_token`. -/
def acquireByVerificationToken (h : TokenHash) : Act (Option User) :=
  acquire (.verificationToken h.value)

/-- `acquire_by_reset_token`. -/
def acquireByResetToken (h : TokenHash) : Act (Option User) :=
  acquire (.resetToken h.value)

/-- `update`, returning the aggregate at its new version. -/
def update (u : User) : Act User := attempt (ask (.updateUser u))

end UserRepo

/-- `uow.register`: the aggregate's unpulled events are drained at the commit. -/
def register (events : List Event) : Act Unit := ask (.register events)

/-- `uow.commit`. -/
def commit : Act Unit := attempt (ask .commit)

/-- `datetime.now(UTC)`. -/
def now : Act Instant := ask .now

/-! ### The challenge store -/

/-- `TwoFactorChallenge`. -/
structure TwoFactorChallenge where
  userId : Uuid
  deviceInfo : DeviceInfo
  attempts : ℕ := 0
  loginChallenge : Option String := none
deriving DecidableEq

/-- `CHALLENGE_TTL_SECONDS`. -/
def challengeTtlSeconds : ℕ := 300

/-- `MAX_ATTEMPTS` of a challenge. -/
def maxAttempts : ℕ := 5

namespace TwoFactorChallenge

/-- `TwoFactorChallenge.with_failed_attempt`. -/
def withFailedAttempt (c : TwoFactorChallenge) : TwoFactorChallenge :=
  { c with attempts := c.attempts + 1 }

/-- `TwoFactorChallenge.is_exhausted`. -/
def isExhausted (c : TwoFactorChallenge) : Bool := decide (maxAttempts ≤ c.attempts)

end TwoFactorChallenge

/-- `_StoredChallenge.of`. -/
def StoredChallenge.of (c : TwoFactorChallenge) : StoredChallenge where
  userId := c.userId
  userAgent := c.deviceInfo.userAgent
  ipAddress := c.deviceInfo.ipAddress
  attempts := c.attempts
  loginChallenge := c.loginChallenge

/-- `_StoredChallenge.to_challenge`. -/
def StoredChallenge.toChallenge (c : StoredChallenge) : TwoFactorChallenge where
  userId := c.userId
  deviceInfo := { userAgent := c.userAgent, ipAddress := c.ipAddress }
  attempts := c.attempts
  loginChallenge := c.loginChallenge

namespace ChallengeStore

/-- `_CACHE_PREFIX + token`. -/
def key (token : String) : String := "pending_2fa:" ++ token

/-- Write a challenge under its token, with a full lifetime. -/
def put (env : Env) (token : String) (c : TwoFactorChallenge) : Act Unit :=
  ask (.cacheSet (key token) (env.dumpJson (.of c)) (some challengeTtlSeconds))

/-- `CachedTwoFactorChallengeStore.issue`. -/
def issue (env : Env) (c : TwoFactorChallenge) : Act String := do
  let token ← ask .tokenUrlsafe
  put env token c
  pure token

/-- `CachedTwoFactorChallengeStore.discard`. -/
def discard (token : String) : Act Unit := ask (.cacheDelete (key token))

/-- `CachedTwoFactorChallengeStore.read`. -/
def read (env : Env) (token : String) : Act TwoFactorChallenge := do
  let raw ← ask (.cacheGet (key token))
  match raw with
  | none => raise .twoFactorChallengeExpired
  | some raw =>
      match env.validateJson raw with
      | some stored => pure stored.toChallenge
      | none => do
          discard token
          raise .twoFactorChallengeExpired

/-- `CachedTwoFactorChallengeStore.record_failure`: the counter is the one that was read,
and the record is written back with a full lifetime. -/
def recordFailure (env : Env) (token : String) (c : TwoFactorChallenge) : Act Unit :=
  let updated := c.withFailedAttempt
  if updated.isExhausted then do
    discard token
    raise .twoFactorChallengeExpired
  else put env token updated

end ChallengeStore

/-! ### The used-code registry -/

namespace UsedCodes

/-- `CODE_MEMORY_SECONDS`. -/
def codeMemorySeconds : ℕ := 120

/-- `UsedCodeRegistry._key`: the digest of the raw string that was submitted. -/
def key (env : Env) (userId : Uuid) (code : String) : String :=
  "used_2fa_code:" ++ hex (env.sha256 (env.uuidStr userId ++ ":" ++ code))

/-- `UsedCodeRegistry.was_used`. -/
def wasUsed (env : Env) (userId : Uuid) (code : String) : Act Bool := do
  let entry ← ask (.cacheGet (key env userId code))
  pure entry.isSome

/-- `UsedCodeRegistry.remember`. -/
def remember (env : Env) (userId : Uuid) (code : String) : Act Unit :=
  ask (.cacheSet (key env userId code) "1" (some codeMemorySeconds))

end UsedCodes

/-! ### The user service -/

namespace UserService

/-- `MAX_FAILED_ATTEMPTS`. -/
def maxFailedAttempts : ℕ := 5

/-- `LOCKOUT_DURATION_MINUTES`. -/
def lockoutDurationMinutes : ℤ := 15

/-- `SESSION_EXPIRE_SECONDS`. -/
def sessionExpireSeconds : ℤ := 60 * 60 * 24 * 30

/-- `REFRESH_TOKEN_EXPIRE_SECONDS`. -/
def refreshTokenExpireSeconds : ℤ := 60 * 60 * 24 * 7

/-- `UserService.create`. -/
def create (env : Env) (userId : UserID) (username : Username) (password : PlainPassword env)
    (email : Email) (verificationToken : Option String) : Act User := do
  let usernameExists ← ask (.usernameExists username.value)
  raiseIf usernameExists (.usernameAlreadyExists (some username.value))
  if truthy email.value then do
    let emailExists ← ask (.emailExists email.value)
    raiseIf emailExists (.emailAlreadyExists email.value)
  let hashedBytes ← ask (.hashPassword password.value)
  let hashedPassword ← ofExcept (HashedPassword.make hashedBytes)
  let token ← match verificationToken with
    | some t => if t ≠ "" then pure t else (do pure (env.uuidStr (← ask .uuid4)))
    | none => do pure (env.uuidStr (← ask .uuid4))
  let at_ ← now
  let user := User.create env at_ userId username email hashedPassword token
  attempt (ask (.addUser user))
  register user.events
  pure user

/-- A refresh token for a raw value that was drawn. -/
def newRefreshToken (env : Env) (raw : String) : Act RefreshToken := do
  let expiresFrom ← now
  let id ← ask .uuid4
  let createdAt ← now
  pure
    { tokenHash := TokenHash.fromRaw env raw
      id := id
      expiresAt := expiresFrom + seconds refreshTokenExpireSeconds
      createdAt := createdAt }

/-- `UserService._build_session`. -/
def buildSession (env : Env) (user : User) (deviceInfo : DeviceInfo) :
    Act (SessionAggregate × String) := do
  let at_ ← now
  let sessionId ← ask .uuid4
  let session := SessionAggregate.create at_ sessionId user.id deviceInfo sessionExpireSeconds
  let raw ← ask .tokenUrlsafe
  let token ← newRefreshToken env raw
  pure (session.addRefreshToken token, raw)

/-- `UserService.persist_session`. -/
def persistSession (session : SessionAggregate) : Act Unit := do
  attempt (ask (.addSession session))
  register session.events

/-- `UserService.start_session`. -/
def startSession (env : Env) (user : User) (deviceInfo : DeviceInfo) :
    Act (SessionAggregate × String) := do
  let built ← buildSession env user deviceInfo
  persistSession built.1
  pure built

/-- `UserService.authenticate`, once the account is found. -/
def authenticateUser (env : Env) (password : PlainPassword env) (user : User)
    (deviceInfo : DeviceInfo) :
    Act (Option User × Option SessionAggregate × Option String) := do
  let at_ ← now
  if user.isLocked at_ then pure (some user, none, none)
  else if user.isDeleted then pure (some user, none, none)
  else if !user.verifyPassword env password then do
    let failedAt ← now
    let updatedUser ← UserRepo.update
      (user.recordFailedLoginAttempt failedAt maxFailedAttempts lockoutDurationMinutes)
    register updatedUser.events
    pure (some updatedUser, none, none)
  else do
    let user ← UserRepo.update user.recordSuccessfulLogin
    register user.events
    let built ← buildSession env user deviceInfo
    pure (some user, some built.1, some built.2)

/-- `UserService.authenticate`. -/
def authenticate (env : Env) (password : PlainPassword env) (username email : Option String)
    (deviceInfo : DeviceInfo) :
    Act (Option User × Option SessionAggregate × Option String) := do
  if !truthy username && !truthy email then pure (none, none, none)
  else do
    let user ←
      if truthy username then do
        let name ← ofExcept (Username.make (username.getD ""))
        UserRepo.acquireByUsername name
      else do
        let address ← ofExcept (Email.make email)
        UserRepo.acquireByEmail address
    match user with
    | none => pure (none, none, none)
    | some user => authenticateUser env password user deviceInfo

/-- `UserService.refresh_session`, for the token that was found. -/
def rotateSession (env : Env) (session : SessionAggregate) (presented : RefreshToken) :
    Act (SessionAggregate × User × String) := do
  let user ← UserRepo.acquireById session.userId
  match user with
  | none => raise (.invalidCredentials none)
  | some user => do
      raiseIf user.isDeleted (.invalidCredentials none)
      let at_ ← now
      raiseIf (user.isLocked at_) (.accountLocked (some user.id.value))
      let raw ← ask .tokenUrlsafe
      let token ← newRefreshToken env raw
      let refreshedAt ← now
      let refreshed := session.rotate refreshedAt presented.id token sessionExpireSeconds
      attempt (ask (.updateSession refreshed))
      register refreshed.events
      pure (refreshed, user, raw)

/-- `UserService.refresh_session`. -/
def refreshSession (env : Env) (refreshToken : String) :
    Act (SessionAggregate × User × String) := do
  let tokenHash := TokenHash.fromRaw env refreshToken
  let session ← attempt (ask (.acquireSessionByToken tokenHash.value))
  match session with
  | none => raise (.invalidCredentials none)
  | some session => do
      let at_ ← now
      raiseIf (session.isExpired at_) (.invalidCredentials none)
      match session.findRefreshToken tokenHash with
      | none => raise (.invalidCredentials none)
      | some presented => do
          let checkedAt ← now
          if !presented.isValid checkedAt then do
            let revoked := session.revoke
            attempt (ask (.updateSession revoked))
            register revoked.events
            raise .refreshTokenReuse
          else rotateSession env session presented

/-- `UserService.revoke_session`. -/
def revokeSession (sessionId : Uuid) (userId : UserID) : Act (Option SessionAggregate) := do
  let session ← attempt (ask (.acquireSession sessionId))
  match session with
  | none => pure none
  | some session =>
      if session.userId = userId then do
        let revoked := session.revoke
        attempt (ask (.updateSession revoked))
        register revoked.events
        pure (some revoked)
      else pure none

/-- The loop of `revoke_all_sessions`. -/
def updateEach : List SessionAggregate → Act Unit
  | [] => pure ()
  | s :: ss => do
      attempt (ask (.updateSession s))
      register s.events
      updateEach ss

/-- `UserService.revoke_all_sessions`. -/
def revokeAllSessions (userId : UserID) : Act (List SessionAggregate) := do
  let sessions ← attempt (ask (.acquireSessionsOf userId.value))
  let revoked := sessions.map SessionAggregate.revoke
  updateEach revoked
  pure revoked

/-- `UserService.verify_email`. -/
def verifyEmail (env : Env) (token : String) : Act User := do
  let user ← UserRepo.acquireByVerificationToken (TokenHash.fromRaw env token)
  match user with
  | none => raise (.invalidToken (some "Invalid or expired verification token"))
  | some user => do
      let at_ ← now
      raiseIf (!user.verifyEmail env at_ token)
        (.invalidToken (some "Invalid or expired verification token"))
      let verifiedAt ← now
      let verified ← UserRepo.update (user.markEmailVerified verifiedAt)
      register verified.events
      pure verified

/-- `UserService.request_password_reset`. -/
def requestPasswordReset (env : Env) (email : Email) : Act (Option User) := do
  let user ← UserRepo.acquireByEmail email
  match user with
  | none => pure none
  | some user => do
      let token ← ask .tokenUrlsafe
      let at_ ← now
      let updated ← UserRepo.update (user.requestPasswordReset env at_ token)
      register updated.events
      pure (some updated)

/-- `UserService.reset_password`. -/
def resetPassword (env : Env) (token : String) (newPassword : PlainPassword env) :
    Act User := do
  let user ← UserRepo.acquireByResetToken (TokenHash.fromRaw env token)
  match user with
  | none => raise (.invalidToken (some "Invalid or expired password reset token"))
  | some user => do
      let hashedBytes ← ask (.hashPassword newPassword.value)
      let newHashedPassword ← ofExcept (HashedPassword.make hashedBytes)
      let at_ ← now
      let reset ← ofExcept (user.resetPassword env at_ token newHashedPassword)
      let updated ← UserRepo.update reset
      register updated.events
      let _ ← revokeAllSessions user.id
      pure updated

/-- `UserService.change_password`. -/
def changePassword (env : Env) (user : User) (oldPassword newPassword : PlainPassword env) :
    Act User := do
  let hashedBytes ← ask (.hashPassword newPassword.value)
  let newHashedPassword ← ofExcept (HashedPassword.make hashedBytes)
  let changed ← ofExcept (user.changePassword env oldPassword newHashedPassword)
  let updated ← UserRepo.update changed
  register updated.events
  let _ ← revokeAllSessions user.id
  pure updated

/-- `UserService.delete_user`. -/
def deleteUser (userId : UserID) : Act User := do
  let user ← UserRepo.acquireById userId
  match user with
  | none => raise (.userNotFound (some userId.value))
  | some user =>
      if user.isDeleted then pure user
      else do
        let _ ← revokeAllSessions userId
        let at_ ← now
        let deleted ← UserRepo.update (user.delete at_)
        register deleted.events
        pure deleted

/-- `UserService.get_user_by_id`. -/
def getUserById (userId : UserID) : Act User := do
  let user ← UserRepo.acquireById userId
  match user with
  | none => raise (.userNotFound (some userId.value))
  | some user => do
      raiseIf user.isDeleted (.userIsDeleted userId.value)
      pure user

/-- The username part of `update_user`. -/
def updateUsernameOf (user updated : User) : Option Username → Act User
  | none => pure updated
  | some username =>
      if username.value ≠ user.username.value then do
        let usernameExists ← ask (.usernameExists username.value)
        raiseIf usernameExists (.usernameAlreadyExists (some username.value))
        pure (updated.updateUsername username)
      else pure updated

/-- The email part of `update_user`. -/
def updateEmailOf (env : Env) (user updated : User) : Option Email → Act User
  | none => pure updated
  | some email =>
      if email.value ≠ user.email.value then do
        let emailExists ← ask (.emailExists email.value)
        raiseIf emailExists (.emailAlreadyExists email.value)
        let drawn ← ask (.tokenHexes 1)
        let at_ ← now
        pure (updated.updateEmail env at_ email (drawn.headD ""))
      else pure updated

/-- `UserService.update_user`. -/
def updateUser (env : Env) (user : User) (username : Option Username)
    (email : Option Email) : Act User := do
  raiseIf user.isDeleted (.userIsDeleted user.id.value)
  let updated ← updateUsernameOf user user username
  let updated ← updateEmailOf env user updated email
  let updated ← UserRepo.update updated
  register updated.events
  pure updated

end UserService

end BackendTemplate
