import BackendTemplate.UserService

/-!
# The Use Cases

One program per use case of `application/user/commands`, and the `Request` type that
names them with their inputs. `program env r` is what the service runs for request `r`.
Every request runs in its own database transaction, and what it has not committed when it
ends is gone.

The metrics calls of the source have no effect on the rest of the service and are left out.
-/

namespace BackendTemplate

open Atomic Atomic.Prog

/-! ### Inputs and outputs -/

/-- `LoginInput`. -/
structure LoginInput where
  password : String
  username : Option String := none
  email : Option String := none
  userAgent : Option String := none
  ipAddress : Option String := none
  loginChallenge : Option String := none

/-- `LoginOutput`: a usable session, or a challenge token and nothing else. -/
structure LoginOutput where
  userId : Uuid
  sessionId : Option String := none
  refreshToken : Option String := none
  requiresTwoFactor : Bool := false
  challengeToken : Option String := none
deriving DecidableEq

/-- `CompleteTwoFactorOutput`. -/
structure CompleteTwoFactorOutput where
  userId : Uuid
  sessionId : String
  refreshToken : String
  loginChallenge : Option String := none
deriving DecidableEq

/-- `RefreshTokenOutput`. -/
structure RefreshTokenOutput where
  userId : Uuid
  sessionId : String
  expiresAt : String
  refreshToken : String
deriving DecidableEq

/-- `Enable2FAOutput`. -/
structure Enable2FAOutput where
  secret : String
  backupCodes : List String
  provisioningUri : String
deriving DecidableEq

/-- `UpdateProfileOutput`. -/
structure UpdateProfileOutput where
  username : String
  isEmailVerified : Bool
  isLocked : Bool
  hasTwoFactor : Bool
  email : Option String := none
deriving DecidableEq

/-- The requests of the service. -/
inductive Request
  | createUser (username password : String) (email ipAddress : Option String)
  | login (data : LoginInput)
  | completeTwoFactor (challengeToken code : String)
  | refreshToken (refreshToken : String)
  | enable2FA (userId : Uuid)
  | confirm2FA (userId : Uuid) (code : String)
  | disable2FA (userId : Uuid) (currentPassword : String)
  | verify2FA (userId : Uuid) (code : String)
  | revokeSession (userId : Uuid) (sessionId : String)
  | revokeAllSessions (userId : Uuid)
  | changePassword (userId : Uuid) (oldPassword newPassword : String)
  | requestPasswordReset (email : String) (ipAddress : Option String)
  | resetPassword (token newPassword : String) (ipAddress : Option String)
  | deleteMe (userId : Uuid)
  | verifyEmail (token : String)
  | updateProfile (userId : Uuid) (username email : Option String)

/-- What a request returns. -/
inductive Response
  | created (userId : Uuid)
  | loggedIn (out : LoginOutput)
  | completed (out : CompleteTwoFactorOutput)
  | refreshed (out : RefreshTokenOutput)
  | enrolled (out : Enable2FAOutput)
  | verified (success : Bool)
  | updated (out : UpdateProfileOutput)
  | success
  | nothing
deriving DecidableEq

/-! ### Signing in -/

/-- `_attempt_key`: the bucket a failed login counts against. -/
def attemptKey (env : Env) (data : LoginInput) : Option String :=
  let identifier := if truthy data.username then data.username else data.email
  if !truthy data.ipAddress || !truthy identifier then none
  else some (data.ipAddress.getD "" ++ "|" ++ env.lower (identifier.getD ""))

/-- Refuse a request the rate limiter does not allow. -/
def checkRateLimit (key : String) : Act Unit := do
  let limit ← ask (.rateLimit key)
  if limit.allowed then pure ()
  else do
    let at_ ← now
    raise (.tooManyLoginAttempts (limit.retryAfterSeconds at_))

/-- The limiters in front of a login. -/
def checkLoginLimits : Option String → Act Unit
  | none => pure ()
  | some key => do
      checkRateLimit ("login:" ++ key)
      let locked ← ask (.loginIsLocked key)
      raiseIf locked (.tooManyLoginAttempts none)

/-- `record_failed_login`, when there is a bucket to count against. -/
def recordFailedLogin : Option String → Act Unit
  | none => pure ()
  | some key => do
      let _ ← ask (.recordFailedLogin key)
      pure ()

/-- `reset`, when there is a bucket to count against. -/
def resetLoginAttempts : Option String → Act Unit
  | none => pure ()
  | some key => ask (.resetLoginAttempts key)

/-- The end of `LoginUseCase` when the password check gave no session. -/
def refuseLogin (user : User) : Act Response := do
  commit
  let at_ ← now
  raiseIf (user.isLocked at_) (.accountLocked (some user.id.value))
  raise (.invalidCredentials none)

/-- The end of `LoginUseCase` when the account has a second factor. -/
def challengeLogin (env : Env) (data : LoginInput) (user : User) (deviceInfo : DeviceInfo) :
    Act Response := do
  commit
  let token ← ChallengeStore.issue env
    { userId := user.id.value
      deviceInfo := deviceInfo
      loginChallenge := data.loginChallenge }
  pure (.loggedIn
    { userId := user.id.value, requiresTwoFactor := true, challengeToken := some token })

/-- The end of `LoginUseCase` when the password is all the account asks for. -/
def grantLogin (env : Env) (user : User) (session : SessionAggregate)
    (refreshToken : Option String) : Act Response := do
  UserService.persistSession session
  commit
  pure (.loggedIn
    { userId := user.id.value
      sessionId := some (env.uuidStr session.sessionId)
      refreshToken := refreshToken })

/-- `LoginUseCase`. -/
def login (env : Env) (data : LoginInput) : Act Response := do
  let key := attemptKey env data
  checkLoginLimits key
  let deviceInfo : DeviceInfo := { userAgent := data.userAgent, ipAddress := data.ipAddress }
  let password ← ofExcept (PlainPassword.make env data.password)
  let result ← UserService.authenticate env password data.username data.email deviceInfo
  match result with
  | (none, _, _) => do
      recordFailedLogin key
      raise (.invalidCredentials none)
  | (some user, none, _) => do
      recordFailedLogin key
      refuseLogin user
  | (some user, some session, refreshToken) => do
      resetLoginAttempts key
      if user.hasTwoFactor then challengeLogin env data user deviceInfo
      else grantLogin env user session refreshToken

/-- Write back a user that consumed a recovery code. -/
def persistConsumed (user updated : User) : Act User :=
  if updated ≠ user then do
    let updated ← UserRepo.update updated
    register updated.events
    pure updated
  else pure updated

/-- The end of `CompleteTwoFactorUseCase`, once the code is accepted. -/
def grantTwoFactor (env : Env) (challengeToken code : String) (challenge : TwoFactorChallenge)
    (user updated : User) : Act Response := do
  let updated ← persistConsumed user updated
  UsedCodes.remember env challenge.userId code
  ChallengeStore.discard challengeToken
  let started ← UserService.startSession env updated challenge.deviceInfo
  commit
  pure (.completed
    { userId := updated.id.value
      sessionId := env.uuidStr started.1.sessionId
      refreshToken := started.2
      loginChallenge := challenge.loginChallenge })

/-- Count a failed attempt against the challenge and refuse. -/
def refuseTwoFactor (env : Env) (challengeToken : String) (challenge : TwoFactorChallenge) :
    Act Response := do
  ChallengeStore.recordFailure env challengeToken challenge
  raise .twoFactorChallengeExpired

/-- `CompleteTwoFactorUseCase`, once the account is found usable. -/
def checkTwoFactor (env : Env) (challengeToken code : String) (challenge : TwoFactorChallenge)
    (user : User) : Act Response := do
  let used ← UsedCodes.wasUsed env challenge.userId code
  if used then refuseTwoFactor env challengeToken challenge
  else do
    let result ← ask (.verifyTwoFactor user code)
    if !result.1 then refuseTwoFactor env challengeToken challenge
    else grantTwoFactor env challengeToken code challenge user result.2

/-- Drop a challenge whose account cannot sign in. -/
def dropChallenge (challengeToken : String) : Act Response := do
  ChallengeStore.discard challengeToken
  raise .twoFactorChallengeExpired

/-- `CompleteTwoFactorUseCase`. -/
def completeTwoFactor (env : Env) (challengeToken code : String) : Act Response := do
  let challenge ← ChallengeStore.read env challengeToken
  let userId ← ofExcept (UserID.make challenge.userId)
  let user ← UserRepo.acquireById userId
  match user with
  | none => dropChallenge challengeToken
  | some user =>
      if user.isDeleted then dropChallenge challengeToken
      else do
        let at_ ← now
        if user.isLocked at_ then dropChallenge challengeToken
        else checkTwoFactor env challengeToken code challenge user

/-- `RefreshTokenUseCase`. -/
def refreshToken (env : Env) (token : String) : Act Response := do
  let (session, user, raw) ← UserService.refreshSession env token
  commit
  pure (.refreshed
    { userId := user.id.value
      sessionId := env.uuidStr session.sessionId
      expiresAt := env.isoformat session.expiresAt
      refreshToken := raw })

/-! ### The second factor -/

/-- `Enable2FAUseCase`. -/
def enable2FA (env : Env) (userId : Uuid) : Act Response := do
  let id ← ofExcept (UserID.make userId)
  let user ← UserService.getUserById id
  raiseIf user.hasTwoFactor .twoFactorAlreadyEnabled
  let secret ← ask .randomBase32
  let codes ← ask (.tokenHexes backupCodeCount)
  let pending := user.beginTwoFactorEnrolment env secret codes
  let _ ← UserService.updateUser env pending none none
  commit
  match pending.twoFactorSecret with
  | none => raise .twoFactorNotEnrolled
  | some held =>
      pure (.enrolled
        { secret := held.secret
          backupCodes := codes
          provisioningUri :=
            env.provisioningUri held.secret user.username.value "BackendTemplate" })

/-- `Confirm2FAUseCase`. -/
def confirm2FA (env : Env) (userId : Uuid) (code : String) : Act Response := do
  let id ← ofExcept (UserID.make userId)
  let user ← UserService.getUserById id
  let at_ ← now
  let confirmed ← ofExcept (user.confirmTwoFactor env at_ code)
  let _ ← UserService.updateUser env confirmed none none
  commit
  pure .nothing

/-- `Disable2FAUseCase`. -/
def disable2FA (env : Env) (userId : Uuid) (currentPassword : String) : Act Response := do
  let id ← ofExcept (UserID.make userId)
  let user ← UserService.getUserById id
  let password ← ofExcept (PlainPassword.make env currentPassword)
  raiseIf (!user.verifyPassword env password)
    (.invalidCredentials (some "Invalid current password"))
  let _ ← UserService.updateUser env user.disableTwoFactor none none
  commit
  pure .nothing

/-- `Verify2FAUseCase`. The consumed aggregate is not registered with the unit of work. -/
def verify2FA (userId : Uuid) (code : String) : Act Response := do
  let id ← ofExcept (UserID.make userId)
  let user ← UserRepo.acquireById id
  match user with
  | none => pure (.verified false)
  | some user => do
      let result ← ask (.verifyTwoFactor user code)
      if result.2 ≠ user then do
        let _ ← UserRepo.update result.2
        commit
        pure (.verified result.1)
      else pure (.verified result.1)

/-! ### Sessions -/

/-- `RevokeSessionUseCase`. -/
def revokeSession (env : Env) (userId : Uuid) (sessionId : String) : Act Response := do
  let sid ← match env.parseUuid sessionId with
    | some sid => pure sid
    | none => raise (.valueError "badly formed hexadecimal UUID string")
  let id ← ofExcept (UserID.make userId)
  let session ← UserService.revokeSession sid id
  match session with
  | none => pure .nothing
  | some _ => do
      commit
      pure .nothing

/-- `RevokeAllSessionsUseCase`. -/
def revokeAllSessions (env : Env) (userId : Uuid) : Act Response := do
  let id ← ofExcept (UserID.make userId)
  let _ ← UserService.revokeAllSessions id
  commit
  let subject := env.uuidStr userId
  ask (.revokeConsentSessions subject)
  ask (.revokeLoginSessions subject)
  pure .nothing

/-! ### Accounts -/

/-- The rate limit of an unauthenticated endpoint, when the client address is known. -/
def checkAddressLimit (endpoint : String) (ipAddress : Option String) : Act Unit :=
  if truthy ipAddress then checkRateLimit (endpoint ++ ":" ++ ipAddress.getD "") else pure ()

/-- `CreateUserUseCase`. -/
def createUser (env : Env) (username password : String) (email ipAddress : Option String) :
    Act Response := do
  checkAddressLimit "register" ipAddress
  let drawn ← ask .uuid4
  let userId ← ofExcept (UserID.make drawn)
  let username ← ofExcept (Username.make username)
  let email ← ofExcept (Email.make (if truthy email then email else none))
  let password ← ofExcept (PlainPassword.make env password)
  let user ← UserService.create env userId username password email none
  commit
  pure (.created user.id.value)

/-- `ChangePasswordUseCase`. -/
def changePassword (env : Env) (userId : Uuid) (oldPassword newPassword : String) :
    Act Response := do
  let id ← ofExcept (UserID.make userId)
  let user ← UserService.getUserById id
  let oldPassword ← ofExcept (PlainPassword.make env oldPassword)
  let newPassword ← ofExcept (PlainPassword.make env newPassword)
  let _ ← UserService.changePassword env user oldPassword newPassword
  commit
  pure .success

/-- `RequestPasswordResetUseCase`. -/
def requestPasswordReset (env : Env) (email : String) (ipAddress : Option String) :
    Act Response := do
  checkAddressLimit "password-reset-request" ipAddress
  let email ← ofExcept (Email.make (some email))
  let _ ← UserService.requestPasswordReset env email
  commit
  pure .success

/-- `ResetPasswordUseCase`. -/
def resetPassword (env : Env) (token newPassword : String) (ipAddress : Option String) :
    Act Response := do
  checkAddressLimit "password-reset-confirm" ipAddress
  let newPassword ← ofExcept (PlainPassword.make env newPassword)
  let _ ← UserService.resetPassword env token newPassword
  commit
  pure .success

/-- `DeleteMeUseCase`. -/
def deleteMe (userId : Uuid) : Act Response := do
  let id ← ofExcept (UserID.make userId)
  let _ ← UserService.deleteUser id
  commit
  pure .nothing

/-- `VerifyEmailUseCase`. -/
def verifyEmail (env : Env) (token : String) : Act Response := do
  let _ ← UserService.verifyEmail env token
  commit
  pure .success

/-- An optional field of a profile: absent and empty both mean "leave it". -/
def profileField {α : Type} (make : String → Except AppError α) (s : Option String) :
    Act (Option α) :=
  if truthy s then do
    let v ← ofExcept (make (s.getD ""))
    pure (some v)
  else pure none

/-- `UpdateProfileUseCase`. -/
def updateProfile (env : Env) (userId : Uuid) (username email : Option String) :
    Act Response := do
  let id ← ofExcept (UserID.make userId)
  let user ← UserService.getUserById id
  let username ← profileField Username.make username
  let email ← profileField (fun s => Email.make (some s)) email
  let updated ← UserService.updateUser env user username email
  commit
  let at_ ← now
  pure (.updated
    { username := updated.username.value
      email := updated.email.value
      isEmailVerified := updated.emailVerification.isVerified
      isLocked := updated.isLocked at_
      hasTwoFactor := updated.hasTwoFactor })

/-- **The program of a request.** -/
def program (env : Env) : Request → Act Response
  | .createUser username password email ipAddress =>
      createUser env username password email ipAddress
  | .login data => login env data
  | .completeTwoFactor token code => completeTwoFactor env token code
  | .refreshToken token => refreshToken env token
  | .enable2FA userId => enable2FA env userId
  | .confirm2FA userId code => confirm2FA env userId code
  | .disable2FA userId currentPassword => disable2FA env userId currentPassword
  | .verify2FA userId code => verify2FA userId code
  | .revokeSession userId sessionId => revokeSession env userId sessionId
  | .revokeAllSessions userId => revokeAllSessions env userId
  | .changePassword userId oldPassword newPassword =>
      changePassword env userId oldPassword newPassword
  | .requestPasswordReset email ipAddress => requestPasswordReset env email ipAddress
  | .resetPassword token newPassword ipAddress => resetPassword env token newPassword ipAddress
  | .deleteMe userId => deleteMe userId
  | .verifyEmail token => verifyEmail env token
  | .updateProfile userId username email => updateProfile env userId username email

end BackendTemplate
