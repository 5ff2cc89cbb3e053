import BackendTemplate.Values

/-!
# The User Aggregate

The account and its parts as the domain layer computes them: the lock record, the
verification and reset tokens, the two-factor enrolment, and the transitions of `User`.
Aggregates are immutable; a transition builds a new one (`_with`), which keeps the id,
the version and the events recorded so far.

The source reads the wall clock and draws random tokens inside these functions. Here the
instant and the drawn token are arguments, so every function is a plain one; the callers
(`BackendTemplate.UserService`) obtain them by calls of their own.
-/

namespace BackendTemplate

/-! ### Domain events -/

/-- The domain events of the user and session aggregates. -/
inductive Event
  | userCreated (userId : Uuid) (username : String) (email : Option String)
  | userAuthenticated (userId : Uuid) (username : String)
  | userProfileUpdated (userId : Uuid) (updatedFields : List String)
  | userDeleted (userId : Uuid)
  | sessionCreated (sessionId userId : Uuid) (userAgent ipAddress deviceName : Option String)
  | sessionRevoked (sessionId userId : Uuid)
  | tokenRefreshed (sessionId userId : Uuid)
  | accountLocked (userId : Uuid) (reason : String) (lockedUntil : Option Instant)
  | accountUnlocked (userId : Uuid)
  | passwordResetRequested (userId : Uuid) (email resetToken : String)
  | passwordResetCompleted (userId : Uuid)
  | passwordChanged (userId : Uuid)
  | emailVerificationRequested (userId : Uuid) (email verificationToken : String)
  | emailVerified (userId : Uuid) (email : String)
  | twoFactorEnabled (userId : Uuid) (codesIssued : ℕ)
  | twoFactorDisabled (userId : Uuid)
deriving DecidableEq

/-! ### The lock record -/

/-- `AccountLockInfo`. -/
structure AccountLockInfo where
  isLocked : Bool := false
  lockedAt : Option Instant := none
  lockReason : Option String := none
  failedAttempts : ℕ := 0
  lockUntil : Option Instant := none
deriving DecidableEq

namespace AccountLockInfo

/-- `AccountLockInfo.create`. -/
def create : AccountLockInfo := {}

/-- `AccountLockInfo.create_locked`. -/
def createLocked (now : Instant) (reason : String) (until_ : Option Instant := none) :
    AccountLockInfo where
  isLocked := true
  lockedAt := some now
  lockReason := some reason
  lockUntil := until_

/-- `AccountLockInfo._lock_window_elapsed`: a lock without an end never elapses. -/
def lockWindowElapsed (l : AccountLockInfo) (now : Instant) : Bool :=
  l.isLocked && match l.lockUntil with
    | none => false
    | some t => decide (t ≤ now)

/-- `AccountLockInfo.is_locked_out`. -/
def isLockedOut (l : AccountLockInfo) (now : Instant) : Bool :=
  l.isLocked && !l.lockWindowElapsed now

/-- `AccountLockInfo.record_failed_attempt`. -/
def recordFailedAttempt (l : AccountLockInfo) (now : Instant) (maxAttempts : ℕ := 5)
    (lockoutDurationMinutes : ℤ := 15) : AccountLockInfo :=
  let baseAttempts := if l.lockWindowElapsed now then 0 else l.failedAttempts
  let newFailedAttempts := baseAttempts + 1
  let isLocked := decide (maxAttempts ≤ newFailedAttempts)
  { isLocked := isLocked
    lockedAt := l.lockedAt
    lockReason := l.lockReason
    failedAttempts := newFailedAttempts
    lockUntil := if isLocked then some (now + minutes lockoutDurationMinutes) else none }

/-- `AccountLockInfo.record_successful_login`. -/
def recordSuccessfulLogin (_ : AccountLockInfo) : AccountLockInfo := {}

/-- `AccountLockInfo.unlock`: `locked_at` stays. -/
def unlock (l : AccountLockInfo) : AccountLockInfo :=
  { l with isLocked := false, lockReason := none, failedAttempts := 0, lockUntil := none }

end AccountLockInfo

/-! ### Verification, reset and two-factor records -/

/-- `EmailVerification`. -/
structure EmailVerification where
  isVerified : Bool := false
  tokenHash : Option TokenHash := none
  verifiedAt : Option Instant := none
  expiresAt : Option Instant := none
deriving DecidableEq

namespace EmailVerification

/-- `EmailVerification.create_unverified`. -/
def createUnverified (env : Env) (now : Instant) (token : String)
    (expiresInHours : ℤ := 24) : EmailVerification where
  isVerified := false
  tokenHash := some (TokenHash.fromRaw env token)
  verifiedAt := none
  expiresAt := some (now + hours expiresInHours)

/-- `EmailVerification.verify`. -/
def verify (env : Env) (v : EmailVerification) (now : Instant) (token : String) : Bool :=
  if v.isVerified then true
  else match v.tokenHash with
    | none => false
    | some th =>
        if th.value ≠ (TokenHash.fromRaw env token).value then false
        else !(match v.expiresAt with
          | none => false
          | some t => decide (t ≤ now))

/-- `EmailVerification.mark_verified`. -/
def markVerified (_ : EmailVerification) (now : Instant) : EmailVerification where
  isVerified := true
  tokenHash := none
  verifiedAt := some now
  expiresAt := none

end EmailVerification

/-- `PasswordResetToken`. -/
structure PasswordResetToken where
  tokenHash : TokenHash
  createdAt : Option Instant := none
  expiresAt : Option Instant := none
  isUsed : Bool := false
deriving DecidableEq

namespace PasswordResetToken

/-- `PasswordResetToken.create`. -/
def create (env : Env) (now : Instant) (token : String) (expiresInHours : ℤ := 1) :
    PasswordResetToken where
  tokenHash := TokenHash.fromRaw env token
  createdAt := some now
  expiresAt := some (now + hours expiresInHours)
  isUsed := false

/-- `PasswordResetToken.is_valid`. -/
def isValid (t : PasswordResetToken) (now : Instant) : Bool :=
  !t.isUsed && match t.expiresAt with
    | none => false
    | some e => decide (now < e)

/-- `PasswordResetToken.matches`. -/
def matches_ (env : Env) (t : PasswordResetToken) (token : String) : Bool :=
  t.tokenHash.value = (TokenHash.fromRaw env token).value

/-- `PasswordResetToken.mark_used`. -/
def markUsed (t : PasswordResetToken) : PasswordResetToken := { t with isUsed := true }

end PasswordResetToken

/-- `TwoFactorSecret`. -/
structure TwoFactorSecret where
  secret : String := ""
  backupCodeHashes : List TokenHash := []
  enabledAt : Option Instant := none
deriving DecidableEq

/-- `BACKUP_CODE_COUNT`. -/
def backupCodeCount : ℕ := 10

namespace TwoFactorSecret

/-- `TwoFactorSecret.create`, given the codes that were drawn. -/
def create (env : Env) (secret : String) (codes : List String) : TwoFactorSecret where
  secret := secret
  backupCodeHashes := codes.map (TokenHash.fromRaw env)
  enabledAt := none

/-- `TwoFactorSecret.enable`. -/
def enable (s : TwoFactorSecret) (now : Instant) : TwoFactorSecret :=
  { s with enabledAt := some now }

/-- `TwoFactorSecret.consume_backup_code`. -/
def consumeBackupCode (env : Env) (s : TwoFactorSecret) (code : String) :
    Option TwoFactorSecret :=
  let candidate := TokenHash.fromRaw env code
  match s.backupCodeHashes.find? fun stored => stored.value = candidate.value with
  | some stored =>
      some { s with backupCodeHashes := s.backupCodeHashes.filter fun held => held ≠ stored }
  | none => none

/-- `TwoFactorSecret.remaining_backup_codes`. -/
def remainingBackupCodes (s : TwoFactorSecret) : ℕ := s.backupCodeHashes.length

end TwoFactorSecret

/-- The time step of a one-time password: `pyotp.TOTP.timecode` with its 30 s interval. -/
def timecode (now : Instant) : ℤ := now / seconds 30

/-- `TwoFactorAuth.verify_code`: `pyotp.TOTP(secret).verify(code, valid_window=1)`, which
compares NFKC-normalised strings against the previous, current and next value. -/
def verifyCode (env : Env) (now : Instant) (secret code : String) : Bool :=
  [-1, 0, 1].any fun i => env.nfkc code = env.nfkc (env.totp secret (timecode now + i))

/-! ### The aggregate -/

/-- `User`. The events are those recorded and not yet pulled. -/
structure User where
  id : UserID
  username : Username
  email : Email
  hashedPassword : HashedPassword
  deletedAt : Option Instant := none
  accountLock : AccountLockInfo := AccountLockInfo.create
  emailVerification : EmailVerification
  passwordResetToken : Option PasswordResetToken := none
  twoFactorSecret : Option TwoFactorSecret := none
  version : ℕ := 0
  events : List Event := []
deriving DecidableEq

namespace User

/-- `_record_event`. -/
def recordEvent (u : User) (e : Event) : User := { u with events := u.events ++ [e] }

/-- `User.create`. -/
def create (env : Env) (now : Instant) (userId : UserID) (username : Username)
    (email : Email) (hashedPassword : HashedPassword) (verificationToken : String) : User :=
  let user : User :=
    { id := userId
      username := username
      email := email
      hashedPassword := hashedPassword
      emailVerification := EmailVerification.createUnverified env now verificationToken }
  (user.recordEvent (.userCreated userId.value username.value email.value)).recordEvent
    (.emailVerificationRequested userId.value (email.value.getD "") verificationToken)

/-- `User.is_deleted`. -/
def isDeleted (u : User) : Bool := u.deletedAt.isSome

/-- `User.is_locked`. -/
def isLocked (u : User) (now : Instant) : Bool := u.accountLock.isLockedOut now

/-- `User.has_two_factor`. -/
def hasTwoFactor (u : User) : Bool :=
  match u.twoFactorSecret with
  | none => false
  | some s => s.enabledAt.isSome

/-- `User.verify_password`. -/
def verifyPassword (env : Env) (u : User) (plain : PlainPassword env) : Bool :=
  env.checkpw plain.value u.hashedPassword.value

/-- `User.verify_two_factor`: a matched backup code is consumed. -/
def verifyTwoFactor (env : Env) (now : Instant) (u : User) (code : String) : Bool × User :=
  match u.twoFactorSecret with
  | none => (false, u)
  | some s =>
      if s.enabledAt.isNone then (false, u)
      else if verifyCode env now s.secret code then (true, u)
      else match s.consumeBackupCode env code with
        | some consumed => (true, { u with twoFactorSecret := some consumed })
        | none => (false, u)

/-- Evaluating a code changes at most the second factor. -/
theorem verifyTwoFactor_eq (env : Env) (u : User) (now : Instant) (code : String) :
    ∃ s, (u.verifyTwoFactor env now code).2 = { u with twoFactorSecret := s } := by
  rw [verifyTwoFactor]
  split
  · exact ⟨_, rfl⟩
  · split
    · exact ⟨_, rfl⟩
    · split
      · exact ⟨_, rfl⟩
      · split
        · exact ⟨_, rfl⟩
        · exact ⟨_, rfl⟩

/-- `User.record_failed_login_attempt`. -/
def recordFailedLoginAttempt (u : User) (now : Instant) (maxAttempts : ℕ := 5)
    (lockoutDurationMinutes : ℤ := 15) : User :=
  let newLockInfo := u.accountLock.recordFailedAttempt now maxAttempts lockoutDurationMinutes
  let newUser := { u with accountLock := newLockInfo }
  if newLockInfo.isLocked && !u.accountLock.isLocked then
    newUser.recordEvent
      (.accountLocked u.id.value "Too many failed login attempts" newLockInfo.lockUntil)
  else newUser

/-- `User.record_successful_login`. -/
def recordSuccessfulLogin (u : User) : User :=
  { u with accountLock := u.accountLock.recordSuccessfulLogin }.recordEvent
    (.userAuthenticated u.id.value u.username.value)

/-- `User.unlock`. -/
def unlock (u : User) : User :=
  { u with accountLock := u.accountLock.unlock }.recordEvent (.accountUnlocked u.id.value)

/-- `User.lock`. -/
def lock (u : User) (now : Instant) (reason : String) : User :=
  { u with accountLock := AccountLockInfo.createLocked now reason }.recordEvent
    (.accountLocked u.id.value reason none)

/-- `User.verify_email`. -/
def verifyEmail (env : Env) (u : User) (now : Instant) (token : String) : Bool :=
  u.emailVerification.verify env now token

/-- `User.mark_email_verified`. -/
def markEmailVerified (u : User) (now : Instant) : User :=
  { u with emailVerification := u.emailVerification.markVerified now }.recordEvent
    (.emailVerified u.id.value (u.email.value.getD ""))

/-- `User.request_password_reset`, given the token that was drawn. -/
def requestPasswordReset (env : Env) (u : User) (now : Instant) (token : String)
    (expiresInHours : ℤ := 1) : User :=
  { u with passwordResetToken := some (.create env now token expiresInHours) }.recordEvent
    (.passwordResetRequested u.id.value (u.email.value.getD "") token)

/-- `User.reset_password`. -/
def resetPassword (env : Env) (u : User) (now : Instant) (token : String)
    (newHashedPassword : HashedPassword) : Except AppError User :=
  match u.passwordResetToken with
  | none => .error (.invalidToken (some "Invalid or expired password reset token"))
  | some t =>
      if !t.isValid now then
        .error (.invalidToken (some "Invalid or expired password reset token"))
      else if !t.matches_ env token then
        .error (.invalidToken (some "Invalid password reset token"))
      else
        .ok ({ u with
          hashedPassword := newHashedPassword
          accountLock := u.accountLock.unlock
          passwordResetToken := some t.markUsed }.recordEvent
            (.passwordResetCompleted u.id.value))

/-- `User.begin_two_factor_enrolment`, given the seed and the codes that were drawn. -/
def beginTwoFactorEnrolment (env : Env) (u : User) (secret : String)
    (codes : List String) : User :=
  { u with twoFactorSecret := some (.create env secret codes) }

/-- `User.confirm_two_factor`. -/
def confirmTwoFactor (env : Env) (u : User) (now : Instant) (code : String) :
    Except AppError User :=
  match u.twoFactorSecret with
  | none => .error .twoFactorNotEnrolled
  | some s =>
      if s.enabledAt.isSome then .error .twoFactorAlreadyEnabled
      else if !verifyCode env now s.secret code then
        .error (.invalidCredentials (some "Invalid two-factor code"))
      else
        .ok ({ u with twoFactorSecret := some (s.enable now) }.recordEvent
          (.twoFactorEnabled u.id.value s.remainingBackupCodes))

/-- `User.disable_two_factor`. -/
def disableTwoFactor (u : User) : User :=
  { u with twoFactorSecret := none }.recordEvent (.twoFactorDisabled u.id.value)

/-- `User.update_username`. -/
def updateUsername (u : User) (newUsername : Username) : User :=
  if newUsername.value ≠ u.username.value then
    { u with username := newUsername }.recordEvent
      (.userProfileUpdated u.id.value ["username"])
  else u

/-- `User.update_email`, given the token that was drawn. -/
def updateEmail (env : Env) (u : User) (now : Instant) (newEmail : Email)
    (token : String) : User :=
  if newEmail.value ≠ u.email.value then
    ({ u with
      email := newEmail
      emailVerification := EmailVerification.createUnverified env now token }.recordEvent
        (.userProfileUpdated u.id.value ["email"])).recordEvent
        (.emailVerificationRequested u.id.value (newEmail.value.getD "") token)
  else u

/-- `User.delete`. -/
def delete (u : User) (now : Instant) : User :=
  if !u.isDeleted then
    { u with deletedAt := some now }.recordEvent (.userDeleted u.id.value)
  else u

/-- `User.change_password`. -/
def changePassword (env : Env) (u : User) (oldPassword : PlainPassword env)
    (newPassword : HashedPassword) : Except AppError User :=
  if !u.verifyPassword env oldPassword then
    .error (.invalidCredentials (some "Invalid current password"))
  else
    .ok ({ u with
      hashedPassword := newPassword
      accountLock := u.accountLock.unlock
      passwordResetToken := none }.recordEvent (.passwordChanged u.id.value))

end User

end BackendTemplate
