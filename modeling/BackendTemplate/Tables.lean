import BackendTemplate.Session

/-!
# The Tables and Their Row Mappings

The `users`, `sessions`, `refresh_tokens`, `outbox_events` and `audit_logs` tables as lists
of rows, the hand-written mappings between rows and aggregates, and the effect of each
statement the repositories execute.

A list order stands for whatever order the database returns rows in; every lookup that
takes the first row is by a unique column. The mappings fail where a value object refuses
the stored value or the cipher refuses the ciphertext, as in the source.
-/

namespace BackendTemplate

/-! ### Rows -/

/-- `_UserRow`. -/
structure UserRow where
  id : Uuid
  version : ℕ
  username : String
  email : Option String
  hashedPassword : Bytes
  deletedAt : Option Instant
  isLocked : Bool
  lockedAt : Option Instant
  lockReason : Option String
  failedAttempts : ℕ
  lockUntil : Option Instant
  isEmailVerified : Bool
  emailVerificationTokenHash : Option Bytes
  emailVerifiedAt : Option Instant
  emailVerificationExpiresAt : Option Instant
  passwordResetTokenHash : Option Bytes
  passwordResetCreatedAt : Option Instant
  passwordResetExpiresAt : Option Instant
  passwordResetUsed : Bool
  twoFactorSecret : Option Bytes
  twoFactorEnabledAt : Option Instant
  twoFactorBackupCodes : Option (List String)
deriving DecidableEq

/-- `_SessionRow`. -/
structure SessionRow where
  sessionId : Uuid
  userId : Uuid
  userAgent : Option String
  ipAddress : Option String
  deviceName : Option String
  browser : Option String
  os : Option String
  isMobile : Bool
  createdAt : Instant
  expiresAt : Instant
  isRevoked : Bool
deriving DecidableEq

/-- `_RefreshTokenRow`. -/
structure RefreshTokenRow where
  id : Uuid
  sessionId : Uuid
  tokenHash : Bytes
  expiresAt : Instant
  isRevoked : Bool
  createdAt : Instant
deriving DecidableEq

/-- An `OutboxEvent` row as `_persist_outbox_event` writes it. Its aggregate, type, payload
and sensitive keys are functions of the event. -/
structure OutboxRow where
  id : Uuid
  event : Event
  createdAt : Instant
deriving DecidableEq

/-- An `audit_logs` row as `AuditLog.create` fills it. -/
structure AuditRow where
  id : Uuid
  userId : Option Uuid
  action : String
  entityType : String
  entityId : Option Uuid
  timestamp : Instant
  success : Bool
deriving DecidableEq

/-! ### Users -/

/-- An optional column mapped by a constructor that raises. A column is read as absent
when it is `NULL` or empty, which is what Python's truth test does. -/
def hashColumn : Option Bytes → Except AppError (Option TokenHash)
  | none => .ok none
  | some [] => .ok none
  | some (b :: bs) => (TokenHash.make (b :: bs)).map some

/-- The stored recovery codes: `TokenHash(bytes.fromhex(code))` for each. -/
def backupCodesColumn : List String → Except AppError (List TokenHash)
  | [] => .ok []
  | code :: codes => do
      let b ← match fromHex code with
        | some b => .ok b
        | none => .error (.valueError "non-hexadecimal number found in fromhex() arg")
      let h ← TokenHash.make b
      let hs ← backupCodesColumn codes
      .ok (h :: hs)

/-- The two-factor columns of a row. -/
def twoFactorColumn (env : Env) (row : UserRow) : Except AppError (Option TwoFactorSecret) :=
  match row.twoFactorSecret with
  | none => .ok none
  | some [] => .ok none
  | some (b :: bs) => do
      let secret ← match env.decrypt (b :: bs) with
        | some s => .ok s
        | none => .error .secretDecryption
      let hashes ← backupCodesColumn (row.twoFactorBackupCodes.getD [])
      .ok (some
        { secret := secret
          backupCodeHashes := hashes
          enabledAt := row.twoFactorEnabledAt })

/-- The password-reset columns of a row. -/
def passwordResetColumn (row : UserRow) : Except AppError (Option PasswordResetToken) := do
  let h ← hashColumn row.passwordResetTokenHash
  .ok (h.map fun h =>
    { tokenHash := h
      createdAt := row.passwordResetCreatedAt
      expiresAt := row.passwordResetExpiresAt
      isUsed := row.passwordResetUsed })

/-- `_row_to_user`. -/
def rowToUser (env : Env) (row : UserRow) : Except AppError User := do
  let passwordResetToken ← passwordResetColumn row
  let twoFactorSecret ← twoFactorColumn env row
  let id ← UserID.make row.id
  let username ← Username.make row.username
  let email ← Email.make row.email
  let hashedPassword ← HashedPassword.make row.hashedPassword
  let tokenHash ← hashColumn row.emailVerificationTokenHash
  .ok
    { id := id
      username := username
      email := email
      hashedPassword := hashedPassword
      deletedAt := row.deletedAt
      accountLock :=
        { isLocked := row.isLocked
          lockedAt := row.lockedAt
          lockReason := row.lockReason
          failedAttempts := row.failedAttempts
          lockUntil := row.lockUntil }
      emailVerification :=
        { isVerified := row.isEmailVerified
          tokenHash := tokenHash
          verifiedAt := row.emailVerifiedAt
          expiresAt := row.emailVerificationExpiresAt }
      passwordResetToken := passwordResetToken
      twoFactorSecret := twoFactorSecret
      version := row.version }

/-- `_user_to_values`, completed to a row by the version the statement sets. The cipher
draws a fresh initialisation vector, here the `iv`-th. -/
def userToValues (env : Env) (iv : ℕ) (u : User) (version : ℕ) : UserRow where
  id := u.id.value
  version := version
  username := u.username.value
  email := u.email.value
  hashedPassword := u.hashedPassword.value
  deletedAt := u.deletedAt
  isLocked := u.accountLock.isLocked
  lockedAt := u.accountLock.lockedAt
  lockReason := u.accountLock.lockReason
  failedAttempts := u.accountLock.failedAttempts
  lockUntil := u.accountLock.lockUntil
  isEmailVerified := u.emailVerification.isVerified
  emailVerificationTokenHash := u.emailVerification.tokenHash.map TokenHash.value
  emailVerifiedAt := u.emailVerification.verifiedAt
  emailVerificationExpiresAt := u.emailVerification.expiresAt
  passwordResetTokenHash := u.passwordResetToken.map fun t => t.tokenHash.value
  passwordResetCreatedAt := u.passwordResetToken.bind PasswordResetToken.createdAt
  passwordResetExpiresAt := u.passwordResetToken.bind PasswordResetToken.expiresAt
  passwordResetUsed := (u.passwordResetToken.map PasswordResetToken.isUsed).getD false
  twoFactorSecret := u.twoFactorSecret.map fun s => env.encrypt iv s.secret
  twoFactorEnabledAt := u.twoFactorSecret.bind TwoFactorSecret.enabledAt
  twoFactorBackupCodes :=
    u.twoFactorSecret.map fun s => s.backupCodeHashes.map fun held => hex held.value

/-- What a reader of the table gets back for a user that was written: everything but the
events, which are not stored, at the version that was set. -/
def User.stored (u : User) (version : ℕ) : User := { u with version := version, events := [] }

@[simp] theorem hashColumn_map_value (h : Option TokenHash) :
    hashColumn (h.map TokenHash.value) = .ok h := by
  cases h with
  | none => rfl
  | some t =>
      obtain ⟨b, hb⟩ := t
      cases b with
      | nil => exact absurd rfl hb
      | cons b bs =>
          change (TokenHash.make (b :: bs)).map some = _
          rw [TokenHash.make, dif_pos hb]
          rfl

/-- A hash that was read is the one that is stored. -/
theorem hashColumn_some {column : Option Bytes} {th : TokenHash}
    (h : hashColumn column = .ok (some th)) : column = some th.value := by
  cases column with
  | none => cases h
  | some bytes =>
      cases bytes with
      | nil => cases h
      | cons b bs =>
          cases hm : TokenHash.make (b :: bs) with
          | error e =>
              rw [hashColumn, hm] at h
              cases h
          | ok th' =>
              rw [hashColumn, hm] at h
              obtain rfl : th' = th := Option.some.inj (Except.ok.inj h)
              rw [TokenHash.make_ok hm]

@[simp] theorem backupCodesColumn_map_hex (hs : List TokenHash) :
    backupCodesColumn (hs.map fun held => hex held.value) = .ok hs := by
  induction hs with
  | nil => rfl
  | cons h hs ih =>
      rw [List.map_cons, backupCodesColumn, fromHex_hex, ih]
      change (TokenHash.make h.value >>= fun h' => Except.ok (h' :: hs)) = _
      rw [TokenHash.make_value]
      rfl

/-- A non-empty ciphertext is decrypted. -/
theorem twoFactorColumn_some {env : Env} {row : UserRow} {b : Bytes} {s : String}
    {l : List TokenHash} (hb : row.twoFactorSecret = some b) (hne : b ≠ [])
    (hd : env.decrypt b = some s)
    (hc : backupCodesColumn (row.twoFactorBackupCodes.getD []) = .ok l) :
    twoFactorColumn env row =
      .ok (some { secret := s, backupCodeHashes := l, enabledAt := row.twoFactorEnabledAt })
    := by
  cases b with
  | nil => exact absurd rfl hne
  | cons b bs =>
      rw [twoFactorColumn, hb]
      simp only [hd, hc]
      rfl

theorem twoFactorColumn_userToValues (env : Env) (iv : ℕ) (u : User) (v : ℕ) :
    twoFactorColumn env (userToValues env iv u v) = .ok u.twoFactorSecret := by
  cases h : u.twoFactorSecret with
  | none => rw [twoFactorColumn]; simp only [userToValues, h, Option.map_none]
  | some s =>
      rw [twoFactorColumn_some (b := env.encrypt iv s.secret) (s := s.secret)
        (l := s.backupCodeHashes)]
      · simp only [userToValues, h, Option.bind_some]
      · simp only [userToValues, h, Option.map_some]
      · exact env.encrypt_ne_nil iv s.secret
      · exact env.decrypt_encrypt iv s.secret
      · simp only [userToValues, h, Option.map_some, Option.getD_some,
          backupCodesColumn_map_hex]

theorem passwordResetColumn_userToValues (env : Env) (iv : ℕ) (u : User) (v : ℕ) :
    passwordResetColumn (userToValues env iv u v) = .ok u.passwordResetToken := by
  cases h : u.passwordResetToken with
  | none => rw [passwordResetColumn]; simp only [userToValues, h, Option.map_none]; rfl
  | some t =>
      have hc : hashColumn (some t.tokenHash.value) = .ok (some t.tokenHash) :=
        hashColumn_map_value (some t.tokenHash)
      rw [passwordResetColumn]
      simp only [userToValues, h, Option.map_some, Option.bind_some, Option.getD_some, hc]
      rfl

/-- **The row mapping reads back what it wrote**: everything but the recorded events. -/
theorem rowToUser_userToValues (env : Env) (iv : ℕ) (u : User) (v : ℕ) :
    rowToUser env (userToValues env iv u v) = .ok (u.stored v) := by
  rw [rowToUser, passwordResetColumn_userToValues, twoFactorColumn_userToValues]
  simp only [userToValues, UserID.make_value, Username.make_value, Email.make_value,
    HashedPassword.make_value, hashColumn_map_value]
  rfl

/-- What `_row_to_user` keeps of a row, whatever else it holds. -/
theorem rowToUser_ok {env : Env} {row : UserRow} {u : User}
    (h : rowToUser env row = .ok u) :
    u.id.value = row.id ∧ u.version = row.version ∧ u.username.value = row.username ∧
      u.email.value = row.email ∧ u.deletedAt = row.deletedAt ∧
      twoFactorColumn env row = .ok u.twoFactorSecret := by
  simp only [rowToUser, except_bind_eq_ok, Except.ok.injEq] at h
  obtain ⟨_, -, _, ht, _, hi, _, hu, _, he, _, -, _, -, rfl⟩ := h
  exact ⟨UserID.make_ok hi, rfl, Username.make_ok hu, Email.make_ok he, rfl, ht⟩

/-- The lock record of a row. -/
def UserRow.accountLock (row : UserRow) : AccountLockInfo where
  isLocked := row.isLocked
  lockedAt := row.lockedAt
  lockReason := row.lockReason
  failedAttempts := row.failedAttempts
  lockUntil := row.lockUntil

/-- The row holds the lock record of the aggregate. -/
theorem rowToUser_lock {env : Env} {row : UserRow} {u : User} (h : rowToUser env row = .ok u) :
    u.accountLock = row.accountLock := by
  simp only [rowToUser, except_bind_eq_ok, Except.ok.injEq] at h
  obtain ⟨_, -, _, -, _, -, _, -, _, -, _, -, _, -, rfl⟩ := h
  rfl

/-- A user that was read has recorded no event. -/
theorem rowToUser_events {env : Env} {row : UserRow} {u : User}
    (h : rowToUser env row = .ok u) : u.events = [] := by
  simp only [rowToUser, except_bind_eq_ok, Except.ok.injEq] at h
  obtain ⟨_, -, _, -, _, -, _, -, _, -, _, -, _, -, rfl⟩ := h
  rfl

/-! ### Sessions and refresh tokens -/

/-- `_device_info_from_row`. -/
def deviceInfoFromRow (row : SessionRow) : DeviceInfo where
  userAgent := row.userAgent
  ipAddress := row.ipAddress
  deviceName := row.deviceName
  browser := row.browser
  os := row.os
  isMobile := row.isMobile

/-- `_session_from_rows`. -/
def sessionFromRows (row : SessionRow) (refreshTokens : List RefreshToken) :
    Except AppError SessionAggregate := do
  let userId ← UserID.make row.userId
  .ok
    { sessionId := row.sessionId
      userId := userId
      deviceInfo := deviceInfoFromRow row
      createdAt := row.createdAt
      expiresAt := row.expiresAt
      isRevoked := row.isRevoked
      refreshTokens := refreshTokens }

/-- `_refresh_token_from_row`. -/
def refreshTokenFromRow (row : RefreshTokenRow) : Except AppError RefreshToken := do
  let h ← TokenHash.make row.tokenHash
  .ok
    { id := row.id
      tokenHash := h
      expiresAt := row.expiresAt
      isRevoked := row.isRevoked
      createdAt := row.createdAt }

/-- The columns `SQLAlchemySessionRepo.add` inserts for a session. -/
def sessionToRow (s : SessionAggregate) : SessionRow where
  sessionId := s.sessionId
  userId := s.userId.value
  userAgent := s.deviceInfo.userAgent
  ipAddress := s.deviceInfo.ipAddress
  deviceName := s.deviceInfo.deviceName
  browser := s.deviceInfo.browser
  os := s.deviceInfo.os
  isMobile := s.deviceInfo.isMobile
  createdAt := s.createdAt
  expiresAt := s.expiresAt
  isRevoked := s.isRevoked

/-- The columns `SQLAlchemySessionRepo.add` and `update` insert for a token. -/
def refreshTokenToRow (sessionId : Uuid) (t : RefreshToken) : RefreshTokenRow where
  id := t.id
  sessionId := sessionId
  tokenHash := t.tokenHash.value
  expiresAt := t.expiresAt
  isRevoked := t.isRevoked
  createdAt := t.createdAt

/-! ### The database and its statements -/

/-- The committed tables. -/
structure Db where
  users : List UserRow := []
  sessions : List SessionRow := []
  refreshTokens : List RefreshTokenRow := []
  outbox : List OutboxRow := []
  audit : List AuditRow := []
deriving DecidableEq

/-- The effect of one statement on the rows it touches. -/
inductive Write
  | userInsert (row : UserRow)
  | userUpdate (row : UserRow)
  | sessionInsert (row : SessionRow)
  | sessionUpdate (sessionId : Uuid) (isRevoked : Bool) (expiresAt : Instant)
  | tokenInsert (row : RefreshTokenRow)
  | tokenUpsert (row : RefreshTokenRow)
  | outboxInsert (row : OutboxRow)
  | auditInsert (row : AuditRow)
deriving DecidableEq

/-- What a row lock is held on: a primary key, or a value of a unique index. -/
inductive RowKey
  | user (id : Uuid)
  | username (name : String)
  | email (address : String)
  | session (id : Uuid)
  | token (id : Uuid)
  | tokenHash (hash : Bytes)
deriving DecidableEq

/-- The keys a statement locks. -/
def Write.keys : Write → List RowKey
  | .userInsert row | .userUpdate row =>
      .user row.id :: .username row.username :: (row.email.toList.map .email)
  | .sessionInsert row => [.session row.sessionId]
  | .sessionUpdate sid _ _ => [.session sid]
  | .tokenInsert row | .tokenUpsert row => [.token row.id, .tokenHash row.tokenHash]
  | .outboxInsert _ | .auditInsert _ => []

/-- `UPDATE sessions SET is_revoked, expires_at` on one row. -/
def SessionRow.set (row : SessionRow) (isRevoked : Bool) (expiresAt : Instant) :
    SessionRow :=
  { row with isRevoked := isRevoked, expiresAt := expiresAt }

/-- `ON CONFLICT (id) DO UPDATE SET is_revoked, expires_at` on one row. -/
def RefreshTokenRow.set (row : RefreshTokenRow) (isRevoked : Bool) (expiresAt : Instant) :
    RefreshTokenRow :=
  { row with isRevoked := isRevoked, expiresAt := expiresAt }

/-- The `refresh_tokens` table after an upsert. -/
def upsertToken (rows : List RefreshTokenRow) (row : RefreshTokenRow) :
    List RefreshTokenRow :=
  if rows.any fun r => r.id = row.id then
    rows.map fun r => if r.id = row.id then r.set row.isRevoked row.expiresAt else r
  else rows ++ [row]

/-- The database after a statement. -/
def Db.apply (db : Db) : Write → Db
  | .userInsert row => { db with users := db.users ++ [row] }
  | .userUpdate row =>
      { db with users := db.users.map fun r => if r.id = row.id then row else r }
  | .sessionInsert row => { db with sessions := db.sessions ++ [row] }
  | .sessionUpdate sid isRevoked expiresAt =>
      { db with sessions := db.sessions.map fun r =>
          if r.sessionId = sid then r.set isRevoked expiresAt else r }
  | .tokenInsert row => { db with refreshTokens := db.refreshTokens ++ [row] }
  | .tokenUpsert row => { db with refreshTokens := upsertToken db.refreshTokens row }
  | .outboxInsert row => { db with outbox := db.outbox ++ [row] }
  | .auditInsert row => { db with audit := db.audit ++ [row] }

/-- Whether a statement passes the key and foreign-key constraints of its table. -/
def Db.admits (db : Db) : Write → Bool
  | .userInsert row =>
      !db.users.any fun r => r.id = row.id || r.username = row.username ||
        (r.email.isSome && r.email = row.email)
  | .userUpdate row =>
      !db.users.any fun r => r.id ≠ row.id && (r.username = row.username ||
        (r.email.isSome && r.email = row.email))
  | .sessionInsert row =>
      (!db.sessions.any fun r => r.sessionId = row.sessionId) &&
        db.users.any fun u => u.id = row.userId
  | .sessionUpdate _ _ _ => true
  | .tokenInsert row =>
      (!db.refreshTokens.any fun r => r.id = row.id || r.tokenHash = row.tokenHash) &&
        db.sessions.any fun s => s.sessionId = row.sessionId
  | .tokenUpsert row =>
      (db.refreshTokens.any fun r => r.id = row.id) ||
        ((!db.refreshTokens.any fun r => r.tokenHash = row.tokenHash) &&
          db.sessions.any fun s => s.sessionId = row.sessionId)
  | .outboxInsert _ | .auditInsert _ => true

/-- Whether a sequence of statements passes the constraints, each on the database the
ones before it leave. -/
def Db.admitsAll : Db → List Write → Bool
  | _, [] => true
  | db, w :: ws => db.admits w && (db.apply w).admitsAll ws

/-- `_uniqueness_error`: the email constraint names the email, every other one the
username. -/
def uniquenessError (db : Db) (u : User) : AppError :=
  if db.users.any fun r => r.id ≠ u.id.value && r.username = u.username.value then
    .usernameAlreadyExists (some u.username.value)
  else if db.users.any fun r => r.id ≠ u.id.value && r.email.isSome &&
      r.email = u.email.value then
    .emailAlreadyExists u.email.value
  else .usernameAlreadyExists (some u.username.value)

end BackendTemplate
