import BackendTemplate.Interleave
import BackendTemplate.RowLocks
import BackendTemplate.Tables

/-!
# The World a Request Runs In

The calls a request can make (`Op`), what each of them returns (`Op.Res`), and how the
world answers (`exec`): the clock, the random sources, the rate limiters, the repositories
over the tables, the unit of work, and the cache. Every call is one atomic step.

A request runs in one database transaction. Reads see the committed tables overlaid with
the request's own statements; a statement that meets a row another open transaction has
written waits; `commit` makes the statements visible and releases the rows; a request
that ends without a commit leaves nothing (`finish`).

The rate limiters are external to this module: their answers are part of the `Choice`, so
a statement about every run covers every limiter.
-/

namespace BackendTemplate

open Atomic

/-! ### The cache -/

/-- `InMemoryCache`: a dictionary of values with an optional expiry. -/
structure InMemoryCache where
  store : String → Option (String × Option Instant)

namespace InMemoryCache

/-- `InMemoryCache()`. -/
def empty : InMemoryCache := ⟨fun _ => none⟩

/-- Whether an entry has reached its expiry. -/
def expired (now : Instant) : Option Instant → Bool
  | none => false
  | some t => decide (t ≤ now)

/-- `InMemoryCache.delete`. -/
def delete (c : InMemoryCache) (key : String) : InMemoryCache :=
  ⟨Function.update c.store key none⟩

/-- `InMemoryCache.get`: an expired entry is dropped on the way. -/
def get (c : InMemoryCache) (now : Instant) (key : String) : Option String × InMemoryCache :=
  match c.store key with
  | none => (none, c)
  | some (value, expiresAt) =>
      if expired now expiresAt then (none, c.delete key) else (some value, c)

/-- `InMemoryCache.set`: a lifetime of `None` or `0` never expires. -/
def set (c : InMemoryCache) (now : Instant) (key value : String) (ttlSeconds : Option ℕ) :
    InMemoryCache :=
  let expiresAt := match ttlSeconds with
    | none => none
    | some 0 => none
    | some (n + 1) => some (now + seconds (n + 1))
  ⟨Function.update c.store key (some (value, expiresAt))⟩

end InMemoryCache

/-! ### The unit of work -/

/-- `event_aggregate`: the aggregate an event belongs to. -/
def eventAggregate : Event → String × Uuid
  | .sessionCreated sid _ _ _ _ | .sessionRevoked sid _ | .tokenRefreshed sid _ =>
      ("Session", sid)
  | .userCreated u _ _ | .userAuthenticated u _ | .userProfileUpdated u _ | .userDeleted u
  | .accountLocked u _ _ | .accountUnlocked u | .passwordResetRequested u _ _
  | .passwordResetCompleted u | .passwordChanged u | .emailVerificationRequested u _ _
  | .emailVerified u _ | .twoFactorEnabled u _ | .twoFactorDisabled u => ("User", u)

/-- The `user_id` attribute of an event. -/
def eventUserId : Event → Uuid
  | .sessionCreated _ u _ _ _ | .sessionRevoked _ u | .tokenRefreshed _ u => u
  | e => (eventAggregate e).2

/-- `EVENT_TO_ACTION`: the two requested-token events have no audit action. -/
def eventToAction : Event → Option String
  | .userCreated _ _ _ => some "user.created"
  | .userAuthenticated _ _ => some "user.login"
  | .userProfileUpdated _ _ => some "user.profile_updated"
  | .userDeleted _ => some "user.deleted"
  | .accountLocked _ _ _ => some "user.locked"
  | .accountUnlocked _ => some "user.unlocked"
  | .passwordResetCompleted _ => some "user.password_reset"
  | .passwordChanged _ => some "user.password_changed"
  | .emailVerified _ _ => some "user.email_verified"
  | .twoFactorEnabled _ _ => some "user.two_factor_enabled"
  | .twoFactorDisabled _ => some "user.two_factor_disabled"
  | .sessionCreated _ _ _ _ _ => some "session.created"
  | .sessionRevoked _ _ => some "session.revoked"
  | .tokenRefreshed _ _ => some "session.refreshed"
  | .passwordResetRequested _ _ _ => none
  | .emailVerificationRequested _ _ _ => none

/-- `_event_to_audit`. -/
def eventToAudit (id : Uuid) (now : Instant) (e : Event) : Option AuditRow :=
  (eventToAction e).map fun action =>
    { id := id
      userId := some (eventUserId e)
      action := action
      entityType := (eventAggregate e).1
      entityId := some (eventAggregate e).2
      timestamp := now
      success := true }

/-- What `SQLAlchemyUoW.commit` adds to the transaction for the drained events: their
outbox rows, then the audit rows of the handler. -/
def eventWrites (env : Env) (rng : ℕ) (now : Instant) (events : List Event) : List Write :=
  (events.zipIdx rng).map (fun e => .outboxInsert ⟨env.uuid4 e.2, e.1, now⟩) ++
    (events.zipIdx (rng + events.length)).filterMap fun e =>
      (eventToAudit (env.uuid4 e.2) now e.1).map .auditInsert

/-! ### Calls -/

/-- The columns the `acquire_*` methods of the user repository select by. -/
inductive UserQuery
  | id (u : Uuid)
  | username (name : String)
  | email (address : Option String)
  | verificationToken (hash : Bytes)
  | resetToken (hash : Bytes)

/-- The `WHERE` clause of each `acquire_*` method. -/
def UserQuery.selects : UserQuery → UserRow → Bool
  | .id u, row => row.id = u
  | .username name, row => row.username = name && row.deletedAt.isNone
  | .email address, row => address.isSome && row.email = address && row.deletedAt.isNone
  | .verificationToken hash, row => row.emailVerificationTokenHash = some hash
  | .resetToken hash, row => row.passwordResetTokenHash = some hash

/-- The calls of a request. -/
inductive Op
  | now
  | uuid4
  | tokenUrlsafe
  | tokenHexes (count : ℕ)
  | randomBase32
  | hashPassword (pwd : String)
  | rateLimit (key : String)
  | loginIsLocked (key : String)
  | recordFailedLogin (key : String)
  | resetLoginAttempts (key : String)
  | acquireUser (q : UserQuery)
  | usernameExists (name : String)
  | emailExists (address : Option String)
  | addUser (u : User)
  | updateUser (u : User)
  | acquireSession (sessionId : Uuid)
  | acquireSessionsOf (userId : Uuid)
  | acquireSessionByToken (hash : Bytes)
  | addSession (s : SessionAggregate)
  | updateSession (s : SessionAggregate)
  | register (events : List Event)
  | commit
  | cacheGet (key : String)
  | cacheSet (key value : String) (ttlSeconds : Option ℕ)
  | cacheDelete (key : String)
  | verifyTwoFactor (u : User) (code : String)
  | revokeConsentSessions (subject : String)
  | revokeLoginSessions (subject : String)

/-- The type of the answer of a call. A call that can raise returns its error. -/
@[reducible] def Op.Res : Op → Type
  | .now => Instant
  | .uuid4 => Uuid
  | .tokenUrlsafe | .randomBase32 => String
  | .tokenHexes _ => List String
  | .hashPassword _ => Bytes
  | .rateLimit _ => RateLimitResult
  | .loginIsLocked _ | .recordFailedLogin _ => Bool
  | .resetLoginAttempts _ => Unit
  | .acquireUser _ => Except AppError (Option User)
  | .usernameExists _ | .emailExists _ => Bool
  | .addUser _ => Except AppError Unit
  | .updateUser _ => Except AppError User
  | .acquireSession _ | .acquireSessionByToken _ => Except AppError (Option SessionAggregate)
  | .acquireSessionsOf _ => Except AppError (List SessionAggregate)
  | .addSession _ | .updateSession _ => Except AppError Unit
  | .register _ => Unit
  | .commit => Except AppError Unit
  | .cacheGet _ => Option String
  | .cacheSet _ _ _ | .cacheDelete _ => Unit
  | .verifyTwoFactor _ _ => Bool × User
  | .revokeConsentSessions _ | .revokeLoginSessions _ => Unit

/-- The signature of the calls of a request. -/
@[reducible] def calls : Sig := ⟨Op, Op.Res⟩

/-- What a run leaves open: the answers of the limiters, and whether the database accepts
the commit. -/
structure Choice where
  limit : RateLimitResult := ⟨true, 0, none⟩
  locked : Bool := false
  commitFails : Bool := false

/-- An open transaction: its statements, and the events of the aggregates registered with
the unit of work. -/
structure Tx where
  writes : List Write := []
  events : List Event := []

/-- The **world**: the committed tables, the open transaction of each request, the cache,
the clock, and the number of random draws made. -/
structure World (ι : Type) where
  db : Db
  txs : ι → Tx
  cache : InMemoryCache
  clock : Instant
  rng : ℕ

namespace World

variable {ι : Type}

/-- The tables as request `i` sees them. -/
def view (w : World ι) (i : ι) : Db := RowLocks.view Db.apply w.db (w.txs i).writes

/-- The statements each open transaction has executed. -/
def pending (w : World ι) (i : ι) : List Write := (w.txs i).writes

/-- Draw `n` random values. -/
def draw (w : World ι) (n : ℕ) : World ι := { w with rng := w.rng + n }

variable [DecidableEq ι]

/-- Add statements to the transaction of request `i`. -/
def issue (w : World ι) (i : ι) (ws : List Write) : World ι :=
  let tx := { w.txs i with writes := (w.txs i).writes ++ ws }
  { w with txs := Function.update w.txs i tx }

/-- Track events in the unit of work of request `i`. -/
def track (w : World ι) (i : ι) (events : List Event) : World ι :=
  let tx := { w.txs i with events := (w.txs i).events ++ events }
  { w with txs := Function.update w.txs i tx }

/-- End the transaction of request `i` without a trace. -/
def rollback (w : World ι) (i : ι) : World ι :=
  { w with txs := Function.update w.txs i {} }

/-- `SQLAlchemyUoW.commit`: drain the events into outbox and audit rows, and make the
statements visible. -/
def commit (env : Env) (w : World ι) (i : ι) : World ι where
  db := RowLocks.view Db.apply (w.view i)
    (eventWrites env w.rng w.clock (w.txs i).events)
  txs := Function.update w.txs i {}
  cache := w.cache
  clock := w.clock
  rng := w.rng + 2 * (w.txs i).events.length

end World

/-! ### Repository reads -/

/-- The `acquire_*` methods of `SQLAlchemyUserRepo`. -/
def Db.acquireUser (env : Env) (db : Db) (q : UserQuery) : Except AppError (Option User) :=
  match db.users.find? q.selects with
  | none => .ok none
  | some row => (rowToUser env row).map some

/-- `check_username_exists`. -/
def Db.usernameExists (db : Db) (name : String) : Bool :=
  db.users.any fun row => row.username = name && row.deletedAt.isNone

/-- `check_email_exists`. -/
def Db.emailExists (db : Db) (address : Option String) : Bool :=
  address.isSome && db.users.any fun row => row.email = address && row.deletedAt.isNone

/-- The refresh tokens of a session, in row order. -/
def Db.tokensOf (db : Db) (sessionId : Uuid) : Except AppError (List RefreshToken) :=
  (db.refreshTokens.filter fun t => t.sessionId = sessionId).mapM refreshTokenFromRow

/-- A session row with its refresh tokens. -/
def Db.loadSession (db : Db) (row : SessionRow) : Except AppError SessionAggregate := do
  let tokens ← db.tokensOf row.sessionId
  sessionFromRows row tokens

/-- `acquire_by_session_id`. -/
def Db.acquireSession (db : Db) (sessionId : Uuid) :
    Except AppError (Option SessionAggregate) :=
  match db.sessions.find? fun r => r.sessionId = sessionId with
  | none => .ok none
  | some row => (db.loadSession row).map some

/-- `_refresh_tokens_for`: one query for the whole batch, grouped by session. -/
def Db.refreshTokensFor (db : Db) (sessionIds : List Uuid) :
    Except AppError (List (Uuid × RefreshToken)) :=
  (db.refreshTokens.filter fun t => sessionIds.contains t.sessionId).mapM fun row => do
    let t ← refreshTokenFromRow row
    .ok (row.sessionId, t)

/-- `acquire_by_user_id`: the unrevoked sessions of a user. -/
def Db.acquireSessionsOf (db : Db) (userId : Uuid) :
    Except AppError (List SessionAggregate) := do
  let rows := db.sessions.filter fun r => r.userId = userId && !r.isRevoked
  if rows.isEmpty then .ok []
  else
    let grouped ← db.refreshTokensFor (rows.map SessionRow.sessionId)
    rows.mapM fun row =>
      sessionFromRows row ((grouped.filter fun p => p.1 = row.sessionId).map Prod.snd)

/-- `acquire_by_token_hash`: an unrevoked token with this hash, in an unrevoked session. -/
def Db.acquireSessionByToken (db : Db) (hash : Bytes) :
    Except AppError (Option SessionAggregate) :=
  match db.refreshTokens.find? fun t => t.tokenHash = hash && !t.isRevoked with
  | none => .ok none
  | some token =>
      match db.sessions.find? fun r => r.sessionId = token.sessionId with
      | none => .ok none
      | some row => if row.isRevoked then .ok none else (db.loadSession row).map some

/-! ### Repository writes -/

/-- The statements of `SQLAlchemySessionRepo.add`. -/
def addSessionWrites (s : SessionAggregate) : List Write :=
  .sessionInsert (sessionToRow s) ::
    s.refreshTokens.map fun t => .tokenInsert (refreshTokenToRow s.sessionId t)

/-- The statements of `SQLAlchemySessionRepo.update`. -/
def updateSessionWrites (s : SessionAggregate) : List Write :=
  .sessionUpdate s.sessionId s.isRevoked s.expiresAt ::
    s.refreshTokens.map fun t => .tokenUpsert (refreshTokenToRow s.sessionId t)

section Exec

variable {ι : Type} [Fintype ι] [DecidableEq ι]

/-- Execute statements that raise `err` when a constraint refuses them. They wait while
another open transaction holds one of their rows. -/
def execWrites {α : Type} (w : World ι) (i : ι) (ws : List Write) (err : AppError)
    (done : World ι → World ι) (answer : α) : Option (Except AppError α × World ι) :=
  if RowLocks.Free Write.keys w.pending i ws then
    if (w.view i).admitsAll ws then some (.ok answer, done (w.issue i ws))
    else some (.error err, w)
  else none

/-- `SQLAlchemyUserRepo.update`: conditional on the version, which it bumps. No row at
that version is a concurrent modification; otherwise the row is locked. -/
def execUpdateUser (env : Env) (w : World ι) (i : ι) (u : User) :
    Option (Except AppError User × World ι) :=
  if (w.view i).users.any fun r => r.id = u.id.value && r.version = u.version then
    execWrites w i [.userUpdate (userToValues env w.rng u (u.version + 1))]
      (uniquenessError (w.view i) u) (·.draw 1) { u with version := u.version + 1 }
  else some (.error (.concurrentModification (some u.id.value)), w)

/-- **The answers of the world.** -/
def exec (env : Env) (ch : Choice) (i : ι) : (o : Op) → World ι → Option (o.Res × World ι)
  | .now, w => some (w.clock, w)
  | .uuid4, w => some (env.uuid4 w.rng, w.draw 1)
  | .tokenUrlsafe, w => some (env.tokenUrlsafe w.rng, w.draw 1)
  | .tokenHexes n, w => some ((List.range n).map fun k => env.tokenHex (w.rng + k), w.draw n)
  | .randomBase32, w => some (env.randomBase32 w.rng, w.draw 1)
  | .hashPassword pwd, w => some (env.hashpw w.rng pwd, w.draw 1)
  | .rateLimit _, w => some (ch.limit, w)
  | .loginIsLocked _, w => some (ch.locked, w)
  | .recordFailedLogin _, w => some (ch.locked, w)
  | .resetLoginAttempts _, w => some ((), w)
  | .acquireUser q, w => some ((w.view i).acquireUser env q, w)
  | .usernameExists name, w => some ((w.view i).usernameExists name, w)
  | .emailExists address, w => some ((w.view i).emailExists address, w)
  | .addUser u, w =>
      execWrites w i [.userInsert (userToValues env w.rng u 0)]
        (uniquenessError (w.view i) u) (·.draw 1) ()
  | .updateUser u, w => execUpdateUser env w i u
  | .acquireSession sid, w => some ((w.view i).acquireSession sid, w)
  | .acquireSessionsOf uid, w => some ((w.view i).acquireSessionsOf uid, w)
  | .acquireSessionByToken hash, w => some ((w.view i).acquireSessionByToken hash, w)
  | .addSession s, w => execWrites w i (addSessionWrites s) .integrityError id ()
  | .updateSession s, w => execWrites w i (updateSessionWrites s) .integrityError id ()
  | .register events, w => some ((), w.track i events)
  | .commit, w =>
      if ch.commitFails then some (.error .databaseError, w.rollback i)
      else some (.ok (), w.commit env i)
  | .cacheGet key, w =>
      some ((w.cache.get w.clock key).1, { w with cache := (w.cache.get w.clock key).2 })
  | .cacheSet key value ttl, w =>
      some ((), { w with cache := w.cache.set w.clock key value ttl })
  | .cacheDelete key, w => some ((), { w with cache := w.cache.delete key })
  | .verifyTwoFactor u code, w => some (u.verifyTwoFactor env w.clock code, w)
  | .revokeConsentSessions _, w => some ((), w)
  | .revokeLoginSessions _, w => some ((), w)

/-- The machine of the service: requests make calls, a request that ends closes its
database session, and the clock advances by any number of microseconds. -/
def machine (env : Env) (ι : Type) [Fintype ι] [DecidableEq ι] :
    Machine calls ι (World ι) Choice ℕ where
  exec := exec env
  finish i w := w.rollback i
  env d w := { w with clock := w.clock + d }

end Exec

end BackendTemplate
