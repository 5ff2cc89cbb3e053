import BackendTemplate.UseCases

/-!
# What a Request Has Done So Far

The history of a request is a list of calls and answers. `Progress` is what the results
need of it: the users and sessions it has read, the ids it has drawn, the rows it has
written, the codes it has had evaluated, its dealings with the cache, and whether it has
committed. `progress` computes it from the history.

On top of it stand the two halves of the contract every use case keeps:

* `Allowed env r p o` — request `r`, having made progress `p`, may make call `o`;
* `Answered env r p a` — request `r` may end with answer `a`.

`Computes env r u₀ u` says how a request turns the user it has loaded into the user it
writes back.
-/

namespace BackendTemplate

open Atomic

/-! ### Progress -/

/-- What a request has done so far. -/
structure Progress where
  /-- The users it has read. -/
  users : List User := []
  /-- The sessions it has read. -/
  sessions : List SessionAggregate := []
  /-- The account whose sessions it has listed, with the answer. -/
  listed : Option (Uuid × List SessionAggregate) := none
  /-- The instants at which it has read the clock. -/
  instants : List Instant := []
  /-- The ids it has drawn. -/
  drawn : List Uuid := []
  /-- The tokens it has drawn. -/
  tokens : List String := []
  /-- The two-factor codes it has had evaluated: against which user, with which result. -/
  checks : List (User × String × Bool × User) := []
  /-- The user it has written back. -/
  userWrite : Option User := none
  /-- The user it has inserted. -/
  userInsert : Option User := none
  /-- The session it has inserted. -/
  added : Option SessionAggregate := none
  /-- The sessions it has written back. -/
  updated : List SessionAggregate := []
  /-- The events it has registered with the unit of work. -/
  registered : List Event := []
  /-- Whether it has committed. -/
  committed : Bool := false
  /-- The cache entries it has read. -/
  gets : List (String × String) := []
  /-- The cache keys it has found absent. -/
  misses : List String := []
  /-- The cache entries it has read and neither set nor deleted since. -/
  held : List (String × String) := []
  /-- The cache entries it has set. -/
  puts : List (String × String) := []
  /-- The cache keys it has deleted. -/
  dropped : List String := []
  /-- The subjects whose consent sessions it has had Hydra revoke. -/
  consentsRevoked : List String := []
  /-- The subjects whose login sessions it has had Hydra revoke. -/
  loginsRevoked : List String := []

namespace Progress

/-- Forget what was read under a key. -/
def release (p : Progress) (key : String) : List (String × String) :=
  p.held.filter fun e => e.1 ≠ key

/-- Forget what was written: the transaction was rolled back. -/
def undo (p : Progress) : Progress :=
  { p with userWrite := none, userInsert := none, added := none, updated := [], registered := [] }

/-- The events of the aggregates it has written. -/
def written (p : Progress) : List Event :=
  (p.userWrite.map User.events).getD [] ++ (p.userInsert.map User.events).getD [] ++
    (p.added.map SessionAggregate.events).getD [] ++ p.updated.flatMap SessionAggregate.events

/-- **Every event of what it has written is registered, once.** -/
def Announced (p : Progress) : Prop := p.registered.Perm p.written

/-- Progress after one more call. -/
def note (p : Progress) : (o : Op) → o.Res → Progress
  | .acquireUser _, .ok (some u) => { p with users := u :: p.users }
  | .acquireSession _, .ok (some s) => { p with sessions := s :: p.sessions }
  | .acquireSessionByToken _, .ok (some s) => { p with sessions := s :: p.sessions }
  | .acquireSessionsOf u, .ok ss =>
      { p with sessions := ss ++ p.sessions, listed := some (u, ss) }
  | .now, t => { p with instants := t :: p.instants }
  | .uuid4, x => { p with drawn := x :: p.drawn }
  | .tokenUrlsafe, t => { p with tokens := t :: p.tokens }
  | .tokenHexes _, ts => { p with tokens := ts ++ p.tokens }
  | .verifyTwoFactor u code, r => { p with checks := (u, code, r) :: p.checks }
  | .updateUser u, .ok _ => { p with userWrite := some u }
  | .addUser u, .ok () => { p with userInsert := some u }
  | .addSession s, .ok () => { p with added := some s }
  | .updateSession s, .ok () => { p with updated := s :: p.updated }
  | .register events, () => { p with registered := p.registered ++ events }
  | .commit, .ok () => { p with committed := true }
  | .commit, .error _ => p.undo
  | .cacheGet k, some v => { p with gets := (k, v) :: p.gets, held := (k, v) :: p.held }
  | .cacheGet k, none => { p with misses := k :: p.misses }
  | .cacheSet k v _, () => { p with puts := (k, v) :: p.puts, held := p.release k }
  | .cacheDelete k, () => { p with dropped := k :: p.dropped, held := p.release k }
  | .revokeConsentSessions s, () => { p with consentsRevoked := s :: p.consentsRevoked }
  | .revokeLoginSessions s, () => { p with loginsRevoked := s :: p.loginsRevoked }
  | _, _ => p

end Progress

/-- The progress a history amounts to. -/
def progress (h : Hist calls) : Progress := h.foldr (fun e p => p.note e.1 e.2) {}

@[simp] theorem progress_nil : progress [] = {} := rfl

@[simp] theorem progress_cons (o : Op) (r : o.Res) (h : Hist calls) :
    progress (⟨o, r⟩ :: h) = (progress h).note o r := rfl

/-! ### How a request computes the user it writes -/

/-- **What request `r` makes of the user it has loaded.** Every constructor is one domain
transition, with the checks the service made before it. -/
inductive Computes (env : Env) : Request → User → User → Prop
  | wrongPassword {data : LoginInput} {pwd : PlainPassword env} {u : User}
      (checkedAt failedAt : Instant) (hpwd : PlainPassword.make env data.password = .ok pwd)
      (hlock : u.isLocked checkedAt = false) (hdel : u.isDeleted = false)
      (hv : u.verifyPassword env pwd = false) :
      Computes env (.login data) u (u.recordFailedLoginAttempt failedAt
        UserService.maxFailedAttempts UserService.lockoutDurationMinutes)
  | rightPassword {data : LoginInput} {pwd : PlainPassword env} {u : User}
      (hpwd : PlainPassword.make env data.password = .ok pwd)
      (hv : u.verifyPassword env pwd = true) :
      Computes env (.login data) u u.recordSuccessfulLogin
  | completeConsumes {token code : String} {u u' : User} (now : Instant)
      (hv : u.verifyTwoFactor env now code = (true, u')) (hne : u' ≠ u) :
      Computes env (.completeTwoFactor token code) u u'
  | verifyConsumes {userId : Uuid} {code : String} {u u' : User} (now : Instant)
      (hv : u.verifyTwoFactor env now code = (true, u')) (hne : u' ≠ u) :
      Computes env (.verify2FA userId code) u u'
  | enrol {userId : Uuid} {u : User} (secret : String) (codes : List String)
      (h2 : u.hasTwoFactor = false) :
      Computes env (.enable2FA userId) u (u.beginTwoFactorEnrolment env secret codes)
  | confirm {userId : Uuid} {code : String} {u u' : User} (now : Instant)
      (hc : u.confirmTwoFactor env now code = .ok u') :
      Computes env (.confirm2FA userId code) u u'
  | disable {userId : Uuid} {pwd : String} {u : User} :
      Computes env (.disable2FA userId pwd) u u.disableTwoFactor
  | changePassword {userId : Uuid} {oldPwd newPwd : String} {u u' : User}
      {old : PlainPassword env} {new : HashedPassword}
      (hc : u.changePassword env old new = .ok u') :
      Computes env (.changePassword userId oldPwd newPwd) u u'
  | requestReset {email : String} {ip : Option String} {u : User} (now : Instant)
      (token : String) :
      Computes env (.requestPasswordReset email ip) u (u.requestPasswordReset env now token)
  | resetPassword {token newPwd : String} {ip : Option String} {u u' : User}
      {new : HashedPassword} (now : Instant)
      (hr : u.resetPassword env now token new = .ok u') :
      Computes env (.resetPassword token newPwd ip) u u'
  | delete {userId : Uuid} {u : User} (now : Instant) :
      Computes env (.deleteMe userId) u (u.delete now)
  | verifyEmail {token : String} {u : User} (now : Instant) :
      Computes env (.verifyEmail token) u (u.markEmailVerified now)
  | profile {userId : Uuid} {username email : Option String} {u u₁ u₂ : User}
      (h₁ : u₁ = u ∨ ∃ name, u₁ = u.updateUsername name)
      (h₂ : u₂ = u₁ ∨ ∃ now address token, u₂ = u₁.updateEmail env now address token) :
      Computes env (.updateProfile userId username email) u u₂

/-- The account a request acts for, when its caller is signed in. -/
def Request.actor : Request → Option Uuid
  | .enable2FA userId | .confirm2FA userId _ | .disable2FA userId _ | .verify2FA userId _
  | .revokeSession userId _ | .revokeAllSessions userId | .changePassword userId _ _
  | .deleteMe userId | .updateProfile userId _ _ => some userId
  | _ => none

/-- Where the tokens and instants of the user a request writes come from: the request has
drawn them, and has read the clock. -/
def Sourced (env : Env) (r : Request) (p : Progress) (u₀ u : User) : Prop :=
  match r with
  | .requestPasswordReset _ _ => ∃ token ∈ p.tokens, ∃ now ∈ p.instants,
      u = u₀.requestPasswordReset env now token
  | .resetPassword token _ _ => ∃ now ∈ p.instants, ∃ new,
      u₀.resetPassword env now token new = .ok u
  | .verifyEmail token => ∃ now ∈ p.instants, u₀.verifyEmail env now token = true ∧
      ∃ verifiedAt, u = u₀.markEmailVerified verifiedAt
  | .updateProfile _ _ _ => ∃ u₁, (u₁ = u₀ ∨ ∃ name, u₁ = u₀.updateUsername name) ∧
      (u = u₁ ∨ ∃ now ∈ p.instants, ∃ token ∈ p.tokens, ∃ address,
        u = u₁.updateEmail env now address token)
  | _ => True

/-- **How request `r`, having made progress `p`, gets from the user `u₀` it has read to the
user `u` it writes.** -/
structure Derives (env : Env) (r : Request) (p : Progress) (u₀ u : User) : Prop where
  computes : Computes env r u₀ u
  sourced : Sourced env r p u₀ u
  actor : ∀ x, r.actor = some x → u₀.id.value = x

/-- Whether a request registers an account. -/
def Request.registers : Request → Bool
  | .createUser _ _ _ _ => true
  | _ => false

/-- A user that request `r` registers. -/
def Registers (env : Env) (r : Request) (p : Progress) (u : User) : Prop :=
  r.registers = true ∧ ∃ now ∈ p.instants, ∃ d ∈ p.drawn, ∃ userId username email hashed,
    userId.value ∈ p.drawn ∧ u = User.create env now userId username email hashed (env.uuidStr d)

/-! ### The contract -/

/-- The answers a call can get, as far as the use cases rely on them. -/
def possible (env : Env) : (o : Op) → o.Res → Prop
  | .acquireUser q, .ok (some u) => (∀ x, q = .id x → u.id.value = x) ∧ u.events = []
  | .tokenHexes n, ts => ts.length = n
  | .updateUser u, .ok v => v = { u with version := u.version + 1 }
  | .updateUser _, .error e => e.verdict = false
  | .addSession _, .error e => e.verdict = false
  | .commit, .error e => e.verdict = false
  | .verifyTwoFactor u code, r => ∃ now, r = u.verifyTwoFactor env now code
  | .acquireSessionByToken _, .ok (some s) => s.isRevoked = false
  | .acquireSessionsOf u, .ok ss => ∀ s ∈ ss, s.userId.value = u
  | _, _ => True

/-- The request has read the challenge of its token and has not written it back. -/
def Progress.Holds (p : Progress) (token raw : String) : Prop :=
  (ChallengeStore.key token, raw) ∈ p.held

/-- The stored challenge a request has read under its token. -/
def Progress.HasRead (env : Env) (p : Progress) (token : String) (c : StoredChallenge) : Prop :=
  ∃ raw, (ChallengeStore.key token, raw) ∈ p.gets ∧ env.validateJson raw = some c

/-- The login has accepted the password of the user it has written back as `u`. -/
def PasswordChecked (env : Env) (data : LoginInput) (p : Progress) (u : User) : Prop :=
  ∃ u₀ pwd, u₀ ∈ p.users ∧ PlainPassword.make env data.password = .ok pwd ∧
    u₀.verifyPassword env pwd = true ∧ u = u₀.recordSuccessfulLogin

/-- **What entitles a request to insert a session**: a login has written back a user with
no second factor, whose password it has accepted; a completion has had its code accepted for the user of its challenge,
and has dropped the challenge. -/
def Granted (env : Env) (r : Request) (p : Progress) (s : SessionAggregate) : Prop :=
  match r with
  | .login data => ∃ u, p.userWrite = some u ∧ PasswordChecked env data p u ∧
      u.hasTwoFactor = false ∧ s.userId = u.id
  | .completeTwoFactor token code =>
      ∃ u u' c, u ∈ p.users ∧ (u, code, true, u') ∈ p.checks ∧ s.userId = u.id ∧
        p.HasRead env token c ∧ c.userId = u.id.value ∧ ChallengeStore.key token ∈ p.dropped
  | _ => False

/-- The request has found the account not deleted, and not locked when it read the clock. -/
def Progress.Usable (p : Progress) (u : User) : Prop :=
  u.isDeleted = false ∧ ∃ t ∈ p.instants, u.isLocked t = false

/-- The session belongs to an account the request has read and found usable. -/
def Progress.FoundLive (p : Progress) (s : SessionAggregate) : Prop :=
  ∃ u ∈ p.users, s.userId = u.id ∧ p.Usable u

/-- The session is the first one written back, or the next one of a listing whose sessions
are written back revoked, in turn. -/
def Progress.Follows (p : Progress) (s : SessionAggregate) : Prop :=
  p.updated = [] ∨ ∃ u done s₀ rest, p.listed = some (u, done ++ s₀ :: rest) ∧
    p.updated = (done.map SessionAggregate.revoke).reverse ∧ s = s₀.revoke

/-- Session `s` is session `s₀` with token `t` exchanged for a new one. -/
def Exchanges (env : Env) (t : String) (p : Progress) (s₀ s : SessionAggregate) : Prop :=
  ∃ presented new now, s₀ ∈ p.sessions ∧ s₀.isRevoked = false ∧
    s₀.findRefreshToken (TokenHash.fromRaw env t) = some presented ∧
    presented.isRevoked = false ∧ new.isRevoked = false ∧ new.id ∈ p.drawn ∧
    s = s₀.rotate now presented.id new UserService.sessionExpireSeconds

/-- A consumed recovery code has been written back. -/
def Progress.Consumed (p : Progress) : Prop :=
  ∀ u code u', (u, code, true, u') ∈ p.checks → u' ≠ u → p.userWrite = some u'

/-- What has been written when request `r` commits. -/
def Completed (env : Env) (r : Request) (p : Progress) : Prop :=
  match r with
  | .completeTwoFactor _ _ => p.added.isSome = true ∧ p.Consumed
  | .verify2FA _ _ => p.Consumed
  | .refreshToken t => ∃ s₀ s, Exchanges env t p s₀ s ∧ p.updated = [s]
  | .revokeAllSessions userId => ∃ ss, p.listed = some (userId, ss) ∧
      p.updated = (ss.map SessionAggregate.revoke).reverse
  | .changePassword _ _ _ | .resetPassword _ _ _ =>
      ∃ u ss, p.userWrite = some u ∧ p.listed = some (u.id.value, ss) ∧
        p.updated = (ss.map SessionAggregate.revoke).reverse
  | _ => True

/-- The cache entries a request may set. -/
def MayPut (env : Env) (r : Request) (p : Progress) (key value : String)
    (ttl : Option ℕ) : Prop :=
  match r with
  | .login data => ∃ token c u, key = ChallengeStore.key token ∧ value = env.dumpJson c ∧
      ttl = some challengeTtlSeconds ∧ p.userWrite = some u ∧ PasswordChecked env data p u ∧
      c.userId = u.id.value ∧ p.committed = true
  | .completeTwoFactor token code =>
      (∃ (raw : String) (c : StoredChallenge), key = ChallengeStore.key token ∧
        value = env.dumpJson { c with attempts := c.attempts + 1 } ∧
        ttl = some challengeTtlSeconds ∧ p.Holds token raw ∧ env.validateJson raw = some c ∧
        c.attempts + 1 < maxAttempts) ∨
      (∃ u u', key = UsedCodes.key env u.id.value code ∧ value = "1" ∧
        ttl = some UsedCodes.codeMemorySeconds ∧ (u, code, true, u') ∈ p.checks)
  | _ => False

/-- **What a request may call**, given what it has done so far. -/
def Allowed (env : Env) (r : Request) (p : Progress) : Op → Prop
  | .acquireUser _ =>
      p.userWrite = none ∧ p.userInsert = none ∧ p.committed = false ∧ p.users = []
  | .acquireSession _ | .acquireSessionByToken _ | .acquireSessionsOf _ =>
      p.added = none ∧ p.updated = [] ∧ p.committed = false
  | .addUser u => p.userWrite = none ∧ p.userInsert = none ∧ p.committed = false ∧
      Registers env r p u
  | .updateUser u => p.userWrite = none ∧ p.userInsert = none ∧ p.committed = false ∧
      ∃ u₀ ∈ p.users, Derives env r p u₀ u
  | .addSession s => p.added = none ∧ p.updated = [] ∧ p.committed = false ∧
      s.isRevoked = false ∧ s.sessionId ∈ p.drawn ∧
      (∃ t, s.refreshTokens = [t] ∧ t.id ∈ p.drawn) ∧ Granted env r p s ∧
      p.FoundLive s ∧ ∀ t ∈ s.refreshTokens, t.isRevoked = false
  | .updateSession s => p.added = none ∧ p.committed = false ∧
      ((∃ s₀ ∈ p.sessions, s = s₀.revoke) ∨
        ∃ t s₀, r = .refreshToken t ∧ Exchanges env t p s₀ s ∧ p.updated = []) ∧
      (∀ x, r.actor = some x → s.userId.value = x) ∧ p.Follows s
  | .commit => p.committed = false ∧ Completed env r p ∧ p.Announced
  | .verifyTwoFactor u code => u ∈ p.users ∧ p.committed = false ∧ match r with
      | .completeTwoFactor token code' => code = code' ∧ p.checks = [] ∧
          UsedCodes.key env u.id.value code ∈ p.misses ∧ ∃ raw, p.Holds token raw
      | .verify2FA _ code' => code = code' ∧ p.checks = []
      | _ => False
  | .cacheGet key => match r with
      | .completeTwoFactor token code =>
          (key = ChallengeStore.key token ∧ p = {}) ∨
            ((∃ u, key = UsedCodes.key env u code) ∧ p.checks = [])
      | _ => False
  | .cacheSet key value ttl => MayPut env r p key value ttl
  | .cacheDelete key => match r with
      | .completeTwoFactor token _ => key = ChallengeStore.key token ∧ ∃ raw, p.Holds token raw
      | _ => False
  | .revokeConsentSessions s | .revokeLoginSessions s => p.committed = true ∧ match r with
      | .revokeAllSessions userId => s = env.uuidStr userId
      | _ => False
  | _ => True

/-- **How a request may end.** -/
def Answered (env : Env) (r : Request) (p : Progress) (x : Except AppError Response) : Prop :=
  match r, x with
  | .revokeAllSessions userId, .ok out => out = .nothing ∧ p.committed = true ∧
      env.uuidStr userId ∈ p.consentsRevoked ∧ env.uuidStr userId ∈ p.loginsRevoked
  | .login _, .error e => e.verdict = true → ∀ u ∈ p.users, p.committed = true ∧
      ((∃ t ∈ p.instants, u.isLocked t = true) ∨ u.isDeleted = true ∨
        ∃ failedAt, p.userWrite = some (u.recordFailedLoginAttempt failedAt
          UserService.maxFailedAttempts UserService.lockoutDurationMinutes))
  | _, .ok (.refreshed out) => p.committed = true ∧ ∃ s ∈ p.updated,
      out.sessionId = env.uuidStr s.sessionId
  | _, .ok (.completed out) => p.committed = true ∧ ∃ s, p.added = some s ∧
      out.sessionId = env.uuidStr s.sessionId ∧ out.userId = s.userId.value
  | _, .ok (.loggedIn out) => out.requiresTwoFactor = false → p.committed = true ∧
      ∃ s, p.added = some s ∧ out.userId = s.userId.value
  | _, _ => True

/-- What a completion has done when it ends: an accepted one-time password is remembered,
and a challenge that is still held has seen no wrong code. -/
def Settled (env : Env) (r : Request) (p : Progress) : Prop :=
  match r with
  | .completeTwoFactor token code =>
      (∀ u, (u, code, true, u) ∈ p.checks →
        (UsedCodes.key env u.id.value code, "1") ∈ p.puts) ∧
      ∀ raw, p.Holds token raw → ∀ u code' u', (u, code', false, u') ∉ p.checks
  | _ => True

/-- **The contract**: every call the program makes is allowed by its progress, and every
exit satisfies the postcondition. -/
def Keeps {α : Type} (env : Env) (r : Request) (post : Progress → Except AppError α → Prop)
    (p : Progress) (a : Act α) : Prop :=
  a.Obeys Progress.note (possible env) (Allowed env r) post p

end BackendTemplate
