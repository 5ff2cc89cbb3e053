import BackendTemplate.Alone
import BackendTemplate.Lockout
import BackendTemplate.MemoryCache

/-!
# What a Login Ends With

`LoginUseCase` and `CompleteTwoFactorUseCase`, alone and with a database that takes the commit: the
errors they can raise, computed through the value objects, the rows that are loaded, the limiters,
the challenge store and the session that is stored at the end.

Two kinds of errors come out. The login refuses credentials with three errors, the completion with
one. The others are raised by a value object or while a row is loaded (`AppError.isFault`): a
password that a new account could not have, an account id that is nil, a column that is no longer a
value. What is asked of the input and of the stored state so that none of these is raised is
`CredentialsTaken` and `ChallengeTaken`. A session can always be stored, for a stored account and
with what was just drawn (`buildSession_ends`).

## Main results

* `login_ends` — a login ends with a login or refuses the credentials, when they are taken.
* `completeTwoFactor_ends` — so does a completion, when the challenge is taken.
* `EndsIn.credentialsTaken`, `EndsIn.challengeTaken` — there is no other way to end without a fault.
-/

namespace BackendTemplate

open Atomic

/-! ### Programs that run alone -/

/-- **What a program of the service ends with**, alone and under these choices. -/
abbrev EndsUnder (env : Env) (C : Choice → Prop) {α : Type}
    (post : Except AppError α → World Unit → Prop) (p : Act α) (w : World Unit) : Prop :=
  (machine env Unit).Ensures () C post p w

section Rules

variable {env : Env} {C : Choice → Prop} {α β : Type} {post : Except AppError α → World Unit → Prop}
  {w w' : World Unit}

/-- The rule for sequencing, with a condition on what comes between. -/
theorem EndsUnder.bind {mid : Except AppError β → World Unit → Prop} {p : Act β} {f : β → Act α}
    (h : EndsUnder env C mid p w) (hok : ∀ a w', mid (.ok a) w' → EndsUnder env C post (f a) w')
    (herr : ∀ e w', mid (.error e) w' → post (.error e) w') : EndsUnder env C post (p >>= f) w := by
  refine Machine.ensures_bind.mpr (h.mono fun x w' hx => ?_)
  cases x with
  | ok a => exact hok a w' hx
  | error e => exact herr e w' hx

/-- The rule for a call, which is made a while later. -/
theorem ends_call {o : Op} {f : o.Res → Act α}
    (h : ∀ d ch r w', C ch → exec env ch () o (w.after d) = some (r, w') →
      EndsUnder env C post (f r) w') : EndsUnder env C post (ask o >>= f) w := by
  intro es ch r w' hch he
  rw [envs_after] at he
  exact h es.sum ch r w' hch he

/-- The same for a call whose answer is known. -/
theorem ends_ask {o : Op} {f : o.Res → Act α}
    (h : ∀ d ch, C ch → ∃ r w', exec env ch () o (w.after d) = some (r, w') ∧
      EndsUnder env C post (f r) w') : EndsUnder env C post (ask o >>= f) w := by
  refine ends_call fun d ch r w' hch he => ?_
  obtain ⟨r', w'', he', hf⟩ := h d ch hch
  obtain ⟨rfl, rfl⟩ := Prod.mk.inj (Option.some.inj (he'.symm.trans he))
  exact hf

/-- What a call that is made at once has to go on with. -/
theorem EndsUnder.of_ask {o : Op} {f : o.Res → Act α} {ch : Choice} {r : o.Res}
    (h : EndsUnder env C post (ask o >>= f) w) (hch : C ch)
    (he : exec env ch () o w = some (r, w')) : EndsUnder env C post (f r) w' :=
  h [] ch r w' hch he

theorem ends_attempt {p : Act (Except AppError β)} {f : β → Act α} :
    EndsUnder env C post (attempt p >>= f) w ↔
      EndsUnder env C post (p >>= fun r => Prog.ofExcept r >>= f) w := by
  rw [attempt, Prog.bind_assoc]

/-- A statement of a program that runs alone never waits. -/
theorem execWrites_isSome {done : World Unit → World Unit} (ws : List Write) (e : AppError)
    (answer : α) : (execWrites w () ws e done answer).isSome := by
  rw [execWrites, if_pos (free_alone w ws)]
  split <;> rfl

/-- **A call of a program that runs alone is answered.** -/
theorem exec_isSome (ch : Choice) (o : Op) (w : World Unit) : (exec env ch () o w).isSome := by
  cases o with
  | addUser u =>
      rw [exec]
      exact execWrites_isSome _ _ _
  | updateUser u =>
      rw [exec, execUpdateUser]
      split
      · exact execWrites_isSome _ _ _
      · rfl
  | addSession s =>
      rw [exec]
      exact execWrites_isSome _ _ _
  | updateSession s =>
      rw [exec]
      exact execWrites_isSome _ _ _
  | commit =>
      rw [exec]
      split <;> rfl
  | _ => rfl

end Rules

/-- What the limiters answer while a form is handled: about the second factor, about the login, and
whether the attempts are locked. -/
structure Limiters where
  twoFactor : RateLimitResult
  login : RateLimitResult
  locked : Bool

/-- The limiters answer so, and the database takes the commit. -/
structure Limiters.Answer (l : Limiters) (ch : Choice) : Prop where
  login : ch.limit = l.login
  locked : ch.locked = l.locked
  commits : ch.commitFails = false

theorem Limiters.exists_answer (l : Limiters) : ∃ ch, l.Answer ch :=
  ⟨⟨l.login, l.locked, false⟩, rfl, rfl, rfl⟩

/-- What a program ends with, alone and with these limiters. -/
abbrev EndsIn (env : Env) (l : Limiters) {α : Type}
    (post : Except AppError α → World Unit → Prop) (p : Act α) (w : World Unit) : Prop :=
  EndsUnder env l.Answer post p w

/-- The commit is taken. -/
theorem ends_commit {env : Env} {l : Limiters} {α : Type}
    {post : Except AppError α → World Unit → Prop} {w : World Unit} {f : Unit → Act α}
    (h : ∀ d, EndsIn env l post (f ()) ((w.after d).commit env ())) :
    EndsIn env l post (commit >>= f) w := by
  refine ends_attempt.mpr (ends_ask fun d ch hch => ⟨.ok (), _, ?_, h d⟩)
  rw [exec, hch.commits]
  rfl

/-! ### Sessions that can be stored -/

/-- **A world that is ready for a new session**, as the request sees it: the unique columns of the
users are unique, and nothing that is yet to be drawn is stored. -/
structure Ready (env : Env) (w : World Unit) : Prop where
  users : (w.view ()).UniqueUsers
  sessions : ∀ s ∈ (w.view ()).sessions, ∀ n, w.rng ≤ n → s.sessionId ≠ env.uuid4 n
  tokens : ∀ t ∈ (w.view ()).refreshTokens, ∀ n, w.rng ≤ n → t.id ≠ env.uuid4 n
  hashes : ∀ t ∈ (w.view ()).refreshTokens, ∀ n, w.rng ≤ n →
    t.tokenHash ≠ env.sha256 (env.tokenUrlsafe n)

/-- The session passes the constraints. -/
def Insertable (w : World Unit) (s : SessionAggregate) : Prop :=
  (w.view ()).admitsAll (addSessionWrites s) = true

/-- The account is stored, under the constraints. -/
structure Held (env : Env) (w : World Unit) (u : User) : Prop where
  ready : Ready env w
  row : ∃ row ∈ (w.view ()).users, rowToUser env row = .ok u

section Sessions

variable {env : Env} {l : Limiters} {α : Type} {post : Except AppError α → World Unit → Prop}
  {w w' : World Unit} {u : User}

theorem Ready.congr (h : Ready env w) (hview : w'.view () = w.view ()) (hrng : w.rng ≤ w'.rng) :
    Ready env w' where
  users := hview ▸ h.users
  sessions := hview ▸ fun s hs n hn => h.sessions s hs n (hrng.trans hn)
  tokens := hview ▸ fun t ht n hn => h.tokens t ht n (hrng.trans hn)
  hashes := hview ▸ fun t ht n hn => h.hashes t ht n (hrng.trans hn)

theorem Ready.after (h : Ready env w) (d : ℕ) : Ready env (w.after d) := h.congr rfl le_rfl

theorem Held.after (h : Held env w u) (d : ℕ) : Held env (w.after d) u :=
  ⟨h.ready.after d, h.row⟩

/-- A session with what was just drawn passes the constraints. -/
theorem Ready.insertable (h : Ready env w) {s : SessionAggregate} {t : RefreshToken} {n m k : ℕ}
    (huser : ∃ r ∈ (w.view ()).users, r.id = s.userId.value) (hs : s.refreshTokens = [t])
    (hn : w.rng ≤ n) (hm : w.rng ≤ m) (hk : w.rng ≤ k) (hid : s.sessionId = env.uuid4 n)
    (htoken : t.id = env.uuid4 m) (hhash : t.tokenHash.value = env.sha256 (env.tokenUrlsafe k)) :
    Insertable w s := by
  obtain ⟨r, hr, hrid⟩ := huser
  have hsession : (w.view ()).admits (.sessionInsert (sessionToRow s)) = true := by
    simp only [Db.admits, Bool.and_eq_true, Bool.not_eq_true', List.any_eq_false, List.any_eq_true,
      decide_eq_true_eq]
    refine ⟨fun r' hr' => ?_, r, hr, hrid⟩
    change ¬ r'.sessionId = s.sessionId
    rw [hid]
    exact h.sessions r' hr' n hn
  have htokenRow : ((w.view ()).apply (.sessionInsert (sessionToRow s))).admits
      (.tokenInsert (refreshTokenToRow s.sessionId t)) = true := by
    simp only [Db.admits, Bool.and_eq_true, Bool.not_eq_true', List.any_eq_false, List.any_eq_true,
      decide_eq_true_eq, Bool.or_eq_true, not_or]
    refine ⟨fun r' hr' => ⟨?_, ?_⟩, sessionToRow s, List.mem_append_right _ List.mem_cons_self, rfl⟩
    · change ¬ r'.id = t.id
      rw [htoken]
      exact h.tokens r' hr' m hm
    · change ¬ r'.tokenHash = t.tokenHash.value
      rw [hhash]
      exact h.hashes r' hr' k hk
  rw [Insertable, addSessionWrites, hs, List.map_singleton, Db.admitsAll, hsession, Db.admitsAll,
    htokenRow]
  rfl

/-- A refresh token is made of what is drawn. -/
theorem newRefreshToken_ends (raw : String) :
    EndsIn env l (fun x w' => ∃ t, x = .ok t ∧ t.id = env.uuid4 w.rng ∧
        t.tokenHash = TokenHash.fromRaw env raw ∧ w'.view () = w.view ())
      (UserService.newRefreshToken env raw) w := by
  rw [UserService.newRefreshToken]
  refine ends_ask fun d₁ _ _ => ⟨(w.after d₁).clock, _, rfl, ?_⟩
  refine ends_ask fun d₂ _ _ => ⟨env.uuid4 w.rng, _, rfl, ?_⟩
  refine ends_ask fun d₃ _ _ => ⟨_, _, rfl, ?_⟩
  exact ⟨_, rfl, rfl, rfl, rfl⟩

/-- **A new session passes the constraints**, once it is built. -/
theorem buildSession_ends (h : Ready env w) (huser : ∃ r ∈ (w.view ()).users, r.id = u.id.value)
    (deviceInfo : DeviceInfo) :
    EndsIn env l (fun x w' => ∃ s raw, x = .ok (s, raw) ∧ Insertable w' s)
      (UserService.buildSession env u deviceInfo) w := by
  rw [UserService.buildSession]
  refine ends_ask fun d₁ _ _ => ⟨(w.after d₁).clock, _, rfl, ?_⟩
  refine ends_ask fun d₂ _ _ => ⟨env.uuid4 w.rng, _, rfl, ?_⟩
  refine ends_ask fun d₃ _ _ => ⟨env.tokenUrlsafe (w.rng + 1), _, rfl, ?_⟩
  refine (newRefreshToken_ends _).bind ?_ ?_
  · rintro t w' ⟨_, ⟨⟩, hid, hhash, hview⟩
    refine ⟨_, _, rfl, ?_⟩
    rw [Insertable, hview]
    exact h.insertable huser rfl le_rfl (Nat.le_add_right _ 2) (Nat.le_add_right _ 1) rfl hid
      (congrArg TokenHash.value hhash)
  · rintro e w' ⟨t, ⟨⟩, -⟩

/-- **An update of an account that was found** goes through, and leaves a world that is ready for a
new session. -/
theorem Held.update {v : User} {f : User → Act α} (h : Held env w u) (hid : v.id = u.id)
    (hver : v.version = u.version) (hname : v.username = u.username) (hmail : v.email = u.email)
    (hf : ∀ w', Ready env w' → (∃ r ∈ (w'.view ()).users, r.id = v.id.value) →
      EndsIn env l post (f { v with version := v.version + 1 }) w') :
    EndsIn env l post (UserRepo.update v >>= f) w := by
  refine ends_attempt.mpr (ends_ask fun _ _ _ => ?_)
  obtain ⟨row, hrow, hread⟩ := h.row
  refine ⟨_, _, exec_update_alone h.ready.users hrow hread hid hver hname hmail, ?_⟩
  obtain ⟨rid, -, rname, rmail, -⟩ := rowToUser_ok hread
  have hunique : ((w.view ()).apply
      (.userUpdate (userToValues env w.rng v (v.version + 1)))).UniqueUsers :=
    h.ready.users.update hrow ((congrArg UserID.value hid).trans rid)
      ((congrArg Username.value hname).trans rname) ((congrArg Email.value hmail).trans rmail)
  refine hf _ ⟨?_, ?_, ?_, ?_⟩ ?_
  · rw [view_issue_draw]
    exact hunique
  · rw [view_issue_draw]
    exact fun s hs n hn => h.ready.sessions s hs n ((Nat.le_succ _).trans hn)
  · rw [view_issue_draw]
    exact fun t ht n hn => h.ready.tokens t ht n ((Nat.le_succ _).trans hn)
  · rw [view_issue_draw]
    exact fun t ht n hn => h.ready.hashes t ht n ((Nat.le_succ _).trans hn)
  · rw [view_issue_draw]
    refine ⟨userToValues env w.rng v (v.version + 1), ?_, rfl⟩
    refine List.mem_map.mpr ⟨row, hrow, if_pos ?_⟩
    exact rid.symm.trans (congrArg UserID.value hid).symm

/-- The events of an aggregate are registered. -/
theorem ends_register {es : List Event} {f : Unit → Act α}
    (h : ∀ w', w'.view () = w.view () → w.rng ≤ w'.rng → EndsIn env l post (f ()) w') :
    EndsIn env l post (register es >>= f) w :=
  ends_ask fun _ _ _ => ⟨(), _, rfl, h _ (view_track _ _ _ _) le_rfl⟩

/-! ### The password -/

/-- What `authenticate` ends with: if there is a session, it can be stored. -/
def AuthEnd : Except AppError (Option User × Option SessionAggregate × Option String) →
    World Unit → Prop
  | .ok (some _, some s, _), w => Insertable w s
  | .ok _, _ => True
  | .error _, _ => False

/-- **An account that was found** is asked for its password, and nothing else goes wrong. -/
theorem authenticateUser_ends (h : Held env w u) (password : PlainPassword env)
    (deviceInfo : DeviceInfo) :
    EndsIn env l AuthEnd (UserService.authenticateUser env password u deviceInfo) w := by
  rw [UserService.authenticateUser]
  refine ends_ask fun d _ _ => ⟨(w.after d).clock, _, rfl, ?_⟩
  split
  · trivial
  · split
    · trivial
    · split
      · refine ends_ask fun d' _ _ => ⟨((w.after d).after d').clock, _, rfl, ?_⟩
        obtain ⟨hid, hver, hname, hmail, -⟩ := recordFailedLoginAttempt_keeps u
          ((w.after d).after d').clock UserService.maxFailedAttempts
          UserService.lockoutDurationMinutes
        refine ((h.after d).after d').update hid hver hname hmail fun w₁ _ _ => ?_
        exact ends_register fun _ _ _ => trivial
      · refine (h.after d).update rfl rfl rfl rfl fun w₁ hready huser => ?_
        refine ends_register fun w₂ hview hrng => ?_
        refine (buildSession_ends (hready.congr hview hrng) ?_ deviceInfo).bind ?_ ?_
        · rw [hview]
          exact huser
        · rintro _ w₃ ⟨s, raw, ⟨⟩, hs⟩
          exact hs
        · rintro e w₃ ⟨s, raw, ⟨⟩, -⟩

/-- A session that passes the constraints is stored, and its events registered. -/
theorem persistSession_ends {s : SessionAggregate} {f : Unit → Act α} (hs : Insertable w s)
    (h : ∀ w', EndsIn env l post (f ()) w') :
    EndsIn env l post (UserService.persistSession s >>= f) w := by
  rw [UserService.persistSession, Prog.bind_assoc]
  refine ends_attempt.mpr (ends_ask fun d _ _ => ⟨.ok (),
    (w.after d).issue () (addSessionWrites s), ?_, ?_⟩)
  · have hadmits : ((w.after d).view ()).admitsAll (addSessionWrites s) = true := hs
    change execWrites (w.after d) () (addSessionWrites s) .integrityError id () = _
    rw [execWrites, if_pos (free_alone _ _), if_pos hadmits]
    rfl
  · exact ends_register fun w' _ _ => h w'

end Sessions

/-! ### Signing in -/

/-- The errors that the form takes for refused credentials. -/
def AppError.refusesLogin : AppError → Bool
  | .invalidCredentials _ | .accountLocked _ | .tooManyLoginAttempts _ => true
  | _ => false

/-- What a login ends with that the form can answer: a login, or refused credentials. -/
def LoginEnd : Except AppError Response → World Unit → Prop
  | .ok (.loggedIn _), _ => True
  | .ok _, _ => False
  | .error e, _ => e.refusesLogin = true

section Login

variable {env : Env} {l : Limiters} {w : World Unit} {u : User}

theorem refuseLogin_ends (u : User) (w : World Unit) :
    EndsIn env l LoginEnd (refuseLogin u) w := by
  rw [refuseLogin]
  refine ends_commit fun d => ends_ask fun d' _ _ => ⟨(w.after d).clock + d', _, rfl, ?_⟩
  cases u.isLocked ((w.after d).clock + d') <;> rfl

theorem challengeLogin_ends (data : LoginInput) (u : User) (deviceInfo : DeviceInfo)
    (w : World Unit) : EndsIn env l LoginEnd (challengeLogin env data u deviceInfo) w := by
  rw [challengeLogin, ChallengeStore.issue]
  refine ends_commit fun d => ?_
  rw [Prog.bind_assoc]
  refine ends_ask fun _ _ _ => ⟨_, _, rfl, ?_⟩
  rw [Prog.bind_assoc]
  exact ends_ask fun _ _ _ => ⟨_, _, rfl, trivial⟩

theorem grantLogin_ends {s : SessionAggregate} (hs : Insertable w s) (u : User)
    (refreshToken : Option String) : EndsIn env l LoginEnd (grantLogin env u s refreshToken) w := by
  rw [grantLogin]
  exact persistSession_ends hs fun _ => ends_commit fun _ => trivial

end Login

/-! ### Values that are refused -/

/-- The errors of a value object or of a stored row. -/
def AppError.isFault : AppError → Bool
  | .secretDecryption | .emptyUsername _ | .tooLongUsername _ | .wrongUsernameFormat _
  | .emptyEmail _ | .invalidEmailFormat _ | .emptyPassword _ | .passwordTooShort _
  | .passwordTooLong _ | .passwordTooWeak _ | .wrongUserID _ | .wrongTokenHash | .valueError _ =>
      true
  | _ => false

/-- Every error of the computation is a fault. -/
def Faults {α : Type} (x : Except AppError α) : Prop := ∀ e, x = .error e → e.isFault = true

section Faults

variable {α β : Type}

theorem Faults.ok (a : α) : Faults (.ok a : Except AppError α) := by
  rintro e ⟨⟩

theorem Faults.error {e : AppError} (h : e.isFault = true) :
    Faults (.error e : Except AppError α) := by
  rintro e' ⟨⟩
  exact h

theorem Faults.bind {x : Except AppError α} {f : α → Except AppError β} (hx : Faults x)
    (hf : ∀ a, Faults (f a)) : Faults (x >>= f) := by
  cases x with
  | ok a => exact hf a
  | error e => exact .error (hx e rfl)

theorem Faults.map {x : Except AppError α} (hx : Faults x) (f : α → β) : Faults (x.map f) := by
  cases x with
  | ok a => exact .ok (f a)
  | error e => exact .error (hx e rfl)

theorem PlainPassword.validate_faults (env : Env) (s : String) :
    Faults (PlainPassword.validate env s) := by
  rw [PlainPassword.validate]
  repeat' split
  all_goals first | exact .error rfl | exact .ok ()

theorem Username.validate_faults (s : String) : Faults (Username.validate s) := by
  rw [Username.validate]
  repeat' split
  all_goals first | exact .error rfl | exact .ok ()

theorem Email.validate_faults (s : Option String) : Faults (Email.validate s) := by
  rw [Email.validate.eq_def]
  repeat' split
  all_goals first | exact .error rfl | exact .ok ()

theorem hashColumn_faults (column : Option Bytes) : Faults (hashColumn column) := by
  rw [hashColumn.eq_def]
  split
  · exact .ok none
  · exact .ok none
  · rename_i b bs
    rw [TokenHash.make, dif_pos (List.cons_ne_nil b bs)]
    exact .ok _

theorem TokenHash.make_faults (b : Bytes) : Faults (TokenHash.make b) := by
  rw [TokenHash.make]
  split
  · exact .ok _
  · exact .error rfl

theorem UserID.make_faults (u : Uuid) : Faults (UserID.make u) := by
  rw [UserID.make]
  split
  · exact .ok _
  · exact .error rfl

theorem HashedPassword.make_faults (b : Bytes) : Faults (HashedPassword.make b) := by
  rw [HashedPassword.make]
  split
  · exact .ok _
  · exact .error rfl

theorem Username.make_faults (s : String) : Faults (Username.make s) := by
  rw [Username.make]
  split
  · exact .ok _
  · rename_i e h
    exact .error (validate_faults s e h)

theorem Email.make_faults (s : Option String) : Faults (Email.make s) := by
  rw [Email.make]
  split
  · exact .ok _
  · rename_i e h
    exact .error (validate_faults s e h)

theorem PlainPassword.make_faults (env : Env) (s : String) : Faults (make env s) := by
  rw [make]
  split
  · exact .ok _
  · rename_i e h
    exact .error (validate_faults env s e h)

theorem backupCodesColumn_faults (codes : List String) : Faults (backupCodesColumn codes) := by
  induction codes with
  | nil => exact .ok []
  | cons code codes ih =>
      rw [backupCodesColumn]
      cases fromHex code with
      | none => exact .error rfl
      | some b =>
          refine .bind (.ok b) fun b => .bind (TokenHash.make_faults b) fun h => ?_
          exact ih.bind fun hs => .ok _

theorem twoFactorColumn_faults (env : Env) (row : UserRow) : Faults (twoFactorColumn env row) := by
  rw [twoFactorColumn.eq_def]
  split
  · exact .ok none
  · exact .ok none
  · rename_i b bs _
    cases env.decrypt (b :: bs) with
    | none => exact .error rfl
    | some s => exact .bind (.ok s) fun s => (backupCodesColumn_faults _).bind fun hs => .ok _

/-- **A row that does not load** holds a value that is refused, or a secret that is not
decrypted. -/
theorem rowToUser_faults (env : Env) (row : UserRow) : Faults (rowToUser env row) := by
  rw [rowToUser]
  refine .bind ((hashColumn_faults _).bind fun h => .ok _) fun _ => ?_
  refine (twoFactorColumn_faults env row).bind fun _ => ?_
  refine (UserID.make_faults _).bind fun _ => ?_
  refine (Username.make_faults _).bind fun _ => ?_
  refine (Email.make_faults _).bind fun _ => ?_
  refine (HashedPassword.make_faults _).bind fun _ => ?_
  exact (hashColumn_faults _).bind fun _ => .ok _

end Faults

/-! ### The login -/

section Login

variable {env : Env} {l : Limiters} {α : Type} {w : World Unit} {data : LoginInput} {q : UserQuery}

/-- The limiters let a login pass that counts against a bucket. -/
def Limiters.Passes (l : Limiters) (key : Option String) : Prop :=
  ∀ k, key = some k → l.login.allowed = true ∧ l.locked = false

/-- The row that a query finds can be loaded. -/
def Db.LoadsFound (env : Env) (db : Db) (q : UserQuery) : Prop :=
  ∀ row, db.users.find? q.selects = some row → ∃ u, rowToUser env row = .ok u

/-- **The credentials are taken**, right or wrong: they pass the checks of new ones, and the row of
the account loads. -/
structure CredentialsTaken (env : Env) (db : Db) (username password : String) : Prop where
  validPassword : PlainPassword.validate env password = .ok ()
  validUsername : Username.validate username = .ok ()
  loads : db.LoadsFound env (.username username)

theorem checkLoginLimits_ends {key : Option String} {f : Unit → Act Response}
    (h : l.Passes key → ∀ d, EndsIn env l LoginEnd (f ()) (w.after d)) :
    EndsIn env l LoginEnd (checkLoginLimits key >>= f) w := by
  cases key with
  | none =>
      have hnow := h (by rintro k ⟨⟩) 0
      rwa [show w.after 0 = w by simp [World.after]] at hnow
  | some k =>
      rw [checkLoginLimits, checkRateLimit, Prog.bind_assoc, Prog.bind_assoc]
      refine ends_ask fun d ch hch => ⟨ch.limit, w.after d, rfl, ?_⟩
      rw [hch.login]
      split
      · rename_i hallowed
        refine ends_ask fun d' ch' hch' => ⟨ch'.locked, (w.after d).after d', rfl, ?_⟩
        rw [hch'.locked, after_after]
        cases hlocked : l.locked with
        | true => rfl
        | false => exact h (fun _ _ => ⟨hallowed, hlocked⟩) (d + d')
      · exact ends_ask fun _ _ _ => ⟨_, _, rfl, rfl⟩

theorem recordFailedLogin_ends {key : Option String} {f : Unit → Act Response}
    (h : ∀ w', EndsIn env l LoginEnd (f ()) w') :
    EndsIn env l LoginEnd (recordFailedLogin key >>= f) w := by
  cases key with
  | none => exact h w
  | some k =>
      rw [recordFailedLogin, Prog.bind_assoc]
      exact ends_ask fun _ _ _ => ⟨_, _, rfl, h _⟩

theorem resetLoginAttempts_ends {key : Option String} {f : Unit → Act Response}
    (h : ∀ w', w'.view () = w.view () → EndsIn env l LoginEnd (f ()) w') :
    EndsIn env l LoginEnd (resetLoginAttempts key >>= f) w := by
  cases key with
  | none => exact h w rfl
  | some k => exact ends_ask fun _ _ _ => ⟨(), _, rfl, h _ rfl⟩

/-- Looking an account up whose row loads. -/
theorem acquire_ends {f : Option User → Act α} {post : Except AppError α → World Unit → Prop}
    (hw : Ready env w) (hloads : (w.view ()).LoadsFound env q)
    (hnone : ∀ d, EndsIn env l post (f none) (w.after d))
    (hsome : ∀ d u, Held env (w.after d) u → EndsIn env l post (f (some u)) (w.after d)) :
    EndsIn env l post (UserRepo.acquire q >>= f) w := by
  refine ends_attempt.mpr (ends_ask fun d _ _ => ⟨_, _, rfl, ?_⟩)
  change EndsIn env l post (Prog.ofExcept ((w.view ()).acquireUser env q) >>= f) _
  rw [Db.acquireUser]
  cases hfind : (w.view ()).users.find? q.selects with
  | none => exact hnone d
  | some row =>
      obtain ⟨u, hu⟩ := hloads row hfind
      simp only [hu]
      exact hsome d u ⟨hw.after d, row, List.mem_of_find?_eq_some hfind, hu⟩

/-- **`authenticate`**, when the credentials are taken. -/
theorem authenticate_ends (hw : Ready env w) {username : String} (hne : username ≠ "")
    (hname : Username.validate username = .ok ())
    (hloads : (w.view ()).LoadsFound env (.username username)) (password : PlainPassword env)
    (email : Option String) (deviceInfo : DeviceInfo) :
    EndsIn env l AuthEnd
      (UserService.authenticate env password (some username) email deviceInfo) w := by
  have htruthy : truthy (some username) = true := by simp [truthy, hne]
  rw [UserService.authenticate, htruthy]
  simp only [Bool.not_true, Bool.false_and, Bool.false_eq_true, if_false, if_true,
    Option.getD_some]
  rw [Username.make_value ⟨username, hname⟩]
  refine acquire_ends hw hloads (fun d => trivial) fun d u hu => ?_
  exact authenticateUser_ends hu password deviceInfo

/-- **The login**, when the credentials are taken by the time they are looked at. -/
theorem login_ends (hw : Ready env w) {username : String} (hname : data.username = some username)
    (hne : username ≠ "")
    (h : l.Passes (attemptKey env data) →
      CredentialsTaken env (w.view ()) username data.password) :
    EndsIn env l LoginEnd (login env data) w := by
  rw [login]
  refine checkLoginLimits_ends fun hpass d => ?_
  obtain ⟨hvalid, hvalidName, hloads⟩ := h hpass
  rw [PlainPassword.make_value ⟨data.password, hvalid⟩, hname]
  refine (authenticate_ends (hw.after d) hne hvalidName hloads _ _ _).bind ?_ ?_
  · rintro ⟨u, s, refreshToken⟩ w' hend
    cases u with
    | none => exact recordFailedLogin_ends fun _ => rfl
    | some u =>
        cases s with
        | none => exact recordFailedLogin_ends fun _ => refuseLogin_ends u _
        | some s =>
            refine resetLoginAttempts_ends fun w₁ hview => ?_
            split
            · exact challengeLogin_ends data u _ w₁
            · refine grantLogin_ends ?_ u refreshToken
              rw [Insertable, hview]
              exact hend
  · rintro e w' ⟨⟩

end Login

/-! ### The second factor -/

/-- What the completion of a second factor ends with that the form can answer: a login, or a
refused challenge. -/
def TwoFactorEnd : Except AppError Response → World Unit → Prop
  | .ok (.completed _), _ => True
  | .ok _, _ => False
  | .error e, _ => e = .twoFactorChallengeExpired

/-- **The challenge is taken**: if one is pending, it names an account id, and the row of that
account loads. -/
def ChallengeTaken (env : Env) (w : World Unit) (token : String) : Prop :=
  ∀ raw ∈ (w.cache.get w.clock (ChallengeStore.key token)).1, ∀ stored ∈ env.validateJson raw,
    stored.userId ≠ nilUuid ∧ (w.view ()).LoadsFound env (.id stored.userId)

section TwoFactor

variable {env : Env} {l : Limiters} {w : World Unit} {u : User} {token code : String}

theorem Held.userRow (h : Held env w u) : ∃ r ∈ (w.view ()).users, r.id = u.id.value := by
  obtain ⟨row, hrow, hread⟩ := h.row
  exact ⟨row, hrow, (rowToUser_ok hread).1.symm⟩

/-- Reading a challenge. What is still pending a while later was pending before. -/
theorem read_ends {f : TwoFactorChallenge → Act Response}
    (h : ∀ raw ∈ (w.cache.get w.clock (ChallengeStore.key token)).1,
      ∀ stored ∈ env.validateJson raw, ∀ w', w'.view () = w.view () → w.rng ≤ w'.rng →
        EndsIn env l TwoFactorEnd (f stored.toChallenge) w') :
    EndsIn env l TwoFactorEnd (ChallengeStore.read env token >>= f) w := by
  rw [ChallengeStore.read, Prog.bind_assoc]
  refine ends_ask fun d _ _ => ⟨_, _, rfl, ?_⟩
  cases hget : ((w.after d).cache.get (w.after d).clock (ChallengeStore.key token)).1 with
  | none => rfl
  | some raw =>
      have hnow : (w.cache.get w.clock (ChallengeStore.key token)).1 = some raw := by
        obtain ⟨e, he, halive⟩ := InMemoryCache.get_eq_some.mp hget
        exact InMemoryCache.get_eq_some.mpr ⟨e, he, halive.earlier (clock_le_after w d)⟩
      cases hjson : env.validateJson raw with
      | none =>
          simp only [hjson]
          exact ends_ask fun _ _ _ => ⟨(), _, rfl, rfl⟩
      | some stored =>
          simp only [hjson]
          exact h raw hnow stored hjson _ rfl le_rfl

theorem dropChallenge_ends : EndsIn env l TwoFactorEnd (dropChallenge token) w := by
  rw [dropChallenge, ChallengeStore.discard]
  exact ends_ask fun _ _ _ => ⟨(), _, rfl, rfl⟩

/-- A failed attempt is refused, whether or not it is the last one. -/
theorem refuseTwoFactor_ends (challenge : TwoFactorChallenge) :
    EndsIn env l TwoFactorEnd (refuseTwoFactor env token challenge) w := by
  rw [refuseTwoFactor, ChallengeStore.recordFailure]
  split
  · rw [ChallengeStore.discard, Prog.bind_assoc]
    exact ends_ask fun _ _ _ => ⟨(), _, rfl, rfl⟩
  · rw [ChallengeStore.put]
    exact ends_ask fun _ _ _ => ⟨(), _, rfl, rfl⟩

/-- An account that consumed a recovery code is written back. -/
theorem persistConsumed_ends {f : User → Act Response} (hu : Held env w u)
    {s : Option TwoFactorSecret}
    (h : ∀ v w', Ready env w' → (∃ r ∈ (w'.view ()).users, r.id = v.id.value) →
      EndsIn env l TwoFactorEnd (f v) w') :
    EndsIn env l TwoFactorEnd (persistConsumed u { u with twoFactorSecret := s } >>= f) w := by
  rw [persistConsumed]
  split
  · rw [Prog.bind_assoc]
    refine hu.update rfl rfl rfl rfl fun w₁ hready huser => ?_
    rw [Prog.bind_assoc]
    refine ends_register fun w₂ hview hrng => ?_
    refine h _ w₂ (hready.congr hview hrng) ?_
    rw [hview]
    exact huser
  · exact h _ w hu.ready hu.userRow

/-- A session for a stored account is started, a while after the account was looked at. -/
theorem startSession_ends {f : SessionAggregate × String → Act Response} {w₀ : World Unit}
    (hw : Ready env w₀) (huser : ∃ r ∈ (w₀.view ()).users, r.id = u.id.value)
    (hview : w.view () = w₀.view ()) (hrng : w₀.rng ≤ w.rng) (deviceInfo : DeviceInfo)
    (h : ∀ built w', EndsIn env l TwoFactorEnd (f built) w') :
    EndsIn env l TwoFactorEnd (UserService.startSession env u deviceInfo >>= f) w := by
  rw [UserService.startSession, Prog.bind_assoc]
  rw [← hview] at huser
  refine (buildSession_ends (hw.congr hview hrng) huser deviceInfo).bind ?_ ?_
  · rintro _ w' ⟨s, raw, ⟨⟩, hs⟩
    rw [Prog.bind_assoc]
    exact persistSession_ends hs fun w'' => h _ w''
  · rintro e w' ⟨s, raw, ⟨⟩, -⟩

theorem grantTwoFactor_ends (challenge : TwoFactorChallenge) (hu : Held env w u)
    (s : Option TwoFactorSecret) :
    EndsIn env l TwoFactorEnd
      (grantTwoFactor env token code challenge u { u with twoFactorSecret := s }) w := by
  rw [grantTwoFactor]
  refine persistConsumed_ends hu fun v w₁ hready huser => ?_
  rw [UsedCodes.remember, ChallengeStore.discard]
  refine ends_ask fun _ _ _ => ⟨(), _, rfl, ?_⟩
  refine ends_ask fun _ _ _ => ⟨(), _, rfl, ?_⟩
  refine startSession_ends hready huser ?_ ?_ _ fun _ _ => ends_commit fun _ => trivial
  · rfl
  · exact le_rfl

/-- The registry answers, and nothing in the tables changes. -/
theorem wasUsed_ends {f : Bool → Act Response} {userId : Uuid}
    (h : ∀ b w', w'.view () = w.view () → w.rng ≤ w'.rng → EndsIn env l TwoFactorEnd (f b) w') :
    EndsIn env l TwoFactorEnd (UsedCodes.wasUsed env userId code >>= f) w :=
  ends_ask fun _ _ _ => ⟨_, _, rfl, h _ _ rfl le_rfl⟩

theorem checkTwoFactor_ends (challenge : TwoFactorChallenge) (hu : Held env w u) :
    EndsIn env l TwoFactorEnd (checkTwoFactor env token code challenge u) w := by
  rw [checkTwoFactor]
  refine wasUsed_ends fun b w₁ hview hrng => ?_
  split
  · exact refuseTwoFactor_ends challenge
  · refine ends_ask fun d _ _ =>
      ⟨u.verifyTwoFactor env (w₁.after d).clock code, w₁.after d, rfl, ?_⟩
    obtain ⟨s, hs⟩ := u.verifyTwoFactor_eq env (w₁.after d).clock code
    split
    · exact refuseTwoFactor_ends challenge
    · rw [hs]
      refine grantTwoFactor_ends challenge (Held.after ⟨hu.ready.congr hview hrng, ?_⟩ d) s
      rw [hview]
      exact hu.row

/-- An account that is found is asked for its code, unless it cannot sign in. -/
theorem findAccount_ends (challenge : TwoFactorChallenge) (hu : Held env w u) :
    EndsIn env l TwoFactorEnd (if u.isDeleted then dropChallenge token else do
      let at_ ← now
      if u.isLocked at_ then dropChallenge token
      else checkTwoFactor env token code challenge u) w := by
  split
  · exact dropChallenge_ends
  · refine ends_ask fun d _ _ => ⟨(w.after d).clock, _, rfl, ?_⟩
    split
    · exact dropChallenge_ends
    · exact checkTwoFactor_ends challenge (hu.after d)

/-- **The completion of a second factor**, when the challenge is taken. -/
theorem completeTwoFactor_ends (hw : Ready env w) (h : ChallengeTaken env w token) :
    EndsIn env l TwoFactorEnd (completeTwoFactor env token code) w := by
  rw [completeTwoFactor]
  refine read_ends fun raw hraw stored hstored w₁ hview hrng => ?_
  obtain ⟨hne, hloads⟩ := h raw hraw stored hstored
  rw [UserID.make, dif_pos (show stored.toChallenge.userId ≠ nilUuid from hne)]
  rw [← hview] at hloads
  refine acquire_ends (hw.congr hview hrng) hloads (fun _ => dropChallenge_ends) fun d u hu => ?_
  exact findAccount_ends _ hu

end TwoFactor

/-! ### Errors that are not answered -/

section Escapes

variable {env : Env} {l : Limiters} {α β : Type} {post : Except AppError α → World Unit → Prop}
  {w : World Unit}

/-- A program that never ends with a fault goes on past a computation. -/
theorem EndsIn.of_faults {x : Except AppError β} {f : β → Act α}
    (h : EndsIn env l post (Prog.ofExcept x >>= f) w) (hx : Faults x)
    (hpost : ∀ e w', post (.error e) w' → e.isFault = false) :
    ∃ b, x = .ok b ∧ EndsIn env l post (f b) w := by
  cases x with
  | ok b => exact ⟨b, rfl, h⟩
  | error e => cases (hx e rfl).symm.trans (hpost e w h)

theorem Db.acquireUser_faults (db : Db) (q : UserQuery) : Faults (db.acquireUser env q) := by
  rw [Db.acquireUser]
  split
  · exact .ok none
  · exact (rowToUser_faults env _).map some

/-- A program that never ends with a fault loads the row that it looks up. -/
theorem EndsIn.loads {q : UserQuery} {f : Option User → Act α}
    (h : EndsIn env l post (UserRepo.acquire q >>= f) w)
    (hpost : ∀ e w', post (.error e) w' → e.isFault = false) : (w.view ()).LoadsFound env q := by
  obtain ⟨ch, hch⟩ := l.exists_answer
  have hread := (ends_attempt.mp h).of_ask hch rfl
  obtain ⟨r, hr, -⟩ := EndsIn.of_faults hread (Db.acquireUser_faults _ q) hpost
  intro row hrow
  change (w.view ()).acquireUser env q = .ok r at hr
  rw [Db.acquireUser, hrow] at hr
  cases hu : rowToUser env row with
  | ok u => exact ⟨u, rfl⟩
  | error e =>
      simp only [hu] at hr
      cases hr

/-- The limiters let the login pass. -/
theorem EndsIn.passed {key : Option String} {f : Unit → Act α}
    (h : EndsIn env l post (checkLoginLimits key >>= f) w) (hpass : l.Passes key) :
    EndsIn env l post (f ()) w := by
  cases key with
  | none => exact h
  | some k =>
      obtain ⟨hallowed, hlocked⟩ := hpass k rfl
      obtain ⟨ch, hch⟩ := l.exists_answer
      rw [checkLoginLimits, checkRateLimit, Prog.bind_assoc, Prog.bind_assoc] at h
      have hlimit := h.of_ask hch rfl
      rw [hch.login, hallowed] at hlimit
      have hnext := EndsUnder.of_ask (o := .loginIsLocked k) hlimit hch rfl
      rw [hch.locked, hlocked] at hnext
      exact hnext

/-- **A login that never ends with a fault** takes the credentials, unless a limiter stops it. -/
theorem EndsIn.credentialsTaken {post : Except AppError Response → World Unit → Prop}
    {data : LoginInput} {username : String}
    (h : EndsIn env l post (login env data) w)
    (hpost : ∀ e w', post (.error e) w' → e.isFault = false)
    (hname : data.username = some username) (hne : username ≠ "")
    (hpass : l.Passes (attemptKey env data)) :
    CredentialsTaken env (w.view ()) username data.password := by
  rw [login] at h
  obtain ⟨password, hpassword, hauth⟩ :=
    (h.passed hpass).of_faults (PlainPassword.make_faults env data.password) hpost
  have htruthy : truthy (some username) = true := by simp [truthy, hne]
  rw [UserService.authenticate, hname, htruthy] at hauth
  simp only [Bool.not_true, Bool.false_and, Bool.false_eq_true, if_false, if_true,
    Option.getD_some] at hauth
  rw [Prog.bind_assoc] at hauth
  obtain ⟨name, hmake, hfind⟩ := hauth.of_faults (Username.make_faults username) hpost
  have hvalid := password.valid
  rw [PlainPassword.make_ok hpassword] at hvalid
  have hvalidName := name.valid
  have hvalue := Username.make_ok hmake
  rw [hvalue] at hvalidName
  rw [Prog.bind_assoc, UserRepo.acquireByUsername, hvalue] at hfind
  exact ⟨hvalid, hvalidName, hfind.loads hpost⟩

/-- **A completion that never ends with a fault** takes the challenge. -/
theorem EndsIn.challengeTaken {post : Except AppError Response → World Unit → Prop}
    {token code : String} (h : EndsIn env l post (completeTwoFactor env token code) w)
    (hpost : ∀ e w', post (.error e) w' → e.isFault = false) : ChallengeTaken env w token := by
  intro raw hraw stored hstored
  obtain ⟨ch, hch⟩ := l.exists_answer
  rw [completeTwoFactor, ChallengeStore.read, Prog.bind_assoc] at h
  have hread := h.of_ask hch rfl
  rw [Option.mem_def.mp hraw] at hread
  simp only [Option.mem_def.mp hstored] at hread
  obtain ⟨id, hid, hfind⟩ := EndsIn.of_faults hread (UserID.make_faults stored.userId) hpost
  have hvalue := UserID.make_ok hid
  have hne := id.ne_nil
  rw [hvalue] at hne
  rw [UserRepo.acquireById, hvalue] at hfind
  exact ⟨hne, hfind.loads hpost⟩

end Escapes

end BackendTemplate
