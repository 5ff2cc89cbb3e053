import BackendTemplate.AccountLock
import BackendTemplate.Consistency
import BackendTemplate.Deletion

/-!
# The Hydra Login Bridge

Hydra sends a browser that has to sign in to `HydraBridgeController`, which answers with a
page or accepts Hydra's login request for a subject. It accepts on three paths: a login that
Hydra remembers (`skip`), a password, and a second factor. The last two go through the use
cases, which check the account; the first asks nobody.

A handler either answers at once or runs one use case and answers from its result
(`Handler`). `Handles` is what a request to the bridge can come to, in any stored state.

## Main results

* `Runs.current_users` — the users a request has read are still so until it commits.
* `Runs.session_vouches` — when a request that runs alone has committed a session, the account
  is live.
* `bridge_vouches_iff` — the bridge vouches for live accounts only, exactly when a remembered
  login names one.
-/

namespace BackendTemplate

open Atomic

/-! ### The controller -/

/-- `ACR_TWO_FACTOR`. -/
def acrTwoFactor : String := "urn:acr:2fa"

/-- `LoginFormData`. -/
structure LoginFormData where
  loginChallenge : String
  username : Option String := none
  password : Option String := none
  twoFactorCode : Option String := none
  pendingToken : Option String := none

/-- `HydraLoginRequest`, as far as the bridge reads it. -/
structure HydraLoginRequest where
  skip : Bool := false
  subject : Option String := none

/-- `HydraConfig`, as far as the bridge reads it. -/
structure HydraConfig where
  loginRememberSeconds : ℤ := 3600

/-- The errors of `HydraAdminClient`. -/
inductive HydraAdminError
  | challengeNotFound (message : String)
  | challengeGone (message : String)
  | admin (statusCode : ℕ) (message : String)
deriving DecidableEq

/-- The context of `login.html`. -/
structure LoginTemplate where
  loginChallenge : String
  error : String := ""
  requiresTwoFactor : Bool := false
  pendingToken : String := ""
deriving DecidableEq

/-- The arguments of `accept_login_request`. -/
structure AcceptLogin where
  loginChallenge : String
  subject : String
  remember : Bool := false
  rememberFor : ℤ := 0
  acr : Option String := none
  amr : Option (List String) := none
  context : List (String × Option String)
deriving DecidableEq

/-- What a handler raises. -/
inductive BridgeError
  | http (statusCode : ℕ) (detail : String)
  | hydra (e : HydraAdminError)
  | app (e : AppError)
deriving DecidableEq

/-- How a handler ends: with a page, by accepting the login request, or with an error. -/
inductive BridgeAnswer
  | template (t : LoginTemplate)
  | accept (a : AcceptLogin)
  | raises (e : BridgeError)
deriving DecidableEq

/-- **A handler**: it answers at once, or runs one use case and answers from its result. The
answer is `none` for what the use case does not return. -/
inductive Handler
  | answer (a : BridgeAnswer)
  | call (r : Request) (andThen : Except AppError Response → Option BridgeAnswer)

/-- A request to the bridge, with what Hydra and the rate limiter answer on the way. -/
inductive BridgeRequest
  | loginForm (loginChallenge : String) (loginRequest : Except HydraAdminError HydraLoginRequest)
  | loginSubmit (data : LoginFormData) (clientHost : String) (userAgent : Option String)
      (limit : RateLimitResult)

/-- `HydraBridgeController.login_form`. -/
def HydraBridge.loginForm (loginChallenge : String) :
    Except HydraAdminError HydraLoginRequest → BridgeAnswer
  | .error (.challengeNotFound _) => .raises (.http 400 "Unknown or expired login request")
  | .error e => .raises (.hydra e)
  | .ok loginRequest =>
      if loginRequest.skip && truthy loginRequest.subject then
        let subject := loginRequest.subject.getD ""
        .accept
          { loginChallenge := loginChallenge
            subject := subject
            context := [("user_id", some subject)] }
      else .template { loginChallenge := loginChallenge }

/-- The end of `login_submit`, from what `LoginUseCase` returns. -/
def HydraBridge.afterLogin (env : Env) (config : HydraConfig) (data : LoginFormData) :
    Except AppError Response → Option BridgeAnswer
  | .error e => some <| match e with
      | .invalidCredentials message => .template
          { loginChallenge := data.loginChallenge
            error := if truthy message then message.getD "" else "Invalid username/email or password" }
      | .accountLocked _ => .template
          { loginChallenge := data.loginChallenge
            error := "Account is locked due to too many failed login attempts" }
      | .tooManyLoginAttempts _ => .template
          { loginChallenge := data.loginChallenge
            error := "Too many login attempts, try again later" }
      | e => .raises (.app e)
  | .ok (.loggedIn result) => some <|
      if result.requiresTwoFactor then
        .template
          { loginChallenge := data.loginChallenge
            requiresTwoFactor := true
            pendingToken := result.challengeToken.getD "" }
      else
        .accept
          { loginChallenge := data.loginChallenge
            subject := env.uuidStr result.userId
            remember := true
            rememberFor := config.loginRememberSeconds
            amr := some ["pwd"]
            context := [("user_id", some (env.uuidStr result.userId)),
              ("session_id", result.sessionId)] }
  | .ok _ => none

/-- The end of `_submit_two_factor`, from what `CompleteTwoFactorUseCase` returns. -/
def HydraBridge.afterTwoFactor (env : Env) (config : HydraConfig) (data : LoginFormData) :
    Except AppError Response → Option BridgeAnswer
  | .error .twoFactorChallengeExpired => some <| .template
      { loginChallenge := data.loginChallenge
        error := "Invalid code, or the challenge expired. Please sign in again." }
  | .error e => some <| .raises (.app e)
  | .ok (.completed result) => some <| .accept
      { loginChallenge :=
          if truthy result.loginChallenge then result.loginChallenge.getD ""
          else data.loginChallenge
        subject := env.uuidStr result.userId
        remember := true
        rememberFor := config.loginRememberSeconds
        acr := some acrTwoFactor
        amr := some ["pwd", "otp"]
        context := [("user_id", some (env.uuidStr result.userId)),
          ("session_id", some result.sessionId)] }
  | .ok _ => none

/-- `HydraBridgeController._submit_two_factor`. The rate limiter is asked about
`2fa:<client host>`. -/
def HydraBridge.submitTwoFactor (env : Env) (config : HydraConfig) (data : LoginFormData)
    (limit : RateLimitResult) : Handler :=
  let pendingToken := data.pendingToken.getD ""
  if !limit.allowed then
    .answer (.template
      { loginChallenge := data.loginChallenge
        error := "Too many attempts, try again later"
        requiresTwoFactor := true
        pendingToken := pendingToken })
  else if !truthy data.twoFactorCode then
    .answer (.template
      { loginChallenge := data.loginChallenge
        error := "Two-factor code is required"
        requiresTwoFactor := true
        pendingToken := pendingToken })
  else
    .call (.completeTwoFactor pendingToken (data.twoFactorCode.getD ""))
      (afterTwoFactor env config data)

/-- `HydraBridgeController.login_submit`. -/
def HydraBridge.loginSubmit (env : Env) (config : HydraConfig) (data : LoginFormData) (clientHost : String)
    (userAgent : Option String) (limit : RateLimitResult) : Handler :=
  if truthy data.pendingToken then submitTwoFactor env config data limit
  else if !truthy data.username || !truthy data.password then
    .answer (.template
      { loginChallenge := data.loginChallenge, error := "Username and password are required" })
  else
    .call (.login
        { username := data.username
          password := data.password.getD ""
          ipAddress := some clientHost
          userAgent := userAgent
          loginChallenge := some data.loginChallenge })
      (afterLogin env config data)

/-- **The handler of a request to the bridge.** -/
def BridgeRequest.handler (env : Env) (config : HydraConfig) : BridgeRequest → Handler
  | .loginForm loginChallenge loginRequest => .answer (HydraBridge.loginForm loginChallenge loginRequest)
  | .loginSubmit data clientHost userAgent limit =>
      HydraBridge.loginSubmit env config data clientHost userAgent limit

/-- The subject of a login that Hydra remembers. -/
def BridgeRequest.remembered : BridgeRequest → Option String
  | .loginForm _ (.ok q) => if q.skip && truthy q.subject then q.subject else none
  | _ => none

/-- **What handling a request comes to** in a stored state: the world in which the handler
gives its answer, and the answer. The use case runs alone. -/
inductive Handles (env : Env) (config : HydraConfig) (w : World Unit) (b : BridgeRequest) :
    World Unit → BridgeAnswer → Prop
  | answers {a : BridgeAnswer} (h : b.handler env config = .answer a) : Handles env config w b w a
  | calls {r : Request} {andThen : Except AppError Response → Option BridgeAnswer}
      {c : Cfg Unit} {x : Except AppError Response} {a : BridgeAnswer}
      (h : b.handler env config = .call r andThen)
      (hr : Runs env (fun _ => r) Machine.anyStep w c) (hx : c.threads () = .done x)
      (ha : andThen x = some a) : Handles env config w b c.shared a

/-! ### Live accounts -/

/-- The account exists, is not deleted and is not locked out. -/
def Db.Live (db : Db) (now : Instant) (x : Uuid) : Prop :=
  ∃ row ∈ db.user x, row.deletedAt = none ∧ row.accountLock.isLockedOut now = false

instance (db : Db) (now : Instant) (x : Uuid) : Decidable (db.Live now x) :=
  inferInstanceAs (Decidable (∃ row ∈ db.user x, _))

/-- The subject names a live account. -/
def LiveAccount (env : Env) (w : World Unit) (subject : String) : Prop :=
  ∃ x ∈ env.parseUuid subject, w.db.Live w.clock x

instance (env : Env) (w : World Unit) (subject : String) : Decidable (LiveAccount env w subject) :=
  inferInstanceAs (Decidable (∃ x ∈ env.parseUuid subject, _))

theorem Db.Live.mono {db : Db} {t t' : Instant} {x : Uuid} (hle : t ≤ t') (h : db.Live t x) :
    db.Live t' x := by
  obtain ⟨row, hrow, hdel, hlock⟩ := h
  exact ⟨row, hrow, hdel, AccountLockInfo.isLockedOut_mono hle hlock⟩

/-- **What a request that is granted a session makes of the account**: it does not lock it. -/
theorem Granted.computes_unlocked {env : Env} {r : Request} {p : Progress} {s : SessionAggregate}
    (h : Granted env r p s) {u₀ u : User} (hw : p.userWrite = some u) (hc : Computes env r u₀ u)
    {t : Instant} (hlock : u₀.isLocked t = false) : u.isLocked t = false := by
  cases r with
  | login data =>
      obtain ⟨v, hv, ⟨v₀, -, -, -, -, rfl⟩, -⟩ := h
      obtain rfl := Option.some.inj (hw.symm.trans hv)
      rfl
  | completeTwoFactor token code =>
      cases hc with
      | completeConsumes now hv =>
          obtain ⟨f, hf⟩ := u₀.verifyTwoFactor_eq env now code
          rw [hv] at hf
          obtain rfl : u = { u₀ with twoFactorSecret := f } := hf
          exact hlock
  | _ => exact h.elim

theorem Granted.not_deletes {env : Env} {r : Request} {p : Progress} {s : SessionAggregate}
    (h : Granted env r p s) (userId : Uuid) : r ≠ .deleteMe userId := by
  rintro rfl
  exact h

/-! ### Requests that run alone -/

section Requests

variable {env : Env} {ι : Type} [Fintype ι] [DecidableEq ι] {reqs : ι → Request} {C : Steps ι}
  {w : World ι} {c : Cfg ι}

/-- An instant that a request has read was read before, or is by this very call. -/
theorem mem_note_instants {p : Progress} {ch : Choice} {i : ι} {o : Op} {x : o.Res}
    {w w' : World ι} (he : exec env ch i o w = some (x, w')) {t : Instant}
    (ht : t ∈ (p.note o x).instants) : t ∈ p.instants ∨ t = w.clock := by
  cases o with
  | now =>
      simp only [exec, Option.some.injEq, Prod.mk.injEq] at he
      obtain ⟨rfl, -⟩ := he
      exact (List.mem_cons.mp ht).symm
  | acquireSession sid =>
      rcases x with e | _ | s <;> exact Or.inl ht
  | acquireSessionByToken hash =>
      rcases x with e | _ | s <;> exact Or.inl ht
  | acquireUser q =>
      rcases x with e | _ | s <;> exact Or.inl ht
  | acquireSessionsOf u => cases x <;> exact Or.inl ht
  | cacheGet k => cases x <;> exact Or.inl ht
  | updateUser u => cases x <;> exact Or.inl ht
  | addUser u => cases x <;> exact Or.inl ht
  | addSession s => cases x <;> exact Or.inl ht
  | updateSession s => cases x <;> exact Or.inl ht
  | commit => cases x <;> exact Or.inl ht
  | _ => exact Or.inl ht

/-- A request has read the clock in the past. -/
theorem Runs.instants_le (h : Runs env reqs C w c) (i : ι) :
    ∀ t ∈ (did c i).instants, t ≤ c.shared.clock := by
  revert i
  refine h.induction (fun c => ∀ i, ∀ t ∈ (did c i).instants, t ≤ c.shared.clock) ?_ ?_ ?_ ?_
  · exact fun i t ht => absurd ht List.not_mem_nil
  · intro c i ch o k x w' _ ih _ _ _ he j t ht
    rw [afterCall_shared, (exec_clock he)]
    by_cases hji : j = i
    · subst hji
      rw [did_afterCall_self] at ht
      rcases mem_note_instants he ht with hold | rfl
      · exact ih j t hold
      · exact le_refl _
    · rw [did_afterCall_ne hji] at ht
      exact ih j t ht
  · exact fun c i ch x _ ih _ _ _ => ih
  · intro c d _ ih _ j t ht
    have hle : c.shared.clock ≤ c.shared.clock + (d : ℤ) := Int.le_add_of_nonneg_right (by simp)
    exact le_trans (ih j t ht) hle

/-- **The users a request has read are still so until it commits**, when requests run one
after the other. -/
theorem Runs.current_users (h : Runs env reqs Machine.sequentially w c) (hw : Startable env w)
    {i : ι} {a : Act Response} (ht : c.threads i = .running a)
    (hc : (did c i).committed = false) :
    ∀ u ∈ (did c i).users, ∃ row, c.shared.db.user u.id.value = some row ∧
      rowToUser env row = .ok u := by
  revert i a
  refine h.induction (fun c => ∀ {i a}, c.threads i = .running a → (did c i).committed = false →
    ∀ u ∈ (did c i).users, ∃ row, c.shared.db.user u.id.value = some row ∧
      rowToUser env row = .ok u) ?_ ?_ ?_ ?_
  · exact fun _ _ u hu => absurd hu List.not_mem_nil
  · intro c i ch o k x w' hr ih hC ht hal he j a hj hcj u hu
    by_cases hji : j = i
    · subst hji
      rw [did_afterCall_self] at hcj hu
      have hdb : w'.db = c.shared.db := by
        by_cases ho : o = .commit
        · subst ho
          rcases exec_commit he with ⟨rfl, rfl⟩ | ⟨rfl, rfl⟩
          · rfl
          · exact absurd hcj (by simp [Progress.note])
        · exact (exec_db ho he).1
      rw [afterCall_shared, hdb]
      rcases mem_note_users he hu with hold | ⟨q, rfl, hread⟩
      · exact ih ht (of_note_uncommitted hcj) u hold
      · obtain ⟨row, hrow, -, hok⟩ := acquireUser_some hread
        rw [view_eq, view_users_eq (((hr.sound hw.idle).running j _ ht).no_user hal.1 hal.2.1)]
          at hrow
        refine ⟨row, ?_, hok⟩
        rw [(rowToUser_ok hok).1]
        exact (hr.minted hw).keyed.mem_users.mp hrow
    · -- another request is not in flight, so it has read nothing
      rw [threads_afterCall_ne hji] at hj
      rw [did_afterCall_ne hji, did_of_not_inFlight (hC j hji) hj] at hu
      exact absurd hu List.not_mem_nil
  · exact fun c i ch x _ ih _ _ _ j a hj hcj u hu => ih (threads_left hj) hcj u hu
  · exact fun c d _ ih _ j a hj hcj u hu => ih hj hcj u hu

end Requests

section Alone

variable {env : Env} {r : Request} {w : World Unit} {c : Cfg Unit}

/-- The account of a session that is about to be committed is live after the commit. -/
theorem Open.vouches (ho : Open env r c ()) {a : Act Response} (ht : c.threads () = .running a)
    (htr : Tracked env (fun _ => r) c)
    (hread : ∀ u ∈ (did c ()).users, ∃ row, c.shared.db.user u.id.value = some row ∧
      rowToUser env row = .ok u)
    (hnow : ∀ t ∈ (did c ()).instants, t ≤ c.shared.clock) {s : SessionAggregate}
    (hs : (did c ()).added = some s) :
    (c.shared.view ()).Live c.shared.clock s.userId.value := by
  have hgrant := (ho.coherent.added s hs).2.2.2
  obtain ⟨u, hu, hsu, hdel, t, htime, hlock⟩ := ho.coherent.foundLive s hs
  obtain ⟨row, hrow, hok⟩ := hread u hu
  have hlive : u.deletedAt = none := by simpa [User.isDeleted] using hdel
  rw [hsu]
  refine Db.Live.mono (hnow t htime) ?_
  rcases htr.commit_row ho ht hrow with ⟨hview, -⟩ |
    ⟨u₀, u', iv, hwrite, -, -, hder, hok', hview⟩
  · refine ⟨row, hview, (rowToUser_ok hok).2.2.2.2.1 ▸ hlive, ?_⟩
    rw [← rowToUser_lock hok]
    exact hlock
  · obtain rfl := Except.ok.inj (hok.symm.trans hok')
    refine ⟨_, hview, ?_, hgrant.computes_unlocked hwrite hder.computes hlock⟩
    rcases hder.computes.deletes with hsame | ⟨userId, _, hr, -⟩
    · exact hsame.trans hlive
    · exact absurd hr (hgrant.not_deletes userId)

/-- **When a request that runs alone has committed a session, the account is live.** -/
theorem Runs.session_vouches (h : Runs env (fun _ => r) Machine.anyStep w c)
    (hw : Startable env w) (hc : (did c ()).committed = true) {s : SessionAggregate}
    (hs : (did c ()).added = some s) : c.shared.db.Live c.shared.clock s.userId.value := by
  have hrun := h.alone
  clear h
  revert hc s
  refine hrun.induction (fun c => (did c ()).committed = true → ∀ {s},
    (did c ()).added = some s → c.shared.db.Live c.shared.clock s.userId.value) ?_ ?_ ?_ ?_
  · exact fun hc => absurd hc (by simp)
  · intro c i ch o k x w' hr ih _ ht hal he hc s hs
    rw [did_afterCall_self] at hc hs
    rw [afterCall_shared, exec_clock he]
    rcases of_note_committed hc with hold | rfl
    · -- nothing is written after the commit
      have ho : o ≠ .commit := by
        rintro rfl
        exact absurd (hal.1.symm.trans hold) (by simp)
      rw [(exec_db ho he).1]
      refine ih hold ?_
      rw [← hs]
      exact (note_sameWrites _ (hal.no_write hold) x).2.2.1.symm
    · rcases exec_commit he with ⟨rfl, rfl⟩ | ⟨rfl, rfl⟩
      · exact absurd (hal.1.symm.trans hc) (by simp)
      · have ho := hr.isOpen hw ht hal.1
        obtain ⟨row, hrow, hrest⟩ := ho.vouches ht (hr.tracked hw) (hr.current_users hw ht hal.1)
          (hr.instants_le ()) hs
        exact ⟨row, (commit_user env c.shared () _).trans hrow, hrest⟩
  · exact fun c i ch x _ ih _ _ _ => ih
  · intro c d _ ih _ hc s hs
    have hle : c.shared.clock ≤ c.shared.clock + (d : ℤ) := Int.le_add_of_nonneg_right (by simp)
    exact (ih hc hs).mono hle

end Alone

/-! ### The bridge vouches for live accounts -/

section Bridge

variable {env : Env} {config : HydraConfig} {w w' : World Unit} {b : BridgeRequest}
  {a : AcceptLogin} {x : Except AppError Response}

/-- **A form accepts for the subject Hydra remembers**, and only then. -/
theorem HydraBridge.loginForm_cases (challenge : String)
    (q : Except HydraAdminError HydraLoginRequest) :
    (∃ a, loginForm challenge q = .accept a ∧
        (BridgeRequest.loginForm challenge q).remembered = some a.subject) ∨
      ((∀ a, loginForm challenge q ≠ .accept a) ∧
        (BridgeRequest.loginForm challenge q).remembered = none) := by
  cases q with
  | error e =>
      refine Or.inr ⟨?_, rfl⟩
      cases e <;> rintro a ⟨⟩
  | ok q =>
      rw [loginForm, BridgeRequest.remembered]
      split
      · rename_i hskip
        refine Or.inl ⟨_, rfl, ?_⟩
        cases hs : q.subject with
        | none =>
            rw [hs] at hskip
            exact absurd hskip (by simp [truthy])
        | some subject => rfl
      · refine Or.inr ⟨?_, rfl⟩
        rintro a ⟨⟩

/-- A login is accepted for the account that has signed in. -/
theorem HydraBridge.afterLogin_accept {data : LoginFormData}
    (h : afterLogin env config data x = some (.accept a)) :
    ∃ out, x = .ok (.loggedIn out) ∧ out.requiresTwoFactor = false ∧
      a.subject = env.uuidStr out.userId := by
  match x with
  | .ok (.loggedIn out) =>
      have h := Option.some.inj h
      split at h
      · cases h
      · rename_i hno
        obtain rfl := BridgeAnswer.accept.inj h
        exact ⟨out, rfl, by simpa using hno, rfl⟩
  | .error e =>
      have h := Option.some.inj h
      split at h <;> cases h

/-- A second factor is accepted for the account that has presented it. -/
theorem HydraBridge.afterTwoFactor_accept {data : LoginFormData}
    (h : afterTwoFactor env config data x = some (.accept a)) :
    ∃ out, x = .ok (.completed out) ∧ a.subject = env.uuidStr out.userId := by
  match x with
  | .ok (.completed out) =>
      obtain rfl := BridgeAnswer.accept.inj (Option.some.inj h)
      exact ⟨out, rfl, rfl⟩
  | .error e => cases e <;> cases h

/-- **A submission answers with a page, or runs one of the two use cases.** -/
theorem HydraBridge.loginSubmit_cases (env : Env) (config : HydraConfig) (data : LoginFormData)
    (clientHost : String) (userAgent : Option String) (limit : RateLimitResult) :
    (∃ t, loginSubmit env config data clientHost userAgent limit = .answer (.template t)) ∨
      (∃ input, loginSubmit env config data clientHost userAgent limit =
        .call (.login input) (afterLogin env config data)) ∨
      ∃ token code, loginSubmit env config data clientHost userAgent limit =
        .call (.completeTwoFactor token code) (afterTwoFactor env config data) := by
  rw [loginSubmit]
  split
  · rw [submitTwoFactor]
    split
    · exact Or.inl ⟨_, rfl⟩
    · split
      · exact Or.inl ⟨_, rfl⟩
      · exact Or.inr (Or.inr ⟨_, _, rfl⟩)
  · split
    · exact Or.inl ⟨_, rfl⟩
    · exact Or.inr (Or.inl ⟨_, rfl⟩)

/-- The account of a committed session, as the bridge names it. -/
theorem Runs.vouched {r : Request} {c : Cfg Unit} (h : Runs env (fun _ => r) Machine.anyStep w c)
    (hw : Startable env w) (hc : (did c ()).committed = true) {s : SessionAggregate}
    (hs : (did c ()).added = some s) :
    LiveAccount env c.shared (env.uuidStr s.userId.value) :=
  ⟨_, env.parseUuid_uuidStr _, h.session_vouches hw hc hs⟩

/-- **A submission vouches for a live account.** -/
theorem Handles.submission_vouches {data : LoginFormData} {clientHost : String}
    {userAgent : Option String} {limit : RateLimitResult}
    (h : Handles env config w (.loginSubmit data clientHost userAgent limit) w' (.accept a))
    (hw : Startable env w) : LiveAccount env w' a.subject := by
  have hcases := HydraBridge.loginSubmit_cases env config data clientHost userAgent limit
  cases h with
  | answers h =>
      change HydraBridge.loginSubmit env config data clientHost userAgent limit = _ at h
      rcases hcases with ⟨t, ht⟩ | ⟨input, ht⟩ | ⟨token, code, ht⟩
      · cases ht.symm.trans h
      · cases ht.symm.trans h
      · cases ht.symm.trans h
  | calls h hr hx ha =>
      change HydraBridge.loginSubmit env config data clientHost userAgent limit = _ at h
      rcases hcases with ⟨t, ht⟩ | ⟨input, ht⟩ | ⟨token, code, ht⟩
      · cases ht.symm.trans h
      · obtain ⟨rfl, rfl⟩ := Handler.call.inj (ht.symm.trans h)
        obtain ⟨out, rfl, hno, hsubject⟩ := HydraBridge.afterLogin_accept ha
        obtain ⟨hc, s, hs, hid⟩ := (hr.ends hx).1 hno
        rw [hsubject, hid]
        exact hr.vouched hw hc hs
      · obtain ⟨rfl, rfl⟩ := Handler.call.inj (ht.symm.trans h)
        obtain ⟨out, rfl, hsubject⟩ := HydraBridge.afterTwoFactor_accept ha
        obtain ⟨hc, s, hs, -, hid⟩ := (hr.ends hx).1
        rw [hsubject, hid]
        exact hr.vouched hw hc hs

/-- **When the bridge vouches for live accounts only.** In every stored state and for every
request to the bridge: each login request it accepts names an account that exists, is not
deleted and is not locked out at that moment, if and only if the subject of a login that
Hydra remembers is such an account. -/
theorem bridge_vouches_iff (hw : Startable env w) :
    (∀ w' a, Handles env config w b w' (.accept a) → LiveAccount env w' a.subject) ↔
      ∀ subject, b.remembered = some subject → LiveAccount env w subject := by
  cases b with
  | loginSubmit data clientHost userAgent limit =>
      constructor
      · intro _ subject hb
        cases hb
      · intro _ w' a h
        exact h.submission_vouches hw
  | loginForm challenge q =>
      rcases HydraBridge.loginForm_cases challenge q with ⟨a, ha, hsub⟩ | ⟨hno, hsub⟩
      · constructor
        · intro h subject hb
          obtain rfl := Option.some.inj (hsub.symm.trans hb)
          exact h w a (.answers (congrArg Handler.answer ha))
        · intro h w' a' hh
          cases hh with
          | answers h' =>
              obtain rfl := BridgeAnswer.accept.inj (ha.symm.trans (Handler.answer.inj h'))
              exact h _ hsub
          | calls h' => cases h'
      · constructor
        · intro _ subject hb
          exact absurd (hsub.symm.trans hb) (by simp)
        · intro _ w' a' hh
          cases hh with
          | answers h' => exact absurd (Handler.answer.inj h') (hno a')
          | calls h' => cases h'

end Bridge

/-! ### A password and a remembered login -/

/-- The form with the password of the account. -/
def passwordForm : LoginFormData where
  loginChallenge := "c1"
  username := some "alice"
  password := some Reference.password

/-- The account signs in with its password. -/
def passwordSubmission : BridgeRequest := .loginSubmit passwordForm "203.0.113.7" none ⟨true, 0, none⟩

/-- Hydra remembers a login of the account. -/
def rememberedLogin : BridgeRequest :=
  .loginForm "c2" (.ok { skip := true, subject := some (Codecs.uuidStr Reference.aliceId) })

/-- The account was deleted. -/
def accountGone : World Unit :=
  Reference.world Unit (Reference.tables
    { Reference.alice false with deletedAt := some Reference.clock } false)

/-- What the bridge tells Hydra about the password. -/
def passwordAccept : AcceptLogin where
  loginChallenge := "c1"
  subject := Codecs.uuidStr Reference.aliceId
  remember := true
  rememberFor := 3600
  amr := some ["pwd"]
  context := [("user_id", some (Codecs.uuidStr Reference.aliceId)),
    ("session_id", some (Codecs.uuidStr (Reference.uuid4 1)))]

/-- A right password is accepted, for a live account. -/
theorem password_vouches : ∃ w',
    Handles Reference.env {} signedOut passwordSubmission w' (.accept passwordAccept) ∧
      LiveAccount Reference.env w' passwordAccept.subject := by
  obtain ⟨c, hc, x, hx, ha⟩ : ∃ c, (machine Reference.env Unit).run
      (start Reference.env (fun _ => .login
        { username := some "alice"
          password := Reference.password
          ipAddress := some "203.0.113.7"
          loginChallenge := some "c1" }) signedOut) (Reference.moves () 17) = some c ∧
      ∃ x ∈ c.result (), HydraBridge.afterLogin Reference.env {} passwordForm x =
        some (.accept passwordAccept) := by
    decide +kernel
  have hh : Handles Reference.env {} signedOut passwordSubmission c.shared
      (.accept passwordAccept) :=
    .calls rfl (Machine.reach_of_run (Machine.runsWith_any _ _ _) hc)
      (Config.result_eq_some.mp hx) ha
  have hstart : Startable Reference.env signedOut := reference_startable Unit rfl false .empty
  have hnone : ∀ subject, passwordSubmission.remembered = some subject →
      LiveAccount Reference.env signedOut subject := by
    intro subject hb
    cases hb
  exact ⟨c.shared, hh, (bridge_vouches_iff hstart).mpr hnone _ _ hh⟩

/-- What the bridge tells Hydra about the remembered login. -/
def rememberedAccept : AcceptLogin where
  loginChallenge := "c2"
  subject := Codecs.uuidStr Reference.aliceId
  context := [("user_id", some (Codecs.uuidStr Reference.aliceId))]

/-- A remembered login is accepted for an account that was deleted. -/
theorem remembered_login_vouches_deleted : ¬ ∀ w' a,
    Handles Reference.env {} accountGone rememberedLogin w' (.accept a) →
      LiveAccount Reference.env w' a.subject := by
  intro h
  have haccept : HydraBridge.loginForm "c2"
      (.ok { skip := true, subject := some (Codecs.uuidStr Reference.aliceId) }) =
        .accept rememberedAccept := by
    decide +kernel
  have hlive := h accountGone rememberedAccept (.answers (congrArg Handler.answer haccept))
  exact absurd hlive (by decide +kernel)

end BackendTemplate
