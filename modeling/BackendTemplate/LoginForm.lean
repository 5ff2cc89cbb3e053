import BackendTemplate.HydraBridge
import BackendTemplate.LoginOutcomes

/-!
# The Login Form

`login_submit` answers a submission of the form with the login page or with the redirect that Hydra
gives for an accepted login. It catches the errors with which a login refuses credentials, and the
one with which a second factor does. A password that is too short, too long or too weak, and a name
that is not a username, are refused with errors that are in neither clause: they leave the handler.

## Main results

* `login_form_absorbs_iff` — the submissions that are answered with a page or a redirect.
-/

namespace BackendTemplate

open Atomic

/-! ### The form -/

/-- The handler answers with the login page or a redirect. -/
def BridgeAnswer.isAbsorbed : BridgeAnswer → Bool
  | .template _ | .accept _ => true
  | .raises _ => false

/-- **What a submission of the form can come to** in a stored state: what `login_submit` answers at
once, or from a run of its use case. -/
inductive Submits (env : Env) (config : HydraConfig) (l : Limiters) (w : World Unit)
    (data : LoginFormData) (clientHost : String) (userAgent : Option String) : BridgeAnswer → Prop
  | answers {a : BridgeAnswer}
      (h : HydraBridge.loginSubmit env config data clientHost userAgent l.twoFactor = .answer a) :
      Submits env config l w data clientHost userAgent a
  | calls {r : Request} {andThen : Except AppError Response → Option BridgeAnswer}
      {c : Cfg Unit} {x : Except AppError Response} {a : BridgeAnswer}
      (h : HydraBridge.loginSubmit env config data clientHost userAgent l.twoFactor =
        .call r andThen)
      (hr : Runs env (fun _ => r) (Machine.Under l.Answer) w c) (hx : c.threads () = .done x)
      (ha : andThen x = some a) : Submits env config l w data clientHost userAgent a

/-- **The form absorbs a submission**: the handler returns, the login page or a redirect. -/
def Absorbs (env : Env) (config : HydraConfig) (l : Limiters) (w : World Unit)
    (data : LoginFormData) (clientHost : String) (userAgent : Option String) : Prop :=
  (∃ a, Submits env config l w data clientHost userAgent a) ∧
    ∀ a, Submits env config l w data clientHost userAgent a → a.isAbsorbed = true

/-- **A stored state**: what the service can start in, with the unique columns unique, and no token
that is yet to be drawn. -/
structure Stored (env : Env) (w : World Unit) : Prop where
  startable : Startable env w
  users : w.db.UniqueUsers
  tokens : ∀ t ∈ w.db.refreshTokens, ∀ n, w.rng ≤ n →
    t.tokenHash ≠ env.sha256 (env.tokenUrlsafe n)

/-- **The credentials of a submission are taken**, right or wrong: those of the step that the form
is at, if it gets to look at them. -/
structure FormTaken (env : Env) (l : Limiters) (w : World Unit) (data : LoginFormData)
    (clientHost : String) : Prop where
  secondFactor : truthy data.pendingToken = true → truthy data.twoFactorCode = true →
    l.twoFactor.allowed = true → ChallengeTaken env w (data.pendingToken.getD "")
  password : truthy data.pendingToken = false → truthy data.username = true →
    truthy data.password = true → (clientHost ≠ "" → l.login.allowed = true ∧ l.locked = false) →
    CredentialsTaken env w.db (data.username.getD "") (data.password.getD "")

section Form

variable {env : Env} {config : HydraConfig} {l : Limiters} {w : World Unit} {data : LoginFormData}
  {clientHost : String} {userAgent : Option String}

theorem Stored.view (hw : Stored env w) : w.view () = w.db := view_of_idle (hw.startable.idle ())

theorem Stored.ready (hw : Stored env w) : Ready env w where
  users := hw.view ▸ hw.users
  sessions := hw.view ▸ fun s hs n hn => (hw.startable.unborn s.sessionId
    (.inr (.inl (List.mem_map_of_mem hs))) n hn).symm
  tokens := hw.view ▸ fun t ht n hn => (hw.startable.unborn t.id
    (.inr (.inr (List.mem_map_of_mem ht))) n hn).symm
  hashes := hw.view ▸ hw.tokens

/-- A handler that answers at once with a page. -/
theorem absorbs_answer {t : LoginTemplate}
    (h : HydraBridge.loginSubmit env config data clientHost userAgent l.twoFactor =
      .answer (.template t)) : Absorbs env config l w data clientHost userAgent := by
  refine ⟨⟨_, .answers h⟩, fun a ha => ?_⟩
  cases ha with
  | answers h' =>
      obtain rfl := Handler.answer.inj (h.symm.trans h')
      rfl
  | calls h' => cases h.symm.trans h'

/-- **A handler that runs a use case** absorbs the submission when it does so whatever the use case
ends with. -/
theorem absorbs_call {r : Request} {andThen : Except AppError Response → Option BridgeAnswer}
    (h : HydraBridge.loginSubmit env config data clientHost userAgent l.twoFactor =
      .call r andThen)
    (hend : EndsIn env l (fun x _ => ∃ a, andThen x = some a ∧ a.isAbsorbed = true)
      (program env r) w) : Absorbs env config l w data clientHost userAgent := by
  have hruns := (Machine.ensures_iff l.exists_answer).mp hend
  have hstart : (start env (fun _ => r) w).threads () = .running (program env r) := rfl
  have hanswer : ∀ ch o s, l.Answer ch → ((machine env Unit).exec ch () o s).isSome :=
    fun ch o s _ => exec_isSome ch o s
  constructor
  · obtain ⟨c, x, hr, hx⟩ := Machine.exists_outcome l.exists_answer hanswer hstart
    obtain ⟨a, ha, -⟩ := hruns c x hr hx
    exact ⟨a, .calls h hr hx ha⟩
  · intro a ha
    cases ha with
    | answers h' => cases h.symm.trans h'
    | calls h' hr hx ha =>
        obtain ⟨rfl, rfl⟩ := Handler.call.inj (h.symm.trans h')
        obtain ⟨a', ha', habs⟩ := hruns _ _ hr hx
        obtain rfl := Option.some.inj (ha.symm.trans ha')
        exact habs

/-- What the use case ends with, when the submission is absorbed. -/
theorem Absorbs.ends {r : Request} {andThen : Except AppError Response → Option BridgeAnswer}
    (habs : Absorbs env config l w data clientHost userAgent)
    (h : HydraBridge.loginSubmit env config data clientHost userAgent l.twoFactor =
      .call r andThen) :
    EndsIn env l (fun x _ => ∀ a, andThen x = some a → a.isAbsorbed = true) (program env r) w :=
  (Machine.ensures_iff l.exists_answer).mpr fun _ _ hr hx a ha => habs.2 a (.calls h hr hx ha)

/-- What a completion ends with is answered. -/
theorem TwoFactorEnd.absorbed {x : Except AppError Response} (h : TwoFactorEnd x w) :
    ∃ a, HydraBridge.afterTwoFactor env config data x = some a ∧ a.isAbsorbed = true := by
  cases x with
  | error e =>
      obtain rfl : e = .twoFactorChallengeExpired := h
      exact ⟨_, rfl, rfl⟩
  | ok r =>
      cases r with
      | completed result => exact ⟨_, rfl, rfl⟩
      | _ => exact h.elim

/-- What a login ends with is answered. -/
theorem LoginEnd.absorbed {x : Except AppError Response} (h : LoginEnd x w) :
    ∃ a, HydraBridge.afterLogin env config data x = some a ∧ a.isAbsorbed = true := by
  cases x with
  | error e =>
      cases e with
      | invalidCredentials message => exact ⟨_, rfl, rfl⟩
      | accountLocked u => exact ⟨_, rfl, rfl⟩
      | tooManyLoginAttempts retryAfter => exact ⟨_, rfl, rfl⟩
      | _ => cases h
  | ok r =>
      cases r with
      | loggedIn result =>
          refine ⟨_, rfl, ?_⟩
          split <;> rfl
      | _ => exact h.elim

/-- A fault is raised out of the handler. -/
theorem isFault_eq_false {andThen : Except AppError Response → Option BridgeAnswer} {e : AppError}
    (hand : andThen = HydraBridge.afterLogin env config data ∨
      andThen = HydraBridge.afterTwoFactor env config data)
    (h : ∀ a, andThen (.error e) = some a → a.isAbsorbed = true) : e.isFault = false := by
  cases hfault : e.isFault with
  | false => rfl
  | true =>
      have hraise : andThen (.error e) = some (.raises (.app e)) := by
        rcases hand with rfl | rfl <;> cases e <;> first | rfl | cases hfault
      cases h _ hraise

/-- The bucket of a form names the browser's host, and there is none without one. -/
theorem passes_iff {data : LoginInput} (hname : truthy data.username = true)
    (hip : data.ipAddress = some clientHost) :
    l.Passes (attemptKey env data) ↔
      (clientHost ≠ "" → l.login.allowed = true ∧ l.locked = false) := by
  simp only [attemptKey, hname, if_true, hip, Bool.not_true, Bool.or_false, Option.getD_some]
  by_cases hhost : clientHost = ""
  · have hfalse : truthy (some clientHost) = false := by simp [truthy, hhost]
    rw [hfalse]
    constructor
    · exact fun _ hne => absurd hhost hne
    · rintro _ k ⟨⟩
  · have htrue : truthy (some clientHost) = true := truthy_iff.mpr ⟨_, rfl, hhost⟩
    rw [htrue]
    constructor
    · exact fun hpass _ => hpass _ rfl
    · exact fun hlets _ _ => hlets hhost

/-- The form is at the second factor. -/
theorem loginSubmit_twoFactor (htoken : truthy data.pendingToken = true)
    (hcode : truthy data.twoFactorCode = true) (hallowed : l.twoFactor.allowed = true) :
    HydraBridge.loginSubmit env config data clientHost userAgent l.twoFactor =
      .call (.completeTwoFactor (data.pendingToken.getD "") (data.twoFactorCode.getD ""))
        (HydraBridge.afterTwoFactor env config data) := by
  rw [HydraBridge.loginSubmit, if_pos htoken, HydraBridge.submitTwoFactor, hallowed, hcode]
  rfl

/-- The form is at the password. -/
theorem loginSubmit_password (htoken : truthy data.pendingToken = false)
    (hname : truthy data.username = true) (hpassword : truthy data.password = true) :
    HydraBridge.loginSubmit env config data clientHost userAgent l.twoFactor =
      .call (.login
          { username := data.username
            password := data.password.getD ""
            ipAddress := some clientHost
            userAgent := userAgent
            loginChallenge := some data.loginChallenge })
        (HydraBridge.afterLogin env config data) := by
  rw [HydraBridge.loginSubmit, htoken, hname, hpassword]
  rfl

/-- A second factor whose challenge is taken is absorbed. -/
theorem FormTaken.absorbs_twoFactor (h : FormTaken env l w data clientHost) (hw : Stored env w)
    (htoken : truthy data.pendingToken = true) :
    Absorbs env config l w data clientHost userAgent := by
  cases hallowed : l.twoFactor.allowed with
  | false =>
      exact absorbs_answer <| by
        rw [HydraBridge.loginSubmit, if_pos htoken, HydraBridge.submitTwoFactor, hallowed]
        rfl
  | true =>
      cases hcode : truthy data.twoFactorCode with
      | false =>
          exact absorbs_answer <| by
            rw [HydraBridge.loginSubmit, if_pos htoken, HydraBridge.submitTwoFactor, hallowed,
              hcode]
            rfl
      | true =>
          refine absorbs_call (loginSubmit_twoFactor htoken hcode hallowed) ?_
          have htaken := h.secondFactor htoken hcode hallowed
          exact (completeTwoFactor_ends hw.ready htaken).mono fun _ _ hend => hend.absorbed

/-- A password that is taken is absorbed. -/
theorem FormTaken.absorbs_password (h : FormTaken env l w data clientHost) (hw : Stored env w)
    (htoken : truthy data.pendingToken = false) :
    Absorbs env config l w data clientHost userAgent := by
  cases hname : truthy data.username with
  | false =>
      exact absorbs_answer <| by
        rw [HydraBridge.loginSubmit, htoken, hname]
        rfl
  | true =>
      cases hpassword : truthy data.password with
      | false =>
          exact absorbs_answer <| by
            rw [HydraBridge.loginSubmit, htoken, hname, hpassword]
            rfl
      | true =>
          refine absorbs_call (loginSubmit_password htoken hname hpassword) ?_
          obtain ⟨username, husername, hne⟩ := truthy_iff.mp hname
          have htaken := h.password htoken hname hpassword
          rw [← hw.view, husername] at htaken
          refine (login_ends hw.ready husername hne fun hpass => ?_).mono
            fun _ _ hend => hend.absorbed
          exact htaken ((passes_iff hname rfl).mp hpass)

/-- **When the form absorbs a submission.** In every stored state, with nobody else at work and the
database at hand, the handler returns the login page or a redirect if and only if the credentials,
when it gets to look at them, are taken. -/
theorem login_form_absorbs_iff (hw : Stored env w) :
    Absorbs env config l w data clientHost userAgent ↔ FormTaken env l w data clientHost := by
  constructor
  · intro habs
    refine ⟨fun htoken hcode hallowed => ?_, fun htoken hname hpassword hlets => ?_⟩
    · have hend := habs.ends (loginSubmit_twoFactor htoken hcode hallowed)
      exact hend.challengeTaken fun _ _ hall => isFault_eq_false (.inr rfl) hall
    · have hend := habs.ends (loginSubmit_password htoken hname hpassword)
      obtain ⟨username, husername, hne⟩ := truthy_iff.mp hname
      have htaken := hend.credentialsTaken (fun _ _ hall => isFault_eq_false (.inl rfl) hall)
        husername hne ((passes_iff hname rfl).mpr hlets)
      rw [hw.view] at htaken
      rw [husername]
      exact htaken
  · intro h
    cases htoken : truthy data.pendingToken with
    | true => exact h.absorbs_twoFactor hw htoken
    | false => exact h.absorbs_password hw htoken

end Form

/-! ### A password and a password that is too short -/

/-- Limiters that have seen nobody yet. -/
def idleLimiters : Limiters := ⟨⟨true, 0, none⟩, ⟨true, 0, none⟩, false⟩

instance (env : Env) (db : Db) (q : UserQuery) : Decidable (db.LoadsFound env q) :=
  decidable_of_iff ((db.users.find? q.selects).all fun row => (rowToUser env row).isOk) <| by
    rw [Db.LoadsFound]
    cases db.users.find? q.selects with
    | none => simp
    | some row => cases hrow : rowToUser env row <;> simp [hrow, Except.isOk, Except.toBool]

theorem signedOut_stored : Stored Reference.env signedOut where
  startable := reference_startable Unit rfl false .empty
  users := ⟨by decide, by decide, by decide⟩
  tokens t ht := absurd ht List.not_mem_nil

/-- The right password is absorbed. -/
theorem password_form_absorbed : Stored Reference.env signedOut ∧
    FormTaken Reference.env idleLimiters signedOut passwordForm "203.0.113.7" ∧
    Absorbs Reference.env {} idleLimiters signedOut passwordForm "203.0.113.7" none := by
  have htaken : FormTaken Reference.env idleLimiters signedOut passwordForm "203.0.113.7" := by
    refine ⟨?_, fun _ _ _ _ => ⟨?_, ?_, ?_⟩⟩
    · rintro ⟨⟩
    · decide +kernel
    · decide +kernel
    · decide +kernel
  exact ⟨signedOut_stored, htaken, (login_form_absorbs_iff signedOut_stored).mpr htaken⟩

/-- A password that is too short for a new account is raised out of the handler. -/
theorem short_password_escapes :
    Submits Reference.env {} idleLimiters signedOut { passwordForm with password := some "short" }
      "203.0.113.7" none (.raises (.app (.passwordTooShort "short"))) ∧
    ¬ Absorbs Reference.env {} idleLimiters signedOut
      { passwordForm with password := some "short" } "203.0.113.7" none := by
  let data : LoginInput :=
    { username := some "alice"
      password := "short"
      ipAddress := some "203.0.113.7"
      loginChallenge := some "c1" }
  obtain ⟨c, hc, hx⟩ : ∃ c, (machine Reference.env Unit).run
      (start Reference.env (fun _ => .login data) signedOut) (Reference.moves () 3) = some c ∧
      c.result () = some (.error (.passwordTooShort "short")) := by
    decide +kernel
  have hunder : (machine Reference.env Unit).RunsWith (Machine.Under idleLimiters.Answer)
      (start Reference.env (fun _ => .login data) signedOut) (Reference.moves () 3) :=
    Machine.runsWith_replicate ⟨rfl, rfl, rfl⟩ _ 3
  have hescapes : Submits Reference.env {} idleLimiters signedOut
      { passwordForm with password := some "short" } "203.0.113.7" none
      (.raises (.app (.passwordTooShort "short"))) :=
    .calls (loginSubmit_password rfl rfl rfl) (Machine.reach_of_run hunder hc)
      (Config.result_eq_some.mp hx) rfl
  exact ⟨hescapes, fun h => absurd (h.2 _ hescapes) (by decide)⟩

end BackendTemplate
