import BackendTemplate.HydraBridge
import BackendTemplate.UserReads

/-!
# Consent

Once a browser has signed in, Hydra sends it to `HydraBridgeController` again, to consent to what a
client has asked for. The bridge shows the scopes and grants all of them or none; a request that
Hydra says to skip is granted without being shown. `BuildConsentClaimsUseCase` decides which
attributes of the account the scopes disclose, and ties the access token to a session.

## Main results

* `buildConsentClaims_disclosed` — the claims about an account are those a granted scope discloses.
* `HydraBridge.acceptConsent_grants` — what is granted, and with which claims.
-/

namespace BackendTemplate

/-! ### The schemas -/

/-- `HydraClientRef`. -/
structure HydraClientRef where
  clientId : String := ""
  clientName : String := ""
deriving DecidableEq

/-- `HydraConsentRequest`, as far as the bridge reads it. -/
structure HydraConsentRequest where
  challenge : String
  client : HydraClientRef := {}
  requestedScope : List String := []
  skip : Bool := false
  context : List (String × Json) := []

/-- `ConsentFormData`. -/
structure ConsentFormData where
  consentChallenge : String
  approve : String := "false"

/-- `HydraConfig`, as far as the consent handlers read it. -/
structure HydraConsentConfig where
  consentRememberSeconds : ℤ := 60 * 60 * 24 * 30

/-- The arguments of `accept_consent_request`. -/
structure AcceptConsent where
  consentChallenge : String
  grantScope : List String
  remember : Bool
  rememberFor : ℤ
  idTokenClaims : List (String × Json)
  accessTokenClaims : List (String × Json)

/-- How a consent handler ends: with the page that asks for consent, by granting the request or
rejecting it, or with an error. -/
inductive ConsentAnswer
  | template (consentChallenge clientName : String) (scopes : List String)
  | accept (a : AcceptConsent)
  | reject (consentChallenge error errorDescription : String)
  | raises (e : BridgeError)

/-! ### The claims -/

/-- `ConsentClaimsInput`. -/
structure ConsentClaimsInput where
  userId : Option Uuid
  sessionId : Option String
  grantedScopes : List String

/-- `ConsentClaims`. -/
structure ConsentClaims where
  idToken : List (String × Json) := []
  accessToken : List (String × Json) := []

/-- `SCOPE_PROFILE` of the claims. -/
def ConsentClaims.scopeProfile : String := "profile"

/-- `SCOPE_EMAIL` of the claims. -/
def ConsentClaims.scopeEmail : String := "email"

/-- The claim that ties an access token to a session. -/
def sessionClaims (sessionId : Option String) : List (String × Json) :=
  if truthy sessionId then [("session_id", .str (sessionId.getD ""))] else []

/-- The claims about an account that the scopes disclose. -/
def userClaims (user : UserReadDTO) (grantedScopes : List String) : List (String × Json) :=
  (if ConsentClaims.scopeProfile ∈ grantedScopes then [("preferred_username", .str user.username)]
    else []) ++
    if ConsentClaims.scopeEmail ∈ grantedScopes then
      [("email", (user.email.map Json.str).getD .null),
        ("email_verified", .bool user.isEmailVerified)]
    else []

/-- `BuildConsentClaimsUseCase`. -/
def buildConsentClaims (now : Instant) (users : List UserRow) (data : ConsentClaimsInput) :
    Except AppError ConsentClaims :=
  let claims : ConsentClaims := { accessToken := sessionClaims data.sessionId }
  match data.userId with
  | none => .ok claims
  | some userId => do
      let id ← UserID.make userId
      match SQLAlchemyUserReader.getById now users id with
      | none => .ok claims
      | some user => .ok { claims with idToken := userClaims user data.grantedScopes }

/-! ### The controller -/

namespace HydraBridge

/-- The end of `_accept_consent`, once the context is read. -/
def grantConsent (config : HydraConsentConfig) (now : Instant) (users : List UserRow)
    (consentRequest : HydraConsentRequest) (userId : Option Uuid) (sessionId : Option String) :
    ConsentAnswer :=
  let grantScope := consentRequest.requestedScope
  match buildConsentClaims now users ⟨userId, sessionId, grantScope⟩ with
  | .error e => .raises (.app e)
  | .ok claims => .accept
      { consentChallenge := consentRequest.challenge
        grantScope := grantScope
        remember := true
        rememberFor := config.consentRememberSeconds
        idTokenClaims := claims.idToken
        accessTokenClaims := claims.accessToken }

/-- `HydraBridgeController._accept_consent`. -/
def acceptConsent (env : Env) (config : HydraConsentConfig) (now : Instant) (users : List UserRow)
    (consentRequest : HydraConsentRequest) : ConsentAnswer :=
  let rawUserId := (Dict.get consentRequest.context "user_id").bind Json.string
  let sessionId := (Dict.get consentRequest.context "session_id").bind Json.string
  match rawUserId with
  | none => grantConsent config now users consentRequest none sessionId
  | some raw =>
      match env.parseUuid raw with
      | none => .raises (.http 400 "Invalid consent context")
      | some userId => grantConsent config now users consentRequest (some userId) sessionId

/-- What the consent handlers make of Hydra's answer about the challenge. -/
def withConsentRequest (andThen : HydraConsentRequest → ConsentAnswer) :
    Except HydraAdminError HydraConsentRequest → ConsentAnswer
  | .error (.challengeNotFound _) => .raises (.http 400 "Unknown or expired consent request")
  | .error e => .raises (.hydra e)
  | .ok consentRequest => andThen consentRequest

/-- `HydraBridgeController.consent_form`. -/
def consentForm (env : Env) (config : HydraConsentConfig) (now : Instant) (users : List UserRow)
    (consentChallenge : String) : Except HydraAdminError HydraConsentRequest → ConsentAnswer :=
  withConsentRequest fun consentRequest =>
    if consentRequest.skip then acceptConsent env config now users consentRequest
    else .template consentChallenge consentRequest.client.clientName consentRequest.requestedScope

/-- `HydraBridgeController.consent_submit`. Hydra is asked about the challenge only if the user has
approved. -/
def consentSubmit (env : Env) (config : HydraConsentConfig) (now : Instant) (users : List UserRow)
    (data : ConsentFormData) (answer : Except HydraAdminError HydraConsentRequest) :
    ConsentAnswer :=
  if data.approve ≠ "true" then
    .reject data.consentChallenge "access_denied" "User denied consent"
  else withConsentRequest (acceptConsent env config now users) answer

end HydraBridge

/-! ### What a scope discloses -/

/-- **What a scope says it discloses** of an account: its username, or its address and whether that
is verified. -/
inductive Discloses (row : UserRow) : String → String → Json → Prop
  | username : Discloses row ConsentClaims.scopeProfile "preferred_username" (.str row.username)
  | email : Discloses row ConsentClaims.scopeEmail "email" ((row.email.map Json.str).getD .null)
  | emailVerified :
      Discloses row ConsentClaims.scopeEmail "email_verified" (.bool row.isEmailVerified)

section Claims

variable {env : Env} {config : HydraConsentConfig} {now : Instant} {users : List UserRow}
  {q : HydraConsentRequest} {x : Uuid} {scopes : List String} {k : String} {v : Json}

/-- The claims about a row are those the scopes disclose. -/
theorem userClaims_disclosed {row : UserRow}
    (h : (k, v) ∈ userClaims (.ofRow now row) scopes) :
    ∃ scope ∈ scopes, Discloses row scope k v := by
  rcases List.mem_append.mp h with h | h
  · split at h
    · rename_i hscope
      obtain ⟨rfl, rfl⟩ := Prod.mk.inj (List.mem_singleton.mp h)
      exact ⟨_, hscope, .username⟩
    · exact absurd h List.not_mem_nil
  · split at h
    · rename_i hscope
      rcases List.mem_cons.mp h with h | h
      · obtain ⟨rfl, rfl⟩ := Prod.mk.inj h
        exact ⟨_, hscope, .email⟩
      · obtain ⟨rfl, rfl⟩ := Prod.mk.inj (List.mem_singleton.mp h)
        exact ⟨_, hscope, .emailVerified⟩
    · exact absurd h List.not_mem_nil

/-- **A claim about an account is one that a granted scope discloses**, of the row that the account
has. -/
theorem buildConsentClaims_disclosed {data : ConsentClaimsInput} {claims : ConsentClaims}
    (h : buildConsentClaims now users data = .ok claims) (hk : (k, v) ∈ claims.idToken) :
    ∃ x, data.userId = some x ∧ ∃ row ∈ users, row.id = x ∧
      ∃ scope ∈ data.grantedScopes, Discloses row scope k v := by
  rw [buildConsentClaims] at h
  split at h
  · obtain rfl := Except.ok.inj h
    exact absurd hk List.not_mem_nil
  · rename_i x hx
    obtain ⟨id, hid, h⟩ := except_bind_eq_ok.mp h
    split at h
    · obtain rfl := Except.ok.inj h
      exact absurd hk List.not_mem_nil
    · rename_i user huser
      obtain rfl := Except.ok.inj h
      obtain ⟨row, hrow, rfl⟩ := Option.map_eq_some_iff.mp huser
      have hfound : row.id = id.value := by simpa using List.find?_some hrow
      exact ⟨x, hx, row, List.mem_of_find?_eq_some hrow, hfound.trans (UserID.make_ok hid),
        userClaims_disclosed hk⟩

/-- The claims of the access token do not depend on the account. -/
theorem buildConsentClaims_access {data : ConsentClaimsInput} {claims : ConsentClaims}
    (h : buildConsentClaims now users data = .ok claims) :
    claims.accessToken = sessionClaims data.sessionId := by
  rw [buildConsentClaims] at h
  split at h
  · exact Except.ok.inj h ▸ rfl
  · obtain ⟨id, hid, h⟩ := except_bind_eq_ok.mp h
    split at h
    · exact Except.ok.inj h ▸ rfl
    · exact Except.ok.inj h ▸ rfl

/-- The claims for an id, whether or not it is somebody's. -/
theorem buildConsentClaims_some (now : Instant) (users : List UserRow) (id : UserID)
    (sessionId : Option String) (scopes : List String) :
    buildConsentClaims now users ⟨some id.value, sessionId, scopes⟩ = .ok
      { idToken := ((SQLAlchemyUserReader.getById now users id).map (userClaims · scopes)).getD []
        accessToken := sessionClaims sessionId } := by
  refine except_bind_eq_ok.mpr ⟨id, UserID.make_value id, ?_⟩
  cases SQLAlchemyUserReader.getById now users id with
  | none => rfl
  | some user => rfl

end Claims

/-! ### What is granted -/

namespace HydraBridge

variable {env : Env} {config : HydraConsentConfig} {now : Instant} {users : List UserRow}
  {q : HydraConsentRequest} {a : AcceptConsent}

/-- The account that the context of a consent request names. -/
def contextUser (env : Env) (q : HydraConsentRequest) : Option Uuid :=
  ((Dict.get q.context "user_id").bind Json.string).bind env.parseUuid

/-- The session that it names. -/
def contextSession (q : HydraConsentRequest) : Option String :=
  (Dict.get q.context "session_id").bind Json.string

/-- **What the bridge grants** of a consent request, and the claims it grants it with: all the
scopes that were requested, the session of the context, and of the account in the context what the
scopes disclose. -/
structure Grants (env : Env) (users : List UserRow) (q : HydraConsentRequest) (a : AcceptConsent) :
    Prop where
  challenge : a.consentChallenge = q.challenge
  scope : a.grantScope = q.requestedScope
  remember : a.remember = true
  session : a.accessTokenClaims = sessionClaims (contextSession q)
  claims : ∀ k v, (k, v) ∈ a.idTokenClaims → ∃ x, contextUser env q = some x ∧
    ∃ row ∈ users, row.id = x ∧ ∃ scope ∈ q.requestedScope, Discloses row scope k v

theorem grantConsent_grants {userId : Option Uuid}
    (huser : ∀ x, userId = some x → contextUser env q = some x)
    (h : grantConsent config now users q userId (contextSession q) = .accept a) :
    Grants env users q a := by
  rw [grantConsent] at h
  split at h
  · cases h
  · rename_i claims hclaims
    obtain rfl := ConsentAnswer.accept.inj h
    refine ⟨rfl, rfl, rfl, buildConsentClaims_access hclaims, fun k v hk => ?_⟩
    obtain ⟨x, hx, hrow⟩ := buildConsentClaims_disclosed hclaims hk
    exact ⟨x, huser x hx, hrow⟩

/-- **A consent request is granted in full**, with claims the scopes disclose. -/
theorem acceptConsent_grants (h : acceptConsent env config now users q = .accept a) :
    Grants env users q a := by
  rw [acceptConsent] at h
  split at h
  · exact grantConsent_grants (fun x hx => by cases hx) h
  · rename_i raw hraw
    split at h
    · cases h
    · rename_i x hx
      refine grantConsent_grants (fun y hy => ?_) h
      rw [contextUser, hraw, ← hy]
      exact hx

/-- **A consent request is granted** when its context names an account. -/
theorem acceptConsent_eq (config : HydraConsentConfig) (now : Instant) (users : List UserRow)
    {id : UserID} (h : contextUser env q = some id.value) :
    acceptConsent env config now users q = .accept
      { consentChallenge := q.challenge
        grantScope := q.requestedScope
        remember := true
        rememberFor := config.consentRememberSeconds
        idTokenClaims := ((SQLAlchemyUserReader.getById now users id).map
          (userClaims · q.requestedScope)).getD []
        accessTokenClaims := sessionClaims (contextSession q) } := by
  obtain ⟨raw, hraw, hparse⟩ := Option.bind_eq_some_iff.mp h
  rw [acceptConsent]
  simp only [hraw, hparse]
  rw [grantConsent, buildConsentClaims_some, contextSession]

/-- **The page grants only what it was told to skip.** -/
theorem consentForm_accept {consentChallenge : String}
    (h : consentForm env config now users consentChallenge (.ok q) = .accept a) :
    q.skip = true ∧ acceptConsent env config now users q = .accept a := by
  change (if q.skip = true then _ else _) = _ at h
  split at h
  · rename_i hskip
    exact ⟨hskip, h⟩
  · cases h

/-- **A submission grants only what the user has approved.** -/
theorem consentSubmit_accept {data : ConsentFormData}
    (h : consentSubmit env config now users data (.ok q) = .accept a) :
    data.approve = "true" ∧ acceptConsent env config now users q = .accept a := by
  rw [consentSubmit] at h
  split at h
  · cases h
  · rename_i happrove
    exact ⟨not_ne_iff.mp happrove, h⟩

end HydraBridge

end BackendTemplate
