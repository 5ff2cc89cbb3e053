import Mathlib.Data.Bool.AllAny
import Mathlib.Data.List.TakeWhile
import BackendTemplate.IpAddress
import BackendTemplate.OutboxWorker
import BackendTemplate.Pages
import BackendTemplate.Reference

/-!
# The Links in Emails

A token leaves the service in an event, which is stored as a row of the outbox, mailed in a page
with a link, and comes back in the query of the request that the link makes. On this way it is put
into JSON, into an address of the web and into an attribute of HTML. A token of characters that mean
nothing in an address comes back as it was, in the verification of the address as well as in the
form for a new password.

## Main results

* `emailed_link_opens` — the link in the email of an event opens the page of its token.
-/

namespace BackendTemplate

open IpAddress Template

/-! ### Emails -/

/-- What `_send_email` hands to the sender. -/
structure SentEmail where
  recipient : String
  subject : String
  body : Text
deriving DecidableEq

/-- What `_EMAIL_TEMPLATES` and `_EMAIL_PATHS` have of an event type, besides the key of its
token. -/
structure EmailTemplate where
  page : String → ℕ → Page
  subject : String
  expiresInHours : ℕ
  path : String

/-- `_EMAIL_TEMPLATES` and `_EMAIL_PATHS`. -/
def emailTemplate : String → Option EmailTemplate
  | "EmailVerificationRequestedEvent" =>
      some ⟨.verifyEmail, "Verify your email", 24, "/v1/auth/verify-email"⟩
  | "PasswordResetRequestedEvent" =>
      some ⟨.resetPasswordEmail, "Reset your password", 1, "/v1/auth/reset-password"⟩
  | _ => none

/-- `url`. -/
def actionUrl (appBaseUrl path token : String) : String :=
  appBaseUrl ++ path ++ "?token=" ++ token

/-- `_send_email`, where it gets as far as calling the sender. -/
def sendEmail (appBaseUrl : String) (e : OutboxEvent) : Option SentEmail :=
  match emailTemplate e.eventType, emailOf e with
  | some t, some (recipient, token) =>
      some
        { recipient := recipient
          subject := t.subject
          body := (t.page (actionUrl appBaseUrl t.path token) t.expiresInHours).html "" }
  | _, _ => none

/-! ### Requests -/

/-- What a browser requests for an address: all of it before the query, and the query. The fragment
stays with the browser. -/
def requestOf (url : Text) : Text × Text :=
  let url := url.takeWhile (· ≠ '#')
  (url.takeWhile (· ≠ '?'), (url.dropWhile (· ≠ '?')).drop 1)

/-- The parameters of a query, where `unquote` decodes names and values. -/
def queryParams (unquote : Text → Text) (query : Text) : List (Text × Text) :=
  (query.splitOn '&').map fun part =>
    (unquote (part.takeWhile (· ≠ '=')), unquote ((part.dropWhile (· ≠ '=')).drop 1))

/-- `FromQuery[str]`: of a name that is given twice, the last value. -/
def fromQuery (unquote : Text → Text) (name : String) (query : Text) : Option String :=
  (Dict.get (Dict.update [] (queryParams unquote query)) name.toList).map String.ofList

/-- `verify_email_landing`, over what the use case raises: the detail of a domain error. -/
def verifyEmailLanding (verifyEmail : String → Except String Unit) (token : String) : Page :=
  match verifyEmail token with
  | .error detail => .result "" detail
  | .ok () => .result "Your email address is verified. You can sign in now." ""

/-- What the service answers to a link: the routes of `AuthController` that emails link to. -/
def openLink (unquote : Text → Text) (verifyEmail : String → Except String Unit)
    (path query : Text) : Option Page :=
  if path = "/v1/auth/verify-email".toList then
    (fromQuery unquote "token" query).map (verifyEmailLanding verifyEmail)
  else if path = "/v1/auth/reset-password".toList then
    (fromQuery unquote "token" query).map .resetForm
  else none

/-- A character that means nothing in an address. -/
def isUnreserved (c : Char) : Bool :=
  c.isAlphanum || c = '-' || c = '.' || c = '_' || c = '~'

/-- What an event is mailed for: its address and its token, and the page that its link opens. -/
def DomainEvent.mailed (verifyEmail : String → Except String Unit) :
    DomainEvent → Option (String × String × Page)
  | .emailVerificationRequested _ email token =>
      some (email, token, verifyEmailLanding verifyEmail token)
  | .passwordResetRequested _ email token => some (email, token, .resetForm token)
  | _ => none

/-! ### The way of a token -/

theorem isUnreserved_ne {c : Char} (h : isUnreserved c) : c ≠ '#' ∧ c ≠ '&' := by
  refine ⟨?_, ?_⟩ <;> rintro rfl <;> cases h

/-- What stands before the query, and the query. -/
theorem requestOf_append {before query : Text} (hbefore : ∀ c ∈ before, c ≠ '?' ∧ c ≠ '#')
    (hquery : ∀ c ∈ query, c ≠ '#') : requestOf (before ++ '?' :: query) = (before, query) := by
  have hall : ∀ c ∈ before ++ '?' :: query, decide (c ≠ '#') = true := by
    intro c hc
    rw [List.mem_append, List.mem_cons] at hc
    rcases hc with hc | rfl | hc
    · exact decide_eq_true (hbefore c hc).2
    · rfl
    · exact decide_eq_true (hquery c hc)
  have hname : ∀ c ∈ before, decide (c ≠ '?') = true := fun c hc => decide_eq_true (hbefore c hc).1
  rw [requestOf, List.takeWhile_eq_self_iff.mpr hall, List.takeWhile_append_of_pos hname,
    List.dropWhile_append_of_pos hname, List.takeWhile_cons_of_neg (by decide),
    List.dropWhile_cons_of_neg (by decide), List.append_nil]
  rfl

section Query

variable {unquote : Text → Text} (hunquote : ∀ s : Text, (∀ c ∈ s, isUnreserved c) → unquote s = s)
include hunquote

/-- **The token of a query is read**, as it was put into it. -/
theorem fromQuery_token {token : String} (htoken : ∀ c ∈ token.toList, isUnreserved c) :
    fromQuery unquote "token" ("token=".toList ++ token.toList) = some token := by
  have hkey : ∀ c ∈ "token".toList, isUnreserved c := List.all_iff_forall_prop.mp (by decide)
  have hone : '&' ∉ "token=".toList ++ token.toList := by
    rw [List.mem_append, not_or]
    exact ⟨by decide, fun h => (isUnreserved_ne (htoken _ h)).2 rfl⟩
  have hsplit : "token=".toList ++ token.toList = "token".toList ++ '=' :: token.toList := rfl
  have hname : ∀ c ∈ "token".toList, decide (c ≠ '=') = true :=
    List.all_iff_forall_prop.mp (by decide)
  rw [fromQuery, queryParams, List.splitOn_eq_singleton hone, List.map_singleton, hsplit,
    List.takeWhile_append_of_pos hname, List.dropWhile_append_of_pos hname,
    List.takeWhile_cons_of_neg (by decide), List.dropWhile_cons_of_neg (by decide),
    List.append_nil, List.drop_one, List.tail_cons, hunquote _ hkey, hunquote _ htoken,
    Dict.get_update, List.reverse_singleton, Dict.get_cons, if_pos rfl, Option.some_or,
    Option.map_some, String.ofList_toList]

end Query

/-- Sorting the keys of a payload changes nothing that is looked up. -/
theorem get_jsonb {p : Payload} (h : (p.map Prod.fst).Nodup) (k : String) :
    Dict.get p.jsonb k = (Dict.get p k).map PayloadValue.jsonb := by
  have hkeys : ((p.map fun e => (e.1, e.2.jsonb)).map Prod.fst).Nodup := by
    rwa [List.map_map]
  rw [Payload.jsonb, Dict.get_sort _ hkeys, Dict.get_map]

/-- A field of a stored event is read as it was encoded. -/
theorem get_persist (env : Env) (id : Uuid) (now : Instant) (e : DomainEvent) (k : String) :
    Dict.get (persistOutboxEvent env id now e).payload k =
      (Dict.get e.fields k).map fun v => (v.encode env).jsonb := by
  have hkeys : ((e.toPayload env).map Prod.fst).Nodup := by
    rw [DomainEvent.toPayload, List.map_map]
    exact e.keys ▸ e.cls.fieldNames_nodup
  rw [persistOutboxEvent, get_jsonb hkeys, DomainEvent.toPayload, Dict.get_map, Option.map_map]
  rfl

/-- The email of a stored event has the address and the token of the event. -/
theorem emailOf_persist (env : Env) (id : Uuid) (now : Instant) {e : DomainEvent}
    {verifyEmail : String → Except String Unit} {email token : String} {page : Page}
    (he : e.mailed verifyEmail = some (email, token, page)) (hemail : email ≠ "") :
    emailOf (persistOutboxEvent env id now e) = some (email, token) := by
  cases e with
  | emailVerificationRequested u email' token' =>
      obtain ⟨rfl, rfl, -⟩ : email' = email ∧ token' = token ∧ _ = page := by
        simpa [DomainEvent.mailed] using he
      have hkey : emailTokenKey (persistOutboxEvent env id now
          (.emailVerificationRequested u email' token')).eventType =
          some "verification_token" := rfl
      rw [emailOf, hkey]
      simp only [get_persist]
      exact if_neg hemail
  | passwordResetRequested u email' token' =>
      obtain ⟨rfl, rfl, -⟩ : email' = email ∧ token' = token ∧ _ = page := by
        simpa [DomainEvent.mailed] using he
      have hkey : emailTokenKey (persistOutboxEvent env id now
          (.passwordResetRequested u email' token')).eventType = some "reset_token" := rfl
      rw [emailOf, hkey]
      simp only [get_persist]
      exact if_neg hemail
  | _ => cases he

/-- The page of an email has its link. -/
theorem href_email (t : EmailTemplate) (ht : t.page = .verifyEmail ∨ t.page = .resetPasswordEmail)
    (url csrfInput : String) :
    attributeValue "href" ((t.page url t.expiresInHours).html csrfInput) = some url.toList := by
  rcases ht with ht | ht
  all_goals
    rw [ht]
    refine attributeValue_render _ _ ?_ ?_
    · rw [String.toList_ofList, String.toList_ofList]
      decide +kernel
    · rw [String.toList_ofList]
      decide +kernel

/-- The template of an event that is mailed, and the page its link opens. -/
theorem openLink_of_mailed {unquote : Text → Text}
    (hunquote : ∀ s : Text, (∀ c ∈ s, isUnreserved c) → unquote s = s) (env : Env) (id : Uuid)
    (now : Instant) {e : DomainEvent} {verifyEmail : String → Except String Unit}
    {email token : String} {page : Page} (he : e.mailed verifyEmail = some (email, token, page))
    (htoken : ∀ c ∈ token.toList, isUnreserved c) :
    ∃ t, emailTemplate (persistOutboxEvent env id now e).eventType = some t ∧
      (t.page = .verifyEmail ∨ t.page = .resetPasswordEmail) ∧
      (∀ c ∈ t.path.toList, c ≠ '?' ∧ c ≠ '#') ∧
      openLink unquote verifyEmail t.path.toList ("token=".toList ++ token.toList) = some page := by
  cases e with
  | emailVerificationRequested u email' token' =>
      obtain ⟨rfl, rfl, rfl⟩ :
          email' = email ∧ token' = token ∧ verifyEmailLanding verifyEmail token' = page := by
        simpa [DomainEvent.mailed] using he
      refine ⟨_, rfl, Or.inl rfl, List.all_iff_forall_prop.mp (by decide), ?_⟩
      rw [openLink, if_pos rfl, fromQuery_token hunquote htoken]
      rfl
  | passwordResetRequested u email' token' =>
      obtain ⟨rfl, rfl, rfl⟩ : email' = email ∧ token' = token ∧ Page.resetForm token' = page := by
        simpa [DomainEvent.mailed] using he
      refine ⟨_, rfl, Or.inr rfl, List.all_iff_forall_prop.mp (by decide), ?_⟩
      rw [openLink, if_neg (by decide), if_pos rfl, fromQuery_token hunquote htoken]
      rfl
  | _ => cases he

/-- **The link in the email of an event opens the page of its token.** While the row of the event
has its payload, its email goes to the address of the event, and a browser that follows the `href`
of it requests a path of the service that answers with the landing page of the very token that the
event was recorded with, or with the form that has it. -/
theorem emailed_link_opens {unquote : Text → Text}
    (hunquote : ∀ s : Text, (∀ c ∈ s, isUnreserved c) → unquote s = s) {env : Env} {id : Uuid}
    {now : Instant} {e : DomainEvent} {verifyEmail : String → Except String Unit}
    {email token : String} {page : Page} (he : e.mailed verifyEmail = some (email, token, page))
    (hemail : email ≠ "") (htoken : ∀ c ∈ token.toList, isUnreserved c) {appBaseUrl : String}
    (hbase : ∀ c ∈ appBaseUrl.toList, c ≠ '?' ∧ c ≠ '#') {row : OutboxEvent}
    (htype : row.eventType = (persistOutboxEvent env id now e).eventType)
    (hpayload : row.payload = (persistOutboxEvent env id now e).payload) :
    ∃ mail url path query, sendEmail appBaseUrl row = some mail ∧ mail.recipient = email ∧
      attributeValue "href" mail.body = some url ∧
      requestOf url = (appBaseUrl.toList ++ path, query) ∧
      openLink unquote verifyEmail path query = some page := by
  obtain ⟨t, ht, hpage, hpath, hopen⟩ :=
    openLink_of_mailed hunquote env id now he htoken
  have hmail : emailOf row = some (email, token) := by
    rw [← emailOf_persist env id now he hemail, emailOf, emailOf, htype, hpayload]
  have hurl : (actionUrl appBaseUrl t.path token).toList =
      (appBaseUrl.toList ++ t.path.toList) ++ '?' :: ("token=".toList ++ token.toList) := by
    rw [actionUrl, String.toList_append, String.toList_append, String.toList_append]
    simp
  have hname : ∀ c ∈ "token=".toList, c ≠ '#' := List.all_iff_forall_prop.mp (by decide)
  refine ⟨{ recipient := email
            subject := t.subject
            body := (t.page (actionUrl appBaseUrl t.path token) t.expiresInHours).html "" },
    (actionUrl appBaseUrl t.path token).toList, t.path.toList, "token=".toList ++ token.toList,
    ?_, rfl, href_email t hpage _ "", ?_, hopen⟩
  · rw [sendEmail, htype, ht, hmail]
  · rw [hurl]
    refine requestOf_append (fun c hc => ?_) fun c hc => ?_
    · exact (List.mem_append.mp hc).elim (hbase c) (hpath c)
    · exact (List.mem_append.mp hc).elim (hname c) fun hc => (isUnreserved_ne (htoken c hc)).1

/-- The link to a new password for `alice`. -/
theorem alice_reset_link_opens :
    let e := DomainEvent.passwordResetRequested Reference.aliceId "alice@example.com" "kX9-dw_3Tq"
    let row := persistOutboxEvent Reference.env 1 0 e
    ∃ mail url path query, sendEmail "http://localhost:8000" row = some mail ∧
      mail.recipient = "alice@example.com" ∧ attributeValue "href" mail.body = some url ∧
      requestOf url = ("http://localhost:8000".toList ++ path, query) ∧
      openLink id (fun _ => .ok ()) path query = some (.resetForm "kX9-dw_3Tq") :=
  emailed_link_opens (fun _ _ => rfl) rfl (by decide) (List.all_iff_forall_prop.mp (by decide))
    (List.all_iff_forall_prop.mp (by decide)) rfl rfl

end BackendTemplate
