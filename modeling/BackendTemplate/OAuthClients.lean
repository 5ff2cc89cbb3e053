import BackendTemplate.HydraBridge
import BackendTemplate.Json
import BackendTemplate.Texts

/-!
# OAuth Clients

An administrator registers an OAuth client with a list of scopes. The scopes travel to Hydra as one
text, joined by spaces (`_client_to_wire`), and are read back by splitting that text on white space
(`HydraClient._split_scope`). So the list that is reported is the list of words of the joined text:
the requested one exactly when each scope is a word.

Hydra is what answers a payload with a response. What the results use of it is `HydraKeeps`: a
client is returned with the scope text and the auth method it was registered with.

## Main results

* `clientToWire_scope`, `clientToWire_method` — what is sent of the scopes and the confidentiality.
* `confidential_kept` — the confidentiality is reported as requested, always.
* `scopes_kept_iff` — the scopes are reported as requested exactly when they are words.
-/

namespace BackendTemplate

open Json

/-! ### The client of the admin API -/

/-- `HydraClientCreate`. -/
structure HydraClientCreate where
  clientName : String
  redirectUris : List String
  grantTypes : List String
  responseTypes : List String
  scope : List String
  tokenEndpointAuthMethod : String
  clientUri : Option String := none
  clientId : Option String := none
  clientSecret : Option String := none

/-- `HydraClient`. -/
structure HydraClient where
  clientId : String
  clientName : String := ""
  clientSecret : Option String := none
  clientUri : Option String := none
  redirectUris : List String := []
  grantTypes : List String := []
  responseTypes : List String := []
  scope : List String := []
  tokenEndpointAuthMethod : String := "client_secret_basic"
  createdAt : Option String := none

/-- `' '.join(scope)`. -/
def joinScope (scope : List String) : String :=
  String.ofList (joinWords (scope.map String.toList))

/-- `value.split()`. -/
def splitScope (value : String) : List String := (words value.toList).map String.ofList

/-- A key of the payload that is left out when it has no value. -/
def optionalKey (k : String) (v : Option String) : List (String × Json) :=
  if truthy v then [(k, .str (v.getD ""))] else []

/-- `_client_to_wire`. -/
def clientToWire (data : HydraClientCreate) : Json :=
  .obj ([("client_name", .str data.clientName),
      ("redirect_uris", .arr (data.redirectUris.map .str)),
      ("grant_types", .arr (data.grantTypes.map .str)),
      ("response_types", .arr (data.responseTypes.map .str)),
      ("scope", .str (joinScope data.scope)),
      ("token_endpoint_auth_method", .str data.tokenEndpointAuthMethod)] ++
    optionalKey "client_uri" data.clientUri ++ optionalKey "client_id" data.clientId ++
    optionalKey "client_secret" data.clientSecret)

/-- `HydraClient._split_scope`, and then `list[str]`. -/
def readScope : Json → Option (List String)
  | .str value => some (splitScope value)
  | value => strings value

/-- `HydraClient.model_validate`; `none` where it raises. -/
def HydraClient.validate (j : Json) : Option HydraClient := do
  let clientId ← j.field string none "client_id"
  let clientName ← j.field string (some "") "client_name"
  let clientSecret ← j.field optString (some none) "client_secret"
  let clientUri ← j.field optString (some none) "client_uri"
  let redirectUris ← j.field strings (some []) "redirect_uris"
  let grantTypes ← j.field strings (some []) "grant_types"
  let responseTypes ← j.field strings (some []) "response_types"
  let scope ← j.field readScope (some []) "scope"
  let method ← j.field string (some "client_secret_basic") "token_endpoint_auth_method"
  let createdAt ← j.field optString (some none) "created_at"
  pure
    { clientId := clientId
      clientName := clientName
      clientSecret := clientSecret
      clientUri := clientUri
      redirectUris := redirectUris
      grantTypes := grantTypes
      responseTypes := responseTypes
      scope := scope
      tokenEndpointAuthMethod := method
      createdAt := createdAt }

/-- `httpx.Response`: the body is its text, and what a JSON parser makes of that. -/
structure HttpResponse where
  statusCode : ℕ
  text : String
  json : Option Json

/-- What a call of the admin API can raise. -/
inductive AdminApiError
  | hydra (e : HydraAdminError)
  | validation
deriving DecidableEq

/-- `_raise_for_status`, for calls that name no error of their own. -/
def raiseForStatus (response : HttpResponse) : Except AdminApiError Unit :=
  if response.statusCode < 400 then .ok ()
  else if response.statusCode = 410 then .error (.hydra (.challengeGone response.text))
  else .error (.hydra (.admin response.statusCode response.text))

/-- `model_validate_json(response.text)`. -/
def validateBody {α : Type} (validate : Json → Option α) (response : HttpResponse) :
    Except AdminApiError α :=
  match response.json.bind validate with
  | some a => .ok a
  | none => .error .validation

/-- `HydraAdminClient.create_client`, over what Hydra answers to `POST /admin/clients`. -/
def HydraAdminClient.createClient (post : Json → HttpResponse) (data : HydraClientCreate) :
    Except AdminApiError HydraClient := do
  let response := post (clientToWire data)
  raiseForStatus response
  validateBody HydraClient.validate response

/-- `HydraAdminClient.list_clients`, over what Hydra answers to `GET /admin/clients`. -/
def HydraAdminClient.listClients (get : ℕ → HttpResponse) (pageSize : ℕ := 100) :
    Except AdminApiError (List HydraClient) := do
  let response := get pageSize
  raiseForStatus response
  validateBody (list HydraClient.validate) response

/-! ### The use cases -/

/-- `CreateOAuthClientInput`, which `POST /admin/clients` fills from a `CreateClientRequest`. -/
structure CreateOAuthClientInput where
  clientName : String
  redirectUris : List String := []
  grantTypes : List String := ["authorization_code"]
  scopes : List String := ["openid", "profile", "email"]
  isConfidential : Bool := false
  clientUri : Option String := none

/-- `CreateOAuthClientOutput`. -/
structure CreateOAuthClientOutput where
  clientId : String
  clientSecret : Option String
  clientName : String
  redirectUris : List String
  grantTypes : List String
  scopes : List String
  isConfidential : Bool

/-- `ClientDTO`. -/
structure ClientDTO where
  clientId : String
  clientName : String
  clientUri : Option String
  redirectUris : List String
  grantTypes : List String
  scopes : List String
  isConfidential : Bool

/-- The registration that `CreateOAuthClientUseCase` asks for. -/
def CreateOAuthClientInput.registration (data : CreateOAuthClientInput) : HydraClientCreate where
  clientName := data.clientName
  clientUri := data.clientUri
  redirectUris := data.redirectUris
  grantTypes := data.grantTypes
  responseTypes := if "authorization_code" ∈ data.grantTypes then ["code"] else []
  scope := data.scopes
  tokenEndpointAuthMethod := if data.isConfidential then "client_secret_basic" else "none"

/-- `CreateOAuthClientUseCase`. -/
def createOAuthClient (post : Json → HttpResponse) (data : CreateOAuthClientInput) :
    Except AdminApiError CreateOAuthClientOutput := do
  let client ← HydraAdminClient.createClient post data.registration
  pure
    { clientId := client.clientId
      clientSecret := client.clientSecret
      clientName := client.clientName
      redirectUris := client.redirectUris
      grantTypes := client.grantTypes
      scopes := client.scope
      isConfidential := client.tokenEndpointAuthMethod != "none" }

/-- The entry of `ListOAuthClientsUseCase` for a client. -/
def ClientDTO.of (c : HydraClient) : ClientDTO where
  clientId := c.clientId
  clientName := c.clientName
  clientUri := c.clientUri
  redirectUris := c.redirectUris
  grantTypes := c.grantTypes
  scopes := c.scope
  isConfidential := c.tokenEndpointAuthMethod != "none"

/-- `ListOAuthClientsUseCase`. -/
def listOAuthClients (get : ℕ → HttpResponse) : Except AdminApiError (List ClientDTO) := do
  let clients ← HydraAdminClient.listClients get
  pure (clients.map ClientDTO.of)

/-! ### What is sent, and what is read back -/

section Registrations

variable {data : CreateOAuthClientInput} {j record : Json} {client : HydraClient}

@[simp] theorem clientToWire_scope (c : HydraClientCreate) :
    (clientToWire c).member "scope" = some (.str (joinScope c.scope)) := rfl

@[simp] theorem clientToWire_method (c : HydraClientCreate) :
    (clientToWire c).member "token_endpoint_auth_method" =
      some (.str c.tokenEndpointAuthMethod) := rfl

/-- The fields of a client that was read, as far as they matter here. -/
theorem HydraClient.validate_ok (h : HydraClient.validate j = some client) :
    j.field string none "client_id" = some client.clientId ∧
      j.field readScope (some []) "scope" = some client.scope ∧
      j.field string (some "client_secret_basic") "token_endpoint_auth_method" =
        some client.tokenEndpointAuthMethod := by
  simp only [HydraClient.validate, Option.bind_eq_bind, Option.bind_eq_some_iff, Option.pure_def,
    Option.some.injEq] at h
  obtain ⟨_, hid, _, -, _, -, _, -, _, -, _, -, _, -, _, hscope, _, hmethod, _, -, rfl⟩ := h
  exact ⟨hid, hscope, hmethod⟩

/-- **Scopes make the round trip** exactly when they are words. -/
theorem splitScope_joinScope_iff (scope : List String) :
    splitScope (joinScope scope) = scope ↔ ∀ s ∈ scope, IsWord s.toList := by
  have htexts : splitScope (joinScope scope) = scope ↔
      words (joinWords (scope.map String.toList)) = scope.map String.toList := by
    rw [splitScope, joinScope, String.toList_ofList]
    constructor
    · intro h
      simpa [Function.comp_def] using congrArg (List.map String.toList) h
    · intro h
      simp [h, Function.comp_def]
  rw [htexts, words_join_iff, List.forall_mem_map]

/-- **Hydra keeps a registration**: the record has the scope text and the auth method that were
sent. -/
structure HydraKeeps (payload record : Json) : Prop where
  scope : record.member "scope" = payload.member "scope"
  method : record.member "token_endpoint_auth_method" =
    payload.member "token_endpoint_auth_method"

/-- What is read of a record that was kept. -/
theorem HydraKeeps.read (h : HydraKeeps (clientToWire data.registration) record)
    (hclient : HydraClient.validate record = some client) :
    client.scope = splitScope (joinScope data.scopes) ∧
      (client.tokenEndpointAuthMethod != "none") = data.isConfidential := by
  obtain ⟨-, hscope, hmethod⟩ := HydraClient.validate_ok hclient
  rw [field_of_member (h.scope.trans (clientToWire_scope _))] at hscope
  rw [field_of_member (h.method.trans (clientToWire_method _))] at hmethod
  refine ⟨(Option.some.inj hscope).symm, ?_⟩
  have hsent : data.registration.tokenEndpointAuthMethod = client.tokenEndpointAuthMethod :=
    Option.some.inj hmethod
  rw [← hsent, CreateOAuthClientInput.registration]
  cases data.isConfidential <;> rfl

/-! ### What is reported -/

variable {post : Json → HttpResponse} {get : ℕ → HttpResponse} {out : CreateOAuthClientOutput}
  {dtos : List ClientDTO} {dto : ClientDTO}

/-- A body that was read. -/
theorem validateBody_ok {α : Type} {validate : Json → Option α} {response : HttpResponse} {a : α}
    (h : validateBody validate response = .ok a) :
    ∃ body, response.json = some body ∧ validate body = some a := by
  rw [validateBody] at h
  split at h
  · rename_i a' hread
    obtain rfl := Except.ok.inj h
    exact Option.bind_eq_some_iff.mp hread
  · cases h

/-- The client that was created is one Hydra has returned. -/
theorem createOAuthClient_ok (h : createOAuthClient post data = .ok out) :
    ∃ record client, (post (clientToWire data.registration)).json = some record ∧
      HydraClient.validate record = some client ∧ out.scopes = client.scope ∧
      out.isConfidential = (client.tokenEndpointAuthMethod != "none") := by
  obtain ⟨client, hcreated, h⟩ := except_bind_eq_ok.mp h
  obtain rfl := Except.ok.inj h
  obtain ⟨-, -, hread⟩ := except_bind_eq_ok.mp hcreated
  obtain ⟨record, hrecord, hclient⟩ := validateBody_ok hread
  exact ⟨record, client, hrecord, hclient, rfl, rfl⟩

/-- Every entry of the list is a client Hydra has returned. -/
theorem listOAuthClients_ok (h : listOAuthClients get = .ok dtos) :
    ∃ listing, (get 100).json = some (.arr listing) ∧
      ∀ dto ∈ dtos, ∃ record ∈ listing, ∃ client,
        HydraClient.validate record = some client ∧ dto = .of client := by
  obtain ⟨clients, hlisted, h⟩ := except_bind_eq_ok.mp h
  obtain rfl := Except.ok.inj h
  obtain ⟨-, -, hread⟩ := except_bind_eq_ok.mp hlisted
  obtain ⟨body, hbody, hclients⟩ := validateBody_ok hread
  cases body with
  | arr listing =>
      refine ⟨listing, hbody, fun dto hdto => ?_⟩
      obtain ⟨client, hclient, rfl⟩ := List.mem_map.mp hdto
      obtain ⟨record, hrecord, hvalid⟩ := of_mem_list hclients hclient
      exact ⟨record, hrecord, client, hvalid, rfl⟩
  | _ => cases hclients

/-- **The client is reported as requested**: when it is created, and in every entry of a later list
that has its id. -/
structure ReportedAsRequested (data : CreateOAuthClientInput) (out : CreateOAuthClientOutput)
    (dtos : List ClientDTO) : Prop where
  scopes : out.scopes = data.scopes
  isConfidential : out.isConfidential = data.isConfidential
  listedScopes : ∀ dto ∈ dtos, dto.clientId = out.clientId → dto.scopes = data.scopes
  listedIsConfidential : ∀ dto ∈ dtos, dto.clientId = out.clientId →
    dto.isConfidential = data.isConfidential

/-- **What is reported of a client**: the words of the scope text, and its confidentiality. -/
theorem reported
    (hpost : ∀ payload record, (post payload).json = some record → HydraKeeps payload record)
    (hget : ∀ listing, (get 100).json = some (.arr listing) → ∀ record ∈ listing,
      record.field string none "client_id" = some out.clientId →
        HydraKeeps (clientToWire data.registration) record)
    (hout : createOAuthClient post data = .ok out) (hdtos : listOAuthClients get = .ok dtos) :
    (out.scopes = splitScope (joinScope data.scopes) ∧ out.isConfidential = data.isConfidential) ∧
      ∀ dto ∈ dtos, dto.clientId = out.clientId →
        dto.scopes = splitScope (joinScope data.scopes) ∧
          dto.isConfidential = data.isConfidential := by
  obtain ⟨record, client, hrecord, hclient, hscopes, hconfidential⟩ := createOAuthClient_ok hout
  obtain ⟨listing, hlisting, hentries⟩ := listOAuthClients_ok hdtos
  constructor
  · rw [hscopes, hconfidential]
    exact (hpost _ record hrecord).read hclient
  · intro dto hdto hid
    obtain ⟨record, hrecord, client, hclient, rfl⟩ := hentries dto hdto
    have hfield := (HydraClient.validate_ok hclient).1
    have hsame : client.clientId = out.clientId := hid
    rw [hsame] at hfield
    exact (hget listing hlisting record hrecord hfield).read hclient

/-- **When a client is reported as requested.** For every request and whatever Hydra answers, as
long as it keeps registrations: the client that was created is reported with the scopes and the
confidentiality that were asked for, then and in every later list, if and only if each scope is a
word: not empty, and without white space. -/
theorem scopes_kept_iff
    (hpost : ∀ payload record, (post payload).json = some record → HydraKeeps payload record)
    (hget : ∀ listing, (get 100).json = some (.arr listing) → ∀ record ∈ listing,
      record.field string none "client_id" = some out.clientId →
        HydraKeeps (clientToWire data.registration) record)
    (hout : createOAuthClient post data = .ok out) (hdtos : listOAuthClients get = .ok dtos) :
    ReportedAsRequested data out dtos ↔ ∀ s ∈ data.scopes, IsWord s.toList := by
  obtain ⟨⟨hscopes, hconfidential⟩, hentries⟩ := reported hpost hget hout hdtos
  rw [← splitScope_joinScope_iff]
  constructor
  · intro h
    exact hscopes.symm.trans h.scopes
  · intro h
    exact ⟨hscopes.trans h, hconfidential, fun dto hdto hid => ((hentries dto hdto hid).1).trans h,
      fun dto hdto hid => (hentries dto hdto hid).2⟩

/-- **The confidentiality is reported as requested**, whatever the scopes. -/
theorem confidential_kept
    (hpost : ∀ payload record, (post payload).json = some record → HydraKeeps payload record)
    (hget : ∀ listing, (get 100).json = some (.arr listing) → ∀ record ∈ listing,
      record.field string none "client_id" = some out.clientId →
        HydraKeeps (clientToWire data.registration) record)
    (hout : createOAuthClient post data = .ok out) (hdtos : listOAuthClients get = .ok dtos) :
    out.isConfidential = data.isConfidential ∧
      ∀ dto ∈ dtos, dto.clientId = out.clientId → dto.isConfidential = data.isConfidential := by
  obtain ⟨⟨-, hconfidential⟩, hentries⟩ := reported hpost hget hout hdtos
  exact ⟨hconfidential, fun dto hdto hid => (hentries dto hdto hid).2⟩

end Registrations

/-! ### A registry -/

namespace Reference

/-- A Hydra that returns what it was sent, under an id. -/
def echo (payload : Json) : HttpResponse where
  statusCode := 201
  text := ""
  json := match payload with
    | .obj d => some (.obj (("client_id", .str "new-client") :: d))
    | _ => none

/-- A Hydra that lists that client. -/
def echoList (data : CreateOAuthClientInput) (_ : ℕ) : HttpResponse where
  statusCode := 200
  text := ""
  json := (echo (clientToWire data.registration)).json.map fun record => .arr [record]

theorem echo_keeps (payload record : Json) (h : (echo payload).json = some record) :
    HydraKeeps payload record := by
  cases payload with
  | obj d =>
      obtain rfl := Option.some.inj h
      constructor
      · simp [member, Dict.get_cons]
      · simp [member, Dict.get_cons]
  | _ => cases h

/-- A client with two scopes, the second of which is the text given. -/
def clientWith (scope : String) : CreateOAuthClientInput where
  clientName := "New App"
  scopes := ["openid", scope]

end Reference

open Reference

/-- That Hydra keeps what it lists. -/
theorem echoList_keeps (data : CreateOAuthClientInput) (listing : List Json)
    (hlisting : (echoList data 100).json = some (.arr listing)) (record : Json)
    (hrecord : record ∈ listing) : HydraKeeps (clientToWire data.registration) record := by
  have hone : [_] = listing := Json.arr.inj (Option.some.inj hlisting)
  rw [← hone] at hrecord
  obtain rfl := List.mem_singleton.mp hrecord
  exact echo_keeps _ _ rfl

/-- Two plain scopes are reported as requested. -/
theorem plain_scopes_kept : ∃ out dtos, createOAuthClient echo (clientWith "profile") = .ok out ∧
    listOAuthClients (echoList (clientWith "profile")) = .ok dtos ∧
      ReportedAsRequested (clientWith "profile") out dtos := by
  have hget := echoList_keeps (clientWith "profile")
  exact ⟨_, _, rfl, rfl, (scopes_kept_iff echo_keeps
    (fun listing hlisting record hrecord _ => hget listing hlisting record hrecord) rfl rfl).mpr
    (by decide +kernel)⟩

/-- A scope with a space in it becomes two: the client gets a scope nobody has asked for. -/
theorem spaced_scope_splits : ∃ out, createOAuthClient echo (clientWith "profile admin") = .ok out ∧
    out.scopes = ["openid", "profile", "admin"] ∧
      out.scopes ≠ (clientWith "profile admin").scopes := by
  have h : (createOAuthClient echo (clientWith "profile admin")).map (·.scopes) =
      .ok ["openid", "profile", "admin"] := by
    decide +kernel
  cases hout : createOAuthClient echo (clientWith "profile admin") with
  | error e =>
      rw [hout] at h
      cases h
  | ok out =>
      rw [hout] at h
      have hscopes : out.scopes = ["openid", "profile", "admin"] := Except.ok.inj h
      refine ⟨out, rfl, hscopes, ?_⟩
      rw [hscopes]
      decide +kernel

end BackendTemplate
