import BackendTemplate.Dict
import BackendTemplate.Reference

/-!
# Domain Events on Their Way Out

The 21 event classes, and what becomes of an event: `SQLAlchemyUoW` stores it as an
`outbox_events` row, `EventPublisherAMQP` publishes the row, the audit handler writes an entry.
An event class is data here: its wire name, its declared `sensitive_fields`, the aggregate it
belongs to and its audit action; an event is its class with the values of its dataclass fields.

Two events of one class that differ only in sensitive fields are told apart by the stored row
and by nothing that leaves it.

## Main results

* `DomainEvent.keys` — an event has the fields its class declares.
* `Event.toDomain_audit` — the events of the use cases are among these, with their audit rows.
* `secrets_stay_inside` — neither the broker nor the audit log can tell two such events apart.
-/

namespace BackendTemplate

/-! ### Payloads -/

/-- The JSON values that event payloads hold. -/
inductive PayloadValue
  | null
  | str (s : String)
  | int (n : ℤ)
  | strs (l : List String)
  | dict (d : List (String × Option String))
deriving DecidableEq

/-- `dict[str, JsonValue]`. -/
abbrev Payload := List (String × PayloadValue)

/-- The order in which `JSONB` keeps the keys of an object: shorter ones first. -/
def jsonbLe (a b : String) : Prop :=
  a.utf8ByteSize < b.utf8ByteSize ∨ a.utf8ByteSize = b.utf8ByteSize ∧ a ≤ b

instance : DecidableRel jsonbLe := fun _ _ => inferInstanceAs (Decidable (_ ∨ _))

/-- A value as a `JSONB` column gives it back. -/
def PayloadValue.jsonb : PayloadValue → PayloadValue
  | .dict d => .dict (Dict.sort jsonbLe d)
  | v => v

/-- A payload as a `JSONB` column gives it back. -/
def Payload.jsonb (p : Payload) : Payload := Dict.sort jsonbLe (p.map fun e => (e.1, e.2.jsonb))

/-! ### Event classes -/

/-- The subclasses of `BaseEvent`. -/
inductive EventClass
  | userCreated | userAuthenticated | userProfileUpdated | userDeleted
  | sessionCreated | sessionRevoked | tokenRefreshed
  | roleCreated | roleUpdated | roleDeleted | userRoleAssigned | userRoleRevoked
  | accountLocked | accountUnlocked
  | passwordResetRequested | passwordResetCompleted | passwordChanged
  | emailVerificationRequested | emailVerified
  | twoFactorEnabled | twoFactorDisabled
deriving DecidableEq

namespace EventClass

/-- `wire_name`: no class sets `event_name`, so it is the name of the class. -/
def wireName : EventClass → String
  | userCreated => "UserCreatedEvent"
  | userAuthenticated => "UserAuthenticatedEvent"
  | userProfileUpdated => "UserProfileUpdatedEvent"
  | userDeleted => "UserDeletedEvent"
  | sessionCreated => "SessionCreatedEvent"
  | sessionRevoked => "SessionRevokedEvent"
  | tokenRefreshed => "TokenRefreshedEvent"
  | roleCreated => "RoleCreatedEvent"
  | roleUpdated => "RoleUpdatedEvent"
  | roleDeleted => "RoleDeletedEvent"
  | userRoleAssigned => "UserRoleAssignedEvent"
  | userRoleRevoked => "UserRoleRevokedEvent"
  | accountLocked => "AccountLockedEvent"
  | accountUnlocked => "AccountUnlockedEvent"
  | passwordResetRequested => "PasswordResetRequestedEvent"
  | passwordResetCompleted => "PasswordResetCompletedEvent"
  | passwordChanged => "PasswordChangedEvent"
  | emailVerificationRequested => "EmailVerificationRequestedEvent"
  | emailVerified => "EmailVerifiedEvent"
  | twoFactorEnabled => "TwoFactorEnabledEvent"
  | twoFactorDisabled => "TwoFactorDisabledEvent"

/-- `sensitive_fields`. -/
def sensitiveFields : EventClass → List String
  | passwordResetRequested => ["reset_token"]
  | emailVerificationRequested => ["verification_token"]
  | _ => []

/-- The dataclass fields, in order. -/
def fieldNames : EventClass → List String
  | userCreated => ["user_id", "username", "email"]
  | userAuthenticated => ["user_id", "username"]
  | userProfileUpdated => ["user_id", "updated_fields"]
  | sessionCreated => ["session_id", "user_id", "device_info"]
  | sessionRevoked | tokenRefreshed => ["session_id", "user_id"]
  | roleCreated => ["role_id", "name"]
  | roleUpdated => ["role_id", "updated_fields"]
  | roleDeleted => ["role_id"]
  | userRoleAssigned => ["user_id", "role_id", "assigned_by"]
  | userRoleRevoked => ["user_id", "role_id", "revoked_by"]
  | accountLocked => ["user_id", "reason", "locked_until"]
  | passwordResetRequested => ["user_id", "email", "reset_token"]
  | emailVerificationRequested => ["user_id", "email", "verification_token"]
  | emailVerified => ["user_id", "email"]
  | twoFactorEnabled => ["user_id", "codes_issued"]
  | userDeleted | accountUnlocked | passwordResetCompleted | passwordChanged
  | twoFactorDisabled => ["user_id"]

/-- `EVENT_AGGREGATE`: the type of the aggregate, and the field that holds its id. -/
def aggregate : EventClass → String × String
  | sessionCreated | sessionRevoked | tokenRefreshed => ("Session", "session_id")
  | roleCreated | roleUpdated | roleDeleted | userRoleAssigned | userRoleRevoked =>
      ("Role", "role_id")
  | _ => ("User", "user_id")

/-- `EVENT_TO_ACTION`. -/
def action : EventClass → Option String
  | userCreated => some "user.created"
  | userAuthenticated => some "user.login"
  | userProfileUpdated => some "user.profile_updated"
  | userDeleted => some "user.deleted"
  | accountLocked => some "user.locked"
  | accountUnlocked => some "user.unlocked"
  | passwordResetCompleted => some "user.password_reset"
  | passwordChanged => some "user.password_changed"
  | emailVerified => some "user.email_verified"
  | twoFactorEnabled => some "user.two_factor_enabled"
  | twoFactorDisabled => some "user.two_factor_disabled"
  | sessionCreated => some "session.created"
  | sessionRevoked => some "session.revoked"
  | tokenRefreshed => some "session.refreshed"
  | userRoleAssigned => some "role.assigned"
  | userRoleRevoked => some "role.revoked"
  | roleCreated => some "role.created"
  | roleUpdated => some "role.updated"
  | roleDeleted => some "role.deleted"
  | passwordResetRequested | emailVerificationRequested => none

/-- No two fields of a class have one name. -/
theorem fieldNames_nodup (c : EventClass) : c.fieldNames.Nodup := by
  cases c <;> decide

/-- Neither the id of the aggregate nor that of the user is sensitive. -/
theorem ids_not_sensitive (c : EventClass) :
    c.aggregate.2 ∉ c.sensitiveFields ∧ "user_id" ∉ c.sensitiveFields := by
  cases c <;> decide

/-- The wire name determines the class. -/
theorem wireName_injective : Function.Injective wireName := by
  intro c c' h
  cases c <;> cases c' <;> first | rfl | exact absurd h (by decide)

end EventClass

/-! ### Events -/

/-- The value of an event field. -/
inductive FieldValue
  | uuid (u : Uuid)
  | optUuid (u : Option Uuid)
  | str (s : String)
  | optStr (s : Option String)
  | strs (l : List String)
  | dict (d : List (String × Option String))
  | optInstant (t : Option Instant)
  | int (n : ℤ)
deriving DecidableEq

/-- How `to_payload` encodes a field of each type. -/
def FieldValue.encode (env : Env) : FieldValue → PayloadValue
  | .uuid u => .str (env.uuidStr u)
  | .optUuid none | .optStr none | .optInstant none => .null
  | .optUuid (some u) => .str (env.uuidStr u)
  | .str s | .optStr (some s) => .str s
  | .strs l => .strs l
  | .dict d => .dict d
  | .optInstant (some t) => .str (env.isoformat t)
  | .int n => .int n

/-- A domain event, with the fields its class declares. -/
inductive DomainEvent
  | userCreated (userId : Uuid) (username : String) (email : Option String)
  | userAuthenticated (userId : Uuid) (username : String)
  | userProfileUpdated (userId : Uuid) (updatedFields : List String)
  | userDeleted (userId : Uuid)
  | sessionCreated (sessionId userId : Uuid) (deviceInfo : List (String × Option String))
  | sessionRevoked (sessionId userId : Uuid)
  | tokenRefreshed (sessionId userId : Uuid)
  | roleCreated (roleId : Uuid) (name : String)
  | roleUpdated (roleId : Uuid) (updatedFields : List String)
  | roleDeleted (roleId : Uuid)
  | userRoleAssigned (userId roleId : Uuid) (assignedBy : Option Uuid)
  | userRoleRevoked (userId roleId : Uuid) (revokedBy : Option Uuid)
  | accountLocked (userId : Uuid) (reason : String) (lockedUntil : Option Instant)
  | accountUnlocked (userId : Uuid)
  | passwordResetRequested (userId : Uuid) (email resetToken : String)
  | passwordResetCompleted (userId : Uuid)
  | passwordChanged (userId : Uuid)
  | emailVerificationRequested (userId : Uuid) (email verificationToken : String)
  | emailVerified (userId : Uuid) (email : String)
  | twoFactorEnabled (userId : Uuid) (codesIssued : ℤ)
  | twoFactorDisabled (userId : Uuid)
deriving DecidableEq

namespace DomainEvent

/-- The class of an event. -/
def cls : DomainEvent → EventClass
  | userCreated _ _ _ => .userCreated
  | userAuthenticated _ _ => .userAuthenticated
  | userProfileUpdated _ _ => .userProfileUpdated
  | userDeleted _ => .userDeleted
  | sessionCreated _ _ _ => .sessionCreated
  | sessionRevoked _ _ => .sessionRevoked
  | tokenRefreshed _ _ => .tokenRefreshed
  | roleCreated _ _ => .roleCreated
  | roleUpdated _ _ => .roleUpdated
  | roleDeleted _ => .roleDeleted
  | userRoleAssigned _ _ _ => .userRoleAssigned
  | userRoleRevoked _ _ _ => .userRoleRevoked
  | accountLocked _ _ _ => .accountLocked
  | accountUnlocked _ => .accountUnlocked
  | passwordResetRequested _ _ _ => .passwordResetRequested
  | passwordResetCompleted _ => .passwordResetCompleted
  | passwordChanged _ => .passwordChanged
  | emailVerificationRequested _ _ _ => .emailVerificationRequested
  | emailVerified _ _ => .emailVerified
  | twoFactorEnabled _ _ => .twoFactorEnabled
  | twoFactorDisabled _ => .twoFactorDisabled

/-- The fields of an event, in the order of its class. -/
def fields : DomainEvent → List (String × FieldValue)
  | userCreated u name email =>
      [("user_id", .uuid u), ("username", .str name), ("email", .optStr email)]
  | userAuthenticated u name => [("user_id", .uuid u), ("username", .str name)]
  | userProfileUpdated u updated => [("user_id", .uuid u), ("updated_fields", .strs updated)]
  | sessionCreated s u info =>
      [("session_id", .uuid s), ("user_id", .uuid u), ("device_info", .dict info)]
  | sessionRevoked s u | tokenRefreshed s u => [("session_id", .uuid s), ("user_id", .uuid u)]
  | roleCreated r name => [("role_id", .uuid r), ("name", .str name)]
  | roleUpdated r updated => [("role_id", .uuid r), ("updated_fields", .strs updated)]
  | roleDeleted r => [("role_id", .uuid r)]
  | userRoleAssigned u r by_ =>
      [("user_id", .uuid u), ("role_id", .uuid r), ("assigned_by", .optUuid by_)]
  | userRoleRevoked u r by_ =>
      [("user_id", .uuid u), ("role_id", .uuid r), ("revoked_by", .optUuid by_)]
  | accountLocked u reason until_ =>
      [("user_id", .uuid u), ("reason", .str reason), ("locked_until", .optInstant until_)]
  | passwordResetRequested u email token =>
      [("user_id", .uuid u), ("email", .str email), ("reset_token", .str token)]
  | emailVerificationRequested u email token =>
      [("user_id", .uuid u), ("email", .str email), ("verification_token", .str token)]
  | emailVerified u email => [("user_id", .uuid u), ("email", .str email)]
  | twoFactorEnabled u issued => [("user_id", .uuid u), ("codes_issued", .int issued)]
  | userDeleted u | accountUnlocked u | passwordResetCompleted u | passwordChanged u
  | twoFactorDisabled u => [("user_id", .uuid u)]

/-- `to_payload`: every class encodes its fields, in order. -/
def toPayload (env : Env) (e : DomainEvent) : Payload :=
  e.fields.map fun f => (f.1, f.2.encode env)

/-- **An event has the fields its class declares.** -/
theorem keys (e : DomainEvent) : e.fields.map Prod.fst = e.cls.fieldNames := by
  cases e <;> rfl

/-- `event_aggregate`: the id is read back from the payload. -/
def aggregate (env : Env) (e : DomainEvent) : String × Option Uuid :=
  (e.cls.aggregate.1, match Dict.get (e.toPayload env) e.cls.aggregate.2 with
    | some (.str s) => env.parseUuid s
    | _ => none)

/-- `getattr(event, 'user_id', None)`. -/
def userId (e : DomainEvent) : Option Uuid :=
  match Dict.get e.fields "user_id" with
  | some (.uuid u) => some u
  | _ => none

end DomainEvent

/-! ### The stored row, the published message and the audit entry -/

/-- `OutboxEvent`. -/
structure OutboxEvent where
  id : Uuid
  aggregateType : String
  aggregateId : Option Uuid
  eventType : String
  payload : Payload
  sensitiveKeys : Option (List String)
  createdAt : Instant
  processedAt : Option Instant := none
  attempts : ℕ := 0
  lastError : Option String := none
  nextAttemptAt : Option Instant := none
  failedAt : Option Instant := none
deriving DecidableEq

/-- The row `_persist_outbox_event` adds, as the table holds it. -/
def persistOutboxEvent (env : Env) (id : Uuid) (now : Instant) (e : DomainEvent) : OutboxEvent :=
  let sensitive := e.cls.sensitiveFields.insertionSort (· ≤ ·)
  { id := id
    aggregateType := (e.aggregate env).1
    aggregateId := (e.aggregate env).2
    eventType := e.cls.wireName
    payload := (e.toPayload env).jsonb
    sensitiveKeys := if sensitive = [] then none else some sensitive
    createdAt := now }

/-- `REDACTED`. -/
def redacted : String := "[redacted]"

/-- The published message body. -/
structure WirePayload where
  eventType : String
  eventId : String
  aggregateType : String
  aggregateId : Option String
  payload : Payload
  createdAt : String
deriving DecidableEq

/-- `wire_payload`. -/
def wirePayload (env : Env) (e : OutboxEvent) : WirePayload where
  eventType := e.eventType
  eventId := env.uuidStr e.id
  aggregateType := e.aggregateType
  aggregateId := e.aggregateId.map env.uuidStr
  payload := Dict.mask (e.sensitiveKeys.getD []) (.str redacted) e.payload
  createdAt := env.isoformat e.createdAt

/-- What the broker gets. -/
structure Message where
  body : Bytes
  messageId : String
  routingKey : String
deriving DecidableEq

/-- The message of `publish_event`. The body is what the JSON adapter makes of the payload. -/
def publishEvent (env : Env) (dumpJson : WirePayload → Bytes) (e : OutboxEvent) : Message where
  body := dumpJson (wirePayload env e)
  messageId := env.uuidStr e.id
  routingKey := e.eventType

/-- `_event_to_audit`. -/
def auditEntry (env : Env) (id : Uuid) (now : Instant) (e : DomainEvent) : Option AuditRow :=
  e.cls.action.map fun action =>
    { id := id
      userId := e.userId
      action := action
      entityType := (e.aggregate env).1
      entityId := (e.aggregate env).2
      timestamp := now
      success := true }

/-! ### The events of the use cases -/

/-- An event of the use cases as a domain event. -/
def Event.toDomain : Event → DomainEvent
  | .userCreated u name email => .userCreated u name email
  | .userAuthenticated u name => .userAuthenticated u name
  | .userProfileUpdated u updated => .userProfileUpdated u updated
  | .userDeleted u => .userDeleted u
  | .sessionCreated s u agent ip device => .sessionCreated s u
      [("user_agent", agent), ("ip_address", ip), ("device_name", device)]
  | .sessionRevoked s u => .sessionRevoked s u
  | .tokenRefreshed s u => .tokenRefreshed s u
  | .accountLocked u reason until_ => .accountLocked u reason until_
  | .accountUnlocked u => .accountUnlocked u
  | .passwordResetRequested u email token => .passwordResetRequested u email token
  | .passwordResetCompleted u => .passwordResetCompleted u
  | .passwordChanged u => .passwordChanged u
  | .emailVerificationRequested u email token => .emailVerificationRequested u email token
  | .emailVerified u email => .emailVerified u email
  | .twoFactorEnabled u issued => .twoFactorEnabled u issued
  | .twoFactorDisabled u => .twoFactorDisabled u

/-- The row a use case inserts, with all its columns. -/
def OutboxRow.stored (env : Env) (o : OutboxRow) : OutboxEvent :=
  persistOutboxEvent env o.id o.createdAt o.event.toDomain

/-- **The aggregate of an event**: reading its id back from the payload gives the id. -/
theorem Event.toDomain_aggregate (env : Env) (e : Event) :
    e.toDomain.aggregate env = ((eventAggregate e).1, some (eventAggregate e).2) := by
  cases e <;> exact congrArg (Prod.mk _) (env.parseUuid_uuidStr _)

/-- **The audit rows of the use cases** are the entries of their events. -/
theorem Event.toDomain_audit (env : Env) (id : Uuid) (now : Instant) (e : Event) :
    auditEntry env id now e.toDomain = eventToAudit id now e := by
  rw [auditEntry, Event.toDomain_aggregate]
  cases e <;> rfl

/-! ### Two events that differ in a secret -/

/-- The two events have one class and differ at most in its sensitive fields. -/
structure AgreeOutsideSecrets (e e' : DomainEvent) : Prop where
  cls : e.cls = e'.cls
  fields : ∀ k, k ∉ e.cls.sensitiveFields → Dict.get e.fields k = Dict.get e'.fields k

namespace AgreeOutsideSecrets

variable {env : Env} {e e' : DomainEvent}

/-- Their payloads differ at most at the sensitive keys. -/
theorem payload (h : AgreeOutsideSecrets e e') {k : String} (hk : k ∉ e.cls.sensitiveFields) :
    Dict.get (e.toPayload env) k = Dict.get (e'.toPayload env) k := by
  rw [DomainEvent.toPayload, DomainEvent.toPayload, Dict.get_map, Dict.get_map, h.fields k hk]

/-- They belong to one aggregate. -/
theorem aggregate (h : AgreeOutsideSecrets e e') : e.aggregate env = e'.aggregate env := by
  rw [DomainEvent.aggregate, DomainEvent.aggregate, ← h.cls,
    h.payload e.cls.ids_not_sensitive.1]

/-- They belong to one user. -/
theorem userId (h : AgreeOutsideSecrets e e') : e.userId = e'.userId := by
  rw [DomainEvent.userId, DomainEvent.userId, h.fields _ e.cls.ids_not_sensitive.2]

/-- **Their stored payloads are the same once the sensitive keys are overwritten.** -/
theorem masked (h : AgreeOutsideSecrets e e') (v : PayloadValue) :
    Dict.mask e.cls.sensitiveFields v (e.toPayload env).jsonb =
      Dict.mask e.cls.sensitiveFields v (e'.toPayload env).jsonb := by
  have hstored : ∀ e : DomainEvent, ((e.toPayload env).map fun f => (f.1, f.2.jsonb)) =
      e.fields.map fun f => (f.1, (f.2.encode env).jsonb) := fun e => by
    rw [DomainEvent.toPayload, List.map_map]
    rfl
  have hkeys : ∀ e : DomainEvent, ((e.fields.map fun f => (f.1, (f.2.encode env).jsonb)).map
      Prod.fst) = e.cls.fieldNames := fun e => by
    rw [List.map_map, ← e.keys]
    rfl
  rw [Payload.jsonb, Payload.jsonb, Dict.mask_sort, Dict.mask_sort, hstored, hstored]
  refine congrArg _ (Dict.mask_eq ?_ ?_ ?_ v)
  · rw [hkeys, hkeys, h.cls]
  · rw [hkeys]
    exact e.cls.fieldNames_nodup
  · intro k hk
    rw [Dict.get_map fun v : FieldValue => (v.encode env).jsonb,
      Dict.get_map fun v : FieldValue => (v.encode env).jsonb, h.fields k hk]

end AgreeOutsideSecrets

/-- **Secrets stay inside.** Two events of one class that differ at most in sensitive fields,
stored under one id at one instant, are published as the same message under the same routing
key, and have the same audit entry. -/
theorem secrets_stay_inside (env : Env) (dumpJson : WirePayload → Bytes) {e e' : DomainEvent}
    (h : AgreeOutsideSecrets e e') (rowId entryId : Uuid) (createdAt timestamp : Instant) :
    publishEvent env dumpJson (persistOutboxEvent env rowId createdAt e) =
        publishEvent env dumpJson (persistOutboxEvent env rowId createdAt e') ∧
      auditEntry env entryId timestamp e = auditEntry env entryId timestamp e' := by
  have hkeys : ∀ e : DomainEvent,
      ((persistOutboxEvent env rowId createdAt e).sensitiveKeys.getD []) =
        e.cls.sensitiveFields := fun e => by
    rw [persistOutboxEvent]
    cases e <;> rfl
  have hwire : wirePayload env (persistOutboxEvent env rowId createdAt e) =
      wirePayload env (persistOutboxEvent env rowId createdAt e') := by
    rw [wirePayload, wirePayload, hkeys, hkeys, ← h.cls]
    simp only [persistOutboxEvent, h.cls, h.aggregate]
    rw [← h.cls, h.masked]
  constructor
  · rw [publishEvent, publishEvent, hwire]
    simp only [persistOutboxEvent, h.cls]
  · rw [auditEntry, auditEntry, h.cls, h.userId, h.aggregate]

/-- A request for a password reset. -/
def resetRequest (token : String) : DomainEvent :=
  .passwordResetRequested Reference.aliceId "alice@example.com" token

/-- Two requests for a password reset with different tokens are stored as different rows, and
published as one message. -/
theorem reset_tokens_stay_inside :
    persistOutboxEvent Reference.env 7 0 (resetRequest "first-token") ≠
        persistOutboxEvent Reference.env 7 0 (resetRequest "second-token") ∧
      ∀ dumpJson, publishEvent Reference.env dumpJson
          (persistOutboxEvent Reference.env 7 0 (resetRequest "first-token")) =
        publishEvent Reference.env dumpJson
          (persistOutboxEvent Reference.env 7 0 (resetRequest "second-token")) := by
  have hagree : AgreeOutsideSecrets (resetRequest "first-token") (resetRequest "second-token") := by
    refine ⟨rfl, fun k hk => ?_⟩
    have hk' : "reset_token" ≠ k := fun h => hk (List.mem_singleton.mpr h.symm)
    simp only [resetRequest, DomainEvent.fields, Dict.get_cons, if_neg hk']
  exact ⟨by decide +kernel, fun dumpJson => (secrets_stay_inside _ dumpJson hagree 7 8 0 0).1⟩

end BackendTemplate
