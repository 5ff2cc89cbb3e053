import BackendTemplate.Events
import BackendTemplate.Json

/-!
# Event Consumers

Four queues take the events of accounts from the exchange. Each is bound to a routing key, and its
handler reads the body of a message by a schema of its own. The publisher's side of this is
`BackendTemplate.Events`: the row that a commit stores, and the message that is made of it.

The JSON text in between is that of pydantic, which is assumed to be read back as it was written.

## Main results

* `wirePayload_member` — a field of an event in the payload that is published.
* `consumers_decode` — a consumer gets what was committed.
-/

namespace BackendTemplate

open Json

/-! ### The body of a message -/

/-- A payload value as JSON. -/
def PayloadValue.json : PayloadValue → Json
  | .null => .null
  | .str s => .str s
  | .int n => .int n
  | .strs l => .arr (l.map .str)
  | .dict d => .obj (d.map fun e => (e.1, e.2.elim .null .str))

/-- A message body as JSON. -/
def WirePayload.json (w : WirePayload) : Json :=
  .obj [("event_type", .str w.eventType), ("event_id", .str w.eventId),
    ("aggregate_type", .str w.aggregateType), ("aggregate_id", w.aggregateId.elim .null .str),
    ("payload", .obj (w.payload.map fun e => (e.1, e.2.json))), ("created_at", .str w.createdAt)]

/-! ### The schemas -/

/-- `EventData`. -/
structure EventData (α : Type) where
  eventType : String
  eventId : String
  aggregateType : String
  aggregateId : Option String
  createdAt : Instant
  payload : α
deriving DecidableEq

/-- `EventData.model_validate`, given how a `datetime` and the payload are read. -/
def EventData.validate {α : Type} (parseDatetime : String → Option Instant)
    (readPayload : Json → Option α) (j : Json) : Option (EventData α) := do
  let eventType ← j.field string none "event_type"
  let eventId ← j.field string none "event_id"
  let aggregateType ← j.field string none "aggregate_type"
  let aggregateId ← j.field optString none "aggregate_id"
  let createdAt ← j.field (fun v => (string v).bind parseDatetime) none "created_at"
  let payload ← j.field readPayload none "payload"
  pure ⟨eventType, eventId, aggregateType, aggregateId, createdAt, payload⟩

/-- `UserCreatedEventSchema`. -/
structure UserCreatedEventSchema where
  userId : String
  username : String
  email : Option String := none
deriving DecidableEq

/-- `UserAuthenticatedEventSchema`. -/
structure UserAuthenticatedEventSchema where
  userId : String
  username : String
deriving DecidableEq

/-- `UserProfileUpdatedEventSchema`. -/
structure UserProfileUpdatedEventSchema where
  userId : String
  updatedFields : List String
deriving DecidableEq

/-- `UserDeletedEventSchema`. -/
structure UserDeletedEventSchema where
  userId : String
deriving DecidableEq

def UserCreatedEventSchema.validate (j : Json) : Option UserCreatedEventSchema := do
  let userId ← j.field string none "user_id"
  let username ← j.field string none "username"
  let email ← j.field optString (some none) "email"
  pure ⟨userId, username, email⟩

def UserAuthenticatedEventSchema.validate (j : Json) : Option UserAuthenticatedEventSchema := do
  let userId ← j.field string none "user_id"
  let username ← j.field string none "username"
  pure ⟨userId, username⟩

def UserProfileUpdatedEventSchema.validate (j : Json) : Option UserProfileUpdatedEventSchema := do
  let userId ← j.field string none "user_id"
  let updatedFields ← j.field strings none "updated_fields"
  pure ⟨userId, updatedFields⟩

def UserDeletedEventSchema.validate (j : Json) : Option UserDeletedEventSchema := do
  let userId ← j.field string none "user_id"
  pure ⟨userId⟩

/-! ### The subscribers -/

/-- `RabbitQueue`, with its binding to `domain_events`. -/
structure RabbitQueue where
  name : String
  routingKey : String

/-- What a handler is called with. -/
inductive Received
  | userCreated (event : EventData UserCreatedEventSchema)
  | userAuthenticated (event : EventData UserAuthenticatedEventSchema)
  | userProfileUpdated (event : EventData UserProfileUpdatedEventSchema)
  | userDeleted (event : EventData UserDeletedEventSchema)
deriving DecidableEq

/-- A handler with its queue, and how it reads the body of a message. -/
structure Subscriber where
  queue : RabbitQueue
  read : Json → Option Received

section Subscribers

variable (parseDatetime : String → Option Instant)

/-- `handle_user_created`. -/
def handleUserCreated : Subscriber where
  queue := ⟨"user_created_queue", "UserCreatedEvent"⟩
  read j := (EventData.validate parseDatetime UserCreatedEventSchema.validate j).map .userCreated

/-- `handle_user_authenticated`. -/
def handleUserAuthenticated : Subscriber where
  queue := ⟨"user_authenticated_queue", "UserAuthenticatedEvent"⟩
  read j := (EventData.validate parseDatetime UserAuthenticatedEventSchema.validate j).map
    .userAuthenticated

/-- `handle_user_profile_updated`. -/
def handleUserProfileUpdated : Subscriber where
  queue := ⟨"user_profile_updated_queue", "UserProfileUpdatedEvent"⟩
  read j := (EventData.validate parseDatetime UserProfileUpdatedEventSchema.validate j).map
    .userProfileUpdated

/-- `handle_user_deleted`. -/
def handleUserDeleted : Subscriber where
  queue := ⟨"user_deleted_queue", "UserDeletedEvent"⟩
  read j := (EventData.validate parseDatetime UserDeletedEventSchema.validate j).map .userDeleted

end Subscribers

/-! ### The events that are consumed -/

/-- An event that has a consumer. -/
inductive UserEvent
  | created (userId : Uuid) (username : String) (email : Option String)
  | authenticated (userId : Uuid) (username : String)
  | profileUpdated (userId : Uuid) (updatedFields : List String)
  | deleted (userId : Uuid)
deriving DecidableEq

namespace UserEvent

def toDomain : UserEvent → DomainEvent
  | created u name email => .userCreated u name email
  | authenticated u name => .userAuthenticated u name
  | profileUpdated u updated => .userProfileUpdated u updated
  | deleted u => .userDeleted u

def userId : UserEvent → Uuid
  | created u _ _ | authenticated u _ | profileUpdated u _ | deleted u => u

/-- Who consumes the event. -/
def subscriber (parseDatetime : String → Option Instant) : UserEvent → Subscriber
  | created _ _ _ => handleUserCreated parseDatetime
  | authenticated _ _ => handleUserAuthenticated parseDatetime
  | profileUpdated _ _ => handleUserProfileUpdated parseDatetime
  | deleted _ => handleUserDeleted parseDatetime

/-- **What the consumer should get**: the values of the event, and where and when it was stored. -/
def expected (env : Env) (id : Uuid) (now : Instant) (e : UserEvent) : Received :=
  let data {α : Type} (payload : α) : EventData α :=
    { eventType := e.toDomain.cls.wireName
      eventId := env.uuidStr id
      aggregateType := "User"
      aggregateId := some (env.uuidStr e.userId)
      createdAt := now
      payload := payload }
  match e with
  | created u name email => .userCreated (data ⟨env.uuidStr u, name, email⟩)
  | authenticated u name => .userAuthenticated (data ⟨env.uuidStr u, name⟩)
  | profileUpdated u updated => .userProfileUpdated (data ⟨env.uuidStr u, updated⟩)
  | deleted u => .userDeleted (data ⟨env.uuidStr u⟩)

end UserEvent

/-- The row of an event as it is when it is published: after any number of failed attempts. -/
def committedRow (env : Env) (id : Uuid) (now : Instant) (e : DomainEvent) (attempts : ℕ)
    (lastError : Option String) (nextAttemptAt : Option Instant) : OutboxEvent :=
  { persistOutboxEvent env id now e with
    attempts := attempts
    lastError := lastError
    nextAttemptAt := nextAttemptAt }

variable {env : Env} {id : Uuid} {now : Instant}

/-- **A field of an event in the published payload**, unless it is sensitive. -/
theorem wirePayload_member (e : DomainEvent) {k : String} (hk : k ∉ e.cls.sensitiveFields) :
    (Json.obj ((wirePayload env (persistOutboxEvent env id now e)).payload.map
        fun f => (f.1, f.2.json))).member k =
      (Dict.get e.fields k).map fun v => (v.encode env).jsonb.json := by
  have hkeys : (((e.toPayload env).map fun f => (f.1, f.2.jsonb)).map Prod.fst).Nodup := by
    rw [List.map_map, DomainEvent.toPayload, List.map_map]
    exact e.keys ▸ e.cls.fieldNames_nodup
  have hsensitive : (persistOutboxEvent env id now e).sensitiveKeys.getD [] =
      e.cls.sensitiveFields := by
    cases e <;> rfl
  rw [member, Dict.get_map, wirePayload, hsensitive, Dict.get_mask hk, persistOutboxEvent]
  change (Dict.get (Dict.sort jsonbLe _) k).map _ = _
  rw [Dict.get_sort _ hkeys, Dict.get_map, DomainEvent.toPayload, Dict.get_map, Option.map_map,
    Option.map_map]
  rfl

/-- The payload of an event that has a consumer. -/
abbrev payloadJson (env : Env) (id : Uuid) (now : Instant) (e : UserEvent) : Json :=
  .obj ((wirePayload env (persistOutboxEvent env id now e.toDomain)).payload.map
    fun f => (f.1, f.2.json))

/-- None of these events has a sensitive field. -/
theorem payloadJson_member (e : UserEvent) (k : String) :
    (payloadJson env id now e).member k =
      (Dict.get e.toDomain.fields k).map fun v => (v.encode env).jsonb.json := by
  refine wirePayload_member e.toDomain ?_
  cases e <;> exact List.not_mem_nil

/-- A message is read field by field. -/
theorem validate_json {α : Type} {parseDatetime : String → Option Instant}
    {readPayload : Json → Option α} {w : WirePayload} {aggregateId : Option String} {t : Instant}
    {payload : α} (haggregate : optString (w.aggregateId.elim .null .str) = some aggregateId)
    (hdate : parseDatetime w.createdAt = some t)
    (hpayload : readPayload (.obj (w.payload.map fun e => (e.1, e.2.json))) = some payload) :
    EventData.validate parseDatetime readPayload w.json =
      some ⟨w.eventType, w.eventId, w.aggregateType, aggregateId, t, payload⟩ := by
  have hread : w.json.field (fun v => (string v).bind parseDatetime) none "created_at" = some t :=
    hdate
  have hhead : w.json.field optString none "aggregate_id" = some aggregateId := haggregate
  have hbody : w.json.field readPayload none "payload" = some payload := hpayload
  rw [EventData.validate, hhead, hread, hbody]
  rfl

/-- The head of a message is read as the event was stored. -/
theorem validate_stored {α : Type} {parseDatetime : String → Option Instant}
    {readPayload : Json → Option α} {payload : α} {e : UserEvent}
    (hdate : parseDatetime (env.isoformat now) = some now)
    (hpayload : readPayload (payloadJson env id now e) = some payload) :
    EventData.validate parseDatetime readPayload
        (wirePayload env (persistOutboxEvent env id now e.toDomain)).json =
      some
        { eventType := e.toDomain.cls.wireName
          eventId := env.uuidStr id
          aggregateType := "User"
          aggregateId := some (env.uuidStr e.userId)
          createdAt := now
          payload := payload } := by
  have haggregate : e.toDomain.aggregate env = ("User", some e.userId) := by
    cases e <;> exact congrArg (Prod.mk _) (env.parseUuid_uuidStr _)
  have htype : (wirePayload env (persistOutboxEvent env id now e.toDomain)).aggregateType =
      "User" := by
    rw [wirePayload, persistOutboxEvent, haggregate]
  have hid : (wirePayload env (persistOutboxEvent env id now e.toDomain)).aggregateId =
      some (env.uuidStr e.userId) := by
    rw [wirePayload, persistOutboxEvent, haggregate, Option.map_some]
  have hread : optString ((wirePayload env
      (persistOutboxEvent env id now e.toDomain)).aggregateId.elim .null .str) =
        some (some (env.uuidStr e.userId)) := by
    rw [hid]
    rfl
  rw [validate_json hread hdate hpayload, htype]
  rfl

/-- **A consumer's schema reads the payload of its event.** -/
theorem read_stored {parseDatetime : String → Option Instant} (e : UserEvent)
    (hdate : parseDatetime (env.isoformat now) = some now) :
    (e.subscriber parseDatetime).read
        (wirePayload env (persistOutboxEvent env id now e.toDomain)).json =
      some (e.expected env id now) := by
  have hfield : ∀ {β : Type} {read : Json → Option β} {default : Option β} {k : String}
      {v : FieldValue}, Dict.get e.toDomain.fields k = some v →
        (payloadJson env id now e).field read default k = read (v.encode env).jsonb.json := by
    intro β read default k v hv
    refine field_of_member ?_
    rw [payloadJson_member, hv, Option.map_some]
  cases e with
  | created u name email =>
      have hemail : (payloadJson env id now (.created u name email)).field optString (some none)
          "email" = some email := by
        rw [hfield rfl]
        cases email <;> rfl
      have hpayload : UserCreatedEventSchema.validate
          (payloadJson env id now (.created u name email)) =
            some ⟨env.uuidStr u, name, email⟩ := by
        rw [UserCreatedEventSchema.validate, hemail, hfield rfl, hfield rfl]
        rfl
      exact congrArg (Option.map Received.userCreated) (validate_stored hdate hpayload)
  | authenticated u name =>
      have hpayload : UserAuthenticatedEventSchema.validate
          (payloadJson env id now (.authenticated u name)) = some ⟨env.uuidStr u, name⟩ := by
        rw [UserAuthenticatedEventSchema.validate, hfield rfl, hfield rfl]
        rfl
      exact congrArg (Option.map Received.userAuthenticated) (validate_stored hdate hpayload)
  | profileUpdated u updated =>
      have hupdated : (payloadJson env id now (.profileUpdated u updated)).field strings none
          "updated_fields" = some updated := by
        rw [hfield (v := .strs updated) rfl]
        exact strings_arr updated
      have hpayload : UserProfileUpdatedEventSchema.validate
          (payloadJson env id now (.profileUpdated u updated)) =
            some ⟨env.uuidStr u, updated⟩ := by
        rw [UserProfileUpdatedEventSchema.validate, hupdated, hfield rfl]
        rfl
      exact congrArg (Option.map Received.userProfileUpdated) (validate_stored hdate hpayload)
  | deleted u =>
      have hpayload : UserDeletedEventSchema.validate (payloadJson env id now (.deleted u)) =
          some ⟨env.uuidStr u⟩ := by
        rw [UserDeletedEventSchema.validate, hfield rfl]
        rfl
      exact congrArg (Option.map Received.userDeleted) (validate_stored hdate hpayload)

/-- **Consumers get what was committed.** For every event that has a consumer, stored under any id
at any instant and published at once or after any failures, as long as the JSON text of this message
and its date are read back as they were written: the message has the routing key that the
consumer's queue is bound to, and what the consumer's schema makes of the body has the values of
the event, the id of the row, the aggregate and the instant. -/
theorem consumers_decode (e : UserEvent) (attempts : ℕ) (lastError : Option String)
    (nextAttemptAt : Option Instant) (dump : Json → Bytes) (load : Bytes → Option Json)
    {parseDatetime : String → Option Instant}
    (hjson : ∀ w, w = wirePayload env (persistOutboxEvent env id now e.toDomain) →
      load (dump w.json) = some w.json)
    (hdate : parseDatetime (env.isoformat now) = some now) :
    let message := publishEvent env (fun w => dump w.json)
      (committedRow env id now e.toDomain attempts lastError nextAttemptAt)
    message.routingKey = (e.subscriber parseDatetime).queue.routingKey ∧
      message.messageId = env.uuidStr id ∧
      (load message.body).bind (e.subscriber parseDatetime).read = some (e.expected env id now) := by
  have hbody : (publishEvent env (fun w => dump w.json)
      (committedRow env id now e.toDomain attempts lastError nextAttemptAt)).body =
        dump (wirePayload env (persistOutboxEvent env id now e.toDomain)).json := rfl
  refine ⟨?_, rfl, ?_⟩
  · cases e <;> rfl
  · rw [hbody, hjson _ rfl]
    exact read_stored e hdate

/-! ### A new account -/

open Reference

/-- The account of alice is new. -/
def aliceCreated : UserEvent := .created aliceId "alice" (some "alice@example.com")

/-- The message on it, as JSON. -/
def aliceJson : Json :=
  (wirePayload Reference.env (persistOutboxEvent Reference.env 7 clock aliceCreated.toDomain)).json

/-- The text of that JSON. -/
def aliceText : Bytes :=
  ("\x7b\"event_type\":\"UserCreatedEvent\"," ++
    "\"event_id\":\"00000000-0000-0000-0000-000000000007\",\"aggregate_type\":\"User\"," ++
    "\"aggregate_id\":\"2c9e1f70-5b3d-4e88-a1c4-0000000000a1\"," ++
    "\"payload\":\x7b\"email\":\"alice@example.com\"," ++
    "\"user_id\":\"2c9e1f70-5b3d-4e88-a1c4-0000000000a1\",\"username\":\"alice\"\x7d," ++
    "\"created_at\":\"2023-11-14T22:13:20+00:00\"\x7d").toUTF8.toList

/-- Reading that text. -/
def readAliceText (b : Bytes) : Option Json := if b = aliceText then some aliceJson else none

/-- Reading the date in it. -/
def readAliceDate (s : String) : Option Instant :=
  if s = Reference.env.isoformat clock then some clock else none

/-- The consumer of new accounts gets alice, after a failed attempt. -/
theorem alice_announced :
    let message := publishEvent Reference.env (fun _ => aliceText)
      (committedRow Reference.env 7 clock aliceCreated.toDomain 1 (some "ConnectionError()") none)
    message.routingKey = (handleUserCreated readAliceDate).queue.routingKey ∧
      message.messageId = Reference.env.uuidStr 7 ∧
      (readAliceText message.body).bind (handleUserCreated readAliceDate).read =
        some (aliceCreated.expected Reference.env 7 clock) := by
  refine consumers_decode aliceCreated 1 (some "ConnectionError()") none (fun _ => aliceText)
    readAliceText ?_ (if_pos rfl)
  rintro w rfl
  exact if_pos rfl

end BackendTemplate
