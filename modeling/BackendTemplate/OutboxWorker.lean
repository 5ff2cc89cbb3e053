import Mathlib.Logic.Relation
import BackendTemplate.Events

/-!
# The Outbox Worker

Any number of `OutboxWorker`s relay one `outbox_events` table, while use cases commit new rows,
operators replay dead-lettered ones and the maintenance job prunes processed ones.

A batch is one transaction: it claims rows, publishes each, sends the emails of the published
ones, marks these processed, reschedules the others, and commits. `Relay.step` runs it one
statement at a time; a worker may crash between any two, which rolls its transaction back and
takes nothing back from the broker or the mail server. A failing statement and a failing commit
do the same, so they are crashes here.

The machine keeps two records that the code does not have. `effects` is what the outside world
has seen; a crash leaves it. `journal` is what happened to each row in the transactions that
committed.

## Main definitions

* `OutboxRepository.getUnprocessed`, `markProcessed`, `reschedule`, `replay`,
  `deleteProcessedOlderThan` — the statements of the repository.
* `Relay.step` — one step of the system, `Relay.Reach` its runs.
-/

namespace BackendTemplate

variable {ι : Type}

/-! ### The repository -/

namespace OutboxRepository

/-- `MAX_ATTEMPTS`. -/
def maxAttempts : ℕ := 8

/-- `BACKOFF_CAP_SECONDS`. -/
def backoffCapSeconds : ℕ := 300

/-- `backoff_delay`. -/
def backoffDelay (attempts : ℕ) : ℤ := seconds (min (1 <<< attempts) backoffCapSeconds : ℕ)

/-- The `WHERE` clause of `get_unprocessed`. -/
def due (now : Instant) (e : OutboxEvent) : Bool :=
  e.processedAt.isNone && e.failedAt.isNone && match e.nextAttemptAt with
    | none => true
    | some t => decide (t ≤ now)

/-- The `ORDER BY` clause of `get_unprocessed`. -/
def Before (a b : OutboxEvent) : Prop :=
  a.createdAt < b.createdAt ∨ a.createdAt = b.createdAt ∧ a.id ≤ b.id

instance : DecidableRel Before := fun _ _ => inferInstanceAs (Decidable (_ ∨ _))

/-- `get_unprocessed`: the rows that are due and not locked, oldest first, up to the limit. -/
def getUnprocessed (rows : List OutboxEvent) (locked : Uuid → Bool) (now : Instant)
    (limit : ℕ) : List OutboxEvent :=
  ((rows.insertionSort Before).filter fun e => due now e && !locked e.id).take limit

/-- `mark_processed`, on one event. -/
def markProcessed (now : Instant) (e : OutboxEvent) : OutboxEvent :=
  { e with
    payload := Dict.drop (e.sensitiveKeys.getD []) e.payload
    sensitiveKeys := none
    processedAt := some now
    lastError := none }

/-- `reschedule`. -/
def reschedule (now : Instant) (error : String) (e : OutboxEvent) : OutboxEvent :=
  let e := { e with
    attempts := e.attempts + 1
    lastError := some (String.ofList (error.toList.take 2000)) }
  if e.attempts ≥ maxAttempts then { e with failedAt := some now, nextAttemptAt := none }
  else { e with nextAttemptAt := some (now + backoffDelay e.attempts) }

/-- What `replay` sets. -/
def replayed (e : OutboxEvent) : OutboxEvent :=
  { e with failedAt := none, attempts := 0, nextAttemptAt := none, lastError := none }

/-- The `WHERE` clause of `replay`. -/
def replays (ids : List Uuid) (e : OutboxEvent) : Bool := e.id ∈ ids && e.failedAt.isSome

/-- `replay`. -/
def replay (ids : List Uuid) (rows : List OutboxEvent) : List OutboxEvent :=
  rows.map fun e => if replays ids e then replayed e else e

/-- The `WHERE` clause of `delete_processed_older_than`. -/
def processedBefore (before : Instant) (e : OutboxEvent) : Bool :=
  match e.processedAt with
  | none => false
  | some t => decide (t < before)

/-- `delete_processed_older_than`. -/
def deleteProcessedOlderThan (before : Instant) (rows : List OutboxEvent) : List OutboxEvent :=
  rows.filter fun e => !processedBefore before e

end OutboxRepository

open OutboxRepository

/-! ### Emails -/

/-- `_EMAIL_TEMPLATES`: the payload key of the token, for the event types that have an email. -/
def emailTokenKey : String → Option String
  | "EmailVerificationRequestedEvent" => some "verification_token"
  | "PasswordResetRequestedEvent" => some "reset_token"
  | _ => none

/-- The recipient and the token of the email of an event, where `_send_email` gets as far as
calling the sender. -/
def emailOf (e : OutboxEvent) : Option (String × String) :=
  match emailTokenKey e.eventType with
  | none => none
  | some key => match Dict.get e.payload "email", Dict.get e.payload key with
    | some (.str recipient), some (.str token) =>
        if recipient = "" then none else some (recipient, token)
    | _, _ => none

/-! ### A batch -/

/-- `PublishFailure`. -/
structure PublishFailure where
  eventId : Uuid
  error : String
deriving DecidableEq

/-- What a batch has yet to do, statement by statement. -/
inductive Todo
  /-- Publish these events, then see to the rest. -/
  | publish (rest : List OutboxEvent)
  /-- Send the emails of these events. -/
  | send (rest : List OutboxEvent)
  /-- Mark the published events processed. -/
  | mark
  /-- Reschedule those of these events that failed, then commit. -/
  | reschedule (rest : List OutboxEvent)
deriving DecidableEq

/-- The transaction of `_process_batch`, once it has claimed its events. -/
structure Batch where
  /-- The events, as they were read. -/
  events : List OutboxEvent
  /-- The events that could not be published. -/
  failures : List PublishFailure := []
  /-- What it has yet to do. -/
  todo : Todo
  /-- The changed events, which the commit writes back. No event is changed twice. -/
  dirty : List OutboxEvent := []
  /-- When each failure was recorded. -/
  recorded : List (Uuid × Instant) := []
deriving DecidableEq

namespace Batch

/-- `failed_ids`. -/
def failedIds (b : Batch) : List Uuid := b.failures.map PublishFailure.eventId

/-- `published`. -/
def published (b : Batch) : List OutboxEvent := b.events.filter fun e => e.id ∉ b.failedIds

/-- `errors[id]`: the last entry of a key stands. -/
def error (b : Batch) (id : Uuid) : String :=
  ((b.failures.reverse.find? fun f => f.eventId = id).map PublishFailure.error).getD ""

/-- The row the commit leaves in the place of a row. -/
def flush (b : Batch) (row : OutboxEvent) : OutboxEvent :=
  (Keyed.lookup OutboxEvent.id b.dirty row.id).getD row

end Batch

/-! ### The system -/

/-- What the outside world has seen. -/
inductive Effect
  /-- An event was handed to the broker, which accepted it or not. -/
  | published (id : Uuid) (accepted : Bool)
  /-- The sender was called for an event, and returned or raised. -/
  | sent (id : Uuid) (returned : Bool)
deriving DecidableEq

/-- What a committed transaction did to a row. -/
inductive RowEntry
  | inserted (id : Uuid)
  /-- A failed publish, recorded at an instant. -/
  | failed (id : Uuid) (t : Instant)
  | processed (id : Uuid)
  | replayed (id : Uuid)
deriving DecidableEq

/-- How the workers are set up. -/
structure WorkerConfig where
  /-- Whether there is an email sender, with its configuration. -/
  emails : Bool
  batchSize : ℕ

/-- The state of the system. -/
structure Relay (ι : Type) where
  /-- The committed `outbox_events` table. -/
  rows : List OutboxEvent := []
  /-- The open batch of each worker. -/
  batches : ι → Option Batch := fun _ => none
  clock : Instant := 0
  /-- How many random ids have been drawn. -/
  rng : ℕ := 0
  /-- Newest first. -/
  effects : List Effect := []
  /-- Newest first. -/
  journal : List RowEntry := []

/-- The steps of the system. The outcome of a statement is the error it raises, if any. -/
inductive RelayLabel (ι : Type)
  /-- `SQLAlchemyUoW.commit` of a use case that has recorded these events. -/
  | insert (events : List DomainEvent)
  /-- A worker begins a batch. -/
  | claim (i : ι)
  /-- The next statement of a worker's batch. -/
  | advance (i : ι) (outcome : Except String Unit)
  /-- A worker's transaction is rolled back. -/
  | crash (i : ι)
  | replay (ids : List Uuid)
  | prune (before : Instant)
  /-- Time passes. -/
  | tick (d : ℕ)
  /-- Ids are drawn elsewhere. -/
  | draw (n : ℕ)

namespace Relay

variable [Fintype ι] [DecidableEq ι]

/-- `FOR UPDATE`: some open transaction holds the row. -/
def locked (s : Relay ι) (id : Uuid) : Bool :=
  decide (∃ i, ∃ b ∈ s.batches i, ∃ e ∈ b.events, e.id = id)

/-- The rows of a commit: the events, with ids drawn one after the other. -/
def newRows (env : Env) (s : Relay ι) (events : List DomainEvent) : List OutboxEvent :=
  (events.zipIdx s.rng).map fun e => persistOutboxEvent env (env.uuid4 e.2) s.clock e.1

/-- Let worker `i` have batch `b`. -/
def setBatch (s : Relay ι) (i : ι) (b : Batch) : Relay ι :=
  { s with batches := Function.update s.batches i (some b) }

/-- End the transaction of worker `i`. -/
def endBatch (s : Relay ι) (i : ι) : Relay ι :=
  { s with batches := Function.update s.batches i none }

/-- The journal entries of a batch that commits. -/
def entries (s : Relay ι) (b : Batch) : List RowEntry :=
  (b.failures.map fun f => .failed f.eventId ((Dict.get b.recorded f.eventId).getD s.clock)) ++
    b.published.map fun e => .processed e.id

/-- The next statement of batch `b` of worker `i`. -/
def advance (config : WorkerConfig) (s : Relay ι) (i : ι) (b : Batch)
    (outcome : Except String Unit) : Relay ι :=
  match b.todo with
  | .publish (e :: rest) => match outcome with
    | .ok () =>
        { s.setBatch i { b with todo := .publish rest } with
          effects := .published e.id true :: s.effects }
    | .error error =>
        { s.setBatch i { b with
            failures := b.failures ++ [⟨e.id, error⟩]
            todo := .publish rest } with
          effects := .published e.id false :: s.effects }
  | .publish [] => s.setBatch i { b with todo := .send (if config.emails then b.published else []) }
  | .send (e :: rest) => match emailOf e with
    | none => s.setBatch i { b with todo := .send rest }
    | some _ =>
        -- an error of the sender is logged, and the loop goes on
        { s.setBatch i { b with todo := .send rest } with
          effects := .sent e.id outcome.isOk :: s.effects }
  | .send [] => s.setBatch i { b with todo := .mark }
  | .mark =>
      s.setBatch i { b with
        dirty := b.published.map (markProcessed s.clock)
        todo := .reschedule b.events }
  | .reschedule (e :: rest) =>
      if e.id ∈ b.failedIds then
        s.setBatch i { b with
          dirty := b.dirty ++ [OutboxRepository.reschedule s.clock (b.error e.id) e]
          recorded := b.recorded ++ [(e.id, s.clock)]
          todo := .reschedule rest }
      else s.setBatch i { b with todo := .reschedule rest }
  | .reschedule [] =>
      { s.endBatch i with
        rows := s.rows.map b.flush
        journal := s.entries b ++ s.journal }

/-- **One step** of the system. -/
def step (env : Env) (config : WorkerConfig) (s : Relay ι) : RelayLabel ι → Option (Relay ι)
  | .insert events =>
      let new := s.newRows env events
      some { s with
        rows := s.rows ++ new
        rng := s.rng + events.length
        journal := (new.map fun e => .inserted e.id) ++ s.journal }
  | .claim i => match s.batches i with
    | some _ => none
    | none =>
        match getUnprocessed s.rows s.locked s.clock config.batchSize with
        | [] => some s
        | e :: es => some (s.setBatch i { events := e :: es, todo := .publish (e :: es) })
  | .advance i outcome => (s.batches i).map fun b => s.advance config i b outcome
  | .crash i => some (s.endBatch i)
  | .replay ids =>
      some { s with
        rows := OutboxRepository.replay ids s.rows
        journal := ((s.rows.filter (replays ids)).map fun e => .replayed e.id) ++ s.journal }
  | .prune before => some { s with rows := deleteProcessedOlderThan before s.rows }
  | .tick d => some { s with clock := s.clock + d }
  | .draw n => some { s with rng := s.rng + n }

/-- Some step that satisfies the condition leads from one state to the other. -/
def Steps (env : Env) (config : WorkerConfig) (C : Relay ι → RelayLabel ι → Prop)
    (s s' : Relay ι) : Prop := ∃ l, C s l ∧ s.step env config l = some s'

/-- **Reachability** by steps that all satisfy the condition. -/
def Reach (env : Env) (config : WorkerConfig) (C : Relay ι → RelayLabel ι → Prop) :
    Relay ι → Relay ι → Prop := Relation.ReflTransGen (Steps env config C)

/-- Run some steps. -/
def run (env : Env) (config : WorkerConfig) (s : Relay ι) : List (RelayLabel ι) → Option (Relay ι)
  | [] => some s
  | l :: ls => (s.step env config l).bind fun s' => s'.run env config ls

theorem reach_of_run {env : Env} {config : WorkerConfig} {s s' : Relay ι}
    {ls : List (RelayLabel ι)} (h : s.run env config ls = some s') :
    Reach env config (fun _ _ => True) s s' := by
  induction ls generalizing s with
  | nil =>
      obtain rfl := Option.some.inj h
      exact .refl
  | cons l ls ih =>
      obtain ⟨s₁, hs, hr⟩ := Option.bind_eq_some_iff.mp h
      exact Relation.ReflTransGen.head ⟨l, trivial, hs⟩ (ih hr)

end Relay

end BackendTemplate
