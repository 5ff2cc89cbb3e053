import BackendTemplate.Outbox
import BackendTemplate.OutboxWorker

/-!
# The Life of an Outbox Row

A row is inserted, claimed, published, rescheduled, dead-lettered, replayed, processed and
pruned, by transactions that interleave and crash. `Relay.Sound` says what holds between the
table, the open batches and the two records in every reachable state; `Relay.Sound.step` keeps
it at every step, one case per statement.

An open batch has claimed rows that no other batch holds and nobody else changes, and
`Batch.Stage` says how far it has got with them. What the commit does to a row is read off it
(`Batch.flush_cases`).

## Main results

* `Relay.reach_sound` — the invariant of the system.
* `outbox_loses_nothing` — a processed row was accepted by the broker, and no row disappears
  before.
* `outbox_row_lifecycle` — the bookkeeping columns count the failed publishes.
* `processed_rows_attempted` — a row is not processed before its email was attempted.
* `processed_rows_scrubbed` — a processed row has no secret.
-/

namespace BackendTemplate

open OutboxRepository

variable {ι : Type} {env : Env} {config : WorkerConfig}

/-! ### The journal of a row -/

/-- How often publishing a row has failed since it was inserted or last replayed. -/
def failuresSince (id : Uuid) : List RowEntry → ℕ
  | [] => 0
  | .failed id' _ :: es => failuresSince id es + if id' = id then 1 else 0
  | .inserted id' :: es | .replayed id' :: es => if id' = id then 0 else failuresSince id es
  | .processed _ :: es => failuresSince id es

/-- When publishing a row last failed. -/
def lastFailure (id : Uuid) : List RowEntry → Option Instant
  | [] => none
  | .failed id' t :: es => if id' = id then some t else lastFailure id es
  | _ :: es => lastFailure id es

/-- The row an entry is about. -/
def RowEntry.row : RowEntry → Uuid
  | .inserted id | .failed id _ | .processed id | .replayed id => id

/-- Entries about other rows change nothing. -/
theorem others_append {id : Uuid} {es : List RowEntry} (h : ∀ e ∈ es, e.row ≠ id)
    (js : List RowEntry) : failuresSince id (es ++ js) = failuresSince id js ∧
      lastFailure id (es ++ js) = lastFailure id js := by
  induction es with
  | nil => exact ⟨rfl, rfl⟩
  | cons e es ih =>
      obtain ⟨hf, hl⟩ := ih fun e' he' => h e' (List.mem_cons_of_mem _ he')
      have hne := h e List.mem_cons_self
      rw [List.cons_append]
      cases e with
      | inserted id' => exact ⟨(if_neg hne).trans hf, hl⟩
      | failed id' t =>
          refine ⟨?_, (if_neg hne).trans hl⟩
          have hzero : (if id' = id then 1 else 0) = 0 := if_neg hne
          rw [failuresSince, hzero, hf, Nat.add_zero]
      | processed id' => exact ⟨hf, hl⟩
      | replayed id' => exact ⟨(if_neg hne).trans hf, hl⟩

/-- Entries of processed rows change nothing. -/
theorem processed_append (id : Uuid) (rows : List OutboxEvent) (js : List RowEntry) :
    failuresSince id ((rows.map fun e => .processed e.id) ++ js) = failuresSince id js ∧
      lastFailure id ((rows.map fun e => .processed e.id) ++ js) = lastFailure id js := by
  induction rows with
  | nil => exact ⟨rfl, rfl⟩
  | cons e rows ih => exact ih

/-- **One failure of a row among those of a batch** counts once. -/
theorem failed_append {failures : List PublishFailure} {f : PublishFailure}
    (hnodup : (failures.map PublishFailure.eventId).Nodup) (hf : f ∈ failures)
    (at_ : PublishFailure → Instant) (js : List RowEntry) :
    failuresSince f.eventId ((failures.map fun f => .failed f.eventId (at_ f)) ++ js) =
        failuresSince f.eventId js + 1 ∧
      lastFailure f.eventId ((failures.map fun f => .failed f.eventId (at_ f)) ++ js) =
        some (at_ f) := by
  induction failures with
  | nil => exact absurd hf List.not_mem_nil
  | cons g failures ih =>
      rw [List.map_cons, List.nodup_cons] at hnodup
      rw [List.map_cons, List.cons_append, failuresSince, lastFailure]
      rcases List.mem_cons.mp hf with rfl | hf
      · have hrest : ∀ e ∈ failures.map fun f => RowEntry.failed f.eventId (at_ f),
            e.row ≠ f.eventId := by
          intro e he hrow
          obtain ⟨g, hg, rfl⟩ := List.mem_map.mp he
          exact hnodup.1 (hrow ▸ List.mem_map_of_mem hg)
        rw [(others_append hrest js).1, if_pos rfl, if_pos rfl]
        exact ⟨rfl, rfl⟩
      · have hne : g.eventId ≠ f.eventId := fun h => hnodup.1 (h ▸ List.mem_map_of_mem hf)
        rw [if_neg hne, if_neg hne, Nat.add_zero]
        exact ih hnodup.2 hf

/-- The event was handed to the broker. -/
def Effect.publishes (id : Uuid) : Effect → Bool
  | .published id' _ => id' = id
  | .sent _ _ => false

/-! ### Statements on one row -/

@[simp] theorem markProcessed_id (t : Instant) (e : OutboxEvent) : (markProcessed t e).id = e.id :=
  rfl

@[simp] theorem reschedule_id (t : Instant) (error : String) (e : OutboxEvent) :
    (reschedule t error e).id = e.id := by
  rw [reschedule]
  split <;> rfl

@[simp] theorem replayed_id (e : OutboxEvent) : (replayed e).id = e.id := rfl

/-- What `backoff_delay` comes to. -/
theorem backoffDelay_eq (attempts : ℕ) :
    backoffDelay attempts = seconds (min (2 ^ attempts) 300 : ℕ) := by
  rw [backoffDelay, Nat.one_shiftLeft, backoffCapSeconds]

/-- **What `reschedule` leaves**: the row has one attempt more; it is dead at the last one, and
waits for its backoff before that. Nothing else changes. -/
theorem reschedule_spec (t : Instant) (error : String) (e : OutboxEvent) :
    (reschedule t error e).attempts = e.attempts + 1 ∧
      (reschedule t error e).processedAt = e.processedAt ∧
      (reschedule t error e).eventType = e.eventType ∧
      (reschedule t error e).payload = e.payload ∧
      (reschedule t error e).sensitiveKeys = e.sensitiveKeys ∧
      (OutboxRepository.maxAttempts ≤ e.attempts + 1 ∧ (reschedule t error e).failedAt = some t ∨
        e.attempts + 1 < OutboxRepository.maxAttempts ∧ (reschedule t error e).failedAt = e.failedAt ∧
          (reschedule t error e).nextAttemptAt = some (t + backoffDelay (e.attempts + 1))) := by
  rw [reschedule]
  dsimp only
  split
  · rename_i h
    exact ⟨rfl, rfl, rfl, rfl, rfl, Or.inl ⟨h, rfl⟩⟩
  · rename_i h
    exact ⟨rfl, rfl, rfl, rfl, rfl, Or.inr ⟨Nat.lt_of_not_le h, rfl, rfl⟩⟩

/-- Rows that are claimed are due, and not locked. -/
theorem mem_getUnprocessed {rows : List OutboxEvent} {locked : Uuid → Bool} {now : Instant}
    {limit : ℕ} {e : OutboxEvent} (h : e ∈ getUnprocessed rows locked now limit) :
    e ∈ rows ∧ due now e = true ∧ locked e.id = false := by
  obtain ⟨hmem, hdue⟩ := List.mem_filter.mp (List.mem_of_mem_take h)
  rw [Bool.and_eq_true, Bool.not_eq_true'] at hdue
  exact ⟨(List.mem_insertionSort _).mp hmem, hdue⟩

/-- Rows that are claimed are distinct. -/
theorem getUnprocessed_nodup {rows : List OutboxEvent} (h : (rows.map OutboxEvent.id).Nodup)
    (locked : Uuid → Bool) (now : Instant) (limit : ℕ) :
    ((getUnprocessed rows locked now limit).map OutboxEvent.id).Nodup := by
  have hsorted : ((rows.insertionSort Before).map OutboxEvent.id).Nodup :=
    ((List.perm_insertionSort Before rows).map _).nodup_iff.mpr h
  refine hsorted.sublist (List.Sublist.map _ ?_)
  exact (List.take_sublist _ _).trans List.filter_sublist

/-- A row that is due is neither processed nor dead. -/
theorem due_iff {now : Instant} {e : OutboxEvent} : due now e = true ↔
    e.processedAt = none ∧ e.failedAt = none ∧ ∀ t, e.nextAttemptAt = some t → t ≤ now := by
  rw [due, Bool.and_eq_true, Bool.and_eq_true, Option.isNone_iff_eq_none,
    Option.isNone_iff_eq_none, and_assoc]
  cases e.nextAttemptAt with
  | none => simp
  | some t => simp

/-! ### What is known of a row -/

/-- **What the columns of a row say**, next to the journal and the effects. -/
structure RowSound (env : Env) (journal : List RowEntry) (effects : List Effect)
    (e : OutboxEvent) : Prop where
  terminal : e.processedAt = none ∨ e.failedAt = none
  attempts : e.attempts = failuresSince e.id journal
  bounded : e.attempts ≤ OutboxRepository.maxAttempts
  dead : e.failedAt ≠ none ↔ e.attempts = OutboxRepository.maxAttempts
  waits : e.processedAt = none → 0 < e.attempts → e.attempts < OutboxRepository.maxAttempts →
    ∃ t, lastFailure e.id journal = some t ∧
      e.nextAttemptAt = some (t + backoffDelay e.attempts)
  accepted : e.processedAt ≠ none → .published e.id true ∈ effects
  /-- The row stems from an event. Until it is processed it holds what was stored; then it holds
  no secret. -/
  source : ∃ ev createdAt, e.eventType = ev.cls.wireName ∧
    (e.processedAt = none ∧ e.payload = (persistOutboxEvent env e.id createdAt ev).payload ∧
        e.sensitiveKeys = (persistOutboxEvent env e.id createdAt ev).sensitiveKeys ∨
      e.processedAt ≠ none ∧ ∀ k ∈ ev.cls.sensitiveFields, k ∉ e.payload.map Prod.fst)

section Rows

variable {journal journal' : List RowEntry} {effects effects' : List Effect} {e : OutboxEvent}

/-- What happens to other rows, and outside, does not matter. -/
theorem RowSound.mono (h : RowSound env journal effects e)
    (hj : failuresSince e.id journal' = failuresSince e.id journal ∧
      lastFailure e.id journal' = lastFailure e.id journal)
    (he : effects ⊆ effects') : RowSound env journal' effects' e where
  terminal := h.terminal
  attempts := h.attempts.trans hj.1.symm
  bounded := h.bounded
  dead := h.dead
  waits hp h0 hm := by
    obtain ⟨t, ht, hn⟩ := h.waits hp h0 hm
    exact ⟨t, hj.2.trans ht, hn⟩
  accepted hp := he (h.accepted hp)
  source := h.source

/-- A row that was just inserted. -/
theorem RowSound.inserted (env : Env) {id : Uuid} (createdAt : Instant) (ev : DomainEvent)
    (hj : failuresSince id journal = 0) :
    RowSound env journal effects (persistOutboxEvent env id createdAt ev) where
  terminal := Or.inl rfl
  attempts := hj.symm
  bounded := Nat.zero_le _
  dead := ⟨fun h => absurd rfl h, fun h : 0 = OutboxRepository.maxAttempts => by cases h⟩
  waits _ h0 _ := absurd h0 (Nat.lt_irrefl 0)
  accepted h := absurd rfl h
  source := ⟨ev, createdAt, rfl, Or.inl ⟨rfl, rfl, rfl⟩⟩

/-- The stored keys of an event's payload are its fields. -/
theorem persisted_sensitiveKeys (env : Env) (id : Uuid) (createdAt : Instant) (ev : DomainEvent) :
    (persistOutboxEvent env id createdAt ev).sensitiveKeys.getD [] = ev.cls.sensitiveFields := by
  rw [persistOutboxEvent]
  cases ev <;> rfl

/-- **A row that was published and marked processed.** -/
theorem RowSound.processed (h : RowSound env journal effects e) (hlive : e.failedAt = none)
    (hpub : .published e.id true ∈ effects) (t : Instant) :
    RowSound env journal effects (markProcessed t e) where
  terminal := Or.inr hlive
  attempts := h.attempts
  bounded := h.bounded
  dead := h.dead
  waits hp := absurd hp (by simp [markProcessed])
  accepted _ := hpub
  source := by
    obtain ⟨ev, createdAt, htype, ⟨-, -, hkeys⟩ | ⟨-, hscrubbed⟩⟩ := h.source
    · refine ⟨ev, createdAt, htype, Or.inr ⟨by simp [markProcessed], fun k hk => ?_⟩⟩
      refine Dict.not_mem_drop ?_
      rw [hkeys, persisted_sensitiveKeys]
      exact hk
    · refine ⟨ev, createdAt, htype, Or.inr ⟨by simp [markProcessed], fun k hk hmem => ?_⟩⟩
      exact hscrubbed k hk (Dict.drop_keys_subset hmem)

/-- **A row whose publishing has failed once more.** -/
theorem RowSound.rescheduled (h : RowSound env journal effects e) (hopen : e.processedAt = none)
    (hlive : e.failedAt = none) {t : Instant}
    (hj : failuresSince e.id journal' = failuresSince e.id journal + 1 ∧
      lastFailure e.id journal' = some t) (error : String) :
    RowSound env journal' effects (reschedule t error e) := by
  obtain ⟨hatt, hproc, htype, hpay, hkeys, hcases⟩ := reschedule_spec t error e
  have hlt : e.attempts < OutboxRepository.maxAttempts :=
    lt_of_le_of_ne h.bounded fun heq => h.dead.mpr heq hlive
  refine ⟨Or.inl (hproc.trans hopen), ?_, ?_, ?_, fun _ _ hm => ?_, ?_, ?_⟩
  · rw [hatt, reschedule_id, hj.1, h.attempts]
  · rw [hatt]
    exact hlt
  · rw [hatt]
    rcases hcases with ⟨hmax, hfail⟩ | ⟨hmin, hfail, -⟩
    · rw [hfail]
      exact ⟨fun _ => le_antisymm hlt hmax, fun _ => by simp⟩
    · rw [hfail, hlive]
      exact ⟨fun hne => absurd rfl hne, fun heq => absurd heq hmin.ne⟩
  · rw [hatt] at hm ⊢
    rcases hcases with ⟨hmax, -⟩ | ⟨-, -, hnext⟩
    · exact absurd hm (Nat.not_lt.mpr hmax)
    · rw [reschedule_id]
      exact ⟨t, hj.2, hnext⟩
  · exact fun hp => absurd (hproc.trans hopen) hp
  · obtain ⟨ev, createdAt, hev, ⟨hp, hload, hsens⟩ | ⟨hp, -⟩⟩ := h.source
    · rw [htype, hproc, hpay, hkeys, reschedule_id]
      exact ⟨ev, createdAt, hev, Or.inl ⟨hp, hload, hsens⟩⟩
    · exact absurd hopen hp

/-- **A dead row that was put back in the queue.** -/
theorem RowSound.replayed (h : RowSound env journal effects e) (hdead : e.failedAt ≠ none)
    (hj : failuresSince e.id journal' = 0) : RowSound env journal' effects (replayed e) := by
  have hopen : e.processedAt = none := h.terminal.resolve_right hdead
  refine ⟨Or.inl hopen, hj.symm, Nat.zero_le _, ?_, ?_, fun hp => absurd hopen hp, ?_⟩
  · exact ⟨fun hne => absurd rfl hne, fun h0 : 0 = OutboxRepository.maxAttempts => by cases h0⟩
  · exact fun _ h0 _ => absurd h0 (Nat.lt_irrefl 0)
  · exact h.source

end Rows

/-! ### How far a batch has got -/

/-- The email of an event was attempted. -/
def Attempted (effects : List Effect) (e : OutboxEvent) : Prop :=
  (emailOf e).isSome = true → ∃ returned, .sent e.id returned ∈ effects

namespace Batch

/-- Everything the batch counts as published was accepted by the broker. -/
def Relayed (effects : List Effect) (b : Batch) : Prop :=
  ∀ e ∈ b.published, .published e.id true ∈ effects

/-- The emails of what it has published were attempted, if there is a sender. -/
def Mailed (config : WorkerConfig) (effects : List Effect) (b : Batch) : Prop :=
  config.emails = true → ∀ e ∈ b.published, Attempted effects e

/-- **How far a batch has got.** -/
def Stage (config : WorkerConfig) (effects : List Effect) (b : Batch) : Prop :=
  match b.todo with
  | .publish rest => b.dirty = [] ∧ b.recorded = [] ∧ ∃ done, b.events = done ++ rest ∧
      b.failedIds.Sublist (done.map OutboxEvent.id) ∧
      ∀ e ∈ done, e.id ∈ b.failedIds ∨ .published e.id true ∈ effects
  | .send rest => b.dirty = [] ∧ b.recorded = [] ∧ b.Relayed effects ∧
      (config.emails = true → ∀ e ∈ b.published, e ∈ rest ∨ Attempted effects e)
  | .mark => b.dirty = [] ∧ b.recorded = [] ∧ b.Relayed effects ∧ b.Mailed config effects
  | .reschedule rest => b.Relayed effects ∧ b.Mailed config effects ∧
      ∃ done t, ∃ stamps : List (OutboxEvent × Instant), b.events = done ++ rest ∧
        stamps.map Prod.fst = done.filter (fun e => e.id ∈ b.failedIds) ∧
        b.recorded = stamps.map (fun x => (x.1.id, x.2)) ∧
        b.dirty = b.published.map (markProcessed t) ++
          stamps.map (fun x => OutboxRepository.reschedule x.2 (b.error x.1.id) x.1)

/-- **An open batch**: the rows it has claimed are in the table, open and distinct, and it has
got as far as its stage says. -/
structure Sound (config : WorkerConfig) (rows : List OutboxEvent) (effects : List Effect)
    (b : Batch) : Prop where
  claimed : ∀ e ∈ b.events, e ∈ rows ∧ e.processedAt = none ∧ e.failedAt = none
  nodup : (b.events.map OutboxEvent.id).Nodup
  failed : b.failedIds.Sublist (b.events.map OutboxEvent.id)
  stage : b.Stage config effects

variable {b : Batch} {rows rows' : List OutboxEvent} {effects effects' : List Effect}

theorem mem_published {e : OutboxEvent} : e ∈ b.published ↔ e ∈ b.events ∧ e.id ∉ b.failedIds := by
  rw [published, List.mem_filter, decide_eq_true_eq]

theorem Stage.mono (h : b.Stage config effects) (he : effects ⊆ effects') :
    b.Stage config effects' := by
  have hatt : ∀ e, Attempted effects e → Attempted effects' e := fun e h hs => by
    obtain ⟨r, hr⟩ := h hs
    exact ⟨r, he hr⟩
  rw [Stage] at h ⊢
  split
  · rename_i rest htodo
    rw [htodo] at h
    obtain ⟨hd, hr, done, hev, hf, hdone⟩ := h
    exact ⟨hd, hr, done, hev, hf, fun e hmem => (hdone e hmem).imp_right fun h => he h⟩
  · rename_i rest htodo
    rw [htodo] at h
    obtain ⟨hd, hr, hrel, hmail⟩ := h
    exact ⟨hd, hr, fun e hmem => he (hrel e hmem),
      fun hc e hmem => (hmail hc e hmem).imp_right (hatt e)⟩
  · rename_i htodo
    rw [htodo] at h
    obtain ⟨hd, hr, hrel, hmail⟩ := h
    exact ⟨hd, hr, fun e hmem => he (hrel e hmem), fun hc e hmem => hatt e (hmail hc e hmem)⟩
  · rename_i rest htodo
    rw [htodo] at h
    obtain ⟨hrel, hmail, hrest⟩ := h
    exact ⟨fun e hmem => he (hrel e hmem), fun hc e hmem => hatt e (hmail hc e hmem), hrest⟩

/-- A batch stays sound while its rows stay in the table and effects are added. -/
theorem Sound.mono (h : b.Sound config rows effects)
    (hrows : ∀ e ∈ b.events, e ∈ rows → e ∈ rows') (he : effects ⊆ effects') :
    b.Sound config rows' effects' where
  claimed e hmem := ⟨hrows e hmem (h.claimed e hmem).1, (h.claimed e hmem).2⟩
  nodup := h.nodup
  failed := h.failed
  stage := h.stage.mono he

/-- **What the commit of a batch does to a row**: nothing, when the batch has not claimed it;
else it marks it processed, if it was published, or reschedules it. -/
theorem Sound.flush_cases (h : b.Sound config rows effects) (htodo : b.todo = .reschedule [])
    (hkeyed : (rows.map OutboxEvent.id).Nodup) {row : OutboxEvent} (hrow : row ∈ rows) :
    (row.id ∉ b.events.map OutboxEvent.id ∧ b.flush row = row) ∨
      (row ∈ b.published ∧ ∃ t, b.flush row = markProcessed t row) ∨
      (row ∈ b.events ∧ row.id ∈ b.failedIds ∧ ∃ t error, Dict.get b.recorded row.id = some t ∧
        b.flush row = OutboxRepository.reschedule t error row) := by
  have hstage := h.stage
  rw [Stage, htodo] at hstage
  obtain ⟨-, -, done, t, stamps, hev, hstamps, hrec, hdirty⟩ := hstage
  rw [List.append_nil] at hev
  subst hev
  have hpublished : (b.published.map (markProcessed t)).map OutboxEvent.id =
      b.published.map OutboxEvent.id := by
    rw [List.map_map]
    rfl
  have hfailed : (stamps.map fun x => OutboxRepository.reschedule x.2 (b.error x.1.id) x.1).map
      OutboxEvent.id = (b.events.filter fun e => e.id ∈ b.failedIds).map OutboxEvent.id := by
    rw [← hstamps, List.map_map, List.map_map]
    exact List.map_congr_left fun x _ => reschedule_id _ _ _
  have hids : (b.dirty.map OutboxEvent.id).Perm (b.events.map OutboxEvent.id) := by
    rw [hdirty, List.map_append, hpublished, hfailed, ← List.map_append]
    refine List.Perm.map _ ?_
    have := List.filter_append_perm (fun e : OutboxEvent => decide (e.id ∉ b.failedIds)) b.events
    simpa [published] using this
  have hnodup : (b.dirty.map OutboxEvent.id).Nodup := hids.nodup_iff.mpr h.nodup
  -- a changed event replaces the row it stems from
  have hflush : ∀ d ∈ b.dirty, d.id = row.id → b.flush row = d := fun d hd hid => by
    rw [flush, ← hid, (Keyed.mem_iff_lookup hnodup).mp hd]
    rfl
  by_cases hmem : row.id ∈ b.events.map OutboxEvent.id
  · obtain ⟨e, he, hid⟩ := List.mem_map.mp hmem
    obtain rfl : e = row := List.inj_on_of_nodup_map hkeyed (h.claimed e he).1 hrow hid
    by_cases hf : e.id ∈ b.failedIds
    · have hin : e ∈ stamps.map Prod.fst := by
        rw [hstamps]
        exact List.mem_filter.mpr ⟨he, decide_eq_true hf⟩
      obtain ⟨x, hx, rfl⟩ := List.mem_map.mp hin
      refine Or.inr (Or.inr ⟨he, hf, x.2, b.error x.1.id, ?_, hflush _ ?_ (reschedule_id _ _ _)⟩)
      · have hkeys : (b.recorded.map Prod.fst).Nodup := by
          have : b.recorded.map Prod.fst =
              (b.events.filter fun e => e.id ∈ b.failedIds).map OutboxEvent.id := by
            rw [hrec, ← hstamps, List.map_map, List.map_map]
            rfl
          rw [this]
          exact h.nodup.sublist (List.filter_sublist.map _)
        have hin' : (x.1.id, x.2) ∈ b.recorded := by
          rw [hrec]
          exact List.mem_map_of_mem hx
        rw [Dict.get, (Keyed.mem_iff_lookup hkeys).mp hin']
        rfl
      · rw [hdirty]
        exact List.mem_append_right _ (List.mem_map_of_mem hx)
    · have hp : e ∈ b.published := mem_published.mpr ⟨he, hf⟩
      refine Or.inr (Or.inl ⟨hp, t, hflush _ ?_ rfl⟩)
      rw [hdirty]
      exact List.mem_append_left _ (List.mem_map_of_mem hp)
  · refine Or.inl ⟨hmem, ?_⟩
    rw [flush, Keyed.lookup_eq_none.mpr fun hd => hmem (hids.subset hd)]
    rfl

end Batch

/-! ### The invariant of the system -/

namespace Relay

variable {s s' : Relay ι}

/-- **What holds between the table, the batches and the records.** -/
structure Sound (env : Env) (config : WorkerConfig) (s : Relay ι) : Prop where
  keyed : (s.rows.map OutboxEvent.id).Nodup
  minted : ∀ e ∈ s.rows, ∃ n < s.rng, e.id = env.uuid4 n
  batches : ∀ i, ∀ b ∈ s.batches i, b.Sound config s.rows s.effects
  apart : ∀ i j, i ≠ j → ∀ b ∈ s.batches i, ∀ b' ∈ s.batches j,
    ∀ e ∈ b.events, ∀ e' ∈ b'.events, e.id ≠ e'.id
  rows : ∀ e ∈ s.rows, RowSound env s.journal s.effects e
  kept : ∀ id, .inserted id ∈ s.journal →
    (∃ e ∈ s.rows, e.id = id) ∨ .published id true ∈ s.effects

/-- The system starts with an empty table and no open transaction. -/
theorem sound_start (env : Env) (config : WorkerConfig) : ({} : Relay ι).Sound env config where
  keyed := List.nodup_nil
  minted e he := absurd he List.not_mem_nil
  batches i b hb := absurd hb (by simp)
  apart i j _ b hb := absurd hb (by simp)
  rows e he := absurd he List.not_mem_nil
  kept id hid := absurd hid List.not_mem_nil

section Transactions

variable [DecidableEq ι]

/-- A batch goes on, and the outside world sees something. -/
theorem Sound.setBatch (h : s.Sound env config) {i : ι} {b b' : Batch} (hb : b ∈ s.batches i)
    (hevents : b'.events = b.events) {effects : List Effect} (he : s.effects ⊆ effects)
    (hb' : b'.Sound config s.rows effects) :
    ({ s.setBatch i b' with effects := effects } : Relay ι).Sound env config where
  keyed := h.keyed
  minted := h.minted
  batches j b₁ hb₁ := by
    by_cases hj : j = i
    · subst hj
      simp only [Relay.setBatch, Function.update_self, Option.mem_some_iff] at hb₁
      exact hb₁ ▸ hb'
    · simp only [Relay.setBatch, Function.update_of_ne hj] at hb₁
      exact (h.batches j b₁ hb₁).mono (fun _ _ hmem => hmem) he
  apart j k hjk b₁ hb₁ b₂ hb₂ := by
    have hold : ∀ j, ∀ b₁ ∈ (s.setBatch i b').batches j, ∃ b₀ ∈ s.batches j,
        b₀.events = b₁.events := by
      intro j b₁ hb₁
      by_cases hj : j = i
      · subst hj
        simp only [Relay.setBatch, Function.update_self, Option.mem_some_iff] at hb₁
        exact ⟨b, hb, hb₁ ▸ hevents.symm⟩
      · simp only [Relay.setBatch, Function.update_of_ne hj] at hb₁
        exact ⟨b₁, hb₁, rfl⟩
    obtain ⟨c₁, hc₁, hev₁⟩ := hold j b₁ hb₁
    obtain ⟨c₂, hc₂, hev₂⟩ := hold k b₂ hb₂
    rw [← hev₁, ← hev₂]
    exact h.apart j k hjk c₁ hc₁ c₂ hc₂
  rows e hmem := (h.rows e hmem).mono ⟨rfl, rfl⟩ he
  kept id hid := (h.kept id hid).imp_right fun hp => he hp

/-- What is left of the batches when one has ended. -/
theorem mem_endBatch {i j : ι} {b : Batch} (hb : b ∈ (s.endBatch i).batches j) :
    j ≠ i ∧ b ∈ s.batches j := by
  by_cases hj : j = i
  · subst hj
    simp [Relay.endBatch] at hb
  · simp only [Relay.endBatch, Function.update_of_ne hj] at hb
    exact ⟨hj, hb⟩

/-- A transaction is rolled back. -/
theorem Sound.endBatch (h : s.Sound env config) (i : ι) : (s.endBatch i).Sound env config where
  keyed := h.keyed
  minted := h.minted
  batches j b hb := h.batches j b (mem_endBatch hb).2
  apart j k hjk b hb b' hb' := h.apart j k hjk b (mem_endBatch hb).2 b' (mem_endBatch hb').2
  rows := h.rows
  kept := h.kept

/-- **A transaction commits.** -/
theorem Sound.commit (h : s.Sound env config) {i : ι} {b : Batch} (hb : b ∈ s.batches i)
    (htodo : b.todo = .reschedule []) :
    ({ s.endBatch i with
      rows := s.rows.map b.flush
      journal := s.entries b ++ s.journal } : Relay ι).Sound env config := by
  have hsound := h.batches i b hb
  have hflush : ∀ row ∈ s.rows, _ := fun row hrow => hsound.flush_cases htodo h.keyed hrow
  have hid : ∀ row ∈ s.rows, (b.flush row).id = row.id := by
    intro row hrow
    rcases hflush row hrow with ⟨-, heq⟩ | ⟨-, t, heq⟩ | ⟨-, -, t, error, -, heq⟩
    · rw [heq]
    · rw [heq, markProcessed_id]
    · rw [heq, reschedule_id]
  have hids : (s.rows.map b.flush).map OutboxEvent.id = s.rows.map OutboxEvent.id := by
    rw [List.map_map]
    exact List.map_congr_left hid
  have hentries : ∀ entry ∈ s.entries b, entry.row ∈ b.events.map OutboxEvent.id ∧
      ∀ id, entry ≠ .inserted id := by
    intro entry hentry
    rcases List.mem_append.mp hentry with hf | hp
    · obtain ⟨f, hmem, rfl⟩ := List.mem_map.mp hf
      exact ⟨hsound.failed.subset (List.mem_map_of_mem hmem), fun id hid => by cases hid⟩
    · obtain ⟨e, he, rfl⟩ := List.mem_map.mp hp
      exact ⟨List.mem_map_of_mem (Batch.mem_published.mp he).1, fun id hid => by cases hid⟩
  have hrelayed : b.Relayed s.effects := by
    have hstage := hsound.stage
    rw [Batch.Stage, htodo] at hstage
    exact hstage.1
  refine ⟨hids ▸ h.keyed, ?_, ?_, ?_, ?_, ?_⟩
  · intro e he
    obtain ⟨row, hrow, rfl⟩ := List.mem_map.mp he
    rw [hid row hrow]
    exact h.minted row hrow
  · -- the rows of the other batches are not touched
    intro j b' hb'
    obtain ⟨hj, hb'⟩ := mem_endBatch hb'
    refine (h.batches j b' hb').mono (fun e he hrow => ?_) (fun _ hx => hx)
    rcases hflush e hrow with ⟨-, heq⟩ | ⟨hp, -⟩ | ⟨hmine, -⟩
    · exact List.mem_map.mpr ⟨e, hrow, heq⟩
    · exact absurd rfl (h.apart i j (Ne.symm hj) b hb b' hb' e (Batch.mem_published.mp hp).1 e he)
    · exact absurd rfl (h.apart i j (Ne.symm hj) b hb b' hb' e hmine e he)
  · intro j k hjk b₁ hb₁ b₂ hb₂
    exact h.apart j k hjk b₁ (mem_endBatch hb₁).2 b₂ (mem_endBatch hb₂).2
  · intro e he
    obtain ⟨row, hrow, rfl⟩ := List.mem_map.mp he
    have hrs := h.rows row hrow
    rcases hflush row hrow with ⟨hnot, heq⟩ | ⟨hp, t, heq⟩ | ⟨hmine, hf, t, error, hrec, heq⟩
    · rw [heq]
      refine hrs.mono (others_append (fun entry hentry hrow' => hnot ?_) _) fun _ hx => hx
      exact hrow' ▸ (hentries entry hentry).1
    · rw [heq]
      have hev := Batch.mem_published.mp hp
      refine (hrs.processed (hsound.claimed row hev.1).2.2 (hrelayed row hp) t).mono ?_
        fun _ hx => hx
      -- its own entry is that it is processed
      have hother : ∀ entry ∈ b.failures.map fun f => RowEntry.failed f.eventId
          ((Dict.get b.recorded f.eventId).getD s.clock), entry.row ≠ row.id := by
        intro entry hentry heq'
        obtain ⟨f, hf, rfl⟩ := List.mem_map.mp hentry
        exact hev.2 (heq' ▸ List.mem_map_of_mem hf)
      obtain ⟨h₁, h₂⟩ := others_append hother
        ((b.published.map fun e => .processed e.id) ++ s.journal)
      obtain ⟨h₃, h₄⟩ := processed_append row.id b.published s.journal
      rw [entries, List.append_assoc, markProcessed_id]
      exact ⟨h₁.trans h₃, h₂.trans h₄⟩
    · rw [heq]
      have hopen := hsound.claimed row hmine
      refine hrs.rescheduled hopen.2.1 hopen.2.2 (t := t) ?_ error
      obtain ⟨f, hf, hfid⟩ := List.mem_map.mp hf
      obtain ⟨h₁, h₂⟩ := failed_append (hsound.nodup.sublist hsound.failed) hf
        (fun f => (Dict.get b.recorded f.eventId).getD s.clock)
        ((b.published.map fun e => .processed e.id) ++ s.journal)
      obtain ⟨h₃, h₄⟩ := processed_append row.id b.published s.journal
      rw [hfid] at h₁ h₂
      rw [entries, List.append_assoc]
      refine ⟨h₁.trans (congrArg (· + 1) h₃), h₂.trans ?_⟩
      rw [hrec]
      rfl
  · intro id hid'
    have hold : .inserted id ∈ s.journal :=
      (List.mem_append.mp hid').resolve_left fun hnew => (hentries _ hnew).2 id rfl
    refine (h.kept id hold).imp_left ?_
    rintro ⟨row, hrow, rfl⟩
    exact ⟨b.flush row, List.mem_map_of_mem hrow, hid row hrow⟩

end Transactions

/-! ### The steps -/

/-- The ids of the rows of a commit are drawn, one after the other. -/
theorem newRows_ids (env : Env) (s : Relay ι) (events : List DomainEvent) :
    (s.newRows env events).map OutboxEvent.id =
      (List.range' s.rng events.length).map env.uuid4 := by
  rw [newRows, List.map_map, ← List.zipIdx_map_snd, List.map_map]
  rfl

/-- **The events of a use case** are inserted as its commit stores them. -/
theorem newRows_of_commit {κ : Type} (env : Env) {s : Relay ι} {w : World κ} {i : κ}
    (hrng : s.rng = w.rng) (hclock : s.clock = w.clock) :
    s.newRows env ((w.txs i).events.map Event.toDomain) =
      (w.newOutbox env i).map (OutboxRow.stored env) := by
  rw [newRows, World.newOutbox, hrng, hclock, List.zipIdx_map, List.map_map, List.map_map]
  rfl

/-- Inserted rows have no failures. -/
theorem failuresSince_inserted {rows : List OutboxEvent} {e : OutboxEvent} (he : e ∈ rows)
    (js : List RowEntry) :
    failuresSince e.id ((rows.map fun e => .inserted e.id) ++ js) = 0 := by
  induction rows with
  | nil => exact absurd he List.not_mem_nil
  | cons e' rows ih =>
      rw [List.map_cons, List.cons_append, failuresSince]
      rcases List.mem_cons.mp he with rfl | he
      · exact if_pos rfl
      · split
        · rfl
        · exact ih he

/-- Replayed rows have no failures. -/
theorem failuresSince_replayed {rows : List OutboxEvent} {e : OutboxEvent} (he : e ∈ rows)
    (js : List RowEntry) :
    failuresSince e.id ((rows.map fun e => .replayed e.id) ++ js) = 0 := by
  induction rows with
  | nil => exact absurd he List.not_mem_nil
  | cons e' rows ih =>
      rw [List.map_cons, List.cons_append, failuresSince]
      rcases List.mem_cons.mp he with rfl | he
      · exact if_pos rfl
      · split
        · rfl
        · exact ih he

/-- **A use case commits its events.** -/
theorem Sound.insert (h : s.Sound env config) (events : List DomainEvent) :
    ({ s with
      rows := s.rows ++ s.newRows env events
      rng := s.rng + events.length
      journal := ((s.newRows env events).map fun e => .inserted e.id) ++ s.journal } :
        Relay ι).Sound env config := by
  have hnew : ∀ e ∈ s.newRows env events, ∃ n, s.rng ≤ n ∧ n < s.rng + events.length ∧
      e.id = env.uuid4 n := by
    intro e he
    have hid : e.id ∈ (s.newRows env events).map OutboxEvent.id := List.mem_map_of_mem he
    rw [newRows_ids] at hid
    obtain ⟨n, hn, hen⟩ := List.mem_map.mp hid
    rw [List.mem_range'_1] at hn
    exact ⟨n, hn.1, hn.2, hen.symm⟩
  have hapart : ∀ e ∈ s.rows, ∀ e' ∈ s.newRows env events, e'.id ≠ e.id := by
    intro e he e' he' hid
    obtain ⟨n, hn, hen⟩ := h.minted e he
    obtain ⟨m, hm, -, hem⟩ := hnew e' he'
    have : m = n := env.uuid4_injective (hem.symm.trans (hid.trans hen))
    exact absurd hn (Nat.not_lt.mpr (this ▸ hm))
  refine ⟨?_, ?_, ?_, h.apart, ?_, ?_⟩
  · rw [List.map_append, List.nodup_append]
    refine ⟨h.keyed, ?_, ?_⟩
    · rw [newRows_ids]
      exact (List.nodup_range' _).map env.uuid4_injective
    · rintro a ha b hb rfl
      obtain ⟨e, he, rfl⟩ := List.mem_map.mp ha
      obtain ⟨e', he', hid⟩ := List.mem_map.mp hb
      exact hapart e he e' he' hid
  · intro e he
    rcases List.mem_append.mp he with hold | hnew'
    · obtain ⟨n, hn, hen⟩ := h.minted e hold
      exact ⟨n, Nat.lt_add_right _ hn, hen⟩
    · obtain ⟨n, -, hn, hen⟩ := hnew e hnew'
      exact ⟨n, hn, hen⟩
  · exact fun i b hb => (h.batches i b hb).mono
      (fun e _ hmem => List.mem_append_left _ hmem) fun _ hx => hx
  · intro e he
    rcases List.mem_append.mp he with hold | hnew'
    · refine (h.rows e hold).mono (others_append (fun entry hentry => ?_) _) fun _ hx => hx
      obtain ⟨e', he', rfl⟩ := List.mem_map.mp hentry
      exact hapart e hold e' he'
    · have hj := failuresSince_inserted hnew' s.journal
      obtain ⟨x, -, rfl⟩ := List.mem_map.mp hnew'
      exact .inserted env s.clock x.1 hj
  · intro id hid
    rcases List.mem_append.mp hid with hnew' | hold
    · obtain ⟨e, he, heq⟩ := List.mem_map.mp hnew'
      exact Or.inl ⟨e, List.mem_append_right _ he, RowEntry.inserted.inj heq⟩
    · refine (h.kept id hold).imp_left ?_
      rintro ⟨e, he, rfl⟩
      exact ⟨e, List.mem_append_left _ he, rfl⟩

/-- **Dead rows are put back in the queue.** -/
theorem Sound.replay (h : s.Sound env config) (ids : List Uuid) :
    ({ s with
      rows := OutboxRepository.replay ids s.rows
      journal := ((s.rows.filter (replays ids)).map fun e => .replayed e.id) ++ s.journal } :
        Relay ι).Sound env config := by
  have hid : ∀ e : OutboxEvent, (if replays ids e then replayed e else e).id = e.id := fun e => by
    split <;> rfl
  refine ⟨?_, ?_, ?_, h.apart, ?_, ?_⟩
  · have : (OutboxRepository.replay ids s.rows).map OutboxEvent.id =
        s.rows.map OutboxEvent.id := by
      rw [OutboxRepository.replay, List.map_map]
      exact List.map_congr_left fun e _ => hid e
    exact this ▸ h.keyed
  · intro e he
    obtain ⟨row, hrow, rfl⟩ := List.mem_map.mp he
    rw [hid]
    exact h.minted row hrow
  · -- what a batch has claimed is not dead
    intro i b hb
    refine (h.batches i b hb).mono (fun e he hmem => ?_) fun _ hx => hx
    have hlive := ((h.batches i b hb).claimed e he).2.2
    refine List.mem_map.mpr ⟨e, hmem, if_neg ?_⟩
    rw [replays, hlive]
    simp
  · intro e he
    obtain ⟨row, hrow, rfl⟩ := List.mem_map.mp he
    by_cases hrep : replays ids row = true
    · rw [if_pos hrep]
      have hdead : row.failedAt ≠ none := by
        rw [replays, Bool.and_eq_true, Option.isSome_iff_ne_none] at hrep
        exact hrep.2
      exact (h.rows row hrow).replayed hdead
        (failuresSince_replayed (List.mem_filter.mpr ⟨hrow, hrep⟩) _)
    · rw [if_neg hrep]
      refine (h.rows row hrow).mono (others_append (fun entry hentry heq => ?_) _)
        fun _ hx => hx
      obtain ⟨e', he', rfl⟩ := List.mem_map.mp hentry
      obtain ⟨hmem, hrep'⟩ := List.mem_filter.mp he'
      obtain rfl : e' = row := List.inj_on_of_nodup_map h.keyed hmem hrow heq
      exact hrep hrep'
  · intro id hid'
    have hold : .inserted id ∈ s.journal := (List.mem_append.mp hid').resolve_left fun hnew => by
      obtain ⟨e, -, heq⟩ := List.mem_map.mp hnew
      cases heq
    refine (h.kept id hold).imp_left ?_
    rintro ⟨row, hrow, rfl⟩
    exact ⟨_, List.mem_map_of_mem hrow, hid row⟩

/-- **Processed rows are pruned.** -/
theorem Sound.prune (h : s.Sound env config) (before : Instant) :
    ({ s with rows := deleteProcessedOlderThan before s.rows } : Relay ι).Sound env config where
  keyed := h.keyed.sublist (List.filter_sublist.map _)
  minted e he := h.minted e (List.mem_of_mem_filter he)
  batches i b hb := by
    refine (h.batches i b hb).mono (fun e he hmem => List.mem_filter.mpr ⟨hmem, ?_⟩) fun _ hx => hx
    rw [processedBefore, ((h.batches i b hb).claimed e he).2.1]
    rfl
  apart := h.apart
  rows e he := h.rows e (List.mem_of_mem_filter he)
  kept id hid := by
    rcases h.kept id hid with ⟨e, he, rfl⟩ | hacc
    · by_cases hp : processedBefore before e = true
      · refine Or.inr ((h.rows e he).accepted fun hnone => ?_)
        rw [processedBefore, hnone] at hp
        cases hp
      · exact Or.inl ⟨e, List.mem_filter.mpr ⟨he, by simpa using hp⟩, rfl⟩
    · exact Or.inr hacc

section Steps

variable [Fintype ι] [DecidableEq ι]

/-- **A worker claims rows** that no other one holds. -/
theorem Sound.claim (h : s.Sound env config) {i : ι} (hi : s.batches i = none)
    {events : List OutboxEvent}
    (hevents : getUnprocessed s.rows s.locked s.clock config.batchSize = events) :
    (s.setBatch i { events := events, todo := .publish events }).Sound env config := by
  have hclaimed : ∀ e ∈ events, e ∈ s.rows ∧ due s.clock e = true ∧ s.locked e.id = false :=
    fun e he => mem_getUnprocessed (hevents ▸ he)
  have hfree : ∀ j, ∀ b ∈ s.batches j, ∀ e ∈ events, ∀ e' ∈ b.events, e'.id ≠ e.id := by
    intro j b hb e he e' he' hid
    have hlocked : s.locked e.id = true := decide_eq_true ⟨j, b, hb, e', he', hid⟩
    exact absurd ((hclaimed e he).2.2.symm.trans hlocked) (by simp)
  have hcases : ∀ j, ∀ b ∈ (s.setBatch i { events := events, todo := .publish events }).batches j,
      j = i ∧ b = { events := events, todo := .publish events } ∨ j ≠ i ∧ b ∈ s.batches j := by
    intro j b hb
    by_cases hj : j = i
    · subst hj
      simp only [Relay.setBatch, Function.update_self, Option.mem_some_iff] at hb
      exact Or.inl ⟨rfl, hb.symm⟩
    · simp only [Relay.setBatch, Function.update_of_ne hj] at hb
      exact Or.inr ⟨hj, hb⟩
  refine ⟨h.keyed, h.minted, ?_, ?_, h.rows, h.kept⟩
  · intro j b hb
    rcases hcases j b hb with ⟨-, rfl⟩ | ⟨-, hb⟩
    · refine ⟨fun e he => ?_, ?_, List.nil_sublist _, ?_⟩
      · obtain ⟨hmem, hdue, -⟩ := hclaimed e he
        have := due_iff.mp hdue
        exact ⟨hmem, this.1, this.2.1⟩
      · exact hevents ▸ getUnprocessed_nodup h.keyed _ _ _
      · exact ⟨rfl, rfl, [], rfl, List.nil_sublist _, fun e he => absurd he List.not_mem_nil⟩
    · exact h.batches j b hb
  · intro j k hjk b hb b' hb' e he e' he'
    rcases hcases j b hb with ⟨rfl, rfl⟩ | ⟨-, hold⟩
    · rcases hcases k b' hb' with ⟨rfl, -⟩ | ⟨-, hold'⟩
      · exact absurd rfl hjk
      · exact (hfree k b' hold' e he e' he').symm
    · rcases hcases k b' hb' with ⟨rfl, rfl⟩ | ⟨-, hold'⟩
      · exact hfree j b hold e' he' e he
      · exact h.apart j k hjk b hold b' hold' e he e' he'

omit [Fintype ι] in
/-- **A worker executes its next statement.** -/
theorem Sound.advance (h : s.Sound env config) {i : ι} {b : Batch} (hb : b ∈ s.batches i)
    (outcome : Except String Unit) : (s.advance config i b outcome).Sound env config := by
  have hs := h.batches i b hb
  have hstage := hs.stage
  rw [Batch.Stage] at hstage
  have hsame : s.effects ⊆ s.effects := fun _ hx => hx
  rw [Relay.advance]
  split
  · -- publish the next event
    rename_i e rest htodo
    rw [htodo] at hstage
    obtain ⟨hd, hr, done, hev, hf, hdone⟩ := hstage
    have hev' : b.events = (done ++ [e]) ++ rest := by
      rw [hev, List.append_assoc]
      rfl
    cases outcome with
    | ok x =>
        refine h.setBatch hb ?_ (List.subset_cons_self _ _) ?_
        · rfl
        refine ⟨hs.claimed, hs.nodup, hs.failed, hd, hr, done ++ [e], hev', ?_, fun e' he' => ?_⟩
        · exact hf.trans ((List.sublist_append_left _ _).map _)
        · rcases List.mem_append.mp he' with hold | hnew
          · exact (hdone e' hold).imp_right fun hx => List.mem_cons_of_mem _ hx
          · obtain rfl := List.mem_singleton.mp hnew
            exact Or.inr List.mem_cons_self
    | error error =>
        have hids : (b.failures ++ [(⟨e.id, error⟩ : PublishFailure)]).map PublishFailure.eventId =
            b.failedIds ++ [e.id] := List.map_append
        have hsub : (b.failedIds ++ [e.id]).Sublist ((done ++ [e]).map OutboxEvent.id) := by
          rw [List.map_append]
          exact hf.append (List.Sublist.refl _)
        refine h.setBatch hb ?_ (List.subset_cons_self _ _) ?_
        · rfl
        refine ⟨hs.claimed, hs.nodup, ?_, hd, hr, done ++ [e], hev', ?_, fun e' he' => ?_⟩
        · rw [Batch.failedIds, hids]
          have hall : ((done ++ [e]).map OutboxEvent.id).Sublist
              (b.events.map OutboxEvent.id) := by
            rw [hev']
            exact (List.sublist_append_left _ _).map _
          exact hsub.trans hall
        · rw [Batch.failedIds, hids]
          exact hsub
        · rw [Batch.failedIds, hids]
          rcases List.mem_append.mp he' with hold | hnew
          · exact (hdone e' hold).imp (fun hx => List.mem_append_left _ hx)
              fun hx => List.mem_cons_of_mem _ hx
          · obtain rfl := List.mem_singleton.mp hnew
            exact Or.inl (List.mem_append_right _ (List.mem_singleton.mpr rfl))
  · -- everything is published
    rename_i htodo
    rw [htodo] at hstage
    obtain ⟨hd, hr, done, hev, hf, hdone⟩ := hstage
    rw [List.append_nil] at hev
    refine h.setBatch hb ?_ hsame ?_
    · rfl
    refine ⟨hs.claimed, hs.nodup, hs.failed, hd, hr, ?_, ?_⟩
    · intro e he
      obtain ⟨hmem, hnf⟩ := Batch.mem_published.mp he
      exact (hdone e (hev ▸ hmem)).resolve_left hnf
    · intro hc e he
      rw [if_pos hc]
      exact Or.inl he
  · -- send the email of the next event
    rename_i e rest htodo
    rw [htodo] at hstage
    obtain ⟨hd, hr, hrel, hmail⟩ := hstage
    split
    · rename_i hnone
      refine h.setBatch hb ?_ hsame ?_
      · rfl
      refine ⟨hs.claimed, hs.nodup, hs.failed, hd, hr, hrel, fun hc e' he' => ?_⟩
      rcases hmail hc e' he' with hrest | hatt
      · rcases List.mem_cons.mp hrest with rfl | hrest
        · exact Or.inr fun hsome => absurd hsome (by simp [hnone])
        · exact Or.inl hrest
      · exact Or.inr hatt
    · refine h.setBatch hb ?_ (List.subset_cons_self _ _) ?_
      · rfl
      refine ⟨hs.claimed, hs.nodup, hs.failed, hd, hr,
        fun e' he' => List.mem_cons_of_mem _ (hrel e' he'), fun hc e' he' => ?_⟩
      rcases hmail hc e' he' with hrest | hatt
      · rcases List.mem_cons.mp hrest with rfl | hrest
        · exact Or.inr fun _ => ⟨_, List.mem_cons_self⟩
        · exact Or.inl hrest
      · refine Or.inr fun hsome => ?_
        obtain ⟨r, hr⟩ := hatt hsome
        exact ⟨r, List.mem_cons_of_mem _ hr⟩
  · -- every email was attempted
    rename_i htodo
    rw [htodo] at hstage
    obtain ⟨hd, hr, hrel, hmail⟩ := hstage
    refine h.setBatch hb ?_ hsame ?_
    · rfl
    refine ⟨hs.claimed, hs.nodup, hs.failed, hd, hr, hrel, ?_⟩
    exact fun hc e he => (hmail hc e he).resolve_left List.not_mem_nil
  · -- mark the published events processed
    rename_i htodo
    rw [htodo] at hstage
    obtain ⟨hd, hr, hrel, hmail⟩ := hstage
    refine h.setBatch hb ?_ hsame ?_
    · rfl
    refine ⟨hs.claimed, hs.nodup, hs.failed, hrel, hmail, ?_⟩
    exact ⟨[], s.clock, [], rfl, rfl, hr, (List.append_nil _).symm⟩
  · -- reschedule the next event, if it failed
    rename_i e rest htodo
    rw [htodo] at hstage
    obtain ⟨hrel, hmail, done, t, stamps, hev, hst, hrec, hdirty⟩ := hstage
    have hev' : b.events = (done ++ [e]) ++ rest := by
      rw [hev, List.append_assoc]
      rfl
    split
    · rename_i hf
      refine h.setBatch hb ?_ hsame ?_
      · rfl
      refine ⟨hs.claimed, hs.nodup, hs.failed, hrel, hmail, ?_⟩
      refine ⟨done ++ [e], t, stamps ++ [(e, s.clock)], hev', ?_, ?_, ?_⟩
      · have hone : [e].filter (fun e => e.id ∈ b.failedIds) = [e] := by simp [hf]
        rw [List.map_append, hst, List.filter_append]
        exact congrArg _ hone.symm
      · rw [hrec, List.map_append]
        rfl
      · rw [hdirty, List.map_append, List.append_assoc]
        rfl
    · rename_i hf
      refine h.setBatch hb ?_ hsame ?_
      · rfl
      refine ⟨hs.claimed, hs.nodup, hs.failed, hrel, hmail, ?_⟩
      refine ⟨done ++ [e], t, stamps, hev', ?_, hrec, hdirty⟩
      have hnone : [e].filter (fun e => e.id ∈ b.failedIds) = [] := by simp [hf]
      rw [hst, List.filter_append]
      exact (List.append_nil _).symm.trans (congrArg _ hnone.symm)
  · rename_i htodo
    exact h.commit hb htodo

/-- **One step keeps the invariant.** -/
theorem Sound.step (h : s.Sound env config) {l : RelayLabel ι}
    (hs : s.step env config l = some s') : s'.Sound env config := by
  cases l with
  | insert events =>
      obtain rfl := Option.some.inj hs
      exact h.insert events
  | claim i =>
      rw [Relay.step] at hs
      split at hs
      · cases hs
      · rename_i hi
        split at hs
        · obtain rfl := Option.some.inj hs
          exact h
        · rename_i e es hevents
          obtain rfl := Option.some.inj hs
          exact h.claim hi hevents
  | advance i outcome =>
      obtain ⟨b, hb, rfl⟩ := Option.map_eq_some_iff.mp hs
      exact h.advance hb outcome
  | crash i =>
      obtain rfl := Option.some.inj hs
      exact h.endBatch i
  | replay ids =>
      obtain rfl := Option.some.inj hs
      exact h.replay ids
  | prune before =>
      obtain rfl := Option.some.inj hs
      exact h.prune before
  | tick d =>
      obtain rfl := Option.some.inj hs
      exact ⟨h.keyed, h.minted, h.batches, h.apart, h.rows, h.kept⟩
  | draw n =>
      obtain rfl := Option.some.inj hs
      refine ⟨h.keyed, fun e he => ?_, h.batches, h.apart, h.rows, h.kept⟩
      obtain ⟨m, hm, hem⟩ := h.minted e he
      exact ⟨m, Nat.lt_add_right _ hm, hem⟩

/-- **The invariant holds in every reachable state.** -/
theorem reach_sound {C : Relay ι → RelayLabel ι → Prop} (h : Reach env config C {} s) :
    s.Sound env config := by
  induction h with
  | refl => exact sound_start env config
  | tail _ hs ih =>
      obtain ⟨l, -, hs⟩ := hs
      exact ih.step hs

/-! ### What a commit processes -/

omit [Fintype ι] in
/-- **What a statement of a batch changes**: the commit changes the table; the others leave it
alone, and show the outside world at most one thing. -/
theorem advance_cases (config : WorkerConfig) (s : Relay ι) (i : ι) (b : Batch)
    (outcome : Except String Unit) :
    (b.todo = .reschedule [] ∧ s.advance config i b outcome = { s.endBatch i with
      rows := s.rows.map b.flush
      journal := s.entries b ++ s.journal }) ∨
    (s.advance config i b outcome).rows = s.rows ∧ (s.advance config i b outcome).rng = s.rng ∧
      ((s.advance config i b outcome).effects = s.effects ∨
        (∃ e rest accepted, b.todo = .publish (e :: rest) ∧
          (s.advance config i b outcome).effects = .published e.id accepted :: s.effects) ∨
        ∃ id returned, (s.advance config i b outcome).effects = .sent id returned :: s.effects) := by
  rw [Relay.advance]
  split
  · rename_i e rest htodo
    cases outcome with
    | ok x => exact Or.inr ⟨rfl, rfl, Or.inr (Or.inl ⟨e, rest, true, htodo, rfl⟩)⟩
    | error error => exact Or.inr ⟨rfl, rfl, Or.inr (Or.inl ⟨e, rest, false, htodo, rfl⟩)⟩
  · exact Or.inr ⟨rfl, rfl, Or.inl rfl⟩
  · split
    · exact Or.inr ⟨rfl, rfl, Or.inl rfl⟩
    · exact Or.inr ⟨rfl, rfl, Or.inr (Or.inr ⟨_, _, rfl⟩)⟩
  · exact Or.inr ⟨rfl, rfl, Or.inl rfl⟩
  · exact Or.inr ⟨rfl, rfl, Or.inl rfl⟩
  · split
    · exact Or.inr ⟨rfl, rfl, Or.inl rfl⟩
    · exact Or.inr ⟨rfl, rfl, Or.inl rfl⟩
  · rename_i htodo
    exact Or.inl ⟨htodo, rfl⟩

/-- **A step that leaves a row processed is the commit of a batch that has published it.** -/
theorem Sound.processing (h : s.Sound env config) {l : RelayLabel ι}
    (hs : s.step env config l = some s') {e e' : OutboxEvent} (he : e ∈ s.rows)
    (hopen : e.processedAt = none) (he' : e' ∈ s'.rows) (hid : e'.id = e.id)
    (hproc : e'.processedAt ≠ none) :
    s'.effects = s.effects ∧ ∃ i, ∃ b ∈ s.batches i, b.todo = .reschedule [] ∧ e ∈ b.published := by
  -- a row that is the same, but for what `replay` resets, is still open
  have hsame : ∀ row ∈ s.rows, row.id = e.id → row.processedAt = none := by
    intro row hrow hrid
    obtain rfl : row = e := List.inj_on_of_nodup_map h.keyed hrow he hrid
    exact hopen
  have hkeep : s'.rows = s.rows → False := fun hrows => hproc (hsame e' (hrows ▸ he') hid)
  cases l with
  | insert events =>
      have h' := h.step hs
      obtain rfl := Option.some.inj hs
      obtain rfl : e' = e :=
        List.inj_on_of_nodup_map h'.keyed he' (List.mem_append_left _ he) hid
      exact absurd hopen hproc
  | claim i =>
      refine (hkeep ?_).elim
      rw [Relay.step] at hs
      split at hs
      · cases hs
      · split at hs
        · obtain rfl := Option.some.inj hs
          rfl
        · obtain rfl := Option.some.inj hs
          rfl
  | advance i outcome =>
      obtain ⟨b, hb, rfl⟩ := Option.map_eq_some_iff.mp hs
      rcases advance_cases config s i b outcome with ⟨htodo, heq⟩ | ⟨hrows, -⟩
      · rw [heq] at he' ⊢
        refine ⟨rfl, i, b, hb, htodo, ?_⟩
        obtain ⟨row, hrow, rfl⟩ := List.mem_map.mp he'
        rcases (h.batches i b hb).flush_cases htodo h.keyed hrow with ⟨-, heq⟩ | ⟨hp, t, heq⟩ |
          ⟨-, -, t, error, -, heq⟩
        · rw [heq] at hid hproc
          exact absurd (hsame row hrow hid) hproc
        · rw [heq] at hid
          obtain rfl : row = e := List.inj_on_of_nodup_map h.keyed hrow he hid
          exact hp
        · rw [heq, reschedule_id] at hid
          rw [heq, (reschedule_spec t error row).2.1] at hproc
          exact absurd (hsame row hrow hid) hproc
      · exact (hkeep hrows).elim
  | crash i =>
      obtain rfl := Option.some.inj hs
      exact (hkeep rfl).elim
  | replay ids =>
      obtain rfl := Option.some.inj hs
      obtain ⟨row, hrow, rfl⟩ := List.mem_map.mp he'
      by_cases hrep : replays ids row = true
      · rw [if_pos hrep] at hid hproc
        exact absurd (hsame row hrow hid) hproc
      · rw [if_neg hrep] at hid hproc
        exact absurd (hsame row hrow hid) hproc
  | prune before =>
      obtain rfl := Option.some.inj hs
      exact absurd (hsame e' (List.mem_of_mem_filter he') hid) hproc
  | tick d =>
      obtain rfl := Option.some.inj hs
      exact (hkeep rfl).elim
  | draw n =>
      obtain rfl := Option.some.inj hs
      exact (hkeep rfl).elim

/-! ### Rows that are never published again -/

/-- **What is settled is not published.** A property that no step takes from the rows with an
id, and that open rows lack, keeps the id from the broker. -/
theorem Sound.settled (h : s.Sound env config) {id : Uuid} {C : Relay ι → RelayLabel ι → Prop}
    {Q : OutboxEvent → Prop} (hQ : ∀ e, Q e → e.processedAt ≠ none ∨ e.failedAt ≠ none)
    (hreplay : ∀ s ids e, C s (.replay ids) → replays ids e = true → e.id = id →
      RowSound env s.journal s.effects e → Q e → Q (replayed e))
    (hreach : Reach env config C s s') (hold : ∃ n < s.rng, id = env.uuid4 n)
    (hrows : ∀ e ∈ s.rows, e.id = id → Q e) :
    s'.effects.filter (Effect.publishes id) = s.effects.filter (Effect.publishes id) := by
  have hrun : s'.Sound env config ∧ (∃ n < s'.rng, id = env.uuid4 n) ∧
      (∀ e ∈ s'.rows, e.id = id → Q e) ∧
      s'.effects.filter (Effect.publishes id) = s.effects.filter (Effect.publishes id) := by
    induction hreach with
    | refl => exact ⟨h, hold, hrows, rfl⟩
    | @tail s₁ s₂ _ hs ih =>
        obtain ⟨l, hC, hs⟩ := hs
        obtain ⟨hsound, ⟨n, hn, hid⟩, hq, heff⟩ := ih
        refine ⟨hsound.step hs, ?_⟩
        -- a batch has not claimed it
        have hfree : ∀ i, ∀ b ∈ s₁.batches i, ∀ e ∈ b.events, e.id ≠ id := by
          intro i b hb e he heid
          obtain ⟨hmem, hopen, hlive⟩ := (hsound.batches i b hb).claimed e he
          rcases hQ e (hq e hmem heid) with hp | hf
          · exact hp hopen
          · exact hf hlive
        cases l with
        | insert events =>
            obtain rfl := Option.some.inj hs
            refine ⟨⟨n, Nat.lt_add_right _ hn, hid⟩, fun e he heid => ?_, heff⟩
            rcases List.mem_append.mp he with hold' | hnew
            · exact hq e hold' heid
            · have hmem : e.id ∈ (s₁.newRows env events).map OutboxEvent.id :=
                List.mem_map_of_mem hnew
              rw [newRows_ids] at hmem
              obtain ⟨m, hm, hem⟩ := List.mem_map.mp hmem
              have : m = n := env.uuid4_injective (hem.trans (heid.trans hid))
              exact absurd hn (Nat.not_lt.mpr (this ▸ (List.mem_range'_1.mp hm).1))
        | claim i =>
            rw [Relay.step] at hs
            split at hs
            · cases hs
            · split at hs
              · obtain rfl := Option.some.inj hs
                exact ⟨⟨n, hn, hid⟩, hq, heff⟩
              · obtain rfl := Option.some.inj hs
                exact ⟨⟨n, hn, hid⟩, hq, heff⟩
        | advance i outcome =>
            obtain ⟨b, hb, rfl⟩ := Option.map_eq_some_iff.mp hs
            rcases advance_cases config s₁ i b outcome with ⟨htodo, heq⟩ | ⟨hr, hg, hcases⟩
            · rw [heq]
              refine ⟨⟨n, hn, hid⟩, fun e he heid => ?_, heff⟩
              obtain ⟨row, hrow, rfl⟩ := List.mem_map.mp he
              rcases (hsound.batches i b hb).flush_cases htodo hsound.keyed hrow with ⟨-, heq⟩ |
                ⟨hp, t, heq⟩ | ⟨hmine, -, t, error, -, heq⟩
              · rw [heq] at heid ⊢
                exact hq row hrow heid
              · rw [heq] at heid
                exact absurd heid (hfree i b hb row (Batch.mem_published.mp hp).1)
              · rw [heq, reschedule_id] at heid
                exact absurd heid (hfree i b hb row hmine)
            · rw [hr, hg]
              refine ⟨⟨n, hn, hid⟩, hq, ?_⟩
              rcases hcases with he | ⟨e, rest, accepted, htodo, he⟩ | ⟨_, _, he⟩
              · rw [he, heff]
              · have hstage := (hsound.batches i b hb).stage
                rw [Batch.Stage, htodo] at hstage
                obtain ⟨-, -, done, hev, -⟩ := hstage
                have hne : e.id ≠ id := hfree i b hb e (hev ▸ by simp)
                rw [he, List.filter_cons_of_neg (by simpa [Effect.publishes] using hne), heff]
              · rw [he, List.filter_cons_of_neg (by simp [Effect.publishes]), heff]
        | crash i =>
            obtain rfl := Option.some.inj hs
            exact ⟨⟨n, hn, hid⟩, hq, heff⟩
        | replay ids =>
            obtain rfl := Option.some.inj hs
            refine ⟨⟨n, hn, hid⟩, fun e he heid => ?_, heff⟩
            obtain ⟨row, hrow, rfl⟩ := List.mem_map.mp he
            by_cases hrep : replays ids row = true
            · rw [if_pos hrep] at heid ⊢
              exact hreplay s₁ ids row hC hrep heid (hsound.rows row hrow) (hq row hrow heid)
            · rw [if_neg hrep] at heid ⊢
              exact hq row hrow heid
        | prune before =>
            obtain rfl := Option.some.inj hs
            exact ⟨⟨n, hn, hid⟩, fun e he => hq e (List.mem_of_mem_filter he), heff⟩
        | tick d =>
            obtain rfl := Option.some.inj hs
            exact ⟨⟨n, hn, hid⟩, hq, heff⟩
        | draw k =>
            obtain rfl := Option.some.inj hs
            exact ⟨⟨n, Nat.lt_add_right _ hn, hid⟩, hq, heff⟩
  exact hrun.2.2.2

/-- **A claimed row has waited** for its backoff, since it last failed. -/
theorem Sound.claimed (h : s.Sound env config) {i : ι} (hs : s.step env config (.claim i) = some s')
    {b : Batch} (hb : b ∈ s'.batches i) {e : OutboxEvent} (he : e ∈ b.events)
    (hfailed : 0 < e.attempts) :
    e.attempts < OutboxRepository.maxAttempts ∧ ∃ t, lastFailure e.id s.journal = some t ∧
      t + backoffDelay e.attempts ≤ s.clock := by
  rw [Relay.step] at hs
  split at hs
  · cases hs
  · rename_i hnone
    split at hs
    · obtain rfl := Option.some.inj hs
      rw [hnone] at hb
      cases hb
    · rename_i e₀ es hevents
      obtain rfl := Option.some.inj hs
      simp only [Relay.setBatch, Function.update_self, Option.mem_some_iff] at hb
      subst hb
      obtain ⟨hmem, hdue, -⟩ := mem_getUnprocessed (hevents ▸ he)
      obtain ⟨hopen, hlive, hnext⟩ := due_iff.mp hdue
      have hrow := h.rows e hmem
      have hlt : e.attempts < OutboxRepository.maxAttempts :=
        lt_of_le_of_ne hrow.bounded fun heq => hrow.dead.mpr heq hlive
      obtain ⟨t, ht, hwait⟩ := hrow.waits hopen hfailed hlt
      exact ⟨hlt, t, ht, hnext _ hwait⟩

end Steps

/-- A run whose last state has a property, by evaluation. -/
theorem exists_run [Fintype ι] [DecidableEq ι] {ls : List (RelayLabel ι)} {P : Relay ι → Prop}
    [DecidablePred P] (h : (s.run env config ls).any (fun s' => decide (P s')) = true) :
    ∃ s', s.run env config ls = some s' ∧ P s' := by
  obtain ⟨s', hs', hP⟩ := (Option.any_eq_true _ _).mp h
  exact ⟨s', hs', of_decide_eq_true hP⟩

end Relay

/-! ### No event is lost -/

section Results

variable [Fintype ι] [DecidableEq ι] {C : Relay ι → RelayLabel ι → Prop} {s : Relay ι}

/-- **No outbox event is lost.** In every reachable state a processed row was accepted by the
broker; any other row is dead, or is due as soon as its next attempt is; and a row that a
commit has inserted is in the table until it was accepted. -/
theorem outbox_loses_nothing (h : Relay.Reach env config C {} s) :
    (∀ e ∈ s.rows, e.processedAt ≠ none → .published e.id true ∈ s.effects) ∧
      (∀ e ∈ s.rows, e.processedAt = none → e.failedAt ≠ none ∨
        ∀ now, (∀ t, e.nextAttemptAt = some t → t ≤ now) → due now e = true) ∧
      ∀ id, .inserted id ∈ s.journal →
        (∃ e ∈ s.rows, e.id = id) ∨ .published id true ∈ s.effects := by
  have hsound := Relay.reach_sound h
  refine ⟨fun e he => (hsound.rows e he).accepted, fun e he hopen => ?_, hsound.kept⟩
  by_cases hdead : e.failedAt = none
  · exact Or.inr fun now hnow => due_iff.mpr ⟨hopen, hdead, hnow⟩
  · exact Or.inl hdead

/-- **The life of an outbox row.** In every reachable state no row is both processed and dead,
`attempts` counts its failed publishes since it was inserted or last replayed, and a row is
dead when the count is eight. A row that has failed `k` times is claimed `min (2 ^ k) 300`
seconds after it last failed, at the earliest. A processed row is never published again, and a
dead one not before it is replayed. -/
theorem outbox_row_lifecycle (h : Relay.Reach env config C {} s) :
    (∀ e ∈ s.rows, (e.processedAt = none ∨ e.failedAt = none) ∧
      e.attempts = failuresSince e.id s.journal ∧ (e.failedAt ≠ none ↔ e.attempts = 8)) ∧
    (∀ i s', s.step env config (.claim i) = some s' → ∀ b ∈ s'.batches i, ∀ e ∈ b.events,
      0 < e.attempts → e.attempts < 8 ∧ ∃ t, lastFailure e.id s.journal = some t ∧
        t + seconds (min (2 ^ e.attempts) 300 : ℕ) ≤ s.clock) ∧
    (∀ e ∈ s.rows, e.processedAt ≠ none → ∀ s', Relay.Reach env config C s s' →
      s'.effects.filter (Effect.publishes e.id) = s.effects.filter (Effect.publishes e.id)) ∧
    ∀ e ∈ s.rows, e.failedAt ≠ none → ∀ s',
      Relay.Reach env config (fun _ l => ∀ ids, l = .replay ids → e.id ∉ ids) s s' →
      s'.effects.filter (Effect.publishes e.id) = s.effects.filter (Effect.publishes e.id) := by
  have hsound := Relay.reach_sound h
  -- the one row with its id
  have honly : ∀ e ∈ s.rows, ∀ row ∈ s.rows, row.id = e.id → row = e :=
    fun e he row hrow hid => List.inj_on_of_nodup_map hsound.keyed hrow he hid
  refine ⟨fun e he => ?_, fun i s' hs b hb e he hfailed => ?_, fun e he hp s' hr => ?_,
    fun e he hf s' hr => ?_⟩
  · have hrow := hsound.rows e he
    exact ⟨hrow.terminal, hrow.attempts, hrow.dead⟩
  · obtain ⟨hlt, t, ht, hle⟩ := hsound.claimed hs hb he hfailed
    exact ⟨hlt, t, ht, backoffDelay_eq _ ▸ hle⟩
  · refine hsound.settled (Q := fun row => row.processedAt ≠ none) (fun _ hq => Or.inl hq)
      (fun _ _ _ _ _ _ _ hq => hq) hr (hsound.minted e he) fun row hrow hid => ?_
    exact honly e he row hrow hid ▸ hp
  · refine hsound.settled (Q := fun row => row.processedAt ≠ none ∨ row.failedAt ≠ none)
      (fun _ hq => hq) ?_ hr (hsound.minted e he) fun row hrow hid => ?_
    · intro s₁ ids row hC hrep hid _ _
      rw [replays, Bool.and_eq_true, decide_eq_true_eq] at hrep
      exact absurd (hid ▸ hrep.1) (hC ids rfl)
    · exact Or.inr (honly e he row hrow hid ▸ hf)

/-- **No email is passed over.** When a worker with a sender commits a row as processed whose
payload has a recipient and a token, the sender was called for that row, in that batch or an
earlier one. -/
theorem processed_rows_attempted (h : Relay.Reach env config C {} s)
    (hemails : config.emails = true) {l : RelayLabel ι} {s' : Relay ι}
    (hs : s.step env config l = some s') {e e' : OutboxEvent} (he : e ∈ s.rows)
    (hopen : e.processedAt = none) (he' : e' ∈ s'.rows) (hid : e'.id = e.id)
    (hproc : e'.processedAt ≠ none) (hemail : (emailOf e).isSome = true) :
    ∃ returned, .sent e.id returned ∈ s.effects := by
  have hsound := Relay.reach_sound h
  obtain ⟨-, i, b, hb, htodo, hpub⟩ := hsound.processing hs he hopen he' hid hproc
  have hstage := (hsound.batches i b hb).stage
  rw [Batch.Stage, htodo] at hstage
  obtain ⟨-, hmailed, -⟩ := hstage
  exact hmailed hemails e hpub hemail

/-- **A processed row has no secret**: none of the sensitive fields of its event's class is in
its payload. -/
theorem processed_rows_scrubbed (h : Relay.Reach env config C {} s) :
    ∀ e ∈ s.rows, e.processedAt ≠ none → ∃ cls : EventClass, e.eventType = cls.wireName ∧
      ∀ k ∈ cls.sensitiveFields, k ∉ e.payload.map Prod.fst := by
  intro e he hproc
  obtain ⟨ev, -, htype, ⟨hopen, -⟩ | ⟨-, hscrubbed⟩⟩ := ((Relay.reach_sound h).rows e he).source
  · exact absurd hopen hproc
  · exact ⟨ev.cls, htype, hscrubbed⟩

end Results

/-- A worker that sends emails. -/
def mailer : WorkerConfig := { emails := true, batchSize := 100 }

/-- The steps of worker `i` through a batch of one event: what publishing it and sending its
email come to. -/
def batchOfOne (i : ι) (publish send : Except String Unit) : List (RelayLabel ι) :=
  [.claim i, .advance i publish, .advance i (.ok ()), .advance i send, .advance i (.ok ()),
    .advance i (.ok ()), .advance i (.ok ()), .advance i (.ok ())]

/-- A batch of a lone request for a password reset, whose email is sent. -/
theorem batch_loses_nothing : ∃ s : Relay (Fin 2),
    Relay.run Reference.env mailer {} (.insert [resetRequest "token"] ::
      batchOfOne 0 (.ok ()) (.ok ())) = some s ∧
      (∃ e ∈ s.rows, e.processedAt ≠ none) ∧
      ∀ e ∈ s.rows, e.processedAt ≠ none → .published e.id true ∈ s.effects := by
  obtain ⟨s, hs, hproc⟩ : ∃ s : Relay (Fin 2),
      Relay.run Reference.env mailer {} (.insert [resetRequest "token"] ::
        batchOfOne 0 (.ok ()) (.ok ())) = some s ∧ ∃ e ∈ s.rows, e.processedAt ≠ none :=
    Relay.exists_run (by decide +kernel)
  exact ⟨s, hs, hproc, (outbox_loses_nothing (Relay.reach_of_run hs)).1⟩

/-- The steps of worker `i` through a batch of one event, which cannot be published. -/
def failedBatchOfOne (i : ι) : List (RelayLabel ι) :=
  [.claim i, .advance i (.error "broker down"), .advance i (.ok ()), .advance i (.ok ()),
    .advance i (.ok ()), .advance i (.ok ()), .advance i (.ok ())]

/-- After one failure the row is claimed again, when it has waited for two seconds. -/
theorem failed_row_waits : ∃ s s' : Relay (Fin 2),
    Relay.run Reference.env mailer {} (.insert [resetRequest "token"] ::
      (failedBatchOfOne 0 ++ [.tick 2000000])) = some s ∧
    s.step Reference.env mailer (.claim 1) = some s' ∧
    ∃ b ∈ s'.batches 1, ∃ e ∈ b.events, e.attempts = 1 ∧
      ∃ t, lastFailure e.id s.journal = some t ∧ t + seconds 2 ≤ s.clock := by
  obtain ⟨s, hs, s', hs', b, hb, e, he, hone⟩ : ∃ s : Relay (Fin 2),
      Relay.run Reference.env mailer {} (.insert [resetRequest "token"] ::
        (failedBatchOfOne 0 ++ [.tick 2000000])) = some s ∧
      ∃ s', s.step Reference.env mailer (.claim 1) = some s' ∧
        ∃ b ∈ s'.batches 1, ∃ e ∈ b.events, e.attempts = 1 := by
    decide +kernel
  obtain ⟨-, t, ht, hle⟩ := (outbox_row_lifecycle (Relay.reach_of_run hs)).2.1 1 s' hs' b hb e he
    (hone ▸ Nat.one_pos)
  rw [hone] at hle
  exact ⟨s, s', hs, hs', b, hb, e, he, hone, t, ht, hle⟩

/-- The email of a request for a password reset is attempted before its row is processed. -/
theorem reset_email_attempted : ∃ s s' : Relay (Fin 2),
    Relay.run Reference.env mailer {} (.insert [resetRequest "token"] ::
      (batchOfOne 0 (.ok ()) (.ok ())).dropLast) = some s ∧
    s.step Reference.env mailer (.advance 0 (.ok ())) = some s' ∧
    ∃ e ∈ s.rows, (∃ e' ∈ s'.rows, e'.id = e.id ∧ e'.processedAt ≠ none) ∧
      ∃ returned, .sent e.id returned ∈ s.effects := by
  obtain ⟨s, hs, s', hs', e, he, hopen, hemail, e', he', hid, hproc⟩ : ∃ s : Relay (Fin 2),
      Relay.run Reference.env mailer {} (.insert [resetRequest "token"] ::
        (batchOfOne 0 (.ok ()) (.ok ())).dropLast) = some s ∧
      ∃ s', s.step Reference.env mailer (.advance 0 (.ok ())) = some s' ∧
        ∃ e ∈ s.rows, e.processedAt = none ∧ (emailOf e).isSome = true ∧
          ∃ e' ∈ s'.rows, e'.id = e.id ∧ e'.processedAt ≠ none := by
    decide +kernel
  exact ⟨s, s', hs, hs', e, he, ⟨e', he', hid, hproc⟩,
    processed_rows_attempted (Relay.reach_of_run hs) rfl hs' he hopen he' hid hproc hemail⟩

/-- The sender may raise: the row is processed, and its email was never sent. -/
theorem reset_email_dropped : ∃ s s' : Relay (Fin 2),
    Relay.run Reference.env mailer {} (.insert [resetRequest "token"] ::
      (batchOfOne 0 (.ok ()) (.error "mailbox unavailable")).dropLast) = some s ∧
    s.step Reference.env mailer (.advance 0 (.ok ())) = some s' ∧
    ∃ e ∈ s.rows, e.processedAt = none ∧ (emailOf e).isSome = true ∧
      (∃ e' ∈ s'.rows, e'.id = e.id ∧ e'.processedAt ≠ none) ∧
      .sent e.id true ∉ s'.effects := by
  obtain ⟨s, hs, s', hs', hrest⟩ : ∃ s : Relay (Fin 2),
      Relay.run Reference.env mailer {} (.insert [resetRequest "token"] ::
        (batchOfOne 0 (.ok ()) (.error "mailbox unavailable")).dropLast) = some s ∧
      ∃ s', s.step Reference.env mailer (.advance 0 (.ok ())) = some s' ∧
        ∃ e ∈ s.rows, e.processedAt = none ∧ (emailOf e).isSome = true ∧
          (∃ e' ∈ s'.rows, e'.id = e.id ∧ e'.processedAt ≠ none) ∧
          .sent e.id true ∉ s'.effects := by
    decide +kernel
  exact ⟨s, s', hs, hs', hrest⟩

/-- The token of a request for a password reset is gone once the request is processed. -/
theorem reset_token_scrubbed : ∃ s : Relay (Fin 2),
    Relay.run Reference.env mailer {} (.insert [resetRequest "token"] ::
      batchOfOne 0 (.ok ()) (.ok ())) = some s ∧
    ∃ e ∈ s.rows, ∃ cls : EventClass, e.eventType = cls.wireName ∧
      ∀ k ∈ cls.sensitiveFields, k ∉ e.payload.map Prod.fst := by
  obtain ⟨s, hs, e, he, hproc⟩ : ∃ s : Relay (Fin 2),
      Relay.run Reference.env mailer {} (.insert [resetRequest "token"] ::
        batchOfOne 0 (.ok ()) (.ok ())) = some s ∧ ∃ e ∈ s.rows, e.processedAt ≠ none :=
    Relay.exists_run (by decide +kernel)
  exact ⟨s, hs, e, he, processed_rows_scrubbed (Relay.reach_of_run hs) e he hproc⟩

/-- A dead row keeps its token, with which it can still be replayed. -/
theorem dead_row_keeps_token : ∃ s : Relay (Fin 2),
    Relay.run Reference.env mailer {} (.insert [resetRequest "token"] ::
      (List.replicate 8 (failedBatchOfOne 0 ++ [.tick 300000000])).flatten) = some s ∧
    ∃ e ∈ s.rows, e.failedAt ≠ none ∧
      e.eventType = EventClass.passwordResetRequested.wireName ∧
      ∃ k ∈ EventClass.passwordResetRequested.sensitiveFields, k ∈ e.payload.map Prod.fst :=
  Relay.exists_run (by decide +kernel)

end BackendTemplate
