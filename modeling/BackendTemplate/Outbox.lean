import BackendTemplate.Deletion
import BackendTemplate.Revocation
import BackendTemplate.Sequential

/-!
# Outbox Completeness

A domain operation records its event on the aggregate it returns; the service writes the
aggregate back and registers it with the unit of work; `SQLAlchemyUoW.commit` drains the
registered events into outbox rows, lets the audit handler write its rows, and commits, all in
one transaction. An event is missing when any of these steps is, for any one of the arbitrarily
many sessions a password change or a deletion revokes.

`uowCommit` follows the commit step by step, with every place where it can raise. It is the
commit of the machine, or a rollback (`uowCommit_cases`).

## Main results

* `uowCommit_cases` — a commit that raises anywhere leaves nothing.
* `Runs.collected` — the unit of work holds the events the request has registered.
* `outbox_complete` — every revoked session, deleted account and replaced password of a
  committed transaction has exactly one outbox row.
-/

namespace BackendTemplate

open Atomic

variable {env : Env} {ι : Type}

/-! ### The commit, step by step -/

/-- Where `SQLAlchemyUoW.commit` can raise: while it persists an event, in the audit handler of
an event, or in the commit of the database session. -/
inductive CommitFault
  | outbox (n : ℕ)
  | handler (n : ℕ)
  | session
deriving DecidableEq

/-- The event whose outbox row cannot be written. -/
def CommitFault.inOutbox : CommitFault → Option ℕ
  | .outbox n => some n
  | _ => none

/-- The event whose audit row cannot be written. -/
def CommitFault.inHandler : CommitFault → Option ℕ
  | .handler n => some n
  | _ => none

section UnitOfWork

variable [DecidableEq ι]

/-- `_drain`: the events of the registered aggregates leave the unit of work. -/
def World.drain (w : World ι) (i : ι) : World ι :=
  { w with txs := Function.update w.txs i { w.txs i with events := [] } }

/-- Write the rows of one event into the transaction of request `i`, with a new id. -/
def World.writeEvent (rows : ℕ → Instant → Event → List Write) (i : ι) (e : Event)
    (w : World ι) : World ι :=
  (w.issue i (rows w.rng w.clock e)).draw 1

/-- The outbox row of an event. -/
def outboxRows (env : Env) (n : ℕ) (now : Instant) (e : Event) : List Write :=
  [.outboxInsert ⟨env.uuid4 n, e, now⟩]

/-- The audit row of an event, if it has an action. -/
def auditRows (env : Env) (n : ℕ) (now : Instant) (e : Event) : List Write :=
  ((eventToAudit (env.uuid4 n) now e).map Write.auditInsert).toList

/-- `_persist_outbox_event`. -/
def World.persistOutboxEvent (env : Env) : ι → Event → World ι → World ι :=
  World.writeEvent (outboxRows env)

/-- `AuditEventHandler.handle`. -/
def World.handleEvent (env : Env) : ι → Event → World ι → World ι :=
  World.writeEvent (auditRows env)

/-- Go through the events; raise at the one that cannot be written. -/
def eachEvent (f : Event → World ι → World ι) : Option ℕ → List Event → World ι → Option (World ι)
  | _, [], w => some w
  | some 0, _ :: _, _ => none
  | some (n + 1), e :: es, w => eachEvent f (some n) es (f e w)
  | none, e :: es, w => eachEvent f none es (f e w)

/-- `AsyncSession.commit`: the statements of the transaction become visible. -/
def World.sessionCommit (w : World ι) (i : ι) : World ι :=
  { w with db := w.view i, txs := Function.update w.txs i {} }

/-- **`SQLAlchemyUoW.commit`.** Whatever raises, the session is rolled back and the error goes
on. -/
def uowCommit (env : Env) (fault : Option CommitFault) (i : ι) (w : World ι) :
    Except AppError Unit × World ι :=
  let events := (w.txs i).events
  let w := w.drain i
  match eachEvent (World.persistOutboxEvent env i) (fault.bind CommitFault.inOutbox) events w with
  | none => (.error .databaseError, w.rollback i)
  | some w =>
      match eachEvent (World.handleEvent env i) (fault.bind CommitFault.inHandler) events w with
      | none => (.error .databaseError, w.rollback i)
      | some w =>
          if fault = some .session then (.error .databaseError, w.rollback i)
          else (.ok (), w.sessionCommit i)

/-- Two lots of statements are one. -/
theorem issue_issue (w : World ι) (i : ι) (ws ws' : List Write) :
    (w.issue i ws).issue i ws' = w.issue i (ws ++ ws') := by
  rw [World.issue, World.issue, World.issue]
  simp [List.append_assoc]

theorem issue_nil (w : World ι) (i : ι) : w.issue i [] = w := by
  rw [World.issue, List.append_nil]
  exact congrArg (fun t => ({ w with txs := t } : World ι)) (Function.update_eq_self i w.txs)

/-- The rows of all events, in turn. -/
def World.writeEvents (rows : ℕ → Instant → Event → List Write) (i : ι) (es : List Event)
    (w : World ι) : World ι :=
  (w.issue i ((es.zipIdx w.rng).flatMap fun e => rows e.2 w.clock e.1)).draw es.length

/-- **What a loop over the events has written** when it ends, or it raised. -/
theorem eachEvent_cases (rows : ℕ → Instant → Event → List Write) (i : ι) (fault : Option ℕ)
    (es : List Event) (w : World ι) :
    (∃ n, fault = some n ∧ eachEvent (World.writeEvent rows i) fault es w = none) ∨
      eachEvent (World.writeEvent rows i) fault es w = some (w.writeEvents rows i es) := by
  induction es generalizing fault w with
  | nil =>
      right
      cases fault with
      | none => exact congrArg some (congrArg (World.draw · 0) (issue_nil w i)).symm
      | some n => exact congrArg some (congrArg (World.draw · 0) (issue_nil w i)).symm
  | cons e es ih =>
      have hrest : (World.writeEvent rows i e w).writeEvents rows i es =
          w.writeEvents rows i (e :: es) := by
        rw [World.writeEvents, World.writeEvents, List.zipIdx_cons, List.flatMap_cons,
          ← issue_issue]
        exact congrArg (fun m => ({ (w.issue i _).issue i _ with rng := m } : World ι))
          (Nat.add_right_comm w.rng 1 es.length)
      match fault with
      | none =>
          rcases ih none (World.writeEvent rows i e w) with ⟨n, hn, -⟩ | hdone
          · cases hn
          · exact Or.inr (hdone.trans (congrArg some hrest))
      | some 0 => exact Or.inl ⟨0, rfl, rfl⟩
      | some (n + 1) =>
          rcases ih (some n) (World.writeEvent rows i e w) with ⟨_, _, hfail⟩ | hdone
          · exact Or.inl ⟨n + 1, rfl, hfail⟩
          · exact Or.inr (hdone.trans (congrArg some hrest))

/-- The statements of the two loops are those of the atomic commit. -/
theorem eventWrites_eq (env : Env) (rng : ℕ) (now : Instant) (es : List Event) :
    ((es.zipIdx rng).flatMap fun e => outboxRows env e.2 now e.1) ++
      ((es.zipIdx (rng + es.length)).flatMap fun e => auditRows env e.2 now e.1) =
      eventWrites env rng now es := by
  rw [eventWrites, List.filterMap_eq_flatMap_toList, List.map_eq_flatMap]
  rfl

/-- The two loops and the commit of the session are the atomic commit. -/
theorem sessionCommit_eq (env : Env) (w : World ι) (i : ι) :
    (((w.drain i).writeEvents (outboxRows env) i (w.txs i).events).writeEvents (auditRows env) i
      (w.txs i).events).sessionCommit i = w.commit env i := by
  simp only [World.sessionCommit, World.commit, World.mk.injEq]
  refine ⟨?_, ?_, rfl, rfl, ?_⟩
  · rw [← eventWrites_eq]
    simp [World.writeEvents, World.view, World.issue, World.drain, World.draw]
  · simp [World.writeEvents, World.issue, World.drain, World.draw]
  · simp only [World.writeEvents, World.draw, World.issue, World.drain]
    omega

/-- **A commit that raises anywhere leaves nothing**: it is the commit of the machine, or the
tables are as before and the transaction is gone. -/
theorem uowCommit_cases (env : Env) (fault : Option CommitFault) (i : ι) (w : World ι) :
    uowCommit env fault i w = (.ok (), w.commit env i) ∨
      (∃ f e, fault = some f ∧ (uowCommit env fault i w).1 = .error e) ∧
        (uowCommit env fault i w).2.db = w.db ∧
        (uowCommit env fault i w).2.txs = Function.update w.txs i {} := by
  have hsome : ∀ {p : CommitFault → Option ℕ} {n}, fault.bind p = some n → ∃ f, fault = some f := by
    intro p n h
    cases fault with
    | none => cases h
    | some f => exact ⟨f, rfl⟩
  rw [uowCommit, World.persistOutboxEvent, World.handleEvent]
  rcases eachEvent_cases (outboxRows env) i (fault.bind CommitFault.inOutbox) (w.txs i).events
    (w.drain i) with ⟨n, hn, hfail⟩ | hdone
  · right
    obtain ⟨f, rfl⟩ := hsome hn
    rw [hfail]
    exact ⟨⟨f, _, rfl, rfl⟩, rfl, Function.update_idem _ _ _⟩
  · rw [hdone]
    dsimp only
    rcases eachEvent_cases (auditRows env) i (fault.bind CommitFault.inHandler) (w.txs i).events
      ((w.drain i).writeEvents (outboxRows env) i (w.txs i).events) with ⟨n, hn, hfail⟩ | hdone'
    · right
      obtain ⟨f, rfl⟩ := hsome hn
      rw [hfail]
      exact ⟨⟨f, _, rfl, rfl⟩, rfl, by
        simp [World.writeEvents, World.rollback, World.issue, World.drain, World.draw]⟩
    · rw [hdone']
      dsimp only
      split
      · rename_i hfault
        exact Or.inr ⟨⟨_, _, hfault, rfl⟩, rfl, by
          simp [World.writeEvents, World.rollback, World.issue, World.drain, World.draw]⟩
      · exact Or.inl (congrArg (Prod.mk _) (sessionCommit_eq env w i))

end UnitOfWork

/-! ### The events of the unit of work -/

/-- Only a registration or a commit changes what is registered. -/
theorem note_registered (p : Progress) {o : Op} (ho : ∀ es, o ≠ .register es) (hc : o ≠ .commit)
    (x : o.Res) : (p.note o x).registered = p.registered := by
  rw [Progress.note.eq_def]
  split
  case h_14 => exact absurd rfl (ho _)
  case h_15 => exact absurd rfl hc
  case h_16 => exact absurd rfl hc
  all_goals rfl

section Requests

variable [Fintype ι] [DecidableEq ι] {reqs : ι → Request} {C : Steps ι} {w w' : World ι}
  {c : Cfg ι}

omit [Fintype ι] in
theorem issue_events (w : World ι) (i j : ι) (ws : List Write) :
    ((w.issue i ws).txs j).events = (w.txs j).events := by
  by_cases hj : j = i
  · subst hj
    simp [World.issue]
  · simp [World.issue, hj]

/-- Every other call leaves the units of work alone. -/
theorem exec_events {ch : Choice} {i : ι} {o : Op} (ho : ∀ es, o ≠ .register es)
    (hc : o ≠ .commit) {x : o.Res} (h : exec env ch i o w = some (x, w')) (j : ι) :
    (w'.txs j).events = (w.txs j).events := by
  cases o with
  | addUser u =>
      rcases exec_addUser h with ⟨e, rfl, rfl⟩ | ⟨rfl, -, rfl⟩
      · rfl
      · exact issue_events w i j _
  | updateUser u =>
      rcases exec_updateUser h with ⟨e, rfl, -, rfl⟩ | ⟨rfl, -, -, rfl⟩
      · rfl
      · exact issue_events w i j _
  | addSession s =>
      rcases exec_addSession h with ⟨rfl, rfl⟩ | ⟨rfl, -, -, rfl⟩
      · rfl
      · exact issue_events w i j _
  | updateSession s =>
      rcases exec_updateSession h with ⟨rfl, rfl⟩ | ⟨rfl, -, -, rfl⟩
      · rfl
      · exact issue_events w i j _
  | register es => exact absurd rfl (ho es)
  | commit => exact absurd rfl hc
  | _ =>
      simp only [exec, Option.some.injEq, Prod.mk.injEq] at h
      obtain ⟨-, rfl⟩ := h
      rfl

/-- A call of one request leaves the units of work of the others alone. -/
theorem exec_events_ne {ch : Choice} {i j : ι} (hj : j ≠ i) {o : Op} {x : o.Res}
    (h : exec env ch i o w = some (x, w')) : (w'.txs j).events = (w.txs j).events := by
  by_cases hreg : ∃ es, o = .register es
  · obtain ⟨es, rfl⟩ := hreg
    simp only [exec, Option.some.injEq, Prod.mk.injEq] at h
    obtain ⟨-, rfl⟩ := h
    simp [World.track, hj]
  · by_cases ho : o = .commit
    · subst ho
      rcases exec_commit h with ⟨-, rfl⟩ | ⟨-, rfl⟩
      · simp [World.rollback, hj]
      · simp [World.commit, hj]
    · exact exec_events (fun es hes => hreg ⟨es, hes⟩) ho h j

/-- **The unit of work holds the events its request has registered**, in every reachable
configuration. -/
theorem Runs.collected (h : Runs env reqs C w c) (hw : ∀ i, w.txs i = {}) {i : ι}
    {a : Act Response} (ht : c.threads i = .running a) (hc : (did c i).committed = false) :
    (c.shared.txs i).events = (did c i).registered := by
  revert i a
  refine h.induction (fun c => ∀ {i a}, c.threads i = .running a → (did c i).committed = false →
    (c.shared.txs i).events = (did c i).registered) ?_ ?_ ?_ ?_
  · intro i a _ _
    rw [start_shared, hw i]
    rfl
  · intro c i ch o k x w' _ ih _ ht hal he j a hj hcj
    rw [afterCall_shared]
    by_cases hji : j = i
    · subst hji
      rw [did_afterCall_self] at hcj ⊢
      have hbefore := ih ht (of_note_uncommitted hcj)
      by_cases hreg : ∃ es, o = .register es
      · obtain ⟨es, rfl⟩ := hreg
        simp only [exec, Option.some.injEq, Prod.mk.injEq] at he
        obtain ⟨-, rfl⟩ := he
        have : ((c.shared.track j es).txs j).events = (c.shared.txs j).events ++ es := by
          simp [World.track]
        rw [this, hbefore]
        rfl
      · by_cases ho : o = .commit
        · subst ho
          rcases exec_commit he with ⟨rfl, rfl⟩ | ⟨rfl, rfl⟩
          · simp [World.rollback, Progress.note, Progress.undo]
          · exact absurd hcj (by simp [Progress.note])
        · rw [exec_events (fun es hes => hreg ⟨es, hes⟩) ho he, hbefore,
            note_registered _ (fun es hes => hreg ⟨es, hes⟩) ho]
    · rw [threads_afterCall_ne hji] at hj
      rw [did_afterCall_ne hji] at hcj ⊢
      rw [← ih hj hcj, exec_events_ne hji he]
  · intro c i ch x _ ih _ _ _ j a hj hcj
    have hji : j ≠ i := by
      rintro rfl
      exact absurd hj (by simp [left])
    rw [left_did] at hcj ⊢
    rw [← ih (threads_left hj) hcj, left_shared]
    simp [World.rollback, hji]
  · exact fun c d _ ih _ j a hj hcj => ih hj hcj

/-- **A session that a request has read has recorded no event.** -/
theorem Runs.silent (h : Runs env reqs C w c) (hw : Startable env w) (i : ι) :
    ∀ s ∈ (did c i).sessions, s.events = [] := by
  revert i
  refine h.induction (fun c => ∀ i, ∀ s ∈ (did c i).sessions, s.events = []) ?_ ?_ ?_ ?_
  · exact fun i s hs => absurd hs List.not_mem_nil
  · intro c i ch o k x w' hr ih _ ht hal he j s hs
    by_cases hji : j = i
    · subst hji
      rw [did_afterCall_self] at hs
      rcases mem_note_sessions he hs with hold | hread
      · exact ih j s hold
      · exact (hread.loads (hr.sound hw.idle) ht hal (hr.minted hw).keyed).events
    · rw [did_afterCall_ne hji] at hs
      exact ih j s hs
  · exact fun c i ch x _ ih _ _ _ => ih
  · exact fun c d _ ih _ => ih

/-- **The sessions a request has listed are distinct.** -/
theorem Runs.listed_nodup (h : Runs env reqs C w c) (hw : Startable env w) (i : ι) :
    ∀ u ss, (did c i).listed = some (u, ss) → (ss.map SessionAggregate.sessionId).Nodup := by
  revert i
  refine h.induction (fun c => ∀ i u ss, (did c i).listed = some (u, ss) →
    (ss.map SessionAggregate.sessionId).Nodup) ?_ ?_ ?_ ?_
  · exact fun i u ss hl => absurd hl (by simp)
  · intro c i ch o k x w' hr ih _ ht hal he j u ss hl
    by_cases hji : j = i
    · subst hji
      rw [did_afterCall_self] at hl
      rcases note_listed_current (hr.sound hw.idle) ht hal he hl with hold | hread
      · exact ih j u ss hold
      · exact acquireSessionsOf_nodup (hr.minted hw).keyed.sessions hread
    · rw [did_afterCall_ne hji] at hl
      exact ih j u ss hl
  · exact fun c i ch x _ ih _ _ _ => ih
  · exact fun c d _ ih _ => ih

end Requests

/-! ### The events of what a request writes -/

/-- Whether an event belongs to a user. -/
def Event.ofUser (e : Event) : Bool := (eventAggregate e).1 = "User"

/-- Recording an event of a user on a user that has only such events. -/
theorem recordEvent_ofUser {u : User} {e : Event} (hu : ∀ e ∈ u.events, e.ofUser = true)
    (he : e.ofUser = true) : ∀ e' ∈ (u.recordEvent e).events, e'.ofUser = true := by
  intro e' he'
  rcases List.mem_append.mp he' with hold | hnew
  · exact hu e' hold
  · obtain rfl := List.mem_singleton.mp hnew
    exact he

/-- **What a request records on the user it writes back** are events of users. -/
theorem Computes.events {r : Request} {u₀ u : User} (h : Computes env r u₀ u)
    (h₀ : ∀ e ∈ u₀.events, e.ofUser = true) : ∀ e ∈ u.events, e.ofUser = true := by
  have htwo : ∀ {v : User} {now code b}, u₀.verifyTwoFactor env now code = (b, v) →
      ∀ e ∈ v.events, e.ofUser = true := by
    intro v now code b hv
    obtain ⟨s, hs⟩ := u₀.verifyTwoFactor_eq env now code
    rw [hv] at hs
    obtain rfl : v = { u₀ with twoFactorSecret := s } := hs
    exact h₀
  cases h with
  | wrongPassword =>
      rw [User.recordFailedLoginAttempt]
      split
      · exact recordEvent_ofUser h₀ rfl
      · exact h₀
  | rightPassword => exact recordEvent_ofUser h₀ rfl
  | completeConsumes now hv => exact htwo hv
  | verifyConsumes now hv => exact htwo hv
  | enrol => exact h₀
  | confirm now hc =>
      obtain ⟨s, -, rfl⟩ := confirmTwoFactor_ok hc
      exact recordEvent_ofUser h₀ rfl
  | disable => exact recordEvent_ofUser h₀ rfl
  | changePassword hc =>
      obtain rfl := changePassword_ok hc
      exact recordEvent_ofUser h₀ rfl
  | requestReset => exact recordEvent_ofUser h₀ rfl
  | resetPassword now hr =>
      obtain ⟨t, rfl⟩ := resetPassword_ok hr
      exact recordEvent_ofUser h₀ rfl
  | delete now =>
      rw [User.delete]
      split
      · exact recordEvent_ofUser h₀ rfl
      · exact h₀
  | verifyEmail => exact recordEvent_ofUser h₀ rfl
  | @profile _ _ _ _ u₁ _ h₁ h₂ =>
      have hname : ∀ e ∈ u₁.events, e.ofUser = true := by
        rcases h₁ with rfl | ⟨name, rfl⟩
        · exact h₀
        · rw [User.updateUsername]
          split
          · exact recordEvent_ofUser h₀ rfl
          · exact h₀
      rcases h₂ with rfl | ⟨now, address, token, rfl⟩
      · exact hname
      · rw [User.updateEmail]
        split
        · exact recordEvent_ofUser (recordEvent_ofUser hname rfl) rfl
        · exact hname

/-- **A replaced password is recorded**, once, by a request that opens no session. -/
theorem Computes.replaces {r : Request} {u₀ u : User} (h : Computes env r u₀ u) :
    u.hashedPassword = u₀.hashedPassword ∨
      (∀ p s, ¬ Granted env r p s) ∧
        (u.events = u₀.events ++ [.passwordChanged u₀.id.value] ∨
          u.events = u₀.events ++ [.passwordResetCompleted u₀.id.value]) := by
  have htwo : ∀ {v : User} {now code b}, u₀.verifyTwoFactor env now code = (b, v) →
      v.hashedPassword = u₀.hashedPassword := by
    intro v now code b hv
    obtain ⟨s, hs⟩ := u₀.verifyTwoFactor_eq env now code
    rw [hv] at hs
    exact (congrArg User.hashedPassword hs).trans rfl
  cases h with
  | wrongPassword =>
      left
      rw [User.recordFailedLoginAttempt]
      split <;> rfl
  | completeConsumes now hv => exact Or.inl (htwo hv)
  | verifyConsumes now hv => exact Or.inl (htwo hv)
  | confirm now hc =>
      obtain ⟨s, -, rfl⟩ := confirmTwoFactor_ok hc
      exact Or.inl rfl
  | changePassword hc =>
      obtain rfl := changePassword_ok hc
      exact Or.inr ⟨fun _ _ hg => hg, Or.inl rfl⟩
  | resetPassword now hr =>
      obtain ⟨t, rfl⟩ := resetPassword_ok hr
      exact Or.inr ⟨fun _ _ hg => hg, Or.inr rfl⟩
  | delete now =>
      left
      rw [User.delete]
      split <;> rfl
  | @profile _ _ _ _ u₁ _ h₁ h₂ =>
      left
      have hname : u₁.hashedPassword = u₀.hashedPassword := by
        rcases h₁ with rfl | ⟨name, rfl⟩
        · rfl
        · rw [User.updateUsername]
          split <;> rfl
      rcases h₂ with rfl | ⟨now, address, token, rfl⟩
      · exact hname
      · rw [User.updateEmail]
        split <;> exact hname
  | _ => exact Or.inl rfl

/-- **A deleted account is recorded**, once, by a request that opens no session. -/
theorem Computes.records_deletion {r : Request} {u₀ u : User} (h : Computes env r u₀ u) :
    u.deletedAt = u₀.deletedAt ∨
      (∀ p s, ¬ Granted env r p s) ∧ u.events = u₀.events ++ [.userDeleted u₀.id.value] := by
  rcases h.deletes with hsame | ⟨userId, now, rfl, hlive, rfl⟩
  · exact Or.inl hsame
  · refine Or.inr ⟨fun _ _ hg => hg, ?_⟩
    rw [User.delete, hlive]
    rfl

section Requests

variable [Fintype ι] [DecidableEq ι] {reqs : ι → Request} {C : Steps ι} {w : World ι} {c : Cfg ι}
  {i : ι} {a : Act Response}

/-- **The sessions a request has written back are distinct.** -/
theorem Runs.updated_nodup (h : Runs env reqs C w c) (hw : Startable env w) (i : ι) :
    ((did c i).updated.map SessionAggregate.sessionId).Nodup := by
  rcases (h.coherent i).inTurn with hone | ⟨u, done, rest, hlisted, hup⟩
  · match hup : (did c i).updated, hone with
    | [], _ => exact List.nodup_nil
    | [s], _ => exact List.nodup_singleton _
  · have hids : (done.map SessionAggregate.revoke).map SessionAggregate.sessionId =
        done.map SessionAggregate.sessionId := by
      rw [List.map_map]
      rfl
    have hall := h.listed_nodup hw i u _ hlisted
    rw [List.map_append] at hall
    rw [hup, List.map_reverse, List.nodup_reverse, hids]
    exact hall.of_append_left

/-- **What a request has recorded on a session it has written back**: that it is revoked, or
that its token was exchanged. -/
theorem Runs.updated_events (h : Runs env reqs C w c) (hw : Startable env w)
    {s : SessionAggregate} (hs : s ∈ (did c i).updated) :
    (s.isRevoked = true ∧ s.events = [.sessionRevoked s.sessionId s.userId.value]) ∨
      s.isRevoked = false ∧ s.events = [.tokenRefreshed s.sessionId s.userId.value] := by
  rcases (h.coherent i).updated s hs with ⟨s₀, hs₀, rfl⟩ | ⟨t, s₀, -, presented, new, now, hs₀,
    hlive, -, -, -, -, rfl⟩
  · refine Or.inl ⟨rfl, ?_⟩
    change s₀.events ++ [_] = _
    rw [h.silent hw i s₀ hs₀]
    rfl
  · refine Or.inr ⟨hlive, ?_⟩
    change s₀.events ++ [_] = _
    rw [h.silent hw i s₀ hs₀]
    rfl

/-- No event of a session it has written back is an event of a user. -/
theorem Runs.updated_not_ofUser (h : Runs env reqs C w c) (hw : Startable env w) {P : Event → Bool}
    (hP : ∀ e, P e = true → e.ofUser = true) :
    ((did c i).updated.flatMap SessionAggregate.events).filter P = [] := by
  rw [List.filter_eq_nil_iff]
  intro e he hPe
  obtain ⟨s, hs, hes⟩ := List.mem_flatMap.mp he
  have huser := hP e hPe
  rcases h.updated_events hw hs with ⟨-, hev⟩ | ⟨-, hev⟩
  · obtain rfl := List.mem_singleton.mp (hev ▸ hes)
    exact absurd huser (by simp [Event.ofUser, eventAggregate])
  · obtain rfl := List.mem_singleton.mp (hev ▸ hes)
    exact absurd huser (by simp [Event.ofUser, eventAggregate])

/-- The events of the users a request has written are events of users. -/
theorem Runs.user_events (h : Runs env reqs C w c) (hw : Startable env w)
    (ht : c.threads i = .running a) (hc : (did c i).committed = false) {u : User}
    (hu : (did c i).userWrite = some u ∨ (did c i).userInsert = some u) :
    ∀ e ∈ u.events, e.ofUser = true := by
  rcases hu with hu | hu
  · obtain ⟨u₀, -, hd, row, -, -, hok⟩ := (h.tracked hw).written i a ht hc u hu
    refine hd.computes.events fun e he => ?_
    rw [rowToUser_events hok] at he
    exact absurd he List.not_mem_nil
  · obtain ⟨-, now, -, d, -, userId, username, email, hashed, -, rfl⟩ :=
      (h.coherent i).userInsert u hu
    exact recordEvent_ofUser (recordEvent_ofUser (fun e he => absurd he List.not_mem_nil) rfl) rfl

/-- **The events of one kind, where the kind is one of sessions**: they are those of the
sessions written back. -/
theorem Runs.written_of_sessions (h : Runs env reqs C w c) (hw : Startable env w)
    (ht : c.threads i = .running a) (hc : (did c i).committed = false)
    (ha : (did c i).added = none) {P : Event → Bool}
    (hP : ∀ e, e.ofUser = true → P e = false) :
    (did c i).written.filter P =
      ((did c i).updated.flatMap SessionAggregate.events).filter P := by
  have huser : ∀ o : Option User, ((did c i).userWrite = o ∨ (did c i).userInsert = o) →
      ((o.map User.events).getD []).filter P = [] := by
    intro o ho
    cases o with
    | none => rfl
    | some u =>
        refine List.filter_eq_nil_iff.mpr fun e he hPe => ?_
        rw [hP e (h.user_events hw ht hc ho e he)] at hPe
        cases hPe
  rw [Progress.written, List.filter_append, List.filter_append, List.filter_append,
    huser _ (Or.inl rfl), huser _ (Or.inr rfl), ha]
  rfl

/-- **The events of one kind, where the kind is one of users**: they are those of the user
written back. -/
theorem Runs.written_of_user (h : Runs env reqs C w c) (hw : Startable env w) {u : User}
    (hu : (did c i).userWrite = some u) (ha : (did c i).added = none) {P : Event → Bool}
    (hP : ∀ e, P e = true → e.ofUser = true) :
    (did c i).written.filter P = u.events.filter P := by
  have hins : (did c i).userInsert = none := by
    rcases (h.coherent i).oneUser with hnone | hnone
    · exact absurd (hnone.symm.trans hu) (by simp)
    · exact hnone
  rw [Progress.written, List.filter_append, h.updated_not_ofUser hw hP, hu, hins, ha]
  simp

end Requests

/-! ### The rows of a commit -/

/-- The outbox row a statement inserts. -/
def Write.outboxRow : Write → Option OutboxRow
  | .outboxInsert row => some row
  | _ => none

/-- The audit row a statement inserts. -/
def Write.auditRow : Write → Option AuditRow
  | .auditInsert row => some row
  | _ => none

/-- The outbox and the audit log only grow, by what is inserted. -/
theorem view_journals (db : Db) (ws : List Write) :
    (RowLocks.view Db.apply db ws).outbox = db.outbox ++ ws.filterMap Write.outboxRow ∧
      (RowLocks.view Db.apply db ws).audit = db.audit ++ ws.filterMap Write.auditRow := by
  induction ws generalizing db with
  | nil => exact ⟨(List.append_nil _).symm, (List.append_nil _).symm⟩
  | cons w ws ih =>
      have hw : (db.apply w).outbox = db.outbox ++ (Write.outboxRow w).toList ∧
          (db.apply w).audit = db.audit ++ (Write.auditRow w).toList := by
        cases w <;> simp [Db.apply, Write.outboxRow, Write.auditRow]
      obtain ⟨ho, ha⟩ := ih (db.apply w)
      refine ⟨ho.trans ?_, ha.trans ?_⟩
      · rw [hw.1, List.append_assoc, List.filterMap_eq_flatMap_toList,
          List.filterMap_eq_flatMap_toList, List.flatMap_cons]
      · rw [hw.2, List.append_assoc, List.filterMap_eq_flatMap_toList,
          List.filterMap_eq_flatMap_toList, List.flatMap_cons]

/-- The outbox rows a commit adds. -/
def World.newOutbox (env : Env) (w : World ι) (i : ι) : List OutboxRow :=
  ((w.txs i).events.zipIdx w.rng).map fun e => ⟨env.uuid4 e.2, e.1, w.clock⟩

/-- The audit rows a commit adds. -/
def World.newAudit (env : Env) (w : World ι) (i : ι) : List AuditRow :=
  ((w.txs i).events.zipIdx (w.rng + (w.txs i).events.length)).filterMap fun e =>
    eventToAudit (env.uuid4 e.2) w.clock e.1

/-- The rows among the statements of a commit. -/
theorem eventWrites_journals (env : Env) (w : World ι) (i : ι) :
    (eventWrites env w.rng w.clock (w.txs i).events).filterMap Write.outboxRow =
        w.newOutbox env i ∧
      (eventWrites env w.rng w.clock (w.txs i).events).filterMap Write.auditRow =
        w.newAudit env i := by
  rw [eventWrites, List.filterMap_append, List.filterMap_append, List.filterMap_map,
    List.filterMap_map, List.filterMap_filterMap, List.filterMap_filterMap]
  constructor
  · have hnone : ∀ e : Event × ℕ, ((eventToAudit (env.uuid4 e.2) w.clock e.1).map
        Write.auditInsert).bind Write.outboxRow = none := fun e => by
      cases eventToAudit (env.uuid4 e.2) w.clock e.1 <;> rfl
    simp only [hnone, List.filterMap_none, List.append_nil]
    exact congrFun List.filterMap_eq_map' _
  · have hsome : ∀ e : Event × ℕ, ((eventToAudit (env.uuid4 e.2) w.clock e.1).map
        Write.auditInsert).bind Write.auditRow = eventToAudit (env.uuid4 e.2) w.clock e.1 :=
      fun e => by cases eventToAudit (env.uuid4 e.2) w.clock e.1 <;> rfl
    simp only [hsome]
    exact congrArg (· ++ _) (List.filterMap_eq_nil_iff.mpr fun e _ => rfl)

/-- A commit adds one outbox row for each event, and one audit row for each with an action. -/
theorem commit_journals [DecidableEq ι] {r : Request} {c : Cfg ι} {i : ι} (h : Open env r c i) :
    (c.shared.commit env i).db.outbox = c.shared.db.outbox ++ c.shared.newOutbox env i ∧
      (c.shared.commit env i).db.audit = c.shared.db.audit ++ c.shared.newAudit env i := by
  have hpending : (c.shared.pending i).filterMap Write.outboxRow = [] ∧
      (c.shared.pending i).filterMap Write.auditRow = [] := by
    simp only [List.filterMap_eq_nil_iff]
    constructor
    all_goals
      intro w hw
      have hfrom := h.pending.source w hw
      cases w with
      | outboxInsert row => exact hfrom.elim
      | auditInsert row => exact hfrom.elim
      | _ => rfl
  have hview := view_journals c.shared.db (c.shared.pending i)
  have hrows := view_journals (c.shared.view i)
    (eventWrites env c.shared.rng c.shared.clock (c.shared.txs i).events)
  rw [hpending.1, hpending.2, List.append_nil, List.append_nil] at hview
  rw [(eventWrites_journals env c.shared i).1, (eventWrites_journals env c.shared i).2] at hrows
  exact ⟨hrows.1.trans (congrArg (· ++ _) hview.1), hrows.2.trans (congrArg (· ++ _) hview.2)⟩

/-- The one event of a kind has one place. -/
theorem zipIdx_filter_eq {es : List Event} {P : Event → Bool} {e : Event}
    (h : es.filter P = [e]) (n : ℕ) :
    ∃ k, (es.zipIdx n).filter (fun x => P x.1) = [(e, k)] := by
  have hfst : ((es.zipIdx n).filter fun x => P x.1).map Prod.fst = [e] := by
    have hmap := List.filter_map (f := Prod.fst) (p := P) (l := es.zipIdx n)
    rw [List.zipIdx_map_fst, h] at hmap
    exact hmap.symm
  obtain ⟨x, hx, rfl⟩ := List.map_eq_singleton_iff.mp hfst
  exact ⟨x.2, hx⟩

/-- The one event of a kind has one outbox row. -/
theorem newOutbox_of (env : Env) {w : World ι} {i : ι} {P : Event → Bool} {e : Event}
    (h : (w.txs i).events.filter P = [e]) :
    ∃ o, (w.newOutbox env i).filter (fun o => P o.event) = [o] ∧ o.event = e := by
  obtain ⟨k, hk⟩ := zipIdx_filter_eq h w.rng
  refine ⟨⟨env.uuid4 k, e, w.clock⟩, ?_, rfl⟩
  rw [World.newOutbox, List.filter_map]
  exact congrArg (List.map _) hk

/-- The one event of a kind has the audit row of its action. -/
theorem newAudit_of (env : Env) {w : World ι} {i : ι} {P : Event → Bool} {Q : AuditRow → Bool}
    (hPQ : ∀ id now e, (eventToAudit id now e).filter Q =
      if P e then eventToAudit id now e else none)
    {e : Event} (h : (w.txs i).events.filter P = [e]) :
    ∃ n, (w.newAudit env i).filter Q = (eventToAudit (env.uuid4 n) w.clock e).toList := by
  obtain ⟨k, hk⟩ := zipIdx_filter_eq h (w.rng + (w.txs i).events.length)
  refine ⟨k, ?_⟩
  rw [World.newAudit, List.filter_filterMap]
  simp only [hPQ]
  rw [← List.filterMap_filter, hk, List.filterMap_eq_flatMap_toList, List.flatMap_singleton]

/-! ### Completeness -/

/-- The event announces that session `x` is revoked. -/
def Event.revokes (x : Uuid) : Event → Bool
  | .sessionRevoked sid _ => sid = x
  | _ => false

/-- The event announces that account `x` is deleted. -/
def Event.deletes (x : Uuid) : Event → Bool
  | .userDeleted u => u = x
  | _ => false

/-- The event announces that the password of account `x` is replaced. -/
def Event.replacesPassword (x : Uuid) : Event → Bool
  | .passwordChanged u | .passwordResetCompleted u => u = x
  | _ => false

/-- The audit row records that session `x` is revoked. -/
def AuditRow.revokes (x : Uuid) (a : AuditRow) : Bool :=
  a.action = "session.revoked" && a.entityId = some x

/-- The outbox rows that were not there before. -/
def Db.outboxSince (db' db : Db) : List OutboxRow := db'.outbox.drop db.outbox.length

/-- The audit rows that were not there before. -/
def Db.auditSince (db' db : Db) : List AuditRow := db'.audit.drop db.audit.length

/-- **The journals tell what happened**: between `db` and `db'`, every session that became
revoked, every account that became deleted and every password that was replaced has exactly
one new outbox row, and every revoked session one matching audit row. -/
structure Announces (db db' : Db) : Prop where
  outbox : db.outbox <+: db'.outbox
  audit : db.audit <+: db'.audit
  revoked : ∀ x row row', db.session x = some row → db'.session x = some row' →
    row.isRevoked = false → row'.isRevoked = true →
    (∃ o, (db'.outboxSince db).filter (fun o => o.event.revokes x) = [o] ∧
      o.event = .sessionRevoked x row.userId) ∧
    ∃ a, (db'.auditSince db).filter (AuditRow.revokes x) = [a] ∧
      a.userId = some row.userId ∧ a.entityType = "Session"
  deleted : ∀ x row row', db.user x = some row → db'.user x = some row' →
    row.deletedAt = none → row'.deletedAt ≠ none →
    ∃ o, (db'.outboxSince db).filter (fun o => o.event.deletes x) = [o]
  replaced : ∀ x row row', db.user x = some row → db'.user x = some row' →
    row'.hashedPassword ≠ row.hashedPassword →
    ∃ o, (db'.outboxSince db).filter (fun o => o.event.replacesPassword x) = [o]

/-- Only the revocation of a session has its audit row. -/
theorem audit_revokes (x id : Uuid) (now : Instant) (e : Event) :
    (eventToAudit id now e).filter (AuditRow.revokes x) =
      if e.revokes x then eventToAudit id now e else none := by
  cases e with
  | sessionRevoked sid userId =>
      by_cases hx : sid = x
      · simp [eventToAudit, eventToAction, eventAggregate, AuditRow.revokes, Event.revokes, hx]
      · simp [eventToAudit, eventToAction, eventAggregate, AuditRow.revokes, Event.revokes, hx]
  | _ => simp [eventToAudit, eventToAction, AuditRow.revokes, Event.revokes]

/-- The password of a user that was read. -/
theorem rowToUser_hashedPassword {row : UserRow} {u : User} (h : rowToUser env row = .ok u) :
    u.hashedPassword.value = row.hashedPassword := by
  simp only [rowToUser, except_bind_eq_ok, Except.ok.injEq] at h
  obtain ⟨_, -, _, -, _, -, _, -, _, -, _, hp, _, -, rfl⟩ := h
  exact HashedPassword.make_ok hp

section Requests

variable [Fintype ι] [DecidableEq ι] {reqs : ι → Request} {C : Steps ι} {w : World ι} {c : Cfg ι}
  {i : ι} {a : Act Response}

/-- **The one event of a kind among what was written** is the one the unit of work holds. -/
theorem Runs.held_events (h : Runs env reqs C w c) (htx : ∀ i, w.txs i = {})
    (ht : c.threads i = .running a) (hc : (did c i).committed = false)
    (hann : (did c i).Announced) {P : Event → Bool} {e : Event}
    (hP : (did c i).written.filter P = [e]) : (c.shared.txs i).events.filter P = [e] := by
  rw [h.collected htx ht hc]
  have hperm := hann.filter P
  rw [hP] at hperm
  exact List.perm_singleton.mp hperm

/-- **A revoked session is among what was written, once.** -/
theorem Runs.written_revoked (h : Runs env reqs C w c) (hw : Startable env w)
    (ht : c.threads i = .running a) (hc : (did c i).committed = false) {s : SessionAggregate}
    (hs : s ∈ (did c i).updated) (hrev : s.isRevoked = true) :
    (did c i).written.filter (Event.revokes s.sessionId) =
      [.sessionRevoked s.sessionId s.userId.value] := by
  have hadded : (did c i).added = none := (h.coherent i).oneSession.resolve_right
    (List.ne_nil_of_mem hs)
  have hkind : ∀ e : Event, e.ofUser = true → e.revokes s.sessionId = false := by
    intro e he
    cases e with
    | sessionRevoked sid u => exact absurd he (by simp [Event.ofUser, eventAggregate])
    | _ => rfl
  rw [h.written_of_sessions hw ht hc hadded hkind, List.filter_flatMap,
    Keyed.flatMap_of_key (h.updated_nodup hw i) hs]
  · rcases h.updated_events hw hs with ⟨-, hev⟩ | ⟨hlive, -⟩
    · simp [hev, Event.revokes]
    · exact absurd (hlive.symm.trans hrev) (by simp)
  · intro s' hs' hne
    rcases h.updated_events hw hs' with ⟨-, hev⟩ | ⟨-, hev⟩
    · simp [hev, Event.revokes, hne]
    · simp [hev, Event.revokes]

omit [Fintype ι] [DecidableEq ι] in
/-- A session that was written back has the owner of its row. -/
theorem Open.updated_owner {r : Request} (h : Open env r c i) {s : SessionAggregate}
    (hs : s ∈ (did c i).updated) {row : SessionRow}
    (hrow : c.shared.db.session s.sessionId = some row) : row.userId = s.userId.value := by
  have howner : ∀ s₀ ∈ (did c i).sessions, s₀.sessionId = s.sessionId → s₀.userId = s.userId →
      row.userId = s.userId.value := by
    intro s₀ hs₀ hid hu
    obtain ⟨row₀, hrow₀, howner⟩ := (h.minted.known i s₀ hs₀).session
    rw [hid, hrow] at hrow₀
    obtain rfl := Option.some.inj hrow₀
    rw [howner, hu]
  rcases h.coherent.updated s hs with ⟨s₀, hs₀, rfl⟩ | ⟨t, s₀, -, presented, new, now, hs₀, -, -,
    -, -, -, rfl⟩
  · exact howner s₀ hs₀ rfl rfl
  · exact howner s₀ hs₀ rfl rfl

/-- The events of one kind that a request has recorded on its user, when that request opens no
session. -/
theorem Runs.written_recorded (h : Runs env reqs C w c) (hw : Startable env w) {u₀ u : User}
    {row : UserRow} (hu : (did c i).userWrite = some u) (hok : rowToUser env row = .ok u₀) {e : Event}
    (hno : ∀ p s, ¬ Granted env (reqs i) p s) (hrec : u.events = u₀.events ++ [e])
    {P : Event → Bool} (hP : ∀ e, P e = true → e.ofUser = true) (he : P e = true) :
    (did c i).written.filter P = [e] := by
  have hadded : (did c i).added = none := by
    cases hs : (did c i).added with
    | none => rfl
    | some s => exact absurd ((h.coherent i).added s hs).2.2.2 (hno _ s)
  rw [h.written_of_user hw hu hadded hP, hrec, rowToUser_events hok]
  simp [he]

/-- **A commit announces what it does.** -/
theorem Runs.announces (h : Runs env reqs C w c) (hw : Startable env w) (htx : ∀ i, w.txs i = {})
    (ht : c.threads i = .running a) (hc : (did c i).committed = false)
    (hann : (did c i).Announced) : Announces c.shared.db (c.shared.commit env i).db := by
  have ho := h.isOpen hw ht hc
  obtain ⟨houtbox, haudit⟩ := commit_journals ho
  have hnew : (c.shared.commit env i).db.outboxSince c.shared.db = c.shared.newOutbox env i := by
    rw [Db.outboxSince, houtbox, List.drop_left]
  have hlog : (c.shared.commit env i).db.auditSince c.shared.db = c.shared.newAudit env i := by
    rw [Db.auditSince, haudit, List.drop_left]
  refine ⟨houtbox ▸ List.prefix_append _ _, haudit ▸ List.prefix_append _ _, ?_, ?_, ?_⟩
  · intro x row row' hrow hrow' hlive hrev
    rw [commit_session] at hrow'
    obtain ⟨row'', hview, -, hcases⟩ := ho.session_view hrow
    obtain rfl := Option.some.inj (hrow'.symm.trans hview)
    rcases hcases with ⟨rfl, -⟩ | ⟨s, hs, rfl, hsrev, -⟩
    · exact absurd (hlive.symm.trans hrev) (by simp)
    · have hheld := h.held_events htx ht hc hann
        (h.written_revoked hw ht hc hs (hsrev.symm.trans hrev))
      rw [hnew, hlog, ho.updated_owner hs hrow]
      refine ⟨newOutbox_of env hheld, ?_⟩
      obtain ⟨n, hn⟩ := newAudit_of env (audit_revokes s.sessionId) hheld
      exact ⟨_, hn, rfl, rfl⟩
  · intro x row row' hrow hrow' hlive hdel
    rw [commit_user] at hrow'
    rcases (h.tracked hw).commit_row ho ht hrow with ⟨hsame, -⟩ | ⟨u₀, u, iv, hu, rfl, -, hd, hok, hview⟩
    · obtain rfl := Option.some.inj (hrow'.symm.trans hsame)
      exact absurd hlive hdel
    · obtain rfl := Option.some.inj (hrow'.symm.trans hview)
      have hid : u₀.id = u.id := hd.computes.keeps.1.symm
      rcases hd.computes.records_deletion with hsame | ⟨hno, hrec⟩
      · exact absurd (hsame.trans ((rowToUser_ok hok).2.2.2.2.1.trans hlive)) hdel
      · have hheld := h.held_events htx ht hc hann (h.written_recorded hw hu hok hno hrec
          (P := Event.deletes u.id.value) (fun e he => by cases e <;> first | rfl | cases he)
          (by simp [Event.deletes, hid]))
        rw [hnew]
        obtain ⟨o, hrows, -⟩ := newOutbox_of env hheld
        exact ⟨o, hrows⟩
  · intro x row row' hrow hrow' hnew'
    rw [commit_user] at hrow'
    rcases (h.tracked hw).commit_row ho ht hrow with ⟨hsame, -⟩ | ⟨u₀, u, iv, hu, rfl, -, hd, hok, hview⟩
    · obtain rfl := Option.some.inj (hrow'.symm.trans hsame)
      exact absurd rfl hnew'
    · obtain rfl := Option.some.inj (hrow'.symm.trans hview)
      have hid : u₀.id = u.id := hd.computes.keeps.1.symm
      rcases hd.computes.replaces with hsame | ⟨hno, hrec⟩
      · refine absurd ?_ hnew'
        exact (congrArg HashedPassword.value hsame).trans (rowToUser_hashedPassword hok)
      · have hkind : ∀ e : Event, e.replacesPassword u.id.value = true → e.ofUser = true :=
          fun e he => by cases e <;> first | rfl | cases he
        rw [hnew]
        rcases hrec with hrec | hrec
        · have hheld := h.held_events htx ht hc hann (h.written_recorded hw hu hok hno hrec
            hkind (by simp [Event.replacesPassword, hid]))
          obtain ⟨o, hrows, -⟩ := newOutbox_of env hheld
          exact ⟨o, hrows⟩
        · have hheld := h.held_events htx ht hc hann (h.written_recorded hw hu hok hno hrec
            hkind (by simp [Event.replacesPassword, hid]))
          obtain ⟨o, hrows, -⟩ := newOutbox_of env hheld
          exact ⟨o, hrows⟩

/-- **Outbox completeness.** In every reachable configuration: a step that changes the tables
is the commit of a request, and announces everything it does; a commit that raises, wherever it
does, leaves the tables as they were and the transaction gone; and a request that has left has
nothing pending, whether it has committed or failed. -/
theorem outbox_complete (h : Runs env reqs C w c) (hw : Startable env w)
    (htx : ∀ i, w.txs i = {}) :
    (∀ l c', (machine env ι).step c l = some c' → c'.shared.db = c.shared.db ∨
      ∃ i ch, l = .act i ch ∧ (did c i).committed = false ∧ (did c' i).committed = true ∧
        uowCommit env none i c.shared = (.ok (), c'.shared) ∧
        Announces c.shared.db c'.shared.db) ∧
      (∀ fault i e, (uowCommit env fault i c.shared).1 = .error e →
        (uowCommit env fault i c.shared).2.db = c.shared.db ∧
          (uowCommit env fault i c.shared).2.txs i = {}) ∧
      ∀ i x, c.threads i = .done x → c.shared.pending i = [] := by
  refine ⟨fun l c' hs => ?_, fun fault i e he => ?_, (h.sound hw.idle).finished⟩
  · rcases h.step_db hs with hsame | ⟨i, ch, k, rfl, ht, hal, rfl⟩
    · exact Or.inl hsame
    · refine Or.inr ⟨i, ch, rfl, hal.1, ?_, ?_, h.announces hw htx ht hal.1 hal.2.2⟩
      · rw [did_afterCall_self]
        rfl
      · rcases uowCommit_cases env none i c.shared with hok | ⟨⟨f, e, hf, -⟩, -⟩
        · exact hok
        · cases hf
  · rcases uowCommit_cases env fault i c.shared with hok | ⟨-, hdb, htxs⟩
    · rw [hok] at he
      cases he
    · refine ⟨hdb, ?_⟩
      rw [htxs, Function.update_self]

end Requests

/-- The commit of a password change announces the session it revokes. -/
theorem password_change_announced : ∃ c c',
    (machine Reference.env Unit).run (signedInStart
        (.changePassword Reference.aliceId Reference.password "New-Horse-10"))
        (Reference.moves () 7) = some c ∧
      (machine Reference.env Unit).step c (.act () {}) = some c' ∧
      ∃ o a, (c'.shared.db.outboxSince c.shared.db).filter
          (fun o => o.event.revokes Reference.session.sessionId) = [o] ∧
        (c'.shared.db.auditSince c.shared.db).filter
          (AuditRow.revokes Reference.session.sessionId) = [a] := by
  obtain ⟨c, hc, c', hs, hne, hlive, hrev⟩ : ∃ c, (machine Reference.env Unit).run (signedInStart
        (.changePassword Reference.aliceId Reference.password "New-Horse-10"))
        (Reference.moves () 7) = some c ∧
      ∃ c', (machine Reference.env Unit).step c (.act () {}) = some c' ∧
        c'.shared.db ≠ c.shared.db ∧
        (∃ row, c.shared.db.session Reference.session.sessionId = some row ∧
          row.isRevoked = false) ∧
        ∃ row, c'.shared.db.session Reference.session.sessionId = some row ∧
          row.isRevoked = true := by
    decide +kernel
  refine ⟨c, c', hc, hs, ?_⟩
  have hw : Startable Reference.env
      (Reference.world Unit (Reference.tables (Reference.alice false) true)) :=
    reference_startable Unit rfl true .empty
  obtain ⟨hstep, -, -⟩ := outbox_complete
    (Machine.reach_of_run (Machine.runsWith_any _ _ _) hc) hw fun _ => rfl
  obtain ⟨i, ch, -, -, -, -, hann⟩ := (hstep _ c' hs).resolve_left hne
  obtain ⟨row, hrow, hrowlive⟩ := hlive
  obtain ⟨row', hrow', hrowrev⟩ := hrev
  obtain ⟨⟨o, ho, -⟩, a, ha, -⟩ := hann.revoked _ row row' hrow hrow' hrowlive hrowrev
  exact ⟨o, a, ho, ha⟩

end BackendTemplate
