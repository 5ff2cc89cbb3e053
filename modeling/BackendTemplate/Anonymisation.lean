import BackendTemplate.Deletion
import BackendTemplate.Maintenance

/-!
# Loading Users That Maintenance Has Changed

The use cases write users rows from users, and what is written so can be read back
(`rowToUser_userToValues`). The maintenance worker writes them with a statement of its own, past
the value objects, and what it writes cannot be read: it leaves an account that was deleted long
ago with an empty password hash and a username of forty characters.

`serviceStep` is the service with the maintenance jobs among the requests. A job is one
statement and its commit; it waits while an open transaction holds one of its rows.

## Main results

* `exec_usersAre` — what holds of every row written from a user, requests keep.
* `anonymised_not_loaded` — an anonymised row cannot be loaded.
* `users_load_until_anonymised` — every row can be loaded until one is anonymised.
-/

namespace BackendTemplate

open Atomic

variable {env : Env} {ι : Type}

/-! ### What requests write to the users table -/

section Rows

variable {P : UserRow → Prop}

/-- A statement puts only rows that satisfy `P` into the users table. -/
def Write.UserIs (P : UserRow → Prop) : Write → Prop
  | .userInsert row | .userUpdate row => P row
  | _ => True

theorem users_apply {db : Db} (h : ∀ row ∈ db.users, P row) {w : Write} (hw : w.UserIs P) :
    ∀ row ∈ (db.apply w).users, P row := by
  cases w with
  | userInsert row =>
      intro r hr
      rcases List.mem_append.mp hr with hold | hnew
      · exact h r hold
      · exact List.mem_singleton.mp hnew ▸ hw
  | userUpdate row =>
      intro r hr
      obtain ⟨old, hold, rfl⟩ := List.mem_map.mp hr
      split
      · exact hw
      · exact h old hold
  | _ => exact h

theorem users_view {db : Db} (h : ∀ row ∈ db.users, P row) {ws : List Write}
    (hws : ∀ w ∈ ws, w.UserIs P) : ∀ row ∈ (RowLocks.view Db.apply db ws).users, P row := by
  induction ws generalizing db with
  | nil => exact h
  | cons w ws ih =>
      exact ih (users_apply h (hws w List.mem_cons_self)) fun w' hw' =>
        hws w' (List.mem_cons_of_mem _ hw')

/-- Outbox and audit rows do not matter. -/
theorem eventWrites_userIs (rng : ℕ) (now : Instant) (events : List Event) :
    ∀ w ∈ eventWrites env rng now events, w.UserIs P := by
  intro w hw
  rw [eventWrites, List.mem_append, List.mem_map, List.mem_filterMap] at hw
  rcases hw with ⟨e, -, rfl⟩ | ⟨e, -, he⟩
  · trivial
  · obtain ⟨row, -, rfl⟩ := Option.map_eq_some_iff.mp he
    trivial

theorem sessionWrites_userIs (s : SessionAggregate) :
    (∀ w ∈ addSessionWrites s, w.UserIs P) ∧ ∀ w ∈ updateSessionWrites s, w.UserIs P := by
  constructor
  all_goals
    intro w hw
    rcases List.mem_cons.mp hw with rfl | hw
    · trivial
    · obtain ⟨t, -, rfl⟩ := List.mem_map.mp hw
      trivial

/-- **The users rows**, committed or in an open transaction, satisfy `P`. -/
structure World.UsersAre (P : UserRow → Prop) (w : World ι) : Prop where
  committed : ∀ row ∈ w.db.users, P row
  pending : ∀ i, ∀ wr ∈ w.pending i, wr.UserIs P

section Requests

variable [Fintype ι] [DecidableEq ι] {w w' : World ι}

omit [Fintype ι] in
/-- More statements. -/
theorem World.UsersAre.issue (h : w.UsersAre P) (i : ι) {ws : List Write}
    (hws : ∀ wr ∈ ws, wr.UserIs P) : (w.issue i ws).UsersAre P where
  committed := h.committed
  pending j wr hwr := by
    rw [issue_pending] at hwr
    by_cases hj : j = i
    · subst hj
      rw [Function.update_self] at hwr
      exact (List.mem_append.mp hwr).elim (h.pending j wr) (hws wr)
    · rw [Function.update_of_ne hj] at hwr
      exact h.pending j wr hwr

omit [Fintype ι] in
/-- The end of a transaction. -/
theorem World.UsersAre.close (h : w.UsersAre P) {i : ι}
    (hp : w'.pending = Function.update w.pending i []) (hdb : ∀ row ∈ w'.db.users, P row) :
    w'.UsersAre P where
  committed := hdb
  pending j wr hwr := by
    rw [hp] at hwr
    by_cases hj : j = i
    · subst hj
      rw [Function.update_self] at hwr
      exact absurd hwr List.not_mem_nil
    · rw [Function.update_of_ne hj] at hwr
      exact h.pending j wr hwr

/-- **A call keeps what holds of every row written from a user.** -/
theorem exec_usersAre (hvalues : ∀ iv (u : User) v, P (userToValues env iv u v))
    (h : w.UsersAre P) {ch : Choice} {i : ι} {o : Op} {x : o.Res}
    (he : exec env ch i o w = some (x, w')) : w'.UsersAre P := by
  by_cases ho : o.writes = false
  · obtain ⟨hdb, hp, -⟩ := exec_quiet ho he
    exact ⟨hdb ▸ h.committed, fun j => hp ▸ h.pending j⟩
  · cases o with
    | addUser u =>
        rcases exec_addUser he with ⟨e, rfl, rfl⟩ | ⟨rfl, -, rfl⟩
        · exact h
        · have : (w.issue i [.userInsert (userToValues env w.rng u 0)]).UsersAre P :=
            h.issue i fun wr hwr => List.mem_singleton.mp hwr ▸ hvalues _ _ _
          exact ⟨this.committed, this.pending⟩
    | updateUser u =>
        rcases exec_updateUser he with ⟨e, rfl, -, rfl⟩ | ⟨rfl, -, -, rfl⟩
        · exact h
        · have : (w.issue i [.userUpdate (userToValues env w.rng u (u.version + 1))]).UsersAre P :=
            h.issue i fun wr hwr => List.mem_singleton.mp hwr ▸ hvalues _ _ _
          exact ⟨this.committed, this.pending⟩
    | addSession s =>
        rcases exec_addSession he with ⟨rfl, rfl⟩ | ⟨rfl, -, -, rfl⟩
        · exact h
        · exact h.issue i (sessionWrites_userIs s).1
    | updateSession s =>
        rcases exec_updateSession he with ⟨rfl, rfl⟩ | ⟨rfl, -, -, rfl⟩
        · exact h
        · exact h.issue i (sessionWrites_userIs s).2
    | commit =>
        rcases exec_commit he with ⟨rfl, rfl⟩ | ⟨rfl, rfl⟩
        · exact h.close (rollback_pending w i) h.committed
        · refine h.close (commit_pending env w i) ?_
          exact users_view (users_view h.committed (h.pending i)) (eventWrites_userIs _ _ _)
    | _ => exact absurd rfl ho

/-- A step of the service keeps it. -/
theorem step_usersAre (hvalues : ∀ iv (u : User) v, P (userToValues env iv u v)) {c c' : Cfg ι}
    (h : c.shared.UsersAre P) {l : Label ι Choice ℕ} (hs : (machine env ι).step c l = some c') :
    c'.shared.UsersAre P := by
  rcases Machine.step_cases hs with ⟨i, ch, o, k, x, w', -, -, he, rfl⟩ | ⟨i, ch, r, -, -, rfl⟩ |
    ⟨d, -, rfl⟩
  · exact exec_usersAre hvalues h he
  · exact h.close (rollback_pending c.shared i) h.committed
  · exact ⟨h.committed, h.pending⟩

end Requests

end Rows

/-! ### What can be loaded -/

/-- Every users row can be loaded. -/
def AllLoad (env : Env) (db : Db) : Prop := ∀ row ∈ db.users, ∃ u, rowToUser env row = .ok u

/-- **The users rows**, committed or in an open transaction, can be loaded. -/
abbrev WritesLoad (env : Env) (w : World ι) : Prop :=
  w.UsersAre fun row => ∃ u, rowToUser env row = .ok u

/-- What requests write to the users table they write from a user. -/
theorem values_load (iv : ℕ) (u : User) (v : ℕ) :
    ∃ u', rowToUser env (userToValues env iv u v) = .ok u' := ⟨_, rowToUser_userToValues env iv u v⟩

/-! ### The jobs among the requests -/

/-- The tables as the jobs see them. The outbox is the log of what was inserted: none of its
rows is processed, so the job on it changes nothing here. -/
def Db.store (env : Env) (db : Db) : Store where
  users := db.users
  sessions := db.sessions
  refreshTokens := db.refreshTokens
  outbox := db.outbox.map (OutboxRow.stored env)
  audit := db.audit

/-- The tables after a job. -/
def Db.put (db : Db) (s : Store) : Db :=
  { db with
    users := s.users
    sessions := s.sessions
    refreshTokens := s.refreshTokens
    audit := s.audit }

/-- The rows a job changes. -/
def Job.touches (config : MaintenanceConfig) (now : Instant) (db : Db) : Job → List RowKey
  | .deletedUsers =>
      (db.users.filter (anonymises (now - days config.deletedUserRetentionDays))).map
        fun row => .user row.id
  | .expiredSessions =>
      let expired := db.sessions.filter fun row =>
        row.expiresAt < now - days config.sessionGraceDays
      (expired.map fun row => .session row.sessionId) ++
        (db.refreshTokens.filter fun t => t.sessionId ∈ expired.map SessionRow.sessionId).map
          fun t => .token t.id
  | .processedOutbox | .oldAuditEntries => []

/-- The steps of the service with its maintenance worker. -/
inductive ServiceLabel (ι : Type)
  | request (l : Label ι Choice ℕ)
  /-- One job of a `run_once`, under any settings and at any time. -/
  | maintenance (config : MaintenanceConfig) (job : Job) (now : Instant) (fails : Bool)

section Service

variable [Fintype ι] [DecidableEq ι]

/-- **One step** of the service with its maintenance worker. -/
def serviceStep (env : Env) (c : Cfg ι) : ServiceLabel ι → Option (Cfg ι)
  | .request l => (machine env ι).step c l
  | .maintenance config job now fails =>
      if ∃ i, ∃ w ∈ c.shared.pending i, ∃ k ∈ w.keys, k ∈ job.touches config now c.shared.db then
        none
      else
        let db := c.shared.db.put (job.attempt env config now fails (c.shared.db.store env)).1
        some { c with shared := { c.shared with db := db } }

/-- **No account is anonymised**: where the job on the users table goes through, it selects no
row. -/
def AnonymisesNone (env : Env) (c : Cfg ι) : ServiceLabel ι → Prop
  | .maintenance config .deletedUsers now fails =>
      fails = false → config.dryRun = false →
      Job.deletedUsers.admitted (Job.deletedUsers.run env config now (c.shared.db.store env)) →
      ∀ row ∈ c.shared.db.users,
        anonymises (now - days config.deletedUserRetentionDays) row = false
  | _ => True

instance (env : Env) (c : Cfg ι) : ∀ l, Decidable (AnonymisesNone env c l)
  | .maintenance _ .deletedUsers _ _ => inferInstanceAs (Decidable (_ → _ → _ → ∀ _ ∈ _, _))
  | .maintenance _ .expiredSessions _ _ | .maintenance _ .processedOutbox _ _
  | .maintenance _ .oldAuditEntries _ _ | .request _ => inferInstanceAs (Decidable True)

/-- **The users after an attempt.** Only the job on their table changes them. -/
theorem attempt_users (config : MaintenanceConfig) (now : Instant) (fails : Bool) (job : Job)
    (s : Store) :
    (job.attempt env config now fails s).1.users = s.users ∨
      (job = .deletedUsers ∧ fails = false ∧ config.dryRun = false ∧
        Job.deletedUsers.admitted (Job.deletedUsers.run env config now s) = true ∧
        (job.attempt env config now fails s).1 = Job.deletedUsers.run env config now s) := by
  rcases @attempt_cases env config now fails job s with
    h | ⟨hf, hadm, n, h⟩
  · rw [h]
    exact Or.inl rfl
  · rw [h]
    cases hdry : config.dryRun with
    | true => exact Or.inl rfl
    | false =>
        cases job with
        | deletedUsers => exact Or.inr ⟨rfl, hf, rfl, hadm, rfl⟩
        | _ => exact Or.inl rfl

omit [Fintype ι] [DecidableEq ι] in
/-- **An anonymised row cannot be loaded**: its password hash is empty. -/
theorem anonymised_not_loaded (row : UserRow) : ¬ ∃ u, rowToUser env (anonymised env row) = .ok u := by
  rintro ⟨u, h⟩
  simp only [rowToUser, except_bind_eq_ok] at h
  obtain ⟨-, -, -, -, -, -, -, -, -, -, hash, hhash, -⟩ := h
  rw [HashedPassword.make, dif_neg (by simp [anonymised])] at hhash
  cases hhash

/-- One step keeps what can be loaded, if it anonymises no account. -/
theorem serviceStep_writesLoad {c c' : Cfg ι} (h : WritesLoad env c.shared) {l : ServiceLabel ι}
    (hC : AnonymisesNone env c l) (hs : serviceStep env c l = some c') :
    WritesLoad env c'.shared := by
  cases l with
  | request l => exact step_usersAre values_load h hs
  | maintenance config job now fails =>
      rw [serviceStep] at hs
      split at hs
      · cases hs
      · obtain rfl := Option.some.inj hs
        refine ⟨fun row hrow => ?_, h.pending⟩
        change row ∈ (job.attempt env config now fails (c.shared.db.store env)).1.users at hrow
        rcases @attempt_users env config now fails job (c.shared.db.store env) with
          hsame | ⟨rfl, hf, hdry, hadm, hrun⟩
        · rw [hsame] at hrow
          exact h.committed row hrow
        · rw [hrun] at hrow
          obtain ⟨old, hold, rfl⟩ := List.mem_map.mp hrow
          rw [hC hf hdry hadm old hold, if_neg Bool.false_ne_true]
          exact h.committed old hold

/-- **Every stored user can be loaded until one is anonymised**, and then not every one can. -/
theorem users_load_until_anonymised {reqs : ι → Request} {w : World ι}
    (hidle : ∀ i, w.pending i = []) (hload : AllLoad env w.db) :
    (∀ c, Runs.Reach (serviceStep env) (AnonymisesNone env) (start env reqs w) c →
      AllLoad env c.shared.db) ∧
    ∀ (c c' : Cfg ι) l, serviceStep env c l = some c' → ¬ AnonymisesNone env c l →
      ¬ AllLoad env c'.shared.db := by
  constructor
  · intro c h
    have hstart : WritesLoad env (start env reqs w).shared :=
      ⟨hload, fun i wr hwr => absurd (hidle i ▸ hwr) List.not_mem_nil⟩
    have hrun := h.invariant (I := fun c => WritesLoad env c.shared) hstart
      fun _ _ _ hI hC hs => serviceStep_writesLoad hI hC hs
    exact hrun.committed
  · intro c c' l hs hC hall
    cases l with
    | request l => exact hC trivial
    | maintenance config job now fails =>
        cases job with
        | expiredSessions => exact hC trivial
        | processedOutbox => exact hC trivial
        | oldAuditEntries => exact hC trivial
        | deletedUsers =>
            simp only [AnonymisesNone, not_forall, Bool.not_eq_false] at hC
            obtain ⟨hf, hdry, hadm, row, hrow, hsel⟩ := hC
            rw [serviceStep] at hs
            split at hs
            · cases hs
            · obtain rfl := Option.some.inj hs
              refine @anonymised_not_loaded env row (hall _ ?_)
              change _ ∈ (Job.deletedUsers.attempt env config now fails
                (c.shared.db.store env)).1.users
              rw [Job.attempt, hf, hadm, hdry]
              refine List.mem_map.mpr ⟨row, hrow, ?_⟩
              rw [if_pos hsel]

end Service

/-! ### An account is deleted -/

/-- The account is about to be deleted. -/
def deletionStart : Cfg (Fin 1) :=
  start Reference.env (fun _ => .deleteMe Reference.aliceId)
    (Reference.world (Fin 1) (Reference.tables (Reference.alice true) true))

/-- The account is deleted, and some days later the job on the users table runs. -/
def deleteAndAnonymise (n : ℤ) : List (ServiceLabel (Fin 1)) :=
  (Reference.moves 0 8).map .request ++
    [.maintenance {} .deletedUsers (Reference.clock + days n) false]

theorem reference_loads : AllLoad Reference.env (Reference.tables (Reference.alice true) true) := by
  intro row hrow
  obtain rfl := List.mem_singleton.mp hrow
  have hok : (rowToUser Reference.env (Reference.alice true)).isOk = true := by decide +kernel
  cases hu : rowToUser Reference.env (Reference.alice true) with
  | ok u => exact ⟨u, rfl⟩
  | error e =>
      rw [hu] at hok
      cases hok

/-- A week after its deletion the account can be loaded. -/
theorem deleted_account_loads : ∃ c,
    Runs.run (serviceStep Reference.env) (AnonymisesNone Reference.env) deletionStart
      (deleteAndAnonymise 7) = some c ∧
    (∃ row ∈ c.shared.db.users, row.deletedAt.isSome = true) ∧
    AllLoad Reference.env c.shared.db := by
  obtain ⟨c, hc, hdel⟩ : ∃ c,
      Runs.run (serviceStep Reference.env) (AnonymisesNone Reference.env) deletionStart
        (deleteAndAnonymise 7) = some c ∧
      ∃ row ∈ c.shared.db.users, row.deletedAt.isSome = true := by
    decide +kernel
  exact ⟨c, hc, hdel, (users_load_until_anonymised (fun _ => rfl) reference_loads).1 c
    (Runs.reach_of_run hc)⟩

/-- After thirty-one days it cannot. -/
theorem anonymised_account_does_not_load : ∃ c,
    Runs.run (serviceStep Reference.env) Runs.always deletionStart (deleteAndAnonymise 31) =
      some c ∧
    ¬ AllLoad Reference.env c.shared.db := by
  obtain ⟨c, hc, row, hrow, hbad⟩ : ∃ c,
      Runs.run (serviceStep Reference.env) Runs.always deletionStart (deleteAndAnonymise 31) =
        some c ∧
      ∃ row ∈ c.shared.db.users, (rowToUser Reference.env row).isOk = false := by
    decide +kernel
  refine ⟨c, hc, fun hall => ?_⟩
  obtain ⟨u, hu⟩ := hall row hrow
  rw [hu] at hbad
  cases hbad

end BackendTemplate
