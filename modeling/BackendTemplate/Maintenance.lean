import BackendTemplate.Absorption
import BackendTemplate.OutboxWorker
import BackendTemplate.Runs
import BackendTemplate.Tables

/-!
# The Maintenance Worker

Four jobs purge expired sessions, prune processed outbox rows and old audit entries, and
anonymise accounts that were deleted long ago. Each is one statement in its own transaction, and
a run that loses one goes on with the next.

## Main results

* `maintenance_converges` — any sequence of attempts in which each job has succeeded ends where
  one clean run does, and then there is nothing left to do.
-/

namespace BackendTemplate

open OutboxRepository

/-! ### Jobs -/

/-- `MaintenanceConfig`, as far as a run reads it. -/
structure MaintenanceConfig where
  sessionGraceDays : ℤ := 7
  outboxRetentionDays : ℤ := 7
  auditRetentionDays : ℤ := 365
  deletedUserRetentionDays : ℤ := 30
  dryRun : Bool := false

/-- A duration of `n` days. -/
def days (n : ℤ) : ℤ := seconds (n * 86400)

/-- The tables that the jobs work on. -/
structure Store where
  users : List UserRow := []
  sessions : List SessionRow := []
  refreshTokens : List RefreshTokenRow := []
  outbox : List OutboxEvent := []
  audit : List AuditRow := []
deriving DecidableEq

/-- The jobs, under their names in `_jobs`. -/
inductive Job
  | expiredSessions | processedOutbox | oldAuditEntries | deletedUsers
deriving DecidableEq

/-- `_jobs`, in order. -/
def Job.all : List Job := [.expiredSessions, .processedOutbox, .oldAuditEntries, .deletedUsers]

theorem Job.mem_all (job : Job) : job ∈ Job.all := by cases job <;> decide

/-- The placeholder for the username of an anonymised account. -/
def placeholder (env : Env) (id : Uuid) : String :=
  "deleted_" ++ String.ofList ((env.uuidStr id).toList.filter (· ≠ '-'))

/-- The `WHERE` clause of `_anonymise_deleted_users`. -/
def anonymises (before : Instant) (row : UserRow) : Bool :=
  (match row.deletedAt with
    | none => false
    | some t => decide (t < before)) && row.email.isSome

/-- What `_anonymise_deleted_users` sets. -/
def anonymised (env : Env) (row : UserRow) : UserRow :=
  { row with
    username := placeholder env row.id
    email := none
    hashedPassword := []
    twoFactorSecret := none
    twoFactorBackupCodes := none
    emailVerificationTokenHash := none
    passwordResetTokenHash := none }

section Jobs

variable (env : Env) (config : MaintenanceConfig) (now : Instant)

/-- `_purge_expired_sessions`. The tokens go with their sessions: the foreign key cascades. -/
def purgeExpiredSessions (s : Store) : Store :=
  let cutoff : Instant := now - days config.sessionGraceDays
  { s with
    sessions := s.sessions.filter fun r => !decide (r.expiresAt < cutoff)
    refreshTokens := s.refreshTokens.filter fun t =>
      !s.sessions.any fun r => decide (r.expiresAt < cutoff) && decide (r.sessionId = t.sessionId) }

/-- `_prune_outbox`. -/
def pruneOutbox (s : Store) : Store :=
  { s with
    outbox := deleteProcessedOlderThan (now - days config.outboxRetentionDays) s.outbox }

/-- `_prune_audit_log`. -/
def pruneAuditLog (s : Store) : Store :=
  { s with
    audit := s.audit.filter fun row =>
      !decide (row.timestamp < now - days config.auditRetentionDays) }

/-- `_anonymise_deleted_users`. -/
def anonymiseDeletedUsers (s : Store) : Store :=
  { s with
    users := s.users.map fun row =>
      if anonymises (now - days config.deletedUserRetentionDays) row then anonymised env row
      else row }

namespace Job

/-- The statement of a job. -/
def run : Job → Store → Store
  | .expiredSessions => purgeExpiredSessions config now
  | .processedOutbox => pruneOutbox config now
  | .oldAuditEntries => pruneAuditLog config now
  | .deletedUsers => anonymiseDeletedUsers env config now

/-- The rows a job's statement affects. -/
def affected (s : Store) : Job → ℕ
  | .expiredSessions =>
      s.sessions.countP fun row => row.expiresAt < now - days config.sessionGraceDays
  | .processedOutbox =>
      s.outbox.countP (processedBefore (now - days config.outboxRetentionDays))
  | .oldAuditEntries =>
      s.audit.countP fun row => row.timestamp < now - days config.auditRetentionDays
  | .deletedUsers =>
      s.users.countP (anonymises (now - days config.deletedUserRetentionDays))

/-- Whether the constraints admit what a job has written: usernames are unique. -/
def admitted (s : Store) : Job → Bool
  | .deletedUsers => (s.users.map UserRow.username).Nodup
  | _ => true

/-- One job of `run_once`: the tables, and the entry of the results. A job that fails is rolled
back and counts as `-1`. -/
def attempt (fails : Bool) (job : Job) (s : Store) : Store × ℤ :=
  if fails || !job.admitted (job.run env config now s) then (s, -1)
  else (if config.dryRun then s else job.run env config now s, job.affected config now s)

end Job

/-- Some jobs, one after the other: whether each is made to fail, and its entry of the
results. -/
def attempts : List (Job × Bool) → Store → Store × List (Job × ℤ)
  | [], s => (s, [])
  | (job, fails) :: rest, s =>
      let done := job.attempt env config now fails s
      let later := attempts rest done.1
      (later.1, (job, done.2) :: later.2)

/-- `run_once`, where some jobs fail. -/
def runOnce (fails : Job → Bool) : Store → Store × List (Job × ℤ) :=
  attempts env config now (Job.all.map fun job => (job, fails job))

end Jobs

/-! ### Each job on its own -/

section Absorbing

variable {env : Env} {config : MaintenanceConfig} {now : Instant}

/-- A row that was anonymised is not anonymised again. -/
theorem anonymises_anonymised (before : Instant) (row : UserRow) :
    anonymises before (anonymised env row) = false := by
  rw [anonymises, anonymised, Option.isSome_none, Bool.and_false]

/-- What is left by a filter is not deleted by the same filter again. -/
theorem countP_filter_not {α : Type} (p : α → Bool) (l : List α) :
    (l.filter fun x => !p x).countP p = 0 := by
  rw [List.countP_eq_zero]
  intro x hx
  simpa using (List.mem_filter.mp hx).2

/-- **A job finds nothing to do after itself.** -/
theorem affected_run (job : Job) (s : Store) :
    job.affected config now (job.run env config now s) = 0 := by
  cases job with
  | expiredSessions => exact countP_filter_not _ _
  | processedOutbox => exact countP_filter_not _ _
  | oldAuditEntries => exact countP_filter_not _ _
  | deletedUsers =>
      rw [Job.affected, Job.run, anonymiseDeletedUsers, List.countP_eq_zero]
      intro row hrow
      obtain ⟨old, -, rfl⟩ := List.mem_map.mp hrow
      split
      · rw [anonymises_anonymised]
        exact Bool.false_ne_true
      · rename_i hold
        exact hold

/-- **A job that affects no row changes nothing.** -/
theorem run_of_affected {job : Job} {s : Store} (h : job.affected config now s = 0) :
    job.run env config now s = s := by
  cases job with
  | expiredSessions =>
      rw [Job.affected, List.countP_eq_zero] at h
      have hlive : ∀ row ∈ s.sessions, ¬ row.expiresAt < now - days config.sessionGraceDays :=
        fun row hrow => by simpa using h row hrow
      have hsessions : s.sessions.filter
          (fun r => !decide (r.expiresAt < now - days config.sessionGraceDays)) = s.sessions :=
        List.filter_eq_self.mpr fun row hrow => by simpa using hlive row hrow
      have htokens : s.refreshTokens.filter (fun t => !s.sessions.any fun r =>
          decide (r.expiresAt < now - days config.sessionGraceDays) &&
            decide (r.sessionId = t.sessionId)) = s.refreshTokens := by
        refine List.filter_eq_self.mpr fun t _ => ?_
        rw [Bool.not_eq_true', List.any_eq_false]
        intro row hrow
        rw [decide_eq_false (hlive row hrow), Bool.false_and]
        exact Bool.false_ne_true
      rw [Job.run, purgeExpiredSessions]
      simp only [hsessions, htokens]
  | processedOutbox =>
      rw [Job.affected, List.countP_eq_zero] at h
      have hall : deleteProcessedOlderThan (now - days config.outboxRetentionDays) s.outbox =
          s.outbox :=
        List.filter_eq_self.mpr fun row hrow => by simpa using h row hrow
      rw [Job.run, pruneOutbox, hall]
  | oldAuditEntries =>
      rw [Job.affected, List.countP_eq_zero] at h
      have hall : s.audit.filter
          (fun row => !decide (row.timestamp < now - days config.auditRetentionDays)) =
            s.audit :=
        List.filter_eq_self.mpr fun row hrow => by simpa using h row hrow
      rw [Job.run, pruneAuditLog, hall]
  | deletedUsers =>
      rw [Job.affected, List.countP_eq_zero] at h
      have hall : s.users.map (fun row =>
          if anonymises (now - days config.deletedUserRetentionDays) row then anonymised env row
          else row) = s.users := by
        refine (List.map_congr_left fun row hrow => if_neg (h row hrow)).trans ?_
        exact List.map_id' _
      rw [Job.run, anonymiseDeletedUsers, hall]

/-- **The jobs are idempotent, and commute.** -/
theorem jobs_absorbing (env : Env) (config : MaintenanceConfig) (now : Instant) :
    Absorption.Absorbing (Job.run env config now) where
  idem job s := run_of_affected (affected_run job s)
  comm i j s := by cases i <;> cases j <;> rfl

/-- Only the job on the users table asks about usernames, and no other job touches them. -/
theorem admitted_run_run (i j : Job) (s : Store) :
    i.admitted (i.run env config now (j.run env config now s)) =
      i.admitted (i.run env config now s) := by
  by_cases hij : i = j
  · subst hij
    rw [(jobs_absorbing env config now).idem]
  · cases i with
    | deletedUsers =>
        cases j with
        | deletedUsers => exact absurd rfl hij
        | _ => rfl
    | _ => rfl

/-! ### Sequences of attempts -/

/-- **An attempt** fails and leaves the tables alone, or it succeeds. -/
theorem attempt_cases (fails : Bool) (job : Job) (s : Store) :
    job.attempt env config now fails s = (s, -1) ∨
      (fails = false ∧ job.admitted (job.run env config now s) = true ∧
        ∃ n : ℕ, job.attempt env config now fails s =
          (if config.dryRun then s else job.run env config now s, (n : ℤ))) := by
  rw [Job.attempt]
  split
  · exact Or.inl rfl
  · rename_i hok
    rw [Bool.or_eq_true, not_or, Bool.not_eq_true, Bool.not_eq_true, Bool.not_eq_false'] at hok
    exact Or.inr ⟨hok.1, hok.2, _, rfl⟩

/-- The jobs that succeeded, among some results. -/
def succeeded (results : List (Job × ℤ)) : List Job :=
  (results.filter fun e => e.2 ≠ -1).map Prod.fst

theorem mem_succeeded {results : List (Job × ℤ)} {job : Job} :
    job ∈ succeeded results ↔ ∃ n, (job, n) ∈ results ∧ n ≠ -1 := by
  simp [succeeded]

theorem succeeded_failed (job : Job) (results : List (Job × ℤ)) :
    succeeded ((job, -1) :: results) = succeeded results := rfl

theorem succeeded_cons (job : Job) (n : ℕ) (results : List (Job × ℤ)) :
    succeeded ((job, (n : ℤ)) :: results) = job :: succeeded results := by
  have hn : (n : ℤ) ≠ -1 := by omega
  exact congrArg (List.map Prod.fst) (List.filter_cons_of_pos (decide_eq_true hn))

/-- In a dry run nothing changes. -/
theorem attempts_dry (hdry : config.dryRun = true) (ls : List (Job × Bool)) (s : Store) :
    (attempts env config now ls s).1 = s := by
  induction ls generalizing s with
  | nil => rfl
  | cons e ls ih =>
      rw [attempts]
      rcases @attempt_cases env config now e.2 e.1 s with
        h | ⟨-, -, n, h⟩
      · rw [h]
        exact ih s
      · rw [h, if_pos hdry]
        exact ih s

/-- **What some attempts lead to**: the jobs that succeeded have run, and the constraints admit
what they write. -/
theorem attempts_eq (hdry : config.dryRun = false) (ls : List (Job × Bool)) (s : Store) :
    (attempts env config now ls s).1 = Absorption.runAll (Job.run env config now)
        (succeeded (attempts env config now ls s).2) s ∧
      ∀ job ∈ succeeded (attempts env config now ls s).2,
        job.admitted (job.run env config now s) = true := by
  induction ls generalizing s with
  | nil => exact ⟨rfl, fun job h => absurd h List.not_mem_nil⟩
  | cons e ls ih =>
      obtain ⟨job, fails⟩ := e
      rw [attempts]
      dsimp only
      rcases @attempt_cases env config now fails job s with
        h | ⟨-, hadm, n, h⟩
      · rw [h, succeeded_failed]
        exact ih s
      · rw [h, succeeded_cons, hdry]
        obtain ⟨heq, hrest⟩ := ih (job.run env config now s)
        refine ⟨heq, fun j hj => ?_⟩
        rcases List.mem_cons.mp hj with rfl | hj
        · exact hadm
        · rw [← admitted_run_run j job]
          exact hrest j hj

/-- **A clean run**, where the constraints admit what each job writes. -/
theorem clean_attempts (hdry : config.dryRun = false) {s : Store}
    (hadm : ∀ job : Job, job.admitted (job.run env config now s) = true) (l : List Job) :
    (attempts env config now (l.map fun job => (job, false)) s).1 =
        Absorption.runAll (Job.run env config now) l s ∧
      ∀ e ∈ (attempts env config now (l.map fun job => (job, false)) s).2, e.2 ≠ -1 := by
  induction l generalizing s with
  | nil => exact ⟨rfl, fun e he => absurd he List.not_mem_nil⟩
  | cons job l ih =>
      have hone : job.attempt env config now false s =
          (job.run env config now s, (job.affected config now s : ℤ)) := by
        rw [Job.attempt, hadm job, hdry]
        rfl
      obtain ⟨heq, hall⟩ := ih (s := job.run env config now s) fun j => by
        rw [admitted_run_run, hadm]
      rw [List.map_cons, attempts]
      dsimp only
      rw [hone]
      refine ⟨heq, fun e he => ?_⟩
      rcases List.mem_cons.mp he with rfl | he
      · change (job.affected config now s : ℤ) ≠ -1
        omega
      · exact hall e he

/-- A run with nothing to do. -/
theorem idle_attempts {s : Store} (hnone : ∀ job : Job, job.affected config now s = 0)
    (hadm : ∀ job : Job, job.admitted (job.run env config now s) = true) (l : List Job) :
    attempts env config now (l.map fun job => (job, false)) s = (s, l.map fun job => (job, 0)) := by
  induction l with
  | nil => rfl
  | cons job l ih =>
      have hone : job.attempt env config now false s = (s, 0) := by
        rw [Job.attempt, hadm job, hnone job, run_of_affected (hnone job), ite_self]
        rfl
      rw [List.map_cons, attempts, hone, ih]
      rfl

end Absorbing

/-- **Maintenance converges.** Where each job has succeeded at least once among some attempts,
in whatever order and with whatever failures, the tables are those that one clean run leaves,
and a further run affects no row. A dry run changes nothing. -/
theorem maintenance_converges (env : Env) (config : MaintenanceConfig) (now : Instant)
    (ls : List (Job × Bool)) (s : Store) :
    (config.dryRun = false →
      (∀ job, ∃ n, (job, n) ∈ (attempts env config now ls s).2 ∧ n ≠ -1) →
      (∀ e ∈ (runOnce env config now (fun _ => false) s).2, e.2 ≠ -1) ∧
        (attempts env config now ls s).1 = (runOnce env config now (fun _ => false) s).1 ∧
        runOnce env config now (fun _ => false) (attempts env config now ls s).1 =
          ((attempts env config now ls s).1, Job.all.map fun job => (job, 0))) ∧
    (config.dryRun = true → (attempts env config now ls s).1 = s) := by
  refine ⟨fun hdry hall => ?_, fun hdry => attempts_dry hdry ls s⟩
  have habs := jobs_absorbing env config now
  obtain ⟨heq, hadm⟩ := @attempts_eq env _ now hdry ls s
  have hmem : ∀ job : Job, job ∈ succeeded (attempts env config now ls s).2 :=
    fun job => mem_succeeded.mpr (hall job)
  have hadm : ∀ job : Job, job.admitted (job.run env config now s) = true :=
    fun job => hadm job (hmem job)
  obtain ⟨hclean, hresults⟩ := clean_attempts hdry hadm Job.all
  -- every job is absorbed by what was done
  have hdone : ∀ job : Job, job.run env config now (attempts env config now ls s).1 =
      (attempts env config now ls s).1 := fun job => by
    rw [heq]
    exact habs.absorbed (hmem job) s
  refine ⟨hresults, ?_, idle_attempts (fun job => ?_) (fun job => ?_) Job.all⟩
  · rw [runOnce, hclean, heq]
    exact habs.runAll_eq (fun job _ => job.mem_all) (fun job _ => hmem job) s
  · rw [← hdone job]
    exact affected_run job _
  · rw [hdone job, heq, ← habs.absorbed (hmem job) s]
    have : ∀ l s, job.admitted (job.run env config now
        (Absorption.runAll (Job.run env config now) l s)) =
          job.admitted (job.run env config now s) := fun l s => by
      rw [← habs.runAll_comm]
      induction l generalizing s with
      | nil => rfl
      | cons i l ih => rw [Absorption.runAll_cons, habs.comm i job, ih, admitted_run_run]
    rw [this, hadm]

/-- A deleted account, a session of it, a processed event and an old audit entry. -/
def neglected : Store where
  users := [{ Reference.alice true with deletedAt := some Reference.clock }]
  sessions := [Reference.session]
  refreshTokens := [Reference.token]
  outbox := [markProcessed Reference.clock
    (persistOutboxEvent Reference.env 7 Reference.clock (resetRequest "token"))]
  audit := [⟨8, none, "user.deleted", "User", none, Reference.clock, true⟩]

/-- The jobs backwards, the last one after it has failed, and one of them again. -/
def clumsily : List (Job × Bool) :=
  [(.deletedUsers, true), (.oldAuditEntries, false), (.deletedUsers, false),
    (.processedOutbox, false), (.expiredSessions, false), (.deletedUsers, false)]

/-- Such attempts, two years later, come to what one clean run does. -/
theorem neglected_converges :
    (attempts Reference.env {} (Reference.clock + days 730) clumsily neglected).1 ≠ neglected ∧
      (attempts Reference.env {} (Reference.clock + days 730) clumsily neglected).1 =
        (runOnce Reference.env {} (Reference.clock + days 730) (fun _ => false) neglected).1 := by
  have hall : ∀ job, ∃ n, (job, n) ∈ (attempts Reference.env {} (Reference.clock + days 730)
      clumsily neglected).2 ∧ n ≠ -1 := by
    intro job
    refine mem_succeeded.mp ?_
    cases job <;> decide +kernel
  exact ⟨by decide +kernel, ((maintenance_converges _ _ _ _ _).1 rfl hall).2.1⟩

end BackendTemplate
