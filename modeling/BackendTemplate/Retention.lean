import BackendTemplate.Anonymisation

/-!
# What Is Left of an Account That Was Deleted Long Ago

The job `deleted_users` strips the personal data from accounts whose deletion is older than the
retention period. It selects them by `deleted_at` and by an email that is not null, and sets the
email to null: the second condition is how it knows what it has done already. An account can do
without an email from the start, and then the job takes it for one it has done.

## Main results

* `strips_iff` — one row: the job leaves it as promised unless it has no email and has never been
  stripped.
* `service_emptied` — in every run of the service an empty password hash is the mark of a row the
  job has stripped.
* `anonymisation_complete_iff` — the job is complete on exactly those tables in which every account
  that was deleted long ago has an email or has been stripped before.
-/

namespace BackendTemplate

open Atomic

/-! ### What the job promises -/

/-- The account was deleted before the cutoff of the job. -/
def LongDeleted (config : MaintenanceConfig) (now : Instant) (row : UserRow) : Prop :=
  ∃ t, row.deletedAt = some t ∧ t < now - days config.deletedUserRetentionDays

instance (config : MaintenanceConfig) (now : Instant) (row : UserRow) :
    Decidable (LongDeleted config now row) :=
  decidable_of_iff ((row.deletedAt.any fun t =>
      decide (t < now - days config.deletedUserRetentionDays)) = true) <| by
    simp [LongDeleted, Option.any_eq_true]

/-- **The personal data is gone**, and the username is released. -/
structure Stripped (env : Env) (row : UserRow) : Prop where
  username : row.username = placeholder env row.id
  email : row.email = none
  hashedPassword : row.hashedPassword = []
  twoFactorSecret : row.twoFactorSecret = none
  twoFactorBackupCodes : row.twoFactorBackupCodes = none
  emailVerificationTokenHash : row.emailVerificationTokenHash = none
  passwordResetTokenHash : row.passwordResetTokenHash = none

/-- A row before and after the job, as the job promises it. -/
def Strips (env : Env) (config : MaintenanceConfig) (now : Instant) (row row' : UserRow) : Prop :=
  (LongDeleted config now row → row'.id = row.id ∧ Stripped env row') ∧
    (¬ LongDeleted config now row → row' = row)

/-- **The job is complete**: it leaves every row of the table as it promises. -/
def Complete (env : Env) (config : MaintenanceConfig) (now : Instant)
    (before after : List UserRow) : Prop := List.Forall₂ (Strips env config now) before after

/-! ### One row -/

section Rows

variable {env : Env} {config : MaintenanceConfig} {now : Instant} {row : UserRow}

theorem stripped_anonymised (env : Env) (row : UserRow) : Stripped env (anonymised env row) :=
  ⟨rfl, rfl, rfl, rfl, rfl, rfl, rfl⟩

/-- What the `WHERE` clause of the job selects. -/
theorem anonymises_iff : anonymises (now - days config.deletedUserRetentionDays) row = true ↔
    LongDeleted config now row ∧ row.email ≠ none := by
  rw [anonymises, LongDeleted, Bool.and_eq_true, Option.isSome_iff_ne_none]
  refine and_congr_left fun _ => ?_
  cases row.deletedAt with
  | none => simp
  | some t => simp

/-- **One row**: the job leaves it as promised unless the account has no email and has never been
stripped. -/
theorem strips_iff (row : UserRow) :
    Strips env config now row
        (if anonymises (now - days config.deletedUserRetentionDays) row then anonymised env row
          else row) ↔
      (LongDeleted config now row → row.email = none → Stripped env row) := by
  by_cases hsel : anonymises (now - days config.deletedUserRetentionDays) row = true
  · rw [if_pos hsel]
    obtain ⟨hlong, hemail⟩ := anonymises_iff.mp hsel
    refine iff_of_true ⟨fun _ => ⟨rfl, stripped_anonymised env row⟩, fun h => absurd hlong h⟩ ?_
    exact fun _ hnone => absurd hnone hemail
  · rw [if_neg hsel]
    constructor
    · exact fun h hlong _ => (h.1 hlong).2
    · refine fun h => ⟨fun hlong => ⟨rfl, h hlong ?_⟩, fun _ => rfl⟩
      by_contra hemail
      exact hsel (anonymises_iff.mpr ⟨hlong, hemail⟩)

/-- **One table.** -/
theorem complete_iff (s : Store) :
    Complete env config now s.users (Job.deletedUsers.run env config now s).users ↔
      ∀ row ∈ s.users, LongDeleted config now row → row.email = none → Stripped env row := by
  have hrun : (Job.deletedUsers.run env config now s).users = s.users.map fun row =>
      if anonymises (now - days config.deletedUserRetentionDays) row then anonymised env row
      else row := rfl
  rw [hrun, Complete, List.forall₂_map_right_iff, List.forall₂_same]
  exact forall₂_congr fun row _ => strips_iff row

end Rows

/-! ### Every run of the service -/

section Service

variable {env : Env} {ι : Type} [Fintype ι] [DecidableEq ι] {reqs : ι → Request} {w : World ι}
variable {c c' : Cfg ι}

/-- An empty password hash is the mark of a row that the job has stripped. -/
def EmptiedByJob (env : Env) (row : UserRow) : Prop := row.hashedPassword = [] → Stripped env row

/-- A step of the service keeps it: no request writes an empty password hash. -/
theorem serviceStep_emptied (h : c.shared.UsersAre (EmptiedByJob env)) {l : ServiceLabel ι}
    (hs : serviceStep env c l = some c') : c'.shared.UsersAre (EmptiedByJob env) := by
  cases l with
  | request l =>
      exact step_usersAre (fun _ u _ hempty => absurd hempty u.hashedPassword.ne_nil) h hs
  | maintenance config job now fails =>
      rw [serviceStep] at hs
      split at hs
      · cases hs
      · obtain rfl := Option.some.inj hs
        refine ⟨fun row hrow => ?_, h.pending⟩
        change row ∈ (job.attempt env config now fails (c.shared.db.store env)).1.users at hrow
        rcases attempt_users config now fails job (c.shared.db.store env) with
          hsame | ⟨rfl, -, -, -, hrun⟩
        · rw [hsame] at hrow
          exact h.committed row hrow
        · rw [hrun] at hrow
          obtain ⟨old, hold, rfl⟩ := List.mem_map.mp hrow
          split
          · exact fun _ => stripped_anonymised env old
          · exact h.committed old hold

/-- **In every run of the service** an empty password hash marks a stripped row. -/
theorem service_emptied (hidle : ∀ i, w.pending i = [])
    (hstart : ∀ row ∈ w.db.users, EmptiedByJob env row)
    (h : Runs.Reach (serviceStep env) Runs.always (start env reqs w) c) :
    ∀ row ∈ c.shared.db.users, EmptiedByJob env row := by
  have hw : (start env reqs w).shared.UsersAre (EmptiedByJob env) :=
    ⟨hstart, fun i wr hwr => absurd (hidle i ▸ hwr) List.not_mem_nil⟩
  exact (h.invariant (I := fun c => c.shared.UsersAre (EmptiedByJob env)) hw
    fun _ _ _ hI _ hs => serviceStep_emptied hI hs).committed

/-- **When anonymisation is complete**: a job that succeeds leaves every row as it promises just
when each account that was deleted long ago has an email, or an empty password hash because the job
has stripped it before. -/
theorem anonymisation_complete_iff (hidle : ∀ i, w.pending i = [])
    (hstart : ∀ row ∈ w.db.users, EmptiedByJob env row)
    (h : Runs.Reach (serviceStep env) Runs.always (start env reqs w) c)
    {config : MaintenanceConfig} (hdry : config.dryRun = false) {now : Instant} {fails : Bool}
    (hsuccess : (Job.deletedUsers.attempt env config now fails (c.shared.db.store env)).2 ≠ -1)
    (hs : serviceStep env c (.maintenance config .deletedUsers now fails) = some c') :
    Complete env config now c.shared.db.users c'.shared.db.users ↔
      ∀ row ∈ c.shared.db.users, LongDeleted config now row →
        row.email ≠ none ∨ row.hashedPassword = [] := by
  have hemptied := service_emptied hidle hstart h
  have hrun : c'.shared.db.users =
      (Job.deletedUsers.run env config now (c.shared.db.store env)).users := by
    rw [serviceStep] at hs
    split at hs
    · cases hs
    · obtain rfl := Option.some.inj hs
      change (Job.deletedUsers.attempt env config now fails (c.shared.db.store env)).1.users = _
      rcases @attempt_cases env config now fails .deletedUsers (c.shared.db.store env) with
        hfail | ⟨-, -, n, hok⟩
      · rw [hfail] at hsuccess
        exact absurd rfl hsuccess
      · rw [hok, hdry]
        rfl
  rw [hrun]
  refine (complete_iff (c.shared.db.store env)).trans
    (forall₂_congr fun row hrow => imp_congr_right fun _ => ?_)
  constructor
  · intro hstripped
    by_cases hemail : row.email = none
    · exact Or.inr (hstripped hemail).hashedPassword
    · exact Or.inl hemail
  · rintro (hemail | hempty) hnone
    · exact absurd hnone hemail
    · exact hemptied row hrow hempty

end Service

/-! ### Two accounts -/

/-- Each row a complete job leaves is what it has made of one of the rows before. -/
theorem Complete.of_mem {env : Env} {config : MaintenanceConfig} {now : Instant}
    {before after : List UserRow} (h : Complete env config now before after) {row' : UserRow}
    (hrow : row' ∈ after) : ∃ row ∈ before, Strips env config now row row' := by
  induction h with
  | nil => exact absurd hrow List.not_mem_nil
  | cons hR _ ih =>
      rcases List.mem_cons.mp hrow with rfl | hrow
      · exact ⟨_, List.mem_cons_self, hR⟩
      · obtain ⟨row, hmem, hs⟩ := ih hrow
        exact ⟨row, List.mem_cons_of_mem _ hmem, hs⟩

/-- The time of the job: thirty-one days after the deletion. -/
def jobAt : Instant := Reference.clock + days 31

/-- An account with an email, deleted thirty-one days ago: the job is complete. -/
theorem account_with_email_stripped : ∃ c c',
    Runs.run (serviceStep Reference.env) Runs.always deletionStart
      ((Reference.moves 0 8).map .request) = some c ∧
    serviceStep Reference.env c (.maintenance {} .deletedUsers jobAt false) = some c' ∧
    (∃ row ∈ c.shared.db.users, LongDeleted {} jobAt row) ∧
    Complete Reference.env {} jobAt c.shared.db.users c'.shared.db.users := by
  obtain ⟨c, hc, hsuccess, hlong, hemail, hstep⟩ : ∃ c,
      Runs.run (serviceStep Reference.env) Runs.always deletionStart
        ((Reference.moves 0 8).map .request) = some c ∧
      (Job.deletedUsers.attempt Reference.env {} jobAt false
        (c.shared.db.store Reference.env)).2 ≠ -1 ∧
      (∃ row ∈ c.shared.db.users, LongDeleted {} jobAt row) ∧
      (∀ row ∈ c.shared.db.users, row.email.isSome = true) ∧
      (serviceStep Reference.env c (.maintenance {} .deletedUsers jobAt false)).isSome = true := by
    decide +kernel
  obtain ⟨c', hc'⟩ := Option.isSome_iff_exists.mp hstep
  refine ⟨c, c', hc, hc', hlong, ?_⟩
  refine (anonymisation_complete_iff (fun _ => rfl) ?_ (Runs.reach_of_run hc) rfl hsuccess hc').mpr
    fun row hrow _ => Or.inl (Option.isSome_iff_ne_none.mp (hemail row hrow))
  intro row hrow hempty
  obtain rfl := List.mem_singleton.mp hrow
  exact absurd hempty (by decide)

/-- A registration without an email, and the deletion of that account. -/
def withoutEmail : Fin 2 → Request
  | 0 => .createUser "bob" "Correct-Horse-9" none none
  | 1 => .deleteMe (Reference.uuid4 0)

/-- Both requests, one after the other. -/
def registerAndDelete : List (ServiceLabel (Fin 2)) :=
  (Reference.moves 0 9).map .request ++ (Reference.moves 1 7).map .request

/-- **An account that never had an email is never stripped**: thirty-one days after its deletion
the job succeeds, and the account keeps its username and its password hash. -/
theorem account_without_email_kept : ∃ c c',
    Runs.run (serviceStep Reference.env) Runs.always
      (start Reference.env withoutEmail (Reference.world (Fin 2) {})) registerAndDelete = some c ∧
    serviceStep Reference.env c (.maintenance {} .deletedUsers jobAt false) = some c' ∧
    (Job.deletedUsers.attempt Reference.env {} jobAt false
      (c.shared.db.store Reference.env)).2 ≠ -1 ∧
    (∃ row ∈ c'.shared.db.users, LongDeleted {} jobAt row ∧ row.username = "bob" ∧
      row.hashedPassword ≠ []) ∧
    ¬ Complete Reference.env {} jobAt c.shared.db.users c'.shared.db.users := by
  obtain ⟨c, hc, hsuccess, hstep⟩ : ∃ c,
      Runs.run (serviceStep Reference.env) Runs.always
        (start Reference.env withoutEmail (Reference.world (Fin 2) {})) registerAndDelete =
          some c ∧
      (Job.deletedUsers.attempt Reference.env {} jobAt false
        (c.shared.db.store Reference.env)).2 ≠ -1 ∧
      ((serviceStep Reference.env c (.maintenance {} .deletedUsers jobAt false)).any fun c' =>
        decide (∃ row ∈ c'.shared.db.users, LongDeleted {} jobAt row ∧ row.username = "bob" ∧
          row.hashedPassword ≠ [])) = true := by
    decide +kernel
  obtain ⟨c', hc', hkept⟩ := (Option.any_eq_true _ _).mp hstep
  obtain ⟨row', hrow', hlong', hname, hhash⟩ := of_decide_eq_true hkept
  refine ⟨c, c', hc, hc', hsuccess, ⟨row', hrow', hlong', hname, hhash⟩, fun hcomplete => ?_⟩
  obtain ⟨row, -, hstrips⟩ := hcomplete.of_mem hrow'
  by_cases hlong : LongDeleted {} jobAt row
  · exact hhash (hstrips.1 hlong).2.hashedPassword
  · exact hlong (hstrips.2 hlong ▸ hlong')

end BackendTemplate
