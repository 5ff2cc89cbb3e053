import BackendTemplate.AccountLock
import BackendTemplate.Runs

/-!
# The Fields of the Lock Record

`AccountLockInfo` says in five fields whether an account is locked, since when, why, after how many
failures and until when. The flag and the other fields should agree: `Consistent`.

Each operation builds the record anew. `create_locked` and `record_successful_login` fill in every
field; `record_failed_attempt` computes the flag but copies `locked_at` and `lock_reason`, and
`unlock` resets every field but `locked_at`. So the fields agree as long as no failed attempt
changes the flag and no locked record is unlocked.

## Main results

* `apply_consistent_iff` — the steps that keep the fields consistent.
* `lock_record_consistent_iff` — the runs whose records are consistent throughout.
* `lockUntil_of_locked` — an end is set on locked records only, in every run.
-/

namespace BackendTemplate

/-- An operation on the lock record, with the instant at which it is made. -/
inductive LockOp
  | createLocked (now : Instant) (reason : String) (until_ : Option Instant)
  | recordFailedAttempt (now : Instant) (maxAttempts lockoutDurationMinutes : ℤ)
  | recordSuccessfulLogin
  | unlock

namespace AccountLockInfo

variable {l : AccountLockInfo}

/-- The record after an operation. The count of failures is at least one, so a threshold below
zero is as good as zero. -/
def apply (l : AccountLockInfo) : LockOp → AccountLockInfo
  | .createLocked now reason until_ => .createLocked now reason until_
  | .recordFailedAttempt now maxAttempts lockoutDurationMinutes =>
      l.recordFailedAttempt now maxAttempts.toNat lockoutDurationMinutes
  | .recordSuccessfulLogin => l.recordSuccessfulLogin
  | .unlock => l.unlock

/-- **The fields agree**: the record says since when exactly if it says that it is locked, and it
gives a reason or an end only then. -/
structure Consistent (l : AccountLockInfo) : Prop where
  lockedAt : l.lockedAt.isSome = true ↔ l.isLocked = true
  lockReason : l.lockReason.isSome = true → l.isLocked = true
  lockUntil : l.lockUntil.isSome = true → l.isLocked = true

/-- A failed attempt **leaves the flag**: with this one, the failures that count have reached the
threshold exactly if the record is locked already. -/
def LeavesFlag (l : AccountLockInfo) (now : Instant) (maxAttempts : ℤ) : Prop :=
  maxAttempts ≤ (if l.lockWindowElapsed now then 0 else l.failedAttempts) + 1 ↔ l.isLocked = true

/-- **The operations that keep the fields consistent**: a failed attempt that leaves the flag, and
an unlocking of a record that is not locked. The other two always do. -/
def Harmless (l : AccountLockInfo) : LockOp → Prop
  | .recordFailedAttempt now maxAttempts _ => l.LeavesFlag now maxAttempts
  | .unlock => l.isLocked = false
  | _ => True

theorem create_consistent : create.Consistent := ⟨by decide, by decide, by decide⟩

theorem createLocked_consistent (now : Instant) (reason : String) (until_ : Option Instant) :
    (createLocked now reason until_).Consistent :=
  ⟨iff_of_true rfl rfl, fun _ => rfl, fun _ => rfl⟩

/-- The flag after a failed attempt, for any threshold. -/
theorem recordFailedAttempt_isLocked_iff (l : AccountLockInfo) (now : Instant) (m d : ℤ) :
    (l.recordFailedAttempt now m.toNat d).isLocked = true ↔
      m ≤ (if l.lockWindowElapsed now then 0 else l.failedAttempts) + 1 := by
  simp only [recordFailedAttempt, decide_eq_true_eq]
  split <;> omega

/-- A failed attempt sets an end exactly when it sets the flag. -/
theorem recordFailedAttempt_lockUntil (l : AccountLockInfo) (now : Instant) (m : ℕ) (d : ℤ) :
    (l.recordFailedAttempt now m d).lockUntil.isSome =
      (l.recordFailedAttempt now m d).isLocked := by
  have hend : (l.recordFailedAttempt now m d).lockUntil =
      if (l.recordFailedAttempt now m d).isLocked then some (now + minutes d) else none := rfl
  rw [hend]
  cases (l.recordFailedAttempt now m d).isLocked <;> rfl

/-- **A failed attempt keeps the fields consistent exactly when it leaves the flag**: since when
and why are copied. -/
theorem recordFailedAttempt_consistent_iff (h : l.Consistent) (now : Instant) (m d : ℤ) :
    (l.recordFailedAttempt now m.toNat d).Consistent ↔ l.LeavesFlag now m := by
  have hflag := recordFailedAttempt_isLocked_iff l now m d
  constructor
  · intro h'
    rw [LeavesFlag, ← hflag]
    exact h'.lockedAt.symm.trans h.lockedAt
  · intro hleaves
    have hsame : (l.recordFailedAttempt now m.toNat d).isLocked = true ↔ l.isLocked = true :=
      hflag.trans hleaves
    refine ⟨h.lockedAt.trans hsame.symm, fun hreason => hsame.mpr (h.lockReason hreason), ?_⟩
    intro hend
    rwa [recordFailedAttempt_lockUntil] at hend

/-- **An unlocking keeps the fields consistent exactly when nothing was locked**: since when
stays. -/
theorem unlock_consistent_iff (h : l.Consistent) : l.unlock.Consistent ↔ l.isLocked = false := by
  constructor
  · intro h'
    have hat : l.lockedAt.isSome ≠ true := fun hat =>
      Bool.false_ne_true (h'.lockedAt.mp hat)
    exact Bool.eq_false_iff.mpr fun hlocked => hat (h.lockedAt.mpr hlocked)
  · intro hlocked
    have hat : l.lockedAt.isSome ≠ true := fun hat => by
      rw [h.lockedAt.mp hat] at hlocked
      cases hlocked
    exact ⟨iff_of_false hat Bool.false_ne_true, fun hr => absurd hr Bool.false_ne_true,
      fun he => absurd he Bool.false_ne_true⟩

/-- **What a step does to consistent fields.** -/
theorem apply_consistent_iff (l : AccountLockInfo) (o : LockOp) (h : l.Consistent) :
    (l.apply o).Consistent ↔ l.Harmless o := by
  cases o with
  | createLocked now reason until_ =>
      exact iff_of_true (createLocked_consistent now reason until_) trivial
  | recordFailedAttempt now maxAttempts d => exact recordFailedAttempt_consistent_iff h now _ d
  | recordSuccessfulLogin => exact iff_of_true create_consistent trivial
  | unlock => exact unlock_consistent_iff h

/-- **When the lock record is consistent.** For every sequence of operations, at any instants and
with any arguments: from `create()` on every record is consistent, if and only if each failed
attempt leaves the flag and each unlocking finds the record not locked. -/
theorem lock_record_consistent_iff (ops : List LockOp) :
    Runs.Throughout apply Consistent create ops ↔ Runs.EachStep apply Harmless create ops :=
  Runs.throughout_iff apply_consistent_iff create_consistent

/-- Five failures, the last of which locks the account. -/
def fiveFailures : List LockOp := List.replicate 5 (.recordFailedAttempt 0 5 15)

/-- An administrator locks the account for an hour; a failure follows after two. -/
def failureAfterLock : List LockOp :=
  [.createLocked 0 "abuse" (some (hours 1)), .recordFailedAttempt (hours 2) 5 15]

/-- The fifth failure locks the account and does not say since when; unlocking a locked record
leaves since when; and a failure after the end of a lock clears the flag and leaves since when and
why. -/
theorem lock_record_inconsistent :
    (¬ ∀ ops, Runs.Throughout apply Consistent create ops) ∧
      ((fiveFailures.foldl apply create).isLocked = true ∧
        (fiveFailures.foldl apply create).lockedAt = none) ∧
      ((createLocked 0 "abuse").unlock.isLocked = false ∧
        (createLocked 0 "abuse").unlock.lockedAt = some 0) ∧
      (failureAfterLock.foldl apply create).isLocked = false ∧
        (failureAfterLock.foldl apply create).lockedAt = some 0 ∧
        (failureAfterLock.foldl apply create).lockReason = some "abuse" := by
  refine ⟨fun h => ?_, by decide, by decide, by decide⟩
  have hsteps := (Runs.throughout_iff apply_consistent_iff create_consistent).mp
    (h [.createLocked 0 "abuse" none, .unlock])
  have hunlocked : (createLocked 0 "abuse").isLocked = false := hsteps.2.1
  exact absurd hunlocked (by decide)

/-- **An end is set on locked records only**, in every run. -/
theorem lockUntil_of_locked (ops : List LockOp) :
    Runs.Throughout apply (fun l => l.lockUntil.isSome = true → l.isLocked = true) create ops := by
  refine Runs.throughout_of_step (fun l o h => ?_) (by decide)
  cases o with
  | createLocked now reason until_ => exact fun _ => rfl
  | recordFailedAttempt now maxAttempts d =>
      intro hend
      exact (recordFailedAttempt_lockUntil l now _ d).symm.trans hend
  | recordSuccessfulLogin => exact fun hend => absurd hend Bool.false_ne_true
  | unlock => exact fun hend => absurd hend Bool.false_ne_true

end AccountLockInfo

end BackendTemplate
