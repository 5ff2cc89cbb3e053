import BackendTemplate.Account

/-!
# The Lock Record

What a failed attempt makes of `AccountLockInfo`. The new flag is computed from the attempt
counter alone, while the flag itself has two origins: five counted failures, which leave the
counter at the threshold and set an end, and `create_locked`, which leaves the counter at zero
and may set no end. `is_locked_out` treats the two alike; `record_failed_attempt` does not.

Where a failed attempt is counted only while the account is not locked out, as in
`UserService.authenticate`, none of this shows: `failed_attempt_of_open` says what the attempt
does there.

## Main results

* `failed_attempt_of_open` — an attempt on an account that is not locked out locks it exactly
  when the counter reaches the threshold.
* `keepsLock_iff` — the locks that survive a failed attempt.
* `counted_lock_kept` — a lock that failed attempts have set is one of them.
* `administrator_lock_lifted` — one without an end is not.
-/

namespace BackendTemplate

namespace AccountLockInfo

variable {l : AccountLockInfo} {now t : Instant} {m : ℕ} {d : ℤ}

/-- **The records an account can carry**: what the constructors build and what the operations
make of it, at any instants, thresholds and durations. -/
inductive Reachable : AccountLockInfo → Prop
  | create : Reachable create
  | createLocked (now : Instant) (reason : String) (until_ : Option Instant) :
      Reachable (createLocked now reason until_)
  | recordFailedAttempt {l : AccountLockInfo} (h : Reachable l) (now : Instant)
      (maxAttempts : ℕ) (lockoutDurationMinutes : ℤ) :
      Reachable (l.recordFailedAttempt now maxAttempts lockoutDurationMinutes)
  | recordSuccessfulLogin {l : AccountLockInfo} (h : Reachable l) :
      Reachable l.recordSuccessfulLogin
  | unlock {l : AccountLockInfo} (h : Reachable l) : Reachable l.unlock

/-! ### The lock window -/

/-- An account is locked out while its lock has no end, or has not reached it. -/
theorem isLockedOut_iff :
    l.isLockedOut now = true ↔
      l.isLocked = true ∧ ∀ t, l.lockUntil = some t → now < t := by
  rw [isLockedOut, lockWindowElapsed]
  cases l.isLocked <;> cases l.lockUntil <;> simp

/-- A lock window has elapsed when the lock has reached its end. -/
theorem lockWindowElapsed_iff :
    l.lockWindowElapsed now = true ↔
      l.isLocked = true ∧ ∃ t, l.lockUntil = some t ∧ t ≤ now := by
  rw [lockWindowElapsed]
  cases l.isLocked <;> cases l.lockUntil <;> simp

/-- A locked-out account is in its lock window. -/
theorem not_elapsed_of_lockedOut (h : l.isLockedOut now = true) :
    l.lockWindowElapsed now = false := by
  rw [isLockedOut, Bool.and_eq_true, Bool.not_eq_true'] at h
  exact h.2

/-- **The two readings of the lock agree**: once an account was found not locked out, its
window has elapsed at every later instant exactly when it carries the flag. -/
theorem elapsed_of_open (h : l.isLockedOut t = false) (hle : t ≤ now) :
    l.lockWindowElapsed now = l.isLocked := by
  cases hflag : l.isLocked with
  | false => rw [lockWindowElapsed, hflag, Bool.false_and]
  | true =>
      have hnot : ¬ ∀ t', l.lockUntil = some t' → t < t' := by
        intro hall
        rw [isLockedOut_iff.mpr ⟨hflag, hall⟩] at h
        exact Bool.noConfusion h
      obtain ⟨t', hnot⟩ := not_forall.mp hnot
      obtain ⟨hend, hpast⟩ := Classical.not_imp.mp hnot
      exact lockWindowElapsed_iff.mpr ⟨hflag, t', hend, Int.le_trans (Int.not_lt.mp hpast) hle⟩

/-- An account that is not locked out is not locked out later. -/
theorem isLockedOut_mono {t' : Instant} (hle : t ≤ t') (h : l.isLockedOut t = false) :
    l.isLockedOut t' = false := by
  rw [isLockedOut, elapsed_of_open h hle, Bool.and_not_self]

/-! ### What a failed attempt does -/

/-- A lockout that lasts ends after it begins. -/
theorem lt_lockout_end (hd : 0 < d) : now < now + minutes d := by
  have h : 0 < minutes d := by
    rw [minutes, seconds]
    omega
  exact Int.lt_add_of_pos_right now h

/-- What a failed attempt locks, it locks out. -/
theorem recordFailedAttempt_lockedOut (hd : 0 < d) :
    (l.recordFailedAttempt now m d).isLockedOut now =
      (l.recordFailedAttempt now m d).isLocked := by
  rw [Bool.eq_iff_iff, isLockedOut_iff]
  refine ⟨And.left, fun hlocked => ⟨hlocked, fun t ht => ?_⟩⟩
  have hend : (l.recordFailedAttempt now m d).lockUntil = some (now + minutes d) := if_pos hlocked
  obtain rfl := Option.some.inj (hend.symm.trans ht)
  exact lt_lockout_end hd

/-- Inside its window a lock is kept exactly when the counter is at the threshold. -/
theorem recordFailedAttempt_isLocked (h : l.lockWindowElapsed now = false) :
    (l.recordFailedAttempt now m d).isLocked = decide (m ≤ l.failedAttempts + 1) := by
  simp only [recordFailedAttempt, h, Bool.false_eq_true, if_false]

/-- **A failed attempt on an account that is not locked out**: a lock that has run out is
forgotten with its counter, the failure is counted, and the account is locked for the duration
exactly when the count has reached the threshold. -/
theorem failed_attempt_of_open (h : l.isLockedOut t = false) (hle : t ≤ now) :
    let count := (if l.isLocked then 0 else l.failedAttempts) + 1
    let l' := l.recordFailedAttempt now m d
    l'.failedAttempts = count ∧ (l'.isLocked = true ↔ m ≤ count) ∧
      (l'.isLocked = true → l'.lockUntil = some (now + minutes d)) := by
  have hel := elapsed_of_open h hle
  simp only [recordFailedAttempt, hel, decide_eq_true_eq, true_and]
  exact fun hlocked => if_pos hlocked

/-! ### Does a failed attempt unlock? -/

/-- A failed attempt at `now` **keeps the lock**: the account is still locked out, and a lock
without an end still has none. -/
def KeepsLock (l : AccountLockInfo) (now : Instant) (maxAttempts : ℕ)
    (lockoutDurationMinutes : ℤ) : Prop :=
  (l.recordFailedAttempt now maxAttempts lockoutDurationMinutes).isLockedOut now = true ∧
    (l.lockUntil = none →
      (l.recordFailedAttempt now maxAttempts lockoutDurationMinutes).lockUntil = none)

/-- A lock without an end is never kept: it is lifted, or it is given an end. -/
theorem not_keepsLock_of_indefinite (hd : 0 < d) (hend : l.lockUntil = none) :
    ¬ l.KeepsLock now m d := by
  rintro ⟨hout, hnone⟩
  rw [recordFailedAttempt_lockedOut hd] at hout
  have hsome : (l.recordFailedAttempt now m d).lockUntil = some (now + minutes d) := if_pos hout
  exact Option.some_ne_none _ (hsome.symm.trans (hnone hend))

/-- **The locks that survive a failed attempt.** For every record, threshold and positive
duration: if the account is locked out, a failed attempt keeps the lock exactly when the lock
has an end and this attempt brings the counter to the threshold. -/
theorem keepsLock_iff (l : AccountLockInfo) (now : Instant) (m : ℕ) (d : ℤ) (hd : 0 < d) :
    (l.isLockedOut now = true → l.KeepsLock now m d) ↔
      (l.isLockedOut now = true → l.lockUntil ≠ none ∧ m ≤ l.failedAttempts + 1) := by
  refine forall_congr' fun hout => ?_
  have hflag := recordFailedAttempt_isLocked (m := m) (d := d) (not_elapsed_of_lockedOut hout)
  constructor
  · intro hkeeps
    refine ⟨fun hend => not_keepsLock_of_indefinite hd hend hkeeps, ?_⟩
    have hlocked := hkeeps.1
    rw [recordFailedAttempt_lockedOut hd, hflag] at hlocked
    exact of_decide_eq_true hlocked
  · rintro ⟨hend, hcount⟩
    refine ⟨?_, fun hnone => absurd hnone hend⟩
    rw [recordFailedAttempt_lockedOut hd, hflag]
    exact decide_eq_true hcount

/-- Five counted failures lock an account, and a sixth keeps it locked. -/
theorem sixth_attempt_keeps_lock :
    let l := (List.range 5).foldl (fun l _ => l.recordFailedAttempt 0) create
    l.isLockedOut 0 = true ∧ (l.isLockedOut 0 = true → l.KeepsLock 0 5 15) :=
  ⟨by decide, (keepsLock_iff _ 0 5 15 (by decide)).mpr (by decide)⟩

/-- **A lock that failed attempts have set is kept** by a later one at no higher threshold. -/
theorem counted_lock_kept {m' : ℕ} {d' : ℤ} (hd : 0 < d') (hm : m' ≤ m)
    (hout : (l.recordFailedAttempt t m d).isLockedOut now = true) :
    (l.recordFailedAttempt t m d).KeepsLock now m' d' := by
  refine (keepsLock_iff _ now m' d' hd).mpr (fun _ => ?_) hout
  have hlocked := (isLockedOut_iff.mp hout).1
  have hend : (l.recordFailedAttempt t m d).lockUntil = some (t + minutes d) := if_pos hlocked
  refine ⟨by rw [hend]; exact Option.some_ne_none _, ?_⟩
  have hcount : m ≤ (l.recordFailedAttempt t m d).failedAttempts := of_decide_eq_true hlocked
  omega

/-- An account locked by an administrator, without an end, is unlocked by one wrong password;
one locked until a later instant is too. -/
theorem administrator_lock_lifted :
    ¬ (∀ (l : AccountLockInfo) (now : Instant) (m : ℕ) (d : ℤ), l.Reachable → 1 ≤ m → 0 < d →
      l.isLockedOut now = true → l.KeepsLock now m d) ∧
    ((createLocked 0 "abuse").isLockedOut 0 = true ∧
      ((createLocked 0 "abuse").recordFailedAttempt 0).isLockedOut 0 = false) ∧
    ((createLocked 0 "abuse" (some (hours 1))).isLockedOut 0 = true ∧
      ((createLocked 0 "abuse" (some (hours 1))).recordFailedAttempt 0).isLockedOut 0 = false) := by
  refine ⟨fun hall => ?_, by decide, by decide⟩
  have hkeeps := hall (createLocked 0 "abuse") 0 5 15 (.createLocked 0 "abuse" none) (by decide)
    (by decide) (by decide)
  exact not_keepsLock_of_indefinite (by decide) rfl hkeeps

end AccountLockInfo

end BackendTemplate
