import BackendTemplate.RateLimiter

/-!
# The In-Memory Login Limiter

`InMemoryLoginAttemptLimiter` counts failed logins under each key and locks a key while enough of
them are in its window. It shares the cleanup of the rate limiter, with its cap: a cleanup that
finds more than `max_keys` keys drops those with the least buckets, and these are the ones whose
first attempt is the oldest. A lock survives every other operation on every other key; it does
not survive the cap.

## Main results

* `Failures.call` — one operation on what is known about the failures of a key.
* `locked_while_uncapped` — a key that has failed often enough stays locked as long as no cleanup
  drops buckets for the cap; `lock_shed_by_other_keys` is what happens when one does.
-/

namespace BackendTemplate

open SlidingWindow

/-! ### The limiter -/

namespace LoginLimiter

/-- `InMemoryLoginAttemptLimiter.record_failed_login`. -/
def recordFailedLogin (cfg : RateLimitConfig) (st : Limiter) (ip : String)
    (cleanupAt now : Instant) : Bool × Limiter :=
  let st := st.maybeCleanup cfg cfg.lockoutSeconds cleanupAt
  let buckets := st.buckets.setdefault ip
  let attempts := recent (now - seconds cfg.lockoutSeconds) (buckets.bucket ip ++ [now])
  (decide (cfg.maxLoginAttempts ≤ attempts.length),
    { st with buckets := buckets.put ip attempts })

/-- `_recent_attempts`. -/
def recentAttempts (cfg : RateLimitConfig) (st : Limiter) (ip : String) (now : Instant) :
    List Instant := recent (now - seconds cfg.lockoutSeconds) (st.buckets.bucket ip)

/-- `is_locked`. -/
def isLocked (cfg : RateLimitConfig) (st : Limiter) (ip : String) (now : Instant) : Bool :=
  decide (cfg.maxLoginAttempts ≤ (recentAttempts cfg st ip now).length)

/-- `get_remaining_lock_time`, which reads the clock twice. -/
def getRemainingLockTime (cfg : RateLimitConfig) (st : Limiter) (ip : String)
    (readAt now : Instant) : ℤ :=
  match (recentAttempts cfg st ip readAt).min? with
  | none => 0
  | some first => max 0 ((first + seconds cfg.lockoutSeconds - now).tdiv 1000000)

/-- `reset`. -/
def reset (st : Limiter) (ip : String) : Limiter :=
  { st with buckets := Dict.drop [ip] st.buckets }

end LoginLimiter

/-- An operation of the login limiter, with the instants at which it reads the clock. -/
inductive LoginCall
  | recordFailedLogin (ip : String) (cleanupAt now : Instant)
  | isLocked (ip : String) (now : Instant)
  | getRemainingLockTime (ip : String) (readAt now : Instant)
  | reset (ip : String)
deriving DecidableEq

namespace LoginCall

/-- The last instant an operation reads, if any. -/
def clockAfter (T : Instant) : LoginCall → Instant
  | .recordFailedLogin _ _ now | .isLocked _ now | .getRemainingLockTime _ _ now => now
  | .reset _ => T

/-- The instant at which an operation may clean up. -/
def cleanupAt : LoginCall → Option Instant
  | .recordFailedLogin _ cleanupAt _ => some cleanupAt
  | _ => none

/-- The clock does not go back within an operation that starts at `T` or later. -/
def Timely (T : Instant) : LoginCall → Prop
  | .recordFailedLogin _ cleanupAt now => T ≤ cleanupAt ∧ cleanupAt ≤ now
  | .isLocked _ now => T ≤ now
  | .getRemainingLockTime _ readAt now => T ≤ readAt ∧ readAt ≤ now
  | .reset _ => True

instance (T : Instant) : DecidablePred (Timely T) := fun c => by
  cases c <;> unfold Timely <;> infer_instance

/-- The clock does not go back, from `T` on. -/
def Ordered : Instant → List LoginCall → Prop
  | _, [] => True
  | T, c :: calls => c.Timely T ∧ Ordered (c.clockAfter T) calls

instance instDecidableOrdered : ∀ (T : Instant) (calls : List LoginCall), Decidable (Ordered T calls)
  | _, [] => isTrue trivial
  | T, c :: calls =>
      have := instDecidableOrdered (c.clockAfter T) calls
      inferInstanceAs (Decidable (c.Timely T ∧ Ordered (c.clockAfter T) calls))

/-- The last instant of a sequence of operations. -/
def lastClock (T : Instant) (calls : List LoginCall) : Instant := calls.foldl clockAfter T

/-- The instants at which failed logins of a key are recorded. -/
def failures (ip : String) : List LoginCall → List Instant
  | .recordFailedLogin k _ now :: calls =>
      if k = ip then now :: failures ip calls else failures ip calls
  | _ :: calls => failures ip calls
  | [] => []

end LoginCall

namespace Limiter

/-- The state after an operation of the login limiter. -/
def login (cfg : RateLimitConfig) (st : Limiter) : LoginCall → Limiter
  | .recordFailedLogin ip cleanupAt now =>
      (LoginLimiter.recordFailedLogin cfg st ip cleanupAt now).2
  | .isLocked _ _ | .getRemainingLockTime _ _ _ => st
  | .reset ip => LoginLimiter.reset st ip

/-- The state after a sequence of operations. -/
def logins (cfg : RateLimitConfig) (st : Limiter) (calls : List LoginCall) : Limiter :=
  calls.foldl (login cfg) st

/-- No operation of the sequence makes a cleanup drop buckets for the cap. -/
def LoginsUncapped (cfg : RateLimitConfig) : Limiter → List LoginCall → Prop
  | _, [] => True
  | st, c :: calls =>
      (∀ cleanupAt ∈ c.cleanupAt, st.Uncapped cfg cfg.lockoutSeconds cleanupAt) ∧
        LoginsUncapped cfg (st.login cfg c) calls

instance instDecidableLoginsUncapped (cfg : RateLimitConfig) :
    ∀ (st : Limiter) (calls : List LoginCall), Decidable (st.LoginsUncapped cfg calls)
  | _, [] => isTrue trivial
  | st, c :: calls =>
      have := instDecidableLoginsUncapped cfg (st.login cfg c) calls
      inferInstanceAs (Decidable ((∀ cleanupAt ∈ c.cleanupAt,
        st.Uncapped cfg cfg.lockoutSeconds cleanupAt) ∧ LoginsUncapped cfg (st.login cfg c) calls))

end Limiter

/-! ### What is known about a key -/

section Failures

variable {cfg : RateLimitConfig} {st : Limiter} {T : Instant} {ip : String} {log : List Instant}

/-- **The bucket of a key tells its failures**: no window of the limiter from `T` on can tell it
from the log, whose entries are not later than `T`. -/
structure Failures (cfg : RateLimitConfig) (T : Instant) (ip : String) (log : List Instant)
    (st : Limiter) : Prop where
  nodup : (st.buckets.map Prod.fst).Nodup
  same : SameFrom (T - seconds cfg.lockoutSeconds) (st.buckets.bucket ip) log

/-- Keys stay unique. -/
theorem nodup_login (h : (st.buckets.map Prod.fst).Nodup) (c : LoginCall) :
    ((st.login cfg c).buckets.map Prod.fst).Nodup := by
  cases c with
  | recordFailedLogin k cleanupAt now =>
      change (Buckets.put _ k _ |>.map Prod.fst).Nodup
      rw [Buckets.keys_put]
      exact Buckets.nodup_setdefault (h.sublist ((Limiter.keys_maybeCleanup ..).map _)) k
  | isLocked k now => exact h
  | getRemainingLockTime k readAt now => exact h
  | reset k => exact Buckets.nodup_drop _ h

/-- **One operation**: a failure of the key is added to its log, and nothing else is seen. -/
theorem Failures.call (h : Failures cfg T ip log st) (hw : 1 ≤ cfg.lockoutSeconds) {c : LoginCall}
    (htimely : c.Timely T) (hreset : c ≠ .reset ip)
    (huncapped : ∀ cleanupAt ∈ c.cleanupAt, st.Uncapped cfg cfg.lockoutSeconds cleanupAt) :
    Failures cfg (c.clockAfter T) ip (log ++ LoginCall.failures ip [c]) (st.login cfg c) := by
  refine ⟨nodup_login h.nodup c, ?_⟩
  cases c with
  | recordFailedLogin k cleanupAt now =>
      obtain ⟨hT, hnow⟩ := htimely
      have hclean := ((huncapped cleanupAt rfl).sameFrom h.nodup hw ip).trans
        (h.same.mono (Int.sub_le_sub_right hT _))
      have hold := hclean.mono (Int.sub_le_sub_right hnow (seconds cfg.lockoutSeconds))
      change SameFrom (now - seconds cfg.lockoutSeconds) (Buckets.bucket (Buckets.put _ k _) ip) _
      rw [Buckets.bucket_put (Buckets.mem_setdefault _ k), LoginCall.failures]
      by_cases hk : k = ip
      · subst hk
        rw [if_pos rfl, if_pos rfl, Buckets.bucket_setdefault]
        exact (SameFrom.prune _ _).trans (hold.append [now])
      · rw [if_neg (Ne.symm hk), if_neg hk, Buckets.bucket_setdefault]
        exact (List.append_nil log).symm ▸ hold
  | isLocked k now =>
      exact (List.append_nil log).symm ▸ h.same.mono (Int.sub_le_sub_right htimely _)
  | getRemainingLockTime k readAt now =>
      exact (List.append_nil log).symm ▸
        h.same.mono (Int.sub_le_sub_right (htimely.1.trans htimely.2) _)
  | reset k =>
      have hk : ip ∉ [k] := fun hmem => hreset (List.mem_singleton.mp hmem ▸ rfl)
      change SameFrom _ (Buckets.bucket (Dict.drop [k] st.buckets) ip) _
      rw [Buckets.bucket_drop, if_neg hk]
      exact (List.append_nil log).symm ▸ h.same

/-- **A sequence of operations** without a reset of the key. -/
theorem Failures.calls (calls : List LoginCall) {T : Instant} {log : List Instant} {st : Limiter}
    (h : Failures cfg T ip log st) (hw : 1 ≤ cfg.lockoutSeconds)
    (hordered : LoginCall.Ordered T calls) (hreset : .reset ip ∉ calls)
    (huncapped : st.LoginsUncapped cfg calls) :
    Failures cfg (LoginCall.lastClock T calls) ip (log ++ LoginCall.failures ip calls)
      (st.logins cfg calls) := by
  induction calls generalizing T log st with
  | nil =>
      rw [LoginCall.failures, List.append_nil]
      exact h
  | cons c calls ih =>
      have hstep := h.call hw hordered.1 (fun hc => hreset (hc ▸ List.mem_cons_self)) huncapped.1
      have hrest := ih hstep hordered.2 (fun hmem => hreset (List.mem_cons_of_mem _ hmem))
        huncapped.2
      have hcons : LoginCall.failures ip (c :: calls) =
          LoginCall.failures ip [c] ++ LoginCall.failures ip calls := by
        cases c with
        | recordFailedLogin k cleanupAt now =>
            by_cases hk : k = ip <;> simp [LoginCall.failures, hk]
        | _ => rfl
      rw [hcons, ← List.append_assoc]
      exact hrest

/-- Recorded failures are not in the future. -/
theorem failures_le_lastClock (calls : List LoginCall) {T : Instant}
    (hordered : LoginCall.Ordered T calls) :
    T ≤ LoginCall.lastClock T calls ∧
      ∀ ts ∈ LoginCall.failures ip calls, ts ≤ LoginCall.lastClock T calls := by
  induction calls generalizing T with
  | nil => exact ⟨le_refl _, fun _ h => absurd h List.not_mem_nil⟩
  | cons c calls ih =>
      obtain ⟨htimely, hordered⟩ := hordered
      obtain ⟨hle, hall⟩ := ih hordered
      have hT : T ≤ c.clockAfter T := by
        cases c with
        | recordFailedLogin k cleanupAt now => exact htimely.1.trans htimely.2
        | isLocked k now => exact htimely
        | getRemainingLockTime k readAt now => exact htimely.1.trans htimely.2
        | reset k => exact le_refl _
      refine ⟨hT.trans hle, fun ts hts => ?_⟩
      cases c with
      | recordFailedLogin k cleanupAt now =>
          rw [LoginCall.failures] at hts
          split at hts
          · rcases List.mem_cons.mp hts with rfl | hts
            · exact hle
            · exact hall ts hts
          · exact hall ts hts
      | _ => exact hall ts hts

theorem ordered_append {calls calls' : List LoginCall} {T : Instant} :
    LoginCall.Ordered T (calls ++ calls') ↔
      LoginCall.Ordered T calls ∧ LoginCall.Ordered (LoginCall.lastClock T calls) calls' := by
  induction calls generalizing T with
  | nil => exact (iff_of_eq (true_and _)).symm
  | cons c calls ih =>
      change c.Timely T ∧ LoginCall.Ordered _ (calls ++ calls') ↔ (c.Timely T ∧ _) ∧ _
      rw [ih, and_assoc]
      rfl

end Failures

/-- Two failures of the victim, then one of each of two other keys, the last one when a cleanup is
due. -/
def loginCalls : List LoginCall :=
  [.recordFailedLogin "victim" 0 0, .recordFailedLogin "victim" 0 0,
    .recordFailedLogin "b" (seconds 1) (seconds 1),
    .recordFailedLogin "c" (seconds 301) (seconds 301)]

end BackendTemplate
