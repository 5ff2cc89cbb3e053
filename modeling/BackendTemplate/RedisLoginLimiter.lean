import BackendTemplate.FixedWindow
import BackendTemplate.LoginLimiter
import BackendTemplate.RedisLimiter

/-!
# The Redis Login Limiter

`RedisLoginAttemptLimiter` counts failed logins on the server: `INCR` and `EXPIRE … NX` in one
transaction, so that no caller can stop between them. Every operation is one atomic step of the
server, and any interleaving of any number of processes is a sequence of such steps, with time and
the commands of others in between. What such a sequence makes of a key is a fixed-window counter.

## Main results

* `redis_lock_exact` — the lock of a key, by the failures recorded since its last reset; and no
  key stays locked for `lockout_seconds`.
* `redis_locked_memory_locked` — a key that is locked there is locked in memory.
* `guesses_limited` — how many guesses the two backends let through.
-/

namespace BackendTemplate

open SlidingWindow FixedWindow

/-! ### The limiter -/

namespace RedisServer

/-- `EXPIRE … NX`: only a counter without a time to live is given one. -/
def expireNx (s : RedisServer) (key : String) (timeout : ℤ) : Bool × RedisServer :=
  match s.lookup key with
  | some ⟨_, none⟩ => s.expire key timeout
  | _ => (false, s)

/-- `GET`. -/
def get (s : RedisServer) (key : String) : Option ℤ := (s.lookup key).map RedisEntry.value

end RedisServer

namespace RedisLoginLimiter

/-- The key of a counter. -/
def failedKey (ip : String) : String := "login_failed:" ++ ip

/-- `record_failed_login`. Its pipeline is one transaction. -/
def recordFailedLogin (cfg : RateLimitConfig) (s : RedisServer) (ip : String) :
    Bool × RedisServer :=
  let counted := s.incr (failedKey ip)
  (decide (cfg.maxLoginAttempts ≤ counted.1),
    (counted.2.expireNx (failedKey ip) cfg.lockoutSeconds).2)

/-- `is_locked`. -/
def isLocked (cfg : RateLimitConfig) (s : RedisServer) (ip : String) : Bool :=
  (s.get (failedKey ip)).any fun current => cfg.maxLoginAttempts ≤ current

/-- `get_remaining_lock_time`. -/
def getRemainingLockTime (s : RedisServer) (ip : String) : ℤ :=
  if 0 < s.ttl (failedKey ip) then s.ttl (failedKey ip) else 0

/-- `reset`. -/
def reset (s : RedisServer) (ip : String) : RedisServer := (s.delete (failedKey ip)).2

end RedisLoginLimiter

/-- The key of a command. -/
def RedisOp.key : RedisOp → Option String
  | .now => none
  | .incr key | .expire key _ | .ttl key | .delete key => some key

/-- **A step of the server**: time passes, an operation of the limiter that writes, or a command
that somebody else sends. -/
inductive LoginMove
  | wait (d : ℕ)
  | recordFailedLogin (ip : String)
  | reset (ip : String)
  | command (o : RedisOp)
deriving DecidableEq

namespace LoginMove

/-- The clock after a step that starts at `T`. -/
def clockAfter (T : Instant) : LoginMove → Instant
  | .wait d => T + d
  | _ => T

/-- The failures of a key recorded since its last reset, after a step that starts at `T`. -/
def note (ip : String) (T : Instant) (log : List Instant) : LoginMove → List Instant
  | .recordFailedLogin k => if k = ip then log ++ [T] else log
  | .reset k => if k = ip then [] else log
  | _ => log

/-- **The failures of a key recorded since its last reset**, after steps that start at `T`. -/
def sinceReset (ip : String) : Instant → List Instant → List LoginMove → List Instant
  | _, log, [] => log
  | T, log, m :: ms => sinceReset ip (m.clockAfter T) (m.note ip T log) ms

/-- A command of somebody else does not name the key of the limiter. -/
def Spares (ip : String) : LoginMove → Prop
  | .command o => o.key ≠ some (RedisLoginLimiter.failedKey ip)
  | _ => True

instance (ip : String) : DecidablePred (Spares ip) := fun m => by
  cases m <;> unfold Spares <;> infer_instance

end LoginMove

namespace RedisServer

/-- The server after a step. -/
def move (cfg : RateLimitConfig) (s : RedisServer) : LoginMove → RedisServer
  | .wait d => s.wait d
  | .recordFailedLogin ip => (RedisLoginLimiter.recordFailedLogin cfg s ip).2
  | .reset ip => RedisLoginLimiter.reset s ip
  | .command o => (s.carryOut o).2

/-- The server after steps. -/
def moves (cfg : RateLimitConfig) (s : RedisServer) (ms : List LoginMove) : RedisServer :=
  ms.foldl (move cfg) s

end RedisServer

/-! ### What a step does to the counter of a key -/

section Steps

variable {cfg : RateLimitConfig} {s : RedisServer} {ip k : String}

open RedisLoginLimiter

/-- Two keys of the limiter are one only for one client. -/
theorem failedKey_inj {ip ip' : String} (h : failedKey ip = failedKey ip') : ip = ip' := by
  have h := congrArg String.toList h
  simp only [failedKey, String.toList_append] at h
  exact String.toList_injective (List.append_cancel_left h)

/-- A key of the rate limiter is not one of the login limiter. -/
theorem windowKey_ne_failedKey (key ip : String) :
    RedisRateLimiter.windowKey key ≠ failedKey ip := by
  intro h
  have h := congrArg (fun s : String => s.toList.head?) h
  simp [RedisRateLimiter.windowKey, failedKey] at h

theorem RedisServer.lookup_wait_eq (s : RedisServer) (d : ℕ) (k : String) :
    (s.wait d).lookup k =
      (s.lookup k).filter fun e => e.expireAt.all fun t => decide (s.clock + d < t) := by
  rw [RedisServer.lookup, RedisServer.lookup, Option.filter_filter]
  refine congrArg (fun p => Option.filter p (s.store k)) (funext fun e => ?_)
  cases e.expireAt with
  | none => rfl
  | some t =>
      change decide (s.clock + d < t) = (decide (s.clock < t) && decide (s.clock + d < t))
      rw [← Bool.decide_and, decide_eq_decide]
      exact ⟨fun h => ⟨lt_of_le_of_lt (RedisServer.clock_le_wait s d) h, h⟩, And.right⟩

/-- What is written under another key is not seen. -/
theorem RedisServer.lookup_write_ne {key : String} (h : k ≠ key) (e : Option RedisEntry) :
    (s.write key e).lookup k = s.lookup k := by
  rw [RedisServer.lookup_write, if_neg h]

/-- A command leaves every counter but its own. -/
theorem RedisServer.lookup_carryOut {o : RedisOp} (h : o.key ≠ some k) :
    (s.carryOut o).2.lookup k = s.lookup k := by
  cases o with
  | now => rfl
  | ttl key => rfl
  | incr key =>
      have hk : k ≠ key := fun heq => h (congrArg some heq.symm)
      rw [RedisServer.carryOut, RedisServer.incr]
      split
      · exact RedisServer.lookup_write_ne hk _
      · exact RedisServer.lookup_write_ne hk _
  | expire key timeout =>
      have hk : k ≠ key := fun heq => h (congrArg some heq.symm)
      rw [RedisServer.carryOut, RedisServer.expire]
      split
      · rfl
      · split
        · exact RedisServer.lookup_write_ne hk _
        · exact RedisServer.lookup_write_ne hk _
  | delete key => exact RedisServer.lookup_write_ne (fun heq => h (congrArg some heq.symm)) _

/-- `EXPIRE … NX` leaves every counter but its own. -/
theorem RedisServer.lookup_expireNx {key : String} (h : k ≠ key) (timeout : ℤ) :
    (s.expireNx key timeout).2.lookup k = s.lookup k := by
  rw [RedisServer.expireNx]
  split
  · exact RedisServer.lookup_carryOut (o := .expire key timeout)
      fun heq => h (Option.some.inj heq).symm
  · rfl

@[simp] theorem RedisServer.clock_expireNx (s : RedisServer) (key : String) (timeout : ℤ) :
    (s.expireNx key timeout).2.clock = s.clock := by
  rw [RedisServer.expireNx]
  split
  · exact RedisServer.clock_carryOut (.expire key timeout) s
  · rfl

/-- **A failure that opens a counter** gives it its time to live. -/
theorem lookup_recordFailedLogin_new (hw : 1 ≤ cfg.lockoutSeconds)
    (h : s.lookup (failedKey ip) = none) :
    (recordFailedLogin cfg s ip).2.lookup (failedKey ip) =
      some ⟨1, some (s.clock + seconds cfg.lockoutSeconds)⟩ := by
  have hpos : s.clock < s.clock + seconds cfg.lockoutSeconds :=
    Int.lt_add_of_pos_right _ (by simp only [seconds]; omega)
  have hnew : (s.write (failedKey ip) (some ⟨1, none⟩)).lookup (failedKey ip) =
      some ⟨1, none⟩ := by
    rw [RedisServer.lookup_write, if_pos rfl]
    rfl
  rw [recordFailedLogin, RedisServer.incr_new h]
  dsimp only
  rw [RedisServer.expireNx, hnew]
  dsimp only
  rw [RedisServer.expire, hnew]
  dsimp only
  rw [if_neg (by omega), RedisServer.lookup_write, if_pos rfl]
  simp [Option.filter_some, hpos]

/-- **A failure that finds a counter** leaves its time to live. -/
theorem lookup_recordFailedLogin_old {v : ℤ} {t : Instant}
    (h : s.lookup (failedKey ip) = some ⟨v, some t⟩) :
    (recordFailedLogin cfg s ip).2.lookup (failedKey ip) = some ⟨v + 1, some t⟩ := by
  have hlive := (RedisServer.lookup_eq_some.mp h).2 t rfl
  have hold : (s.write (failedKey ip) (some ⟨v + 1, some t⟩)).lookup (failedKey ip) =
      some ⟨v + 1, some t⟩ := by
    rw [RedisServer.lookup_write, if_pos rfl]
    simp [Option.filter_some, hlive]
  rw [recordFailedLogin, RedisServer.incr_old h]
  dsimp only
  rw [RedisServer.expireNx, hold]
  exact hold

/-- A failure of another client. -/
theorem lookup_recordFailedLogin_ne {ip' : String} (h : ip ≠ ip') :
    (recordFailedLogin cfg s ip').2.lookup (failedKey ip) = s.lookup (failedKey ip) := by
  have hk : failedKey ip ≠ failedKey ip' := fun heq => h (failedKey_inj heq)
  rw [recordFailedLogin]
  exact (RedisServer.lookup_expireNx hk _).trans
    (RedisServer.lookup_carryOut (o := .incr (failedKey ip')) fun heq =>
      hk (Option.some.inj heq).symm)

/-- The clock after a step. -/
theorem clock_move (cfg : RateLimitConfig) (s : RedisServer) (m : LoginMove) :
    (s.move cfg m).clock = m.clockAfter s.clock := by
  cases m with
  | wait d => rfl
  | recordFailedLogin k =>
      exact (RedisServer.clock_expireNx _ _ _).trans (RedisServer.clock_carryOut (.incr _) s)
  | reset k => rfl
  | command o => exact RedisServer.clock_carryOut o s

end Steps

/-! ### The server stores a fixed-window counter -/

section Refinement

variable {cfg : RateLimitConfig} {s : RedisServer} {ip : String} {log : List Instant}

open RedisLoginLimiter

/-- The entry that stores a counter. -/
def stored (w : Instant) (k : Counter Instant) : RedisEntry := ⟨k.hits, some (k.opened + w)⟩

/-- **The server stores the counter of the failures** of a client since its last reset. -/
structure StoresFailures (cfg : RateLimitConfig) (ip : String) (log : List Instant)
    (s : RedisServer) : Prop where
  past : ∀ ts ∈ log, ts ≤ s.clock
  tracks : FixedWindow.Tracks (seconds cfg.lockoutSeconds) log (run (seconds cfg.lockoutSeconds) log)
  entry : s.lookup (failedKey ip) =
    (live (seconds cfg.lockoutSeconds) s.clock (run (seconds cfg.lockoutSeconds) log)).map
      (stored (seconds cfg.lockoutSeconds))

/-- A server without a counter. -/
theorem storesFailures_nil (h : s.lookup (failedKey ip) = none) : StoresFailures cfg ip [] s :=
  ⟨fun _ h => absurd h List.not_mem_nil, rfl, h⟩

/-- A step that is not about the client. -/
theorem StoresFailures.other {s' : RedisServer} (h : StoresFailures cfg ip log s)
    (hclock : s'.clock = s.clock)
    (hlookup : s'.lookup (failedKey ip) = s.lookup (failedKey ip)) :
    StoresFailures cfg ip log s' :=
  ⟨hclock.symm ▸ h.past, h.tracks, by rw [hlookup, hclock, h.entry]⟩

/-- Time passes. -/
theorem StoresFailures.wait (h : StoresFailures cfg ip log s) (d : ℕ) :
    StoresFailures cfg ip log (s.wait d) := by
  have hle := RedisServer.clock_le_wait s d
  refine ⟨fun ts hts => (h.past ts hts).trans hle, h.tracks, ?_⟩
  rw [RedisServer.lookup_wait_eq, h.entry, Option.filter_map]
  exact congrArg (Option.map (stored (seconds cfg.lockoutSeconds)))
    (live_later hle (run (seconds cfg.lockoutSeconds) log))

/-- **A failure of the client.** -/
theorem StoresFailures.record (h : StoresFailures cfg ip log s) (hw : 1 ≤ cfg.lockoutSeconds) :
    StoresFailures cfg ip (log ++ [s.clock]) (recordFailedLogin cfg s ip).2 := by
  have hpos : 0 < seconds cfg.lockoutSeconds := by
    simp only [seconds]
    omega
  have hclock : (recordFailedLogin cfg s ip).2.clock = s.clock :=
    clock_move cfg s (.recordFailedLogin ip)
  refine ⟨fun ts hts => ?_, run_append (w := seconds cfg.lockoutSeconds) log s.clock ▸
    h.tracks.hit hpos h.past, ?_⟩
  · rw [hclock]
    rcases List.mem_append.mp hts with hts | hts
    · exact h.past ts hts
    · exact (List.mem_singleton.mp hts).le
  · have hentry := h.entry
    rw [hclock, run_append, hit]
    cases hlive : live (seconds cfg.lockoutSeconds) s.clock
        (run (seconds cfg.lockoutSeconds) log) with
    | none =>
        rw [hlive] at hentry
        rw [lookup_recordFailedLogin_new hw hentry,
          live_of_lt (Int.lt_add_of_pos_right s.clock hpos)]
        rfl
    | some k =>
        rw [hlive] at hentry
        rw [lookup_recordFailedLogin_old hentry, live_of_lt (k := ⟨k.hits + 1, k.opened⟩)
          (of_decide_eq_true (Option.filter_eq_some_iff.mp hlive).2)]
        rfl

/-- **One step.** -/
theorem StoresFailures.move (h : StoresFailures cfg ip log s) (hw : 1 ≤ cfg.lockoutSeconds)
    {m : LoginMove} (hm : m.Spares ip) :
    StoresFailures cfg ip (m.note ip s.clock log) (s.move cfg m) := by
  cases m with
  | wait d => exact h.wait d
  | recordFailedLogin k =>
      rw [LoginMove.note]
      split
      · rename_i hk
        exact hk ▸ h.record hw
      · rename_i hk
        exact h.other (clock_move cfg s (.recordFailedLogin k))
          (lookup_recordFailedLogin_ne (Ne.symm hk))
  | reset k =>
      rw [LoginMove.note]
      split
      · rename_i hk
        subst hk
        refine storesFailures_nil ?_
        change (s.write (failedKey k) none).lookup (failedKey k) = none
        rw [RedisServer.lookup_write, if_pos rfl]
        rfl
      · rename_i hk
        exact h.other rfl (RedisServer.lookup_carryOut (o := .delete (failedKey k)) fun heq =>
          hk (failedKey_inj (Option.some.inj heq)))
  | command o =>
      exact h.other (RedisServer.clock_carryOut o s) (RedisServer.lookup_carryOut hm)

/-- **Any sequence of steps.** -/
theorem StoresFailures.moves (hw : 1 ≤ cfg.lockoutSeconds) {ms : List LoginMove}
    (hms : ∀ m ∈ ms, m.Spares ip) (h : StoresFailures cfg ip log s) :
    StoresFailures cfg ip (LoginMove.sinceReset ip s.clock log ms) (s.moves cfg ms) := by
  induction ms generalizing s log with
  | nil => exact h
  | cons m ms ih =>
      have hrest := ih (fun m' hm' => hms m' (List.mem_cons_of_mem m hm'))
        (h.move hw (hms m List.mem_cons_self))
      rw [clock_move] at hrest
      exact hrest

/-- What the limiter answers, by the counter. -/
theorem StoresFailures.isLocked_iff (h : StoresFailures cfg ip log s)
    (hmax : 1 ≤ cfg.maxLoginAttempts) : isLocked cfg s ip = true ↔
      cfg.maxLoginAttempts ≤ count (seconds cfg.lockoutSeconds) s.clock
        (run (seconds cfg.lockoutSeconds) log) := by
  rw [isLocked, RedisServer.get, h.entry, count]
  cases live (seconds cfg.lockoutSeconds) s.clock (run (seconds cfg.lockoutSeconds) log) with
  | none =>
      refine iff_of_false (by simp) ?_
      change ¬ cfg.maxLoginAttempts ≤ ((0 : ℕ) : ℤ)
      omega
  | some k => exact decide_eq_true_iff

/-- A step keeps the end of the window, or the counter goes. -/
theorem expireAt_move {v : ℤ} {t : Instant} (h : s.lookup (failedKey ip) = some ⟨v, some t⟩)
    {m : LoginMove} (hm : m.Spares ip) :
    (s.move cfg m).lookup (failedKey ip) = none ∨
      ∃ v', (s.move cfg m).lookup (failedKey ip) = some ⟨v', some t⟩ := by
  cases m with
  | wait d =>
      change (s.wait d).lookup _ = none ∨ ∃ v', (s.wait d).lookup _ = _
      rw [RedisServer.lookup_wait_eq, h, Option.filter_some]
      split
      · exact Or.inr ⟨v, rfl⟩
      · exact Or.inl rfl
  | recordFailedLogin k =>
      by_cases hk : ip = k
      · subst hk
        exact Or.inr ⟨v + 1, lookup_recordFailedLogin_old h⟩
      · exact Or.inr ⟨v, (lookup_recordFailedLogin_ne hk).trans h⟩
  | reset k =>
      by_cases hk : ip = k
      · subst hk
        refine Or.inl ?_
        change (s.write (failedKey ip) none).lookup (failedKey ip) = none
        rw [RedisServer.lookup_write, if_pos rfl]
        rfl
      · refine Or.inr ⟨v, (RedisServer.lookup_carryOut (o := .delete (failedKey k)) ?_).trans h⟩
        exact fun heq => hk (failedKey_inj (Option.some.inj heq)).symm
  | command o => exact Or.inr ⟨v, (RedisServer.lookup_carryOut hm).trans h⟩

/-- **A counter is gone at some point before its window would end.** -/
theorem counter_goes {t : Instant} {ms : List LoginMove} (hms : ∀ m ∈ ms, m.Spares ip)
    (h : s.lookup (failedKey ip) = none ∨ ∃ v, s.lookup (failedKey ip) = some ⟨v, some t⟩)
    (hend : t ≤ (s.moves cfg ms).clock) :
    ∃ n ≤ ms.length, (s.moves cfg (ms.take n)).lookup (failedKey ip) = none := by
  induction ms generalizing s with
  | nil =>
      rcases h with h | ⟨v, h⟩
      · exact ⟨0, le_rfl, h⟩
      · exact absurd ((RedisServer.lookup_eq_some.mp h).2 t rfl) (not_lt.mpr hend)
  | cons m ms ih =>
      rcases h with h | ⟨v, h⟩
      · exact ⟨0, Nat.zero_le _, h⟩
      · obtain ⟨n, hn, hgone⟩ := ih (fun m' hm' => hms m' (List.mem_cons_of_mem m hm'))
          (expireAt_move h (hms m List.mem_cons_self)) hend
        exact ⟨n + 1, Nat.succ_le_succ hn, hgone⟩

/-- A time to live, rounded to seconds. -/
theorem rounded_le {a b w : ℤ} (h : a ≤ b) : (a + seconds w - b + 500000) / 1000000 ≤ w := by
  rw [seconds]
  omega

/-- The lock time that is left. -/
theorem StoresFailures.remaining_le (h : StoresFailures cfg ip log s)
    (hw : 1 ≤ cfg.lockoutSeconds) :
    0 ≤ getRemainingLockTime s ip ∧ getRemainingLockTime s ip ≤ cfg.lockoutSeconds := by
  have httl : s.ttl (failedKey ip) ≤ cfg.lockoutSeconds := by
    rw [RedisServer.ttl, h.entry]
    cases hrun : run (seconds cfg.lockoutSeconds) log with
    | none =>
        change (-2 : ℤ) ≤ cfg.lockoutSeconds
        omega
    | some k =>
        have hknows := h.tracks
        rw [hrun] at hknows
        have hopened : k.opened ≤ s.clock := h.past _ (Knows.opened hknows)
        rcases lt_or_ge s.clock (k.opened + seconds cfg.lockoutSeconds) with hlive | hover
        · rw [live_of_lt hlive]
          exact rounded_le hopened
        · rw [live_of_le hover]
          change (-2 : ℤ) ≤ cfg.lockoutSeconds
          omega
  rw [getRemainingLockTime]
  split
  · exact ⟨by omega, httl⟩
  · exact ⟨le_rfl, by omega⟩

/-- **The lock of a key, exactly.** After any steps of any number of processes, with any commands
of others on other keys in between: a key is locked if and only if the window that is open now
counts `max_login_attempts` failures, of those recorded since the last reset; the lock time it
reports is not longer than a lockout; and however the steps go on, within a lockout there is a
point at which the key is not locked. -/
theorem redis_lock_exact (hmax : 1 ≤ cfg.maxLoginAttempts) (hw : 1 ≤ cfg.lockoutSeconds)
    {s₀ : RedisServer} (hfresh : s₀.lookup (failedKey ip) = none) {ms : List LoginMove}
    (hms : ∀ m ∈ ms, m.Spares ip) :
    let s := s₀.moves cfg ms
    let window := seconds cfg.lockoutSeconds
    (isLocked cfg s ip = true ↔ cfg.maxLoginAttempts ≤
      count window s.clock (run window (LoginMove.sinceReset ip s₀.clock [] ms))) ∧
    (0 ≤ getRemainingLockTime s ip ∧ getRemainingLockTime s ip ≤ cfg.lockoutSeconds) ∧
    ∀ ms', (∀ m ∈ ms', m.Spares ip) → s.clock + window ≤ (s.moves cfg ms').clock →
      ∃ n ≤ ms'.length, isLocked cfg (s.moves cfg (ms'.take n)) ip = false := by
  intro s window
  have hs : StoresFailures cfg ip (LoginMove.sinceReset ip s₀.clock [] ms) s :=
    (storesFailures_nil hfresh).moves hw hms
  refine ⟨hs.isLocked_iff hmax, hs.remaining_le hw, fun ms' hms' hend => ?_⟩
  have hentry := hs.entry
  obtain ⟨n, hn, hgone⟩ : ∃ n ≤ ms'.length,
      (s.moves cfg (ms'.take n)).lookup (failedKey ip) = none := by
    cases hrun : run window (LoginMove.sinceReset ip s₀.clock [] ms) with
    | none =>
        rw [hrun] at hentry
        exact counter_goes (t := s.clock + window) hms' (Or.inl hentry) hend
    | some k =>
        have hknows := hs.tracks
        rw [hrun] at hknows hentry
        have hopened : k.opened ≤ s.clock := hs.past _ (Knows.opened hknows)
        refine counter_goes (t := k.opened + window) hms' ?_
          ((Int.add_le_add_right hopened window).trans hend)
        rcases lt_or_ge s.clock (k.opened + window) with hlive | hover
        · rw [live_of_lt hlive] at hentry
          exact Or.inr ⟨_, hentry⟩
        · rw [live_of_le hover] at hentry
          exact Or.inl hentry
  refine ⟨n, hn, ?_⟩
  rw [isLocked, RedisServer.get, hgone]
  rfl

end Refinement

/-! ### The same steps in memory -/

namespace LoginMove

/-- The operation that a step at `T` is for the limiter in memory, if it is one. -/
def call (T : Instant) : LoginMove → List LoginCall
  | .recordFailedLogin ip => [.recordFailedLogin ip T T]
  | .reset ip => [.reset ip]
  | _ => []

/-- The operations that steps from `T` on are for the limiter in memory. -/
def calls : Instant → List LoginMove → List LoginCall
  | _, [] => []
  | T, m :: ms => m.call T ++ calls (m.clockAfter T) ms

end LoginMove

section Memory

variable {cfg : RateLimitConfig} {st : Limiter} {T : Instant} {ip : String} {log : List Instant}

open RedisLoginLimiter

theorem Failures.mono {T' : Instant} (h : Failures cfg T ip log st) (hT : T ≤ T') :
    Failures cfg T' ip log st :=
  ⟨h.nodup, h.same.mono (Int.sub_le_sub_right hT _)⟩

/-- A reset of the key. -/
theorem Failures.reset (h : Failures cfg T ip log st) :
    Failures cfg T ip [] (LoginLimiter.reset st ip) := by
  refine ⟨Buckets.nodup_drop _ h.nodup, ?_⟩
  change SameFrom _ (Buckets.bucket (Dict.drop [ip] st.buckets) ip) []
  rw [Buckets.bucket_drop, if_pos List.mem_cons_self]
  exact .refl _ _

/-- **One step.** -/
theorem Failures.move (h : Failures cfg T ip log st) (hw : 1 ≤ cfg.lockoutSeconds) (m : LoginMove)
    (huncapped : st.LoginsUncapped cfg (m.call T)) :
    Failures cfg (m.clockAfter T) ip (m.note ip T log) (st.logins cfg (m.call T)) := by
  cases m with
  | wait d => exact h.mono (Int.le_add_of_nonneg_right (Int.natCast_nonneg d))
  | command o => exact h
  | recordFailedLogin k =>
      have hcall := h.call hw (c := .recordFailedLogin k T T) ⟨le_rfl, le_rfl⟩ (by simp)
        huncapped.1
      rw [LoginCall.failures, LoginCall.failures] at hcall
      rw [LoginMove.note]
      split
      · rename_i hk
        rw [if_pos hk] at hcall
        exact hcall
      · rename_i hk
        rw [if_neg hk, List.append_nil] at hcall
        exact hcall
  | reset k =>
      rw [LoginMove.note]
      split
      · rename_i hk
        exact hk ▸ h.reset
      · rename_i hk
        have hcall : Failures cfg T ip (log ++ []) (LoginLimiter.reset st k) :=
          h.call hw (c := .reset k) trivial (by simpa using hk) huncapped.1
        rw [List.append_nil] at hcall
        exact hcall

theorem loginsUncapped_append {calls calls' : List LoginCall} :
    st.LoginsUncapped cfg (calls ++ calls') ↔
      st.LoginsUncapped cfg calls ∧ (st.logins cfg calls).LoginsUncapped cfg calls' := by
  induction calls generalizing st with
  | nil => exact (iff_of_eq (true_and _)).symm
  | cons c calls ih =>
      change _ ∧ (st.login cfg c).LoginsUncapped cfg (calls ++ calls') ↔ (_ ∧ _) ∧ _
      rw [ih, and_assoc]
      rfl

/-- **Any sequence of steps.** -/
theorem Failures.moves (hw : 1 ≤ cfg.lockoutSeconds) (ms : List LoginMove) {s : RedisServer}
    (h : Failures cfg s.clock ip log st)
    (huncapped : st.LoginsUncapped cfg (LoginMove.calls s.clock ms)) :
    Failures cfg (s.moves cfg ms).clock ip (LoginMove.sinceReset ip s.clock log ms)
      (st.logins cfg (LoginMove.calls s.clock ms)) := by
  induction ms generalizing s st log with
  | nil => exact h
  | cons m ms ih =>
      obtain ⟨hfirst, hrest⟩ := loginsUncapped_append.mp huncapped
      have hstep := h.move hw m hfirst
      rw [← clock_move cfg s m] at hstep hrest
      have hall := ih hstep hrest
      rw [clock_move] at hall
      have hcalls : st.logins cfg (LoginMove.calls s.clock (m :: ms)) =
          (st.logins cfg (m.call s.clock)).logins cfg
            (LoginMove.calls (m.clockAfter s.clock) ms) := List.foldl_append
      rw [hcalls]
      exact hall

/-- What the limiter in memory answers, by the log. -/
theorem Failures.isLocked_iff (h : Failures cfg T ip log st) :
    LoginLimiter.isLocked cfg st ip T = true ↔
      cfg.maxLoginAttempts ≤ (recent (T - seconds cfg.lockoutSeconds) log).length := by
  rw [LoginLimiter.isLocked, LoginLimiter.recentAttempts, h.same _ le_rfl, decide_eq_true_eq]

/-- **A key that is locked on the server is locked in memory**: whatever the steps, the backend
that keeps a number is never the stricter one, as long as the other drops no bucket for its cap. -/
theorem redis_locked_memory_locked (hmax : 1 ≤ cfg.maxLoginAttempts) (hw : 1 ≤ cfg.lockoutSeconds)
    {s₀ : RedisServer} (hfresh : s₀.lookup (failedKey ip) = none) {ms : List LoginMove}
    (hms : ∀ m ∈ ms, m.Spares ip) {created : Instant}
    (huncapped : (Limiter.new created).LoginsUncapped cfg (LoginMove.calls s₀.clock ms))
    (hlocked : isLocked cfg (s₀.moves cfg ms) ip = true) :
    LoginLimiter.isLocked cfg
      ((Limiter.new created).logins cfg (LoginMove.calls s₀.clock ms)) ip
      (s₀.moves cfg ms).clock = true := by
  have hserver := (storesFailures_nil hfresh).moves hw hms
  have hstart : Failures cfg s₀.clock ip [] (Limiter.new created) := ⟨List.nodup_nil, .refl _ _⟩
  have hmemory := hstart.moves hw ms huncapped
  rw [hmemory.isLocked_iff]
  refine ((hserver.isLocked_iff hmax).mp hlocked).trans ?_
  exact_mod_cast hserver.tracks.count_le_recent _

end Memory

/-! ### How many guesses are let through -/

/-- **Every failure of the client was let through**: the key is not locked where it is recorded. -/
def RedisServer.Gated (cfg : RateLimitConfig) (ip : String) : RedisServer → List LoginMove → Prop
  | _, [] => True
  | s, m :: ms =>
      (m = .recordFailedLogin ip → RedisLoginLimiter.isLocked cfg s ip = false) ∧
        Gated cfg ip (s.move cfg m) ms

instance RedisServer.instDecidableGated (cfg : RateLimitConfig) (ip : String) :
    ∀ (s : RedisServer) (ms : List LoginMove), Decidable (s.Gated cfg ip ms)
  | _, [] => isTrue trivial
  | s, m :: ms =>
      have := RedisServer.instDecidableGated cfg ip (s.move cfg m) ms
      inferInstanceAs (Decidable ((m = .recordFailedLogin ip →
        RedisLoginLimiter.isLocked cfg s ip = false) ∧ Gated cfg ip (s.move cfg m) ms))

/-- The same in memory. -/
def Limiter.Gated (cfg : RateLimitConfig) (ip : String) :
    Instant → Limiter → List LoginMove → Prop
  | _, _, [] => True
  | T, st, m :: ms =>
      (m = .recordFailedLogin ip → LoginLimiter.isLocked cfg st ip T = false) ∧
        Gated cfg ip (m.clockAfter T) (st.logins cfg (m.call T)) ms

section Guesses

variable {cfg : RateLimitConfig} {ip : String} {log : List Instant} {ms : List LoginMove}

open RedisLoginLimiter

/-- A step that is neither a failure nor a reset of the client. -/
theorem LoginMove.note_other {m : LoginMove} {T : Instant} (hrecord : m ≠ .recordFailedLogin ip)
    (hreset : m ≠ .reset ip) : m.note ip T log = log := by
  cases m with
  | recordFailedLogin k => exact if_neg fun hk : k = ip => hrecord (hk ▸ rfl)
  | reset k => exact if_neg fun hk : k = ip => hreset (hk ▸ rfl)
  | _ => rfl

/-- **On the server**: fewer than twice as many as the limit says. -/
theorem StoresFailures.limits (hmax : 1 ≤ cfg.maxLoginAttempts) (hw : 1 ≤ cfg.lockoutSeconds)
    {s : RedisServer} (hms : ∀ m ∈ ms, m.Spares ip) (hreset : .reset ip ∉ ms)
    (hgated : s.Gated cfg ip ms) (h : StoresFailures cfg ip log s)
    (hlimits : Limits (seconds cfg.lockoutSeconds) cfg.maxLoginAttempts.toNat log
      (run (seconds cfg.lockoutSeconds) log)) :
    Limited (seconds cfg.lockoutSeconds) (2 * cfg.maxLoginAttempts.toNat - 1)
      (LoginMove.sinceReset ip s.clock log ms) := by
  induction ms generalizing s log with
  | nil => exact hlimits.limited
  | cons m ms ih =>
      have hstep := h.move hw (hms m List.mem_cons_self)
      rw [LoginMove.sinceReset, ← clock_move cfg s m]
      refine ih (fun m' hm' => hms m' (List.mem_cons_of_mem m hm'))
        (fun hmem => hreset (List.mem_cons_of_mem m hmem)) hgated.2 hstep ?_
      by_cases hm : m = .recordFailedLogin ip
      · subst hm
        have hunlocked := hgated.1 rfl
        have hroom := mt (h.isLocked_iff hmax).mpr (by rw [hunlocked]; exact Bool.false_ne_true)
        have hpos : 0 < seconds cfg.lockoutSeconds := by
          simp only [seconds]
          omega
        rw [LoginMove.note, if_pos rfl, run_append]
        exact hlimits.hit hpos h.past (by omega)
      · rw [LoginMove.note_other hm fun heq => hreset (heq ▸ List.mem_cons_self)]
        exact hlimits

/-- **In memory**: no more than the limit says. -/
theorem Failures.limited (hw : 1 ≤ cfg.lockoutSeconds) {T : Instant} {st : Limiter}
    (hreset : .reset ip ∉ ms) (huncapped : st.LoginsUncapped cfg (LoginMove.calls T ms))
    (hgated : st.Gated cfg ip T ms) (h : Failures cfg T ip log st)
    (hlimited : Limited (seconds cfg.lockoutSeconds) cfg.maxLoginAttempts.toNat log) :
    Limited (seconds cfg.lockoutSeconds) cfg.maxLoginAttempts.toNat
      (LoginMove.sinceReset ip T log ms) := by
  induction ms generalizing T st log with
  | nil => exact hlimited
  | cons m ms ih =>
      obtain ⟨hfirst, hrest⟩ := loginsUncapped_append.mp huncapped
      refine ih (fun hmem => hreset (List.mem_cons_of_mem m hmem)) hrest hgated.2
        (h.move hw m hfirst) ?_
      by_cases hm : m = .recordFailedLogin ip
      · subst hm
        have hunlocked := hgated.1 rfl
        have hroom := mt h.isLocked_iff.mpr (by rw [hunlocked]; exact Bool.false_ne_true)
        rw [LoginMove.note, if_pos rfl]
        exact hlimited.append (by omega)
      · rw [LoginMove.note_other hm fun heq => hreset (heq ▸ List.mem_cons_self)]
        exact hlimited

/-- **How many guesses are let through.** As long as the key is not reset and no failure is
recorded where the key is locked, any `lockout_seconds` see at most `max_login_attempts` failures
with the backend in memory, and at most one less than twice as many with the server: the end of
one window and the start of the next. -/
theorem guesses_limited (hmax : 1 ≤ cfg.maxLoginAttempts) (hw : 1 ≤ cfg.lockoutSeconds)
    {s₀ : RedisServer} (hfresh : s₀.lookup (failedKey ip) = none)
    (hms : ∀ m ∈ ms, m.Spares ip) (hreset : .reset ip ∉ ms) :
    let failures := LoginMove.sinceReset ip s₀.clock [] ms
    (s₀.Gated cfg ip ms → Limited (seconds cfg.lockoutSeconds)
      (2 * cfg.maxLoginAttempts.toNat - 1) failures) ∧
    ∀ created, (Limiter.new created).LoginsUncapped cfg (LoginMove.calls s₀.clock ms) →
      (Limiter.new created).Gated cfg ip s₀.clock ms →
        Limited (seconds cfg.lockoutSeconds) cfg.maxLoginAttempts.toNat failures :=
  ⟨fun hgated => (storesFailures_nil hfresh).limits hmax hw hms hreset hgated limits_nil,
    fun _ huncapped hgated => Failures.limited hw hreset huncapped hgated
      ⟨List.nodup_nil, .refl _ _⟩ limited_nil⟩

end Guesses

namespace Reference

/-- Two failures lock a key. -/
def twoAttempts : RateLimitConfig := { maxLoginAttempts := 2 }

/-- Two failures of a client, and a check of the rate limiter in between. -/
def twoFailures : List LoginMove :=
  [.recordFailedLogin "victim", .wait 1000000,
    .command (.incr (RedisRateLimiter.windowKey "login:victim")), .recordFailedLogin "victim"]

/-- Four guesses around the end of a window. -/
def fourGuesses : List LoginMove :=
  [.recordFailedLogin "victim", .wait 899000000, .recordFailedLogin "victim", .wait 1000000,
    .recordFailedLogin "victim", .recordFailedLogin "victim"]

end Reference

open Reference

theorem twoFailures_spare : ∀ m ∈ twoFailures, m.Spares "victim" := by
  intro m hm
  simp only [twoFailures, List.mem_cons, List.not_mem_nil, or_false] at hm
  rcases hm with rfl | rfl | rfl | rfl
  · trivial
  · trivial
  · exact fun heq => windowKey_ne_failedKey _ _ (Option.some.inj heq)
  · trivial

/-- The second failure locks the key, and a lockout later it is not locked. -/
theorem two_failures_lock :
    RedisLoginLimiter.isLocked twoAttempts (redisServer.moves twoAttempts twoFailures) "victim" =
        true ∧
      ∃ n ≤ 1, RedisLoginLimiter.isLocked twoAttempts ((redisServer.moves twoAttempts
        twoFailures).moves twoAttempts (List.take n [.wait 900000000])) "victim" = false := by
  obtain ⟨hlocked, -, hends⟩ := @redis_lock_exact twoAttempts "victim" (by decide) (by decide)
    redisServer rfl _ twoFailures_spare
  exact ⟨hlocked.mpr (by decide +kernel), hends [.wait 900000000] (by decide) (by decide +kernel)⟩

/-- Both backends have locked the key. -/
theorem two_failures_lock_memory :
    LoginLimiter.isLocked twoAttempts
      ((Limiter.new 0).logins twoAttempts (LoginMove.calls redisServer.clock twoFailures)) "victim"
      (redisServer.moves twoAttempts twoFailures).clock = true :=
  redis_locked_memory_locked (by decide) (by decide) rfl twoFailures_spare (by decide +kernel)
    (by decide +kernel)

/-- **The bound is reached**: three of the four guesses fall into one lockout. -/
theorem bound_reached :
    let failures := LoginMove.sinceReset "victim" redisServer.clock [] fourGuesses
    Limited (seconds 900) 3 failures ∧
      (window (seconds 900) (redisServer.moves twoAttempts fourGuesses).clock failures).length =
        3 :=
  ⟨(@guesses_limited twoAttempts "victim" fourGuesses (by decide) (by decide) redisServer rfl
    (by decide) (by decide)).1 (by decide +kernel), by decide +kernel⟩

end BackendTemplate
