import BackendTemplate.Interleave
import BackendTemplate.RateLimiter

/-!
# The Redis Rate Limiter

`RedisRateLimiter.check` counts on the server: `INCR` on the counter of the key, `EXPIRE` by the
check whose `INCR` answered one, `TTL`. Each command is atomic, the three of them are not, and a
caller may stop between two of them: its process dies, the command times out, the request is
cancelled. A counter that nobody gives a time to live stays.

## Main results

* `ExpireDue` — the check that created a counter and has not sent its `EXPIRE` yet.
* `counter_expires` — as long as no such check stops, a counter without a time to live has one, and
  a refused key is allowed a check again once the window is over.
* `key_blocked_for_good` — what is left when one stops.
-/

namespace BackendTemplate

open Atomic

/-! ### The server -/

/-- A counter: its value, and the instant it expires if it does. -/
structure RedisEntry where
  value : ℤ
  expireAt : Option Instant
deriving DecidableEq

/-- A server: its counters by key, and its clock. -/
structure RedisServer where
  store : String → Option RedisEntry
  clock : Instant

namespace RedisServer

/-- The counter of a key: one that has expired is not there. -/
def lookup (s : RedisServer) (key : String) : Option RedisEntry :=
  (s.store key).filter fun e => e.expireAt.all fun t => decide (s.clock < t)

/-- Write or delete the counter of a key. -/
def write (s : RedisServer) (key : String) (e : Option RedisEntry) : RedisServer :=
  { s with store := Function.update s.store key e }

/-- Time passes. -/
def wait (d : ℕ) (s : RedisServer) : RedisServer := { s with clock := s.clock + d }

/-- `INCR`: a new counter has no time to live, an old one keeps what it has. -/
def incr (s : RedisServer) (key : String) : ℤ × RedisServer :=
  match s.lookup key with
  | none => (1, s.write key (some ⟨1, none⟩))
  | some e => (e.value + 1, s.write key (some ⟨e.value + 1, e.expireAt⟩))

/-- `EXPIRE`: a timeout that is not positive deletes the key. -/
def expire (s : RedisServer) (key : String) (timeout : ℤ) : Bool × RedisServer :=
  match s.lookup key with
  | none => (false, s)
  | some e =>
      if timeout ≤ 0 then (true, s.write key none)
      else (true, s.write key (some ⟨e.value, some (s.clock + seconds timeout)⟩))

/-- `TTL`: in seconds, rounded; `-2` without a key, `-1` without a time to live. -/
def ttl (s : RedisServer) (key : String) : ℤ :=
  match s.lookup key with
  | none => -2
  | some ⟨_, none⟩ => -1
  | some ⟨_, some t⟩ => (t - s.clock + 500000) / 1000000

/-- `DEL`: the number of keys it removed. -/
def delete (s : RedisServer) (key : String) : ℤ × RedisServer :=
  (if (s.lookup key).isSome then 1 else 0, s.write key none)

end RedisServer

/-- What a limiter asks for: the time, or a command of the server. -/
inductive RedisOp
  | now
  | incr (key : String)
  | expire (key : String) (timeout : ℤ)
  | ttl (key : String)
  | delete (key : String)
deriving DecidableEq

/-- The reply of a command. -/
abbrev RedisOp.Reply : RedisOp → Type
  | .now => Instant
  | .incr _ | .ttl _ | .delete _ => ℤ
  | .expire _ _ => Bool

/-- A caller that stops: the exception its command ends with, if it lives to see one. -/
inductive Stopped
  | stopped
deriving DecidableEq

/-- The commands as calls. A caller gets the reply of its command, or it stops there. -/
abbrev RedisSig : Sig := ⟨RedisOp, fun o => Except Stopped o.Reply⟩

/-- A command carried out by the server. -/
def RedisServer.carryOut : (o : RedisOp) → RedisServer → o.Reply × RedisServer
  | .now, s => (s.clock, s)
  | .incr key, s => s.incr key
  | .expire key timeout, s => s.expire key timeout
  | .ttl key, s => (s.ttl key, s)
  | .delete key, s => s.delete key

/-! ### The limiter -/

/-- A program of the limiter. -/
abbrev RedisProg := Prog RedisSig Stopped

/-- Send a command and wait for its reply. -/
def send (o : RedisOp) : RedisProg o.Reply := Prog.perform (S := RedisSig) o >>= Prog.ofExcept

namespace RedisRateLimiter

/-- The key of a counter. -/
def windowKey (key : String) : String := "ratelimit:" ++ key

/-- What a check returns for the count and the time to live it has read. -/
def result (cfg : RateLimitConfig) (now : Instant) (count ttl : ℤ) : RateLimitResult :=
  let resetAt := now + seconds (if 0 < ttl then ttl else cfg.windowSeconds)
  if cfg.maxRequests < count then ⟨false, 0, some resetAt⟩
  else ⟨true, cfg.maxRequests - count, some resetAt⟩

/-- `check`. -/
def check (cfg : RateLimitConfig) (key : String) : RedisProg RateLimitResult := do
  let now ← send .now
  let count ← send (.incr (windowKey key))
  let _ ← if count = 1 then send (.expire (windowKey key) cfg.windowSeconds) else pure false
  let ttl ← send (.ttl (windowKey key))
  return result cfg now count ttl

/-- `reset`. -/
def reset (key : String) : RedisProg Unit := do
  let _ ← send (.delete (windowKey key))
  return ()

end RedisRateLimiter

/-- A request to the limiter. -/
inductive RedisRequest
  | check (key : String)
  | reset (key : String)
deriving DecidableEq

/-- What a request does. A check returns its result. -/
def RedisRequest.prog (cfg : RateLimitConfig) :
    RedisRequest → RedisProg (Option RateLimitResult)
  | .check key => some <$> RedisRateLimiter.check cfg key
  | .reset key => (fun _ => none) <$> RedisRateLimiter.reset key

/-! ### One caller -/

/-- The server of a caller that is alone with it: so much time passes before each command, and the
reply always arrives. -/
def RedisServer.answer (o : RedisOp) (s : RedisServer × List ℕ) :
    Except Stopped o.Reply × (RedisServer × List ℕ) :=
  let server := s.1.wait (s.2.headD 0)
  (.ok (server.carryOut o).1, ((server.carryOut o).2, s.2.tail))

/-- The outcome of a check alone with the server. -/
def RedisServer.checkAlone (cfg : RateLimitConfig) (key : String) (s : RedisServer × List ℕ) :
    Except Stopped RateLimitResult × (RedisServer × List ℕ) :=
  (RedisRateLimiter.check cfg key).run RedisServer.answer s

/-! ### Many callers -/

/-- What becomes of a command: it is carried out and its reply arrives, or its caller stops before
it reaches the server, or before its reply arrives. -/
inductive Delivery
  | answered
  | lostBefore
  | lostAfter
deriving DecidableEq

/-- Any number of callers on one server. Time passes as a move of the environment. -/
def redisMachine (ι : Type) : Machine RedisSig ι RedisServer Delivery ℕ where
  exec
    | .answered, _, o, s => some (.ok (s.carryOut o).1, (s.carryOut o).2)
    | .lostBefore, _, _, s => some (.error .stopped, s)
    | .lostAfter, _, o, s => some (.error .stopped, (s.carryOut o).2)
  finish _ s := s
  env := RedisServer.wait

/-- Callers and the server they talk to. -/
abbrev RedisConfig (ι : Type) := Config RedisSig ι RedisServer Stopped (Option RateLimitResult)

/-- Every caller is about to start its request. -/
def startRedis {ι : Type} (cfg : RateLimitConfig) (reqs : ι → RedisRequest) (s : RedisServer) :
    RedisConfig ι := .start s fun i => (reqs i).prog cfg

/-! ### What a command does to a counter -/

namespace RedisServer

variable {s : RedisServer} {k key : String} {e : RedisEntry} {D : Instant}

theorem lookup_write (s : RedisServer) (key k : String) (e : Option RedisEntry) :
    (s.write key e).lookup k =
      if k = key then e.filter fun e => e.expireAt.all fun t => decide (s.clock < t)
      else s.lookup k := by
  rw [lookup, lookup, write]
  dsimp only
  rw [Function.update_apply]
  split <;> rfl

/-- A counter that is there has not expired. -/
theorem lookup_eq_some :
    s.lookup k = some e ↔ s.store k = some e ∧ ∀ t, e.expireAt = some t → s.clock < t := by
  rw [lookup, Option.filter_eq_some_iff, Option.all_eq_true]
  simp only [decide_eq_true_eq]

@[simp] theorem clock_write (s : RedisServer) (key : String) (e : Option RedisEntry) :
    (s.write key e).clock = s.clock := rfl

@[simp] theorem clock_wait (s : RedisServer) (d : ℕ) : (s.wait d).clock = s.clock + d := rfl

theorem clock_le_wait (s : RedisServer) (d : ℕ) : s.clock ≤ (s.wait d).clock :=
  Int.le_add_of_nonneg_right (Int.natCast_nonneg d)

/-- A counter that is there after a while was there before. -/
theorem lookup_of_wait {d : ℕ} (h : (s.wait d).lookup k = some e) : s.lookup k = some e := by
  obtain ⟨hstore, hlive⟩ := lookup_eq_some.mp h
  exact lookup_eq_some.mpr ⟨hstore, fun t ht => lt_of_le_of_lt (clock_le_wait s d) (hlive t ht)⟩

/-- `INCR` on a new counter. -/
theorem incr_new (h : s.lookup k = none) : s.incr k = (1, s.write k (some ⟨1, none⟩)) := by
  rw [incr, h]

/-- `INCR` on a counter that is there. -/
theorem incr_old (h : s.lookup k = some e) :
    s.incr k = (e.value + 1, s.write k (some ⟨e.value + 1, e.expireAt⟩)) := by
  rw [incr, h]

/-- No command moves the clock. -/
@[simp] theorem clock_carryOut (o : RedisOp) (s : RedisServer) :
    (s.carryOut o).2.clock = s.clock := by
  cases o with
  | now => rfl
  | incr key => rw [carryOut, incr]; split <;> rfl
  | expire key timeout => rw [carryOut, expire]; split; rfl; split <;> rfl
  | ttl key => rfl
  | delete key => rfl

/-- The counter, if there is one, has a time to live that ends at `D` or before. -/
def ExpiresBy (s : RedisServer) (k : String) (D : Instant) : Prop :=
  ∀ e, s.lookup k = some e → ∃ t, e.expireAt = some t ∧ t ≤ D

theorem ExpiresBy.mono {D' : Instant} (h : s.ExpiresBy k D) (hD : D ≤ D') : s.ExpiresBy k D' :=
  fun e he => (h e he).imp fun _ ht => ⟨ht.1, ht.2.trans hD⟩

theorem ExpiresBy.wait (h : s.ExpiresBy k D) (d : ℕ) : (s.wait d).ExpiresBy k D :=
  fun e he => h e (lookup_of_wait he)

/-- A counter whose time to live is over is not there. -/
theorem ExpiresBy.lookup_eq_none (h : s.ExpiresBy k D) (hD : D ≤ s.clock) : s.lookup k = none := by
  rw [Option.eq_none_iff_forall_ne_some]
  intro e he
  obtain ⟨t, ht, htD⟩ := h e he
  exact absurd ((lookup_eq_some.mp he).2 t ht) (not_lt.mpr (htD.trans hD))

/-- What is written with a time to live has it. -/
theorem expiresBy_write {e : Option RedisEntry} (h : s.ExpiresBy k D)
    (he : key = k → ∀ e', e = some e' → ∃ t, e'.expireAt = some t ∧ t ≤ D) :
    (s.write key e).ExpiresBy k D := by
  intro e' he'
  rw [lookup_write] at he'
  split at he'
  · rename_i hk
    exact he hk.symm e' (Option.filter_eq_some_iff.mp he').1
  · exact h e' he'

/-- **`EXPIRE` gives the counter a time to live**, or there is no counter. -/
theorem expiresBy_expire (s : RedisServer) (k : String) (timeout : ℤ) :
    (s.expire k timeout).2.ExpiresBy k (s.clock + seconds timeout) := by
  rw [expire]
  split
  · rename_i hnone
    intro e he
    rw [hnone] at he
    cases he
  · split
    · intro e he
      rw [lookup_write, if_pos rfl] at he
      cases he
    · intro e he
      rw [lookup_write, if_pos rfl] at he
      obtain ⟨he, -⟩ := Option.filter_eq_some_iff.mp he
      exact ⟨_, (congrArg RedisEntry.expireAt (Option.some.inj he)).symm, le_rfl⟩

/-- **A command keeps the time to live of a counter**, if it neither creates the counter nor
extends it beyond `D`. -/
theorem ExpiresBy.carryOut (h : s.ExpiresBy k D) {o : RedisOp}
    (hincr : o = .incr k → s.lookup k ≠ none)
    (hexpire : ∀ timeout, o = .expire k timeout → s.clock + seconds timeout ≤ D) :
    (s.carryOut o).2.ExpiresBy k D := by
  cases o with
  | now => exact h
  | ttl key => exact h
  | delete key => exact expiresBy_write h fun _ e he => by cases he
  | incr key =>
      change (s.incr key).2.ExpiresBy k D
      cases hl : s.lookup key with
      | none =>
          rw [incr_new hl]
          refine expiresBy_write h ?_
          rintro rfl
          exact absurd hl (hincr rfl)
      | some e =>
          rw [incr_old hl]
          refine expiresBy_write h ?_
          rintro rfl e' he'
          obtain rfl := Option.some.inj he'
          exact h e hl
  | expire key timeout =>
      change (s.expire key timeout).2.ExpiresBy k D
      by_cases hk : key = k
      · subst hk
        exact (expiresBy_expire s key timeout).mono (hexpire timeout rfl)
      · rw [expire]
        split
        · exact h
        · split
          · exact expiresBy_write h fun heq => absurd heq hk
          · exact expiresBy_write h fun heq => absurd heq hk

/-- A counter without a time to live is there for good. -/
theorem lookup_wait {v : ℤ} (h : s.lookup k = some ⟨v, none⟩) (d : ℕ) :
    (s.wait d).lookup k = some ⟨v, none⟩ :=
  lookup_eq_some.mpr ⟨(lookup_eq_some.mp h).1, fun _ ht => by cases ht⟩

end RedisServer

/-! ### What a check does when it is alone with the server -/

section Alone

variable {cfg : RateLimitConfig} {key : String} {s : RedisServer} {pauses : List ℕ}

open RedisRateLimiter

/-- A command whose reply arrives. -/
theorem run_send {α : Type} (o : RedisOp) (f : o.Reply → RedisProg α) (s : RedisServer × List ℕ) :
    (send o >>= f).run RedisServer.answer s =
      (f ((s.1.wait (s.2.headD 0)).carryOut o).1).run RedisServer.answer
        (((s.1.wait (s.2.headD 0)).carryOut o).2, s.2.tail) := rfl

/-- **A check that creates its counter** gives it a time to live. -/
theorem checkAlone_new {s' : RedisServer}
    (h : ((s.wait (pauses.headD 0)).wait (pauses.tail.headD 0)).incr (windowKey key) = (1, s')) :
    ∃ ttl d e rest, RedisServer.checkAlone cfg key (s, pauses) =
      (.ok (result cfg (s.wait (pauses.headD 0)).clock 1 ttl),
        (((s'.wait d).expire (windowKey key) cfg.windowSeconds).2.wait e, rest)) := by
  obtain ⟨d, hd⟩ : ∃ d, d = pauses.tail.tail.headD 0 := ⟨_, rfl⟩
  obtain ⟨e, he⟩ : ∃ e, e = pauses.tail.tail.tail.headD 0 := ⟨_, rfl⟩
  refine ⟨(((s'.wait d).expire (windowKey key) cfg.windowSeconds).2.wait e).ttl (windowKey key),
    d, e, pauses.tail.tail.tail.tail, ?_⟩
  rw [RedisServer.checkAlone, check, run_send, run_send]
  simp only [RedisServer.carryOut, h]
  rw [if_pos trivial, run_send, run_send, ← hd, ← he]
  rfl

/-- A check that finds its counter. -/
theorem checkAlone_old {n : ℤ} {s' : RedisServer} (hn : n ≠ 1)
    (h : ((s.wait (pauses.headD 0)).wait (pauses.tail.headD 0)).incr (windowKey key) = (n, s')) :
    ∃ ttl d rest, RedisServer.checkAlone cfg key (s, pauses) =
      (.ok (result cfg (s.wait (pauses.headD 0)).clock n ttl), (s'.wait d, rest)) := by
  refine ⟨(s'.wait (pauses.tail.tail.headD 0)).ttl (windowKey key), pauses.tail.tail.headD 0,
    pauses.tail.tail.tail, ?_⟩
  rw [RedisServer.checkAlone, check, run_send, run_send]
  simp only [RedisServer.carryOut, h]
  rw [if_neg hn]
  rfl

/-- A check is allowed by what its `INCR` answers. -/
theorem checkAlone_allowed (cfg : RateLimitConfig) (key : String) (s : RedisServer)
    (pauses : List ℕ) :
    ∃ res s', RedisServer.checkAlone cfg key (s, pauses) = (.ok res, s') ∧
      (res.allowed = true ↔
        (((s.wait (pauses.headD 0)).wait (pauses.tail.headD 0)).incr (windowKey key)).1 ≤
          cfg.maxRequests) := by
  obtain ⟨n, s', h⟩ : ∃ n s', ((s.wait (pauses.headD 0)).wait (pauses.tail.headD 0)).incr
      (windowKey key) = (n, s') := ⟨_, _, rfl⟩
  have hallowed : ∀ now ttl, (result cfg now n ttl).allowed = true ↔ n ≤ cfg.maxRequests := by
    intro now ttl
    rw [result]
    split
    · simp; omega
    · simp; omega
  rw [h]
  by_cases hn : n = 1
  · subst hn
    obtain ⟨ttl, d, e, rest, hrun⟩ := @checkAlone_new cfg key s pauses _ h
    exact ⟨_, _, hrun, hallowed _ _⟩
  · obtain ⟨ttl, d, rest, hrun⟩ := @checkAlone_old cfg key s pauses _ _ hn h
    exact ⟨_, _, hrun, hallowed _ _⟩

end Alone

/-! ### The check that creates a counter -/

/-- The key of the counter that a command has created, by its reply. -/
def createdKey : (o : RedisOp) → Except Stopped o.Reply → Option String
  | .incr k, .ok count => if count = 1 then some k else none
  | _, _ => none

/-- The counter that the last command of a program has created. -/
def lastCreated (h : Hist RedisSig) : Option String :=
  h.head?.bind fun e => createdKey e.1 e.2

/-- A check that has created a counter sends its `EXPIRE` next, and nobody else sends one. -/
def SendsExpire (cfg : RateLimitConfig) (h : Hist RedisSig) (o : RedisOp) : Prop :=
  (∀ k, lastCreated h = some k → o = .expire k cfg.windowSeconds) ∧
    ∀ k timeout, o = .expire k timeout → lastCreated h = some k ∧ timeout = cfg.windowSeconds

/-- No request leaves between the `INCR` that created a counter and its `EXPIRE`. -/
def NonePending {α : Type} (h : Hist RedisSig) (_ : Except Stopped α) : Prop :=
  lastCreated h = none

/-- Any answer of the server may arrive. -/
def anyReply (o : RedisSig.Op) (_ : RedisSig.Res o) : Prop := True

section Discipline

variable {cfg : RateLimitConfig} {α : Type} {h : Hist RedisSig}

/-- A program that obeys the rule about `EXPIRE`. -/
abbrev Expires (cfg : RateLimitConfig) (h : Hist RedisSig) (p : RedisProg α) : Prop :=
  p.Obeys Hist.note anyReply (SendsExpire cfg) NonePending h

/-- A command that is not `EXPIRE` may be sent while none is due. -/
theorem expires_send {o : RedisOp} {f : o.Reply → RedisProg α} (hnone : lastCreated h = none)
    (ho : ∀ k timeout, o ≠ .expire k timeout) (herr : ∀ e, createdKey o (.error e) = none)
    (hf : ∀ x, Expires cfg (⟨o, .ok x⟩ :: h) (f x)) : Expires cfg h (send o >>= f) := by
  refine ⟨⟨fun k hk => ?_, fun k timeout heq => absurd heq (ho k timeout)⟩, fun r _ => ?_⟩
  · rw [hnone] at hk
    cases hk
  · cases r with
    | ok x => exact hf x
    | error e => exact herr e

/-- The end of a check: it reads the time to live and returns. -/
theorem expires_ttl (key : String) (f : ℤ → RateLimitResult) (hnone : lastCreated h = none) :
    Expires cfg h ((send (.ttl key) >>= fun ttl => pure (f ttl)) >>= fun r => pure (some r)) := by
  rw [Prog.bind_assoc]
  refine expires_send hnone (fun _ _ => RedisOp.noConfusion) (fun _ => rfl) fun ttl => ?_
  change lastCreated _ = none
  rfl

/-- **Every request sends `EXPIRE` for the counter it creates**, at once and only then. -/
theorem expires_request (cfg : RateLimitConfig) (req : RedisRequest) :
    Expires cfg [] (req.prog cfg) := by
  cases req with
  | reset key =>
      change Expires cfg [] (RedisRateLimiter.reset key >>= fun _ => pure none)
      rw [RedisRateLimiter.reset]
      simp only [Prog.bind_assoc]
      refine expires_send (h := []) rfl (fun _ _ => RedisOp.noConfusion) (fun _ => rfl) fun n => ?_
      change lastCreated _ = none
      rfl
  | check key =>
      change Expires cfg [] (RedisRateLimiter.check cfg key >>= fun r => pure (some r))
      rw [RedisRateLimiter.check]
      simp only [Prog.bind_assoc, Prog.pure_bind]
      refine expires_send (h := []) rfl (fun _ _ => RedisOp.noConfusion) (fun _ => rfl)
        fun now => ?_
      refine expires_send (h := [⟨RedisOp.now, .ok now⟩]) rfl (fun _ _ => RedisOp.noConfusion)
        (fun _ => rfl) fun count => ?_
      by_cases hcount : count = 1
      · subst hcount
        rw [if_pos rfl]
        refine ⟨⟨fun k hk => ?_, fun k timeout heq => ?_⟩, fun r _ => ?_⟩
        · rw [Option.some.inj hk]
        · obtain ⟨rfl, rfl⟩ := RedisOp.expire.inj heq
          exact ⟨rfl, rfl⟩
        · cases r with
          | error e =>
              change lastCreated _ = none
              rfl
          | ok x => exact expires_ttl _ (RedisRateLimiter.result cfg now 1) (by rfl)
      · rw [if_neg hcount]
        exact expires_ttl _ _ (by simp [lastCreated, createdKey, hcount])

end Discipline

/-! ### Any interleaving of callers -/

section Runs

variable {ι : Type} {cfg : RateLimitConfig} {reqs : ι → RedisRequest}
variable {s₀ : RedisServer} {c c' : RedisConfig ι} {k key : String}

/-- **A check has created the counter** and has not sent its `EXPIRE` yet. -/
def ExpireDue (c : RedisConfig ι) (i : ι) (k : String) : Prop := lastCreated (c.hist i) = some k

/-- **No check stops between the two commands** of the counter `k`: the `INCR` that creates it is
answered, and the `EXPIRE` that follows reaches the server. -/
def creatorsFinish (cfg : RateLimitConfig) (k : String) (c : RedisConfig ι) :
    Label ι Delivery ℕ → Prop
  | .act i .lostBefore => c.next i ≠ some (.expire k cfg.windowSeconds)
  | .act i .lostAfter => ¬ (c.next i = some (.incr k) ∧ c.shared.lookup k = none)
  | _ => True

/-- Every check on the counter `k` is refused. -/
def refusing (cfg : RateLimitConfig) (k : String) (c : RedisConfig ι) :
    Label ι Delivery ℕ → Prop
  | .act i ch => c.next i = some (.incr k) → ch ≠ .lostBefore →
      cfg.maxRequests < (c.shared.incr k).1
  | .env _ => True

instance (c : RedisConfig ι) (i : ι) (k : String) : Decidable (ExpireDue c i k) :=
  inferInstanceAs (Decidable (lastCreated (c.hist i) = some k))

instance (cfg : RateLimitConfig) (k : String) (c : RedisConfig ι) :
    (l : Label ι Delivery ℕ) → Decidable (creatorsFinish cfg k c l)
  | .act i .lostBefore =>
      inferInstanceAs (Decidable (c.next i ≠ some (.expire k cfg.windowSeconds)))
  | .act i .lostAfter =>
      inferInstanceAs (Decidable (¬ (c.next i = some (.incr k) ∧ c.shared.lookup k = none)))
  | .act _ .answered | .env _ => inferInstanceAs (Decidable True)

/-- What becomes of a command. -/
theorem exec_cases {ch : Delivery} {i : ι} {o : RedisOp} {s s' : RedisServer} {r : RedisSig.Res o}
    (h : (redisMachine ι).exec ch i o s = some (r, s')) :
    (ch = .answered ∧ r = .ok (s.carryOut o).1 ∧ s' = (s.carryOut o).2) ∨
      (ch = .lostBefore ∧ r = .error .stopped ∧ s' = s) ∨
      (ch = .lostAfter ∧ r = .error .stopped ∧ s' = (s.carryOut o).2) := by
  cases ch with
  | answered =>
      obtain ⟨rfl, rfl⟩ := Prod.mk.inj (Option.some.inj h)
      exact Or.inl ⟨rfl, rfl, rfl⟩
  | lostBefore =>
      obtain ⟨rfl, rfl⟩ := Prod.mk.inj (Option.some.inj h)
      exact Or.inr (Or.inl ⟨rfl, rfl, rfl⟩)
  | lostAfter =>
      obtain ⟨rfl, rfl⟩ := Prod.mk.inj (Option.some.inj h)
      exact Or.inr (Or.inr ⟨rfl, rfl, rfl⟩)

theorem answers_anyReply : (redisMachine ι).Answers anyReply := fun _ _ _ _ _ _ _ => trivial

theorem obeys_startRedis (cfg : RateLimitConfig) (reqs : ι → RedisRequest) (s₀ : RedisServer) :
    Machine.Obeys anyReply (fun _ => SendsExpire cfg) (fun _ => NonePending)
      (startRedis cfg reqs s₀) :=
  Machine.obeys_start fun i => expires_request cfg (reqs i)

variable [DecidableEq ι]

/-- Every program of a run obeys the rule about `EXPIRE`. -/
theorem obeys_sendsExpire {C : RedisConfig ι → Label ι Delivery ℕ → Prop}
    (h : (redisMachine ι).Reach C (startRedis cfg reqs s₀) c) :
    Machine.Obeys anyReply (fun _ => SendsExpire cfg) (fun _ => NonePending) c :=
  h.obeys answers_anyReply (obeys_startRedis cfg reqs s₀)

/-- **A counter has a time to live, or the check that created it is about to give it one.** -/
theorem expires_or_pending
    (hstart : s₀.ExpiresBy k (s₀.clock + seconds cfg.windowSeconds))
    (h : (redisMachine ι).Reach (creatorsFinish cfg k) (startRedis cfg reqs s₀) c) :
    c.shared.ExpiresBy k (c.shared.clock + seconds cfg.windowSeconds) ∨
      ∃ i, ExpireDue c i k := by
  refine h.induction answers_anyReply (obeys_startRedis cfg reqs s₀)
    (fun c => c.shared.ExpiresBy k (c.shared.clock + seconds cfg.windowSeconds) ∨
      ∃ i, ExpireDue c i k) (Or.inl hstart) ?_ ?_ ?_
  · intro c i ch o f r s _ hJ hC ht hok he
    have hnext : c.next i = some o := Config.next_eq_some.mpr ⟨f, ht⟩
    rcases hJ with hexp | ⟨j, hj⟩
    · -- a command that creates no counter keeps its time to live
      have hkept : (o = .incr k → c.shared.lookup k ≠ none) →
          (c.shared.carryOut o).2.ExpiresBy k
            ((c.shared.carryOut o).2.clock + seconds cfg.windowSeconds) := by
        intro hincr
        rw [RedisServer.clock_carryOut]
        exact hexp.carryOut hincr fun timeout ho => by rw [(hok.2 k timeout ho).2]
      rcases exec_cases he with ⟨rfl, rfl, rfl⟩ | ⟨rfl, rfl, rfl⟩ | ⟨rfl, rfl, rfl⟩
      · by_cases hnew : o = .incr k ∧ c.shared.lookup k = none
        · obtain ⟨rfl, hnone⟩ := hnew
          refine Or.inr ⟨i, ?_⟩
          change lastCreated (Function.update c.hist i _ i) = some k
          rw [Function.update_self]
          change createdKey (.incr k) (.ok (c.shared.incr k).1) = some k
          rw [RedisServer.incr_new hnone]
          rfl
        · exact Or.inl (hkept fun ho hnone => hnew ⟨ho, hnone⟩)
      · exact Or.inl hexp
      · exact Or.inl (hkept fun ho hnone => hC ⟨ho ▸ hnext, hnone⟩)
    · by_cases hij : j = i
      · -- the check that created the counter sends its `EXPIRE`
        subst hij
        obtain rfl := hok.1 k hj
        have hsent : ((c.shared.carryOut (.expire k cfg.windowSeconds)).2).ExpiresBy k
            ((c.shared.carryOut (.expire k cfg.windowSeconds)).2.clock +
              seconds cfg.windowSeconds) := by
          rw [RedisServer.clock_carryOut]
          exact RedisServer.expiresBy_expire _ _ _
        rcases exec_cases he with ⟨rfl, rfl, rfl⟩ | ⟨rfl, rfl, rfl⟩ | ⟨rfl, rfl, rfl⟩
        · exact Or.inl hsent
        · exact absurd hnext hC
        · exact Or.inl hsent
      · refine Or.inr ⟨j, ?_⟩
        change lastCreated (Function.update c.hist i _ j) = some k
        rw [Function.update_of_ne hij]
        exact hj
  · exact fun _ _ _ _ _ hJ _ _ _ => hJ
  · rintro c d - (hexp | hpending) -
    · left
      refine (hexp.wait d).mono (Int.add_le_add_right ?_ _)
      exact Int.le_add_of_nonneg_right (Int.natCast_nonneg d)
    · exact Or.inr hpending

/-- **While every check is refused** no counter is created, and none is extended. -/
theorem expires_while_refused {D : Instant} (hmax : 1 ≤ cfg.maxRequests)
    (hob : Machine.Obeys anyReply (fun _ => SendsExpire cfg) (fun _ => NonePending) c)
    (hexp : c.shared.ExpiresBy k D) (hquiet : ∀ i, ¬ ExpireDue c i k)
    (h : (redisMachine ι).Reach (refusing cfg k) c c') :
    c'.shared.ExpiresBy k D ∧ ∀ i, ¬ ExpireDue c' i k := by
  refine h.induction answers_anyReply hob
    (fun c => c.shared.ExpiresBy k D ∧ ∀ i, ¬ ExpireDue c i k) ⟨hexp, hquiet⟩ ?_ ?_ ?_
  · rintro c i ch o f r s - ⟨hexp, hquiet⟩ hC ht hok he
    have hnext : c.next i = some o := Config.next_eq_some.mpr ⟨f, ht⟩
    have hcount : o = .incr k → ch ≠ .lostBefore → (c.shared.incr k).1 ≠ 1 := by
      intro ho hch hone
      have := hC (ho ▸ hnext) hch
      omega
    have hkept : ch ≠ .lostBefore → (c.shared.carryOut o).2.ExpiresBy k D := by
      intro hch
      refine hexp.carryOut (fun ho hnone => hcount ho hch ?_) fun timeout ho => ?_
      · rw [RedisServer.incr_new hnone]
      · exact absurd (hok.2 k timeout ho).1 (hquiet i)
    have hother : createdKey o r ≠ some k → ∀ s j,
        ¬ ExpireDue (Machine.afterCall c i o r (f r) s) j k := by
      intro hnew s j hj
      by_cases hij : j = i
      · subst hij
        change lastCreated (Function.update c.hist j _ j) = some k at hj
        rw [Function.update_self] at hj
        exact hnew hj
      · change lastCreated (Function.update c.hist i _ j) = some k at hj
        rw [Function.update_of_ne hij] at hj
        exact hquiet j hj
    rcases exec_cases he with ⟨rfl, rfl, rfl⟩ | ⟨rfl, rfl, rfl⟩ | ⟨rfl, rfl, rfl⟩
    · refine ⟨hkept (by decide), hother (fun heq => ?_) _⟩
      cases o with
      | incr key =>
          change (if (c.shared.incr key).1 = 1 then some key else none) = some k at heq
          split at heq
          · rename_i hone
            obtain rfl := Option.some.inj heq
            exact hcount rfl (by decide) hone
          · cases heq
      | now => cases heq
      | expire key timeout => cases heq
      | ttl key => cases heq
      | delete key => cases heq
    · refine ⟨hexp, hother (fun heq => ?_) _⟩
      cases o <;> cases heq
    · refine ⟨hkept (by decide), hother (fun heq => ?_) _⟩
      cases o <;> cases heq
  · exact fun _ _ _ _ _ hJ _ _ _ => hJ
  · exact fun c d _ hJ _ => ⟨hJ.1.wait d, hJ.2⟩

/-- **A counter always expires, as long as no check stops between its two commands.** Once no
check is about to send its `EXPIRE`, the counter of a key ends within the window if it is there;
and however many checks are refused until then, the first one after it is allowed. -/
theorem counter_expires
    (hstart : s₀.ExpiresBy (RedisRateLimiter.windowKey key)
      (s₀.clock + seconds cfg.windowSeconds))
    (h : (redisMachine ι).Reach (creatorsFinish cfg (RedisRateLimiter.windowKey key))
      (startRedis cfg reqs s₀) c)
    (hquiet : ∀ i, ¬ ExpireDue c i (RedisRateLimiter.windowKey key)) :
    c.shared.ExpiresBy (RedisRateLimiter.windowKey key)
        (c.shared.clock + seconds cfg.windowSeconds) ∧
      (1 ≤ cfg.maxRequests → ∀ c',
        (redisMachine ι).Reach (refusing cfg (RedisRateLimiter.windowKey key)) c c' →
        c.shared.clock + seconds cfg.windowSeconds ≤ c'.shared.clock → ∀ pauses,
          ∃ res s', RedisServer.checkAlone cfg key (c'.shared, pauses) = (.ok res, s') ∧
            res.allowed = true) := by
  have hexp : c.shared.ExpiresBy (RedisRateLimiter.windowKey key)
      (c.shared.clock + seconds cfg.windowSeconds) := by
    rcases expires_or_pending hstart h with hexp | ⟨i, hi⟩
    · exact hexp
    · exact absurd hi (hquiet i)
  refine ⟨hexp, fun hmax c' hc' hover pauses => ?_⟩
  obtain ⟨res, s', hrun, hallowed⟩ := checkAlone_allowed cfg key c'.shared pauses
  refine ⟨res, s', hrun, hallowed.mpr ?_⟩
  have hend := (expires_while_refused hmax (obeys_sendsExpire h) hexp hquiet hc').1
  have hnone := ((hend.wait (pauses.headD 0)).wait (pauses.tail.headD 0)).lookup_eq_none (by
    refine hover.trans ?_
    exact (RedisServer.clock_le_wait _ _).trans (RedisServer.clock_le_wait _ _))
  rw [RedisServer.incr_new hnone]
  exact hmax

end Runs

namespace Reference

/-- One request is allowed in a minute. -/
def oneAMinute : RateLimitConfig := { maxRequests := 1 }

/-- The key of a client. -/
def clientKey : String := "login:198.51.100.7"

/-- Nothing is counted yet. -/
def redisServer : RedisServer := ⟨fun _ => none, seconds 1700000000⟩

/-- Two checks for the client. -/
def twoChecks : Fin 2 → RedisRequest := fun _ => .check clientKey

/-- The first check creates the counter and stops before its `EXPIRE`; the second one runs. -/
def stopsInBetween : List (Label (Fin 2) Delivery ℕ) :=
  [.act 0 .answered, .act 0 .answered, .act 0 .lostBefore, .act 0 .answered] ++
    List.replicate 4 (.act 1 .answered)

/-- Both checks run to their end, one after the other. -/
def bothEnd : List (Label (Fin 2) Delivery ℕ) :=
  List.replicate 5 (.act 0 .answered) ++ List.replicate 4 (.act 1 .answered)

theorem redisServer_expiresBy (k : String) (D : Instant) : redisServer.ExpiresBy k D :=
  fun e he => by cases he

end Reference

open Reference

/-- Two checks that nothing stops: the second one is refused, and a minute later the client is
allowed a check again. -/
theorem counter_expires_twoChecks :
    ∃ c, (redisMachine (Fin 2)).run (startRedis oneAMinute twoChecks redisServer) bothEnd = some c ∧
      c.shared.ExpiresBy (RedisRateLimiter.windowKey clientKey)
        (c.shared.clock + seconds 60) ∧
      ∃ res s', RedisServer.checkAlone oneAMinute clientKey (c.shared.wait 60000000, []) =
        (.ok res, s') ∧ res.allowed = true := by
  obtain ⟨c, hc, hquiet, hC⟩ := Machine.exists_run (M := redisMachine (Fin 2))
    (c := startRedis oneAMinute twoChecks redisServer) (l := bothEnd)
    (P := fun c => (∀ i, ¬ ExpireDue c i (RedisRateLimiter.windowKey clientKey)) ∧
      (redisMachine (Fin 2)).RunsWith
        (creatorsFinish oneAMinute (RedisRateLimiter.windowKey clientKey))
        (startRedis oneAMinute twoChecks redisServer) bothEnd) (by decide +kernel)
  obtain ⟨hexp, hafter⟩ := counter_expires (redisServer_expiresBy _ _)
    (Machine.reach_of_run hC hc) hquiet
  refine ⟨c, hc, hexp, hafter (by decide) _
    (Machine.Reach.refl.tail (l := .env 60000000) trivial rfl) le_rfl []⟩

/-- **A key blocked for good**: the check that created the counter stops before its `EXPIRE`. No
check is left in progress, the counter has no time to live, and from then on every check is
refused, whenever it comes. -/
theorem key_blocked_for_good :
    ∃ c, (redisMachine (Fin 2)).run (startRedis oneAMinute twoChecks redisServer) stopsInBetween =
        some c ∧
      (∀ i, ¬ Machine.InFlight c i) ∧
      c.shared.lookup (RedisRateLimiter.windowKey clientKey) = some ⟨2, none⟩ ∧
      ∀ d pauses, ∃ res s',
        RedisServer.checkAlone oneAMinute clientKey (c.shared.wait d, pauses) = (.ok res, s') ∧
          res.allowed = false := by
  obtain ⟨c, hc, hidle, hleft⟩ := Machine.exists_run (M := redisMachine (Fin 2))
    (c := startRedis oneAMinute twoChecks redisServer) (l := stopsInBetween)
    (P := fun c => (∀ i, ¬ Machine.InFlight c i) ∧
      c.shared.lookup (RedisRateLimiter.windowKey clientKey) = some ⟨2, none⟩) (by decide +kernel)
  refine ⟨c, hc, hidle, hleft, fun d pauses => ?_⟩
  obtain ⟨res, s', hrun, hallowed⟩ :=
    checkAlone_allowed oneAMinute clientKey (c.shared.wait d) pauses
  refine ⟨res, s', hrun, ?_⟩
  have hthere := RedisServer.lookup_wait (RedisServer.lookup_wait (RedisServer.lookup_wait hleft d)
    (pauses.headD 0)) (pauses.tail.headD 0)
  rw [RedisServer.incr_old hthere] at hallowed
  have hcount : ¬ (2 + 1 : ℤ) ≤ 1 := by decide
  exact Bool.eq_false_iff.mpr fun h => hcount (hallowed.mp h)

end BackendTemplate
