import BackendTemplate.CacheEffects
import BackendTemplate.ExpiringMap

/-!
# The Cache as an Expiring Map

What `InMemoryCache` answers after any sequence of calls, compared with the map its interface
describes: a key holds what the last `set` put there, for `ttl_seconds` if these are given. The
dictionary drops an expired entry only when a `get` comes across it, and takes a `ttl_seconds` of
zero for none at all.

## Main results

* `InMemoryCache.Records.after` — the dictionary keeps the log of the calls made to it.
* `get_is_expiring_iff` — `get` answers as the map does exactly when the last write on the key does
  not set it for zero seconds.
-/

namespace BackendTemplate

open ExpiringMap

/-- A call on the cache, at the instant its clock reads. -/
inductive CacheCall
  | get (key : String) (now : Instant)
  | set (key value : String) (ttlSeconds : Option ℕ) (now : Instant)
  | delete (key : String)
  deriving DecidableEq

namespace CacheCall

/-- What the call leaves of the cache. -/
def run (m : InMemoryCache) : CacheCall → InMemoryCache
  | .get key now => (m.get now key).2
  | .set key value ttlSeconds now => m.set now key value ttlSeconds
  | .delete key => m.delete key

/-- The instant of the clock at a call; `delete` does not read it. -/
def clockAfter (T : Instant) : CacheCall → Instant
  | .get _ now | .set _ _ _ now => now
  | .delete _ => T

/-- **A non-decreasing clock** along a sequence of calls. -/
def Ordered : Instant → List CacheCall → Prop
  | _, [] => True
  | T, c :: calls => T ≤ c.clockAfter T ∧ Ordered (c.clockAfter T) calls

/-- The write a call makes, stamped with its instant and lifetime. -/
def write : CacheCall → Option (Change String String (Instant × Option ℕ))
  | .get _ _ => none
  | .set key value ttlSeconds now => some (.put key value (now, ttlSeconds))
  | .delete key => some (.drop key)

/-- The writes of a sequence of calls. -/
def writes (calls : List CacheCall) : List (Change String String (Instant × Option ℕ)) :=
  calls.filterMap write

end CacheCall

namespace InMemoryCache

/-- The cache after a sequence of calls. -/
def after (m : InMemoryCache) (calls : List CacheCall) : InMemoryCache :=
  calls.foldl CacheCall.run m

/-- The `expires_at` that `InMemoryCache.set` stores. -/
def expiresAt : Instant × Option ℕ → Option Instant
  | (_, none) | (_, some 0) => none
  | (now, some (n + 1)) => some (now + seconds (n + 1))

/-- What `set` stores, by the write it makes. -/
theorem set_store (m : InMemoryCache) (now : Instant) (key value : String)
    (ttlSeconds : Option ℕ) :
    (m.set now key value ttlSeconds).store =
      Function.update m.store key (some (value, expiresAt (now, ttlSeconds))) := by
  rcases ttlSeconds with _ | _ | n
  · rfl
  · rfl
  · rfl

theorem expired_eq_false {now : Instant} {e : Option Instant} :
    expired now e = false ↔ Alive now e := by
  cases e with
  | none => simp [expired, Alive]
  | some e => simp [expired, Alive]

/-- **What `get` answers**: what the dictionary has under the key, while it is alive. -/
theorem get_eq_some {m : InMemoryCache} {now : Instant} {key value : String} :
    (m.get now key).1 = some value ↔ ∃ e, m.store key = some (value, e) ∧ Alive now e := by
  rw [get]
  cases hs : m.store key with
  | none => simp
  | some entry =>
      obtain ⟨v, e⟩ := entry
      cases he : expired now e with
      | false => simp [he, ← expired_eq_false]
      | true =>
          simp only [he, if_true, reduceCtorEq, Option.some.injEq, Prod.mk.injEq, false_iff]
          rintro ⟨e', ⟨-, rfl⟩, halive⟩
          rw [expired_eq_false.mpr halive] at he
          cases he

/-- What `get` leaves: the dictionary without the entry it found expired, if it did. -/
theorem get_store (m : InMemoryCache) (now : Instant) (key : String) :
    (m.get now key).2 = m ∨ ∃ v e, m.store key = some (v, e) ∧ ¬ Alive now e ∧
      (m.get now key).2.store = Function.update m.store key none := by
  rw [get]
  cases hs : m.store key with
  | none => exact Or.inl rfl
  | some entry =>
      obtain ⟨v, e⟩ := entry
      cases he : expired now e with
      | false => exact Or.inl (by simp [he])
      | true =>
          refine Or.inr ⟨v, e, rfl, fun halive => ?_, by simp [he, delete]⟩
          rw [expired_eq_false.mpr halive] at he
          cases he

end InMemoryCache

/-! ### Runs -/

/-- **A cache records a log** at an instant: its dictionary keeps the log, and nothing in the log is
stamped later. -/
structure InMemoryCache.Records (m : InMemoryCache)
    (log : List (Change String String (Instant × Option ℕ))) (T : Instant) : Prop where
  keeps : KeepsLog (Prod.map id InMemoryCache.expiresAt) log T m.store
  past : ∀ {key value t₀ ttlSeconds}, .put key value (t₀, ttlSeconds) ∈ log → t₀ ≤ T

variable {log : List (Change String String (Instant × Option ℕ))} {T t : Instant}
  {m : InMemoryCache}

theorem InMemoryCache.Records.later (h : m.Records log T) (ht : T ≤ t) : m.Records log t :=
  ⟨h.keeps.later ht, fun hw => (h.past hw).trans ht⟩

/-- **A call is recorded** by the write it makes. -/
theorem InMemoryCache.Records.run (h : m.Records log T) (c : CacheCall) (hc : T ≤ c.clockAfter T) :
    (c.run m).Records (log ++ c.write.toList) (c.clockAfter T) := by
  obtain ⟨hkeeps, hpast⟩ := h.later hc
  cases c with
  | get key now =>
      rw [show (CacheCall.get key now).write.toList = [] from rfl, List.append_nil]
      refine ⟨?_, hpast⟩
      rcases m.get_store now key with hm | ⟨v, e, hs, hended, hstore⟩
      · exact (congrArg InMemoryCache.store hm).symm ▸ hkeeps
      · exact hstore.symm ▸ hkeeps.prune hs hended
  | set key value ttlSeconds now =>
      refine ⟨?_, fun hw => ?_⟩
      · exact (m.set_store now key value ttlSeconds) ▸
          hkeeps.write (.put key value (now, ttlSeconds))
      · rcases List.mem_append.mp hw with hw | hw
        · exact hpast hw
        · cases List.mem_singleton.mp hw
          exact le_rfl
  | delete key =>
      refine ⟨hkeeps.write (.drop key), fun hw => ?_⟩
      rcases List.mem_append.mp hw with hw | hw
      · exact hpast hw
      · cases List.mem_singleton.mp hw

/-- **The dictionary keeps the log of its calls**, up to any call that follows them. -/
theorem InMemoryCache.Records.after {calls rest : List CacheCall} (h : m.Records log T)
    (hordered : CacheCall.Ordered T (calls ++ rest)) :
    ∃ T', (m.after calls).Records (log ++ CacheCall.writes calls) T' ∧
      CacheCall.Ordered T' rest := by
  induction calls generalizing log T m with
  | nil => exact ⟨T, (List.append_nil log).symm ▸ h, hordered⟩
  | cons c calls ih =>
      obtain ⟨T', h', hrest⟩ := ih (h.run c hordered.1) hordered.2
      refine ⟨T', ?_, hrest⟩
      have hwrites : CacheCall.writes (c :: calls) = c.write.toList ++ CacheCall.writes calls := by
        cases hc : c.write with
        | none => simp [CacheCall.writes, hc]
        | some w => simp [CacheCall.writes, hc]
      rw [hwrites, ← List.append_assoc]
      exact h'

/-- A new cache records nothing. -/
theorem InMemoryCache.Records.empty (T : Instant) : InMemoryCache.empty.Records [] T :=
  ⟨KeepsLog.empty, fun hw => absurd hw List.not_mem_nil⟩

/-- The deadline `set` stores is the end of the lifetime, unless that is zero. -/
theorem alive_expiresAt {ttlSeconds : Option ℕ} (hzero : ttlSeconds ≠ some 0) (t₀ t : Instant) :
    Alive t (InMemoryCache.expiresAt (t₀, ttlSeconds)) ↔ ∀ n ∈ ttlSeconds, t < t₀ + seconds n := by
  rcases ttlSeconds with _ | _ | n
  · simp [InMemoryCache.expiresAt, Alive]
  · exact absurd rfl hzero
  · simp [InMemoryCache.expiresAt, Alive]

/-- **When `InMemoryCache` is an expiring map.** After any sequence of calls with a non-decreasing
clock, `get` answers exactly with the value the last `set` or `delete` on the key put there, while
its lifetime lasts, just when that last write does not set the key for zero seconds. -/
theorem get_is_expiring_iff (created : Instant) (calls : List CacheCall) (key : String)
    (t : Instant) (hordered : CacheCall.Ordered created (calls ++ [.get key t])) :
    (∀ value, ((InMemoryCache.empty.after calls).get t key).1 = some value ↔
        ∃ t₀ ttlSeconds,
          lastOn key (CacheCall.writes calls) = some (.put key value (t₀, ttlSeconds)) ∧
          ∀ n ∈ ttlSeconds, t < t₀ + seconds n) ↔
      ∀ value t₀, lastOn key (CacheCall.writes calls) ≠ some (.put key value (t₀, some 0)) := by
  obtain ⟨T, hrecorded, ht, -⟩ := (InMemoryCache.Records.empty created).after hordered
  obtain ⟨hkeeps, hpast⟩ := hrecorded.later ht
  rw [List.nil_append] at hkeeps hpast
  have hkeeps : KeepsLog (Prod.map id InMemoryCache.expiresAt) (CacheCall.writes calls) t
    (InMemoryCache.empty.after calls).store := hkeeps
  have hget : ∀ value, ((InMemoryCache.empty.after calls).get t key).1 = some value ↔
      ∃ s, lastOn key (CacheCall.writes calls) = some (.put key value s) ∧
        Alive t (InMemoryCache.expiresAt s) := fun value =>
    InMemoryCache.get_eq_some.trans (hkeeps.read.trans (by simp))
  constructor
  · -- an entry set for zero seconds is answered, though its lifetime is over
    intro hmap value t₀ hlast
    obtain ⟨t₁, ttlSeconds, hlast', hlives⟩ := (hmap value).mp
      ((hget value).mpr ⟨(t₀, some 0), hlast, by simp [InMemoryCache.expiresAt, Alive]⟩)
    cases Option.some.inj (hlast.symm.trans hlast')
    have hover := hlives 0 rfl
    rw [show seconds ((0 : ℕ) : ℤ) = 0 from rfl, add_zero] at hover
    exact absurd (hpast (mem_of_lastOn hlast).1) (not_le.mpr hover)
  · intro hzero value
    rw [hget value, Prod.exists]
    refine exists_congr fun t₀ => exists_congr fun ttlSeconds => and_congr_right fun hlast => ?_
    exact alive_expiresAt (fun h => hzero value t₀ (h ▸ hlast)) t₀ t

/-- A value set for a minute is answered a second before it is over. -/
theorem answered_within_the_minute :
    ((InMemoryCache.empty.after [.set "token" "active" (some 60) 0]).get (seconds 59) "token").1 =
      some "active" :=
  ((get_is_expiring_iff 0 [.set "token" "active" (some 60) 0] "token" (seconds 59)
    ⟨by decide, by decide, trivial⟩).mpr (fun _ _ h => by cases h) "active").mpr
      ⟨0, some 60, rfl, fun n hn => by cases hn; decide⟩

/-- **A lifetime of zero seconds never ends**: a value set for zero seconds, as a configuration that
turns the introspection cache off would set it, is still answered a day later. -/
theorem zero_lifetime_never_ends :
    CacheCall.Ordered 0 ([.set "token" "active" (some 0) 0] ++ [.get "token" (seconds 86400)]) ∧
    ¬ ∀ value, ((InMemoryCache.empty.after [.set "token" "active" (some 0) 0]).get
        (seconds 86400) "token").1 = some value ↔
      ∃ t₀ ttlSeconds,
        lastOn "token" (CacheCall.writes [.set "token" "active" (some 0) 0]) =
          some (.put "token" value (t₀, ttlSeconds)) ∧
        ∀ n ∈ ttlSeconds, seconds 86400 < t₀ + seconds n := by
  refine ⟨⟨by decide, by decide, trivial⟩, fun h => ?_⟩
  obtain ⟨t₀, ttlSeconds, hlast, hlives⟩ := (h "active").mp rfl
  cases hlast
  exact absurd (hlives 0 rfl) (by decide)

end BackendTemplate
