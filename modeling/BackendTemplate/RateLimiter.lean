import Mathlib.Algebra.Order.Group.Int
import Mathlib.Data.Finset.Card
import Mathlib.Data.List.Lex
import BackendTemplate.Dict
import BackendTemplate.SlidingWindow
import BackendTemplate.Values

/-!
# The In-Memory Rate Limiter

`InMemoryRateLimiter` keeps a bucket of timestamps under each key. A check prunes the bucket of
its key behind the window; a periodic cleanup, at the start of any check, drops the buckets that
are over and then, if there are still more than `max_keys`, the least ones in the order Python
compares lists. What it is meant to compute is `RateLog`: every timestamp is kept, and a check
counts those in its window.

A check reads the clock twice, once for the cleanup and once for itself.

## Main results

* `check_agrees` — one check on buckets that no later window can tell from the log.
* `memory_is_sliding_window` — over at most `max_keys` keys the two return the same results, and
  no window holds more than `max_requests` allowed checks of one key between resets.
-/

namespace BackendTemplate

open SlidingWindow

/-! ### Configuration, results and buckets -/

/-- `RateLimitConfig`, without the choice of the backend. -/
structure RateLimitConfig where
  maxRequests : ℤ := 100
  windowSeconds : ℤ := 60
  maxLoginAttempts : ℤ := 5
  lockoutSeconds : ℤ := 900
  cleanupIntervalSeconds : ℤ := 300
  maxKeys : ℤ := 10000
deriving DecidableEq

/-- How a limiter can fail: `min()` of an empty list. -/
inductive LimiterError
  | valueError
deriving DecidableEq

/-- A dictionary from keys to timestamps, in insertion order. -/
abbrev Buckets := List (String × List Instant)

namespace Buckets

/-- The bucket of a key, empty if there is none. -/
def bucket (b : Buckets) (key : String) : List Instant := (Dict.get b key).getD []

/-- `setdefault(key, [])`. -/
def setdefault (b : Buckets) (key : String) : Buckets :=
  if key ∈ b.map Prod.fst then b else b ++ [(key, [])]

/-- Write the bucket of a key that is there. -/
def put (b : Buckets) (key : String) (l : List Instant) : Buckets :=
  Keyed.modify Prod.fst key (fun e => (e.1, l)) b

end Buckets

/-- The state of a limiter: its buckets, and when they were last cleaned up. -/
structure Limiter where
  buckets : Buckets
  lastCleanup : Instant
deriving DecidableEq

namespace Limiter

/-- A new limiter. -/
def new (now : Instant) : Limiter := ⟨[], now⟩

/-- `expired_keys` of the cleanup, for a limiter whose window has `windowSeconds`. -/
def expiredKeys (b : Buckets) (windowSeconds : ℤ) (now : Instant) : List String :=
  (b.filter fun e => e.2.isEmpty || e.2.all fun ts => ts < now - seconds (windowSeconds * 2)).map
    Prod.fst

/-- The keys in the order of their buckets, as Python compares lists. -/
def sortedKeys (b : Buckets) : List String :=
  (b.insertionSort fun e e' => e.2 ≤ e'.2).map Prod.fst

/-- Keep at most `max_keys` buckets. -/
def capKeys (cfg : RateLimitConfig) (b : Buckets) : Buckets :=
  if cfg.maxKeys < b.length then
    Dict.drop ((sortedKeys b).take (b.length - cfg.maxKeys).toNat) b
  else b

/-- `_maybe_cleanup`, for a limiter whose window has `windowSeconds`. -/
def maybeCleanup (cfg : RateLimitConfig) (windowSeconds : ℤ) (st : Limiter) (now : Instant) :
    Limiter :=
  if now - st.lastCleanup < seconds cfg.cleanupIntervalSeconds then st
  else
    ⟨capKeys cfg (Dict.drop (expiredKeys st.buckets windowSeconds now) st.buckets), now⟩

end Limiter

/-! ### The limiter -/

namespace RateLimiter

/-- `InMemoryRateLimiter.check`. -/
def check (cfg : RateLimitConfig) (st : Limiter) (key : String) (cleanupAt now : Instant) :
    Except LimiterError RateLimitResult × Limiter :=
  let st := st.maybeCleanup cfg cfg.windowSeconds cleanupAt
  let buckets := st.buckets.setdefault key
  let bucket := recent (now - seconds cfg.windowSeconds) (buckets.bucket key)
  if cfg.maxRequests ≤ bucket.length then
    let st := { st with buckets := buckets.put key bucket }
    match bucket.min? with
    | none => (.error .valueError, st)
    | some first => (.ok ⟨false, 0, some (first + seconds cfg.windowSeconds)⟩, st)
  else
    (.ok ⟨true, cfg.maxRequests - bucket.length, some (now + seconds cfg.windowSeconds)⟩,
      { st with buckets := buckets.put key (bucket ++ [now]) })

/-- `InMemoryRateLimiter.reset`. -/
def reset (st : Limiter) (key : String) : Limiter :=
  { st with buckets := Dict.drop [key] st.buckets }

end RateLimiter

/-- **The limiter that forgets nothing**: the instants at which each key was allowed a check since
its last reset. -/
abbrev RateLog := String → List Instant

namespace RateLog

/-- A check counts the instants in its window. -/
def check (cfg : RateLimitConfig) (log : RateLog) (key : String) (now : Instant) :
    Except LimiterError RateLimitResult × RateLog :=
  let inWindow := recent (now - seconds cfg.windowSeconds) (log key)
  if cfg.maxRequests ≤ inWindow.length then
    match inWindow.min? with
    | none => (.error .valueError, log)
    | some first => (.ok ⟨false, 0, some (first + seconds cfg.windowSeconds)⟩, log)
  else
    (.ok ⟨true, cfg.maxRequests - inWindow.length, some (now + seconds cfg.windowSeconds)⟩,
      Function.update log key (log key ++ [now]))

/-- A reset forgets the key. -/
def reset (log : RateLog) (key : String) : RateLog := Function.update log key []

end RateLog

/-- A call of a limiter, with the instants at which it reads the clock. -/
inductive LimiterCall
  | check (key : String) (cleanupAt now : Instant)
  | reset (key : String)
deriving DecidableEq

/-- The key a call is about. -/
def LimiterCall.key : LimiterCall → String
  | .check key _ _ | .reset key => key

/-- The clock does not go back: from `T` on, in the order of the calls. -/
def LimiterCall.Ordered : Instant → List LimiterCall → Prop
  | _, [] => True
  | T, .check _ cleanupAt now :: calls => T ≤ cleanupAt ∧ cleanupAt ≤ now ∧ Ordered now calls
  | T, .reset _ :: calls => Ordered T calls

instance instDecidableOrdered : ∀ (T : Instant) (calls : List LimiterCall), Decidable (LimiterCall.Ordered T calls)
  | _, [] => isTrue trivial
  | T, .check _ cleanupAt now :: calls =>
      have := instDecidableOrdered now calls
      inferInstanceAs (Decidable (T ≤ cleanupAt ∧ cleanupAt ≤ now ∧ LimiterCall.Ordered now calls))
  | T, .reset _ :: calls => instDecidableOrdered T calls

/-- What a limiter returns: the result of a check, nothing for a reset. -/
abbrev LimiterResult := Option (Except LimiterError RateLimitResult)

namespace Limiter

/-- One call of the limiter. -/
def call (cfg : RateLimitConfig) (st : Limiter) : LimiterCall → LimiterResult × Limiter
  | .check key cleanupAt now => (RateLimiter.check cfg st key cleanupAt now).map some id
  | .reset key => (none, RateLimiter.reset st key)

/-- The results of a sequence of calls. -/
def results (cfg : RateLimitConfig) : Limiter → List LimiterCall → List LimiterResult
  | _, [] => []
  | st, c :: calls => (st.call cfg c).1 :: results cfg (st.call cfg c).2 calls

end Limiter

namespace RateLog

/-- One call of the limiter that forgets nothing. -/
def call (cfg : RateLimitConfig) (log : RateLog) : LimiterCall → LimiterResult × RateLog
  | .check key _ now => (check cfg log key now).map some id
  | .reset key => (none, reset log key)

/-- The results of a sequence of calls. -/
def results (cfg : RateLimitConfig) : RateLog → List LimiterCall → List LimiterResult
  | _, [] => []
  | log, c :: calls => (log.call cfg c).1 :: results cfg (log.call cfg c).2 calls

end RateLog

/-! ### What the operations do to a bucket -/

namespace Buckets

variable {b : Buckets} {key k : String}

theorem bucket_setdefault (b : Buckets) (key k : String) :
    (b.setdefault key).bucket k = b.bucket k := by
  rw [setdefault]
  split
  · rfl
  · rename_i hnew
    have hnone : Dict.get b key = none := Dict.get_eq_none hnew
    rw [bucket, bucket, Dict.get, Dict.get, Keyed.lookup_append]
    by_cases hk : key = k
    · subst hk
      rw [Keyed.lookup_eq_none.mpr hnew]
      simp
    · simp [hk]

theorem mem_setdefault (b : Buckets) (key : String) : key ∈ (b.setdefault key).map Prod.fst := by
  rw [setdefault]
  split
  · assumption
  · simp

theorem nodup_setdefault (h : (b.map Prod.fst).Nodup) (key : String) :
    ((b.setdefault key).map Prod.fst).Nodup := by
  rw [setdefault]
  split
  · exact h
  · rename_i hnew
    exact Keyed.nodup_append h hnew

/-- The keys after `setdefault`. -/
theorem setdefault_keys (hk : k ∈ (b.setdefault key).map Prod.fst) :
    k = key ∨ k ∈ b.map Prod.fst := by
  rw [setdefault] at hk
  split at hk
  · exact Or.inr hk
  · rw [List.map_append, List.mem_append] at hk
    rcases hk with hk | hk
    · exact Or.inr hk
    · exact Or.inl (List.mem_singleton.mp hk)

theorem keys_put (b : Buckets) (key : String) (l : List Instant) :
    (b.put key l).map Prod.fst = b.map Prod.fst := Keyed.map_key_modify fun _ h => h

/-- **Writing a bucket** leaves the others. -/
theorem bucket_put (h : key ∈ b.map Prod.fst) (l : List Instant) (k : String) :
    (b.put key l).bucket k = if k = key then l else b.bucket k := by
  rw [bucket, Dict.get, put, Keyed.lookup_modify Prod.fst (f := fun e => (e.1, l)) fun _ h => h]
  by_cases hk : k = key
  · subst hk
    obtain ⟨e, he, heq⟩ := List.mem_map.mp h
    obtain ⟨e', he'⟩ := Keyed.exists_lookup Prod.fst he
    rw [if_pos rfl, if_pos rfl, ← heq, he']
    rfl
  · rw [if_neg hk, if_neg hk]
    rfl

theorem bucket_drop (ks : List String) (b : Buckets) (k : String) :
    Buckets.bucket (Dict.drop ks b) k = if k ∈ ks then [] else b.bucket k := by
  rw [bucket, Dict.get_drop]
  split
  · rfl
  · rfl

theorem nodup_drop (ks : List String) (h : (b.map Prod.fst).Nodup) :
    ((Dict.drop ks b).map Prod.fst).Nodup := h.sublist (List.filter_sublist.map _)

/-- The bucket of an entry. -/
theorem bucket_of_mem (h : (b.map Prod.fst).Nodup) {e : String × List Instant} (he : e ∈ b) :
    b.bucket e.1 = e.2 := by
  rw [bucket, Dict.get, (Keyed.mem_iff_lookup h).mp he]
  rfl

end Buckets

/-! ### The cleanup cannot be seen -/

namespace Limiter

variable {cfg : RateLimitConfig} {st : Limiter} {b : Buckets}

/-- The cleanup at this instant, if there is one, drops no bucket for the cap. -/
def Uncapped (cfg : RateLimitConfig) (windowSeconds : ℤ) (st : Limiter) (now : Instant) : Prop :=
  seconds cfg.cleanupIntervalSeconds ≤ now - st.lastCleanup →
    ((Dict.drop (expiredKeys st.buckets windowSeconds now) st.buckets).length : ℤ) ≤ cfg.maxKeys

instance (cfg : RateLimitConfig) (windowSeconds : ℤ) (st : Limiter) (now : Instant) :
    Decidable (st.Uncapped cfg windowSeconds now) := by
  unfold Uncapped
  infer_instance

/-- **A cleanup that drops no bucket for the cap cannot be seen** by a window of the limiter. -/
theorem Uncapped.sameFrom {windowSeconds : ℤ} {now : Instant}
    (h : st.Uncapped cfg windowSeconds now) (hnodup : (st.buckets.map Prod.fst).Nodup)
    (hw : 1 ≤ windowSeconds) (k : String) :
    SameFrom (now - seconds windowSeconds)
      ((st.maybeCleanup cfg windowSeconds now).buckets.bucket k) (st.buckets.bucket k) := by
  rw [maybeCleanup]
  split
  · exact .refl _ _
  · rename_i hdue
    rw [capKeys, if_neg (not_lt.mpr (h (not_lt.mp hdue)))]
    rw [Buckets.bucket_drop]
    split
    · rename_i hexp
      obtain ⟨e, he, rfl⟩ := List.mem_map.mp hexp
      obtain ⟨he, hover⟩ := List.mem_filter.mp he
      rw [Buckets.bucket_of_mem hnodup he]
      refine .drop fun ts hts => ?_
      rw [Bool.or_eq_true, List.isEmpty_iff, List.all_eq_true] at hover
      rcases hover with hnil | hall
      · exact absurd (hnil ▸ hts) List.not_mem_nil
      · have hlt : ts < now - seconds (windowSeconds * 2) := of_decide_eq_true (hall ts hts)
        have hdouble : seconds windowSeconds ≤ seconds (windowSeconds * 2) := by
          simp only [seconds]
          omega
        exact le_of_lt (lt_of_lt_of_le hlt (Int.sub_le_sub_left hdouble now))
    · exact .refl _ _

theorem keys_maybeCleanup (cfg : RateLimitConfig) (windowSeconds : ℤ) (st : Limiter) (now : Instant) :
    ((st.maybeCleanup cfg windowSeconds now).buckets).Sublist st.buckets := by
  rw [maybeCleanup]
  split
  · exact List.Sublist.refl _
  · change (capKeys _ _).Sublist _
    rw [capKeys]
    split
    · exact List.filter_sublist.trans List.filter_sublist
    · exact List.filter_sublist

end Limiter

/-! ### The limiter computes the sliding window -/

/-- **The buckets track the log**: no window of the limiter from `T` on can tell them apart. -/
structure Tracks (cfg : RateLimitConfig) (T : Instant) (keys : Finset String) (st : Limiter)
    (log : RateLog) : Prop where
  nodup : (st.buckets.map Prod.fst).Nodup
  keys : ∀ k ∈ st.buckets.map Prod.fst, k ∈ keys
  same : ∀ k, SameFrom (T - seconds cfg.windowSeconds) (st.buckets.bucket k) (log k)

section Refinement

variable {cfg : RateLimitConfig} {T cleanupAt now : Instant} {keys : Finset String} {st : Limiter}
variable {log : RateLog} {key : String}

/-- No more buckets than keys. -/
theorem Tracks.length_le (h : Tracks cfg T keys st log) : st.buckets.length ≤ keys.card := by
  have hsub : (st.buckets.map Prod.fst).toFinset ⊆ keys :=
    fun k hk => h.keys k (List.mem_toFinset.mp hk)
  have := Finset.card_le_card hsub
  rwa [List.toFinset_card_of_nodup h.nodup, List.length_map] at this

/-- The cleanup at the start of a check keeps track of the log. -/
theorem Tracks.maybeCleanup (h : Tracks cfg T keys st log) (hkeys : (keys.card : ℤ) ≤ cfg.maxKeys)
    (hw : 1 ≤ cfg.windowSeconds) (hT : T ≤ cleanupAt) :
    Tracks cfg cleanupAt keys (st.maybeCleanup cfg cfg.windowSeconds cleanupAt) log := by
  have hsub := Limiter.keys_maybeCleanup cfg cfg.windowSeconds st cleanupAt
  have hlen := h.length_le
  have huncapped : st.Uncapped cfg cfg.windowSeconds cleanupAt := by
    intro _
    have hkept : (Dict.drop (Limiter.expiredKeys st.buckets cfg.windowSeconds cleanupAt)
      st.buckets).length ≤ st.buckets.length := List.length_filter_le _ _
    omega
  refine ⟨h.nodup.sublist (hsub.map _), fun k hk => h.keys k ((hsub.map _).subset hk), fun k => ?_⟩
  exact (huncapped.sameFrom h.nodup hw k).trans
    ((h.same k).mono (Int.sub_le_sub_right hT _))

/-- **One check**: the same result, and the buckets keep track of the log. -/
theorem check_agrees (h : Tracks cfg T keys st log) (hkeys : (keys.card : ℤ) ≤ cfg.maxKeys)
    (hw : 1 ≤ cfg.windowSeconds) (hT : T ≤ cleanupAt) (hnow : cleanupAt ≤ now) (hkey : key ∈ keys) :
    (RateLimiter.check cfg st key cleanupAt now).1 = (log.check cfg key now).1 ∧
      Tracks cfg now keys (RateLimiter.check cfg st key cleanupAt now).2 (log.check cfg key now).2 := by
  have hclean := h.maybeCleanup hkeys hw hT
  set st' := st.maybeCleanup cfg cfg.windowSeconds cleanupAt with hst'
  set start := now - seconds cfg.windowSeconds with hstart
  have hle : cleanupAt - seconds cfg.windowSeconds ≤ start := Int.sub_le_sub_right hnow _
  have hbucket : recent start ((st'.buckets.setdefault key).bucket key) = recent start (log key) := by
    rw [Buckets.bucket_setdefault]
    exact hclean.same key start hle
  have hmem := st'.buckets.mem_setdefault key
  -- what any bucket written under the key tracks, the others being as they were
  have htracks : ∀ (l : List Instant) (log' : RateLog), SameFrom start l (log' key) →
      (∀ k, k ≠ key → log' k = log k) →
      Tracks cfg now keys { st' with buckets := (st'.buckets.setdefault key).put key l } log' := by
    intro l log' hl hother
    refine ⟨?_, fun k hk => ?_, fun k => ?_⟩
    · change (((st'.buckets.setdefault key).put key l).map Prod.fst).Nodup
      rw [Buckets.keys_put]
      exact Buckets.nodup_setdefault hclean.nodup key
    · change k ∈ ((st'.buckets.setdefault key).put key l).map Prod.fst at hk
      rw [Buckets.keys_put] at hk
      rcases Buckets.setdefault_keys hk with rfl | hk
      · exact hkey
      · exact hclean.keys k hk
    · change SameFrom start (((st'.buckets.setdefault key).put key l).bucket k) _
      rw [Buckets.bucket_put hmem]
      split
      · rename_i hk
        exact hk ▸ hl
      · rename_i hk
        rw [Buckets.bucket_setdefault, hother k hk]
        exact (hclean.same k).mono hle
  rw [RateLimiter.check, RateLog.check]
  simp only [← hst', ← hstart, hbucket]
  split
  · have hpruned := htracks (recent start (log key)) log (.prune _ _) fun _ _ => rfl
    split
    · exact ⟨rfl, hpruned⟩
    · exact ⟨rfl, hpruned⟩
  · refine ⟨rfl, htracks _ _ ?_ fun k hk => Function.update_of_ne hk _ _⟩
    change SameFrom start _ (Function.update log key (log key ++ [now]) key)
    rw [Function.update_self]
    exact (SameFrom.prune start (log key)).append [now]

/-- A reset forgets the key on both sides. -/
theorem reset_agrees (h : Tracks cfg T keys st log) (key : String) :
    Tracks cfg T keys (RateLimiter.reset st key) (log.reset key) := by
  refine ⟨Buckets.nodup_drop _ h.nodup, fun k hk => h.keys k (Dict.drop_keys_subset hk), fun k => ?_⟩
  change SameFrom _ (Buckets.bucket (Dict.drop [key] st.buckets) k) (Function.update log key [] k)
  rw [Buckets.bucket_drop]
  by_cases hk : k = key
  · rw [if_pos (List.mem_singleton.mpr hk), hk, Function.update_self]
    exact .refl _ _
  · rw [if_neg fun hmem => hk (List.mem_singleton.mp hmem), Function.update_of_ne hk]
    exact h.same k

/-- **A sequence of calls**: the same results. -/
theorem results_agree (calls : List LimiterCall) {T : Instant} {st : Limiter} {log : RateLog}
    (h : Tracks cfg T keys st log) (hkeys : (keys.card : ℤ) ≤ cfg.maxKeys)
    (hw : 1 ≤ cfg.windowSeconds) (hordered : LimiterCall.Ordered T calls)
    (hcalls : ∀ c ∈ calls, c.key ∈ keys) :
    Limiter.results cfg st calls = RateLog.results cfg log calls := by
  induction calls generalizing T st log with
  | nil => rfl
  | cons c calls ih =>
      have hrest : ∀ c' ∈ calls, c'.key ∈ keys := fun c' hc' => hcalls c' (List.mem_cons_of_mem _ hc')
      cases c with
      | check key cleanupAt now =>
          obtain ⟨hT, hnow, hordered⟩ := hordered
          obtain ⟨hres, htracks⟩ :=
            check_agrees h hkeys hw hT hnow (hcalls (.check key cleanupAt now) List.mem_cons_self)
          exact congrArg₂ List.cons (congrArg some hres) (ih htracks hordered hrest)
      | reset key => exact congrArg₂ List.cons rfl (ih (reset_agrees h key) hordered hrest)

end Refinement

/-! ### How many checks a window allows -/

/-- The instants at which calls about a key were allowed a check, by their results. -/
def allowedInstants (key : String) : List LimiterCall → List LimiterResult → List Instant
  | .check k _ now :: calls, some (.ok res) :: rs =>
      if k = key ∧ res.allowed = true then now :: allowedInstants key calls rs
      else allowedInstants key calls rs
  | _ :: calls, _ :: rs => allowedInstants key calls rs
  | _, _ => []

namespace RateLog

variable {cfg : RateLimitConfig} {log : RateLog} {key : String}

/-- The log after a sequence of calls. -/
def after (cfg : RateLimitConfig) (log : RateLog) (calls : List LimiterCall) : RateLog :=
  calls.foldl (fun log c => (log.call cfg c).2) log

theorem results_append (calls calls' : List LimiterCall) (log : RateLog) :
    results cfg log (calls ++ calls') =
      results cfg log calls ++ results cfg (log.after cfg calls) calls' := by
  induction calls generalizing log with
  | nil => rfl
  | cons c calls ih => exact congrArg (List.cons _) (ih _)

theorem length_results (calls : List LimiterCall) (log : RateLog) :
    (results cfg log calls).length = calls.length := by
  induction calls generalizing log with
  | nil => rfl
  | cons c calls ih => exact congrArg Nat.succ (ih _)

/-- **What a check does to the log**: nothing, or it appends an instant the window has room for. -/
theorem check_cases (cfg : RateLimitConfig) (log : RateLog) (key : String) (now : Instant) :
    (log.check cfg key now).2 = log ∧
        (∀ res, (log.check cfg key now).1 = .ok res → res.allowed = false) ∨
      (log.check cfg key now).2 = Function.update log key (log key ++ [now]) ∧
        ((recent (now - seconds cfg.windowSeconds) (log key)).length : ℤ) < cfg.maxRequests ∧
        ∃ res, (log.check cfg key now).1 = .ok res ∧ res.allowed = true := by
  rw [check]
  split
  · left
    split
    · exact ⟨rfl, fun res h => absurd h (by simp)⟩
    · exact ⟨rfl, fun res h => Except.ok.inj h ▸ rfl⟩
  · rename_i hroom
    exact Or.inr ⟨rfl, not_le.mp hroom, _, rfl, rfl⟩

/-- One call keeps every window within the limit. -/
theorem limited_call (c : LimiterCall)
    (h : ∀ key, Limited (seconds cfg.windowSeconds) cfg.maxRequests.toNat (log key)) :
    ∀ key, Limited (seconds cfg.windowSeconds) cfg.maxRequests.toNat ((log.call cfg c).2 key) := by
  intro k
  cases c with
  | reset key =>
      change Limited _ _ (Function.update log key [] k)
      by_cases hk : k = key
      · rw [hk, Function.update_self]
        exact limited_nil
      · rw [Function.update_of_ne hk]
        exact h k
  | check key cleanupAt now =>
      change Limited _ _ ((log.check cfg key now).2 k)
      rcases check_cases cfg log key now with ⟨hsame, -⟩ | ⟨hlog, hroom, -⟩
      · rw [hsame]
        exact h k
      · rw [hlog]
        by_cases hk : k = key
        · rw [hk, Function.update_self]
          exact (h key).append (by omega)
        · rw [Function.update_of_ne hk]
          exact h k

/-- Between resets the log of a key grows by the checks that were allowed. -/
theorem after_eq_append (calls rest : List LimiterCall) (hreset : .reset key ∉ calls)
    (log : RateLog) : log.after cfg calls key =
      log key ++ allowedInstants key calls (results cfg log (calls ++ rest)) := by
  induction calls generalizing log with
  | nil => simp [after, allowedInstants]
  | cons c calls ih =>
      have htail := ih (fun h => hreset (List.mem_cons_of_mem _ h)) (log.call cfg c).2
      have hcons : results cfg log (c :: calls ++ rest) =
          (log.call cfg c).1 :: results cfg (log.call cfg c).2 (calls ++ rest) := rfl
      rw [hcons]
      change after cfg (log.call cfg c).2 calls key = _
      rw [htail]
      cases c with
      | reset k =>
          have hk : k ≠ key := fun hk => hreset (hk ▸ List.mem_cons_self)
          change Function.update log k [] key ++ _ = _
          rw [Function.update_of_ne (Ne.symm hk)]
          rfl
      | check k cleanupAt now =>
          change (log.check cfg k now).2 key ++ _ =
            log key ++ allowedInstants key (.check k cleanupAt now :: calls)
              (some (log.check cfg k now).1 :: _)
          rcases check_cases cfg log k now with ⟨hsame, href⟩ | ⟨hlog, -, res, hres, hall⟩
          · rw [hsame]
            cases hr : (log.check cfg k now).1 with
            | error e => rfl
            | ok res => rw [allowedInstants, if_neg (by simp [href res hr])]
          · rw [hlog, hres, allowedInstants]
            by_cases hk : k = key
            · rw [if_pos ⟨hk, hall⟩, hk, Function.update_self, List.append_assoc]
              rfl
            · rw [if_neg fun h => hk h.1, Function.update_of_ne (Ne.symm hk)]

/-- With a positive limit a refused check has something to compute its reset from. -/
theorem results_ok (hmax : 1 ≤ cfg.maxRequests) (calls : List LimiterCall) (log : RateLog) :
    ∀ r ∈ results cfg log calls, ∀ x ∈ r, ∃ res, x = .ok res := by
  induction calls generalizing log with
  | nil => exact fun r hr => absurd hr List.not_mem_nil
  | cons c calls ih =>
      intro r hr
      rcases List.mem_cons.mp hr with rfl | hr
      · cases c with
        | reset key => exact fun x hx => absurd hx (by simp [call])
        | check key cleanupAt now =>
            intro x hx
            obtain rfl : (log.check cfg key now).1 = x := Option.some.inj hx
            rw [check]
            split
            · rename_i hfull
              split
              · rename_i hnone
                rw [List.min?_eq_none_iff.mp hnone] at hfull
                exact absurd (hmax.trans hfull) (by simp)
              · exact ⟨_, rfl⟩
            · exact ⟨_, rfl⟩
      · exact ih _ r hr

/-- **Between resets no window allows more checks of a key than the limit.** -/
theorem limited_between_resets (pre mid post : List LimiterCall) (hreset : .reset key ∉ mid) :
    Limited (seconds cfg.windowSeconds) cfg.maxRequests.toNat (allowedInstants key mid
      ((results cfg (fun _ => []) (pre ++ (mid ++ post))).drop pre.length)) := by
  have hall : ∀ (calls : List LimiterCall) (log : RateLog),
      (∀ key, Limited (seconds cfg.windowSeconds) cfg.maxRequests.toNat (log key)) →
      ∀ key, Limited (seconds cfg.windowSeconds) cfg.maxRequests.toNat (log.after cfg calls key) := by
    intro calls
    induction calls with
    | nil => exact fun _ h => h
    | cons c calls ih => exact fun log h => ih _ (limited_call c h)
  have hlimited := hall mid _ (hall pre (fun _ => []) fun _ => limited_nil) key
  have hdrop : (results cfg (fun _ => []) (pre ++ (mid ++ post))).drop pre.length =
      results cfg (RateLog.after cfg (fun _ => []) pre) (mid ++ post) := by
    rw [results_append, List.drop_left' (length_results pre _)]
  rw [hdrop]
  rw [after_eq_append mid post hreset] at hlimited
  exact hlimited.sublist (List.sublist_append_right _ _)

end RateLog

/-- **The in-memory rate limiter is an exact sliding window.** Over at most `max_keys` keys, with a
clock that does not go back, a new limiter returns what the limiter that forgets nothing returns,
and between resets no window of `window_seconds` allows more than `max_requests` checks of one
key. -/
theorem memory_is_sliding_window (cfg : RateLimitConfig) (hmax : 1 ≤ cfg.maxRequests)
    (hwindow : 1 ≤ cfg.windowSeconds) (created : Instant) (calls : List LimiterCall)
    (hordered : LimiterCall.Ordered created calls)
    (hkeys : ((calls.map LimiterCall.key).toFinset.card : ℤ) ≤ cfg.maxKeys) :
    Limiter.results cfg (.new created) calls = RateLog.results cfg (fun _ => []) calls ∧
      (∀ r ∈ Limiter.results cfg (.new created) calls, ∀ x ∈ r, ∃ res, x = .ok res) ∧
      ∀ key pre mid post, calls = pre ++ (mid ++ post) → .reset key ∉ mid →
        Limited (seconds cfg.windowSeconds) cfg.maxRequests.toNat (allowedInstants key mid
          ((Limiter.results cfg (.new created) calls).drop pre.length)) := by
  have hstart : Tracks cfg created (calls.map LimiterCall.key).toFinset (.new created)
      (fun _ => []) := by
    refine ⟨List.nodup_nil, fun k hk => absurd hk List.not_mem_nil, fun k => .refl _ _⟩
  have hres := results_agree calls hstart hkeys hwindow hordered fun c hc =>
    List.mem_toFinset.mpr (List.mem_map_of_mem hc)
  refine ⟨hres, ?_, ?_⟩
  · rw [hres]
    exact RateLog.results_ok hmax calls _
  · rintro key pre mid post rfl hreset
    rw [hres]
    exact RateLog.limited_between_resets pre mid post hreset

/-- Two keys, a reset and a cleanup in between: the third check of one key within its window is
refused, and the window moves on. -/
def limiterCalls : List LimiterCall :=
  [.check "a" 0 0, .check "a" (seconds 1) (seconds 1), .check "b" (seconds 2) (seconds 2),
    .check "a" (seconds 3) (seconds 3), .reset "b", .check "a" (seconds 60) (seconds 60),
    .check "a" (seconds 400) (seconds 400)]

/-- The results of these calls, and that no window allows more than two checks of `a`. -/
theorem limiter_calls_limited :
    (Limiter.results { maxRequests := 2 } (.new 0) limiterCalls).map
        (Option.map fun x => x.toOption.map RateLimitResult.allowed) =
      [some (some true), some (some true), some (some true), some (some false), none,
        some (some true), some (some true)] ∧
      Limited (seconds 60) 2 (allowedInstants "a" limiterCalls
        (Limiter.results { maxRequests := 2 } (.new 0) limiterCalls)) := by
  have h := memory_is_sliding_window { maxRequests := 2 } (by decide) (by decide) 0 limiterCalls
    (by decide) (by decide +kernel)
  refine ⟨?_, h.2.2 "a" [] limiterCalls [] (by rw [List.append_nil]; rfl) (by decide)⟩
  rw [h.1]
  decide +kernel

end BackendTemplate
