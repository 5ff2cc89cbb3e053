import BackendTemplate.LimiterBackends

/-!
# When a Refused Check May Be Made Again

A refused check of `InMemoryRateLimiter` reports the instant at which the oldest check it counts
leaves the window, and `retry_after_seconds` makes whole seconds of what is left until then,
truncated. A bucket holds at most `max_requests` instants, so a later check of the key is allowed
just when that oldest one is gone (`allowed_again_iff`), or when the limiter has forgotten the
bucket in the meantime. What is truncated away is therefore too early by a fraction of a second.

## Main results

* `Limiter.bucket_after` — what calls about other keys leave of a bucket.
* `retry_after_honest_iff` — a check made `Retry-After` seconds later is allowed exactly when the
  oldest instant leaves on a whole second.
-/

namespace BackendTemplate

open SlidingWindow

/-! ### Runs of calls -/

namespace Limiter

/-- The limiter after a sequence of calls. -/
def after (cfg : RateLimitConfig) (st : Limiter) (calls : List LimiterCall) : Limiter :=
  calls.foldl (fun st c => (st.call cfg c).2) st

/-- **The limiter forgets a key** along a sequence of calls: one of them resets it, or the cleanup
at the start of one drops its bucket. -/
def Forgets (cfg : RateLimitConfig) (key : String) : Limiter → List LimiterCall → Prop
  | _, [] => False
  | st, .reset k :: calls => k = key ∨ Forgets cfg key (RateLimiter.reset st k) calls
  | st, .check k cleanupAt now :: calls =>
      st.Drops cfg key cleanupAt ∨
        Forgets cfg key (RateLimiter.check cfg st k cleanupAt now).2 calls

/-- The oldest instant a check of the key counts. -/
def oldestCounted (cfg : RateLimitConfig) (st : Limiter) (key : String) (now : Instant) :
    Option Instant :=
  (recent (now - seconds cfg.windowSeconds) (st.buckets.bucket key)).min?

/-- **The oldest instant leaves on a whole second**: the time until it has left the window is at
most one second, or a number of whole seconds. -/
def LeavesOnSecond (cfg : RateLimitConfig) (st : Limiter) (key : String) (now : Instant) : Prop :=
  ∀ first ∈ st.oldestCounted cfg key now,
    first + seconds cfg.windowSeconds - now ≤ seconds 1 ∨
      seconds 1 ∣ first + seconds cfg.windowSeconds - now

instance (cfg : RateLimitConfig) (st : Limiter) (key : String) (now : Instant) :
    Decidable (st.LeavesOnSecond cfg key now) := by
  unfold LeavesOnSecond
  infer_instance

end Limiter

/-- Not a check of this key. -/
def LimiterCall.Other (key : String) : LimiterCall → Prop
  | .check k _ _ => k ≠ key
  | .reset _ => True

section

variable {cfg : RateLimitConfig} {st : Limiter} {key k : String} {cleanupAt now : Instant}

/-! ### One check -/

/-- A check of another key leaves of a bucket what its cleanup does. -/
theorem bucket_check_ne (hk : k ≠ key) :
    (RateLimiter.check cfg st k cleanupAt now).2.buckets.bucket key =
      st.kept cfg key cleanupAt := by
  have hmem := (st.maybeCleanup cfg cfg.windowSeconds cleanupAt).buckets.mem_setdefault k
  have hput : ∀ l, (((st.maybeCleanup cfg cfg.windowSeconds cleanupAt).buckets.setdefault k).put
      k l).bucket key = st.kept cfg key cleanupAt := fun l => by
    rw [Buckets.bucket_put hmem, if_neg (Ne.symm hk), Buckets.bucket_setdefault,
      bucket_maybeCleanup]
  rw [RateLimiter.check]
  dsimp only
  split
  · split
    · exact hput _
    · exact hput _
  · exact hput _

/-- **What a check returns and leaves in its bucket**, by the instants it counts. -/
theorem check_spec (hmax : 1 ≤ cfg.maxRequests) (st : Limiter) (key : String)
    (cleanupAt now : Instant) {counted : List Instant}
    (hcounted : recent (now - seconds cfg.windowSeconds) (st.kept cfg key cleanupAt) = counted) :
    ((counted.length : ℤ) < cfg.maxRequests →
        (∃ res, (RateLimiter.check cfg st key cleanupAt now).1 = .ok res ∧ res.allowed = true) ∧
        (RateLimiter.check cfg st key cleanupAt now).2.buckets.bucket key = counted ++ [now]) ∧
      (cfg.maxRequests ≤ counted.length →
        (∃ first, counted.min? = some first ∧ (RateLimiter.check cfg st key cleanupAt now).1 =
          .ok ⟨false, 0, some (first + seconds cfg.windowSeconds)⟩) ∧
        (RateLimiter.check cfg st key cleanupAt now).2.buckets.bucket key = counted) := by
  have hbucket : recent (now - seconds cfg.windowSeconds)
      (((st.maybeCleanup cfg cfg.windowSeconds cleanupAt).buckets.setdefault key).bucket key) =
        counted := by
    rw [Buckets.bucket_setdefault, bucket_maybeCleanup, hcounted]
  have hmem := (st.maybeCleanup cfg cfg.windowSeconds cleanupAt).buckets.mem_setdefault key
  have hput : ∀ l, (((st.maybeCleanup cfg cfg.windowSeconds cleanupAt).buckets.setdefault key).put
      key l).bucket key = l := fun l => by rw [Buckets.bucket_put hmem, if_pos rfl]
  rw [RateLimiter.check]
  simp only [hbucket]
  constructor
  · intro hroom
    simp only [if_neg (not_le.mpr hroom)]
    exact ⟨⟨_, rfl, rfl⟩, hput _⟩
  · intro hfull
    simp only [if_pos hfull]
    cases hmin : counted.min? with
    | none =>
        rw [List.min?_eq_none_iff.mp hmin] at hfull
        exact absurd (hmax.trans hfull) (by decide)
    | some first => exact ⟨⟨first, rfl, rfl⟩, hput _⟩

/-- A check is allowed just when it counts fewer than `max_requests` instants. -/
theorem allowed_iff (hmax : 1 ≤ cfg.maxRequests) :
    (∃ res, (RateLimiter.check cfg st key cleanupAt now).1 = .ok res ∧ res.allowed = true) ↔
      ((recent (now - seconds cfg.windowSeconds) (st.kept cfg key cleanupAt)).length : ℤ) <
        cfg.maxRequests := by
  obtain ⟨hroom, hfull⟩ := check_spec hmax st key cleanupAt now rfl
  refine ⟨fun ⟨res, hres, hall⟩ => ?_, fun h => (hroom h).1⟩
  by_contra hlt
  obtain ⟨⟨first, -, href⟩, -⟩ := hfull (not_lt.mp hlt)
  obtain rfl := Except.ok.inj (href.symm.trans hres)
  cases hall

/-- The cleanup does not lengthen a bucket. -/
theorem length_kept_le : (st.kept cfg key cleanupAt).length ≤ (st.buckets.bucket key).length := by
  rw [Limiter.kept]
  split
  · exact Nat.zero_le _
  · exact le_rfl

/-! ### Runs -/

/-- **No bucket ever holds more than `max_requests` instants.** -/
theorem length_bucket_call (hmax : 1 ≤ cfg.maxRequests)
    (h : ∀ key, ((st.buckets.bucket key).length : ℤ) ≤ cfg.maxRequests) (c : LimiterCall)
    (key : String) : (((st.call cfg c).2.buckets.bucket key).length : ℤ) ≤ cfg.maxRequests := by
  cases c with
  | reset k =>
      change ((Buckets.bucket (Dict.drop [k] st.buckets) key).length : ℤ) ≤ _
      rw [Buckets.bucket_drop]
      split
      · simpa using hmax.trans' (by decide)
      · exact h key
  | check k cleanupAt now =>
      change (((RateLimiter.check cfg st k cleanupAt now).2.buckets.bucket key).length : ℤ) ≤ _
      have hkept := h key
      have hle := @length_kept_le cfg st key cleanupAt
      by_cases hk : k = key
      · subst hk
        obtain ⟨hroom, hfull⟩ := check_spec hmax st k cleanupAt now rfl
        have hrecent : (recent (now - seconds cfg.windowSeconds)
            (st.kept cfg k cleanupAt)).length ≤ (st.kept cfg k cleanupAt).length :=
          List.length_filter_le _ _
        rcases lt_or_ge ((recent (now - seconds cfg.windowSeconds)
            (st.kept cfg k cleanupAt)).length : ℤ) cfg.maxRequests with hlt | hge
        · rw [(hroom hlt).2, List.length_append, List.length_singleton]
          omega
        · rw [(hfull hge).2]
          omega
      · rw [bucket_check_ne hk]
        omega

theorem length_bucket_after (hmax : 1 ≤ cfg.maxRequests) (created : Instant)
    (calls : List LimiterCall) (key : String) :
    ((((Limiter.new created).after cfg calls).buckets.bucket key).length : ℤ) ≤
      cfg.maxRequests := by
  suffices h : ∀ st : Limiter, (∀ key, ((st.buckets.bucket key).length : ℤ) ≤ cfg.maxRequests) →
      ∀ key, (((st.after cfg calls).buckets.bucket key).length : ℤ) ≤ cfg.maxRequests by
    refine h _ (fun k => ?_) key
    rw [bucket_eq_nil List.not_mem_nil]
    exact (by decide : ((0 : ℕ) : ℤ) ≤ 1).trans hmax
  induction calls with
  | nil => exact fun st h => h
  | cons c calls ih => exact fun st h => ih _ (length_bucket_call hmax h c)

/-- **What calls about other keys leave of a bucket**: all of it, or nothing once the limiter has
forgotten the key. -/
theorem Limiter.bucket_after {calls : List LimiterCall} (hother : ∀ c ∈ calls, c.Other key)
    (st : Limiter) :
    ((st.Forgets cfg key calls → (st.after cfg calls).buckets.bucket key = []) ∧
      (¬ st.Forgets cfg key calls →
        (st.after cfg calls).buckets.bucket key = st.buckets.bucket key)) ∧
      (st.buckets.bucket key = [] → (st.after cfg calls).buckets.bucket key = []) := by
  induction calls generalizing st with
  | nil => exact ⟨⟨False.elim, fun _ => rfl⟩, id⟩
  | cons c calls ih =>
      obtain ⟨⟨hforgets, hkeeps⟩, hempty⟩ :=
        ih (fun c' hc' => hother c' (List.mem_cons_of_mem _ hc')) (st.call cfg c).2
      cases c with
      | reset k =>
          have hdrop : (RateLimiter.reset st k).buckets.bucket key =
              if key = k then [] else st.buckets.bucket key := by
            change Buckets.bucket (Dict.drop [k] st.buckets) key = _
            simp only [Buckets.bucket_drop, List.mem_singleton]
          refine ⟨⟨?_, ?_⟩, fun h => hempty ?_⟩
          · rintro (rfl | h)
            · exact hempty (hdrop.trans (if_pos rfl))
            · exact hforgets h
          · intro h
            rw [Forgets, not_or] at h
            exact (hkeeps h.2).trans (hdrop.trans (if_neg (Ne.symm h.1)))
          · refine hdrop.trans ?_
            split
            · rfl
            · exact h
      | check k cleanupAt now =>
          have hk : k ≠ key := hother (.check k cleanupAt now) List.mem_cons_self
          have hcheck := @bucket_check_ne cfg st key k cleanupAt now hk
          refine ⟨⟨?_, ?_⟩, fun h => hempty ?_⟩
          · rintro (h | h)
            · exact hempty (hcheck.trans (if_pos h))
            · exact hforgets h
          · intro h
            rw [Forgets, not_or] at h
            exact (hkeeps h.2).trans (hcheck.trans (if_neg h.1))
          · exact List.length_eq_zero_iff.mp (Nat.le_zero.mp
              ((congrArg List.length hcheck).le.trans (length_kept_le.trans (by rw [h]; rfl))))

/-! ### Nothing is forgotten while there is room -/

/-- **The limiter is settled** at an instant: its keys are distinct and among some, and its buckets
hold nothing later. -/
structure Limiter.Settled (keys : Finset String) (T : Instant) (st : Limiter) : Prop where
  nodup : (st.buckets.map Prod.fst).Nodup
  keys : ∀ k ∈ st.buckets.map Prod.fst, k ∈ keys
  past : ∀ k, ∀ ts ∈ st.buckets.bucket k, ts ≤ T

/-- A check settles the limiter at its instant. -/
theorem Limiter.Settled.check {keys : Finset String} {T : Instant} (h : st.Settled keys T)
    (hmax : 1 ≤ cfg.maxRequests) (hT : T ≤ now) (hk : k ∈ keys) :
    (RateLimiter.check cfg st k cleanupAt now).2.Settled keys now := by
  have hclean := (Limiter.keys_maybeCleanup cfg cfg.windowSeconds st cleanupAt).map Prod.fst
  have hkept : ∀ k, ∀ ts ∈ st.kept cfg k cleanupAt, ts ≤ now := fun k ts hts =>
    (h.past k ts (mem_of_mem_kept hts)).trans hT
  refine ⟨?_, ?_, fun k' ts hts => ?_⟩
  · rw [keys_check]
    exact Buckets.nodup_setdefault (h.nodup.sublist hclean) k
  · intro k' hk'
    rw [keys_check] at hk'
    rcases Buckets.setdefault_keys hk' with rfl | hk'
    · exact hk
    · exact h.keys k' (hclean.subset hk')
  · by_cases hkk : k = k'
    · subst hkk
      obtain ⟨hroom, hfull⟩ := check_spec hmax st k cleanupAt now rfl
      rcases lt_or_ge ((recent (now - seconds cfg.windowSeconds)
          (st.kept cfg k cleanupAt)).length : ℤ) cfg.maxRequests with hlt | hge
      · rw [(hroom hlt).2] at hts
        rcases List.mem_append.mp hts with hts | hts
        · exact hkept k ts (mem_recent.mp hts).1
        · exact (List.mem_singleton.mp hts).le
      · rw [(hfull hge).2] at hts
        exact hkept k ts (mem_recent.mp hts).1
    · rw [bucket_check_ne hkk] at hts
      exact hkept k' ts hts

/-- A reset leaves the limiter settled. -/
theorem Limiter.Settled.reset {keys : Finset String} {T : Instant} (h : st.Settled keys T)
    (k : String) : (RateLimiter.reset st k).Settled keys T := by
  refine ⟨Buckets.nodup_drop _ h.nodup, fun k' hk' => h.keys k' (Dict.drop_keys_subset hk'),
    fun k' ts hts => ?_⟩
  change ts ∈ Buckets.bucket (Dict.drop [k] st.buckets) k' at hts
  rw [Buckets.bucket_drop] at hts
  split at hts
  · exact absurd hts List.not_mem_nil
  · exact h.past k' ts hts

/-- A sequence of calls leaves the limiter settled. -/
theorem Limiter.Settled.after {keys : Finset String} (hmax : 1 ≤ cfg.maxRequests)
    (calls : List LimiterCall) (hcalls : ∀ c ∈ calls, c.key ∈ keys) {rest : List LimiterCall}
    {T : Instant} {st : Limiter} (h : st.Settled keys T)
    (hordered : LimiterCall.Ordered T (calls ++ rest)) :
    ∃ T', (st.after cfg calls).Settled keys T' ∧ LimiterCall.Ordered T' rest := by
  induction calls generalizing T st with
  | nil => exact ⟨T, h, hordered⟩
  | cons c calls ih =>
      have hrest := fun c' hc' => hcalls c' (List.mem_cons_of_mem _ hc')
      cases c with
      | reset k => exact ih hrest (h.reset k) hordered
      | check k cleanupAt now =>
          obtain ⟨hclean, hnow, hordered⟩ := hordered
          exact ih hrest (h.check hmax (hclean.trans hnow)
            (hcalls (.check k cleanupAt now) List.mem_cons_self)) hordered

/-- With room for all its keys, the cleanup does not drop a bucket that holds something recent. -/
theorem not_drops_of_recent {keys : Finset String} {T ts : Instant} (h : st.Settled keys T)
    (hroom : (keys.card : ℤ) ≤ cfg.maxKeys) (hts : ts ∈ st.buckets.bucket key)
    (hrecent : cleanupAt - seconds (cfg.windowSeconds * 2) ≤ ts) :
    ¬ st.Drops cfg key cleanupAt := by
  rintro ⟨hmem, hgone⟩
  have hlen : (st.buckets.length : ℤ) ≤ cfg.maxKeys := by
    have hsub : (st.buckets.map Prod.fst).toFinset ⊆ keys :=
      fun k hk => h.keys k (List.mem_toFinset.mp hk)
    have hcard := Finset.card_le_card hsub
    rw [List.toFinset_card_of_nodup h.nodup, List.length_map] at hcard
    omega
  have hkept : (Dict.drop (Limiter.expiredKeys st.buckets cfg.windowSeconds cleanupAt)
      st.buckets).length ≤ st.buckets.length := List.length_filter_le _ _
  apply hgone
  rw [Limiter.maybeCleanup]
  split
  · exact hmem
  · dsimp only
    rw [Limiter.capKeys, if_neg (by omega)]
    refine Dict.mem_drop (fun hexpired => ?_) hmem
    obtain ⟨e, he, rfl⟩ := List.mem_map.mp hexpired
    obtain ⟨he, hover⟩ := List.mem_filter.mp he
    rw [Buckets.bucket_of_mem h.nodup he] at hts
    rw [Bool.or_eq_true, List.isEmpty_iff, List.all_eq_true] at hover
    rcases hover with hnil | hall
    · exact absurd (hnil ▸ hts) List.not_mem_nil
    · exact absurd (of_decide_eq_true (hall ts hts)) (not_lt.mpr hrecent)

/-- The last instant of an ordered sequence of calls. -/
theorem le_of_ordered {calls : List LimiterCall} {T : Instant}
    (h : LimiterCall.Ordered T (calls ++ [.check k cleanupAt now])) : T ≤ now := by
  induction calls generalizing T with
  | nil => exact h.1.trans h.2.1
  | cons c calls ih =>
      cases c with
      | reset k' => exact ih h
      | check k' cleanupAt' now' => exact (h.1.trans h.2.1).trans (ih h.2.2)

/-- **With room for all its keys, the limiter forgets no bucket that holds something recent.** -/
theorem not_forgets_of_room {keys : Finset String} (hmax : 1 ≤ cfg.maxRequests)
    (hroom : (keys.card : ℤ) ≤ cfg.maxKeys) {ts : Instant}
    (hrecent : now - seconds (cfg.windowSeconds * 2) ≤ ts) {between : List LimiterCall}
    (hother : ∀ c ∈ between, c.Other key) (hreset : .reset key ∉ between)
    (hcalls : ∀ c ∈ between, c.key ∈ keys) {T : Instant} {st : Limiter}
    (h : st.Settled keys T) (hts : ts ∈ st.buckets.bucket key)
    (hordered : LimiterCall.Ordered T (between ++ [.check key cleanupAt now])) :
    ¬ st.Forgets cfg key (between ++ [.check key cleanupAt now]) := by
  induction between generalizing T st with
  | nil =>
      rintro (hdrops | hnil)
      · refine not_drops_of_recent h hroom hts ?_ hdrops
        exact (Int.sub_le_sub_right hordered.2.1 _).trans hrecent
      · exact hnil
  | cons c between ih =>
      have hrest := fun c' hc' => hother c' (List.mem_cons_of_mem _ hc')
      have hrest' := fun c' hc' => hcalls c' (List.mem_cons_of_mem _ hc')
      have hreset' := fun hmem => hreset (List.mem_cons_of_mem _ hmem)
      cases c with
      | reset k =>
          have hk : k ≠ key := by
            rintro rfl
            exact hreset List.mem_cons_self
          have hts' : ts ∈ (RateLimiter.reset st k).buckets.bucket key := by
            change ts ∈ Buckets.bucket (Dict.drop [k] st.buckets) key
            rw [Buckets.bucket_drop, if_neg (fun hmem => hk (List.mem_singleton.mp hmem).symm)]
            exact hts
          rintro (rfl | hforgets)
          · exact hk rfl
          · exact ih hrest hreset' hrest' (h.reset k) hts' hordered hforgets
      | check k cleanupAt' now' =>
          obtain ⟨hclean, hnow, hordered⟩ := hordered
          have hk : k ≠ key := hother (.check k cleanupAt' now') List.mem_cons_self
          have hle : cleanupAt' ≤ now := hnow.trans (le_of_ordered hordered)
          have hdrops := not_drops_of_recent h hroom hts
            ((Int.sub_le_sub_right hle _).trans hrecent)
          have hts' : ts ∈ (RateLimiter.check cfg st k cleanupAt' now').2.buckets.bucket key := by
            rw [bucket_check_ne hk, Limiter.kept, if_neg hdrops]
            exact hts
          rintro (hd | hforgets)
          · exact hdrops hd
          · exact ih hrest hreset' hrest' (h.check hmax (hclean.trans hnow)
              (hcalls (.check k cleanupAt' now') List.mem_cons_self)) hts' hordered hforgets

/-! ### A refused check, made again -/

/-- **The truncated seconds are enough** just when nothing is truncated away, or less than a second
is left. -/
theorem le_retryAfter_iff {d : ℤ} (hd : 0 < d) :
    d ≤ seconds (max 1 (d.tdiv (seconds 1))) ↔ d ≤ seconds 1 ∨ seconds 1 ∣ d := by
  have htdiv : d.tdiv (seconds 1) = d / seconds 1 := Int.tdiv_eq_ediv_of_nonneg hd.le
  rw [htdiv]
  simp only [seconds]
  omega

/-- When the oldest instant has left the window. -/
theorem leaves_iff {first now w r : ℤ} :
    first ≤ now + seconds r - seconds w ↔ first + seconds w - now ≤ seconds r := by
  omega

/-- A refused check is told to wait for a window at most, so that what it counted cannot expire
before. -/
theorem retry_in_window {first now w : ℤ} (hw : 1 ≤ w) (hfirst : first ≤ now)
    (hpos : 0 < first + seconds w - now) :
    now + seconds (max 1 ((first + seconds w - now).tdiv (seconds 1))) - seconds (w * 2) ≤
      first := by
  rw [Int.tdiv_eq_ediv_of_nonneg hpos.le]
  simp only [seconds] at *
  omega

/-- The instants that count, at a later instant: fewer of them just when the oldest is gone. -/
theorem length_recent_lt_iff {s : Instant} {counted : List Instant} {first : Instant}
    (hmin : counted.min? = some first) : (recent s counted).length < counted.length ↔ first ≤ s := by
  obtain ⟨hmem, hle⟩ := List.min?_eq_some_iff.mp hmin
  rw [recent, List.length_filter_lt_length_iff_exists]
  constructor
  · rintro ⟨t, ht, hs⟩
    exact (hle t ht).trans (by simpa using hs)
  · intro hs
    exact ⟨first, hmem, by simpa using hs⟩

/-- A check of the key at that instant, after a sequence of calls, is allowed. -/
def Limiter.AllowsAfter (cfg : RateLimitConfig) (key : String) (st : Limiter)
    (calls : List LimiterCall) (cleanupAt now : Instant) : Prop :=
  ∃ res, (RateLimiter.check cfg (st.after cfg calls) key cleanupAt now).1 = .ok res ∧
    res.allowed = true

/-- **What a refused check found, reported and left.** -/
theorem refused_spec (hmax : 1 ≤ cfg.maxRequests) {res : RateLimitResult}
    (hres : (RateLimiter.check cfg st key cleanupAt now).1 = .ok res)
    (hrefused : res.allowed = false) :
    ∃ first, st.oldestCounted cfg key now = some first ∧
      res = ⟨false, 0, some (first + seconds cfg.windowSeconds)⟩ ∧
      (RateLimiter.check cfg st key cleanupAt now).2.buckets.bucket key =
        recent (now - seconds cfg.windowSeconds) (st.buckets.bucket key) ∧
      cfg.maxRequests ≤
        (recent (now - seconds cfg.windowSeconds) (st.buckets.bucket key)).length := by
  have hfull : cfg.maxRequests ≤
      (recent (now - seconds cfg.windowSeconds) (st.kept cfg key cleanupAt)).length := by
    by_contra hlt
    obtain ⟨res', hres', hall⟩ := (allowed_iff hmax).mpr (not_le.mp hlt)
    obtain rfl := Except.ok.inj (hres'.symm.trans hres)
    rw [hrefused] at hall
    cases hall
  -- a bucket that the cleanup drops counts nothing, and nothing is not refused
  have hkept : st.kept cfg key cleanupAt = st.buckets.bucket key := by
    rw [Limiter.kept] at hfull ⊢
    split at hfull
    · rw [recent_nil] at hfull
      exact absurd (hmax.trans hfull) (by decide)
    · rename_i hdrops
      exact if_neg hdrops
  obtain ⟨⟨first, hfirst, hcheck⟩, hleft⟩ := (check_spec hmax st key cleanupAt now rfl).2 hfull
  rw [hkept] at hfirst hleft hfull
  exact ⟨first, hfirst, Except.ok.inj (hres.symm.trans hcheck), hleft, hfull⟩

/-- **A refused check is allowed again** when the oldest instant it counted has left the window, or
the limiter has forgotten the key. -/
theorem allowed_again_iff (hmax : 1 ≤ cfg.maxRequests)
    (hbound : ((st.buckets.bucket key).length : ℤ) ≤ cfg.maxRequests) {res : RateLimitResult}
    (hres : (RateLimiter.check cfg st key cleanupAt now).1 = .ok res)
    (hrefused : res.allowed = false) {first : Instant}
    (hfirst : st.oldestCounted cfg key now = some first) {between : List LimiterCall}
    (hother : ∀ c ∈ between, c.Other key) (retryAt later : Instant) :
    (RateLimiter.check cfg st key cleanupAt now).2.AllowsAfter cfg key between retryAt later ↔
      first ≤ later - seconds cfg.windowSeconds ∨
        (RateLimiter.check cfg st key cleanupAt now).2.Forgets cfg key
          (between ++ [.check key retryAt later]) := by
  obtain ⟨first', hfirst', -, hleft, hfull⟩ := refused_spec hmax hres hrefused
  obtain rfl : first' = first := Option.some.inj (hfirst'.symm.trans hfirst)
  set st' := (RateLimiter.check cfg st key cleanupAt now).2
  set counted := recent (now - seconds cfg.windowSeconds) (st.buckets.bucket key)
  have hlen : (counted.length : ℤ) = cfg.maxRequests := by
    have : counted.length ≤ (st.buckets.bucket key).length := List.length_filter_le _ _
    omega
  have hforgets : ∀ (between : List LimiterCall) (st : Limiter),
      st.Forgets cfg key (between ++ [.check key retryAt later]) ↔
        st.Forgets cfg key between ∨ (st.after cfg between).Drops cfg key retryAt := by
    intro between
    induction between with
    | nil => exact fun st => (or_comm.trans (or_congr Iff.rfl Iff.rfl))
    | cons c between ih =>
        intro st
        cases c with
        | reset k => exact (or_congr Iff.rfl (ih _)).trans or_assoc.symm
        | check k c t => exact (or_congr Iff.rfl (ih _)).trans or_assoc.symm
  obtain ⟨⟨hgone, hkeeps⟩, -⟩ := @Limiter.bucket_after cfg key between hother st'
  rw [Limiter.AllowsAfter, allowed_iff hmax, hforgets, Limiter.kept]
  have hpos : (([] : List Instant).length : ℤ) < cfg.maxRequests :=
    lt_of_lt_of_le (by decide) hmax
  by_cases hdrops : (st'.after cfg between).Drops cfg key retryAt
  · rw [if_pos hdrops]
    exact iff_of_true hpos (Or.inr (Or.inr hdrops))
  · rw [if_neg hdrops]
    by_cases hf : st'.Forgets cfg key between
    · rw [hgone hf]
      exact iff_of_true hpos (Or.inr (Or.inl hf))
    · rw [hkeeps hf, hleft, ← hlen, Int.ofNat_lt, length_recent_lt_iff hfirst]
      simp only [hf, hdrops, or_false]

/-- **When `Retry-After` is honest.** In every state a limiter can reach, a check of a refused key
made `retry_after_seconds` later, with no other check of the key in between, is allowed exactly when
the oldest instant that counts leaves the window on a whole second, or when the limiter has forgotten
the key by then. With room for all the keys it has seen, and no reset, it has not. -/
theorem retry_after_honest_iff (cfg : RateLimitConfig) (hmax : 1 ≤ cfg.maxRequests)
    (hwindow : 1 ≤ cfg.windowSeconds) (created : Instant) (calls : List LimiterCall)
    {st : Limiter} (hst : (Limiter.new created).after cfg calls = st)
    {key : String} {cleanupAt now : Instant} {res : RateLimitResult}
    (hres : (RateLimiter.check cfg st key cleanupAt now).1 = .ok res)
    (hrefused : res.allowed = false) :
    ∃ r, res.retryAfterSeconds now = some r ∧
      ∀ between : List LimiterCall, (∀ c ∈ between, c.Other key) → ∀ retryAt,
        ((RateLimiter.check cfg st key cleanupAt now).2.AllowsAfter cfg key between retryAt
            (now + seconds r) ↔
          st.LeavesOnSecond cfg key now ∨
            (RateLimiter.check cfg st key cleanupAt now).2.Forgets cfg key
              (between ++ [.check key retryAt (now + seconds r)])) ∧
        (LimiterCall.Ordered created (calls ++ .check key cleanupAt now ::
            (between ++ [.check key retryAt (now + seconds r)])) →
          (((key :: (calls ++ between).map LimiterCall.key).toFinset.card : ℕ) : ℤ) ≤ cfg.maxKeys →
          .reset key ∉ between →
          ((RateLimiter.check cfg st key cleanupAt now).2.AllowsAfter cfg key between retryAt
            (now + seconds r) ↔ st.LeavesOnSecond cfg key now)) := by
  subst hst
  have hbound := length_bucket_after hmax created calls key
  set st := (Limiter.new created).after cfg calls with hst
  obtain ⟨first, hfirst, rfl, hleft, -⟩ := refused_spec hmax hres hrefused
  obtain ⟨hmem, -⟩ := List.min?_eq_some_iff.mp hfirst
  obtain ⟨hbucket, hlive⟩ := mem_recent.mp hmem
  have hpos : 0 < first + seconds cfg.windowSeconds - now :=
    sub_pos.mpr (sub_lt_iff_lt_add.mp hlive)
  set r := max 1 ((first + seconds cfg.windowSeconds - now).tdiv (seconds 1)) with hr
  refine ⟨r, rfl, fun between hother retryAt => ?_⟩
  have honest : first ≤ now + seconds r - seconds cfg.windowSeconds ↔
      st.LeavesOnSecond cfg key now := by
    have hiff := le_retryAfter_iff hpos
    rw [← hr] at hiff
    rw [Limiter.LeavesOnSecond, hfirst]
    simp only [Option.mem_some_iff, forall_eq']
    rw [← hiff]
    exact leaves_iff
  have hagain := (allowed_again_iff hmax hbound hres hrefused hfirst hother retryAt
    (now + seconds r)).trans (or_congr_left honest)
  refine ⟨hagain, fun hordered hroom hreset => hagain.trans (or_iff_left ?_)⟩
  -- what is counted is recent enough to survive every cleanup until the check is made again
  have hkeys : ∀ c ∈ calls ++ between,
      c.key ∈ (key :: (calls ++ between).map LimiterCall.key).toFinset := fun c hc =>
    List.mem_toFinset.mpr (List.mem_cons_of_mem _ (List.mem_map_of_mem hc))
  have hnew : (Limiter.new created).Settled
      (key :: (calls ++ between).map LimiterCall.key).toFinset created :=
    ⟨List.nodup_nil, fun k hk => absurd hk List.not_mem_nil, fun k ts hts =>
      absurd (bucket_eq_nil (b := []) List.not_mem_nil ▸ hts) List.not_mem_nil⟩
  obtain ⟨T, hsettled, hclean, hnow, hlater⟩ :=
    hnew.after hmax calls (fun c hc => hkeys c (List.mem_append_left _ hc)) hordered
  have hfirstNow : first ≤ now := (hsettled.past key first hbucket).trans (hclean.trans hnow)
  refine not_forgets_of_room hmax hroom ?_ hother hreset
    (fun c hc => hkeys c (List.mem_append_right _ hc))
    (hsettled.check hmax (hclean.trans hnow)
      (List.mem_toFinset.mpr List.mem_cons_self)) (hleft ▸ hmem) hlater
  exact retry_in_window hwindow hfirstNow hpos

end

open Reference

/-- Two requests are allowed in a minute; the third one, three seconds after the first, is refused
for 57 seconds, and allowed after these. -/
theorem third_request_allowed_later :
    ∃ res, (RateLimiter.check twoAMinute ((Limiter.new 0).after twoAMinute
        [.check clientKey 0 0, .check clientKey (seconds 1) (seconds 1)]) clientKey (seconds 3)
          (seconds 3)).1 = .ok res ∧ res.retryAfterSeconds (seconds 3) = some 57 ∧
      (RateLimiter.check twoAMinute ((Limiter.new 0).after twoAMinute
        [.check clientKey 0 0, .check clientKey (seconds 1) (seconds 1)]) clientKey (seconds 3)
          (seconds 3)).2.AllowsAfter twoAMinute clientKey [] (seconds 60) (seconds 60) := by
  obtain ⟨r, hr, h⟩ := @retry_after_honest_iff twoAMinute (by decide) (by decide) 0
    [.check clientKey 0 0, .check clientKey (seconds 1) (seconds 1)] _ rfl clientKey (seconds 3)
    (seconds 3) ⟨false, 0, some (seconds 60)⟩ rfl rfl
  obtain rfl : 57 = r := Option.some.inj (by rw [← hr]; rfl)
  refine ⟨_, rfl, rfl, ?_⟩
  exact ((h [] (fun _ hc => absurd hc List.not_mem_nil) (seconds 60)).2 (by decide) (by decide)
    List.not_mem_nil).mpr (by decide)

/-- One request is allowed in a minute. -/
def oneAMinute : RateLimitConfig := { maxRequests := 1 }

/-- **Half a second is truncated away**: a request refused half a second after the one that is
counted is told to wait for 59 seconds, and refused again after these. -/
theorem retried_too_early :
    ∃ res, (RateLimiter.check oneAMinute ((Limiter.new 0).after oneAMinute [.check clientKey 0 0])
        clientKey 500000 500000).1 = .ok res ∧
      res.allowed = false ∧ res.retryAfterSeconds 500000 = some 59 ∧
      ¬ (RateLimiter.check oneAMinute ((Limiter.new 0).after oneAMinute [.check clientKey 0 0])
        clientKey 500000 500000).2.AllowsAfter oneAMinute clientKey [] (500000 + seconds 59)
          (500000 + seconds 59) := by
  refine ⟨⟨false, 0, some (seconds 60)⟩, rfl, rfl, rfl, ?_⟩
  rintro ⟨res, hres, hall⟩
  have href : (RateLimiter.check oneAMinute ((RateLimiter.check oneAMinute
      ((Limiter.new 0).after oneAMinute [.check clientKey 0 0]) clientKey 500000 500000).2.after
        oneAMinute []) clientKey (500000 + seconds 59) (500000 + seconds 59)).1 =
      .ok ⟨false, 0, some (seconds 60)⟩ := rfl
  obtain rfl := Except.ok.inj (href.symm.trans hres)
  cases hall

end BackendTemplate
