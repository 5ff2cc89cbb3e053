import BackendTemplate.RedisLimiter

/-!
# The Two Backends of the Rate Limiter

`InMemoryRateLimiter` and `RedisRateLimiter` answer checks of one key inside a single window. Both
refuse the check after the last allowed one. They disagree about `remaining`: the in-memory limiter
counts the bucket before it records the check, the server counts the check along with the others,
so up to the limit one of them reports a check more than the other, and more than are left.

A run of checks is listed newest first.

## Main results

* `Limiter.kept` — what the cleanup at the start of a check leaves of the bucket.
* `full_iff` — the bucket is full just when the last `max_requests` checks have been recorded.
* `remaining_agrees_iff` — the backends agree on a check exactly when it comes after the limit, and
  no cleanup has dropped the bucket in between.
-/

namespace BackendTemplate

open Atomic SlidingWindow RedisRateLimiter

/-! ### A run of checks in memory -/

namespace Limiter

/-- The state after checks of one key, newest first, each with the two readings of the clock. -/
def afterChecks (cfg : RateLimitConfig) (key : String) (st : Limiter) :
    List (Instant × Instant) → Limiter
  | [] => st
  | t :: earlier => (RateLimiter.check cfg (afterChecks cfg key st earlier) key t.1 t.2).2

/-- The cleanup at this instant drops the bucket of the key. -/
def Drops (cfg : RateLimitConfig) (key : String) (st : Limiter) (cleanupAt : Instant) : Prop :=
  key ∈ st.buckets.map Prod.fst ∧
    key ∉ (st.maybeCleanup cfg cfg.windowSeconds cleanupAt).buckets.map Prod.fst

instance (cfg : RateLimitConfig) (key : String) (st : Limiter) (cleanupAt : Instant) :
    Decidable (st.Drops cfg key cleanupAt) := by
  unfold Drops
  infer_instance

/-- **None of the last `n` checks of the run drops the bucket of the key.** -/
def Undisturbed (cfg : RateLimitConfig) (key : String) (st : Limiter) :
    ℕ → List (Instant × Instant) → Prop
  | 0, _ | _, [] => True
  | n + 1, t :: earlier =>
      ¬ (st.afterChecks cfg key earlier).Drops cfg key t.1 ∧ Undisturbed cfg key st n earlier

/-- What the cleanup at the start of a check leaves of the bucket of its key. -/
def kept (cfg : RateLimitConfig) (key : String) (st : Limiter) (cleanupAt : Instant) :
    List Instant :=
  if st.Drops cfg key cleanupAt then [] else st.buckets.bucket key

end Limiter

/-- **A run inside a single window**: any two of its checks are less than a window apart. -/
def InOneWindow (windowSeconds : ℤ) (times : List (Instant × Instant)) : Prop :=
  ∀ t ∈ times, ∀ t' ∈ times, t.2 < t'.2 + seconds windowSeconds

instance (w : ℤ) (times : List (Instant × Instant)) : Decidable (InOneWindow w times) := by
  unfold InOneWindow
  infer_instance

section Memory

variable {cfg : RateLimitConfig} {key : String} {st : Limiter} {cleanupAt now : Instant}

/-- A key that is not tracked has an empty bucket. -/
theorem bucket_eq_nil {b : Buckets} (h : key ∉ b.map Prod.fst) : b.bucket key = [] := by
  rw [Buckets.bucket, Dict.get_eq_none h]
  rfl

/-- Dropping keys leaves the bucket of a key, which stays tracked, or drops it. -/
theorem bucket_drop_cases (ks : List String) (b : Buckets) (key : String) :
    Buckets.bucket (Dict.drop ks b) key = b.bucket key ∧
        (key ∈ b.map Prod.fst → key ∈ (Dict.drop ks b).map Prod.fst) ∨
      key ∉ (Dict.drop ks b).map Prod.fst := by
  by_cases hk : key ∈ ks
  · exact Or.inr (Dict.not_mem_drop hk)
  · left
    constructor
    · rw [Buckets.bucket_drop, if_neg hk]
    · intro hmem
      exact Dict.mem_drop hk hmem

/-- The cleanup leaves the bucket of a key, which stays tracked, or drops it. -/
theorem maybeCleanup_cases (cfg : RateLimitConfig) (key : String) (st : Limiter)
    (cleanupAt : Instant) :
    (st.maybeCleanup cfg cfg.windowSeconds cleanupAt).buckets.bucket key = st.buckets.bucket key ∧
        (key ∈ st.buckets.map Prod.fst →
          key ∈ (st.maybeCleanup cfg cfg.windowSeconds cleanupAt).buckets.map Prod.fst) ∨
      key ∉ (st.maybeCleanup cfg cfg.windowSeconds cleanupAt).buckets.map Prod.fst := by
  rw [Limiter.maybeCleanup]
  split
  · exact Or.inl ⟨rfl, id⟩
  · dsimp only
    rw [Limiter.capKeys]
    rcases bucket_drop_cases (Limiter.expiredKeys st.buckets cfg.windowSeconds cleanupAt)
      st.buckets key with ⟨hb, hmem⟩ | hgone
    · split
      · rcases bucket_drop_cases _ (Dict.drop (Limiter.expiredKeys st.buckets cfg.windowSeconds
          cleanupAt) st.buckets) key with ⟨hb', hmem'⟩ | hgone'
        · exact Or.inl ⟨hb'.trans hb, fun h => hmem' (hmem h)⟩
        · exact Or.inr hgone'
      · exact Or.inl ⟨hb, hmem⟩
    · right
      split
      · exact fun h => hgone (Dict.drop_keys_subset h)
      · exact hgone

/-- **What the cleanup leaves of the bucket.** -/
theorem bucket_maybeCleanup (cfg : RateLimitConfig) (key : String) (st : Limiter)
    (cleanupAt : Instant) :
    (st.maybeCleanup cfg cfg.windowSeconds cleanupAt).buckets.bucket key =
      st.kept cfg key cleanupAt := by
  rw [Limiter.kept]
  rcases maybeCleanup_cases cfg key st cleanupAt with ⟨hb, hmem⟩ | hgone
  · rw [if_neg fun h : st.Drops cfg key cleanupAt => h.2 (hmem h.1), hb]
  · rw [bucket_eq_nil hgone]
    split
    · rfl
    · rename_i h
      rw [bucket_eq_nil fun hmem => h ⟨hmem, hgone⟩]

/-- **One check in memory**, when the window has not moved past what the bucket holds. -/
theorem check_kept (hmax : 1 ≤ cfg.maxRequests)
    (hin : ∀ ts ∈ st.kept cfg key cleanupAt, now - seconds cfg.windowSeconds < ts) :
    (∃ resetAt, (RateLimiter.check cfg st key cleanupAt now).1 =
        .ok (if cfg.maxRequests ≤ (st.kept cfg key cleanupAt).length then ⟨false, 0, resetAt⟩
          else ⟨true, cfg.maxRequests - (st.kept cfg key cleanupAt).length, resetAt⟩)) ∧
      (RateLimiter.check cfg st key cleanupAt now).2.buckets.bucket key =
        if cfg.maxRequests ≤ (st.kept cfg key cleanupAt).length then st.kept cfg key cleanupAt
        else st.kept cfg key cleanupAt ++ [now] := by
  have hbucket : recent (now - seconds cfg.windowSeconds)
      (((st.maybeCleanup cfg cfg.windowSeconds cleanupAt).buckets.setdefault key).bucket key) =
        st.kept cfg key cleanupAt := by
    rw [Buckets.bucket_setdefault, bucket_maybeCleanup, recent_eq_self hin]
  have hmem := (st.maybeCleanup cfg cfg.windowSeconds cleanupAt).buckets.mem_setdefault key
  have hput : ∀ l, ((((st.maybeCleanup cfg cfg.windowSeconds cleanupAt).buckets.setdefault key).put
      key l).bucket key) = l := fun l => by rw [Buckets.bucket_put hmem, if_pos rfl]
  rw [RateLimiter.check]
  simp only [hbucket]
  by_cases hfull : cfg.maxRequests ≤ (st.kept cfg key cleanupAt).length
  · simp only [if_pos hfull]
    cases hmin : (st.kept cfg key cleanupAt).min? with
    | none =>
        rw [List.min?_eq_none_iff.mp hmin] at hfull
        exact absurd (hmax.trans hfull) (by decide)
    | some first => exact ⟨⟨_, rfl⟩, hput _⟩
  · simp only [if_neg hfull]
    exact ⟨⟨_, rfl⟩, hput _⟩

/-- A run without its newest check is inside the window still. -/
theorem InOneWindow.tail {w : ℤ} {t : Instant × Instant} {earlier : List (Instant × Instant)}
    (h : InOneWindow w (t :: earlier)) : InOneWindow w earlier :=
  fun t' ht' t'' ht'' => h t' (List.mem_cons_of_mem _ ht') t'' (List.mem_cons_of_mem _ ht'')

/-- The cleanup adds nothing to a bucket. -/
theorem mem_of_mem_kept {ts : Instant} (h : ts ∈ st.kept cfg key cleanupAt) :
    ts ∈ st.buckets.bucket key := by
  rw [Limiter.kept] at h
  split at h
  · exact absurd h List.not_mem_nil
  · exact h

section Run

variable {times earlier : List (Instant × Instant)} {t : Instant × Instant}

/-- What a run leaves in the bucket of a fresh key are checks of the run. -/
theorem mem_bucket_afterChecks (hmax : 1 ≤ cfg.maxRequests) (hfresh : key ∉ st.buckets.map Prod.fst)
    (hwin : InOneWindow cfg.windowSeconds times) :
    ∀ ts ∈ (st.afterChecks cfg key times).buckets.bucket key, ∃ t ∈ times, t.2 = ts := by
  induction times with
  | nil =>
      intro ts hts
      rw [Limiter.afterChecks, bucket_eq_nil hfresh] at hts
      exact absurd hts List.not_mem_nil
  | cons t earlier ih =>
      have hkept : ∀ ts ∈ (st.afterChecks cfg key earlier).kept cfg key t.1,
          ∃ t' ∈ earlier, t'.2 = ts := fun ts hts => ih hwin.tail ts (mem_of_mem_kept hts)
      have hin : ∀ ts ∈ (st.afterChecks cfg key earlier).kept cfg key t.1,
          t.2 - seconds cfg.windowSeconds < ts := by
        intro ts hts
        obtain ⟨t', ht', rfl⟩ := hkept ts hts
        exact sub_lt_iff_lt_add.mpr
          (hwin t List.mem_cons_self t' (List.mem_cons_of_mem _ ht'))
      intro ts hts
      rw [Limiter.afterChecks, (check_kept hmax hin).2] at hts
      split at hts
      · obtain ⟨t', ht', heq⟩ := hkept ts hts
        exact ⟨t', List.mem_cons_of_mem _ ht', heq⟩
      · rcases List.mem_append.mp hts with hts | hts
        · obtain ⟨t', ht', heq⟩ := hkept ts hts
          exact ⟨t', List.mem_cons_of_mem _ ht', heq⟩
        · exact ⟨t, List.mem_cons_self, (List.mem_singleton.mp hts).symm⟩

/-- The window of a check of the run has not moved past what the bucket holds. -/
theorem kept_in_window (hmax : 1 ≤ cfg.maxRequests) (hfresh : key ∉ st.buckets.map Prod.fst)
    (hwin : InOneWindow cfg.windowSeconds (t :: earlier)) :
    ∀ ts ∈ (st.afterChecks cfg key earlier).kept cfg key t.1,
      t.2 - seconds cfg.windowSeconds < ts := by
  intro ts hts
  obtain ⟨t', ht', rfl⟩ := mem_bucket_afterChecks hmax hfresh hwin.tail ts (mem_of_mem_kept hts)
  exact sub_lt_iff_lt_add.mpr (hwin t List.mem_cons_self t' (List.mem_cons_of_mem _ ht'))

/-- **The bucket holds the last checks**: at least `n` of them, up to the limit, just when there
were that many and no cleanup has dropped the bucket since. -/
theorem full_iff (hmax : 1 ≤ cfg.maxRequests) (hfresh : key ∉ st.buckets.map Prod.fst)
    (hwin : InOneWindow cfg.windowSeconds (t :: earlier)) {n : ℕ} (hn : (n : ℤ) ≤ cfg.maxRequests) :
    n ≤ ((st.afterChecks cfg key earlier).kept cfg key t.1).length ↔
      n ≤ earlier.length ∧ st.Undisturbed cfg key n (t :: earlier) := by
  induction earlier generalizing t n with
  | nil =>
      cases n with
      | zero => simp [Limiter.Undisturbed]
      | succ n =>
          have hnil : ((st.afterChecks cfg key []).kept cfg key t.1) = [] := by
            rw [Limiter.kept]
            split
            · rfl
            · exact bucket_eq_nil hfresh
          rw [hnil]
          simp
  | cons t' earlier ih =>
      cases n with
      | zero => simp [Limiter.Undisturbed]
      | succ n =>
          rw [Limiter.Undisturbed]
          by_cases hdrop : (st.afterChecks cfg key (t' :: earlier)).Drops cfg key t.1
          · rw [Limiter.kept, if_pos hdrop]
            simp [hdrop]
          · have hbucket := (check_kept hmax (kept_in_window hmax hfresh hwin.tail)).2
            have hih := ih hwin.tail (n := n) (by omega)
            have hkept : (st.afterChecks cfg key (t' :: earlier)).kept cfg key t.1 =
                (st.afterChecks cfg key (t' :: earlier)).buckets.bucket key := by
              rw [Limiter.kept, if_neg hdrop]
            rw [and_iff_right hdrop, List.length_cons, Nat.succ_le_succ_iff, ← hih, hkept,
              Limiter.afterChecks, hbucket]
            split
            · rename_i hfull
              omega
            · rw [List.length_append, List.length_singleton]
              omega

/-- A check writes the bucket of its key, and adds no other key. -/
theorem keys_check (cfg : RateLimitConfig) (key : String) (st : Limiter)
    (cleanupAt now : Instant) :
    (RateLimiter.check cfg st key cleanupAt now).2.buckets.map Prod.fst =
      ((st.maybeCleanup cfg cfg.windowSeconds cleanupAt).buckets.setdefault key).map Prod.fst := by
  rw [RateLimiter.check]
  dsimp only
  split
  · split
    · exact Buckets.keys_put ..
    · exact Buckets.keys_put ..
  · exact Buckets.keys_put ..

/-- A run tracks its key and no other new one. -/
theorem keys_afterChecks (hnodup : (st.buckets.map Prod.fst).Nodup)
    (times : List (Instant × Instant)) :
    ((st.afterChecks cfg key times).buckets.map Prod.fst).Nodup ∧
      (st.afterChecks cfg key times).buckets.map Prod.fst ⊆ key :: st.buckets.map Prod.fst := by
  induction times with
  | nil => exact ⟨hnodup, List.subset_cons_self _ _⟩
  | cons t earlier ih =>
      have hclean := (Limiter.keys_maybeCleanup cfg cfg.windowSeconds
        (st.afterChecks cfg key earlier) t.1).map Prod.fst
      rw [Limiter.afterChecks, keys_check]
      refine ⟨Buckets.nodup_setdefault (ih.1.sublist hclean) key, fun k hk => ?_⟩
      rcases Buckets.setdefault_keys hk with rfl | hk
      · exact List.mem_cons_self
      · exact ih.2 (hclean.subset hk)

/-- What is inside the window has not expired. -/
theorem not_expired {ts now cleanupAt w : ℤ} (hle : cleanupAt ≤ now) (hin : now < ts + seconds w)
    (hw : 0 < seconds w) : ¬ ts < cleanupAt - seconds (w * 2) := by
  simp only [seconds] at *
  omega

/-- A check leaves something in the bucket of its key. -/
theorem bucket_ne_nil (hmax : 1 ≤ cfg.maxRequests) (hfresh : key ∉ st.buckets.map Prod.fst)
    (hwin : InOneWindow cfg.windowSeconds (t :: earlier)) :
    (st.afterChecks cfg key (t :: earlier)).buckets.bucket key ≠ [] := by
  rw [Limiter.afterChecks, (check_kept hmax (kept_in_window hmax hfresh hwin)).2]
  split
  · rename_i hfull
    intro hnil
    rw [hnil] at hfull
    exact absurd (hmax.trans hfull) (by decide)
  · simp

/-- **No cleanup drops the bucket while there is room** for one more key: the bucket holds a check
of the run, and this has not expired. -/
theorem not_drops_of_room (hmax : 1 ≤ cfg.maxRequests)
    (hnodup : (st.buckets.map Prod.fst).Nodup) (hroom : (st.buckets.length : ℤ) < cfg.maxKeys)
    (hfresh : key ∉ st.buckets.map Prod.fst)
    (hwin : InOneWindow cfg.windowSeconds (t :: earlier)) (hclock : t.1 ≤ t.2) :
    ¬ (st.afterChecks cfg key earlier).Drops cfg key t.1 := by
  rintro ⟨hmem, hgone⟩
  obtain ⟨hnodup', hsub⟩ := @keys_afterChecks cfg key st hnodup earlier
  have hlen : (st.afterChecks cfg key earlier).buckets.length ≤ st.buckets.length + 1 := by
    simpa using (List.subperm_of_subset hnodup' hsub).length_le
  apply hgone
  rw [Limiter.maybeCleanup]
  split
  · exact hmem
  · dsimp only
    have hkept : (Dict.drop (Limiter.expiredKeys (st.afterChecks cfg key earlier).buckets
        cfg.windowSeconds t.1) (st.afterChecks cfg key earlier).buckets).length ≤
          (st.afterChecks cfg key earlier).buckets.length := List.length_filter_le _ _
    rw [Limiter.capKeys, if_neg (by omega)]
    refine Dict.mem_drop ?_ hmem
    -- the bucket of the key holds a check of the run
    intro hexpired
    obtain ⟨e, he, rfl⟩ := List.mem_map.mp hexpired
    obtain ⟨he, hover⟩ := List.mem_filter.mp he
    have hbucket := Buckets.bucket_of_mem hnodup' he
    cases earlier with
    | nil => exact hfresh hmem
    | cons t' earlier =>
        have hne := bucket_ne_nil hmax hfresh hwin.tail
        obtain ⟨ts, hts⟩ := List.exists_mem_of_ne_nil _ hne
        obtain ⟨t'', ht'', rfl⟩ := mem_bucket_afterChecks hmax hfresh hwin.tail ts hts
        rw [Bool.or_eq_true, List.isEmpty_iff, List.all_eq_true, ← hbucket] at hover
        rcases hover with hnil | hall
        · exact hne hnil
        · exact not_expired hclock (hwin t List.mem_cons_self t'' (List.mem_cons_of_mem _ ht''))
            ((lt_add_iff_pos_right _).mp (hwin t List.mem_cons_self t List.mem_cons_self))
            (of_decide_eq_true (hall _ hts))

theorem undisturbed_of_room (hmax : 1 ≤ cfg.maxRequests)
    (hnodup : (st.buckets.map Prod.fst).Nodup) (hroom : (st.buckets.length : ℤ) < cfg.maxKeys)
    (hfresh : key ∉ st.buckets.map Prod.fst) (hwin : InOneWindow cfg.windowSeconds times)
    (hclock : ∀ t ∈ times, t.1 ≤ t.2) (n : ℕ) : st.Undisturbed cfg key n times := by
  induction times generalizing n with
  | nil => cases n <;> trivial
  | cons t earlier ih =>
      cases n with
      | zero => trivial
      | succ n =>
          exact ⟨not_drops_of_room hmax hnodup hroom hfresh hwin (hclock t List.mem_cons_self),
            ih hwin.tail (fun t' ht' => hclock t' (List.mem_cons_of_mem _ ht')) n⟩

end Run

end Memory

/-! ### A run of checks on the server -/

namespace RedisServer

/-- The server after so many checks of one key, one after the other. -/
def afterChecks (cfg : RateLimitConfig) (key : String) (s : RedisServer × List ℕ) :
    ℕ → RedisServer × List ℕ
  | 0 => s
  | n + 1 => (checkAlone cfg key (afterChecks cfg key s n)).2

end RedisServer

section Server

variable {cfg : RateLimitConfig} {key : String} {s : RedisServer × List ℕ} {W D : Instant} {n : ℕ}

/-- Time passes while a program runs. -/
theorem clock_run {α : Type} (p : RedisProg α) {T : Instant} (h : T ≤ s.1.clock) :
    T ≤ (p.run RedisServer.answer s).2.1.clock := by
  refine Prog.run_invariant (J := fun s' : RedisServer × List ℕ => T ≤ s'.1.clock)
    (fun o s' h => h.trans ?_) p h
  change _ ≤ ((s'.1.wait (s'.2.headD 0)).carryOut o).2.clock
  rw [RedisServer.clock_carryOut]
  exact RedisServer.clock_le_wait _ _

theorem clock_checkAlone (cfg : RateLimitConfig) (key : String) (s : RedisServer × List ℕ) :
    s.1.clock ≤ (RedisServer.checkAlone cfg key s).2.1.clock := clock_run _ le_rfl

/-- The `INCR` of a check comes before its end. -/
theorem clock_incr_le (cfg : RateLimitConfig) (key : String) (s : RedisServer × List ℕ) :
    ((s.1.wait (s.2.headD 0)).wait (s.2.tail.headD 0)).clock ≤
      (RedisServer.checkAlone cfg key s).2.1.clock := by
  rw [RedisServer.checkAlone, check, run_send, run_send]
  refine clock_run _ (le_of_eq ?_)
  exact (RedisServer.clock_carryOut (.incr (windowKey key)) _).symm

/-- **The first check of a key** in a window that ends at `W`. -/
theorem checkAlone_fresh (hfresh : s.1.lookup (windowKey key) = none)
    (hwin : (RedisServer.checkAlone cfg key s).2.1.clock < s.1.clock + seconds cfg.windowSeconds) :
    (∃ now ttl, (RedisServer.checkAlone cfg key s).1 = .ok (result cfg now 1 ttl)) ∧
      ∃ D, (RedisServer.checkAlone cfg key s).2.1.store (windowKey key) = some ⟨1, some D⟩ ∧
        s.1.clock + seconds cfg.windowSeconds ≤ D := by
  have hnone : ((s.1.wait (s.2.headD 0)).wait (s.2.tail.headD 0)).lookup (windowKey key) = none := by
    rw [Option.eq_none_iff_forall_ne_some]
    intro e he
    rw [RedisServer.lookup_of_wait (RedisServer.lookup_of_wait he)] at hfresh
    cases hfresh
  obtain ⟨ttl, d, e, rest, hrun⟩ :=
    @checkAlone_new cfg key s.1 s.2 _ (RedisServer.incr_new hnone)
  have hpos : 0 < seconds cfg.windowSeconds :=
    (lt_add_iff_pos_right _).mp ((clock_checkAlone cfg key s).trans_lt hwin)
  have hpos' : ¬ cfg.windowSeconds ≤ 0 := by
    rw [seconds] at hpos
    omega
  obtain ⟨s', hs'⟩ : ∃ s', s' = (((s.1.wait (s.2.headD 0)).wait (s.2.tail.headD 0)).write
      (windowKey key) (some ⟨1, none⟩)).wait d := ⟨_, rfl⟩
  have hthere : s'.lookup (windowKey key) = some ⟨1, none⟩ := by
    rw [hs']
    exact RedisServer.lookup_wait (by rw [RedisServer.lookup_write, if_pos rfl]; rfl) d
  rw [← hs', RedisServer.expire, hthere] at hrun
  simp only [if_neg hpos'] at hrun
  rw [hrun]
  refine ⟨⟨_, _, rfl⟩, s'.clock + seconds cfg.windowSeconds, ?_, ?_⟩
  · exact Function.update_self ..
  · refine Int.add_le_add_right ?_ _
    rw [hs']
    exact ((RedisServer.clock_le_wait s.1 _).trans (RedisServer.clock_le_wait _ _)).trans
      (RedisServer.clock_le_wait _ d)

/-- **A check that finds its counter**, still inside the window. -/
theorem checkAlone_counted (hn : 1 ≤ n)
    (hstore : s.1.store (windowKey key) = some ⟨n, some D⟩)
    (hwin : (RedisServer.checkAlone cfg key s).2.1.clock < D) :
    (∃ now ttl, (RedisServer.checkAlone cfg key s).1 = .ok (result cfg now (n + 1 : ℕ) ttl)) ∧
      (RedisServer.checkAlone cfg key s).2.1.store (windowKey key) =
        some ⟨(n + 1 : ℕ), some D⟩ := by
  have hlive : ((s.1.wait (s.2.headD 0)).wait (s.2.tail.headD 0)).lookup (windowKey key) =
      some ⟨n, some D⟩ := by
    refine RedisServer.lookup_eq_some.mpr ⟨hstore, fun t ht => ?_⟩
    obtain rfl := Option.some.inj ht
    exact (clock_incr_le cfg key s).trans_lt hwin
  have hone : ((n + 1 : ℕ) : ℤ) ≠ 1 := by omega
  obtain ⟨ttl, d, rest, hrun⟩ :=
    @checkAlone_old cfg key s.1 s.2 _ _ hone (RedisServer.incr_old hlive)
  rw [hrun]
  exact ⟨⟨_, _, rfl⟩, Function.update_self ..⟩

/-- **A run of checks on the server** counts them. -/
theorem checks_counted (hfresh : s.1.lookup (windowKey key) = none)
    (hwin : (RedisServer.afterChecks cfg key s (n + 1)).1.clock <
      s.1.clock + seconds cfg.windowSeconds) :
    (∃ now ttl, (RedisServer.checkAlone cfg key (RedisServer.afterChecks cfg key s n)).1 =
        .ok (result cfg now (n + 1 : ℕ) ttl)) ∧
      ∃ D, (RedisServer.afterChecks cfg key s (n + 1)).1.store (windowKey key) =
          some ⟨(n + 1 : ℕ), some D⟩ ∧ s.1.clock + seconds cfg.windowSeconds ≤ D := by
  induction n with
  | zero => exact checkAlone_fresh hfresh hwin
  | succ n ih =>
      have hle := clock_checkAlone cfg key (RedisServer.afterChecks cfg key s (n + 1))
      obtain ⟨-, D, hstore, hD⟩ := ih (hle.trans_lt hwin)
      obtain ⟨hres, hstore'⟩ := checkAlone_counted (Nat.succ_pos n) hstore (hwin.trans_le hD)
      exact ⟨hres, D, hstore', hD⟩

/-- **Further checks at one instant** are counted along with the others. -/
theorem further_counted (hn : 1 ≤ n) {server : RedisServer}
    (hstore : server.store (windowKey key) = some ⟨n, some D⟩) (hlive : server.clock < D) (j : ℕ) :
    (∃ now ttl, (RedisServer.checkAlone cfg key
        (RedisServer.afterChecks cfg key (server, []) j)).1 =
          .ok (result cfg now (n + j + 1 : ℕ) ttl)) ∧
      (RedisServer.afterChecks cfg key (server, []) j).1.store (windowKey key) =
        some ⟨(n + j : ℕ), some D⟩ := by
  have hclock : ∀ j, (RedisServer.afterChecks cfg key (server, []) j).1.clock = server.clock ∧
      (RedisServer.afterChecks cfg key (server, []) j).2 = [] := by
    intro j
    induction j with
    | zero => exact ⟨rfl, rfl⟩
    | succ j ih =>
        refine Prog.run_invariant
          (J := fun s : RedisServer × List ℕ => s.1.clock = server.clock ∧ s.2 = [])
          (fun o s h => ?_) _ ih
        obtain ⟨h₁, h₂⟩ := h
        constructor
        · change ((s.1.wait (s.2.headD 0)).carryOut o).2.clock = _
          rw [RedisServer.clock_carryOut, h₂, ← h₁]
          exact Int.add_zero _
        · change s.2.tail = []
          rw [h₂]
          rfl
  have hwin : ∀ j, (RedisServer.checkAlone cfg key
      (RedisServer.afterChecks cfg key (server, []) j)).2.1.clock < D :=
    fun j => (hclock (j + 1)).1.trans_lt hlive
  have hcount : (RedisServer.afterChecks cfg key (server, []) j).1.store (windowKey key) =
      some ⟨(n + j : ℕ), some D⟩ := by
    induction j with
    | zero => exact hstore
    | succ j ih => exact (checkAlone_counted (by omega) ih (hwin j)).2
  exact ⟨(checkAlone_counted (by omega) hcount (hwin j)).1, hcount⟩

theorem result_allowed (cfg : RateLimitConfig) (now : Instant) (count ttl : ℤ) :
    (result cfg now count ttl).allowed = true ↔ count ≤ cfg.maxRequests := by
  rw [result]
  split
  · simp
    omega
  · simp
    omega

/-- What the server reports as remaining. -/
theorem result_remaining (cfg : RateLimitConfig) (now : Instant) (count ttl : ℤ) :
    (result cfg now count ttl).remaining = max 0 (cfg.maxRequests - count) := by
  rw [result]
  split
  · dsimp only
    omega
  · dsimp only
    omega

end Server

/-! ### The backends compared -/

/-- **So many further checks would be allowed at that instant**, in memory. -/
def Limiter.StillAllows (cfg : RateLimitConfig) (key : String) (st : Limiter)
    (times : List (Instant × Instant)) (now : Instant) (remaining : ℤ) : Prop :=
  ∀ j : ℕ, (∃ res, (RateLimiter.check cfg
      (st.afterChecks cfg key (List.replicate j (now, now) ++ times)) key now now).1 = .ok res ∧
        res.allowed = true) ↔ (j : ℤ) < remaining

/-- **So many further checks would be allowed at that instant**, on the server. -/
def RedisServer.StillAllows (cfg : RateLimitConfig) (key : String) (s : RedisServer)
    (remaining : ℤ) : Prop :=
  ∀ j : ℕ, (∃ res, (checkAlone cfg key (afterChecks cfg key (s, []) j)).1 = .ok res ∧
    res.allowed = true) ↔ (j : ℤ) < remaining

/-- **The backends agree** on the newest check of a run: the same flag, the same `remaining`, and
on both sides so many further checks would be allowed. -/
def BackendsAgree (cfg : RateLimitConfig) (key : String) (st : Limiter) (t : Instant × Instant)
    (earlier : List (Instant × Instant)) (s : RedisServer × List ℕ) : Prop :=
  ∃ memory redis,
    (RateLimiter.check cfg (st.afterChecks cfg key earlier) key t.1 t.2).1 = .ok memory ∧
    (RedisServer.checkAlone cfg key (RedisServer.afterChecks cfg key s earlier.length)).1 =
      .ok redis ∧
    memory.allowed = redis.allowed ∧ memory.remaining = redis.remaining ∧
    st.StillAllows cfg key (t :: earlier) t.2 memory.remaining ∧
    (RedisServer.afterChecks cfg key s (earlier.length + 1)).1.StillAllows cfg key redis.remaining

section Comparison

variable {cfg : RateLimitConfig} {key : String} {st : Limiter} {t : Instant × Instant}
variable {earlier : List (Instant × Instant)} {s : RedisServer × List ℕ}

/-- What the server reports for a check of the run, and what it would still allow. -/
theorem server_reports (hfresh : s.1.lookup (windowKey key) = none) {n : ℕ}
    (hwin : (RedisServer.afterChecks cfg key s (n + 1)).1.clock <
      s.1.clock + seconds cfg.windowSeconds) :
    ∃ redis, (RedisServer.checkAlone cfg key (RedisServer.afterChecks cfg key s n)).1 =
        .ok redis ∧
      (redis.allowed = true ↔ (n : ℤ) + 1 ≤ cfg.maxRequests) ∧
      redis.remaining = max 0 (cfg.maxRequests - (n + 1)) ∧
      (RedisServer.afterChecks cfg key s (n + 1)).1.StillAllows cfg key redis.remaining := by
  obtain ⟨⟨now, ttl, hres⟩, D, hstore, hD⟩ := checks_counted hfresh hwin
  refine ⟨_, hres, ?_, ?_, fun j => ?_⟩
  · rw [result_allowed]
    push_cast
    exact Iff.rfl
  · rw [result_remaining]
    push_cast
    rfl
  · obtain ⟨⟨now', ttl', hnext⟩, -⟩ :=
      @further_counted cfg key _ _ (Nat.succ_pos n) _ hstore (hwin.trans_le hD) j
    rw [hnext, result_remaining]
    constructor
    · rintro ⟨res, heq, hallowed⟩
      rw [← Except.ok.inj heq, result_allowed] at hallowed
      push_cast at hallowed ⊢
      omega
    · intro hj
      refine ⟨_, rfl, ?_⟩
      rw [result_allowed]
      push_cast at hj ⊢
      omega

/-- What the in-memory limiter reports for a check of the run: an allowed one has not counted
itself. -/
theorem memory_reports (hmax : 1 ≤ cfg.maxRequests) (hfresh : key ∉ st.buckets.map Prod.fst)
    (hwin : InOneWindow cfg.windowSeconds (t :: earlier)) :
    ∃ memory,
      (RateLimiter.check cfg (st.afterChecks cfg key earlier) key t.1 t.2).1 = .ok memory ∧
      (memory.allowed = true → cfg.maxRequests - earlier.length ≤ memory.remaining) ∧
      (memory.allowed = false → memory.remaining = 0) := by
  obtain ⟨⟨resetAt, hres⟩, -⟩ := check_kept hmax (kept_in_window hmax hfresh hwin)
  refine ⟨_, hres, ?_⟩
  split
  · exact ⟨fun h => absurd h Bool.false_ne_true, fun _ => rfl⟩
  · rename_i hroom
    refine ⟨fun _ => ?_, fun h => absurd h.symm Bool.false_ne_true⟩
    obtain ⟨hlen, -⟩ := (full_iff hmax hfresh hwin (by omega)).mp le_rfl
    dsimp only
    omega

/-- **A check of the run is refused in memory** just when the limit has been used up since the
last cleanup that dropped the bucket. -/
theorem memory_allowed_iff (hmax : 1 ≤ cfg.maxRequests) (hfresh : key ∉ st.buckets.map Prod.fst)
    (hwin : InOneWindow cfg.windowSeconds (t :: earlier)) :
    (∃ res, (RateLimiter.check cfg (st.afterChecks cfg key earlier) key t.1 t.2).1 = .ok res ∧
      res.allowed = true) ↔
      ¬ (cfg.maxRequests ≤ earlier.length ∧
        st.Undisturbed cfg key cfg.maxRequests.toNat (t :: earlier)) := by
  obtain ⟨⟨resetAt, hres⟩, -⟩ := check_kept hmax (kept_in_window hmax hfresh hwin)
  have hfull := full_iff hmax hfresh hwin (n := cfg.maxRequests.toNat) (by omega)
  have hlen : cfg.maxRequests.toNat ≤ earlier.length ↔ cfg.maxRequests ≤ earlier.length := by omega
  rw [hres, ← hlen, ← hfull]
  split
  · rename_i hle
    constructor
    · rintro ⟨res, heq, hallowed⟩
      rw [← Except.ok.inj heq] at hallowed
      cases hallowed
    · intro h
      exact absurd (by omega) h
  · rename_i hlt
    refine iff_of_true ⟨_, rfl, rfl⟩ ?_
    omega

/-- Further checks at the instant of the newest one are in the same window. -/
theorem InOneWindow.further {w : ℤ} (h : InOneWindow w (t :: earlier)) (j : ℕ) :
    InOneWindow w ((t.2, t.2) :: (List.replicate j (t.2, t.2) ++ t :: earlier)) := by
  have hmem : ∀ t' ∈ (t.2, t.2) :: (List.replicate j (t.2, t.2) ++ t :: earlier),
      ∃ t'' ∈ t :: earlier, t''.2 = t'.2 := by
    intro t' ht'
    rcases List.mem_cons.mp ht' with rfl | ht'
    · exact ⟨t, List.mem_cons_self, rfl⟩
    · rcases List.mem_append.mp ht' with ht' | ht'
      · exact ⟨t, List.mem_cons_self, by rw [List.eq_of_mem_replicate ht']⟩
      · exact ⟨t', ht', rfl⟩
  intro t' ht' t'' ht''
  obtain ⟨a, ha, haeq⟩ := hmem t' ht'
  obtain ⟨b, hb, hbeq⟩ := hmem t'' ht''
  rw [← haeq, ← hbeq]
  exact h a ha b hb

/-- The backends agree on a check of the run just when it is beyond the limit and no cleanup drops
the bucket of the key, neither at one of the last `max_requests` checks nor at a further one. -/
theorem backendsAgree_iff (hmax : 1 ≤ cfg.maxRequests)
    (hmemory : key ∉ st.buckets.map Prod.fst)
    (hmemoryWindow : InOneWindow cfg.windowSeconds (t :: earlier))
    (hredis : s.1.lookup (windowKey key) = none)
    (hredisWindow : (RedisServer.afterChecks cfg key s (earlier.length + 1)).1.clock <
      s.1.clock + seconds cfg.windowSeconds) :
    BackendsAgree cfg key st t earlier s ↔
      cfg.maxRequests < earlier.length + 1 ∧
        ∀ j, st.Undisturbed cfg key cfg.maxRequests.toNat
          (List.replicate j (t.2, t.2) ++ t :: earlier) := by
  obtain ⟨redis, hred, hredAllowed, hredRemaining, hredStill⟩ :=
    server_reports hredis hredisWindow
  obtain ⟨memory, hmem, hmemAllowed, hmemRefused⟩ := memory_reports hmax hmemory hmemoryWindow
  have hnow := memory_allowed_iff hmax hmemory hmemoryWindow
  have hfurther := fun j => memory_allowed_iff hmax hmemory (hmemoryWindow.further j)
  have hlong : ∀ j, (earlier.length : ℤ) ≤
      (List.replicate j (t.2, t.2) ++ t :: earlier).length := by
    intro j
    simp
    omega
  constructor
  · rintro ⟨memory', redis', hmem', hred', hallowed, hremaining, hstill, -⟩
    obtain rfl := Except.ok.inj (hmem.symm.trans hmem')
    obtain rfl := Except.ok.inj (hred.symm.trans hred')
    have hlimit : cfg.maxRequests < earlier.length + 1 := by
      by_contra hle
      have := hmemAllowed (hallowed.trans (hredAllowed.mpr (not_lt.mp hle)))
      omega
    have hrefused : memory.allowed = false := by
      rw [hallowed, Bool.eq_false_iff]
      exact fun h => absurd (hredAllowed.mp h) (not_le.mpr hlimit)
    refine ⟨hlimit, fun j => ?_⟩
    cases j with
    | zero =>
        refine (not_not.mp (mt hnow.mpr ?_)).2
        rintro ⟨res, hres, hall⟩
        rw [← Except.ok.inj (hmem.symm.trans hres), hrefused] at hall
        cases hall
    | succ j =>
        refine (not_not.mp (mt (hfurther j).mpr ?_)).2
        intro hall
        have := (hstill j).mp hall
        rw [hmemRefused hrefused] at this
        omega
  · rintro ⟨hlimit, hundisturbed⟩
    have hrefused : memory.allowed = false := by
      rw [Bool.eq_false_iff]
      intro hall
      exact hnow.mp ⟨memory, hmem, hall⟩ ⟨by omega, hundisturbed 0⟩
    have hredRefused : redis.allowed = false := by
      rw [Bool.eq_false_iff]
      exact fun h => absurd (hredAllowed.mp h) (not_le.mpr hlimit)
    have hzero : redis.remaining = 0 := by omega
    refine ⟨memory, redis, hmem, hred, hrefused.trans hredRefused.symm,
      (hmemRefused hrefused).trans hzero.symm, fun j => ?_, hredStill⟩
    rw [hmemRefused hrefused]
    refine iff_of_false (fun hall => (hfurther j).mp hall ⟨?_, hundisturbed (j + 1)⟩) (by omega)
    have := hlong j
    omega

/-- **When the backends agree** on the `n`-th check of a fresh key inside a single window: just
when `n` is beyond the limit and no cleanup drops the bucket of the key, neither at one of the last
`max_requests` checks nor at a further one. While fewer than `max_keys` other keys are tracked no
cleanup does, and the backends agree from the first refused check on. -/
theorem remaining_agrees_iff (hmax : 1 ≤ cfg.maxRequests)
    (hmemory : key ∉ st.buckets.map Prod.fst)
    (hmemoryWindow : InOneWindow cfg.windowSeconds (t :: earlier))
    (hredis : s.1.lookup (windowKey key) = none)
    (hredisWindow : (RedisServer.afterChecks cfg key s (earlier.length + 1)).1.clock <
      s.1.clock + seconds cfg.windowSeconds) :
    (BackendsAgree cfg key st t earlier s ↔
      cfg.maxRequests < earlier.length + 1 ∧
        ∀ j, st.Undisturbed cfg key cfg.maxRequests.toNat
          (List.replicate j (t.2, t.2) ++ t :: earlier)) ∧
      ((st.buckets.map Prod.fst).Nodup → (st.buckets.length : ℤ) < cfg.maxKeys →
        (∀ t' ∈ t :: earlier, t'.1 ≤ t'.2) →
        (BackendsAgree cfg key st t earlier s ↔ cfg.maxRequests < earlier.length + 1)) := by
  have hiff := backendsAgree_iff hmax hmemory hmemoryWindow hredis hredisWindow
  refine ⟨hiff, fun hnodup hroom hclock => hiff.trans (and_iff_left fun j => ?_)⟩
  refine undisturbed_of_room hmax hnodup hroom hmemory (hmemoryWindow.further j).tail ?_ _
  intro t' ht'
  rcases List.mem_append.mp ht' with ht' | ht'
  · rw [List.eq_of_mem_replicate ht']
  · exact hclock t' ht'

end Comparison

namespace Reference

/-- Two requests are allowed in a minute. -/
def twoAMinute : RateLimitConfig := { maxRequests := 2 }

/-- A third check, three seconds after the first one. -/
def earlierChecks : List (Instant × Instant) := [(seconds 2, seconds 2), (seconds 1, seconds 1)]

end Reference

open Reference

/-- On the third check of a key that is allowed two in a minute the backends agree. -/
theorem third_check_agrees :
    BackendsAgree twoAMinute clientKey (.new 0) (seconds 3, seconds 3) earlierChecks
      (redisServer, [1000000, 1000000]) := by
  have h := @remaining_agrees_iff twoAMinute clientKey (.new 0) (seconds 3, seconds 3) earlierChecks
    (redisServer, [1000000, 1000000]) (by decide) (by decide) (by decide) rfl (by decide +kernel)
  exact (h.2 (by decide) (by decide) (by decide)).mpr (by decide)

/-- **The backends disagree on the first check** of a key: in memory all of the hundred checks of a
minute remain after it, on the server one less. -/
theorem first_check_disagrees :
    (∃ memory redis, (RateLimiter.check {} (.new 0) clientKey 0 0).1 = .ok memory ∧
      (RedisServer.checkAlone {} clientKey (redisServer, [])).1 = .ok redis ∧
      memory.remaining = 100 ∧ redis.remaining = 99) ∧
    ¬ BackendsAgree {} clientKey (.new 0) (0, 0) [] (redisServer, []) := by
  obtain ⟨memory, hmem, hfull⟩ : ∃ memory,
      (RateLimiter.check {} (.new 0) clientKey 0 0).1 = .ok memory ∧ memory.remaining = 100 :=
    ⟨_, rfl, rfl⟩
  obtain ⟨redis, hred, hless⟩ : ∃ redis,
      (RedisServer.checkAlone {} clientKey (redisServer, [])).1 = .ok redis ∧
        redis.remaining = 99 := ⟨_, rfl, rfl⟩
  refine ⟨⟨memory, redis, hmem, hred, hfull, hless⟩, ?_⟩
  rintro ⟨memory', redis', hmem', hred', -, hremaining, -⟩
  obtain rfl : memory = memory' := Except.ok.inj (hmem.symm.trans hmem')
  obtain rfl : redis = redis' := Except.ok.inj (hred.symm.trans hred')
  omega

end BackendTemplate
