import Mathlib.Algebra.BigOperators.Group.Finset.Basic
import BackendTemplate.CacheEffects

/-!
# Pending Challenges

A pending two-factor challenge is one cache entry: it holds the number of failed attempts,
and `CompleteTwoFactorUseCase` reads it at its start and writes it back, or discards it, at its
end. Nothing stops another completion from reading it in between. Two completions that both
hold the challenge write the same count back, and both can be granted a session.

The bound on guessing and the single use of a challenge hold in every run in which a
completion reads the challenge only while no other one holds it (`readsAlone`).

## Main results

* `Runs.guarded` — the invariant: the attempts that were made are covered by the entry.
* `guessing_bounded` — at most `MAX_ATTEMPTS` wrong codes are evaluated.
* `challenge_one_shot` — at most one session is created, and a discarded challenge is not
  read again.
-/

namespace BackendTemplate

open Atomic

variable {env : Env}

/-! ### Holders -/

/-- The number of wrong codes a request has had evaluated. -/
def Progress.wrong (p : Progress) : ℕ := p.checks.countP fun k => !k.2.2.1

/-- The number of wrong codes the entry of a challenge answers for: all of them once the
entry is gone, and otherwise its count, short of the one that discards it. -/
def credit (env : Env) : Option (String × Option Instant) → ℕ
  | none => maxAttempts
  | some (raw, _) =>
      match env.validateJson raw with
      | some c => min c.attempts (maxAttempts - 1)
      | none => maxAttempts - 1

theorem credit_some (env : Env) (entry : String × Option Instant) :
    credit env (some entry) + 1 ≤ maxAttempts := by
  obtain ⟨raw, e⟩ := entry
  simp only [credit, maxAttempts]
  split <;> omega

theorem credit_le (env : Env) (entry : Option (String × Option Instant)) :
    credit env entry ≤ maxAttempts := by
  cases entry with
  | none => exact le_rfl
  | some entry => exact Nat.le_of_succ_le (credit_some env entry)

section Runs

variable {ι : Type}

/-- Request `i` is under way and holds the challenge of `token`: it has read it and has
neither written it back nor discarded it. -/
def HoldsChallenge (token : String) (c : Cfg ι) (i : ι) : Prop :=
  (∃ a, c.threads i = .running a) ∧ ∃ raw, (did c i).Holds token raw

/-- **One at a time**: the challenge is read only while no other request holds it. -/
def readsAlone (token : String) (c : Cfg ι) : Label ι Choice ℕ → Prop
  | .act i _ => ∀ k, c.threads i = .running (.call (.cacheGet (ChallengeStore.key token)) k) →
      ∀ j, j ≠ i → ¬ HoldsChallenge token c j
  | .env _ => True

instance (token : String) (c : Cfg ι) (i : ι) : Decidable (HoldsChallenge token c i) :=
  decidable_of_iff ((match c.threads i with | .running _ => true | .done _ => false) = true ∧
      ∃ e ∈ (did c i).held, e.1 = ChallengeStore.key token) <| by
    have hheld : (∃ e ∈ (did c i).held, e.1 = ChallengeStore.key token) ↔
        ∃ raw, (did c i).Holds token raw := by
      constructor
      · rintro ⟨⟨k, raw⟩, he, rfl⟩
        exact ⟨raw, he⟩
      · rintro ⟨raw, hraw⟩
        exact ⟨_, hraw, rfl⟩
    rw [HoldsChallenge, hheld]
    cases c.threads i with
    | running p => simp
    | done r => simp

/-- The cache key a call reads. -/
def Op.reads : Op → Option String
  | .cacheGet k => some k
  | _ => none

theorem reads_eq_some {c : Cfg ι} {i : ι} {key : String} :
    (c.next i).bind Op.reads = some key ↔ ∃ k, c.threads i = .running (.call (.cacheGet key) k) := by
  rw [← Config.next_eq_some, Option.bind_eq_some_iff]
  constructor
  · rintro ⟨o, ho, hkey⟩
    cases o with
    | cacheGet k =>
        obtain rfl := Option.some.inj hkey
        exact ho
    | _ => cases hkey
  · exact fun h => ⟨_, h, rfl⟩

instance [Fintype ι] [DecidableEq ι] (token : String) (c : Cfg ι) :
    (l : Label ι Choice ℕ) → Decidable (readsAlone token c l)
  | .act i _ => decidable_of_iff ((c.next i).bind Op.reads = some (ChallengeStore.key token) →
      ∀ j, j ≠ i → ¬ HoldsChallenge token c j) <| by
    rw [reads_eq_some]
    exact ⟨fun h k hk => h ⟨k, hk⟩, fun h ⟨k, hk⟩ => h k hk⟩
  | .env _ => inferInstanceAs (Decidable True)

/-- The entry of the challenge in the cache. -/
def challengeEntry (token : String) (c : Cfg ι) : Option (String × Option Instant) :=
  c.shared.cache.store (ChallengeStore.key token)

variable [DecidableEq ι]

/-- What a request holds after one of its calls. -/
theorem holdsChallenge_self {token : String} {c : Cfg ι} {i : ι} {o : Op} {x : o.Res}
    {b : Act Response} {w' : World ι}
    (h : HoldsChallenge token (Machine.afterCall c i o x b w') i) :
    ∃ raw, ((did c i).note o x).Holds token raw := by
  obtain ⟨-, raw, hraw⟩ := h
  rw [did_afterCall_self] at hraw
  exact ⟨raw, hraw⟩

/-- A call changes what other requests hold in no way. -/
theorem holdsChallenge_ne {token : String} {c : Cfg ι} {i j : ι} (hji : j ≠ i) {o : Op} {x : o.Res}
    {b : Act Response} {w' : World ι} :
    HoldsChallenge token (Machine.afterCall c i o x b w') j ↔ HoldsChallenge token c j := by
  rw [HoldsChallenge, HoldsChallenge, did_afterCall_ne hji, threads_afterCall_ne hji]

/-- What a request holds that has not left. -/
theorem holdsChallenge_left {token : String} {c : Cfg ι} {i j : ι} {x : Except AppError Response}
    (hji : j ≠ i) : HoldsChallenge token (left c i x) j ↔ HoldsChallenge token c j := by
  have hthread : (left c i x).threads j = c.threads j := by simp [left, hji]
  rw [HoldsChallenge, HoldsChallenge, hthread, left_did]

variable [Fintype ι]

/-- The wrong codes evaluated before and after a call. -/
theorem sum_wrong_afterCall (c : Cfg ι) (i : ι) (o : Op) (x : o.Res) (b : Act Response)
    (w' : World ι) :
    (∑ j, (did (Machine.afterCall c i o x b w') j).wrong) + (did c i).wrong =
      (∑ j, (did c j).wrong) + ((did c i).note o x).wrong := by
  have hrest : ∑ j ∈ Finset.univ.erase i, (did (Machine.afterCall c i o x b w') j).wrong =
      ∑ j ∈ Finset.univ.erase i, (did c j).wrong := by
    refine Finset.sum_congr rfl fun j hj => ?_
    rw [did_afterCall_ne (Finset.ne_of_mem_erase hj)]
  rw [← Finset.add_sum_erase _ _ (Finset.mem_univ i), hrest, did_afterCall_self,
    ← Finset.add_sum_erase _ (fun j => (did c j).wrong) (Finset.mem_univ i)]
  omega

/-! ### The invariant -/

/-- **The wrong codes that were evaluated are covered by the entry of the challenge**, up to
those of the request that holds it. -/
structure Guarded (env : Env) (token : String) (c : Cfg ι) : Prop where
  /-- What is held is what is stored. -/
  entry : ∀ i a raw, c.threads i = .running a → (did c i).Holds token raw →
    ∃ e, challengeEntry token c = some (raw, e)
  /-- There is one holder. -/
  alone : ∀ i j, HoldsChallenge token c i → HoldsChallenge token c j → i = j
  /-- The wrong codes of all requests are covered. -/
  bound : ∀ n, (∀ i, HoldsChallenge token c i → (did c i).wrong ≤ n) →
    ∑ i, (did c i).wrong ≤ credit env (challengeEntry token c) + n

variable {token : String} {c : Cfg ι}

/-- A call that changes neither the entry nor what is held, and evaluates no wrong code. -/
theorem Guarded.quiet (h : Guarded env token c) {i : ι} {o : Op} {x : o.Res} {a b : Act Response}
    {w' : World ι} (ht : c.threads i = .running a)
    (hstore : w'.cache.store (ChallengeStore.key token) = challengeEntry token c)
    (hheld : ∀ raw, ((did c i).note o x).Holds token raw ↔ (did c i).Holds token raw)
    (hwrong : ((did c i).note o x).wrong = (did c i).wrong) :
    Guarded env token (Machine.afterCall c i o x b w') := by
  have hholds : ∀ j, HoldsChallenge token (Machine.afterCall c i o x b w') j →
      HoldsChallenge token c j := by
    intro j hj
    by_cases hji : j = i
    · subst hji
      obtain ⟨raw, hraw⟩ := holdsChallenge_self hj
      exact ⟨⟨a, ht⟩, raw, (hheld raw).mp hraw⟩
    · exact (holdsChallenge_ne hji).mp hj
  have hsum := sum_wrong_afterCall c i o x b w'
  refine ⟨fun j a' raw hj hraw => ?_, fun j j' hj hj' => ?_, fun n hn => ?_⟩
  · obtain ⟨⟨a'', ht'⟩, -⟩ := hholds j ⟨⟨a', hj⟩, raw, hraw⟩
    change ∃ e, w'.cache.store _ = some (raw, e)
    rw [hstore]
    by_cases hji : j = i
    · subst hji
      rw [did_afterCall_self] at hraw
      exact h.entry j a'' raw ht' ((hheld raw).mp hraw)
    · rw [did_afterCall_ne hji] at hraw
      exact h.entry j a'' raw ht' hraw
  · exact h.alone j j' (hholds j hj) (hholds j' hj')
  · change _ ≤ credit env (w'.cache.store _) + n
    rw [hstore]
    refine le_trans (by omega) (h.bound n fun j hj => ?_)
    by_cases hji : j = i
    · subst hji
      obtain ⟨-, raw, hraw⟩ := hj
      have := hn j ⟨⟨b, by simp [Machine.afterCall]⟩, raw, by
        rw [did_afterCall_self]; exact (hheld raw).mpr hraw⟩
      rwa [did_afterCall_self, hwrong] at this
    · have := hn j ((holdsChallenge_ne hji).mpr hj)
      rwa [did_afterCall_ne hji] at this

/-- The evaluation of a code by the request that holds the challenge. -/
theorem Guarded.check (h : Guarded env token c) {i : ι} {u : User} {code raw : String}
    {x : Bool × User} {a b : Act Response} {w' : World ι} (ht : c.threads i = .running a)
    (hraw : (did c i).Holds token raw) (hnil : (did c i).checks = [])
    (hcache : w'.cache = c.shared.cache) :
    Guarded env token (Machine.afterCall c i (.verifyTwoFactor u code) x b w') := by
  have hi : HoldsChallenge token c i := ⟨⟨a, ht⟩, raw, hraw⟩
  have hholds : ∀ j, HoldsChallenge token
      (Machine.afterCall c i (.verifyTwoFactor u code) x b w') j → j = i := by
    intro j hj
    by_contra hji
    exact hji (h.alone j i ((holdsChallenge_ne hji).mp hj) hi)
  refine ⟨fun j a' raw' hj hraw' => ?_, fun j j' hj hj' => ?_, fun n hn => ?_⟩
  · obtain rfl := hholds j ⟨⟨a', hj⟩, raw', hraw'⟩
    rw [did_afterCall_self] at hraw'
    change ∃ e, w'.cache.store _ = some (raw', e)
    rw [hcache]
    exact h.entry j a raw' ht hraw'
  · exact (hholds j hj).trans (hholds j' hj').symm
  · have hsum := sum_wrong_afterCall c i (.verifyTwoFactor u code) x b w'
    have hzero : (did c i).wrong = 0 := by rw [Progress.wrong, hnil]; rfl
    have hold := h.bound 0 fun j hj => by rw [h.alone j i hj hi, hzero]
    have hnew := hn i ⟨⟨b, by simp [Machine.afterCall]⟩, raw, by
      rw [did_afterCall_self]; exact hraw⟩
    rw [did_afterCall_self] at hnew
    change _ ≤ credit env (w'.cache.store _) + n
    rw [hcache]
    change _ ≤ credit env (challengeEntry token c) + n
    omega

/-- A call after which nobody holds the challenge, and whose entry covers what was evaluated. -/
theorem Guarded.release {i : ι} {o : Op} {x : o.Res} {b : Act Response} {w' : World ι}
    (hothers : ∀ j, j ≠ i → ¬ HoldsChallenge token c j)
    (hself : ∀ raw, ¬ ((did c i).note o x).Holds token raw)
    (hwrong : ((did c i).note o x).wrong = (did c i).wrong)
    (hcredit : ∑ j, (did c j).wrong ≤ credit env (w'.cache.store (ChallengeStore.key token))) :
    Guarded env token (Machine.afterCall c i o x b w') := by
  have hnone : ∀ j, ¬ HoldsChallenge token (Machine.afterCall c i o x b w') j := by
    intro j hj
    by_cases hji : j = i
    · subst hji
      obtain ⟨raw, hraw⟩ := holdsChallenge_self hj
      exact hself raw hraw
    · exact hothers j hji ((holdsChallenge_ne hji).mp hj)
  have hsum := sum_wrong_afterCall c i o x b w'
  refine ⟨fun j a' raw hj hraw => absurd ⟨⟨a', hj⟩, raw, hraw⟩ (hnone j),
    fun j j' hj _ => absurd hj (hnone j), fun n _ => ?_⟩
  change _ ≤ credit env (w'.cache.store _) + n
  omega

/-! ### The calls of a completion -/

/-- What a request has done with the challenge is the same. -/
structure SameChallenge (token : String) (p q : Progress) : Prop where
  held : ∀ raw, q.Holds token raw ↔ p.Holds token raw
  wrong : q.wrong = p.wrong
  dropped : ChallengeStore.key token ∈ q.dropped ↔ ChallengeStore.key token ∈ p.dropped
  gets : ∀ raw, (ChallengeStore.key token, raw) ∈ q.gets ↔ (ChallengeStore.key token, raw) ∈ p.gets

/-- **Everything a completion can do to its challenge**: read it first of all, have its code
evaluated while it holds it, write it back with one more attempt, discard it, or leave it
alone. -/
theorem completion_call {code : String} {p : Progress} {ch : Choice} {i : ι} {o : Op} {x : o.Res}
    {w w' : World ι} (hal : Allowed env (.completeTwoFactor token code) p o)
    (he : exec env ch i o w = some (x, w')) :
    (o = .cacheGet (ChallengeStore.key token) ∧ p = {}) ∨
    (∃ u, o = .verifyTwoFactor u code ∧ p.checks = [] ∧ ∃ raw, p.Holds token raw) ∨
    (∃ raw st, o = .cacheSet (ChallengeStore.key token)
        (env.dumpJson { st with attempts := st.attempts + 1 }) (some challengeTtlSeconds) ∧
      p.Holds token raw ∧ env.validateJson raw = some st ∧ st.attempts + 1 < maxAttempts) ∨
    (o = .cacheDelete (ChallengeStore.key token) ∧ ∃ raw, p.Holds token raw) ∨
    (w'.cache.store (ChallengeStore.key token) = w.cache.store (ChallengeStore.key token) ∧
      SameChallenge token p (p.note o x)) := by
  by_cases ho : o.onCache = false
  · by_cases hv : ∃ u code', o = .verifyTwoFactor u code'
    · obtain ⟨u, code', rfl⟩ := hv
      obtain ⟨-, -, rfl, hnil, -, hraw⟩ := hal
      exact Or.inr (Or.inl ⟨u, rfl, hnil, hraw⟩)
    · obtain ⟨hgets, -, hheld, -, hdropped⟩ := note_sameCache p ho x
      refine Or.inr (Or.inr (Or.inr (Or.inr ⟨?_, ?_, ?_, ?_, ?_⟩)))
      · rw [(exec_uncached ho he).1]
      · exact fun raw => by rw [Progress.Holds, Progress.Holds, hheld]
      · rw [Progress.wrong, Progress.wrong, note_checks p fun u code' hu => hv ⟨u, code', hu⟩]
      · rw [hdropped]
      · exact fun raw => by rw [hgets]
  · cases o with
    | cacheGet k =>
        rcases hal with ⟨rfl, hp⟩ | ⟨⟨u, rfl⟩, -⟩
        · exact Or.inl ⟨rfl, hp⟩
        · have hne : ChallengeStore.key token ≠ UsedCodes.key env u code :=
            challengeKey_ne_usedKey token u code
          refine Or.inr (Or.inr (Or.inr (Or.inr ?_)))
          rcases exec_cacheGet he with ⟨v, e, rfl, -, -, rfl⟩ | ⟨rfl, -, -, hstore⟩
          · refine ⟨rfl, fun raw => ?_, rfl, Iff.rfl, fun raw => ?_⟩
            · simp [Progress.Holds, Progress.note, hne]
            · simp [Progress.note, hne]
          · refine ⟨?_, fun raw => Iff.rfl, rfl, Iff.rfl, fun raw => Iff.rfl⟩
            rw [hstore, Function.update_of_ne hne]
    | cacheSet k v t =>
        rcases hal with ⟨raw, st, rfl, rfl, rfl, hraw, hst, hlt⟩ | ⟨u, u', rfl, rfl, rfl, -⟩
        · exact Or.inr (Or.inr (Or.inl ⟨raw, st, rfl, hraw, hst, hlt⟩))
        · have hne : ChallengeStore.key token ≠ UsedCodes.key env u.id.value code :=
            challengeKey_ne_usedKey token u.id.value code
          rw [exec_cacheSet he]
          refine Or.inr (Or.inr (Or.inr (Or.inr ⟨?_, fun raw => ?_, rfl, Iff.rfl,
            fun raw => Iff.rfl⟩)))
          · rw [set_store_ne w.cache w.clock hne]
          · change _ ∈ p.release _ ↔ _
            rw [mem_release]
            exact and_iff_left hne
    | cacheDelete k =>
        obtain ⟨rfl, hraw⟩ := hal
        exact Or.inr (Or.inr (Or.inr (Or.inl ⟨rfl, hraw⟩)))
    | _ => exact absurd rfl ho

/-! ### Whole runs -/

section Completions

variable {codes : ι → String} {w : World ι}

/-- The wrong codes that were evaluated: a request has at most one of its own. -/
theorem Guarded.sum_le (h : Guarded env token c)
    (hr : Runs env (fun i => .completeTwoFactor token (codes i)) (readsAlone token) w c) :
    ∑ j, (did c j).wrong ≤ credit env (challengeEntry token c) + 1 := by
  refine h.bound 1 fun j _ => ?_
  exact le_trans List.countP_le_length (hr.one_check j)

/-- **The invariant holds along every run in which the challenge is read alone.** -/
theorem Runs.guarded
    (h : Runs env (fun i => .completeTwoFactor token (codes i)) (readsAlone token) w c) :
    Guarded env token c := by
  refine h.induction (Guarded env token) ?_ ?_ ?_ ?_
  · refine ⟨fun i a raw _ hraw => absurd hraw List.not_mem_nil,
      fun i j hi => absurd hi.2 fun ⟨raw, hraw⟩ => absurd hraw List.not_mem_nil, fun n _ => ?_⟩
    simp [Progress.wrong]
  · intro c i ch o k x w' hr ih hC ht hal he
    have hheld : ∀ {raw}, (did c i).Holds token raw → HoldsChallenge token c i :=
      fun hraw => ⟨⟨_, ht⟩, _, hraw⟩
    rcases completion_call hal he with ⟨rfl, hp⟩ | ⟨u, rfl, hnil, raw, hraw⟩ |
      ⟨raw, st, rfl, hraw, hst, hlt⟩ | ⟨rfl, raw, hraw⟩ | ⟨hstore, hsame⟩
    · -- nobody holds the challenge when it is read
      have hnone : ∀ j, ¬ HoldsChallenge token c j := by
        intro j hj
        by_cases hji : j = i
        · subst hji
          obtain ⟨-, raw, hraw⟩ := hj
          rw [hp] at hraw
          exact absurd hraw List.not_mem_nil
        · exact hC k ht j hji hj
      have hsum := ih.bound 0 fun j hj => absurd hj (hnone j)
      rcases exec_cacheGet he with ⟨v, e, rfl, hv, -, rfl⟩ | ⟨rfl, -, -, hstore⟩
      · refine ⟨fun j a raw hj hraw => ?_, fun j j' hj hj' => ?_, fun n _ => ?_⟩
        · by_cases hji : j = i
          · subst hji
            rw [did_afterCall_self, hp] at hraw
            obtain rfl : raw = v := by simpa [Progress.Holds, Progress.note] using hraw
            exact ⟨e, hv⟩
          · rw [did_afterCall_ne hji] at hraw
            rw [threads_afterCall_ne hji] at hj
            exact absurd ⟨⟨a, hj⟩, raw, hraw⟩ (hnone j)
        · have hji : j = i := by_contra fun hji => hnone j ((holdsChallenge_ne hji).mp hj)
          have hji' : j' = i := by_contra fun hji => hnone j' ((holdsChallenge_ne hji).mp hj')
          exact hji.trans hji'.symm
        · have := sum_wrong_afterCall c i (.cacheGet (ChallengeStore.key token)) (some v) (k (some v))
            c.shared
          have hsame : ((did c i).note (.cacheGet (ChallengeStore.key token)) (some v)).wrong =
              (did c i).wrong := rfl
          change _ ≤ credit env (challengeEntry token c) + n
          omega
      · refine Guarded.release (fun j _ => hnone j) (fun raw hraw => ?_) rfl ?_
        · rw [hp] at hraw
          exact absurd hraw List.not_mem_nil
        · rw [hstore, Function.update_self]
          exact le_trans hsum (credit_le env _)
    · exact ih.check ht hraw hnil (exec_uncached rfl he).1
    · obtain ⟨e, hentry⟩ := ih.entry i _ raw ht hraw
      have hsum := ih.sum_le hr
      refine Guarded.release (fun j hji hj => hji (ih.alone j i hj (hheld hraw)))
        (fun raw' => not_holds_release (p := did c i) rfl) rfl ?_
      have hnew : w'.cache.store (ChallengeStore.key token) =
          some (env.dumpJson { st with attempts := st.attempts + 1 },
            some (c.shared.clock + seconds (challengeTtlSeconds : ℕ))) := by
        rw [exec_cacheSet he]
        exact set_store_self _ _ _ _ (show challengeTtlSeconds ≠ 0 by decide)
      rw [hentry] at hsum
      rw [hnew]
      simp only [credit, hst, env.validateJson_dumpJson] at hsum ⊢
      omega
    · obtain ⟨e, hentry⟩ := ih.entry i _ raw ht hraw
      have hsum := ih.sum_le hr
      refine Guarded.release (fun j hji hj => hji (ih.alone j i hj (hheld hraw)))
        (fun raw' => not_holds_release (p := did c i) rfl) rfl ?_
      rw [hentry] at hsum
      rw [exec_cacheDelete he, delete_store_self]
      exact le_trans hsum (credit_some env _)
    · exact ih.quiet ht hstore hsame.held hsame.wrong
  · intro c i ch x hr ih _ ht hends
    refine ⟨fun j a raw hj hraw => ih.entry j a raw (threads_left hj) hraw,
      fun j j' hj hj' => ?_, fun n hn => ih.bound n fun j hj => ?_⟩
    · obtain ⟨⟨a, ha⟩, hraw⟩ := hj
      obtain ⟨⟨a', ha'⟩, hraw'⟩ := hj'
      exact ih.alone j j' ⟨⟨a, threads_left ha⟩, hraw⟩ ⟨⟨a', threads_left ha'⟩, hraw'⟩
    · by_cases hji : j = i
      · -- a request that leaves with the challenge in hand has seen no wrong code
        subst hji
        obtain ⟨-, raw, hraw⟩ := hj
        obtain ⟨-, -, hclean⟩ := hends
        have hzero : (did c j).wrong = 0 := by
          rw [Progress.wrong, List.countP_eq_zero]
          rintro ⟨u, code, b, u'⟩ hmem
          cases b with
          | true => simp
          | false => exact absurd hmem (hclean raw hraw u code u')
        rw [hzero]
        exact Nat.zero_le n
      · exact hn j ((holdsChallenge_left hji).mpr hj)
  · exact fun c d _ ih _ => ⟨ih.entry, ih.alone, ih.bound⟩

/-- **A pending challenge bounds guessing.** In any interleaving of any number of completions
of one challenge in which the challenge is read only while no other completion holds it, at
most `MAX_ATTEMPTS` wrong codes are evaluated. -/
theorem guessing_bounded
    (h : Runs env (fun i => .completeTwoFactor token (codes i)) (readsAlone token) w c) :
    ∑ i, (did c i).wrong ≤ maxAttempts := by
  have hg := h.guarded
  by_cases hhold : ∃ i, HoldsChallenge token c i
  · obtain ⟨i, ⟨a, ht⟩, raw, hraw⟩ := hhold
    obtain ⟨e, hentry⟩ := hg.entry i a raw ht hraw
    have hsum := hg.sum_le h
    rw [hentry] at hsum
    exact le_trans hsum (credit_some env _)
  · have hsum := hg.bound 0 fun i hi => absurd ⟨i, hi⟩ hhold
    exact le_trans hsum (credit_le env _)

/-! ### One use -/

/-- The challenge is gone, and no request holds it. -/
structure Spent (token : String) (c : Cfg ι) : Prop where
  absent : challengeEntry token c = none
  free : ∀ i, ¬ HoldsChallenge token c i

/-- **A challenge that is gone stays gone**: no call brings it back, and none reads it. -/
theorem Spent.call (h : Spent token c) {code : String} {ch : Choice} {i : ι} {o : Op} {x : o.Res}
    {a b : Act Response} {w' : World ι} (ht : c.threads i = .running a)
    (hal : Allowed env (.completeTwoFactor token code) (did c i) o)
    (he : exec env ch i o c.shared = some (x, w')) :
    Spent token (Machine.afterCall c i o x b w') ∧
      SameChallenge token (did c i) ((did c i).note o x) := by
  have hself : ∀ raw, ¬ (did c i).Holds token raw := fun raw hraw => h.free i ⟨⟨a, ht⟩, raw, hraw⟩
  have hkeep : w'.cache.store (ChallengeStore.key token) = none →
      SameChallenge token (did c i) ((did c i).note o x) →
      Spent token (Machine.afterCall c i o x b w') := by
    refine fun hstore hsame => ⟨hstore, fun j hj => ?_⟩
    by_cases hji : j = i
    · subst hji
      obtain ⟨raw, hraw⟩ := holdsChallenge_self hj
      exact hself raw ((hsame.held raw).mp hraw)
    · exact h.free j ((holdsChallenge_ne hji).mp hj)
  rcases completion_call hal he with ⟨rfl, hp⟩ | ⟨u, rfl, -, raw, hraw⟩ |
    ⟨raw, st, rfl, hraw, -⟩ | ⟨rfl, raw, hraw⟩ | ⟨hstore, hsame⟩
  · rcases exec_cacheGet he with ⟨v, e, rfl, hv, -, rfl⟩ | ⟨rfl, -, -, hstore⟩
    · exact absurd (h.absent.symm.trans hv) (by simp)
    · have hsame : SameChallenge token (did c i)
          ((did c i).note (.cacheGet (ChallengeStore.key token)) none) :=
        ⟨fun raw => Iff.rfl, rfl, Iff.rfl, fun raw => Iff.rfl⟩
      exact ⟨hkeep (by rw [hstore, Function.update_self]) hsame, hsame⟩
  · exact absurd hraw (hself raw)
  · exact absurd hraw (hself raw)
  · exact absurd hraw (hself raw)
  · exact ⟨hkeep (hstore.trans h.absent) hsame, hsame⟩

/-- **A discarded challenge is gone**, and one request has discarded it. -/
structure DroppedOnce (token : String) (c : Cfg ι) : Prop where
  spent : ∀ i, ChallengeStore.key token ∈ (did c i).dropped → Spent token c
  once : ∀ i j, ChallengeStore.key token ∈ (did c i).dropped →
    ChallengeStore.key token ∈ (did c j).dropped → i = j

omit [Fintype ι] in
/-- A call that discards nothing. -/
theorem DroppedOnce.quiet (h : DroppedOnce token c) {i : ι} {o : Op} {x : o.Res}
    {b : Act Response} {w' : World ι}
    (hdrop : ChallengeStore.key token ∈ ((did c i).note o x).dropped →
      ChallengeStore.key token ∈ (did c i).dropped)
    (hspent : Spent token c → Spent token (Machine.afterCall c i o x b w')) :
    DroppedOnce token (Machine.afterCall c i o x b w') := by
  have hback : ∀ j, ChallengeStore.key token ∈ (did (Machine.afterCall c i o x b w') j).dropped →
      ChallengeStore.key token ∈ (did c j).dropped := by
    intro j hj
    by_cases hji : j = i
    · subst hji
      rw [did_afterCall_self] at hj
      exact hdrop hj
    · rwa [did_afterCall_ne hji] at hj
  exact ⟨fun j hj => hspent (h.spent j (hback j hj)),
    fun j j' hj hj' => h.once j j' (hback j hj) (hback j' hj')⟩

/-- **A challenge is discarded once**, along every run in which it is read alone. -/
theorem Runs.droppedOnce
    (h : Runs env (fun i => .completeTwoFactor token (codes i)) (readsAlone token) w c) :
    DroppedOnce token c := by
  refine h.induction (DroppedOnce token) ?_ ?_ ?_ ?_
  · exact ⟨fun i hi => absurd hi List.not_mem_nil, fun i j hi => absurd hi List.not_mem_nil⟩
  · intro c i ch o k x w' hr ih hC ht hal he
    by_cases hspent : Spent token c
    · obtain ⟨hafter, hsame⟩ := hspent.call (b := k x) ht hal he
      exact ih.quiet hsame.dropped.mp fun _ => hafter
    · -- nobody has discarded the challenge before this call
      have hnone : ∀ j, ChallengeStore.key token ∉ (did c j).dropped :=
        fun j hj => hspent (ih.spent j hj)
      rcases completion_call hal he with ⟨rfl, -⟩ | ⟨u, rfl, -⟩ | ⟨raw, st, rfl, -⟩ |
        ⟨rfl, raw, hraw⟩ | ⟨-, hsame⟩
      · exact ih.quiet (fun hd => by cases x <;> exact hd) fun hs => absurd hs hspent
      · exact ih.quiet (fun hd => hd) fun hs => absurd hs hspent
      · exact ih.quiet (fun hd => hd) fun hs => absurd hs hspent
      · have hi : HoldsChallenge token c i := ⟨⟨_, ht⟩, raw, hraw⟩
        have hgone : Spent token (Machine.afterCall c i (.cacheDelete (ChallengeStore.key token)) x
            (k x) w') := by
          refine ⟨?_, fun j hj => ?_⟩
          · change w'.cache.store _ = none
            rw [exec_cacheDelete he, delete_store_self]
          · by_cases hji : j = i
            · subst hji
              obtain ⟨raw', hraw'⟩ := holdsChallenge_self hj
              exact not_holds_release (p := did c j) rfl hraw'
            · exact hji (hr.guarded.alone j i ((holdsChallenge_ne hji).mp hj) hi)
        have honly : ∀ j, ChallengeStore.key token ∈ (did (Machine.afterCall c i
            (.cacheDelete (ChallengeStore.key token)) x (k x) w') j).dropped → j = i := by
          intro j hj
          by_contra hji
          rw [did_afterCall_ne hji] at hj
          exact hnone j hj
        exact ⟨fun _ _ => hgone, fun j j' hj hj' => (honly j hj).trans (honly j' hj').symm⟩
      · exact ih.quiet hsame.dropped.mp fun hs => absurd hs hspent
  · intro c i ch x _ ih _ _ _
    refine ⟨fun j hj => ?_, ih.once⟩
    obtain ⟨habsent, hfree⟩ := ih.spent j hj
    refine ⟨habsent, fun j' hj' => ?_⟩
    obtain ⟨⟨a, ha⟩, hraw⟩ := hj'
    exact hfree j' ⟨⟨a, threads_left ha⟩, hraw⟩
  · exact fun c d _ ih _ => ⟨fun j hj => ⟨(ih.spent j hj).absent, (ih.spent j hj).free⟩, ih.once⟩

/-- No read finds a challenge that is gone. -/
theorem Spent.later {c' : Cfg ι} (hs : Spent token c)
    (h : Runs env (fun i => .completeTwoFactor token (codes i)) (readsAlone token) w c)
    (h' : Later env (readsAlone token) c c') (j : ι) {raw : String}
    (hget : (ChallengeStore.key token, raw) ∈ (did c' j).gets) :
    (ChallengeStore.key token, raw) ∈ (did c j).gets := by
  refine (Later.induction h' h (fun d => Spent token d ∧
    ((ChallengeStore.key token, raw) ∈ (did d j).gets →
      (ChallengeStore.key token, raw) ∈ (did c j).gets)) ⟨hs, id⟩ ?_ ?_ ?_).2 hget
  · rintro d i ch o k x w' - ⟨hd, ih⟩ - ht hal he
    obtain ⟨hafter, hsame⟩ := hd.call (b := k x) ht hal he
    refine ⟨hafter, fun hmem => ih ?_⟩
    by_cases hji : j = i
    · subst hji
      rw [did_afterCall_self] at hmem
      exact (hsame.gets raw).mp hmem
    · rwa [did_afterCall_ne hji] at hmem
  · rintro d i ch x - ⟨hd, ih⟩ - - -
    refine ⟨⟨hd.absent, fun i' hi' => ?_⟩, ih⟩
    obtain ⟨⟨a, ha⟩, hraw⟩ := hi'
    exact hd.free i' ⟨⟨a, threads_left ha⟩, hraw⟩
  · exact fun d t _ ih _ => ⟨⟨ih.1.absent, ih.1.free⟩, ih.2⟩

/-- A sessions row of `c` that world `w` does not have. -/
def NewSession (w : World ι) (c : Cfg ι) (row : SessionRow) : Prop :=
  row ∈ c.shared.db.sessions ∧ ∀ r ∈ w.db.sessions, r.sessionId ≠ row.sessionId

/-- **A challenge is good for one session.** In any interleaving of any number of completions
of one challenge in which the challenge is read only while no other completion holds it, at
most one session is created, and once a request has discarded the challenge no request reads
it any more. -/
theorem challenge_one_shot
    (h : Runs env (fun i => .completeTwoFactor token (codes i)) (readsAlone token) w c)
    (hw : Startable env w) :
    (∀ row row', NewSession w c row → NewSession w c row' → row = row') ∧
      ∀ c' i, Later env (readsAlone token) c c' →
        ChallengeStore.key token ∈ (did c i).dropped → ∀ j raw,
        (ChallengeStore.key token, raw) ∈ (did c' j).gets →
        (ChallengeStore.key token, raw) ∈ (did c j).gets := by
  have hkeyed := (h.minted hw).keyed
  have hdrop := h.droppedOnce
  -- a new row was inserted by a completion that has discarded the challenge
  have hnew : ∀ row, NewSession w c row → ∃ i s, (did c i).added = some s ∧
      s.sessionId = row.sessionId ∧ ChallengeStore.key token ∈ (did c i).dropped := by
    rintro row ⟨hmem, hno⟩
    rcases h.created hw (hkeyed.mem_sessions.mp hmem) with ⟨row₀, h₀, -⟩ | ⟨i, s, -, hadd, hid, -⟩
    · exact absurd (Keyed.key_of_lookup h₀) (hno row₀ (Keyed.mem_of_lookup h₀))
    · obtain ⟨-, -, -, hgrant⟩ := (h.coherent i).added s hadd
      obtain ⟨u, u', st, -, -, -, -, -, hd⟩ := hgrant
      exact ⟨i, s, hadd, hid, hd⟩
  refine ⟨fun row row' hrow hrow' => ?_, fun c' i h' hi j raw hget => ?_⟩
  · obtain ⟨i, s, hadd, hid, hi⟩ := hnew row hrow
    obtain ⟨j, s', hadd', hid', hj⟩ := hnew row' hrow'
    obtain rfl := hdrop.once i j hi hj
    obtain rfl := Option.some.inj (hadd.symm.trans hadd')
    have hrow₁ := hkeyed.mem_sessions.mp hrow.1
    have hrow₂ := hkeyed.mem_sessions.mp hrow'.1
    rw [← hid, hid'] at hrow₁
    exact Option.some.inj (hrow₁.symm.trans hrow₂)
  · exact (hdrop.spent i hi).later h h' j hget

end Completions

end Runs

/-! ### Guesses one by one, and all at once -/

/-- The token of a pending challenge. -/
def challengeToken : String := "Wn5tYq8LbZ2cXe7RjPk1Hs4Vd9Fa6GmUo3iKxTr0BwE"

/-- A challenge of the account, just issued. -/
def pendingChallenge : InMemoryCache :=
  InMemoryCache.empty.set Reference.clock (ChallengeStore.key challengeToken)
    (Reference.env.dumpJson { userId := Reference.aliceId }) (some challengeTtlSeconds)

/-- Completions of the challenge, about to start. -/
def completions (n : ℕ) (codes : Fin n → String) : Cfg (Fin n) :=
  start Reference.env (fun i => .completeTwoFactor challengeToken (codes i))
    (Reference.world (Fin n) (Reference.tables (Reference.alice true) false) pendingChallenge)

/-- Two guesses, one after the other. -/
theorem guessing_bounded_in_turn : ∃ c,
    (machine Reference.env (Fin 2)).run (completions 2 fun _ => "000000")
        (Reference.moves 0 7 ++ Reference.moves 1 7) = some c ∧
      ∑ i, (did c i).wrong ≤ maxAttempts := by
  obtain ⟨c, hc, -⟩ := Machine.exists_run (P := fun _ : Cfg (Fin 2) => True)
    (by decide +kernel : ((machine Reference.env (Fin 2)).run (completions 2 fun _ => "000000")
      (Reference.moves 0 7 ++ Reference.moves 1 7)).any _ = true)
  have hsteps : (machine Reference.env (Fin 2)).RunsWith (readsAlone challengeToken)
      (completions 2 fun _ => "000000") (Reference.moves 0 7 ++ Reference.moves 1 7) := by
    decide +kernel
  exact ⟨c, hc, guessing_bounded (Machine.reach_of_run hsteps hc)⟩

/-- Six guesses that have all read the challenge before any of them writes it back: six wrong
codes are evaluated. -/
theorem guessing_unbounded_at_once : ∃ c,
    (machine Reference.env (Fin 6)).run (completions 6 fun _ => "000000")
        (Reference.moves 0 5 ++ Reference.moves 1 5 ++ Reference.moves 2 5 ++
          Reference.moves 3 5 ++ Reference.moves 4 5 ++ Reference.moves 5 5) = some c ∧
      maxAttempts < ∑ i, (did c i).wrong :=
  Machine.exists_run (by decide +kernel)

/-- The one-time password of the moment. -/
def rightCode : String := "324550"

/-- Two completions with the right code, one after the other, create one session. -/
theorem one_shot_in_turn : ∃ c,
    (machine Reference.env (Fin 2)).run (completions 2 fun _ => rightCode)
        (Reference.moves 0 17 ++ Reference.moves 1 2) = some c ∧
      c.shared.db.sessions ≠ [] ∧
      ∀ row row', row ∈ c.shared.db.sessions → row' ∈ c.shared.db.sessions → row = row' := by
  obtain ⟨c, hc, hsome⟩ := Machine.exists_run
    (P := fun c : Cfg (Fin 2) => c.shared.db.sessions ≠ [])
    (by decide +kernel : ((machine Reference.env (Fin 2)).run (completions 2 fun _ => rightCode)
      (Reference.moves 0 17 ++ Reference.moves 1 2)).any _ = true)
  have hsteps : (machine Reference.env (Fin 2)).RunsWith (readsAlone challengeToken)
      (completions 2 fun _ => rightCode) (Reference.moves 0 17 ++ Reference.moves 1 2) := by
    decide +kernel
  have hshot := (challenge_one_shot (Machine.reach_of_run hsteps hc)
    (reference_startable (Fin 2) rfl false pendingChallenge)).1
  refine ⟨c, hc, hsome, fun row row' hrow hrow' => hshot row row' ⟨hrow, ?_⟩ ⟨hrow', ?_⟩⟩
  · exact fun r hr => absurd hr List.not_mem_nil
  · exact fun r hr => absurd hr List.not_mem_nil

/-- One completion with the right code, one with a wrong one, and one that comes later. -/
def mixedCodes : Fin 3 → String
  | 0 => rightCode
  | 1 => "000000"
  | 2 => "000000"

/-- The number of challenges the later completion has read. -/
def challengesRead (c : Cfg (Fin 3)) : ℕ := (did c 2).gets.length

/-- Two completions with the right code that overlap create two sessions; and a completion
with a wrong code that overlaps an accepted one puts the discarded challenge back, where a
later one reads it. -/
theorem one_shot_twice :
    (∃ c, (machine Reference.env (Fin 2)).run (completions 2 fun _ => rightCode)
        (Reference.moves 0 5 ++ Reference.moves 1 5 ++ Reference.moves 0 12 ++
          Reference.moves 1 12) = some c ∧ c.shared.db.sessions.length = 2) ∧
      ∃ c c', (machine Reference.env (Fin 3)).run (completions 3 mixedCodes)
          (Reference.moves 0 5 ++ Reference.moves 1 5 ++ Reference.moves 0 12) = some c ∧
        (machine Reference.env (Fin 3)).run c
          (Reference.moves 1 2 ++ Reference.moves 2 1) = some c' ∧
        (ChallengeStore.key challengeToken ∈ (did c 0).dropped ∧ challengesRead c = 0) ∧
        challengesRead c' = 1 :=
  ⟨Machine.exists_run (by decide +kernel), Machine.exists_run_run (by decide +kernel)⟩

end BackendTemplate
