import BackendTemplate.Challenges

/-!
# The Lifetime of a Challenge

A challenge is kept in the cache for `CHALLENGE_TTL_SECONDS`, and nothing else limits its life.
`record_failure` writes it back with a full lifetime, so every failed attempt extends it. In a
run in which the challenge is not written after the instant it was issued at
(`noLateWriteBack`), no request that starts at the end of its lifetime or later creates a
session from it.

## Main results

* `ExpiresBy` — the invariant: the entry expires in time.
* `challenge_lifetime` — the result.
-/

namespace BackendTemplate

open Atomic

variable {env : Env} {ι : Type} {token : String} {T : Instant}

/-- The challenge of `token` is not written after instant `T`. -/
def noLateWriteBack (token : String) (T : Instant) (c : Cfg ι) : Label ι Choice ℕ → Prop
  | .act i _ => ∀ v ttl k,
      c.threads i = .running (.call (.cacheSet (ChallengeStore.key token) v ttl) k) →
      c.shared.clock ≤ T
  | .env _ => True

/-- The key a call sets. -/
def Op.sets : Op → Option String
  | .cacheSet key _ _ => some key
  | _ => none

theorem next_sets {c : Cfg ι} {i : ι} {key : String} :
    (c.next i).bind Op.sets = some key ↔
      ∃ v ttl k, c.threads i = .running (.call (.cacheSet key v ttl) k) := by
  rw [Option.bind_eq_some_iff]
  constructor
  · rintro ⟨o, ho, hkey⟩
    obtain ⟨k, hk⟩ := Config.next_eq_some.mp ho
    cases o with
    | cacheSet key' v ttl =>
        obtain rfl := Option.some.inj hkey
        exact ⟨v, ttl, k, hk⟩
    | _ => cases hkey
  · rintro ⟨v, ttl, k, hk⟩
    exact ⟨_, Config.next_eq_some.mpr ⟨k, hk⟩, rfl⟩

instance (token : String) (T : Instant) (c : Cfg ι) :
    (l : Label ι Choice ℕ) → Decidable (noLateWriteBack token T c l)
  | .act i _ => decidable_of_iff
      ((c.next i).bind Op.sets = some (ChallengeStore.key token) → c.shared.clock ≤ T) <| by
        rw [next_sets, noLateWriteBack]
        exact ⟨fun h v ttl k hk => h ⟨v, ttl, k, hk⟩, fun h ⟨v, ttl, k, hk⟩ => h v ttl k hk⟩
  | .env _ => inferInstanceAs (Decidable True)

/-- The entry of the challenge expires by the end of a lifetime that starts at `T`. -/
def ExpiresBy (token : String) (T : Instant) (m : InMemoryCache) : Prop :=
  ∀ v e, m.store (ChallengeStore.key token) = some (v, e) →
    ∃ t, e = some t ∧ t ≤ T + seconds challengeTtlSeconds

/-- A challenge is always written with the same lifetime. -/
theorem MayPut.ttl {r : Request} {p : Progress} {v : String} {ttl : Option ℕ}
    (h : MayPut env r p (ChallengeStore.key token) v ttl) : ttl = some challengeTtlSeconds := by
  cases r with
  | login data =>
      obtain ⟨_, _, _, -, -, httl, -⟩ := h
      exact httl
  | completeTwoFactor token' code =>
      rcases h with ⟨_, _, -, -, httl, -⟩ | ⟨u, _, hkey, -⟩
      · exact httl
      · exact absurd hkey (challengeKey_ne_usedKey token u.id.value code)
  | _ => exact absurd h id

/-- An entry that expires by then is expired by then. -/
theorem ExpiresBy.expired {m : InMemoryCache} (h : ExpiresBy token T m) {now : Instant}
    (hnow : T + seconds challengeTtlSeconds ≤ now) {v : String} {e : Option Instant}
    (hv : m.store (ChallengeStore.key token) = some (v, e)) :
    InMemoryCache.expired now e = true := by
  obtain ⟨t, rfl, ht⟩ := h v e hv
  exact decide_eq_true (le_trans ht hnow)

section Runs

variable [Fintype ι] [DecidableEq ι] {reqs : ι → Request} {w : World ι} {c c' : Cfg ι}

/-- **A call keeps the entry in time**, when it does not write the challenge late. -/
theorem ExpiresBy.call (h : ExpiresBy token T c.shared.cache) {ch : Choice} {i : ι} {o : Op}
    {x : o.Res} {k : o.Res → Act Response} {w' : World ι}
    (hC : noLateWriteBack token T c (.act i ch)) (ht : c.threads i = .running (.call o k))
    (hal : Allowed env (reqs i) (did c i) o) (he : exec env ch i o c.shared = some (x, w')) :
    ExpiresBy token T w'.cache := by
  by_cases ho : o.onCache = false
  · rw [(exec_uncached ho he).1]
    exact h
  · cases o with
    | cacheGet key =>
        rcases exec_cacheGet he with ⟨_, _, -, -, -, rfl⟩ | ⟨-, -, -, hstore⟩
        · exact h
        · intro v e hv
          rw [hstore] at hv
          by_cases hkey : ChallengeStore.key token = key
          · rw [hkey, Function.update_self] at hv
            cases hv
          · rw [Function.update_of_ne hkey] at hv
            exact h v e hv
    | cacheSet key value ttl =>
        rw [exec_cacheSet he]
        by_cases hkey : ChallengeStore.key token = key
        · subst hkey
          obtain rfl := MayPut.ttl hal
          intro v e hv
          rw [set_store_self _ _ _ _ (show challengeTtlSeconds ≠ 0 by decide)] at hv
          obtain ⟨rfl, rfl⟩ := Prod.mk.inj (Option.some.inj hv)
          exact ⟨_, rfl, Int.add_le_add_right (hC value _ k ht) _⟩
        · intro v e hv
          rw [set_store_ne c.shared.cache c.shared.clock hkey] at hv
          exact h v e hv
    | cacheDelete key =>
        rw [exec_cacheDelete he]
        intro v e hv
        by_cases hkey : ChallengeStore.key token = key
        · subst hkey
          rw [delete_store_self] at hv
          cases hv
        · rw [delete_store_ne _ hkey] at hv
          exact h v e hv
    | _ => exact absurd rfl ho

/-- From some moment on, the challenge is past its lifetime and request `j` has not read it. -/
structure TooLate (token : String) (T : Instant) (j : ι) (c : Cfg ι) : Prop where
  entry : ExpiresBy token T c.shared.cache
  late : T + seconds challengeTtlSeconds ≤ c.shared.clock
  unread : ∀ raw, (ChallengeStore.key token, raw) ∉ (did c j).gets

/-- **A challenge past its lifetime is not read.** -/
theorem TooLate.later {j : ι} (hl : TooLate token T j c)
    (h : Runs env reqs (noLateWriteBack token T) w c)
    (h' : Later env (noLateWriteBack token T) c c') : TooLate token T j c' := by
  refine Later.induction h' h (TooLate token T j) hl ?_ ?_ ?_
  · intro d i ch o k x w' _ ih hC ht hal he
    refine ⟨ih.entry.call hC ht hal he, ?_, fun raw hraw => ?_⟩
    · rw [afterCall_shared, exec_clock he]
      exact ih.late
    · by_cases hji : j = i
      · subst hji
        rw [did_afterCall_self] at hraw
        rcases mem_note_gets hraw with hold | ⟨rfl, hx⟩
        · exact ih.unread raw hold
        · rcases exec_cacheGet he with ⟨v, e, -, hv, hlive, -⟩ | ⟨rfl, -⟩
          · exact absurd ((ih.entry.expired ih.late hv).symm.trans hlive) (by simp)
          · cases eq_of_heq hx
      · rw [did_afterCall_ne hji] at hraw
        exact ih.unread raw hraw
  · exact fun d i ch x _ ih _ _ _ => ⟨ih.entry, ih.late, ih.unread⟩
  · refine fun d t _ ih _ => ⟨ih.entry, ?_, ih.unread⟩
    exact le_trans ih.late (Int.le_add_of_nonneg_right (Int.natCast_nonneg t))

/-- A completion that has not read its challenge has neither inserted a session nor committed. -/
theorem Runs.ungranted {C : Steps ι} (h : Runs env reqs C w c) {j : ι} {code : String}
    (hreq : reqs j = .completeTwoFactor token code)
    (hunread : ∀ raw, (ChallengeStore.key token, raw) ∉ (did c j).gets) :
    (did c j).added = none ∧ (did c j).committed = false := by
  have hco := h.coherent j
  have hnone : (did c j).added = none := by
    cases hadd : (did c j).added with
    | none => rfl
    | some s =>
        obtain ⟨-, -, -, hgrant⟩ := hco.added s hadd
        rw [hreq] at hgrant
        obtain ⟨_, _, _, -, -, -, ⟨raw, hraw, -⟩, -⟩ := hgrant
        exact absurd hraw (hunread raw)
  refine ⟨hnone, ?_⟩
  by_contra hc
  have hdone := hco.committed (by simpa using hc)
  rw [hreq] at hdone
  rw [Completed, hnone] at hdone
  exact absurd hdone.1 (by simp)

/-- **A challenge lives `CHALLENGE_TTL_SECONDS` from the moment it was issued.** In any run in
which the challenge a login issued at instant `T` is not written after `T`, a completion that
has not started by the end of that lifetime creates no session. -/
theorem challenge_lifetime {c₀ c₁ c₂ c₃ : Cfg ι}
    (h : Runs env reqs (noLateWriteBack token T) w c₀) {i j : ι} {ch : Choice} {data : LoginInput}
    {v : String} {ttl : Option ℕ} {k : Unit → Act Response} (_hlogin : reqs i = .login data)
    (hissue : c₀.threads i = .running (.call (.cacheSet (ChallengeStore.key token) v ttl) k))
    (hT : c₀.shared.clock = T) (hs : (machine env ι).step c₀ (.act i ch) = some c₁)
    (h₁ : Later env (noLateWriteBack token T) c₁ c₂) {code : String}
    (hreq : reqs j = .completeTwoFactor token code) (hidle : c₂.hist j = [])
    (hlate : T + seconds challengeTtlSeconds ≤ c₂.shared.clock)
    (h₂ : Later env (noLateWriteBack token T) c₂ c₃) :
    (did c₃ j).added = none ∧ (did c₃ j).committed = false := by
  have hC : noLateWriteBack token T c₀ (.act i ch) := fun _ _ _ _ => hT.le
  have hr₁ : Runs env reqs (noLateWriteBack token T) w c₁ := Machine.Reach.tail h hC hs
  have hr₂ := hr₁.later h₁
  -- the entry the login leaves expires in time, and stays so
  have hentry₁ : ExpiresBy token T c₁.shared.cache := by
    obtain rfl := MayPut.ttl (h.allowed hissue)
    have hc₁ : c₁.shared.cache = c₀.shared.cache.set c₀.shared.clock (ChallengeStore.key token) v
        (some challengeTtlSeconds) := by
      rw [Machine.step, hissue] at hs
      rw [← Option.some.inj hs]
      rfl
    intro v' e hv
    rw [hc₁] at hv
    rw [set_store_self _ _ _ _ (show challengeTtlSeconds ≠ 0 by decide)] at hv
    obtain ⟨rfl, rfl⟩ := Prod.mk.inj (Option.some.inj hv)
    exact ⟨_, rfl, by rw [hT]⟩
  have hentry₂ : ExpiresBy token T c₂.shared.cache := by
    refine Later.induction h₁ hr₁ (fun d => ExpiresBy token T d.shared.cache) hentry₁ ?_ ?_ ?_
    · exact fun d i ch o k x w' _ ih hC ht hal he => ih.call hC ht hal he
    · exact fun d i ch x _ ih _ _ _ => ih
    · exact fun d t _ ih _ => ih
  have hstart : TooLate token T j c₂ := by
    refine ⟨hentry₂, hlate, fun raw hraw => ?_⟩
    rw [did, hidle] at hraw
    exact absurd hraw List.not_mem_nil
  exact (hr₂.later h₂).ungranted hreq (hstart.later hr₂ h₂).unread

end Runs

/-! ### A challenge that is left alone, and one that is kept alive -/

/-- The token the login below issues. -/
def issuedToken : String := Reference.env.tokenUrlsafe 6

/-- A login that asks for a second factor, and two completions of its challenge. -/
def loginAndCompletions : Fin 3 → Request
  | 0 => .login { username := some "alice", password := Reference.password }
  | 1 => .completeTwoFactor issuedToken "111111"
  | 2 => .completeTwoFactor issuedToken "293768"

/-- The login and the completions, about to start. -/
def lifetimeStart : Cfg (Fin 3) :=
  start Reference.env loginAndCompletions
    (Reference.world (Fin 3) (Reference.tables (Reference.alice true) false))

/-- A completion 300 s after the login creates no session. -/
theorem late_completion_refused : ∃ c₀ c₂ c₃,
    (machine Reference.env (Fin 3)).run lifetimeStart (Reference.moves 0 12) = some c₀ ∧
      (machine Reference.env (Fin 3)).run c₀
        (Reference.moves 0 2 ++ Reference.wait 300) = some c₂ ∧
      (machine Reference.env (Fin 3)).run c₂ (Reference.moves 2 2) = some c₃ ∧
      (did c₃ 2).added = none ∧ (did c₃ 2).committed = false := by
  obtain ⟨c₀, c₃, h₀, hr, ⟨hsets, hclock⟩, -⟩ := Machine.exists_run_run
    (P := fun c : Cfg (Fin 3) => (c.next 0).bind Op.sets = some (ChallengeStore.key issuedToken) ∧
      c.shared.clock = Reference.clock) (Q := fun _ => True)
    (by decide +kernel : ((machine Reference.env (Fin 3)).run lifetimeStart
      (Reference.moves 0 12)).any (fun c₁ => _ && ((machine Reference.env (Fin 3)).run c₁
        (Reference.moves 0 2 ++ Reference.wait 300 ++ Reference.moves 2 2)).any _) = true)
  have hsteps : (machine Reference.env (Fin 3)).RunsWith
      (noLateWriteBack issuedToken Reference.clock) lifetimeStart
      (Reference.moves 0 12 ++ (Reference.moves 0 2 ++ Reference.wait 300 ++
        Reference.moves 2 2)) := by
    decide +kernel
  obtain ⟨c₂, h₂, hidle, hlate⟩ := Machine.exists_run
    (P := fun c : Cfg (Fin 3) => c.hist 2 = [] ∧
      Reference.clock + seconds challengeTtlSeconds ≤ c.shared.clock)
    (by decide +kernel : ((machine Reference.env (Fin 3)).run lifetimeStart
      (Reference.moves 0 12 ++ (Reference.moves 0 2 ++ Reference.wait 300))).any _ = true)
  rw [Machine.run_append, h₀] at h₂
  rw [Machine.run_append] at hr
  obtain ⟨c₂', h₂', h₃⟩ := Option.bind_eq_some_iff.mp hr
  obtain rfl := Option.some.inj (h₂'.symm.trans h₂)
  obtain ⟨hsteps₀, hsteps₁⟩ := hsteps.split h₀
  obtain ⟨hsteps₁, hsteps₂⟩ := hsteps₁.split h₂'
  obtain ⟨c₁, hs, h₁⟩ := Option.bind_eq_some_iff.mp h₂'
  obtain ⟨v, ttl, k, hissue⟩ := next_sets.mp hsets
  exact ⟨c₀, c₂', c₃, h₀, h₂', h₃, challenge_lifetime (Machine.reach_of_run hsteps₀ h₀) rfl hissue
    hclock hs (Machine.reach_of_run (hsteps₁.2 c₁ hs) h₁) rfl hidle hlate
    (Machine.reach_of_run hsteps₂ h₃)⟩

/-- A wrong code at 200 s keeps the challenge alive: with one request at a time, a completion
at 400 s creates a session. -/
theorem late_completion_granted : ∃ c₂ c₃,
    (machine Reference.env (Fin 3)).run lifetimeStart
        (Reference.moves 0 14 ++ Reference.wait 200 ++ Reference.moves 1 7 ++
          Reference.wait 200) = some c₂ ∧
      (machine Reference.env (Fin 3)).run c₂ (Reference.moves 2 17) = some c₃ ∧
      (machine Reference.env (Fin 3)).RunsWith Machine.sequentially lifetimeStart
        (Reference.moves 0 14 ++ Reference.wait 200 ++ Reference.moves 1 7 ++
          Reference.wait 200 ++ Reference.moves 2 17) ∧
      (c₂.hist 2 = [] ∧ Reference.clock + seconds challengeTtlSeconds ≤ c₂.shared.clock) ∧
      (did c₃ 2).added.isSome = true ∧ c₃.shared.db.sessions ≠ [] := by
  obtain ⟨c₂, c₃, h₂, h₃, hlate, hadded⟩ := Machine.exists_run_run
    (P := fun c : Cfg (Fin 3) => c.hist 2 = [] ∧
      Reference.clock + seconds challengeTtlSeconds ≤ c.shared.clock)
    (Q := fun c : Cfg (Fin 3) => (did c 2).added.isSome = true ∧ c.shared.db.sessions ≠ [])
    (by decide +kernel : ((machine Reference.env (Fin 3)).run lifetimeStart
      (Reference.moves 0 14 ++ Reference.wait 200 ++ Reference.moves 1 7 ++
        Reference.wait 200)).any (fun c₁ => _ && ((machine Reference.env (Fin 3)).run c₁
          (Reference.moves 2 17)).any _) = true)
  exact ⟨c₂, c₃, h₂, h₃, by decide +kernel, hlate, hadded⟩

end BackendTemplate
