import BackendTemplate.CacheEffects
import BackendTemplate.Runs

/-!
# The Challenge Store Used One Call at a Time

A challenge is stored in a narrower record, which every recorded failure decodes, counts and encodes
again. Used one call at a time, with each failure recorded on the challenge just read, the store
counts: after `k` failures it holds the issued challenge with `attempts = k`, until the last failure
it allows, or a `discard`, removes it.

## Main results

* `Counted.step` — what one call keeps.
* `failures_counted` — what the calls answer after any such sequence.
-/

namespace BackendTemplate

open Atomic Atomic.Prog ChallengeStore

variable {env : Env} {token : String} {w w₀ : World Unit}

/-! ### The calls, alone -/

/-- `issue` stores the challenge under a fresh token. -/
theorem alone_issue (c : TwoFactorChallenge) :
    alone env (issue env c) w = some (.ok (env.tokenUrlsafe w.rng), (w.draw 1).withCache
      (w.cache.set w.clock (key (env.tokenUrlsafe w.rng)) (env.dumpJson (.of c))
        (some challengeTtlSeconds))) := rfl

theorem alone_discard :
    alone env (discard token) w = some (.ok (), w.withCache (w.cache.delete (key token))) := rfl

/-- `read` decodes an entry that is alive. -/
theorem alone_read {stored : StoredChallenge} {e : Option Instant}
    (hs : w.cache.store (key token) = some (env.dumpJson stored, e))
    (he : InMemoryCache.expired w.clock e = false) :
    alone env (ChallengeStore.read env token) w = some (.ok stored.toChallenge, w) := by
  have hget : w.cache.get w.clock (key token) = (some (env.dumpJson stored), w.cache) := by
    rw [InMemoryCache.get, hs]
    simp only [he, Bool.false_eq_true, if_false]
  have hexec : (machine env Unit).exec {} () (.cacheGet (key token)) w =
      some (some (env.dumpJson stored), w) := by
    change some _ = _
    rw [hget]
  rw [alone, ChallengeStore.read]
  change Option.map _ ((machine env Unit).eval {} () (.call (Op.cacheGet (key token)) _) w []) = _
  rw [Machine.eval_call hexec]
  simp only [Prog.bind, env.validateJson_dumpJson]
  rfl

/-- `read` of an absent entry raises. -/
theorem alone_read_absent (hs : w.cache.store (key token) = none) :
    alone env (ChallengeStore.read env token) w = some (.error .twoFactorChallengeExpired, w) := by
  have hget : w.cache.get w.clock (key token) = (none, w.cache) := by
    rw [InMemoryCache.get, hs]
  have hexec : (machine env Unit).exec {} () (.cacheGet (key token)) w = some (none, w) := by
    change some _ = _
    rw [hget]
  rw [alone, ChallengeStore.read]
  change Option.map _ ((machine env Unit).eval {} () (.call (Op.cacheGet (key token)) _) w []) = _
  rw [Machine.eval_call hexec]
  rfl

/-- `record_failure` on a challenge that has attempts left after it. -/
theorem alone_recordFailure {c : TwoFactorChallenge} (hc : c.attempts + 1 < maxAttempts) :
    alone env (recordFailure env token c) w = some (.ok (), w.withCache
      (w.cache.set w.clock (key token) (env.dumpJson (.of { c with attempts := c.attempts + 1 }))
        (some challengeTtlSeconds))) := by
  have hleft : c.withFailedAttempt.isExhausted = false := decide_eq_false (not_le.mpr hc)
  rw [alone, recordFailure]
  simp only [hleft, Bool.false_eq_true, if_false]
  rfl

/-- `record_failure` on a challenge that has none left removes it and raises. -/
theorem alone_recordFailure_last {c : TwoFactorChallenge} (hc : maxAttempts ≤ c.attempts + 1) :
    alone env (recordFailure env token c) w =
      some (.error .twoFactorChallengeExpired, w.withCache (w.cache.delete (key token))) := by
  have hlast : c.withFailedAttempt.isExhausted = true := decide_eq_true hc
  rw [alone, recordFailure]
  simp only [hlast, if_true]
  rfl

/-! ### Sequences of calls -/

/-- The world between two calls on a token: the challenge just read, if a read came last, the
failures recorded so far, and whether the challenge was discarded. -/
structure ChallengeUse where
  world : World Unit
  justRead : Option TwoFactorChallenge := none
  failures : ℕ := 0
  discarded : Bool := false

/-- What happens between two states: time passes, or a call runs from start to end. -/
inductive StoreCall
  | wait (d : ℕ)
  | read
  | recordFailure
  | discard

/-- **One call on a token.** A failure is recorded on the challenge just read. -/
def storeStep (env : Env) (token : String) (s : ChallengeUse) : StoreCall → Option ChallengeUse
  | .wait d => some { s with world := (machine env Unit).env d s.world }
  | .read => (alone env (ChallengeStore.read env token) s.world).map fun out =>
      { s with world := out.2, justRead := out.1.toOption }
  | .recordFailure => s.justRead.bind fun c =>
      (alone env (recordFailure env token c) s.world).map fun out =>
        { s with world := out.2, justRead := none, failures := s.failures + 1 }
  | .discard => (alone env (discard token) s.world).map fun out =>
      { s with world := out.2, justRead := none, discarded := true }

/-- **Within the lifetime**: no time passes in which the entry of the token expires. -/
def InLifetime (token : String) (s : ChallengeUse) : StoreCall → Prop
  | .wait d => ∀ v e, s.world.cache.store (key token) = some (v, e) →
      InMemoryCache.expired (s.world.clock + d) e = false
  | _ => True

/-- The challenge is still held: it has attempts left and was not discarded. -/
def ChallengeUse.Open (s : ChallengeUse) : Prop := s.failures < maxAttempts ∧ s.discarded = false

/-- **The store counts the failures** on a challenge: while it is open its entry is the issued
challenge with that many attempts, alive; after that there is none. -/
structure Counted (env : Env) (token : String) (c : TwoFactorChallenge) (w₀ : World Unit)
    (s : ChallengeUse) : Prop where
  held : s.Open → ∃ e, s.world.cache.store (key token) =
    some (env.dumpJson (.of { c with attempts := s.failures }), e) ∧
      InMemoryCache.expired s.world.clock e = false
  gone : ¬ s.Open → s.world.cache.store (key token) = none
  justRead : ∀ c', s.justRead = some c' → s.Open ∧ c' = { c with attempts := s.failures }
  others : ∀ token', token' ≠ token →
    s.world.cache.store (key token') = w₀.cache.store (key token')

/-- A challenge a login can issue is restored from its record. -/
def Restored (c : TwoFactorChallenge) : Prop :=
  ∀ k, (StoredChallenge.of { c with attempts := k }).toChallenge = { c with attempts := k }

/-- What was just set is alive. -/
theorem alive_set {key value : String} {m : InMemoryCache} {now : Instant} :
    ∃ e, (m.set now key value (some challengeTtlSeconds)).store key = some (value, e) ∧
      InMemoryCache.expired now e = false := by
  refine ⟨_, set_store_self m now key value (by decide), ?_⟩
  have hlater : now < now + seconds challengeTtlSeconds := lt_add_of_pos_right now (by decide)
  exact decide_eq_false (not_le.mpr hlater)

theorem key_ne {token token' : String} (h : token' ≠ token) : key token' ≠ key token :=
  fun hkey => h (challengeKey_injective hkey)

variable {c : TwoFactorChallenge} {s s' : ChallengeUse}

/-- What `read` answers. -/
theorem Counted.read (hs : Counted env token c w₀ s) (hc : Restored c) :
    (s.Open → alone env (ChallengeStore.read env token) s.world =
      some (.ok { c with attempts := s.failures }, s.world)) ∧
    (¬ s.Open → alone env (ChallengeStore.read env token) s.world =
      some (.error .twoFactorChallengeExpired, s.world)) := by
  refine ⟨fun hopen => ?_, fun hopen => alone_read_absent (hs.gone hopen)⟩
  obtain ⟨e, hentry, halive⟩ := hs.held hopen
  rw [alone_read hentry halive, hc]

/-- **A call keeps the count.** -/
theorem Counted.step (hs : Counted env token c w₀ s) (hc : Restored c) {l : StoreCall}
    (hl : InLifetime token s l) (h : storeStep env token s l = some s') :
    Counted env token c w₀ s' := by
  cases l with
  | wait d =>
      obtain rfl := Option.some.inj h
      refine ⟨fun hopen => ?_, hs.gone, hs.justRead, hs.others⟩
      obtain ⟨e, hentry, -⟩ := hs.held hopen
      exact ⟨e, hentry, hl _ e hentry⟩
  | read =>
      by_cases hopen : s.Open
      · rw [storeStep, (hs.read hc).1 hopen] at h
        obtain rfl := Option.some.inj h
        refine ⟨hs.held, hs.gone, fun c' hc' => ⟨hopen, ?_⟩, hs.others⟩
        exact (Option.some.inj hc').symm
      · rw [storeStep, (hs.read hc).2 hopen] at h
        obtain rfl := Option.some.inj h
        exact ⟨hs.held, hs.gone, fun c' hc' => (nomatch hc'), hs.others⟩
  | recordFailure =>
      obtain ⟨c', hread, h⟩ := Option.bind_eq_some_iff.mp h
      obtain ⟨⟨hleft, hkept⟩, rfl⟩ := hs.justRead c' hread
      by_cases hmore : s.failures + 1 < maxAttempts
      · rw [alone_recordFailure hmore] at h
        obtain rfl := Option.some.inj h
        refine ⟨fun _ => alive_set, fun hopen => absurd ⟨hmore, hkept⟩ hopen,
          fun c' hc' => (nomatch hc'), fun token' hne => ?_⟩
        exact (set_store_ne s.world.cache s.world.clock (key_ne hne)
          (env.dumpJson (.of { c with attempts := s.failures + 1 }))
          (some challengeTtlSeconds)).trans (hs.others token' hne)
      · rw [alone_recordFailure_last (not_lt.mp hmore)] at h
        obtain rfl := Option.some.inj h
        refine ⟨fun hopen => absurd hopen.1 hmore, fun _ => delete_store_self _ _,
          fun c' hc' => (nomatch hc'), fun token' hne => ?_⟩
        exact (delete_store_ne _ (key_ne hne)).trans (hs.others token' hne)
  | discard =>
      rw [storeStep, alone_discard] at h
      obtain rfl := Option.some.inj h
      refine ⟨fun hopen => (nomatch hopen.2), fun _ => delete_store_self _ _,
        fun c' hc' => (nomatch hc'), fun token' hne => ?_⟩
      exact (delete_store_ne _ (key_ne hne)).trans (hs.others token' hne)

/-! ### Issued challenges -/

/-- The challenge that `LoginUseCase` issues to a user for its input. -/
def LoginInput.challenge (data : LoginInput) (userId : Uuid) : TwoFactorChallenge where
  userId := userId
  deviceInfo := { userAgent := data.userAgent, ipAddress := data.ipAddress }
  loginChallenge := data.loginChallenge

/-- The state after a challenge was issued. -/
theorem Counted.issued {c : TwoFactorChallenge} (hc : c.attempts = 0) {w₁ : World Unit}
    (h : alone env (issue env c) w = some (.ok token, w₁)) : Counted env token c w ⟨w₁, none, 0, false⟩ := by
  rw [alone_issue] at h
  obtain ⟨htoken, rfl⟩ := Prod.mk.inj (Option.some.inj h)
  obtain rfl := Except.ok.inj htoken
  obtain ⟨e, hentry, halive⟩ := @alive_set (key (env.tokenUrlsafe w.rng)) (env.dumpJson (.of c))
    w.cache w.clock
  refine ⟨fun _ => ⟨e, ?_, halive⟩, fun hopen => absurd ⟨Nat.succ_pos 4, rfl⟩ hopen,
    fun c' hc' => (nomatch hc'), fun token' hne => set_store_ne w.cache w.clock (key_ne hne)
      (env.dumpJson (.of c)) (some challengeTtlSeconds)⟩
  rw [← hc]
  exact hentry

/-- **The challenge store counts failures exactly when used sequentially.** From the issue of a
challenge on, after any sequence of calls on its token within its lifetime: `read` returns the issued
challenge with as many attempts as failures were recorded, while these are fewer than `MAX_ATTEMPTS`
and it was not discarded, and raises after that; the last failure allowed raises, and every one before
it is recorded; and the entries of all other tokens are what they were. -/
theorem failures_counted (env : Env) (data : LoginInput) (userId : Uuid) (w w₁ : World Unit)
    (token : String) (hissue : alone env (issue env (data.challenge userId)) w = some (.ok token, w₁))
    (s : ChallengeUse)
    (hs : Runs.Reach (storeStep env token) (InLifetime token) ⟨w₁, none, 0, false⟩ s) :
    (∃ w', alone env (ChallengeStore.read env token) s.world =
        some (if s.failures < maxAttempts ∧ s.discarded = false then
          .ok { data.challenge userId with attempts := s.failures }
        else .error .twoFactorChallengeExpired, w')) ∧
      (∀ c, s.justRead = some c → ∃ w', alone env (recordFailure env token c) s.world =
        some (if s.failures + 1 < maxAttempts then .ok () else .error .twoFactorChallengeExpired,
          w')) ∧
      ∀ token', token' ≠ token →
        s.world.cache.store (key token') = w.cache.store (key token') := by
  have hc : Restored (data.challenge userId) := fun k => rfl
  have hcounted : Counted env token (data.challenge userId) w s :=
    hs.invariant (Counted.issued rfl hissue) fun s l s' hI hl h => hI.step hc hl h
  obtain ⟨hopen, hclosed⟩ := hcounted.read hc
  refine ⟨⟨s.world, ?_⟩, fun c hread => ?_, hcounted.others⟩
  · by_cases h : s.Open
    · rw [hopen h]
      exact congrArg some (congrArg (·, s.world) (if_pos h).symm)
    · rw [hclosed h]
      exact congrArg some (congrArg (·, s.world) (if_neg h).symm)
  · obtain ⟨-, rfl⟩ := hcounted.justRead c hread
    by_cases hmore : s.failures + 1 < maxAttempts
    · exact ⟨_, by rw [if_pos hmore]; exact alone_recordFailure hmore⟩
    · exact ⟨_, by rw [if_neg hmore]; exact alone_recordFailure_last (not_lt.mp hmore)⟩

open Reference

/-- A login of the account. -/
def aliceLogin : LoginInput where
  password := password
  userAgent := some "curl/8"
  ipAddress := some "192.0.2.7"

/-- A wrong code later, the challenge is read with one attempt. -/
theorem one_wrong_code_counted :
    ∃ w₁ s, alone Reference.env (issue Reference.env (aliceLogin.challenge aliceId))
        (world Unit (tables (alice true) false)) = some (.ok (tokenUrlsafe 0), w₁) ∧
      Runs.Reach (storeStep Reference.env (tokenUrlsafe 0)) (InLifetime (tokenUrlsafe 0))
        ⟨w₁, none, 0, false⟩ s ∧
      ∃ w', alone Reference.env (ChallengeStore.read Reference.env (tokenUrlsafe 0)) s.world =
        some (.ok { aliceLogin.challenge aliceId with attempts := 1 }, w') := by
  have hissue := @alone_issue Reference.env (world Unit (tables (alice true) false))
    (aliceLogin.challenge aliceId)
  have hstart := Counted.issued rfl hissue
  have hread := (hstart.read fun _ => rfl).1 ⟨by decide, rfl⟩
  generalize hw₁ : World.withCache _ _ = w₁ at hissue hread
  have hfail := @alone_recordFailure Reference.env (tokenUrlsafe 0) w₁ (aliceLogin.challenge aliceId)
    (by decide)
  generalize hw₂ : World.withCache _ _ = w₂ at hfail
  have hreach : Runs.Reach (storeStep Reference.env (tokenUrlsafe 0)) (InLifetime (tokenUrlsafe 0))
      ⟨w₁, none, 0, false⟩ ⟨w₂, none, 1, false⟩ := by
    refine (Relation.ReflTransGen.single (b := ⟨w₁, some (aliceLogin.challenge aliceId), 0, false⟩)
      ⟨.read, trivial, ?_⟩).tail ⟨.recordFailure, trivial, ?_⟩
    · exact congrArg (Option.map fun out => (⟨out.2, none, 1, false⟩ : ChallengeUse)) hfail
    · exact congrArg (Option.map fun out => (⟨out.2, out.1.toOption, 0, false⟩ : ChallengeUse)) hread
  obtain ⟨w', hw'⟩ := (failures_counted Reference.env aliceLogin aliceId _ _ _ hissue _ hreach).1
  exact ⟨w₁, _, hissue, hreach, w', hw'⟩

end BackendTemplate
