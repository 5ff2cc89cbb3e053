import BackendTemplate.Json
import BackendTemplate.MemoryCache
import BackendTemplate.Reference
import BackendTemplate.Texts

/-!
# Bearer Authentication

`HydraIntrospectionMiddleware` asks Hydra what a bearer token stands for, or reads a recent answer
from the cache, and makes Litestar's `Token` of it before it looks for the user in the subject.

The time stamps of the answer go through three hands: `datetime.fromtimestamp`, which has no years
beyond 9999; a test for truth, which takes a stamp of zero for none; and the constructor of `Token`,
which refuses a token that has expired or that was issued in the future with an exception of its
own. What that constructor does is assumed here (`ChecksTimes`).

## Main results

* `interpret_exact_iff` — the answers of Hydra that are interpreted as they should be, by instant.
* `bearer_exact_iff` — the same of a request, with an answer that is fresh or from the cache.
* `introspected_later` — a fresh answer is what later requests read from the cache.
-/

namespace BackendTemplate

/-- `HydraIntrospection`. -/
structure HydraIntrospection where
  active : Bool := false
  tokenUse : Option String := none
  sub : Option String := none
  clientId : Option String := none
  scope : String := ""
  exp : Option ℤ := none
  iat : Option ℤ := none
  ext : List (String × Json) := []

/-- What a request with a bearer token can end with: a `NotAuthorizedException`, the
`ImproperlyConfiguredException` of `Token`, or the `ValueError` of a time stamp. -/
inductive AuthError
  | notAuthorized (detail : String)
  | improperlyConfigured
  | value
deriving DecidableEq

/-- `UserSecuritySchema`. -/
structure UserSecuritySchema where
  userId : Uuid
  scopes : Finset String
deriving DecidableEq

/-- `Token`, with its `extras`. -/
structure Token where
  sub : String
  exp : Instant
  iat : Instant
  scopes : String
  sessionId : String
  clientId : String

/-! ### Time stamps -/

/-- A time stamp in the years 1 to 9999. -/
def InRange (n : ℤ) : Prop := -62135596800 ≤ n ∧ n ≤ 253402300799

instance (n : ℤ) : Decidable (InRange n) := inferInstanceAs (Decidable (_ ∧ _))

/-- `datetime.fromtimestamp(n, tz=UTC)`. -/
def fromTimestamp (n : ℤ) : Except AuthError Instant :=
  if InRange n then .ok (seconds n) else .error .value

/-- `datetime.fromtimestamp(stamp, tz=UTC) if stamp else fallback`. -/
def timestampOr (stamp : Option ℤ) (fallback : Instant) : Except AuthError Instant :=
  match stamp with
  | none => .ok fallback
  | some n => if n = 0 then .ok fallback else fromTimestamp n

/-! ### The middleware -/

/-- `retrieve_user_handler`. -/
def retrieveUserHandler (env : Env) (token : Token) : Except AuthError UserSecuritySchema :=
  match env.parseUuid token.sub with
  | none => .error (.notAuthorized "Token subject is not a user")
  | some userId => .ok ⟨userId, ((words token.scopes.toList).map String.ofList).toFinset⟩

/-- The part of `authenticate_token` that interprets an answer of Hydra, over the constructor of
`Token` at an instant. -/
def interpret (env : Env) (newToken : Instant → Token → Except AuthError Token) (now : Instant)
    (i : HydraIntrospection) : Except AuthError (UserSecuritySchema × Token) :=
  if !i.active || !truthy i.sub then .error (.notAuthorized "")
  else if i.tokenUse ≠ none ∧ i.tokenUse ≠ some "access_token" then .error (.notAuthorized "")
  else do
    let exp ← timestampOr i.exp (now + minutes 5)
    let iat ← timestampOr i.iat now
    let token ← newToken now
      { sub := i.sub.getD ""
        exp := exp
        iat := iat
        scopes := i.scope
        sessionId := ((Dict.get i.ext "session_id").bind Json.string).getD ""
        clientId := i.clientId.getD "" }
    let user ← retrieveUserHandler env token
    pure (user, token)

/-- `_introspection_cache_key`. -/
def introspectionCacheKey (env : Env) (token : String) : String :=
  "hydra:introspect:" ++ hex (env.sha256 token)

/-- What the middleware takes from its container: Hydra's introspection, how an answer is written
and read, and how long one is kept. -/
structure Introspection where
  introspectToken : String → HydraIntrospection
  dumpJson : HydraIntrospection → String
  validateJson : String → Option HydraIntrospection
  ttlSeconds : ℕ := 30
  negativeTtlSeconds : ℕ := 10

/-- `HydraIntrospectionMiddleware.authenticate_token`. -/
def authenticateToken (env : Env) (newToken : Instant → Token → Except AuthError Token)
    (hydra : Introspection) (now : Instant) (cache : InMemoryCache) (encodedToken : String) :
    Except AuthError (UserSecuritySchema × Token) × InMemoryCache :=
  let cacheKey := introspectionCacheKey env encodedToken
  match cache.get now cacheKey with
  | (some cached, cache) =>
      match hydra.validateJson cached with
      | none => (.error (.notAuthorized ""), cache)
      | some i => (interpret env newToken now i, cache)
  | (none, cache) =>
      let i := hydra.introspectToken encodedToken
      let ttl := if i.active then hydra.ttlSeconds else hydra.negativeTtlSeconds
      (interpret env newToken now i, cache.set now cacheKey (hydra.dumpJson i) (some ttl))

section Answers

/-! ### What it should do -/

variable {env : Env} {newToken : Instant → Token → Except AuthError Token} {now : Instant}
  {i : HydraIntrospection}

/-- **What Litestar's constructor does**: it refuses a token that has expired, or that was issued in
the future, and takes every other one that has a subject. -/
structure ChecksTimes (newToken : Instant → Token → Except AuthError Token) : Prop where
  refuses : ∀ {now token}, token.exp < now ∨ now < token.iat →
    newToken now token = .error .improperlyConfigured
  accepts : ∀ {now token}, token.sub ≠ "" → now ≤ token.exp → token.iat ≤ now →
    newToken now token = .ok token

/-- **The answer stands for a user** at an instant. -/
structure StandsFor (env : Env) (i : HydraIntrospection) (now : Instant) (u : Uuid) : Prop where
  active : i.active = true
  sub : ∃ s, i.sub = some s ∧ env.parseUuid s = some u
  tokenUse : i.tokenUse = none ∨ i.tokenUse = some "access_token"
  exp : ∀ e, i.exp = some e → now ≤ seconds e

/-- **The outcome is exact**: the user the answer stands for, or else a `NotAuthorizedException`. -/
structure ExactOutcome (env : Env) (i : HydraIntrospection) (now : Instant)
    (outcome : Except AuthError (UserSecuritySchema × Token)) : Prop where
  returns : ∀ u, (∃ r, outcome = .ok r ∧ r.1.userId = u) ↔ StandsFor env i now u
  refuses : (¬ ∃ u, StandsFor env i now u) → ∃ detail, outcome = .error (.notAuthorized detail)

/-- The answer passes the checks that come before its time stamps. -/
structure Passes (i : HydraIntrospection) : Prop where
  active : i.active = true
  sub : truthy i.sub = true
  tokenUse : i.tokenUse = none ∨ i.tokenUse = some "access_token"

/-- **The time stamps are taken**: each of them is missing or zero, or in range and on its side of
the clock. -/
structure TimesTaken (i : HydraIntrospection) (now : Instant) : Prop where
  exp : ∀ e, i.exp = some e → e ≠ 0 → InRange e ∧ now ≤ seconds e
  iat : ∀ t, i.iat = some t → t ≠ 0 → InRange t ∧ seconds t ≤ now

/-- A zero for the expiry does no harm: it has not passed, or nobody is in the subject. -/
def ZeroHarmless (env : Env) (i : HydraIntrospection) (now : Instant) : Prop :=
  i.exp = some 0 → now ≤ 0 ∨ ∀ s, i.sub = some s → env.parseUuid s = none

/-! ### Time stamps, case by case -/

/-- **When a stamp gives an instant with a property** that the fallback has: a stamp that is used
has to be in range and to have it. -/
theorem timestampOr_ok_iff {P : Instant → Prop} {stamp : Option ℤ} {fallback : Instant}
    (hfallback : P fallback) : (∃ t, timestampOr stamp fallback = .ok t ∧ P t) ↔
      ∀ n, stamp = some n → n ≠ 0 → InRange n ∧ P (seconds n) := by
  cases stamp with
  | none => exact iff_of_true ⟨_, rfl, hfallback⟩ (by rintro n ⟨⟩)
  | some n =>
      rw [timestampOr, fromTimestamp]
      constructor
      · rintro ⟨t, ht, hP⟩ _ ⟨⟩ hne
        rw [if_neg hne] at ht
        split at ht
        · rename_i hrange
          exact ⟨hrange, Except.ok.inj ht ▸ hP⟩
        · cases ht
      · intro h
        by_cases hzero : n = 0
        · exact ⟨_, if_pos hzero, hfallback⟩
        · obtain ⟨hrange, hP⟩ := h n rfl hzero
          exact ⟨_, (if_neg hzero).trans (if_pos hrange), hP⟩

theorem timestampOr_error {stamp : Option ℤ} {fallback : Instant} {e : AuthError}
    (h : timestampOr stamp fallback = .error e) : e = .value := by
  cases stamp with
  | none => cases h
  | some n =>
      rw [timestampOr, fromTimestamp] at h
      split at h
      · cases h
      · split at h
        · cases h
        · exact (Except.error.inj h).symm

/-- The time stamps are taken exactly when they give instants on their sides of the clock. -/
theorem timesTaken_iff : TimesTaken i now ↔
    (∃ exp, timestampOr i.exp (now + minutes 5) = .ok exp ∧ now ≤ exp) ∧
      ∃ iat, timestampOr i.iat now = .ok iat ∧ iat ≤ now := by
  have hlater : now ≤ now + minutes 5 := Int.le_add_of_nonneg_right (by decide)
  rw [timestampOr_ok_iff (P := fun t => now ≤ t) hlater,
    timestampOr_ok_iff (P := fun t => t ≤ now) (Int.le_refl now)]
  exact ⟨fun h => ⟨h.exp, h.iat⟩, fun h => ⟨h.1, h.2⟩⟩

/-! ### What becomes of an answer -/

/-- What the code does with an answer that does not pass the first checks. -/
theorem interpret_of_not_passes (h : ¬ Passes i) :
    interpret env newToken now i = .error (.notAuthorized "") := by
  rw [interpret]
  split
  · rfl
  · rename_i hhead
    rw [Bool.or_eq_true, not_or, Bool.not_eq_true', Bool.not_eq_true', Bool.not_eq_false,
      Bool.not_eq_false] at hhead
    split
    · rfl
    · rename_i huse
      rw [not_and_or, not_ne_iff, not_ne_iff] at huse
      exact absurd ⟨hhead.1, hhead.2, huse⟩ h

/-- What it does with one that passes them. -/
theorem interpret_of_passes (h : Passes i) :
    interpret env newToken now i = (do
      let exp ← timestampOr i.exp (now + minutes 5)
      let iat ← timestampOr i.iat now
      let token ← newToken now
        { sub := i.sub.getD ""
          exp := exp
          iat := iat
          scopes := i.scope
          sessionId := ((Dict.get i.ext "session_id").bind Json.string).getD ""
          clientId := i.clientId.getD "" }
      let user ← retrieveUserHandler env token
      pure (user, token)) := by
  have hhead : ¬ (!i.active || !truthy i.sub) = true := by
    rw [h.active, h.sub]
    decide
  have huse : ¬ (i.tokenUse ≠ none ∧ i.tokenUse ≠ some "access_token") := by
    rw [not_and_or, not_ne_iff, not_ne_iff]
    exact h.tokenUse
  rw [interpret, if_neg hhead, if_neg huse]

/-- **When the time stamps are taken**, the subject decides. -/
theorem interpret_of_taken (env : Env) (htoken : ChecksTimes newToken) (hpass : Passes i)
    (htimes : TimesTaken i now) : ∃ token : Token, some token.sub = i.sub ∧
      interpret env newToken now i = (retrieveUserHandler env token).map (·, token) := by
  obtain ⟨⟨exp, hexp, hlate⟩, iat, hiat, hearly⟩ := timesTaken_iff.mp htimes
  obtain ⟨s, hs, hne⟩ := truthy_iff.mp hpass.sub
  rw [interpret_of_passes hpass, hexp, hiat]
  refine ⟨⟨i.sub.getD "", exp, iat, i.scope,
    ((Dict.get i.ext "session_id").bind Json.string).getD "", i.clientId.getD ""⟩, ?_, ?_⟩
  · exact hs.symm ▸ rfl
  · change newToken now _ >>= _ = _
    rw [htoken.accepts (hs.symm ▸ hne) hlate hearly]
    change retrieveUserHandler env _ >>= _ = _
    cases retrieveUserHandler env _ <;> rfl

/-- **When a time stamp is not taken**, the request ends with another exception. -/
theorem interpret_of_not_taken (htoken : ChecksTimes newToken) (hpass : Passes i)
    (htimes : ¬ TimesTaken i now) : interpret env newToken now i = .error .value ∨
      interpret env newToken now i = .error .improperlyConfigured := by
  rw [interpret_of_passes hpass]
  cases hexp : timestampOr i.exp (now + minutes 5) with
  | error e => exact .inl (congrArg Except.error (timestampOr_error hexp))
  | ok exp =>
      cases hiat : timestampOr i.iat now with
      | error e => exact .inl (congrArg Except.error (timestampOr_error hiat))
      | ok iat =>
          have hclock : exp < now ∨ now < iat := by
            by_contra hnot
            obtain ⟨hlate, hearly⟩ := not_or.mp hnot
            exact htimes (timesTaken_iff.mpr
              ⟨⟨exp, hexp, Int.not_lt.mp hlate⟩, iat, hiat, Int.not_lt.mp hearly⟩)
          right
          change newToken now _ >>= _ = _
          rw [htoken.refuses hclock]
          rfl

/-- An answer stands for a user only if it passes the first checks. -/
theorem StandsFor.passes {u : Uuid} (h : StandsFor env i now u)
    (hempty : env.parseUuid "" = none) : Passes i := by
  obtain ⟨s, hs, hparse⟩ := h.sub
  refine ⟨h.active, truthy_iff.mpr ⟨s, hs, ?_⟩, h.tokenUse⟩
  rintro rfl
  rw [hempty] at hparse
  cases hparse

/-- An outcome that is another exception is not exact. -/
theorem not_exact_of_error {outcome : Except AuthError (UserSecuritySchema × Token)}
    (h : outcome = .error .value ∨ outcome = .error .improperlyConfigured) :
    ¬ ExactOutcome env i now outcome := by
  intro hexact
  by_cases hstands : ∃ u, StandsFor env i now u
  · obtain ⟨u, hu⟩ := hstands
    obtain ⟨r, hr, -⟩ := (hexact.returns u).mpr hu
    rcases h with h | h <;> rw [hr] at h <;> cases h
  · obtain ⟨detail, hrefused⟩ := hexact.refuses hstands
    rcases h with h | h <;> rw [hrefused] at h <;> cases h

/-- When the time stamps are taken, the outcome is exact unless an expiry of zero does harm. -/
theorem taken_exact_iff (htoken : ChecksTimes newToken) (hpass : Passes i)
    (htimes : TimesTaken i now) :
    ExactOutcome env i now (interpret env newToken now i) ↔ ZeroHarmless env i now := by
  obtain ⟨token, hsub, hresult⟩ := interpret_of_taken env htoken hpass htimes
  have hsame : ∀ {s}, i.sub = some s → token.sub = s := fun hs => Option.some.inj (hsub.trans hs)
  rw [hresult, retrieveUserHandler]
  cases hparse : env.parseUuid token.sub with
  | none =>
      have hnobody : ∀ u, ¬ StandsFor env i now u := by
        intro u hu
        obtain ⟨s, hs, hs'⟩ := hu.sub
        rw [← hsame hs, hparse] at hs'
        cases hs'
      refine iff_of_true ⟨fun u => ?_, fun _ => ⟨_, rfl⟩⟩ fun _ => .inr fun s hs => ?_
      · exact iff_of_false (by rintro ⟨r, ⟨⟩, -⟩) (hnobody u)
      · rw [← hsame hs, hparse]
  | some u =>
      -- The answer stands for this user, if an expiry of zero has not passed.
      have hstands : ∀ u', StandsFor env i now u' ↔ u = u' ∧ (i.exp = some 0 → now ≤ 0) := by
        intro u'
        constructor
        · intro h
          obtain ⟨s, hs, hs'⟩ := h.sub
          rw [← hsame hs] at hs'
          exact ⟨Option.some.inj (hparse.symm.trans hs'), fun hzero => h.exp 0 hzero⟩
        · rintro ⟨rfl, hzero⟩
          refine ⟨hpass.active, ⟨_, hsub.symm, hparse⟩, hpass.tokenUse, fun e he => ?_⟩
          by_cases hne : e = 0
          · rw [hne] at he ⊢
            exact hzero he
          · exact (htimes.exp e he hne).2
      constructor
      · intro hexact hzero
        exact .inl (((hstands u).mp ((hexact.returns u).mp ⟨_, rfl, rfl⟩)).2 hzero)
      · intro hharmless
        have hzero : i.exp = some 0 → now ≤ 0 := by
          intro hzero
          rcases hharmless hzero with hle | hnobody
          · exact hle
          · rw [hnobody _ hsub.symm] at hparse
            cases hparse
        refine ⟨fun u' => ?_, fun hnot => absurd ⟨u, (hstands u).mpr ⟨rfl, hzero⟩⟩ hnot⟩
        rw [hstands]
        constructor
        · rintro ⟨r, ⟨⟩, hr⟩
          exact ⟨hr, hzero⟩
        · rintro ⟨rfl, -⟩
          exact ⟨_, rfl, rfl⟩

/-- **The answers that are interpreted as they should be**, at every instant: those that do not pass
the first checks, and those whose time stamps are taken, unless it is an expiry of zero that does
harm. -/
theorem interpret_exact_iff (htoken : ChecksTimes newToken) (hempty : env.parseUuid "" = none) :
    ExactOutcome env i now (interpret env newToken now i) ↔
      (Passes i → TimesTaken i now ∧ ZeroHarmless env i now) := by
  by_cases hpass : Passes i
  · by_cases htimes : TimesTaken i now
    · rw [taken_exact_iff htoken hpass htimes]
      exact ⟨fun h _ => ⟨htimes, h⟩, fun h => (h hpass).2⟩
    · exact iff_of_false (not_exact_of_error (interpret_of_not_taken htoken hpass htimes))
        fun h => htimes (h hpass).1
  · rw [interpret_of_not_passes hpass]
    refine iff_of_true ⟨fun u => ?_, fun _ => ⟨_, rfl⟩⟩ fun h => absurd h hpass
    exact iff_of_false (by rintro ⟨r, ⟨⟩, -⟩) fun hu => hpass (hu.passes hempty)

/-! ### Fresh answers and cached ones -/

section Requests

variable {hydra : Introspection} {cache : InMemoryCache} {encodedToken : String}

/-- **The answer a request works with**: what the cache has of the token, if it has something that
can be read; or what Hydra says now. -/
inductive Introspected (env : Env) (hydra : Introspection) (now : Instant) (cache : InMemoryCache)
    (encodedToken : String) : HydraIntrospection → Prop
  | fresh (hmissed : (cache.get now (introspectionCacheKey env encodedToken)).1 = none) :
      Introspected env hydra now cache encodedToken (hydra.introspectToken encodedToken)
  | cached {text : String} {i : HydraIntrospection}
      (hread : (cache.get now (introspectionCacheKey env encodedToken)).1 = some text)
      (hvalid : hydra.validateJson text = some i) :
      Introspected env hydra now cache encodedToken i

/-- A request interprets its answer, by its own clock. -/
theorem Introspected.outcome (h : Introspected env hydra now cache encodedToken i) :
    (authenticateToken env newToken hydra now cache encodedToken).1 =
      interpret env newToken now i := by
  rw [authenticateToken]
  cases h with
  | fresh hmissed =>
      cases hget : cache.get now (introspectionCacheKey env encodedToken) with
      | mk value left =>
          rw [hget] at hmissed
          obtain rfl : value = none := hmissed
          rfl
  | cached hread hvalid =>
      cases hget : cache.get now (introspectionCacheKey env encodedToken) with
      | mk value left =>
          rw [hget] at hread
          obtain rfl : value = some _ := hread
          simp only [hvalid]

/-- The text of a fresh answer is in the cache until its time is over. -/
theorem cached_later {later : Instant}
    (hmissed : (cache.get now (introspectionCacheKey env encodedToken)).1 = none)
    (hlater : later < now + seconds ((if (hydra.introspectToken encodedToken).active then
      hydra.ttlSeconds else hydra.negativeTtlSeconds : ℕ) : ℤ)) :
    ((authenticateToken env newToken hydra now cache encodedToken).2.get later
      (introspectionCacheKey env encodedToken)).1 =
        some (hydra.dumpJson (hydra.introspectToken encodedToken)) := by
  have hcache : ∃ left, (authenticateToken env newToken hydra now cache encodedToken).2 =
      InMemoryCache.set left now (introspectionCacheKey env encodedToken)
        (hydra.dumpJson (hydra.introspectToken encodedToken))
        (some (if (hydra.introspectToken encodedToken).active then hydra.ttlSeconds
          else hydra.negativeTtlSeconds)) := by
    rw [authenticateToken]
    cases hget : cache.get now (introspectionCacheKey env encodedToken) with
    | mk value left =>
        rw [hget] at hmissed
        obtain rfl : value = none := hmissed
        exact ⟨left, rfl⟩
  obtain ⟨left, hcache⟩ := hcache
  rw [hcache]
  generalize (if (hydra.introspectToken encodedToken).active then hydra.ttlSeconds
    else hydra.negativeTtlSeconds) = ttl at hlater ⊢
  refine InMemoryCache.get_eq_some.mpr ⟨InMemoryCache.expiresAt (now, some ttl), ?_, ?_⟩
  · rw [InMemoryCache.set_store, Function.update_self]
  · cases ttl with
    | zero => rintro e ⟨⟩
    | succ n =>
        rw [alive_expiresAt (by rintro ⟨⟩)]
        rintro _ ⟨⟩
        exact hlater

/-- **A fresh answer is what later requests read** from the cache, until its time is over. -/
theorem introspected_later {later : Instant}
    (hcodec : hydra.validateJson (hydra.dumpJson (hydra.introspectToken encodedToken)) =
      some (hydra.introspectToken encodedToken))
    (hmissed : (cache.get now (introspectionCacheKey env encodedToken)).1 = none)
    (hlater : later < now + seconds ((if (hydra.introspectToken encodedToken).active then
      hydra.ttlSeconds else hydra.negativeTtlSeconds : ℕ) : ℤ)) :
    Introspected env hydra later (authenticateToken env newToken hydra now cache encodedToken).2
      encodedToken (hydra.introspectToken encodedToken) :=
  .cached (cached_later hmissed hlater) hcodec

/-- What cannot be read from the cache is refused. -/
theorem unreadable_refused {text : String}
    (hread : (cache.get now (introspectionCacheKey env encodedToken)).1 = some text)
    (hinvalid : hydra.validateJson text = none) :
    (authenticateToken env newToken hydra now cache encodedToken).1 =
      .error (.notAuthorized "") := by
  rw [authenticateToken]
  cases hget : cache.get now (introspectionCacheKey env encodedToken) with
  | mk value left =>
      rw [hget] at hread
      obtain rfl : value = some text := hread
      simp only [hinvalid]

/-- **When bearer authentication is exact.** For every token, every answer of Hydra, fresh or read
from the cache, and every instant: the request returns the user the answer stands for, and refuses
every other one with a `NotAuthorizedException`, if and only if the answer fails one of the first
checks, or its time stamps are taken and an expiry of zero does no harm. -/
theorem bearer_exact_iff (htoken : ChecksTimes newToken) (hempty : env.parseUuid "" = none)
    (h : Introspected env hydra now cache encodedToken i) :
    ExactOutcome env i now (authenticateToken env newToken hydra now cache encodedToken).1 ↔
      (Passes i → TimesTaken i now ∧ ZeroHarmless env i now) := by
  rw [h.outcome]
  exact interpret_exact_iff htoken hempty

end Requests

end Answers

/-! ### A token that lasts ten seconds -/

namespace Reference

/-- A constructor that checks the times of a token. -/
def newToken (now : Instant) (token : Token) : Except AuthError Token :=
  if token.sub = "" ∨ token.exp < now ∨ now < token.iat then .error .improperlyConfigured
  else .ok token

theorem newToken_checksTimes : ChecksTimes newToken where
  refuses h := if_pos (.inr h)
  accepts hsub hexp hiat := if_neg (by
    rintro (h | h | h)
    · exact hsub h
    · exact Int.not_lt.mpr hexp h
    · exact Int.not_lt.mpr hiat h)

theorem parseUuid_empty : env.parseUuid "" = none := by
  decide

/-- What Hydra says of the token, and the text of it. -/
def tenSeconds : HydraIntrospection where
  active := true
  tokenUse := some "access_token"
  sub := some (env.uuidStr aliceId)
  clientId := some "web"
  scope := "openid profile"
  exp := some 1700000010
  iat := some 1700000000

def tenSecondsText : String :=
  "\x7b\"active\":true,\"token_use\":\"access_token\",\"sub\":\"" ++ env.uuidStr aliceId ++
    "\",\"client_id\":\"web\",\"scope\":\"openid profile\",\"aud\":[],\"exp\":1700000010," ++
    "\"iat\":1700000000,\"token_type\":null,\"ext\":\x7b\x7d\x7d"

def hydra : Introspection where
  introspectToken _ := tenSeconds
  dumpJson _ := tenSecondsText
  validateJson text := if text = tenSecondsText then some tenSeconds else none

theorem tenSeconds_passes : Passes tenSeconds :=
  ⟨rfl, truthy_iff.mpr ⟨_, rfl, by decide⟩, .inr rfl⟩

theorem tenSeconds_taken : TimesTaken tenSeconds clock where
  exp e he _ := Option.some.inj he ▸ by decide
  iat t ht _ := Option.some.inj ht ▸ by decide

theorem validateJson_dumpJson (i : HydraIntrospection) :
    hydra.validateJson (hydra.dumpJson i) = some tenSeconds := by
  simp only [hydra, if_true]

theorem fresh : Introspected env hydra clock InMemoryCache.empty "ory_at_7Qx" tenSeconds :=
  .fresh rfl

theorem still_cached : Introspected env hydra (clock + seconds 20)
    (authenticateToken env newToken hydra clock InMemoryCache.empty "ory_at_7Qx").2 "ory_at_7Qx"
    tenSeconds := by
  have hlater : clock + seconds 20 < clock + seconds 30 :=
    Int.add_lt_add_left (by decide) clock
  exact introspected_later (validateJson_dumpJson _) rfl hlater

end Reference

open Reference in
/-- At first, the request ends as its answer says. -/
theorem fresh_token_exact : ExactOutcome Reference.env tenSeconds clock
    (authenticateToken Reference.env newToken hydra clock InMemoryCache.empty "ory_at_7Qx").1 :=
  (bearer_exact_iff newToken_checksTimes parseUuid_empty fresh).mpr fun _ =>
    ⟨tenSeconds_taken, fun hzero => absurd hzero (by decide)⟩

open Reference in
/-- **Twenty seconds later** the answer is still in the cache, and the request ends with the
exception of `Token`. -/
theorem cached_token_misconfigured : ¬ ExactOutcome Reference.env tenSeconds (clock + seconds 20)
    (authenticateToken Reference.env newToken hydra (clock + seconds 20)
      (authenticateToken Reference.env newToken hydra clock InMemoryCache.empty "ory_at_7Qx").2
      "ory_at_7Qx").1 := by
  rw [still_cached.outcome]
  refine not_exact_of_error (interpret_of_not_taken newToken_checksTimes tenSeconds_passes ?_)
  intro htimes
  exact absurd (htimes.exp _ rfl (by decide)).2 (by decide)

end BackendTemplate
