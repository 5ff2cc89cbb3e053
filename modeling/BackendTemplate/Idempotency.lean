import BackendTemplate.Dict
import BackendTemplate.MemoryCache
import BackendTemplate.Reference
import BackendTemplate.Runs

/-!
# The Idempotency Store

Responses are cached under `idempotency:endpoint:scope:key`, the parts joined by colons they may
contain themselves. A response is replayed while its entry lives to whoever comes up with the same
joined text, so which clients are kept apart depends on their endpoints and scopes alone: one client
can be served the response of another exactly when `endpoint:scope:` of the one begins with that of
the other.

## Main results

* `KeepsResponses.step` — what any call of the service keeps of the stored responses.
* `KeepsResponses.replayed` — a response that is answered was stored, by the last call on its entry.
* `responses_kept_apart_iff` — which endpoints and scopes never share an entry.
-/

namespace BackendTemplate

open Atomic Atomic.Prog ExpiringMap

/-! ### Responses -/

/-- `JsonValue`: a text, or any other value of the JSON library. -/
inductive JsonValue (Other : Type)
  | str (s : String)
  | other (v : Other)
  deriving DecidableEq

/-- `dict[str, JsonValue]`: each key is there once. -/
structure ResponseDict (Other : Type) where
  entries : List (String × JsonValue Other)
  unique : (entries.map Prod.fst).Nodup

/-- `response.get(key)`. -/
def ResponseDict.get {Other : Type} (response : ResponseDict Other) (key : String) :
    Option (JsonValue Other) :=
  Dict.get response.entries key

/-- A response of one text. -/
def ResponseDict.single {Other : Type} (key value : String) : ResponseDict Other where
  entries := [(key, .str value)]
  unique := List.nodup_singleton key

/-- `_response_adapter`: what the JSON library reads back is what it wrote. Text it rejects is
`none`. -/
structure ResponseAdapter (Other : Type) where
  dumpJson : ResponseDict Other → String
  validateJson : String → Option (ResponseDict Other)
  validateJson_dumpJson : ∀ response, validateJson (dumpJson response) = some response

/-! ### The store -/

namespace IdempotencyStore

variable {Other : Type}

/-- `_IDEMPOTENCY_TTL_SECONDS`. -/
def ttlSeconds : ℕ := 86400

/-- `_cache_key`. -/
def cacheKey (endpoint scope idempotencyKey : String) : String :=
  "idempotency:" ++ endpoint ++ ":" ++ scope ++ ":" ++ idempotencyKey

/-- `IdempotencyStore.get_cached_response`; the error of the JSON library is a `ValueError`. -/
def getCachedResponse (adapter : ResponseAdapter Other) (endpoint scope idempotencyKey : String) :
    Act (Option (ResponseDict Other)) := do
  let cached ← ask (.cacheGet (cacheKey endpoint scope idempotencyKey))
  match cached with
  | none => pure none
  | some raw =>
      match adapter.validateJson raw with
      | some response => pure (some response)
      | none => raise (.valueError "Invalid JSON")

/-- `IdempotencyStore.cache_response`. -/
def cacheResponse (adapter : ResponseAdapter Other) (endpoint scope idempotencyKey : String)
    (response : ResponseDict Other) : Act Unit :=
  ask (.cacheSet (cacheKey endpoint scope idempotencyKey) (adapter.dumpJson response)
    (some ttlSeconds))

end IdempotencyStore

open IdempotencyStore

/-- A response with the parts it was stored under. -/
structure StoredResponse (Other : Type) where
  endpoint : String
  scope : String
  idempotencyKey : String
  response : ResponseDict Other

section Store

variable {Other : Type} {env : Env} {adapter : ResponseAdapter Other} {w : World Unit}
  {endpoint scope idempotencyKey : String}

/-- What a cached text is answered with. -/
def decoded (adapter : ResponseAdapter Other) :
    Option String → Except AppError (Option (ResponseDict Other))
  | none => .ok none
  | some raw =>
      match adapter.validateJson raw with
      | some response => .ok (some response)
      | none => .error (.valueError "Invalid JSON")

theorem alone_getCachedResponse :
    alone env (getCachedResponse adapter endpoint scope idempotencyKey) w =
      some (decoded adapter (w.cache.get w.clock (cacheKey endpoint scope idempotencyKey)).1,
        w.withCache (w.cache.get w.clock (cacheKey endpoint scope idempotencyKey)).2) := by
  have hexec : (machine env Unit).exec {} () (.cacheGet (cacheKey endpoint scope idempotencyKey)) w =
      some ((w.cache.get w.clock (cacheKey endpoint scope idempotencyKey)).1,
        w.withCache (w.cache.get w.clock (cacheKey endpoint scope idempotencyKey)).2) := rfl
  rw [alone, getCachedResponse]
  change Option.map _ ((machine env Unit).eval {} () (.call (Op.cacheGet (cacheKey _ _ _)) _) w []) = _
  rw [Machine.eval_call hexec]
  cases (w.cache.get w.clock (cacheKey endpoint scope idempotencyKey)).1 with
  | none => rfl
  | some raw =>
      simp only [Prog.bind, decoded]
      cases adapter.validateJson raw with
      | none => rfl
      | some response => rfl

theorem alone_cacheResponse {response : ResponseDict Other} :
    alone env (cacheResponse adapter endpoint scope idempotencyKey response) w =
      some (.ok (), w.withCache (w.cache.set w.clock (cacheKey endpoint scope idempotencyKey)
        (adapter.dumpJson response) (some ttlSeconds))) := rfl

end Store

/-! ### Keys -/

/-- The text that all keys of one endpoint and scope begin with, after `idempotency:`. -/
def clientPrefix (endpoint scope : String) : String := endpoint ++ ":" ++ scope ++ ":"

/-- The keys of the store. -/
def isIdempotencyKey (key : String) : Bool := "idempotency:".toList.isPrefixOf key.toList

section Keys

variable {endpoint scope idempotencyKey endpoint' scope' idempotencyKey' : String}

theorem cacheKey_eq : cacheKey endpoint scope idempotencyKey =
    "idempotency:" ++ (clientPrefix endpoint scope ++ idempotencyKey) := by
  simp only [cacheKey, clientPrefix, String.append_assoc]

theorem isIdempotencyKey_cacheKey : isIdempotencyKey (cacheKey endpoint scope idempotencyKey) = true := by
  rw [cacheKey_eq, isIdempotencyKey, List.isPrefixOf_iff_prefix, String.toList_append]
  exact List.prefix_append _ _

theorem cacheKey_eq_iff :
    cacheKey endpoint scope idempotencyKey = cacheKey endpoint' scope' idempotencyKey' ↔
      (clientPrefix endpoint scope).toList ++ idempotencyKey.toList =
        (clientPrefix endpoint' scope').toList ++ idempotencyKey'.toList := by
  rw [cacheKey_eq, cacheKey_eq, ← String.toList_inj]
  simp only [String.toList_append, List.append_cancel_left_eq]

/-- **Only beginnings collide**: where two keys agree, the text of one client begins with that of the
other. -/
theorem prefix_of_cacheKey_eq
    (h : cacheKey endpoint scope idempotencyKey = cacheKey endpoint' scope' idempotencyKey') :
    (clientPrefix endpoint scope).toList <+: (clientPrefix endpoint' scope').toList ∨
      (clientPrefix endpoint' scope').toList <+: (clientPrefix endpoint scope).toList :=
  List.prefix_or_prefix_of_prefix ⟨_, cacheKey_eq_iff.mp h⟩ (List.prefix_append _ _)

/-- Beginnings do collide, on the keys that make up the difference. -/
theorem cacheKey_collision
    (h : (clientPrefix endpoint scope).toList <+: (clientPrefix endpoint' scope').toList) :
    ∃ rest, cacheKey endpoint scope rest = cacheKey endpoint' scope' "" := by
  obtain ⟨rest, hrest⟩ := h
  refine ⟨String.ofList rest, cacheKey_eq_iff.mpr ?_⟩
  rw [String.toList_ofList, hrest, String.toList_empty, List.append_nil]

/-- One client's keys are told apart. -/
theorem idempotencyKey_eq
    (h : cacheKey endpoint scope idempotencyKey = cacheKey endpoint scope idempotencyKey') :
    idempotencyKey = idempotencyKey' :=
  String.toList_inj.mp (List.append_cancel_left (cacheKey_eq_iff.mp h))

/-- Scopes without a colon, under one endpoint, are no beginnings of each other. -/
theorem scope_eq_of_extends (hscope : ':' ∉ scope.toList) (hscope' : ':' ∉ scope'.toList)
    (h : (clientPrefix endpoint scope).toList <+: (clientPrefix endpoint scope').toList) :
    scope = scope' := by
  have htake : ∀ l rest : List Char, ':' ∉ l → (l ++ ':' :: rest).takeWhile (· ≠ ':') = l := by
    intro l rest hl
    have hnone : ∀ c ∈ l, decide (c ≠ ':') = true := fun c hc =>
      decide_eq_true fun hcolon : c = ':' => hl (hcolon ▸ hc)
    rw [List.takeWhile_append_of_pos hnone]
    simp
  obtain ⟨rest, hrest⟩ := h
  simp only [clientPrefix, String.toList_append, List.append_assoc, List.append_cancel_left_eq] at hrest
  have hends := congrArg (List.takeWhile (· ≠ ':')) hrest
  change (scope.toList ++ ':' :: rest).takeWhile _ = (scope'.toList ++ ':' :: []).takeWhile _ at hends
  rw [htake _ _ hscope, htake _ _ hscope'] at hends
  exact String.toList_inj.mp hends

end Keys

/-! ### Runs -/

/-- The state between two calls: the world, and the responses stored so far, each under its cache
key with the instant it was stored. -/
structure IdempotencyUse (Other : Type) where
  world : World Unit
  log : List (Change String (StoredResponse Other) Instant)

/-- What happens between two states: time passes, one of the two operations runs, or any other call
of the service is made. -/
inductive IdempotencyCall (Other : Type)
  | wait (d : ℕ)
  | get (endpoint scope idempotencyKey : String)
  | store (endpoint scope idempotencyKey : String) (response : ResponseDict Other)
  | other (o : Op)

/-- The calls on the entries of the store. -/
def Op.OnResponses : Op → Prop
  | .cacheGet key | .cacheSet key _ _ | .cacheDelete key => isIdempotencyKey key = true
  | _ => False

section Run

variable {Other : Type} {env : Env} {adapter : ResponseAdapter Other}
  {s s' : IdempotencyUse Other} {w : World Unit}

/-- The rest of the service has other keys. -/
def OwnEntries (_ : IdempotencyUse Other) : IdempotencyCall Other → Prop
  | .other o => ¬ o.OnResponses
  | _ => True

/-- **One call.** -/
def idempotencyStep (env : Env) (adapter : ResponseAdapter Other) (s : IdempotencyUse Other) :
    IdempotencyCall Other → Option (IdempotencyUse Other)
  | .wait d => some { s with world := (machine env Unit).env d s.world }
  | .get endpoint scope idempotencyKey =>
      (alone env (getCachedResponse adapter endpoint scope idempotencyKey) s.world).map fun out =>
        { s with world := out.2 }
  | .store endpoint scope idempotencyKey response =>
      (alone env (cacheResponse adapter endpoint scope idempotencyKey response) s.world).map fun out =>
        { world := out.2
          log := s.log ++ [.put (cacheKey endpoint scope idempotencyKey)
            ⟨endpoint, scope, idempotencyKey, response⟩ s.world.clock] }
  | .other o => ((machine env Unit).exec {} () o s.world).map fun out => { s with world := out.2 }

/-- The start: nothing is cached. -/
def IdempotencyUse.start (w : World Unit) : IdempotencyUse Other where
  world := w.withCache .empty
  log := []

/-- The states a run leads to. -/
def IdempotencyUse.Reachable (env : Env) (adapter : ResponseAdapter Other) (w : World Unit)
    (s : IdempotencyUse Other) : Prop :=
  Runs.Reach (idempotencyStep env adapter) OwnEntries (.start w) s

/-- The entries of the store in a cache. -/
def responseEntries (m : InMemoryCache) (key : String) : Option (String × Option Instant) :=
  if isIdempotencyKey key then m.store key else none

/-- What is kept of a stored response: its JSON, for a day. -/
def responseEntry (adapter : ResponseAdapter Other) :
    StoredResponse Other × Instant → String × Option Instant
  | (stored, t₀) => (adapter.dumpJson stored.response, some (t₀ + seconds ttlSeconds))

/-- **The cache keeps the stored responses**, each under the key of its parts. -/
structure KeepsResponses (adapter : ResponseAdapter Other) (s : IdempotencyUse Other) : Prop where
  keeps : KeepsLog (responseEntry adapter) s.log s.world.clock (responseEntries s.world.cache)
  keyed : ∀ {key stored t₀}, .put key stored t₀ ∈ s.log →
    key = cacheKey stored.endpoint stored.scope stored.idempotencyKey

/-- A write on one of the entries. -/
theorem responseEntries_update {m m' : InMemoryCache} {key : String}
    {entry : Option (String × Option Instant)} (hkey : isIdempotencyKey key = true)
    (h : m'.store = Function.update m.store key entry) :
    responseEntries m' = Function.update (responseEntries m) key entry := by
  funext k
  by_cases hk : k = key
  · subst hk
    rw [responseEntries, if_pos hkey, h, Function.update_self, Function.update_self]
  · rw [Function.update_of_ne hk, responseEntries, responseEntries, h, Function.update_of_ne hk]

/-- A write on any other entry. -/
theorem responseEntries_other {m m' : InMemoryCache} {key : String}
    {entry : Option (String × Option Instant)} (hkey : ¬ isIdempotencyKey key = true)
    (h : m'.store = Function.update m.store key entry) : responseEntries m' = responseEntries m := by
  funext k
  by_cases hk : k = key
  · subst hk
    rw [responseEntries, responseEntries, if_neg hkey, if_neg hkey]
  · rw [responseEntries, responseEntries, h, Function.update_of_ne hk]

/-- No other call of the service is about the entries. -/
theorem responseEntries_exec {w w' : World Unit} {o : Op} (ho : ¬ o.OnResponses) {x : o.Res}
    (h : exec env {} () o w = some (x, w')) : responseEntries w'.cache = responseEntries w.cache := by
  by_cases hcache : o.onCache = false
  · rw [(exec_uncached hcache h).1]
  · cases o with
    | cacheGet key =>
        rcases exec_cacheGet h with ⟨_, _, -, -, -, rfl⟩ | ⟨-, -, -, hstore⟩
        · rfl
        · exact responseEntries_other ho hstore
    | cacheSet key value ttlSeconds =>
        rw [exec_cacheSet h]
        exact responseEntries_other ho (w.cache.set_store w.clock key value ttlSeconds)
    | cacheDelete key =>
        rw [exec_cacheDelete h]
        exact responseEntries_other ho rfl
    | _ => exact absurd rfl hcache

/-- A new cache keeps nothing. -/
theorem KeepsResponses.start : KeepsResponses adapter (.start w) := by
  refine ⟨?_, fun h => absurd h List.not_mem_nil⟩
  have hnone : responseEntries (IdempotencyUse.start w : IdempotencyUse Other).world.cache =
      fun _ => none := funext fun key => ite_self none
  rw [hnone]
  exact KeepsLog.empty

/-- **A call keeps the stored responses.** -/
theorem KeepsResponses.step (hs : KeepsResponses adapter s) {l : IdempotencyCall Other}
    (hl : OwnEntries s l) (h : idempotencyStep env adapter s l = some s') :
    KeepsResponses adapter s' := by
  cases l with
  | wait d =>
      obtain rfl := Option.some.inj h
      exact ⟨hs.keeps.later (le_add_of_nonneg_right (Int.natCast_nonneg d)), hs.keyed⟩
  | get endpoint scope idempotencyKey =>
      rw [idempotencyStep, alone_getCachedResponse] at h
      obtain rfl := Option.some.inj h
      refine ⟨?_, hs.keyed⟩
      have hkey := @isIdempotencyKey_cacheKey endpoint scope idempotencyKey
      rcases s.world.cache.get_store s.world.clock (cacheKey endpoint scope idempotencyKey) with
        hm | ⟨v, e, hentry, hended, hstore⟩
      · exact (congrArg responseEntries hm).symm ▸ hs.keeps
      · have hheld : responseEntries s.world.cache (cacheKey endpoint scope idempotencyKey) =
            some (v, e) := (if_pos hkey).trans hentry
        exact (responseEntries_update hkey hstore).symm ▸ hs.keeps.prune hheld hended
  | store endpoint scope idempotencyKey response =>
      rw [idempotencyStep, alone_cacheResponse] at h
      obtain rfl := Option.some.inj h
      refine ⟨?_, fun hw => ?_⟩
      · have hstore := s.world.cache.set_store s.world.clock
          (cacheKey endpoint scope idempotencyKey) (adapter.dumpJson response) (some ttlSeconds)
        exact (responseEntries_update isIdempotencyKey_cacheKey hstore).symm ▸
          hs.keeps.write (.put (cacheKey endpoint scope idempotencyKey)
            ⟨endpoint, scope, idempotencyKey, response⟩ s.world.clock)
      · rcases List.mem_append.mp hw with hw | hw
        · exact hs.keyed hw
        · cases List.mem_singleton.mp hw
          rfl
  | other o =>
      obtain ⟨⟨x, w'⟩, hexec, rfl⟩ := Option.map_eq_some_iff.mp h
      refine ⟨?_, hs.keyed⟩
      rw [responseEntries_exec hl hexec, exec_clock hexec]
      exact hs.keeps

theorem IdempotencyUse.Reachable.keeps (h : IdempotencyUse.Reachable env adapter w s) :
    KeepsResponses adapter s :=
  h.invariant KeepsResponses.start fun _ _ _ hI hl hstep => hI.step hl hstep

variable {endpoint scope idempotencyKey : String} {response : ResponseDict Other}

/-- What `get` finds under a key of the store. -/
theorem KeepsResponses.read (hs : KeepsResponses adapter s) {raw : String} :
    (s.world.cache.get s.world.clock (cacheKey endpoint scope idempotencyKey)).1 = some raw ↔
      ∃ stored t₀, lastOn (cacheKey endpoint scope idempotencyKey) s.log =
          some (.put (cacheKey endpoint scope idempotencyKey) stored t₀) ∧
        adapter.dumpJson stored.response = raw ∧ s.world.clock < t₀ + seconds ttlSeconds := by
  have hentries : responseEntries s.world.cache (cacheKey endpoint scope idempotencyKey) =
      s.world.cache.store (cacheKey endpoint scope idempotencyKey) :=
    if_pos isIdempotencyKey_cacheKey
  rw [InMemoryCache.get_eq_some, ← hentries, hs.keeps.read]
  simp [responseEntry, Alive]

/-- **A response that is answered was stored**, within the last day, by the last call on the entry. -/
theorem KeepsResponses.replayed (hs : KeepsResponses adapter s) :
    (∃ w', alone env (getCachedResponse adapter endpoint scope idempotencyKey) s.world =
      some (.ok (some response), w')) ↔
    ∃ stored t₀, lastOn (cacheKey endpoint scope idempotencyKey) s.log =
        some (.put (cacheKey endpoint scope idempotencyKey) stored t₀) ∧
      stored.response = response ∧ s.world.clock < t₀ + seconds ttlSeconds := by
  rw [alone_getCachedResponse]
  constructor
  · rintro ⟨w', h⟩
    obtain ⟨hanswer, -⟩ := Prod.mk.inj (Option.some.inj h)
    cases hraw : (s.world.cache.get s.world.clock (cacheKey endpoint scope idempotencyKey)).1 with
    | none =>
        rw [hraw] at hanswer
        cases hanswer
    | some raw =>
        obtain ⟨stored, t₀, hlast, rfl, hlives⟩ := hs.read.mp hraw
        rw [hraw, decoded, adapter.validateJson_dumpJson] at hanswer
        cases hanswer
        exact ⟨stored, t₀, hlast, rfl, hlives⟩
  · rintro ⟨stored, t₀, hlast, rfl, hlives⟩
    rw [hs.read.mpr ⟨stored, t₀, hlast, rfl, hlives⟩, decoded, adapter.validateJson_dumpJson]
    exact ⟨_, rfl⟩

end Run

/-! ### Clients -/

/-- **A client is served the response of another**: in some run, `get_cached_response` answers with
the response that `cache_response` stored last on the entry it reads. -/
def Serves {Other : Type} (env : Env) (adapter : ResponseAdapter Other) (w : World Unit)
    (endpoint₁ scope₁ key₁ endpoint₂ scope₂ key₂ : String) : Prop :=
  ∃ (s : IdempotencyUse Other) (response : ResponseDict Other) (w' : World Unit) (t₀ : Instant),
    s.Reachable env adapter w ∧
    alone env (getCachedResponse adapter endpoint₁ scope₁ key₁) s.world =
      some (.ok (some response), w') ∧
    lastOn (cacheKey endpoint₁ scope₁ key₁) s.log =
      some (.put (cacheKey endpoint₁ scope₁ key₁) ⟨endpoint₂, scope₂, key₂, response⟩ t₀)

section Clients

variable {Other : Type} {env : Env} {adapter : ResponseAdapter Other} {w : World Unit}
  {endpoint₁ scope₁ key₁ endpoint₂ scope₂ key₂ : String}

/-- **Served exactly where the joined texts agree.** -/
theorem serves_iff : Serves env adapter w endpoint₁ scope₁ key₁ endpoint₂ scope₂ key₂ ↔
    cacheKey endpoint₁ scope₁ key₁ = cacheKey endpoint₂ scope₂ key₂ := by
  constructor
  · rintro ⟨s, response, w', t₀, hs, -, hlast⟩
    have hkeyed := hs.keeps.keyed (mem_of_lastOn hlast).1
    exact hkeyed
  · intro hkey
    -- one response is stored, and asked for at once
    let response : ResponseDict Other := .single "user_id" ""
    let s : IdempotencyUse Other :=
      { world := (w.withCache .empty).withCache (InMemoryCache.empty.set w.clock
          (cacheKey endpoint₂ scope₂ key₂) (adapter.dumpJson response) (some ttlSeconds))
        log := [.put (cacheKey endpoint₂ scope₂ key₂) ⟨endpoint₂, scope₂, key₂, response⟩ w.clock] }
    have hs : s.Reachable env adapter w :=
      .single ⟨.store endpoint₂ scope₂ key₂ response, trivial, rfl⟩
    have hlast : lastOn (cacheKey endpoint₁ scope₁ key₁) s.log =
        some (.put (cacheKey endpoint₁ scope₁ key₁) ⟨endpoint₂, scope₂, key₂, response⟩ w.clock) := by
      rw [hkey]
      exact lastOn_singleton _ rfl
    have hlives : w.clock < w.clock + seconds ttlSeconds := lt_add_of_pos_right w.clock (by decide)
    obtain ⟨w', hget⟩ := hs.keeps.replayed.mpr ⟨_, w.clock, hlast, rfl, hlives⟩
    exact ⟨s, response, w', w.clock, hs, hget, hlast⟩

/-- Addresses without a colon are kept apart. -/
theorem plain_scopes_kept_apart (hscope₁ : ':' ∉ scope₁.toList) (hscope₂ : ':' ∉ scope₂.toList)
    (h : Serves env adapter w endpoint₁ scope₁ key₁ endpoint₁ scope₂ key₂) :
    scope₁ = scope₂ ∧ key₁ = key₂ := by
  have hkeys := serves_iff.mp h
  obtain rfl : scope₁ = scope₂ := by
    rcases prefix_of_cacheKey_eq hkeys with hprefix | hprefix
    · exact scope_eq_of_extends hscope₁ hscope₂ hprefix
    · exact (scope_eq_of_extends hscope₂ hscope₁ hprefix).symm
  exact ⟨rfl, idempotencyKey_eq hkeys⟩

end Clients

/-- **Which clients the store keeps apart.** Two clients are given by an endpoint and a scope each.
Whatever was stored and done before, and under whatever keys, the first is answered with a response
stored for the second only if the two are the same, with the same key: this holds exactly when they
are the same indeed, or neither text `endpoint:scope:` begins with the other. -/
theorem responses_kept_apart_iff {Other : Type} (env : Env) (adapter : ResponseAdapter Other)
    (w : World Unit) (endpoint₁ scope₁ endpoint₂ scope₂ : String) :
    (∀ key₁ key₂, Serves env adapter w endpoint₁ scope₁ key₁ endpoint₂ scope₂ key₂ →
        endpoint₁ = endpoint₂ ∧ scope₁ = scope₂ ∧ key₁ = key₂) ↔
      endpoint₁ = endpoint₂ ∧ scope₁ = scope₂ ∨
        ¬ (clientPrefix endpoint₁ scope₁).toList <+: (clientPrefix endpoint₂ scope₂).toList ∧
        ¬ (clientPrefix endpoint₂ scope₂).toList <+: (clientPrefix endpoint₁ scope₁).toList := by
  constructor
  · intro hapart
    refine or_iff_not_imp_right.mpr fun hfree => ?_
    rcases not_and_or.mp hfree with h | h
    · obtain ⟨rest, hrest⟩ := cacheKey_collision (not_not.mp h)
      obtain ⟨hendpoint, hscope, -⟩ := hapart rest "" (serves_iff.mpr hrest)
      exact ⟨hendpoint, hscope⟩
    · obtain ⟨rest, hrest⟩ := cacheKey_collision (not_not.mp h)
      obtain ⟨hendpoint, hscope, -⟩ := hapart "" rest (serves_iff.mpr hrest.symm)
      exact ⟨hendpoint, hscope⟩
  · rintro (⟨rfl, rfl⟩ | ⟨hfree₁, hfree₂⟩) key₁ key₂ hserves
    · exact ⟨rfl, rfl, idempotencyKey_eq (serves_iff.mp hserves)⟩
    · rcases prefix_of_cacheKey_eq (serves_iff.mp hserves) with h | h
      · exact absurd h hfree₁
      · exact absurd h hfree₂

/-! ### A JSON library -/

namespace Reference

open Codecs

/-- A member of an object, up to the closing quote of its value. -/
def memberText (e : String × JsonValue Empty) : List Char :=
  match e with
  | (key, .str value) =>
      '"' :: (escape key.toList ++ '"' :: ':' :: '"' :: (escape value.toList ++ ['"']))

/-- The members of an object and its closing brace. -/
def membersText : List (String × JsonValue Empty) → List Char
  | [] => ['\x7d']
  | [e] => memberText e ++ ['\x7d']
  | e :: e' :: es => memberText e ++ ',' :: membersText (e' :: es)

/-- Read a member. -/
def readMember (cs : List Char) : Option ((String × JsonValue Empty) × List Char) := do
  let cs ← expect ['"'] cs
  let (key, cs) ← readString cs
  let cs ← expect [':', '"'] cs
  let (value, cs) ← readString cs
  some ((String.ofList key, .str (String.ofList value)), cs)

/-- Read at most so many members up to the closing brace. -/
def readMembers : ℕ → List Char → Option (List (String × JsonValue Empty))
  | 0, _ => none
  | n + 1, cs => do
      let (e, cs) ← readMember cs
      match cs with
      | ',' :: cs => (readMembers n cs).map (e :: ·)
      | ['\x7d'] => some [e]
      | _ => none

theorem readMember_memberText (e : String × JsonValue Empty) (rest : List Char) :
    readMember (memberText e ++ rest) = some (e, rest) := by
  obtain ⟨key, value⟩ := e
  cases value with
  | other v => exact v.elim
  | str value =>
      have hquote : ∀ cs, expect ['"'] ('"' :: cs) = some cs := expect_append ['"']
      have hcolon : ∀ cs, expect [':', '"'] (':' :: '"' :: cs) = some cs := expect_append [':', '"']
      rw [memberText, readMember]
      simp only [List.cons_append, List.append_assoc, List.nil_append, hquote, hcolon,
        readString_escape, Option.bind_eq_bind, Option.bind_some, String.ofList_toList]

theorem readMembers_membersText {es : List (String × JsonValue Empty)} (hes : es ≠ []) {n : ℕ}
    (hn : es.length ≤ n) : readMembers n (membersText es) = some es := by
  induction n generalizing es with
  | zero => exact absurd (List.length_eq_zero_iff.mp (Nat.le_zero.mp hn)) hes
  | succ n ih =>
      match es with
      | [] => exact absurd rfl hes
      | [e] =>
          rw [membersText, readMembers, readMember_memberText]
          rfl
      | e :: e' :: es =>
          rw [membersText, readMembers, readMember_memberText]
          simp only [Option.bind_eq_bind, Option.bind_some]
          rw [ih (List.cons_ne_nil e' es) (Nat.le_of_succ_le_succ hn)]
          rfl

theorem length_le_membersText (es : List (String × JsonValue Empty)) :
    es.length ≤ (membersText es).length := by
  match es with
  | [] => exact Nat.zero_le _
  | [e] => simp [membersText]
  | e :: e' :: es =>
      have ih := length_le_membersText (e' :: es)
      rw [membersText, List.length_append, @List.length_cons _ ',', @List.length_cons _ e]
      omega

/-- A member begins with a quote. -/
theorem membersText_ne {es : List (String × JsonValue Empty)} (hes : es ≠ []) :
    membersText es ≠ ['\x7d'] := by
  have hmember : ∀ e rest, memberText e ++ rest ≠ ['\x7d'] := by
    rintro ⟨key, value⟩ rest h
    cases value with
    | other v => exact v.elim
    | str value => exact absurd (List.cons.inj h).1 (by decide)
  match es with
  | [] => exact absurd rfl hes
  | [e] => exact hmember e _
  | e :: e' :: es => exact hmember e _

/-- Read an object after its opening brace. -/
def readObject (cs : List Char) : Option (List (String × JsonValue Empty)) :=
  if cs = ['\x7d'] then some [] else readMembers cs.length cs

theorem readObject_membersText (es : List (String × JsonValue Empty)) :
    readObject (membersText es) = some es := by
  by_cases hes : es = []
  · subst hes
    rfl
  · rw [readObject, if_neg (membersText_ne hes), readMembers_membersText hes (length_le_membersText es)]

/-- A JSON library for responses whose values are all texts: objects are written as they are read,
with every key once. -/
def textAdapter : ResponseAdapter Empty where
  dumpJson response := String.ofList ('\x7b' :: membersText response.entries)
  validateJson raw := do
    let cs ← expect ['\x7b'] raw.toList
    let es ← readObject cs
    if h : (es.map Prod.fst).Nodup then some ⟨es, h⟩ else none
  validateJson_dumpJson := by
    rintro ⟨es, hunique⟩
    have hbrace : expect ['\x7b'] ('\x7b' :: membersText es) = some (membersText es) :=
      expect_append ['\x7b'] _
    simp only [String.toList_ofList, hbrace, Option.bind_eq_bind, Option.bind_some,
      readObject_membersText, dif_pos hunique]

/-- **Two addresses share entries**: a client at `2001:db8::1` whose key is `5:k` is served what a
client at `2001:db8::1:5` stored under the key `k`. -/
theorem addresses_collide :
    ¬ ∀ endpoint₁ scope₁ key₁ endpoint₂ scope₂ key₂,
      Serves Reference.env textAdapter (world Unit (tables (alice false) false))
          endpoint₁ scope₁ key₁ endpoint₂ scope₂ key₂ →
        endpoint₁ = endpoint₂ ∧ scope₁ = scope₂ ∧ key₁ = key₂ := by
  intro hapart
  have hkeys : cacheKey "register" "2001:db8::1" "5:k" = cacheKey "register" "2001:db8::1:5" "k" := by
    decide
  exact absurd (hapart _ _ _ _ _ _ (serves_iff.mpr hkeys)).2.1 (by decide)

end Reference

end BackendTemplate
