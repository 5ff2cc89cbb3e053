import BackendTemplate.Dict
import BackendTemplate.Reference
import BackendTemplate.Settings
import BackendTemplate.Texts

/-!
# The HTTPS Redirect

`HTTPSRedirectMiddleware` sends plain requests to `https`, at the host in PUBLIC_HOST or else at
their own, if that is one of ALLOWED_HOSTS. It compares what `_normalise_host` leaves of the two:
the text before the first colon, or the brackets an address of version 6 stands in.

What is left of an entry is the host it names only if the entry is written as a host with at most a
port. Of a port alone, or of an address without its brackets, other texts are left, the empty one
among them, and there are requests that are sent there.

## Main results

* `hostPart_bareHost_iff` — the texts that `_normalise_host` leaves the host of.
* `meets_iff` — the requests that are answered as they should be.
* `redirects_named_iff` — these, and the settings under which all of them are.
-/

namespace BackendTemplate

open IpAddress

/-! ### Hosts -/

/-- `str.strip().lower()`. -/
def lowered (env : Env) (s : Text) : Text := (env.lower (String.ofList (strip s))).toList

/-- What `_normalise_host` leaves of a text that is stripped and in lower case. -/
def bareHost (host : Text) : Text :=
  if host.head? = some '[' ∧ ']' ∈ host then host.takeWhile (· ≠ ']') ++ [']']
  else host.takeWhile (· ≠ ':')

/-- `_normalise_host`. -/
def normaliseHost (env : Env) (host : Text) : Text := bareHost (lowered env host)

/-! ### The middleware -/

/-- What `str.decode` raises on bytes that are no text. -/
inductive UnicodeDecodeError
  | mk
deriving DecidableEq

/-- The parts of a request that the middleware reads. -/
structure HttpScope where
  path : Text
  headers : List (Bytes × Bytes)
  queryString : Bytes

/-- What becomes of a request. -/
inductive RedirectAnswer
  | passedOn
  | badRequest (body : String)
  | movedPermanently (path : Text)
deriving DecidableEq

structure HTTPSRedirectMiddleware where
  enabled : Bool
  publicHost : Option Text
  allowedHosts : Finset Text

/-- The entries of ALLOWED_HOSTS that are not blank. -/
def hostEntries (environ : Environ) : List Text :=
  ((getenv environ "ALLOWED_HOSTS" "").toList.splitOn ',').filter fun entry => strip entry ≠ []

/-- `HTTPSRedirectMiddleware.__init__`. -/
def HTTPSRedirectMiddleware.init (env : Env) (environ : Environ) (enabled : Bool) :
    HTTPSRedirectMiddleware where
  enabled := enabled
  publicHost := ((environ "PUBLIC_HOST").map String.toList).filter fun host => host ≠ []
  allowedHosts := ((hostEntries environ).map (normaliseHost env)).toFinset

/-- `bytes.decode('latin-1')`. -/
def decodeLatin1 (b : Bytes) : Text := b.map fun x => Char.ofNat x.toNat

/-- `bytes.decode()`. -/
def decodeUtf8 (b : Bytes) : Option Text := (String.fromUTF8? ⟨b.toArray⟩).map String.toList

/-- `headers.get`: of two headers with the same name it is the last. -/
def HttpScope.header (env : Env) (scope : HttpScope) (name : String) : Option Text :=
  Dict.get ((scope.headers.map fun h =>
    (env.lower (String.ofList (decodeLatin1 h.1)), decodeLatin1 h.2)).reverse) name

/-- `path == PROBE_PATH or path.startswith(f'{PROBE_PATH}/')`. -/
def isProbePath (path : Text) : Bool := path = "/health".toList || "/health/".toList.isPrefixOf path

/-- `redirect_url`. -/
def redirectUrl (host path query : Text) : Text :=
  let url := "https://".toList ++ host ++ path
  if query = [] then url else url ++ '?' :: query

namespace HTTPSRedirectMiddleware

/-- `HTTPSRedirectMiddleware._redirect_host`. -/
def redirectHost (env : Env) (m : HTTPSRedirectMiddleware) (requestHost : Text) : Option Text :=
  match m.publicHost with
  | some host => some host
  | none =>
      if normaliseHost env requestHost ∈ m.allowedHosts then some (normaliseHost env requestHost)
      else none

/-- `HTTPSRedirectMiddleware.__call__`. -/
def call (env : Env) (m : HTTPSRedirectMiddleware) (scope : HttpScope) :
    Except UnicodeDecodeError RedirectAnswer :=
  if !m.enabled then .ok .passedOn
  else if isProbePath scope.path then .ok .passedOn
  else if (scope.header env "x-forwarded-proto").getD "http".toList ≠ "https".toList then
    match m.redirectHost env ((scope.header env "host").getD []) with
    | none => .ok (.badRequest "Unrecognised host")
    | some host =>
        match decodeUtf8 scope.queryString with
        | none => .error .mk
        | some query => .ok (.movedPermanently (redirectUrl host scope.path query))
  else .ok .passedOn

end HTTPSRedirectMiddleware

/-! ### What it should do -/

/-- The characters that set the parts of an address of the web apart. -/
def isDelimiter (c : Char) : Bool := c ∈ [':', '/', '?', '#', '[', ']', '@']

/-- A port, with its colon, or none. -/
def IsPort (s : Text) : Prop := s = [] ∨ ∃ digits, s = ':' :: digits ∧ ∀ c ∈ digits, c.isDigit

/-- **The host part of a text**: what stands before the port, or in brackets; an address of version
6 without its brackets is given them. -/
inductive HostPart : Text → Text → Prop
  | name {host port : Text} (hne : host ≠ []) (hchars : ∀ c ∈ host, isDelimiter c = false)
      (hport : IsPort port) : HostPart (host ++ port) host
  | literal {inner port : Text} (hne : inner ≠ [])
      (hchars : ∀ c ∈ inner, isDelimiter c = true → c = ':') (hport : IsPort port) :
      HostPart ('[' :: (inner ++ ']' :: port)) ('[' :: (inner ++ [']']))
  | bare {address : Text} (hvalid : (ipv6FromString address).isSome) :
      HostPart address ('[' :: (address ++ [']']))

/-- A text is written as a host with at most a port. -/
inductive WellWritten : Text → Prop
  | name {host port : Text} (hne : host ≠ []) (hchars : ∀ c ∈ host, isDelimiter c = false)
      (hport : IsPort port) : WellWritten (host ++ port)
  | literal {inner port : Text} (hne : inner ≠ [])
      (hchars : ∀ c ∈ inner, isDelimiter c = true → c = ':') (hport : IsPort port) :
      WellWritten ('[' :: (inner ++ ']' :: port))

/-- **A host that ALLOWED_HOSTS names**: the host part of an entry, in lower case. -/
def Named (env : Env) (environ : Environ) (host : Text) : Prop :=
  ∃ entry ∈ hostEntries environ, HostPart (lowered env entry) host

/-- Where a redirect goes. -/
def target (host path query : Text) : Text :=
  "https://".toList ++ host ++ path ++ if query = [] then [] else '?' :: query

/-- **The request is answered as it should be**: it is passed on, or refused, or redirected to the
same path and query of a host that the operator has named. -/
def Meets (env : Env) (environ : Environ) (scope : HttpScope)
    (answer : Except UnicodeDecodeError RedirectAnswer) : Prop :=
  answer = .ok .passedOn ∨ (∃ body, answer = .ok (.badRequest body)) ∨
    ∃ host query, host ≠ [] ∧
      (environ "PUBLIC_HOST" = some (String.ofList host) ∨ Named env environ host) ∧
      decodeUtf8 scope.queryString = some query ∧
      answer = .ok (.movedPermanently (target host scope.path query))

/-! ### What is left of a text -/

theorem HostPart.ne_nil {s host : Text} (h : HostPart s host) : host ≠ [] := by
  cases h with
  | name hne => exact hne
  | literal => exact List.cons_ne_nil _ _
  | bare => exact List.cons_ne_nil _ _

/-- Nothing is put into a text that is not there. -/
theorem length_bareHost_le (s : Text) : (bareHost s).length ≤ s.length := by
  rw [bareHost]
  split
  · rename_i h
    have hdrop : s.dropWhile (· ≠ ']') ≠ [] := by
      intro hnil
      exact absurd (List.dropWhile_eq_nil_iff.mp hnil _ h.2) (by decide)
    have hlength := congrArg List.length (List.takeWhile_append_dropWhile (p := (· ≠ ']')) (l := s))
    have hpos := List.length_pos_of_ne_nil hdrop
    simp only [List.length_append, List.length_singleton] at hlength ⊢
    omega
  · exact (List.takeWhile_prefix _).length_le

/-- A port ends what is before it. -/
theorem takeWhile_append_port {s port : Text} (hs : ∀ c ∈ s, c ≠ ':') (hport : IsPort port) :
    (s ++ port).takeWhile (· ≠ ':') = s := by
  rw [List.takeWhile_append_of_pos fun c hc => decide_eq_true (hs c hc)]
  rcases hport with rfl | ⟨digits, rfl, -⟩
  · exact List.append_nil s
  · rw [List.takeWhile_cons_of_neg (by decide), List.append_nil]

/-- A host and a port: the host is left. -/
theorem bareHost_name {host port : Text} (hne : host ≠ [])
    (hchars : ∀ c ∈ host, isDelimiter c = false) (hport : IsPort port) :
    bareHost (host ++ port) = host := by
  have hcolon : ∀ c ∈ host, c ≠ ':' := by
    rintro c hc rfl
    exact absurd (hchars ':' hc) (by decide)
  obtain ⟨c, rest, rfl⟩ := List.exists_cons_of_ne_nil hne
  have hbracket : ¬ ((c :: rest ++ port).head? = some '[' ∧ ']' ∈ c :: rest ++ port) := by
    rintro ⟨hhead, -⟩
    obtain rfl := Option.some.inj hhead
    exact absurd (hchars '[' List.mem_cons_self) (by decide)
  rw [bareHost, if_neg hbracket]
  exact takeWhile_append_port hcolon hport

/-- Brackets and what follows them: the brackets are left. -/
theorem bareHost_literal {inner rest : Text} (hinner : ']' ∉ inner) :
    bareHost ('[' :: (inner ++ ']' :: rest)) = '[' :: (inner ++ [']']) := by
  have hall : ∀ c ∈ '[' :: inner, decide (c ≠ ']') = true := by
    intro c hc
    rcases List.mem_cons.mp hc with rfl | hc
    · decide
    · exact decide_eq_true fun h => hinner (h ▸ hc)
  rw [bareHost, if_pos ⟨rfl, by simp⟩, ← List.cons_append, List.takeWhile_append_of_pos hall,
    List.takeWhile_cons_of_neg (by decide), List.append_nil]
  rfl

/-- **The texts that `_normalise_host` leaves the host of** are those that are written as a host
with at most a port. -/
theorem hostPart_bareHost_iff {s : Text} : HostPart s (bareHost s) ↔ WellWritten s := by
  constructor
  · intro h
    generalize hhost : bareHost s = host at h
    cases h with
    | name hne hchars hport => exact .name hne hchars hport
    | literal hne hchars hport => exact .literal hne hchars hport
    | bare hvalid =>
        have hlength := length_bareHost_le s
        rw [hhost] at hlength
        simp at hlength
  · intro h
    cases h with
    | name hne hchars hport =>
        rw [bareHost_name hne hchars hport]
        exact .name hne hchars hport
    | literal hne hchars hport =>
        rw [bareHost_literal fun hmem => absurd (hchars _ hmem (by decide)) (by decide)]
        exact .literal hne hchars hport

/-! ### Where a request is sent -/

section Requests

variable {env : Env} {environ : Environ} {scope : HttpScope} {enabled : Bool}

/-- PUBLIC_HOST is set, and not to nothing. -/
def PublicHostSet (environ : Environ) : Prop :=
  ∃ host, environ "PUBLIC_HOST" = some host ∧ host ≠ ""

/-- The host a request asks for, as the middleware compares it. -/
def requestHost (env : Env) (scope : HttpScope) : Text :=
  normaliseHost env ((scope.header env "host").getD [])

/-- A request that is no probe and has not come by `https`. -/
structure Plain (env : Env) (scope : HttpScope) : Prop where
  noProbe : isProbePath scope.path = false
  noHttps : (scope.header env "x-forwarded-proto").getD "http".toList ≠ "https".toList

/-- What the middleware keeps of PUBLIC_HOST. -/
theorem publicHost_eq_some (env : Env) (enabled : Bool) {host : Text} :
    (HTTPSRedirectMiddleware.init env environ enabled).publicHost = some host ↔
      environ "PUBLIC_HOST" = some (String.ofList host) ∧ host ≠ [] := by
  rw [HTTPSRedirectMiddleware.init, Option.filter_eq_some_iff, Option.map_eq_some_iff]
  constructor
  · rintro ⟨⟨text, htext, rfl⟩, hne⟩
    rw [String.ofList_toList]
    exact ⟨htext, of_decide_eq_true hne⟩
  · rintro ⟨htext, hne⟩
    exact ⟨⟨_, htext, String.toList_ofList⟩, decide_eq_true hne⟩

theorem publicHostSet_iff (env : Env) (enabled : Bool) : PublicHostSet environ ↔
    ∃ host, (HTTPSRedirectMiddleware.init env environ enabled).publicHost = some host := by
  constructor
  · rintro ⟨host, hset, hne⟩
    refine ⟨host.toList, (publicHost_eq_some env enabled).mpr ⟨?_, fun hnil => hne ?_⟩⟩
    · rw [String.ofList_toList]
      exact hset
    · exact String.toList_eq_nil_iff.mp hnil
  · rintro ⟨host, hhost⟩
    obtain ⟨hset, hne⟩ := (publicHost_eq_some env enabled).mp hhost
    exact ⟨_, hset, fun hempty => hne (String.ofList_eq_empty_iff.mp hempty)⟩

theorem mem_allowedHosts {host : Text} :
    host ∈ (HTTPSRedirectMiddleware.init env environ enabled).allowedHosts ↔
      ∃ entry ∈ hostEntries environ, normaliseHost env entry = host := by
  rw [HTTPSRedirectMiddleware.init, List.mem_toFinset, List.mem_map]

/-- **Where plain requests are sent**: to PUBLIC_HOST, or without one to their own host, if it is
what is left of an entry. -/
theorem redirectHost_eq_some {text host : Text} :
    (HTTPSRedirectMiddleware.init env environ enabled).redirectHost env text = some host ↔
      (environ "PUBLIC_HOST" = some (String.ofList host) ∧ host ≠ []) ∨
        ¬ PublicHostSet environ ∧ normaliseHost env text = host ∧
          ∃ entry ∈ hostEntries environ, normaliseHost env entry = host := by
  rw [HTTPSRedirectMiddleware.redirectHost, ← publicHost_eq_some env enabled,
    publicHostSet_iff env enabled]
  cases hpublic : (HTTPSRedirectMiddleware.init env environ enabled).publicHost with
  | some public_ =>
      simp
  | none =>
      simp only [reduceCtorEq, exists_const, not_false_eq_true, true_and, false_or,
        mem_allowedHosts]
      split
      · rename_i hentry
        constructor
        · rintro ⟨⟩
          exact ⟨rfl, hentry⟩
        · rintro ⟨rfl, -⟩
          rfl
      · rename_i hentry
        refine iff_of_false (by rintro ⟨⟩) ?_
        rintro ⟨rfl, h⟩
        exact hentry h

theorem redirectUrl_eq (host path query : Text) :
    redirectUrl host path query = target host path query := by
  unfold redirectUrl target
  -- from here on the head is opaque, or the unifier evaluates it
  generalize "https://".toList ++ host ++ path = url
  cases query with
  | nil => exact (List.append_nil url).symm
  | cons c query => rfl

/-- A plain request, in the hands of an enabled middleware. -/
theorem call_of_plain (h : Plain env scope) (m : HTTPSRedirectMiddleware) (hm : m.enabled = true) :
    m.call env scope =
      match m.redirectHost env ((scope.header env "host").getD []) with
      | none => .ok (.badRequest "Unrecognised host")
      | some host =>
          match decodeUtf8 scope.queryString with
          | none => .error .mk
          | some query => .ok (.movedPermanently (redirectUrl host scope.path query)) := by
  rw [HTTPSRedirectMiddleware.call, if_neg (by rw [hm]; decide),
    if_neg (by rw [h.noProbe]; decide), if_pos h.noHttps]

/-- Other requests are passed on. -/
theorem call_of_exempt (m : HTTPSRedirectMiddleware) (h : m.enabled = true → ¬ Plain env scope) :
    m.call env scope = .ok .passedOn := by
  rw [HTTPSRedirectMiddleware.call]
  split
  · rfl
  · rename_i henabled
    split
    · rfl
    · rename_i hprobe
      split
      · rename_i hhttps
        refine absurd ⟨Bool.eq_false_iff.mpr hprobe, hhttps⟩ (h ?_)
        rwa [Bool.not_eq_true', Bool.not_eq_false] at henabled
      · rfl

/-! ### When a request is answered as it should be -/

theorem Named.ne_nil {host : Text} (h : Named env environ host) : host ≠ [] := by
  obtain ⟨entry, -, hpart⟩ := h
  exact hpart.ne_nil

/-- The host a redirect goes to, by where it goes. -/
theorem target_injective {host host' path query : Text}
    (h : target host path query = target host' path query) : host = host' := by
  unfold target at h
  rw [List.append_assoc, List.append_assoc, List.append_assoc, List.append_assoc] at h
  exact List.append_cancel_right (List.append_cancel_left h)

/-- A redirect is what it should be when its host is one the operator has named. -/
theorem meets_redirect_iff {host query : Text}
    (hquery : decodeUtf8 scope.queryString = some query) :
    Meets env environ scope (.ok (.movedPermanently (redirectUrl host scope.path query))) ↔
      host ≠ [] ∧ (environ "PUBLIC_HOST" = some (String.ofList host) ∨ Named env environ host) := by
  rw [redirectUrl_eq]
  constructor
  · rintro (hpassed | ⟨body, hrefused⟩ | ⟨host', query', hne, hnamed, hquery', hanswer⟩)
    · cases hpassed
    · cases hrefused
    obtain rfl := Option.some.inj (hquery.symm.trans hquery')
    have htarget := RedirectAnswer.movedPermanently.inj (Except.ok.inj hanswer)
    obtain rfl := target_injective htarget
    exact ⟨hne, hnamed⟩
  · rintro ⟨hne, hnamed⟩
    exact .inr (.inr ⟨host, query, hne, hnamed, hquery, rfl⟩)

/-- An exception is no answer. -/
theorem not_meets_error : ¬ Meets env environ scope (.error .mk) := by
  rintro (hpassed | ⟨body, hrefused⟩ | ⟨host, query, -, -, -, hanswer⟩)
  · cases hpassed
  · cases hrefused
  · cases hanswer

/-- A request is sent on: there is a PUBLIC_HOST, or what is left of its host is what is left of an
entry. -/
def SentOn (env : Env) (environ : Environ) (scope : HttpScope) : Prop :=
  PublicHostSet environ ∨
    ∃ entry ∈ hostEntries environ, normaliseHost env entry = requestHost env scope

/-- **The condition on a request**: its query is a text, and without a PUBLIC_HOST its host is one
that an entry names. -/
structure Redirectable (env : Env) (environ : Environ) (scope : HttpScope) : Prop where
  query : (decodeUtf8 scope.queryString).isSome
  host : PublicHostSet environ ∨ Named env environ (requestHost env scope)

/-- **The requests that are answered as they should be**, under all settings. -/
theorem meets_iff :
    Meets env environ scope ((HTTPSRedirectMiddleware.init env environ enabled).call env scope) ↔
      (enabled = true → Plain env scope → SentOn env environ scope →
        Redirectable env environ scope) := by
  by_cases hplain : enabled = true ∧ Plain env scope
  · obtain ⟨henabled, hplain⟩ := hplain
    rw [call_of_plain hplain _ henabled]
    cases hhost : (HTTPSRedirectMiddleware.init env environ enabled).redirectHost env
        ((scope.header env "host").getD []) with
    | none =>
        refine iff_of_true (.inr (.inl ⟨_, rfl⟩)) fun _ _ hsent => ?_
        have hnone : ∀ host, (HTTPSRedirectMiddleware.init env environ enabled).redirectHost env
            ((scope.header env "host").getD []) ≠ some host := by
          intro host h
          rw [hhost] at h
          cases h
        by_cases hpublic : PublicHostSet environ
        · obtain ⟨host, hset⟩ := (publicHostSet_iff env enabled).mp hpublic
          have hto := (publicHost_eq_some env enabled).mp hset
          exact absurd (redirectHost_eq_some.mpr (.inl hto)) (hnone host)
        · exact absurd (redirectHost_eq_some.mpr
            (.inr ⟨hpublic, rfl, hsent.resolve_left hpublic⟩)) (hnone _)
    | some host =>
        have hto := redirectHost_eq_some.mp hhost
        have hsent : SentOn env environ scope := by
          rcases hto with ⟨hset, hne⟩ | ⟨-, rfl, hentry⟩
          · exact .inl ⟨_, hset, fun hempty => hne (String.ofList_eq_empty_iff.mp hempty)⟩
          · exact .inr hentry
        cases hquery : decodeUtf8 scope.queryString with
        | none =>
            refine iff_of_false not_meets_error fun h => ?_
            have := (h henabled hplain hsent).query
            rw [hquery] at this
            cases this
        | some query =>
            rw [meets_redirect_iff hquery]
            constructor
            · rintro ⟨hne, hnamed⟩ _ _ _
              refine ⟨Option.isSome_iff_exists.mpr ⟨query, hquery⟩, ?_⟩
              rcases hto with ⟨hset, hne⟩ | ⟨hunset, hsame, -⟩
              · exact .inl ⟨_, hset, fun hempty => hne (String.ofList_eq_empty_iff.mp hempty)⟩
              · rcases hnamed with hset | hnamed
                · exact .inl ⟨_, hset, fun hempty => hne (String.ofList_eq_empty_iff.mp hempty)⟩
                · rw [requestHost, hsame]
                  exact .inr hnamed
            · intro h
              rcases hto with ⟨hset, hne⟩ | ⟨hunset, hsame, -⟩
              · exact ⟨hne, .inl hset⟩
              · have hnamed := (h henabled hplain hsent).host.resolve_left hunset
                rw [requestHost, hsame] at hnamed
                exact ⟨hnamed.ne_nil, .inr hnamed⟩
  · rw [call_of_exempt _ fun henabled hp => hplain ⟨henabled, hp⟩]
    exact iff_of_true (.inl rfl) fun henabled hp => absurd ⟨henabled, hp⟩ hplain

/-- **Settings that are safe**: with a PUBLIC_HOST; or when what is left of every entry, if a `Host`
header can be sent that the same is left of, is the host that an entry names. -/
def SafeSettings (env : Env) (environ : Environ) : Prop :=
  PublicHostSet environ ∨ ∀ entry ∈ hostEntries environ, ∀ host : Bytes,
    normaliseHost env (decodeLatin1 host) = normaliseHost env entry →
      Named env environ (normaliseHost env entry)

/-- What a header holds, or the empty text without one, is the text of some bytes. -/
theorem header_spelled (env : Env) (scope : HttpScope) (name : String) :
    ∃ b, (scope.header env name).getD [] = decodeLatin1 b := by
  rw [HttpScope.header, Dict.get]
  cases hlookup : Keyed.lookup Prod.fst _ name with
  | none => exact ⟨[], rfl⟩
  | some entry =>
      obtain ⟨h, -, rfl⟩ := List.mem_map.mp (List.mem_reverse.mp (Keyed.mem_of_lookup hlookup))
      exact ⟨h.2, rfl⟩

/-- A plain request for the root of a host. -/
def rootOf (host : Bytes) : HttpScope where
  path := ['/']
  headers := [([0x68, 0x6f, 0x73, 0x74], host)]
  queryString := []

theorem rootOf_header (hlower : env.lower "host" = "host") (host : Bytes) (name : String) :
    (rootOf host).header env name = if "host" = name then some (decodeLatin1 host) else none := by
  have hname : String.ofList (decodeLatin1 [0x68, 0x6f, 0x73, 0x74]) = "host" := by decide
  rw [HttpScope.header, rootOf, List.map_singleton, List.reverse_singleton, hname, hlower,
    Dict.get_cons]
  rfl

theorem rootOf_plain (hlower : env.lower "host" = "host") (host : Bytes) :
    Plain env (rootOf host) where
  noProbe := show isProbePath ['/'] = false by decide
  noHttps := by
    rw [rootOf_header hlower, if_neg (by decide)]
    decide

theorem decodeUtf8_nil : decodeUtf8 [] = some [] := by
  decide +kernel

/-- **When every request whose query is a text is answered as it should be.** -/
theorem settings_safe_iff (hlower : env.lower "host" = "host") :
    (∀ scope, (decodeUtf8 scope.queryString).isSome →
      Meets env environ scope ((HTTPSRedirectMiddleware.init env environ true).call env scope)) ↔
      SafeSettings env environ := by
  constructor
  · intro h
    by_cases hpublic : PublicHostSet environ
    · exact .inl hpublic
    refine .inr fun entry hentry host hsame => ?_
    have hhost : requestHost env (rootOf host) = normaliseHost env entry := by
      rw [requestHost, rootOf_header hlower, if_pos rfl]
      exact hsame
    have hmeets := h (rootOf host) (by rw [rootOf, decodeUtf8_nil]; rfl)
    have hsent : SentOn env environ (rootOf host) := .inr ⟨entry, hentry, hhost.symm⟩
    have hok := meets_iff.mp hmeets rfl (rootOf_plain hlower host) hsent
    exact hhost ▸ hok.host.resolve_left hpublic
  · intro hsafe scope hquery
    refine meets_iff.mpr fun _ _ hsent => ⟨hquery, ?_⟩
    by_cases hpublic : PublicHostSet environ
    · exact .inl hpublic
    obtain ⟨entry, hentry, hsame⟩ := hsent.resolve_left hpublic
    obtain ⟨host, hhost⟩ := header_spelled env scope "host"
    have hleft : normaliseHost env (decodeLatin1 host) = normaliseHost env entry := by
      rw [← hhost, hsame]
      rfl
    exact .inr (hsame ▸ hsafe.resolve_left hpublic entry hentry host hleft)

/-- Entries that are written as a host with at most a port are safe. -/
theorem safe_of_wellWritten
    (h : ∀ entry ∈ hostEntries environ, WellWritten (lowered env entry)) :
    SafeSettings env environ :=
  .inr fun entry hentry _ _ => ⟨entry, hentry, hostPart_bareHost_iff.mpr (h entry hentry)⟩

/-- **When the redirect targets a host that the operator has named.** A request is answered as it
should be if and only if it is not sent on; or its query is a text, and without a PUBLIC_HOST its
host is one that an entry names. All requests with a text for a query are, under the settings that
are safe and no others. -/
theorem redirects_named_iff (hlower : env.lower "host" = "host") :
    (∀ enabled scope, Meets env environ scope
        ((HTTPSRedirectMiddleware.init env environ enabled).call env scope) ↔
      (enabled = true → Plain env scope → SentOn env environ scope →
        Redirectable env environ scope)) ∧
    ((∀ scope, (decodeUtf8 scope.queryString).isSome → Meets env environ scope
        ((HTTPSRedirectMiddleware.init env environ true).call env scope)) ↔
      SafeSettings env environ) :=
  ⟨fun _ _ => meets_iff, settings_safe_iff hlower⟩

end Requests

/-! ### A host and a port -/

namespace Reference

/-- An environment that sets ALLOWED_HOSTS and nothing else. -/
def allowing (hosts : String) : Environ := fun name =>
  if name = "ALLOWED_HOSTS" then some hosts else none

theorem lower_host : env.lower "host" = "host" := by
  decide +kernel

theorem allowing_safe : SafeSettings env (allowing "app.test:8000") := by
  refine safe_of_wellWritten fun entry hentry => ?_
  have hentries : hostEntries (allowing "app.test:8000") = ["app.test:8000".toList] := by
    decide +kernel
  rw [hentries] at hentry
  obtain rfl := List.mem_singleton.mp hentry
  have hlowered : lowered env "app.test:8000".toList = "app.test".toList ++ ":8000".toList := by
    decide +kernel
  have hhost : ("app.test".toList.all fun c => !isDelimiter c) = true := by decide
  have hport : ("8000".toList.all Char.isDigit) = true := by decide
  rw [hlowered]
  refine .name (by decide) (fun c hc => ?_) (.inr ⟨"8000".toList, by decide, ?_⟩)
  · exact (Bool.not_eq_true' _).mp (List.all_eq_true.mp hhost c hc)
  · exact List.all_eq_true.mp hport

end Reference

open Reference in
/-- The host of the only entry, which has a port. -/
theorem allowed_host_redirected : Meets Reference.env (allowing "app.test:8000")
    (rootOf [0x61, 0x70, 0x70, 0x2e, 0x74, 0x65, 0x73, 0x74])
    ((HTTPSRedirectMiddleware.init Reference.env (allowing "app.test:8000") true).call Reference.env
      (rootOf [0x61, 0x70, 0x70, 0x2e, 0x74, 0x65, 0x73, 0x74])) :=
  (redirects_named_iff lower_host).2.mpr allowing_safe _ (by rw [rootOf, decodeUtf8_nil]; rfl)

open Reference in
/-- **The host of an entry is forgotten**: a request without a `Host` is sent to no host at all. -/
theorem port_redirected :
    (HTTPSRedirectMiddleware.init Reference.env (allowing ":8000") true).call Reference.env
        ⟨"/private".toList, [], []⟩ = .ok (.movedPermanently "https:///private".toList) ∧
      ¬ Meets Reference.env (allowing ":8000") ⟨"/private".toList, [], []⟩
        ((HTTPSRedirectMiddleware.init Reference.env (allowing ":8000") true).call Reference.env
          ⟨"/private".toList, [], []⟩) := by
  have hcall : (HTTPSRedirectMiddleware.init Reference.env (allowing ":8000") true).call
      Reference.env ⟨"/private".toList, [], []⟩ =
        .ok (.movedPermanently (redirectUrl [] "/private".toList [])) := by
    decide +kernel
  refine ⟨hcall.trans (by decide +kernel), fun hmeets => ?_⟩
  rw [hcall] at hmeets
  exact ((meets_redirect_iff decodeUtf8_nil).mp hmeets).1 rfl

end BackendTemplate
