import BackendTemplate.Texts
import BackendTemplate.Values

/-!
# Settings

`Settings.load` reads the environment when the service starts and refuses to start on a bad one.
Most of what production needs is checked in `validate`, for every ENV but "development". The URLs of
Hydra are checked by `HydraConfig.from_environ` alone, which takes ENV for "development" when it is
unset, and for production only when it is exactly "production".

Numbers are read as `int` and `float` read them; what `float` makes of a text is left as the text.

## Main results

* `validate_ok_iff` — what `validate` asks for in production.
* `Settings.load_ok` — what a `load` that returns has read.
* `fails_closed_iff` — the environments, and the values of ENV, for which the configuration fails
  closed.
-/

namespace BackendTemplate

open IpAddress

/-- `os.environ`: the variables that are set. -/
abbrev Environ := String → Option String

/-- `os.getenv(name, fallback)`. -/
def getenv (environ : Environ) (name fallback : String) : String := (environ name).getD fallback

/-- What `Settings.load` can raise: a `ConfigurationError`, one of those about a backend (it is not
'memory' or 'redis'), or the `ValueError` of a number. -/
inductive SettingsError
  | configuration (message : String)
  | backend (name got : String)
  | value (text : String)
deriving DecidableEq

/-! ### Numbers -/

/-- The zeros of the decimal digits of Unicode. The other nine follow each of them. -/
def digitZeros : List ℕ :=
  [0x30, 0x660, 0x6f0, 0x7c0, 0x966, 0x9e6, 0xa66, 0xae6, 0xb66, 0xbe6, 0xc66, 0xce6, 0xd66, 0xde6,
    0xe50, 0xed0, 0xf20, 0x1040, 0x1090, 0x17e0, 0x1810, 0x1946, 0x19d0, 0x1a80, 0x1a90, 0x1b50,
    0x1bb0, 0x1c40, 0x1c50, 0xa620, 0xa8d0, 0xa900, 0xa9d0, 0xa9f0, 0xaa50, 0xabf0, 0xff10, 0x104a0,
    0x10d30, 0x10d40, 0x11066, 0x110f0, 0x11136, 0x111d0, 0x112f0, 0x11450, 0x114d0, 0x11650,
    0x116c0, 0x116d0, 0x116da, 0x11730, 0x118e0, 0x11950, 0x11bf0, 0x11c50, 0x11d50, 0x11da0,
    0x11f50, 0x16a60, 0x16ac0, 0x16b50, 0x16d70, 0x1ccf0, 0x1d7ce, 0x1d7d8, 0x1d7e2, 0x1d7ec,
    0x1d7f6, 0x1e140, 0x1e2f0, 0x1e4f0, 0x1e5f1, 0x1e950, 0x1fbf0]

/-- The value of a decimal digit. -/
def digitValue (c : Char) : Option ℕ :=
  (digitZeros.find? fun z => z ≤ c.toNat && c.toNat < z + 10).map fun z => c.toNat - z

/-- Digits, with single underscores between them. -/
def digitPart (s : Text) : Option (List ℕ) :=
  ((s.splitOn '_').mapM fun group =>
    if group = [] then none else group.mapM digitValue).map List.flatten

/-- A sign, and what follows it. -/
def signed : Text → Bool × Text
  | '-' :: s => (true, s)
  | '+' :: s => (false, s)
  | s => (false, s)

/-- `sys.int_info.default_max_str_digits`. -/
def maxIntDigits : ℕ := 4300

/-- `int(s)`; `none` where it raises `ValueError`. -/
def pyInt (s : String) : Option ℤ :=
  let (negative, digits) := signed (strip s.toList)
  match digitPart digits with
  | none => none
  | some ds =>
      if maxIntDigits < ds.length then none
      else
        let n : ℕ := ds.foldl (fun n d => 10 * n + d) 0
        some (if negative then -(n : ℤ) else n)

/-- The digits before and after a decimal point, at least one of them. -/
def isPointNumber (s : Text) : Bool :=
  match s.span (· != '.') with
  | (whole, []) => (digitPart whole).isSome
  | ([], _ :: fraction) => (digitPart fraction).isSome
  | (whole, _ :: fraction) =>
      (digitPart whole).isSome && (fraction.isEmpty || (digitPart fraction).isSome)

/-- Whether `float(s)` is a number: that it does not raise `ValueError`. -/
def isFloat (s : String) : Bool :=
  let (_, number) := signed (strip s.toList)
  if String.ofList (number.map Char.toLower) ∈ ["inf", "infinity", "nan"] then true
  else
    match number.span fun c => c != 'e' && c != 'E' with
    | (mantissa, []) => isPointNumber mantissa
    | (mantissa, _ :: exponent) => isPointNumber mantissa && (digitPart (signed exponent).2).isSome

/-! ### The variables -/

section Variables

variable (environ : Environ)

/-- `int(getenv(name, fallback))`. -/
def intVar (name fallback : String) : Except SettingsError ℤ :=
  match pyInt (getenv environ name fallback) with
  | some n => .ok n
  | none => .error (.value (getenv environ name fallback))

/-- `float(getenv(name, fallback))`, as its text. -/
def floatVar (name fallback : String) : Except SettingsError String :=
  if isFloat (getenv environ name fallback) then .ok (getenv environ name fallback)
  else .error (.value (getenv environ name fallback))

/-- `getenv(name, fallback).lower() == 'true'`. No letter outside ASCII is lowered to one of these,
and so with "development" below. -/
def boolVar (name fallback : String) : Bool := (getenv environ name fallback).toLower == "true"

/-- `CacheBackend` and `RateLimitBackend`. -/
inductive Backend
  | memory
  | redis
deriving DecidableEq

/-- The backend that a variable names. -/
def backendVar (name : String) : Except SettingsError Backend :=
  let backend := getenv environ name "memory"
  if backend = "memory" then .ok .memory
  else if backend = "redis" then .ok .redis
  else .error (.backend name backend)

end Variables

/-! ### The configurations -/

/-- `SQLAlchemyConfig`. -/
structure SQLAlchemyConfig where
  host : String := "localhost"
  port : ℤ := 5432
  database : String := "test"
  user : String := ""
  password : String := ""
  echo : Bool := false
  poolSize : ℤ := 10
  maxOverflow : ℤ := 10
  poolTimeout : ℤ := 30
  poolRecycleSeconds : ℤ := 1800
  statementTimeoutMs : ℤ := 30000
  applicationName : String := "backend-template"

/-- `SQLAlchemyConfig.from_environ`. -/
def SQLAlchemyConfig.fromEnviron (environ : Environ) : Except SettingsError SQLAlchemyConfig := do
  pure
    { host := getenv environ "POSTGRES_HOST" "localhost"
      port := ← intVar environ "POSTGRES_PORT" "5432"
      database := getenv environ "POSTGRES_DB" "preprod"
      user := getenv environ "POSTGRES_USER" ""
      password := getenv environ "POSTGRES_PASSWORD" ""
      echo := boolVar environ "POSTGRES_ECHO" "false"
      poolSize := ← intVar environ "POSTGRES_POOL_SIZE" "10"
      maxOverflow := ← intVar environ "POSTGRES_MAX_OVERFLOW" "10"
      poolTimeout := ← intVar environ "POSTGRES_POOL_TIMEOUT" "30"
      poolRecycleSeconds := ← intVar environ "POSTGRES_POOL_RECYCLE_SECONDS" "1800"
      statementTimeoutMs := ← intVar environ "POSTGRES_STATEMENT_TIMEOUT_MS" "30000"
      applicationName := getenv environ "POSTGRES_APPLICATION_NAME" "backend-template" }

/-- `CacheConfig`. -/
structure CacheConfig where
  backend : Backend := .memory
  redisUrl : String := "redis://localhost:6379/0"

/-- `CacheConfig.from_environ`. -/
def CacheConfig.fromEnviron (environ : Environ) : Except SettingsError CacheConfig := do
  pure
    { backend := ← backendVar environ "CACHE_BACKEND"
      redisUrl := getenv environ "REDIS_URL" "redis://localhost:6379/0" }

/-- `RateLimitConfig`, as it is read. -/
structure RateLimitSettings where
  backend : Backend := .memory
  redisUrl : String := "redis://localhost:6379/0"
  maxRequests : ℤ := 100
  windowSeconds : ℤ := 60
  maxLoginAttempts : ℤ := 5
  lockoutSeconds : ℤ := 900
  cleanupIntervalSeconds : ℤ := 300
  maxKeys : ℤ := 10000

/-- `RateLimitConfig.from_environ`. -/
def RateLimitSettings.fromEnviron (environ : Environ) : Except SettingsError RateLimitSettings := do
  pure
    { backend := ← backendVar environ "RATE_LIMIT_BACKEND"
      redisUrl := getenv environ "REDIS_URL" "redis://localhost:6379/0"
      maxRequests := ← intVar environ "RATE_LIMIT_MAX_REQUESTS" "100"
      windowSeconds := ← intVar environ "RATE_LIMIT_WINDOW_SECONDS" "60"
      maxLoginAttempts := ← intVar environ "RATE_LIMIT_LOGIN_ATTEMPTS" "5"
      lockoutSeconds := ← intVar environ "RATE_LIMIT_LOCKOUT_SECONDS" "900"
      cleanupIntervalSeconds := ← intVar environ "RATE_LIMIT_CLEANUP_INTERVAL_SECONDS" "300"
      maxKeys := ← intVar environ "RATE_LIMIT_MAX_KEYS" "10000" }

/-- `HydraConfig`. -/
structure HydraSettings where
  adminUrl : String := "http://localhost:4445"
  publicUrl : String := "http://localhost:4444"
  loginRememberSeconds : ℤ := 3600
  consentRememberSeconds : ℤ := 2592000
  introspectionCacheTtlSeconds : ℤ := 30
  introspectionNegativeCacheTtlSeconds : ℤ := 10
  requestTimeoutSeconds : String := "5.0"

/-- `if not getenv(name): raise ConfigurationError(...)`. -/
def requireVar (environ : Environ) (name : String) : Except SettingsError Unit :=
  if getenv environ name "" = "" then
    .error (.configuration (name ++ " must be set in production"))
  else .ok ()

/-- The check of `HydraConfig.from_environ`. -/
def HydraSettings.requireUrls (environ : Environ) : Except SettingsError Unit :=
  if getenv environ "ENV" "development" = "production" then do
    requireVar environ "HYDRA_ADMIN_URL"
    requireVar environ "HYDRA_PUBLIC_URL"
  else .ok ()

/-- `HydraConfig.from_environ`. -/
def HydraSettings.fromEnviron (environ : Environ) : Except SettingsError HydraSettings := do
  HydraSettings.requireUrls environ
  pure
    { adminUrl := getenv environ "HYDRA_ADMIN_URL" "http://localhost:4445"
      publicUrl := getenv environ "HYDRA_PUBLIC_URL" "http://localhost:4444"
      loginRememberSeconds := ← intVar environ "HYDRA_LOGIN_REMEMBER_SECONDS" "3600"
      consentRememberSeconds := ← intVar environ "HYDRA_CONSENT_REMEMBER_SECONDS" "2592000"
      introspectionCacheTtlSeconds :=
        ← intVar environ "HYDRA_INTROSPECTION_CACHE_TTL_SECONDS" "30"
      introspectionNegativeCacheTtlSeconds :=
        ← intVar environ "HYDRA_INTROSPECTION_NEGATIVE_CACHE_TTL_SECONDS" "10"
      requestTimeoutSeconds := ← floatVar environ "HYDRA_REQUEST_TIMEOUT_SECONDS" "5.0" }

/-- `RabbitMQConfig`. -/
structure RabbitMQConfig where
  host : String := "localhost"
  port : ℤ := 5672
  user : String := "guest"
  password : String := "guest"
  virtualhost : String := "/"

/-- `RabbitMQConfig.from_environ`. -/
def RabbitMQConfig.fromEnviron (environ : Environ) : Except SettingsError RabbitMQConfig := do
  pure
    { host := getenv environ "RABBITMQ_HOST" "localhost"
      port := ← intVar environ "RABBITMQ_PORT" "5672"
      user := getenv environ "RABBITMQ_USER" "guest"
      password := getenv environ "RABBITMQ_PASSWORD" "guest"
      virtualhost := getenv environ "RABBITMQ_VIRTUALHOST" "/" }

/-- `EmailConfig`. -/
structure EmailConfig where
  host : String := "localhost"
  port : ℤ := 587
  username : String := ""
  password : String := ""
  useTls : Bool := true
  fromAddr : String := "noreply@example.com"
  appBaseUrl : String := "http://localhost:8000"

/-- `EmailConfig.from_environ`. -/
def EmailConfig.fromEnviron (environ : Environ) : Except SettingsError EmailConfig := do
  pure
    { host := getenv environ "SMTP_HOST" "localhost"
      port := ← intVar environ "SMTP_PORT" "587"
      username := getenv environ "SMTP_USERNAME" ""
      password := getenv environ "SMTP_PASSWORD" ""
      useTls := boolVar environ "SMTP_USE_TLS" "true"
      fromAddr := getenv environ "SMTP_FROM_ADDR" "noreply@example.com"
      appBaseUrl := getenv environ "APP_BASE_URL" "http://localhost:8000" }

/-- `ObservabilityConfig`. -/
structure ObservabilityConfig where
  enabled : Bool := false
  serviceName : String := "backend-template"
  serviceVersion : String := "1.0.0"
  otlpEndpoint : Option String := none

/-- `ObservabilityConfig.from_environ`. -/
def ObservabilityConfig.fromEnviron (environ : Environ) : ObservabilityConfig where
  enabled := boolVar environ "OTEL_ENABLED" "false"
  serviceName := getenv environ "OTEL_SERVICE_NAME" "backend-template"
  serviceVersion := getenv environ "OTEL_SERVICE_VERSION" "1.0.0"
  otlpEndpoint := (environ "OTEL_EXPORTER_OTLP_ENDPOINT").filter (· != "")

/-! ### The settings -/

/-- `Settings`. -/
structure Settings where
  environment : String
  appSecretKey : String
  secretEncryptionKey : String
  database : SQLAlchemyConfig
  cache : CacheConfig
  rateLimit : RateLimitSettings
  hydra : HydraSettings
  rabbitmq : RabbitMQConfig
  email : EmailConfig
  observability : ObservabilityConfig

namespace Settings

/-- `MIN_SECRET_LENGTH`. -/
def minSecretLength : ℕ := 32

/-- `PLACEHOLDER`. -/
def placeholder : String := "change-me"

/-- `_fail`. -/
def fail (message : String) : Except SettingsError Unit :=
  .error (.configuration (message ++ ". Generate secrets with: openssl rand -hex 32"))

/-- `if bad: _fail(message)`. -/
def failIf (bad : Bool) (message : String) : Except SettingsError Unit :=
  if bad then fail message else .ok ()

/-- `_require_secret`. -/
def requireSecret (name value : String) : Except SettingsError Unit := do
  failIf (value == "") (name ++ " must be set")
  failIf (occursIn placeholder value) (name ++ " is still the placeholder from .env.dist")
  failIf (value.length < minSecretLength)
    (name ++ " must be at least " ++ toString minSecretLength ++ " characters")

/-- `_IN_MEMORY_CACHE_MESSAGE`. -/
def inMemoryCacheMessage : String :=
  "CACHE_BACKEND must be \"redis\" outside development. The in-memory cache is per-process, " ++
    "which silently breaks pending 2FA challenges and introspection caching across replicas"

/-- `_IN_MEMORY_LIMITER_MESSAGE`. -/
def inMemoryLimiterMessage : String :=
  "RATE_LIMIT_BACKEND must be \"redis\" outside development. A per-process limiter multiplies " ++
    "every configured limit by the number of replicas"

/-- `Settings.is_production`. -/
def isProduction (s : Settings) : Bool := s.environment.toLower != "development"

/-- `Settings.validate`. -/
def validate (s : Settings) : Except SettingsError Unit :=
  if !s.isProduction then .ok ()
  else do
    requireSecret "APP_SECRET_KEY" s.appSecretKey
    requireSecret "SECRET_ENCRYPTION_KEY" s.secretEncryptionKey
    failIf (s.database.user == "" || s.database.password == "")
      "POSTGRES_USER and POSTGRES_PASSWORD must be set"
    failIf (s.cache.backend != .redis) inMemoryCacheMessage
    failIf (s.rateLimit.backend != .redis) inMemoryLimiterMessage

/-- `Settings.load`. -/
def load (environ : Environ) : Except SettingsError Settings := do
  let settings : Settings :=
    { environment := getenv environ "ENV" "production"
      appSecretKey := getenv environ "APP_SECRET_KEY" ""
      secretEncryptionKey := getenv environ "SECRET_ENCRYPTION_KEY" ""
      database := ← SQLAlchemyConfig.fromEnviron environ
      cache := ← CacheConfig.fromEnviron environ
      rateLimit := ← RateLimitSettings.fromEnviron environ
      hydra := ← HydraSettings.fromEnviron environ
      rabbitmq := ← RabbitMQConfig.fromEnviron environ
      email := ← EmailConfig.fromEnviron environ
      observability := ObservabilityConfig.fromEnviron environ }
  settings.validate
  pure settings

end Settings

/-! ### What is checked -/

section Checks

variable {environ environ' : Environ} {s : Settings} {name value : String}

/-- A check that is followed by others. -/
theorem then_eq_ok {x y : Except SettingsError Unit} :
    (x >>= fun _ => y) = .ok () ↔ x = .ok () ∧ y = .ok () := by
  cases x with
  | error e => exact iff_of_false (by rintro ⟨⟩) (by rintro ⟨⟨⟩, -⟩)
  | ok u => exact (and_iff_right rfl).symm

theorem failIf_ok_iff {bad : Bool} {message : String} :
    Settings.failIf bad message = .ok () ↔ bad = false := by
  cases bad with
  | true => exact iff_of_false (by rintro ⟨⟩) (by rintro ⟨⟩)
  | false => exact iff_of_true rfl rfl

theorem requireVar_ok_iff : requireVar environ name = .ok () ↔ getenv environ name "" ≠ "" := by
  rw [requireVar]
  split
  · rename_i hempty
    exact iff_of_false (by rintro ⟨⟩) (not_not.mpr hempty)
  · rename_i hset
    exact iff_of_true rfl hset

/-- **A secret that will do**: long enough, and not the placeholder. -/
structure Secure (value : String) : Prop where
  length : Settings.minSecretLength ≤ value.length
  noPlaceholder : occursIn Settings.placeholder value = false

theorem requireSecret_ok_iff : Settings.requireSecret name value = .ok () ↔ Secure value := by
  rw [Settings.requireSecret, then_eq_ok, then_eq_ok, failIf_ok_iff, failIf_ok_iff, failIf_ok_iff,
    decide_eq_false_iff_not, Nat.not_lt]
  constructor
  · rintro ⟨-, hplaceholder, hlength⟩
    exact ⟨hlength, hplaceholder⟩
  · intro h
    refine ⟨beq_eq_false_iff_ne.mpr ?_, h.noPlaceholder, h.length⟩
    rintro rfl
    exact absurd h.length (by decide)

/-- **What production needs** of the settings, apart from the URLs of Hydra. -/
structure Settings.Checked (s : Settings) : Prop where
  appSecretKey : Secure s.appSecretKey
  secretEncryptionKey : Secure s.secretEncryptionKey
  user : s.database.user ≠ ""
  password : s.database.password ≠ ""
  cache : s.cache.backend = .redis
  rateLimit : s.rateLimit.backend = .redis

/-- **What `validate` asks for** in production. -/
theorem validate_ok_iff (hprod : s.isProduction = true) : s.validate = .ok () ↔ s.Checked := by
  have hchecks : s.validate = .ok () ↔ Secure s.appSecretKey ∧ Secure s.secretEncryptionKey ∧
      (s.database.user ≠ "" ∧ s.database.password ≠ "") ∧ s.cache.backend = .redis ∧
        s.rateLimit.backend = .redis := by
    rw [Settings.validate, hprod, if_neg (by decide)]
    simp only [then_eq_ok, requireSecret_ok_iff, failIf_ok_iff, Bool.or_eq_false_iff,
      beq_eq_false_iff_ne, bne_eq_false_iff_eq, ne_eq]
  rw [hchecks]
  constructor
  · rintro ⟨happ, hkey, ⟨huser, hpassword⟩, hcache, hlimit⟩
    exact ⟨happ, hkey, huser, hpassword, hcache, hlimit⟩
  · intro h
    exact ⟨h.appSecretKey, h.secretEncryptionKey, ⟨h.user, h.password⟩, h.cache, h.rateLimit⟩

/-- **What a `load` that returns has read.** -/
structure Loaded (environ : Environ) (s : Settings) : Prop where
  environment : s.environment = getenv environ "ENV" "production"
  appSecretKey : s.appSecretKey = getenv environ "APP_SECRET_KEY" ""
  secretEncryptionKey : s.secretEncryptionKey = getenv environ "SECRET_ENCRYPTION_KEY" ""
  database : SQLAlchemyConfig.fromEnviron environ = .ok s.database
  cache : CacheConfig.fromEnviron environ = .ok s.cache
  rateLimit : RateLimitSettings.fromEnviron environ = .ok s.rateLimit
  hydra : HydraSettings.fromEnviron environ = .ok s.hydra
  rabbitmq : RabbitMQConfig.fromEnviron environ = .ok s.rabbitmq
  email : EmailConfig.fromEnviron environ = .ok s.email
  observability : s.observability = ObservabilityConfig.fromEnviron environ
  valid : s.validate = .ok ()

theorem Settings.load_ok_iff : Settings.load environ = .ok s ↔ Loaded environ s := by
  constructor
  · intro h
    obtain ⟨database, hdatabase, h⟩ := except_bind_eq_ok.mp h
    obtain ⟨cache, hcache, h⟩ := except_bind_eq_ok.mp h
    obtain ⟨rateLimit, hlimit, h⟩ := except_bind_eq_ok.mp h
    obtain ⟨hydra, hhydra, h⟩ := except_bind_eq_ok.mp h
    obtain ⟨rabbitmq, hrabbitmq, h⟩ := except_bind_eq_ok.mp h
    obtain ⟨email, hemail, h⟩ := except_bind_eq_ok.mp h
    obtain ⟨⟨⟩, hvalid, h⟩ := except_bind_eq_ok.mp h
    obtain rfl := Except.ok.inj h
    exact ⟨rfl, rfl, rfl, hdatabase, hcache, hlimit, hhydra, hrabbitmq, hemail, rfl, hvalid⟩
  · intro h
    cases s with
    | mk environment appSecretKey secretEncryptionKey database cache rateLimit hydra rabbitmq email
        observability =>
        obtain ⟨rfl, rfl, rfl, hdatabase, hcache, hlimit, hhydra, hrabbitmq, hemail, rfl, hvalid⟩ := h
        exact except_bind_eq_ok.mpr ⟨_, hdatabase, except_bind_eq_ok.mpr ⟨_, hcache,
          except_bind_eq_ok.mpr ⟨_, hlimit, except_bind_eq_ok.mpr ⟨_, hhydra,
            except_bind_eq_ok.mpr ⟨_, hrabbitmq, except_bind_eq_ok.mpr ⟨_, hemail,
              except_bind_eq_ok.mpr ⟨(), hvalid, rfl⟩⟩⟩⟩⟩⟩⟩

/-- **Hydra's URLs are set**: not left out, and not empty. -/
def HydraUrlsSet (environ : Environ) : Prop :=
  ∀ name ∈ ["HYDRA_ADMIN_URL", "HYDRA_PUBLIC_URL"], ∃ url, environ name = some url ∧ url ≠ ""

theorem getenv_ne_iff : getenv environ name "" ≠ "" ↔ ∃ v, environ name = some v ∧ v ≠ "" := by
  rw [getenv]
  cases environ name with
  | none => exact iff_of_false (not_not.mpr rfl) (by rintro ⟨v, ⟨⟩, -⟩)
  | some v => simp

/-- What is asked for when ENV is exactly "production". -/
theorem requireUrls_ok_iff : HydraSettings.requireUrls environ = .ok () ↔
    (environ "ENV" = some "production" → HydraUrlsSet environ) := by
  have hexact : getenv environ "ENV" "development" = "production" ↔
      environ "ENV" = some "production" := by
    rw [getenv]
    cases environ "ENV" with
    | none => exact iff_of_false (by decide) (by rintro ⟨⟩)
    | some v => simp
  rw [HydraSettings.requireUrls]
  split
  · rename_i hprod
    rw [then_eq_ok, requireVar_ok_iff, requireVar_ok_iff, getenv_ne_iff, getenv_ne_iff,
      HydraUrlsSet, List.forall_mem_cons, List.forall_mem_singleton]
    exact ⟨fun h _ => h, fun h => h (hexact.mp hprod)⟩
  · rename_i hprod
    exact iff_of_true rfl fun h => absurd (hexact.mpr h) hprod

/-- A configuration of Hydra that was read has passed the check. -/
theorem HydraSettings.urls_of_ok {hydra : HydraSettings}
    (h : HydraSettings.fromEnviron environ = .ok hydra) (hprod : environ "ENV" = some "production") :
    HydraUrlsSet environ := by
  obtain ⟨⟨⟩, hurls, -⟩ := except_bind_eq_ok.mp h
  exact requireUrls_ok_iff.mp hurls hprod

/-- **The configuration fails closed**: settings for production have all that production needs. -/
structure FailsClosed (environ : Environ) (s : Settings) : Prop where
  urls : HydraUrlsSet environ
  checked : s.Checked

/-- In production, everything is checked but the URLs of Hydra; they are as well when ENV is exactly
"production". -/
theorem Loaded.failsClosed_iff (h : Loaded environ s) (hprod : s.isProduction = true) :
    FailsClosed environ s ↔ environ "ENV" = some "production" ∨ HydraUrlsSet environ := by
  constructor
  · intro hclosed
    exact .inr hclosed.urls
  · rintro (hexact | hurls)
    · exact ⟨HydraSettings.urls_of_ok h.hydra hexact, (validate_ok_iff hprod).mp h.valid⟩
    · exact ⟨hurls, (validate_ok_iff hprod).mp h.valid⟩

/-! ### The same settings under another ENV -/

/-- **Only the check of Hydra's URLs depends on ENV**: settings that were read under one ENV are
read under another one, as long as that check passes there. -/
theorem Loaded.with_env (h : Loaded environ s)
    (hsame : ∀ name, name ≠ "ENV" → environ' name = environ name)
    (hurls : HydraSettings.requireUrls environ' = .ok ()) (hchecked : s.Checked) :
    Loaded environ' { s with environment := getenv environ' "ENV" "production" } := by
  have hgetenv : ∀ name fallback, name ≠ "ENV" →
      getenv environ' name fallback = getenv environ name fallback := by
    intro name fallback hname
    rw [getenv, hsame name hname, getenv]
  have hvalid : Settings.validate { s with environment := getenv environ' "ENV" "production" } =
      .ok () := by
    by_cases hprod : Settings.isProduction
        { s with environment := getenv environ' "ENV" "production" } = true
    · exact (validate_ok_iff hprod).mpr ⟨hchecked.appSecretKey, hchecked.secretEncryptionKey,
        hchecked.user, hchecked.password, hchecked.cache, hchecked.rateLimit⟩
    · rw [Settings.validate, Bool.eq_false_iff.mpr hprod]
      rfl
  have hhydra : HydraSettings.fromEnviron environ' = .ok s.hydra := by
    obtain ⟨⟨⟩, -, hread⟩ := except_bind_eq_ok.mp h.hydra
    refine except_bind_eq_ok.mpr ⟨(), hurls, ?_⟩
    simpa (disch := decide) only [intVar, floatVar, hgetenv] using hread
  exact
    { environment := rfl
      appSecretKey := h.appSecretKey.trans (hgetenv _ _ (by decide)).symm
      secretEncryptionKey := h.secretEncryptionKey.trans (hgetenv _ _ (by decide)).symm
      database := by
        rw [← h.database]
        simp (disch := decide) only [SQLAlchemyConfig.fromEnviron, intVar, boolVar, hgetenv]
      cache := by
        rw [← h.cache]
        simp (disch := decide) only [CacheConfig.fromEnviron, backendVar, hgetenv]
      rateLimit := by
        rw [← h.rateLimit]
        simp (disch := decide) only [RateLimitSettings.fromEnviron, intVar, backendVar, hgetenv]
      hydra := hhydra
      rabbitmq := by
        rw [← h.rabbitmq]
        simp (disch := decide) only [RabbitMQConfig.fromEnviron, intVar, hgetenv]
      email := by
        rw [← h.email]
        simp (disch := decide) only [EmailConfig.fromEnviron, intVar, boolVar, hgetenv]
      observability := by
        rw [h.observability]
        simp (disch := decide) only [ObservabilityConfig.fromEnviron, boolVar, hgetenv, hsame]
      valid := hvalid }

end Checks

/-- The least that production starts with, for a value of ENV: Hydra's URLs are not among it. -/
def bareEnviron (env : Option String) : Environ := fun name =>
  if name = "ENV" then env
  else [("APP_SECRET_KEY", "5f1d7a0c93be46288f2ce01b7d4a96e3"),
    ("SECRET_ENCRYPTION_KEY", "0b7e24c1f8d94a5596d30e8cf1a72b4d"), ("POSTGRES_USER", "app"),
    ("POSTGRES_PASSWORD", "app"), ("CACHE_BACKEND", "redis"), ("RATE_LIMIT_BACKEND", "redis")].lookup
      name

theorem bareEnviron_no_urls (env : Option String) : ¬ HydraUrlsSet (bareEnviron env) := by
  intro hurls
  obtain ⟨url, hurl, -⟩ := hurls "HYDRA_ADMIN_URL" List.mem_cons_self
  cases hurl

/-- The service starts without Hydra's URLs, for every value of ENV but "production". -/
theorem bareEnviron_loads {env : Option String} (henv : env ≠ some "production") :
    ∃ s, Settings.load (bareEnviron env) = .ok s ∧ s.environment = env.getD "production" := by
  have hunset : (Settings.load (bareEnviron none)).isOk = true := by decide +kernel
  cases hload : Settings.load (bareEnviron none) with
  | error e =>
      rw [hload] at hunset
      cases hunset
  | ok s =>
      have h := Settings.load_ok_iff.mp hload
      have hprod : s.isProduction = true := by
        rw [Settings.isProduction, h.environment]
        decide +kernel
      have hloaded : Loaded (bareEnviron env) _ := h.with_env
        (fun name hname => by rw [bareEnviron, if_neg hname, bareEnviron, if_neg hname])
        (requireUrls_ok_iff.mpr fun hexact => absurd hexact henv)
        ((validate_ok_iff hprod).mp h.valid)
      exact ⟨_, Settings.load_ok_iff.mpr hloaded, rfl⟩

/-- **When the configuration fails closed**, by the value of ENV, set or unset. Settings that were
loaded for production have everything that production needs if and only if ENV is exactly
"production" or the URLs of Hydra happen to be set. And every environment with this value fails
closed if and only if it is exactly "production", or it is "development", in any spelling of the
case. -/
theorem fails_closed_iff (env : Option String) :
    (∀ environ s, environ "ENV" = env → Settings.load environ = .ok s → s.isProduction = true →
      (FailsClosed environ s ↔ env = some "production" ∨ HydraUrlsSet environ)) ∧
    ((∀ environ s, environ "ENV" = env → Settings.load environ = .ok s → s.isProduction = true →
        FailsClosed environ s) ↔
      env = some "production" ∨ (env.getD "production").toLower = "development") := by
  have hloaded : ∀ environ s, environ "ENV" = env → Settings.load environ = .ok s →
      s.isProduction = true →
      (FailsClosed environ s ↔ env = some "production" ∨ HydraUrlsSet environ) := by
    rintro environ s rfl hload hprod
    exact (Settings.load_ok_iff.mp hload).failsClosed_iff hprod
  refine ⟨hloaded, fun h => ?_, ?_⟩
  · by_contra hnot
    obtain ⟨hexact, hdev⟩ := not_or.mp hnot
    obtain ⟨s, hload, henvironment⟩ := bareEnviron_loads hexact
    have hprod : s.isProduction = true := by
      rw [Settings.isProduction, henvironment]
      exact bne_iff_ne.mpr hdev
    exact bareEnviron_no_urls env (h (bareEnviron env) s rfl hload hprod).urls
  · rintro hcases environ s henv hload hprod
    rcases hcases with hexact | hdev
    · exact (hloaded environ s henv hload hprod).mpr (.inl hexact)
    · rw [Settings.isProduction, (Settings.load_ok_iff.mp hload).environment, getenv, henv, hdev]
        at hprod
      cases hprod

/-- With ENV unset the service starts in production without Hydra's URLs, on the ones of a
development machine. -/
theorem starts_without_hydra : ∃ s, Settings.load (bareEnviron none) = .ok s ∧
    s.isProduction = true ∧ s.hydra.adminUrl = "http://localhost:4445" ∧
    ¬ FailsClosed (bareEnviron none) s := by
  have hstarted : (Settings.load (bareEnviron none)).map
      (fun s => (s.isProduction, s.hydra.adminUrl)) = .ok (true, "http://localhost:4445") := by
    decide +kernel
  cases hload : Settings.load (bareEnviron none) with
  | error e =>
      rw [hload] at hstarted
      cases hstarted
  | ok s =>
      rw [hload] at hstarted
      have hread : (s.isProduction, s.hydra.adminUrl) = (true, "http://localhost:4445") :=
        Except.ok.inj hstarted
      exact ⟨s, rfl, (Prod.mk.inj hread).1, (Prod.mk.inj hread).2,
        fun hclosed => bareEnviron_no_urls none hclosed.urls⟩

end BackendTemplate
