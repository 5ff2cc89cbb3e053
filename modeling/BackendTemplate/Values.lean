import Mathlib.Data.Int.Notation
import Mathlib.Data.List.Basic
import Mathlib.Logic.Function.Basic

/-!
# Instants, Identifiers, Errors and Value Objects

The scalar layer of the service: instants, identifiers, byte strings and their hex form,
the errors a request can end with, and the value objects whose constructors validate
(`Username`, `Email`, `PlainPassword`, `HashedPassword`, `TokenHash`, `UserID`). A value
object is a structure that carries the validation it passed, so an invalid one cannot be
built; its `make` is the constructor of the source, which raises.

`Env` collects everything the service calls but does not contain: digests, password
hashing, the cipher, the one-time-password algorithm, Unicode tables, the random sources
and the JSON codec of the cached challenge. Each documented law of these is a field.

Random sources are indexed: `uuid4 n` is the `n`-th draw. A draw is never repeated, which
is what the injectivity fields say.
-/

namespace BackendTemplate

/-! ### Instants, identifiers, bytes -/

/-- An instant, in microseconds UTC: the resolution of a Python `datetime`. -/
abbrev Instant := ℤ

/-- A duration of `n` seconds. -/
def seconds (n : ℤ) : ℤ := n * 1000000

/-- A duration of `n` minutes. -/
def minutes (n : ℤ) : ℤ := seconds (n * 60)

/-- A duration of `n` hours. -/
def hours (n : ℤ) : ℤ := minutes (n * 60)

/-- `RateLimitResult`. -/
structure RateLimitResult where
  allowed : Bool
  remaining : ℤ
  resetAt : Option Instant
deriving DecidableEq

/-- `RateLimitResult.retry_after_seconds`: `int` truncates toward zero. -/
def RateLimitResult.retryAfterSeconds (r : RateLimitResult) (now : Instant) : Option ℤ :=
  r.resetAt.map fun t => max 1 ((t - now).tdiv (seconds 1))

/-- A UUID, as the integer it denotes. -/
abbrev Uuid := ℕ

/-- `UUID(int=0)`. -/
def nilUuid : Uuid := 0

/-- A byte string. -/
abbrev Bytes := List UInt8

/-- The lower-case hex digit of a nibble. -/
def hexDigit (n : ℕ) : Char := if n < 10 then Char.ofNat (48 + n) else Char.ofNat (87 + n)

/-- The value of a hex digit, in either case. -/
def hexValue (c : Char) : Option ℕ :=
  if '0' ≤ c ∧ c ≤ '9' then some (c.toNat - 48)
  else if 'a' ≤ c ∧ c ≤ 'f' then some (c.toNat - 87)
  else if 'A' ≤ c ∧ c ≤ 'F' then some (c.toNat - 55)
  else none

/-- The characters of `bytes.hex()`. -/
def hexChars : Bytes → List Char
  | [] => []
  | b :: bs => hexDigit (b.toNat / 16) :: hexDigit (b.toNat % 16) :: hexChars bs

/-- `bytes.hex()`. -/
def hex (b : Bytes) : String := String.ofList (hexChars b)

/-- ASCII whitespace, which `bytes.fromhex` skips between two bytes. -/
def isHexSpace (c : Char) : Bool :=
  c = ' ' || c = '\t' || c = '\n' || c = '\r' || c = '\x0b' || c = '\x0c'

/-- `bytes.fromhex` on the characters of its argument. -/
def fromHexChars : List Char → Option Bytes
  | [] => some []
  | c :: cs =>
      if isHexSpace c then fromHexChars cs
      else match cs with
        | [] => none
        | d :: ds => do
            let hi ← hexValue c
            let lo ← hexValue d
            let rest ← fromHexChars ds
            pure (UInt8.ofNat (16 * hi + lo) :: rest)

/-- `bytes.fromhex`; `none` where it raises `ValueError`. -/
def fromHex (s : String) : Option Bytes := fromHexChars s.toList

theorem hexDigit_spec : ∀ n < 16, hexValue (hexDigit n) = some n ∧
    isHexSpace (hexDigit n) = false := by
  decide

theorem fromHexChars_hexChars (b : Bytes) : fromHexChars (hexChars b) = some b := by
  induction b with
  | nil => rfl
  | cons b bs ih =>
      have hlt : b.toNat < 256 := b.toNat_lt
      obtain ⟨hhi, hsp⟩ := hexDigit_spec (b.toNat / 16) (by omega)
      obtain ⟨hlo, -⟩ := hexDigit_spec (b.toNat % 16) (by omega)
      have hb : UInt8.ofNat (16 * (b.toNat / 16) + b.toNat % 16) = b := by
        rw [Nat.div_add_mod, UInt8.ofNat_toNat]
      simp only [hexChars, fromHexChars, hsp, hhi, hlo, ih, Bool.false_eq_true, if_false,
        Option.bind_eq_bind, Option.bind_some, Option.pure_def, hb]

/-- `bytes.fromhex` reads back what `bytes.hex` wrote. -/
@[simp] theorem fromHex_hex (b : Bytes) : fromHex (hex b) = some b := by
  rw [fromHex, hex, String.toList_ofList, fromHexChars_hexChars]

/-! ### Errors -/

/-- How a request can fail: the domain and application errors of the source, the errors
of its value objects, and the two failures of the database. -/
inductive AppError
  | userIsDeleted (userId : Uuid)
  | usernameAlreadyExists (username : Option String)
  | emailAlreadyExists (email : Option String)
  | invalidCredentials (message : Option String)
  | userNotFound (userId : Option Uuid)
  | invalidToken (message : Option String)
  | accountLocked (userId : Option Uuid)
  | twoFactorAlreadyEnabled
  | twoFactorNotEnrolled
  | concurrentModification (entityId : Option Uuid)
  | refreshTokenReuse
  | tooManyLoginAttempts (retryAfterSeconds : Option ℤ)
  | twoFactorChallengeExpired
  | secretDecryption
  | emptyUsername (username : String)
  | tooLongUsername (username : String)
  | wrongUsernameFormat (username : String)
  | emptyEmail (email : String)
  | invalidEmailFormat (email : String)
  | emptyPassword (password : String)
  | passwordTooShort (password : String)
  | passwordTooLong (password : String)
  | passwordTooWeak (password : String)
  | wrongUserID (userId : Uuid)
  | wrongTokenHash
  | valueError (message : String)
  | integrityError
  | databaseError
deriving DecidableEq

/-- The errors with which a login tells its caller that the credentials were refused. -/
def AppError.verdict : AppError → Bool
  | .invalidCredentials none | .accountLocked _ => true
  | _ => false

/-- A sequence of fallible computations succeeds exactly when both parts do. -/
theorem except_bind_eq_ok {ε α β : Type} {x : Except ε α} {f : α → Except ε β} {b : β} :
    x >>= f = .ok b ↔ ∃ a, x = .ok a ∧ f a = .ok b := by
  cases x with
  | error e =>
      constructor
      · intro h
        cases h
      · rintro ⟨a, h, -⟩
        cases h
  | ok a =>
      constructor
      · intro h
        exact ⟨a, rfl, h⟩
      · rintro ⟨a', h, hf⟩
        obtain rfl := Except.ok.inj h
        exact hf

/-- What a sequence of fallible computations returns, each of its parts returned. -/
theorem mem_mapM_ok {ε α β : Type} {f : α → Except ε β} {l : List α} {l' : List β}
    (h : l.mapM f = .ok l') {b : β} (hb : b ∈ l') : ∃ a ∈ l, f a = .ok b := by
  induction l generalizing l' with
  | nil =>
      obtain rfl : [] = l' := Except.ok.inj h
      exact absurd hb List.not_mem_nil
  | cons a l ih =>
      rw [List.mapM_cons, except_bind_eq_ok] at h
      obtain ⟨b', hb', h⟩ := h
      rw [except_bind_eq_ok] at h
      obtain ⟨l₁, hl₁, h⟩ := h
      obtain rfl : b' :: l₁ = l' := Except.ok.inj h
      rcases List.mem_cons.mp hb with rfl | hb
      · exact ⟨a, List.mem_cons_self, hb'⟩
      · obtain ⟨a', ha', hf⟩ := ih hl₁ hb
        exact ⟨a', List.mem_cons_of_mem _ ha', hf⟩

/-- Every part of a sequence of fallible computations contributes to what it returns. -/
theorem mapM_ok_of_mem {ε α β : Type} {f : α → Except ε β} {l : List α} {l' : List β}
    (h : l.mapM f = .ok l') {a : α} (ha : a ∈ l) : ∃ b ∈ l', f a = .ok b := by
  induction l generalizing l' with
  | nil => exact absurd ha List.not_mem_nil
  | cons a' l ih =>
      rw [List.mapM_cons, except_bind_eq_ok] at h
      obtain ⟨b', hb', h⟩ := h
      rw [except_bind_eq_ok] at h
      obtain ⟨l₁, hl₁, h⟩ := h
      obtain rfl : b' :: l₁ = l' := Except.ok.inj h
      rcases List.mem_cons.mp ha with rfl | ha
      · exact ⟨b', List.mem_cons_self, hb'⟩
      · obtain ⟨b, hb, hf⟩ := ih hl₁ ha
        exact ⟨b, List.mem_cons_of_mem _ hb, hf⟩

/-- A sequence of fallible computations that all succeed succeeds. -/
theorem mapM_ok {ε α β : Type} {f : α → Except ε β} {l : List α}
    (h : ∀ a ∈ l, ∃ b, f a = .ok b) : ∃ l', l.mapM f = .ok l' := by
  induction l with
  | nil => exact ⟨[], rfl⟩
  | cons a l ih =>
      obtain ⟨b, hb⟩ := h a List.mem_cons_self
      obtain ⟨l', hl'⟩ := ih fun a' ha' => h a' (List.mem_cons_of_mem _ ha')
      refine ⟨b :: l', ?_⟩
      rw [List.mapM_cons, hb, hl']
      rfl

/-- What a sequence of fallible computations returns has the keys of its parts, in order. -/
theorem map_of_mapM_ok {ε α β γ : Type} {f : α → Except ε β} {key : α → γ} {key' : β → γ}
    (hf : ∀ a b, f a = .ok b → key' b = key a) {l : List α} {l' : List β}
    (h : l.mapM f = .ok l') : l'.map key' = l.map key := by
  induction l generalizing l' with
  | nil =>
      obtain rfl : [] = l' := Except.ok.inj h
      rfl
  | cons a l ih =>
      rw [List.mapM_cons, except_bind_eq_ok] at h
      obtain ⟨b', hb', h⟩ := h
      rw [except_bind_eq_ok] at h
      obtain ⟨l₁, hl₁, h⟩ := h
      obtain rfl : b' :: l₁ = l' := Except.ok.inj h
      rw [List.map_cons, List.map_cons, hf a b' hb', ih hl₁]

/-! ### What the service calls but does not contain -/

/-- `_StoredChallenge`: the cached form of a pending two-factor challenge. -/
structure StoredChallenge where
  userId : Uuid
  userAgent : Option String := none
  ipAddress : Option String := none
  attempts : ℕ := 0
  loginChallenge : Option String := none
deriving DecidableEq

/-- The **environment**: the third-party and library functions the service calls, with
their documented laws. -/
structure Env where
  /-- `hashlib.sha256(s.encode()).digest()`. -/
  sha256 : String → Bytes
  sha256_ne_nil : ∀ s, sha256 s ≠ []
  /-- `str.islower` and its siblings, on one character. -/
  islower : Char → Bool
  isupper : Char → Bool
  isdigit : Char → Bool
  isalnum : Char → Bool
  /-- `str.lower`. -/
  lower : String → String
  /-- `str(uuid)`. -/
  uuidStr : Uuid → String
  /-- `UUID(s)`; `none` where it raises `ValueError`. -/
  parseUuid : String → Option Uuid
  parseUuid_uuidStr : ∀ u, parseUuid (uuidStr u) = some u
  /-- `datetime.isoformat`. -/
  isoformat : Instant → String
  /-- `bcrypt.checkpw`. -/
  checkpw : String → Bytes → Bool
  /-- `bcrypt.hashpw` with the `n`-th salt. -/
  hashpw : ℕ → String → Bytes
  hashpw_ne_nil : ∀ n s, hashpw n s ≠ []
  /-- `Fernet.encrypt` with the `n`-th initialisation vector. -/
  encrypt : ℕ → String → Bytes
  encrypt_ne_nil : ∀ n s, encrypt n s ≠ []
  /-- `Fernet.decrypt`; `none` where it raises `InvalidToken`. -/
  decrypt : Bytes → Option String
  decrypt_encrypt : ∀ n s, decrypt (encrypt n s) = some s
  /-- `pyotp.TOTP(secret).generate_otp(counter)`. -/
  totp : String → ℤ → String
  /-- `pyotp.TOTP(secret).provisioning_uri(name=username, issuer_name=issuer)`. -/
  provisioningUri : String → String → String → String
  /-- `unicodedata.normalize('NFKC', s)`. -/
  nfkc : String → String
  /-- `uuid.uuid4()`, the `n`-th draw. -/
  uuid4 : ℕ → Uuid
  uuid4_injective : Function.Injective uuid4
  uuid4_ne_nil : ∀ n, uuid4 n ≠ nilUuid
  /-- `secrets.token_urlsafe(32)`, the `n`-th draw. -/
  tokenUrlsafe : ℕ → String
  tokenUrlsafe_injective : Function.Injective tokenUrlsafe
  /-- `secrets.token_hex`, the `n`-th draw. -/
  tokenHex : ℕ → String
  tokenHex_injective : Function.Injective tokenHex
  /-- `pyotp.random_base32()`, the `n`-th draw. -/
  randomBase32 : ℕ → String
  /-- `_StoredChallenge.model_dump_json`. -/
  dumpJson : StoredChallenge → String
  /-- `_StoredChallenge.model_validate_json`; `none` where it raises. -/
  validateJson : String → Option StoredChallenge
  validateJson_dumpJson : ∀ c, validateJson (dumpJson c) = some c

/-! ### Value objects -/

/-- `[A-Za-z]`. -/
def isAsciiLetter (c : Char) : Bool := ('a' ≤ c ∧ c ≤ 'z') || ('A' ≤ c ∧ c ≤ 'Z')

/-- `[0-9]`. -/
def isAsciiDigit (c : Char) : Bool := '0' ≤ c ∧ c ≤ '9'

/-- `$` in a Python pattern: the end of the string, or just before a final line break. -/
def atDollar : List Char → Bool
  | [] => true
  | [c] => c = '\n'
  | _ => false

/-- `[A-Za-z0-9_]`. -/
def isUsernameChar (c : Char) : Bool := isAsciiLetter c || isAsciiDigit c || c = '_'

/-- `USERNAME_PATTERN.match`: `^[A-Za-z][A-Za-z0-9_]+$`. The repetition cannot give back
a character that `$` would accept, so it is taken greedily. -/
def usernamePattern : List Char → Bool
  | [] => false
  | c :: cs =>
      isAsciiLetter c && !(cs.takeWhile isUsernameChar).isEmpty &&
        atDollar (cs.dropWhile isUsernameChar)

/-- `MAX_USERNAME_LENGTH`. -/
def maxUsernameLength : ℕ := 32

/-- `Username._validate`. -/
def Username.validate (s : String) : Except AppError Unit :=
  if s.length = 0 then .error (.emptyUsername s)
  else if s.length > maxUsernameLength then .error (.tooLongUsername s)
  else if !usernamePattern s.toList then .error (.wrongUsernameFormat s)
  else .ok ()

/-- A username, with the validation it passed. -/
structure Username where
  value : String
  valid : Username.validate value = .ok ()
deriving DecidableEq

/-- `Username(value)`. -/
def Username.make (s : String) : Except AppError Username :=
  match h : Username.validate s with
  | .ok () => .ok ⟨s, h⟩
  | .error e => .error e

/-- `[a-zA-Z0-9._%+-]`. -/
def isEmailLocalChar (c : Char) : Bool :=
  isAsciiLetter c || isAsciiDigit c || c = '.' || c = '_' || c = '%' || c = '+' || c = '-'

/-- `[a-zA-Z0-9.-]`. -/
def isEmailDomainChar (c : Char) : Bool :=
  isAsciiLetter c || isAsciiDigit c || c = '.' || c = '-'

/-- `[a-zA-Z0-9.-]+\.[a-zA-Z]{2,}` as a whole: the top-level part is what follows the
last dot, since it holds no dot itself. -/
def emailDomain (m : List Char) : Bool :=
  let tld := m.reverse.takeWhile (· != '.')
  tld.all isAsciiLetter && decide (2 ≤ tld.length) && decide (tld.length + 2 ≤ m.length)

/-- `EMAIL_PATTERN.match`: `^[a-zA-Z0-9._%+-]+@[a-zA-Z0-9.-]+\.[a-zA-Z]{2,}$`. -/
def emailPattern (s : List Char) : Bool :=
  match s.dropWhile isEmailLocalChar with
  | '@' :: rest =>
      !(s.takeWhile isEmailLocalChar).isEmpty &&
        emailDomain (rest.takeWhile isEmailDomainChar) &&
        atDollar (rest.dropWhile isEmailDomainChar)
  | _ => false

/-- `Email._validate`: no address at all is allowed. -/
def Email.validate : Option String → Except AppError Unit
  | none => .ok ()
  | some s =>
      if s = "" then .error (.emptyEmail s)
      else if !emailPattern s.toList then .error (.invalidEmailFormat s)
      else .ok ()

/-- An email address or its absence, with the validation it passed. -/
structure Email where
  value : Option String
  valid : Email.validate value = .ok ()
deriving DecidableEq

/-- `Email(value)`. -/
def Email.make (s : Option String) : Except AppError Email :=
  match h : Email.validate s with
  | .ok () => .ok ⟨s, h⟩
  | .error e => .error e

/-- `MIN_PASSWORD_LENGTH`. -/
def minPasswordLength : ℕ := 8

/-- `MAX_PASSWORD_BYTES`. -/
def maxPasswordBytes : ℕ := 72

/-- `_has_required_mix`. -/
def hasRequiredMix (env : Env) (s : String) : Bool :=
  s.toList.any env.islower && s.toList.any env.isupper && s.toList.any env.isdigit &&
    s.toList.any fun c => !env.isalnum c

/-- `PlainPassword._validate`. -/
def PlainPassword.validate (env : Env) (s : String) : Except AppError Unit :=
  if s = "" then .error (.emptyPassword s)
  else if s.length < minPasswordLength then .error (.passwordTooShort s)
  else if s.utf8ByteSize > maxPasswordBytes then .error (.passwordTooLong s)
  else if !hasRequiredMix env s then .error (.passwordTooWeak s)
  else .ok ()

/-- A clear-text password, with the validation it passed. -/
structure PlainPassword (env : Env) where
  value : String
  valid : PlainPassword.validate env value = .ok ()

/-- `PlainPassword(value)`. -/
def PlainPassword.make (env : Env) (s : String) : Except AppError (PlainPassword env) :=
  match h : PlainPassword.validate env s with
  | .ok () => .ok ⟨s, h⟩
  | .error e => .error e

/-- A password hash: not empty. -/
structure HashedPassword where
  value : Bytes
  ne_nil : value ≠ []
deriving DecidableEq

/-- `HashedPassword(value)`. -/
def HashedPassword.make (b : Bytes) : Except AppError HashedPassword :=
  if h : b ≠ [] then .ok ⟨b, h⟩ else .error (.valueError "Hashed password cannot be empty")

/-- The hash of an opaque token: not empty. -/
structure TokenHash where
  value : Bytes
  ne_nil : value ≠ []
deriving DecidableEq

/-- `TokenHash(value)`. -/
def TokenHash.make (b : Bytes) : Except AppError TokenHash :=
  if h : b ≠ [] then .ok ⟨b, h⟩ else .error .wrongTokenHash

/-- `TokenHash.from_raw`: a digest is not empty, so it is a valid hash. -/
def TokenHash.fromRaw (env : Env) (raw : String) : TokenHash where
  value := env.sha256 raw
  ne_nil := env.sha256_ne_nil raw

/-- The id of an account: not the nil UUID. -/
structure UserID where
  value : Uuid
  ne_nil : value ≠ nilUuid
deriving DecidableEq

/-- `UserID(value)`. -/
def UserID.make (u : Uuid) : Except AppError UserID :=
  if h : u ≠ nilUuid then .ok ⟨u, h⟩ else .error (.wrongUserID u)

theorem TokenHash.ext {a b : TokenHash} (h : a.value = b.value) : a = b := by
  cases a
  cases b
  subst h
  rfl

theorem UserID.ext {a b : UserID} (h : a.value = b.value) : a = b := by
  cases a
  cases b
  subst h
  rfl

theorem Username.make_ok {s : String} {u : Username} (h : Username.make s = .ok u) :
    u.value = s := by
  unfold Username.make at h
  split at h
  · rw [← Except.ok.inj h]
  · cases h

theorem Email.make_ok {s : Option String} {e : Email} (h : Email.make s = .ok e) :
    e.value = s := by
  unfold Email.make at h
  split at h
  · rw [← Except.ok.inj h]
  · cases h

theorem PlainPassword.make_ok {env : Env} {s : String} {p : PlainPassword env}
    (h : PlainPassword.make env s = .ok p) : p.value = s := by
  unfold PlainPassword.make at h
  split at h
  · rw [← Except.ok.inj h]
  · cases h

theorem HashedPassword.make_ok {b : Bytes} {p : HashedPassword}
    (h : HashedPassword.make b = .ok p) : p.value = b := by
  unfold HashedPassword.make at h
  split at h
  · rw [← Except.ok.inj h]
  · cases h

theorem TokenHash.make_ok {b : Bytes} {t : TokenHash} (h : TokenHash.make b = .ok t) :
    t.value = b := by
  unfold TokenHash.make at h
  split at h
  · rw [← Except.ok.inj h]
  · cases h

theorem UserID.make_ok {u : Uuid} {i : UserID} (h : UserID.make u = .ok i) :
    i.value = u := by
  unfold UserID.make at h
  split at h
  · rw [← Except.ok.inj h]
  · cases h

/-- A value object is rebuilt from the raw value it holds. -/
@[simp] theorem Username.make_value (u : Username) : Username.make u.value = .ok u := by
  unfold Username.make
  split
  · rfl
  · rename_i e h
    rw [u.valid] at h
    cases h

@[simp] theorem Email.make_value (e : Email) : Email.make e.value = .ok e := by
  unfold Email.make
  split
  · rfl
  · rename_i e' h
    rw [e.valid] at h
    cases h

@[simp] theorem PlainPassword.make_value {env : Env} (p : PlainPassword env) :
    PlainPassword.make env p.value = .ok p := by
  unfold PlainPassword.make
  split
  · rfl
  · rename_i e h
    rw [p.valid] at h
    cases h

@[simp] theorem HashedPassword.make_value (p : HashedPassword) :
    HashedPassword.make p.value = .ok p := by
  rw [HashedPassword.make, dif_pos p.ne_nil]

@[simp] theorem TokenHash.make_value (t : TokenHash) : TokenHash.make t.value = .ok t := by
  rw [TokenHash.make, dif_pos t.ne_nil]

@[simp] theorem UserID.make_value (u : UserID) : UserID.make u.value = .ok u := by
  rw [UserID.make, dif_pos u.ne_nil]

end BackendTemplate
