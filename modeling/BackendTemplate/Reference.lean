import BackendTemplate.Codecs
import BackendTemplate.World

/-!
# A Reference Environment

An environment in which the service can be run on paper. Digests and one-time passwords are
tabulated with the values of the real algorithms on the inputs that occur; the other library
functions are the codecs of `BackendTemplate.Codecs`, with stand-ins for the password hash and
the cipher that keep their laws. The digest is injective (`sha256_injective`), so that results
that assume so are not empty.

The module also holds an account and the worlds the concrete runs of this development start in.
-/

namespace BackendTemplate.Reference

open Codecs

/-! ### Digests and one-time passwords -/

/-- SHA-256 on the texts that occur, as numbers. -/
def digests : List (String × ℕ) :=
  [("p7Vd2RkXq0ZsLm5Yt8Bn3Wc6Hf1Jg4Ta9Ue-Ox_EiKr",
      0x4e6ac3065c7e7e825b08eba9cb61e00465060335c3b23d9b55dd54b683b3c6fc),
    ("Zk3vQ9mTe8RcWb2LxPf6YhJd0sNaUg7Ko4iCqEy1Hz0",
      0xddd9134cca8e44b81e29dadef265f3270fa79fc58d14d17e7bb0f37a66b74d9c),
    ("Zk3vQ9mTe8RcWb2LxPf6YhJd0sNaUg7Ko4iCqEy1Hz1",
      0x00cf99cd24dfbfc6cedff9233bf0902a875ea4dea38cabcf0c76c0ea8f3daad6),
    ("Zk3vQ9mTe8RcWb2LxPf6YhJd0sNaUg7Ko4iCqEy1Hz2",
      0xc2b0f1e6cee0d8dbb2829c5e0dfd3e8d350f5fe7e43b943ca2342e96c1287285),
    ("Zk3vQ9mTe8RcWb2LxPf6YhJd0sNaUg7Ko4iCqEy1Hz3",
      0xe315b77e5874d6d09299968d392c15eeae21e8cb2cef5f771855a77a89219d94),
    ("Zk3vQ9mTe8RcWb2LxPf6YhJd0sNaUg7Ko4iCqEy1Hz4",
      0x56675b7c664a40ce3870cc35beb6dd5360aa8c172865a2a2a5f4e74051b1c58f),
    ("Zk3vQ9mTe8RcWb2LxPf6YhJd0sNaUg7Ko4iCqEy1Hz5",
      0x45172b1dcde9538230b768ec6f936166a992a7c6aa968722416e8ecb653d5e1b),
    ("Zk3vQ9mTe8RcWb2LxPf6YhJd0sNaUg7Ko4iCqEy1Hz6",
      0x94ee3d2ed1baebc1566df656aad932702b25a6ae288a52d705c61c6f921f9ab6),
    ("Zk3vQ9mTe8RcWb2LxPf6YhJd0sNaUg7Ko4iCqEy1Hz7",
      0xa2971536c8e89a4eafa686bb84af2ba3766aef0f09e91e1859ec6be61fe8983d),
    ("Zk3vQ9mTe8RcWb2LxPf6YhJd0sNaUg7Ko4iCqEy1Hz8",
      0xfe01365bed4599ab687df0da65361ce94fcfdf740d2295d1320cfe46dade095a),
    ("Zk3vQ9mTe8RcWb2LxPf6YhJd0sNaUg7Ko4iCqEy1Hz9",
      0x850d6ece7c58db4301723a044536e511229003e95495ce82d198c417cfbd547d),
    ("Zk3vQ9mTe8RcWb2LxPf6YhJd0sNaUg7Ko4iCqEy1Hz10",
      0x4ceadce003d8fa152b5a24031a2beaa0cdf9126e27ca1f2e4ae6db0a4ef277f2),
    ("Zk3vQ9mTe8RcWb2LxPf6YhJd0sNaUg7Ko4iCqEy1Hz11",
      0x76ff14121dc4f60549537e7e63c97b0d248afa2f18124e9a2205c96084644bee),
    ("Zk3vQ9mTe8RcWb2LxPf6YhJd0sNaUg7Ko4iCqEy1Hz12",
      0xb3da00b885711e25e359128eb28b6e16329691e266882a276bfaf9f451ece651),
    ("Zk3vQ9mTe8RcWb2LxPf6YhJd0sNaUg7Ko4iCqEy1Hz13",
      0xef5b58eba7d075758aa6abbde494a123a0a5f9569a5ec0b858d2aed90be53a29),
    ("Zk3vQ9mTe8RcWb2LxPf6YhJd0sNaUg7Ko4iCqEy1Hz14",
      0x5252f90640ace5d9546c9c4301b844574ceb65139f6a49b7b461c9b72a4dac7c),
    ("Zk3vQ9mTe8RcWb2LxPf6YhJd0sNaUg7Ko4iCqEy1Hz15",
      0x84a916dfe2ce7fa5cf164753f20d596d066f313d71259d7986ae3bec9679d093),
    ("Zk3vQ9mTe8RcWb2LxPf6YhJd0sNaUg7Ko4iCqEy1Hz16",
      0xd4772d99e59a636ab57831865aa690f8da733925405c2ad3b4ffcb8663972300),
    ("Zk3vQ9mTe8RcWb2LxPf6YhJd0sNaUg7Ko4iCqEy1Hz17",
      0xddcf58c3e5df747da42197e904592072a60a26505227cf81707d2f6d0d4051b0),
    ("Zk3vQ9mTe8RcWb2LxPf6YhJd0sNaUg7Ko4iCqEy1Hz18",
      0xe1326fb914e257a2675b2c0b18c38c486fd39fc7663ef710f8c28c2bc44da64a),
    ("Zk3vQ9mTe8RcWb2LxPf6YhJd0sNaUg7Ko4iCqEy1Hz19",
      0xad3931e3562563162a0acfe1335bdabc28219975b45378576de2fa9706c9fa00),
    ("Zk3vQ9mTe8RcWb2LxPf6YhJd0sNaUg7Ko4iCqEy1Hz20",
      0xeaeb089a0cc5b797bef36011a2993a83e99d77264c580260d9a7dcb2003f1154),
    ("Zk3vQ9mTe8RcWb2LxPf6YhJd0sNaUg7Ko4iCqEy1Hz21",
      0x4b376276bf35b6c79ae45e4a93bdf9541692c2afd20e7e7635f1f5f3a04f32a8),
    ("Zk3vQ9mTe8RcWb2LxPf6YhJd0sNaUg7Ko4iCqEy1Hz22",
      0x0e282a8abec283c755742b01fa22b79399f9e51d69de31302e8db3a167e00a56),
    ("Zk3vQ9mTe8RcWb2LxPf6YhJd0sNaUg7Ko4iCqEy1Hz23",
      0x65b47a64a15e024a9a2f565b7ba693aa76f673b0aaeeea71405415ce2c0ca120),
    ("Zk3vQ9mTe8RcWb2LxPf6YhJd0sNaUg7Ko4iCqEy1Hz24",
      0x507f4e02af99b105a423f6278402788400fac073f8128ed71eeb305be3c257a1),
    ("Zk3vQ9mTe8RcWb2LxPf6YhJd0sNaUg7Ko4iCqEy1Hz25",
      0xf7dbf4047140952a224840a3558929456486d58a6140fcd2603ff5e17a080196),
    ("Zk3vQ9mTe8RcWb2LxPf6YhJd0sNaUg7Ko4iCqEy1Hz26",
      0x38e0b4ee3b4824f5e3ef8cefdb3537e3f56299eb71b45cf4024560bd8eb6accf),
    ("Zk3vQ9mTe8RcWb2LxPf6YhJd0sNaUg7Ko4iCqEy1Hz27",
      0xf529238f023b428d337878aeabf786bd688f5b438a3d2d9521274ac257f177f2),
    ("Zk3vQ9mTe8RcWb2LxPf6YhJd0sNaUg7Ko4iCqEy1Hz28",
      0x930210ad764264f69f89caab2728475fc1a767916c1a518ae21ae23cfe964cf8),
    ("Zk3vQ9mTe8RcWb2LxPf6YhJd0sNaUg7Ko4iCqEy1Hz29",
      0x9409fa64fa0307600ea3781c33741d68fa0d4ed067598aa50a45539157b0038c),
    ("Zk3vQ9mTe8RcWb2LxPf6YhJd0sNaUg7Ko4iCqEy1Hz30",
      0xfa95e30e98bc8f2bea4227bf041655dbc4b469b2d20509e8d4ae718c3f224e66),
    ("Zk3vQ9mTe8RcWb2LxPf6YhJd0sNaUg7Ko4iCqEy1Hz31",
      0x2fdc37a0fef36e38ac75241015ff08b13ce4158c2be2d6133fbdb666d913a3e9),
    ("Zk3vQ9mTe8RcWb2LxPf6YhJd0sNaUg7Ko4iCqEy1Hz32",
      0xeed64e6791f24b74b9043d36d083f67af03688da464da1d66181d8c88cb30af0),
    ("Zk3vQ9mTe8RcWb2LxPf6YhJd0sNaUg7Ko4iCqEy1Hz33",
      0xc6aef018dfb6d1435e7f35330b206ffb0761cf660a695d36c014cf5d201217f4),
    ("Zk3vQ9mTe8RcWb2LxPf6YhJd0sNaUg7Ko4iCqEy1Hz34",
      0xfbbd124727bbd3d02eae87c486cd8b8bb336fb7a80398f18beef66efbfb9c3f8),
    ("Zk3vQ9mTe8RcWb2LxPf6YhJd0sNaUg7Ko4iCqEy1Hz35",
      0xf1c4b8d79e6fe096429372dc3ab83e13984f33ae9e5c56a5bf2cc560ae538dcd),
    ("Zk3vQ9mTe8RcWb2LxPf6YhJd0sNaUg7Ko4iCqEy1Hz36",
      0x58b986839b7b0257d31ec4ca7a5d7fd435cd2d67155f67f8ff4921d035ac55a9),
    ("Zk3vQ9mTe8RcWb2LxPf6YhJd0sNaUg7Ko4iCqEy1Hz37",
      0x0249fe24584f2d6a20592509c0797a360243cb149a2cb4154c93ea8569e9becf),
    ("Zk3vQ9mTe8RcWb2LxPf6YhJd0sNaUg7Ko4iCqEy1Hz38",
      0x88f11d02e6f7563b76042346c4ffb2842ebedb331f89c879d8e6d85ccad6402b),
    ("Zk3vQ9mTe8RcWb2LxPf6YhJd0sNaUg7Ko4iCqEy1Hz39",
      0xdf11885ef704b92b1c561efe646bb210a12c188f6d41f9be4c4df9db124baea6),
    ("6f1c3e52-8d0a-4b7e-9c21-000000000002",
      0xc84676788fb4fc72ca3fdbe42076ed3ebf6b52e9918de44e2d96d7bdc0a861a1),
    ("a7c3000000000001",
      0x38c12fe89cdb7fa660fb9a676d10710d38d1cb9e0cc0ed9ce7389dc295205dd4),
    ("000000",
      0x91b4d142823f7d20c5f08df69122de43f35f057a988d9619f6d3138485c9a203),
    ("2c9e1f70-5b3d-4e88-a1c4-0000000000a1:324550",
      0x0789f6dc77cf5799497b9579ba571707290e7354dd74ec09a26fd9b7ca72ffc3),
    ("2c9e1f70-5b3d-4e88-a1c4-0000000000a1:367665",
      0x079434de08f4c7b51742856926d0d461a516e93dbd49583111099313d51169ea),
    ("2c9e1f70-5b3d-4e88-a1c4-0000000000a1:725971",
      0xf96529c6b7368f650a34bbc490ac8170957b8b0a08f28871eb1743c795214f4a),
    ("2c9e1f70-5b3d-4e88-a1c4-0000000000a1:000000",
      0x81b6cc061c1370846967806610448e837b37db8875fb88737c19dc719554bb7f),
    ("2c9e1f70-5b3d-4e88-a1c4-0000000000a1:a7c3000000000001",
      0x2ddfb46b35773a8f8a1e574da22f0c02fb7b5bc8bf678b4f04f3f43f62556cdc),
    ("2c9e1f70-5b3d-4e88-a1c4-0000000000a1:３２４５５０",
      0xd75da9bfce8cb3acf784bce8a2ed9de473ce645bafb80092d95bff49537a85bd)]

/-- The last `k` bytes of a number. -/
def bigEndian : ℕ → ℕ → Bytes
  | 0, _ => []
  | k + 1, n => bigEndian k (n / 256) ++ [UInt8.ofNat n]

/-- A digest: the tabulated one, or a stand-in that is longer than any of them. -/
def sha256 (s : String) : Bytes :=
  match digests.find? fun e => e.1 = s with
  | some e => bigEndian 32 e.2
  | none => List.replicate 33 0 ++ toBytes s

theorem bigEndian_length (k n : ℕ) : (bigEndian k n).length = k := by
  induction k generalizing n with
  | zero => rfl
  | succ k ih => rw [bigEndian, List.length_append, ih, List.length_singleton]

theorem bigEndian_injective {k m n : ℕ} (h : bigEndian k m = bigEndian k n) :
    m % 256 ^ k = n % 256 ^ k := by
  induction k generalizing m n with
  | zero => simp [Nat.mod_one]
  | succ k ih =>
      rw [bigEndian, bigEndian] at h
      obtain ⟨hhigh, hlow⟩ := List.append_inj' h rfl
      have hbyte := congrArg UInt8.toNat (List.singleton_inj.mp hlow)
      rw [UInt8.toNat_ofNat', UInt8.toNat_ofNat'] at hbyte
      have hmod : m % 256 = n % 256 := hbyte
      rw [Nat.pow_succ', Nat.mod_mul, Nat.mod_mul, ih hhigh, hmod]

theorem digests_distinct : ∀ e ∈ digests, ∀ e' ∈ digests,
    e.2 % 256 ^ 32 = e'.2 % 256 ^ 32 → e.1 = e'.1 := by
  decide +kernel

/-- A digest is that of a tabulated text, or it shows its text. -/
theorem sha256_cases (s : String) :
    (∃ e ∈ digests, e.1 = s ∧ sha256 s = bigEndian 32 e.2) ∨
      sha256 s = List.replicate 33 0 ++ toBytes s := by
  rw [sha256]
  cases h : digests.find? fun e => e.1 = s with
  | none => exact Or.inr rfl
  | some e => exact Or.inl ⟨e, List.mem_of_find?_eq_some h, by simpa using List.find?_some h, rfl⟩

theorem sha256_ne_nil (s : String) : sha256 s ≠ [] := by
  rcases sha256_cases s with ⟨e, -, -, hs⟩ | hs
  · rw [hs]
    intro hnil
    have := bigEndian_length 32 e.2
    rw [hnil] at this
    exact absurd this (by decide)
  · rw [hs]
    simp

/-- **Different texts have different digests.** -/
theorem sha256_injective : Function.Injective sha256 := by
  have hlong : ∀ {s : String}, sha256 s = List.replicate 33 0 ++ toBytes s →
      ∀ n, sha256 s ≠ bigEndian 32 n := by
    intro s hs n heq
    have hlen := bigEndian_length 32 n
    rw [← heq, hs, List.length_append, List.length_replicate] at hlen
    omega
  intro s s' h
  rcases sha256_cases s with ⟨e, he, rfl, hs⟩ | hs
  · rcases sha256_cases s' with ⟨e', he', rfl, hs'⟩ | hs'
    · exact digests_distinct e he e' he' (bigEndian_injective (hs.symm.trans (h.trans hs')))
    · exact absurd (h.symm.trans hs) (hlong hs' e.2)
  · rcases sha256_cases s' with ⟨e', he', rfl, hs'⟩ | hs'
    · exact absurd (h.trans hs') (hlong hs e'.2)
    · rw [hs, hs', List.append_cancel_left_eq] at h
      exact toBytes_injective h

/-- The seed of the account's second factor. -/
def seed : String := "JBSWY3DPEHPK3PXP"

/-- `generate_otp` for the seed, at the time steps that occur. -/
def generateOtp : ℤ → String
  | 56666665 => "822542"
  | 56666666 => "324550"
  | 56666667 => "367665"
  | 56666668 => "870960"
  | 56666678 => "519640"
  | 56666679 => "725971"
  | 56666680 => "293768"
  | _ => "000000"

/-- Full-width digits, which NFKC maps to their ASCII forms. -/
def normalizeChar (c : Char) : Char :=
  if 0xff10 ≤ c.toNat ∧ c.toNat ≤ 0xff19 then Char.ofNat (c.toNat - 0xff10 + 48) else c

/-! ### Time -/

/-- Two digits. -/
def twoDigits (n : ℕ) : List Char := [hexDigit (n / 10 % 10), hexDigit (n % 10)]

/-- The civil date of a day number (days since 1970-01-01), for days from 1970 on. -/
def civilDate (day : ℕ) : ℕ × ℕ × ℕ :=
  let z := day + 719468
  let era := z / 146097
  let doe := z % 146097
  let yoe := (doe - doe / 1460 + doe / 36524 - doe / 146096) / 365
  let doy := doe - (365 * yoe + yoe / 4 - yoe / 100)
  let mp := (5 * doy + 2) / 153
  let m := if mp < 10 then mp + 3 else mp - 9
  (yoe + era * 400 + (if m ≤ 2 then 1 else 0), m, doy - (153 * mp + 2) / 5 + 1)

/-- `datetime.isoformat` of an instant from 1970 on, to the second. -/
def isoformat (t : Instant) : String :=
  let s := (t / seconds 1).toNat
  let d := civilDate (s / 86400)
  String.ofList (twoDigits (d.1 / 100) ++ twoDigits d.1 ++ '-' :: (twoDigits d.2.1 ++
    '-' :: (twoDigits d.2.2 ++ 'T' :: (twoDigits (s / 3600 % 24) ++ ':' :: (twoDigits (s / 60 % 60) ++
    ':' :: (twoDigits (s % 60) ++ "+00:00".toList))))))

/-! ### Random sources -/

/-- The `n`-th `uuid.uuid4()`. -/
def uuid4 (n : ℕ) : Uuid := 0x6f1c3e528d0a4b7e9c21000000000000 + n

/-- The `n`-th `secrets.token_urlsafe(32)`. -/
def tokenUrlsafe (n : ℕ) : String :=
  String.ofList ("Zk3vQ9mTe8RcWb2LxPf6YhJd0sNaUg7Ko4iCqEy1Hz".toList ++ numeral 10 n)

/-- The `n`-th `secrets.token_hex(8)`. -/
def tokenHex (n : ℕ) : String := String.ofList (numeral 16 (0xa7c3000000000000 + n))

theorem tokenUrlsafe_injective : Function.Injective tokenUrlsafe := by
  intro m n h
  have hlist := String.ofList_inj.mp h
  rw [List.append_cancel_left_eq] at hlist
  exact numeral_injective (by decide) (by decide) hlist

theorem tokenHex_injective : Function.Injective tokenHex := by
  intro m n h
  have := numeral_injective (by decide) (by decide) (String.ofList_inj.mp h)
  omega

theorem hexDigit_ne_upper : ∀ d < 16, hexDigit d ≠ 'Z' := by
  decide

theorem tokenHex_chars {n : ℕ} {c : Char} (h : c ∈ (tokenHex n).toList) : c ≠ '-' ∧ c ≠ 'Z' := by
  rw [tokenHex, String.toList_ofList] at h
  obtain ⟨d, hd, rfl⟩ := mem_numeral (by decide) (by decide) h
  exact ⟨(hexDigit_ne d hd).1, hexDigit_ne_upper d hd⟩

theorem tokenUrlsafe_head : 'Z' ∈ "Zk3vQ9mTe8RcWb2LxPf6YhJd0sNaUg7Ko4iCqEy1Hz".toList ∧
    ∀ c ∈ "Zk3vQ9mTe8RcWb2LxPf6YhJd0sNaUg7Ko4iCqEy1Hz".toList, c ≠ '-' := by
  simp

theorem tokenUrlsafe_chars (n : ℕ) :
    'Z' ∈ (tokenUrlsafe n).toList ∧ ∀ c ∈ (tokenUrlsafe n).toList, c ≠ '-' := by
  have hlist : (tokenUrlsafe n).toList =
      "Zk3vQ9mTe8RcWb2LxPf6YhJd0sNaUg7Ko4iCqEy1Hz".toList ++ numeral 10 n := String.toList_ofList
  have hhead := tokenUrlsafe_head
  rw [hlist]
  -- from here on the head is opaque, or the unifier evaluates it
  generalize "Zk3vQ9mTe8RcWb2LxPf6YhJd0sNaUg7Ko4iCqEy1Hz".toList = head at hhead ⊢
  refine ⟨List.mem_append_left _ hhead.1, fun c hc => ?_⟩
  rcases List.mem_append.mp hc with hc | hc
  · exact hhead.2 c hc
  · obtain ⟨d, hd, rfl⟩ := mem_numeral (by decide) (by decide) hc
    exact (hexDigit_ne d hd).1

theorem dash_mem_uuidStr (u : Uuid) : '-' ∈ (uuidStr u).toList := by
  rw [uuidStr, String.toList_ofList]
  exact List.mem_append_right _ List.mem_cons_self

/-! ### Passwords and the cipher -/

/-- The head of a password hash. -/
def hashHead (n : ℕ) : Bytes := [0x24, 0x32, 0x62, 0x24, UInt8.ofNat n]

/-- `bcrypt.hashpw`, as far as `bcrypt.checkpw` can tell. -/
def hashpw (n : ℕ) (s : String) : Bytes := hashHead n ++ toBytes s

/-- `bcrypt.checkpw`. -/
def checkpw (s : String) (b : Bytes) : Bool := b.drop 5 = toBytes s

/-- The version byte and initialisation vector of a ciphertext. -/
def cipherHead (n : ℕ) : Bytes := 0x80 :: List.replicate 16 (UInt8.ofNat n)

/-- `Fernet.encrypt`, as far as `Fernet.decrypt` can tell. -/
def encrypt (n : ℕ) (s : String) : Bytes := cipherHead n ++ toBytes s

/-- `Fernet.decrypt`. -/
def decrypt (b : Bytes) : Option String :=
  if b.headD 0 = 0x80 then ofBytes (b.drop 17) else none

theorem decrypt_encrypt (n : ℕ) (s : String) : decrypt (encrypt n s) = some s := by
  have hdrop : (encrypt n s).drop 17 = toBytes s := List.drop_left' rfl
  rw [decrypt, hdrop]
  exact ofBytes_toBytes s

/-- **The reference environment.** -/
def env : Env where
  sha256 := sha256
  sha256_ne_nil := sha256_ne_nil
  islower c := decide ('a' ≤ c ∧ c ≤ 'z')
  isupper c := decide ('A' ≤ c ∧ c ≤ 'Z')
  isdigit := isAsciiDigit
  isalnum c := isAsciiLetter c || isAsciiDigit c
  lower s := String.ofList (s.toList.map Char.toLower)
  uuidStr := uuidStr
  parseUuid := parseUuid
  parseUuid_uuidStr := parseUuid_uuidStr
  isoformat := isoformat
  checkpw := checkpw
  hashpw := hashpw
  hashpw_ne_nil n s := by simp [hashpw, hashHead]
  encrypt := encrypt
  encrypt_ne_nil n s := by simp [encrypt, cipherHead]
  decrypt := decrypt
  decrypt_encrypt := decrypt_encrypt
  totp secret k := if secret = seed then generateOtp k else "000000"
  provisioningUri secret name issuer :=
    "otpauth://totp/" ++ issuer ++ ":" ++ name ++ "?secret=" ++ secret ++ "&issuer=" ++ issuer
  nfkc s := String.ofList (s.toList.map normalizeChar)
  uuid4 := uuid4
  uuid4_injective m n h := by
    have : 0x6f1c3e528d0a4b7e9c21000000000000 + m = 0x6f1c3e528d0a4b7e9c21000000000000 + n := h
    omega
  uuid4_ne_nil n := by
    have : uuid4 n = 0x6f1c3e528d0a4b7e9c21000000000000 + n := rfl
    simp [this, nilUuid]
  tokenUrlsafe := tokenUrlsafe
  tokenUrlsafe_injective := tokenUrlsafe_injective
  tokenHex := tokenHex
  tokenHex_injective := tokenHex_injective
  randomBase32 _ := seed
  dumpJson := dumpJson
  validateJson := validateJson
  validateJson_dumpJson := validateJson_dumpJson

/-! ### An account and its worlds -/

/-- 2023-11-14T22:13:20 UTC. -/
def clock : Instant := seconds 1700000000

/-- The id of the account. -/
def aliceId : Uuid := 0x2c9e1f705b3d4e88a1c40000000000a1

/-- The password of the account. -/
def password : String := "Correct-Horse-9"

/-- The account, with or without an active second factor and its recovery codes. -/
def alice (secondFactor : Bool) (codes : List String := []) : UserRow where
  id := aliceId
  version := 3
  username := "alice"
  email := some "alice@example.com"
  hashedPassword := hashpw 0 password
  deletedAt := none
  isLocked := false
  lockedAt := none
  lockReason := none
  failedAttempts := 0
  lockUntil := none
  isEmailVerified := false
  emailVerificationTokenHash := none
  emailVerifiedAt := none
  emailVerificationExpiresAt := none
  passwordResetTokenHash := none
  passwordResetCreatedAt := none
  passwordResetExpiresAt := none
  passwordResetUsed := false
  twoFactorSecret := if secondFactor then some (encrypt 1 seed) else none
  twoFactorEnabledAt := if secondFactor then some clock else none
  twoFactorBackupCodes :=
    if secondFactor then some (codes.map fun code => hex (sha256 code)) else none

/-- A session of the account. -/
def session : SessionRow where
  sessionId := 0x2c9e1f705b3d4e88a1c40000000000c1
  userId := aliceId
  userAgent := none
  ipAddress := none
  deviceName := none
  browser := none
  os := none
  isMobile := false
  createdAt := clock
  expiresAt := clock + seconds 2592000
  isRevoked := false

/-- The refresh token of the session, as the client holds it. -/
def presented : String := "p7Vd2RkXq0ZsLm5Yt8Bn3Wc6Hf1Jg4Ta9Ue-Ox_EiKr"

/-- The row of the refresh token. -/
def token : RefreshTokenRow where
  id := 0x2c9e1f705b3d4e88a1c40000000000d1
  sessionId := session.sessionId
  tokenHash := sha256 presented
  expiresAt := clock + seconds 604800
  isRevoked := false
  createdAt := clock

/-- The tables with the account, and with its session if it has one. -/
def tables (user : UserRow) (signedIn : Bool) : Db where
  users := [user]
  sessions := if signedIn then [session] else []
  refreshTokens := if signedIn then [token] else []

/-- A quiet service over some tables. -/
def world (ι : Type) (db : Db) (cache : InMemoryCache := .empty) : World ι where
  db := db
  txs _ := {}
  cache := cache
  clock := clock
  rng := 0

/-- Let request `i` make `n` moves. -/
def moves {ι : Type} (i : ι) (n : ℕ) : List (Atomic.Label ι Choice ℕ) :=
  List.replicate n (.act i {})

/-- Let some seconds pass. -/
def wait {ι : Type} (n : ℕ) : List (Atomic.Label ι Choice ℕ) := [.env (n * 1000000)]

end BackendTemplate.Reference
