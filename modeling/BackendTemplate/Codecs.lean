import Mathlib.Data.Nat.Digits.Lemmas
import BackendTemplate.Values

/-!
# Codecs of the Libraries

The textual forms the service gets from its libraries, each with the parser that reads it
back: numerals, `str(uuid)`, the JSON of a stored challenge, and text as bytes. They show
that the laws `Env` asks of these libraries hold together, and they are what the reference
environment (`BackendTemplate.Reference`) is made of.

## Main results

* `parseUuid_uuidStr` — a UUID is read back from its canonical form.
* `validateJson_dumpJson` — a stored challenge is read back from its JSON.
* `ofBytes_toBytes` — a text is read back from its bytes.
-/

namespace BackendTemplate.Codecs

/-! ### Numerals -/

/-- The digits of a number, most significant first. -/
def numeral (b n : ℕ) : List Char :=
  if n = 0 then ['0'] else (b.digits n).reverse.map hexDigit

/-- The values of a sequence of digits. -/
def digitValues : List Char → Option (List ℕ)
  | [] => some []
  | c :: cs => do
      let d ← hexValue c
      let ds ← digitValues cs
      some (d :: ds)

/-- The number a sequence of digits denotes. -/
def numeralValue (b : ℕ) (cs : List Char) : Option ℕ :=
  (digitValues cs).map fun ds => Nat.ofDigits b ds.reverse

theorem digitValues_map {ds : List ℕ} (h : ∀ d ∈ ds, d < 16) :
    digitValues (ds.map hexDigit) = some ds := by
  induction ds with
  | nil => rfl
  | cons d ds ih =>
      have hd := (hexDigit_spec d (h d List.mem_cons_self)).1
      have hds := ih fun d' hd' => h d' (List.mem_cons_of_mem _ hd')
      simp [digitValues, hd, hds]

/-- Leading zeros do not change the value of a numeral. -/
theorem numeralValue_numeral {b : ℕ} (hb : 1 < b) (hb' : b ≤ 16) (k n : ℕ) :
    numeralValue b (List.replicate k '0' ++ numeral b n) = some n := by
  have hrep : List.replicate k '0' = (List.replicate k 0).map hexDigit := by
    rw [List.map_replicate]
    rfl
  rw [numeral, hrep]
  split
  · rename_i hn
    have hzero : ['0'] = [0].map hexDigit := rfl
    rw [hzero, ← List.map_append, numeralValue, digitValues_map]
    · simp [← List.replicate_succ', Nat.ofDigits_replicate_zero, hn]
    · intro d hd
      simp at hd
      omega
  · rw [← List.map_append, numeralValue, digitValues_map]
    · simp [Nat.ofDigits_append_replicate_zero, Nat.ofDigits_digits]
    · intro d hd
      rcases List.mem_append.mp hd with hd | hd
      · rw [List.eq_of_mem_replicate hd]
        decide
      · exact (Nat.digits_lt_base hb (List.mem_reverse.mp hd)).trans_le hb'

theorem numeral_injective {b : ℕ} (hb : 1 < b) (hb' : b ≤ 16) {m n : ℕ}
    (h : numeral b m = numeral b n) : m = n := by
  have hm := numeralValue_numeral hb hb' 0 m
  have hn := numeralValue_numeral hb hb' 0 n
  rw [h, hn] at hm
  exact (Option.some.inj hm).symm

/-- The characters of a numeral are hex digits. -/
theorem mem_numeral {b n : ℕ} (hb : 1 < b) (hb' : b ≤ 16) {c : Char} (h : c ∈ numeral b n) :
    ∃ d < 16, c = hexDigit d := by
  rw [numeral] at h
  split at h
  · rw [List.mem_singleton] at h
    exact ⟨0, by decide, h⟩
  · obtain ⟨d, hd, rfl⟩ := List.mem_map.mp h
    exact ⟨d, (Nat.digits_lt_base hb (List.mem_reverse.mp hd)).trans_le hb', rfl⟩

theorem hexDigit_ne : ∀ d < 16, hexDigit d ≠ '-' ∧ hexDigit d ≠ ',' := by
  decide

/-! ### UUIDs -/

/-- The 32 hex digits of a UUID. -/
def uuidHex (u : Uuid) : List Char :=
  List.replicate (32 - (numeral 16 u).length) '0' ++ numeral 16 u

/-- `str(uuid)`: groups of 8, 4, 4, 4 and 12 digits. -/
def uuidStr (u : Uuid) : String :=
  let h := uuidHex u
  String.ofList (h.take 8 ++ '-' :: ((h.drop 8).take 4 ++ '-' :: ((h.drop 12).take 4 ++
    '-' :: ((h.drop 16).take 4 ++ '-' :: h.drop 20))))

/-- `UUID(s)`: hyphens are dropped, and what is left has to be 32 hex digits. -/
def parseUuid (s : String) : Option Uuid :=
  let h := s.toList.filter (· ≠ '-')
  if 32 ≤ h.length then numeralValue 16 h else none

theorem uuidHex_ne_dash {u : Uuid} {c : Char} (h : c ∈ uuidHex u) : c ≠ '-' := by
  rcases List.mem_append.mp h with h | h
  · rw [List.eq_of_mem_replicate h]
    decide
  · obtain ⟨d, hd, rfl⟩ := mem_numeral (by decide) (by decide) h
    exact (hexDigit_ne d hd).1

/-- The hyphens are all that is dropped. -/
theorem filter_uuidStr (u : Uuid) : (uuidStr u).toList.filter (· ≠ '-') = uuidHex u := by
  have hkeep : ∀ l : List Char, l ⊆ uuidHex u → l.filter (· ≠ '-') = l := fun l hl =>
    List.filter_eq_self.mpr fun c hc => decide_eq_true (uuidHex_ne_dash (hl hc))
  have htake : ∀ n m, ((uuidHex u).drop n).take m ⊆ uuidHex u := fun n m =>
    List.Subset.trans (List.take_subset _ _) (List.drop_subset _ _)
  rw [uuidStr, String.toList_ofList]
  simp only [List.filter_append, List.filter_cons, ne_eq, not_true_eq_false, decide_false,
    Bool.false_eq_true, if_false]
  rw [hkeep _ (List.take_subset _ _), hkeep _ (htake 8 4), hkeep _ (htake 12 4),
    hkeep _ (htake 16 4), hkeep _ (List.drop_subset _ _)]
  have hjoin : ∀ n, ((uuidHex u).drop n).take 4 ++ (uuidHex u).drop (n + 4) = (uuidHex u).drop n :=
    fun n => by rw [← List.drop_drop, List.take_append_drop]
  rw [hjoin 16, hjoin 12, hjoin 8, List.take_append_drop]

/-- **A UUID is read back from its canonical form.** -/
theorem parseUuid_uuidStr (u : Uuid) : parseUuid (uuidStr u) = some u := by
  have hlen : 32 ≤ (uuidHex u).length := by
    rw [uuidHex, List.length_append, List.length_replicate]
    omega
  rw [parseUuid]
  simp only [filter_uuidStr]
  rw [if_pos hlen]
  exact numeralValue_numeral (by decide) (by decide) _ u

/-! ### Text as bytes -/

/-- The bytes of a character: its code point. -/
def charBytes (c : Char) : Bytes :=
  [UInt8.ofNat (c.toNat / 65536), UInt8.ofNat (c.toNat / 256 % 256), UInt8.ofNat (c.toNat % 256)]

/-- The bytes of a text. -/
def toBytes (s : String) : Bytes := s.toList.flatMap charBytes

/-- The characters of a sequence of bytes. -/
def bytesChars : Bytes → Option (List Char)
  | [] => some []
  | a :: b :: c :: bs =>
      (bytesChars bs).map fun cs =>
        Char.ofNat (a.toNat * 65536 + b.toNat * 256 + c.toNat) :: cs
  | _ => none

/-- The text of a sequence of bytes. -/
def ofBytes (b : Bytes) : Option String := (bytesChars b).map String.ofList

theorem bytesChars_flatMap (cs : List Char) : bytesChars (cs.flatMap charBytes) = some cs := by
  induction cs with
  | nil => rfl
  | cons c cs ih =>
      have hlt : c.toNat < 1114112 := by
        rcases c.valid with h | h
        · exact lt_trans h (by decide)
        · exact h.2
      have ha : (UInt8.ofNat (c.toNat / 65536)).toNat = c.toNat / 65536 := by
        rw [UInt8.toNat_ofNat']
        exact Nat.mod_eq_of_lt (by omega)
      have hb : (UInt8.ofNat (c.toNat / 256 % 256)).toNat = c.toNat / 256 % 256 := by
        rw [UInt8.toNat_ofNat']
        exact Nat.mod_eq_of_lt (by omega)
      have hc : (UInt8.ofNat (c.toNat % 256)).toNat = c.toNat % 256 := by
        rw [UInt8.toNat_ofNat']
        exact Nat.mod_eq_of_lt (by omega)
      have hsum : c.toNat / 65536 * 65536 + c.toNat / 256 % 256 * 256 + c.toNat % 256 = c.toNat := by
        omega
      rw [List.flatMap_cons, charBytes]
      simp only [List.cons_append, List.nil_append, bytesChars, ih, ha, hb, hc, hsum,
        Option.map_some, Char.ofNat_toNat]

/-- **A text is read back from its bytes.** -/
theorem ofBytes_toBytes (s : String) : ofBytes (toBytes s) = some s := by
  rw [ofBytes, toBytes, bytesChars_flatMap, Option.map_some, String.ofList_toList]

theorem toBytes_injective {s s' : String} (h : toBytes s = toBytes s') : s = s' := by
  have hs := ofBytes_toBytes s
  rw [h, ofBytes_toBytes] at hs
  exact (Option.some.inj hs).symm

/-! ### The JSON of a stored challenge -/

/-- The characters of a JSON string: quotes and backslashes are escaped. -/
def escape : List Char → List Char
  | [] => []
  | c :: cs => if c = '"' ∨ c = '\\' then '\\' :: c :: escape cs else c :: escape cs

/-- Read a JSON string up to its closing quote. -/
def readString : List Char → Option (List Char × List Char)
  | [] => none
  | [c] => if c = '"' then some ([], []) else none
  | c :: d :: cs =>
      if c = '"' then some ([], d :: cs)
      else if c = '\\' then (readString cs).map fun p => (d :: p.1, p.2)
      else (readString (d :: cs)).map fun p => (c :: p.1, p.2)

/-- Read a fixed text. -/
def expect (text cs : List Char) : Option (List Char) :=
  if text.isPrefixOf cs then some (cs.drop text.length) else none

/-- An optional text: `null` or a string. -/
def optionalText : Option String → List Char
  | none => "null".toList
  | some s => '"' :: (escape s.toList ++ ['"'])

/-- Read an optional text. -/
def readOptional : List Char → Option (Option String × List Char)
  | 'n' :: 'u' :: 'l' :: 'l' :: cs => some (none, cs)
  | '"' :: cs => (readString cs).map fun p => (some (String.ofList p.1), p.2)
  | _ => none

/-- The fixed texts of the JSON, in order. -/
def userIdKey : List Char := "\x7b\"user_id\":\"".toList

@[inherit_doc userIdKey]
def userAgentKey : List Char := ",\"user_agent\":".toList

@[inherit_doc userIdKey]
def ipAddressKey : List Char := ",\"ip_address\":".toList

@[inherit_doc userIdKey]
def attemptsKey : List Char := ",\"attempts\":".toList

@[inherit_doc userIdKey]
def loginChallengeKey : List Char := "\"login_challenge\":".toList

/-- `_StoredChallenge.model_dump_json`. -/
def dumpJson (c : StoredChallenge) : String :=
  String.ofList (userIdKey ++ (escape (uuidStr c.userId).toList ++ '"' ::
    (userAgentKey ++ (optionalText c.userAgent ++
    (ipAddressKey ++ (optionalText c.ipAddress ++
    (attemptsKey ++ (numeral 10 c.attempts ++ ',' ::
    (loginChallengeKey ++ (optionalText c.loginChallenge ++ ['\x7d']))))))))))

/-- `_StoredChallenge.model_validate_json`. -/
def validateJson (s : String) : Option StoredChallenge := do
  let cs ← expect userIdKey s.toList
  let (uuid, cs) ← readString cs
  let userId ← parseUuid (String.ofList uuid)
  let cs ← expect userAgentKey cs
  let (userAgent, cs) ← readOptional cs
  let cs ← expect ipAddressKey cs
  let (ipAddress, cs) ← readOptional cs
  let cs ← expect attemptsKey cs
  let attempts ← numeralValue 10 (cs.takeWhile (· ≠ ','))
  let cs ← expect (',' :: loginChallengeKey) (cs.dropWhile (· ≠ ','))
  let (loginChallenge, cs) ← readOptional cs
  if cs = ['\x7d'] then
    some ⟨userId, userAgent, ipAddress, attempts, loginChallenge⟩
  else none

theorem readString_cons {c : Char} (h : c ≠ '"') (h' : c ≠ '\\') (cs : List Char) :
    readString (c :: cs) = (readString cs).map fun p => (c :: p.1, p.2) := by
  cases cs with
  | nil => simp [readString, h]
  | cons d cs => rw [readString, if_neg h, if_neg h']

theorem readString_escape (cs rest : List Char) :
    readString (escape cs ++ '"' :: rest) = some (cs, rest) := by
  induction cs with
  | nil =>
      cases rest with
      | nil => rfl
      | cons d ds => rfl
  | cons c cs ih =>
      rw [escape]
      split
      · rw [List.cons_append, List.cons_append, readString, if_neg (by decide), if_pos rfl, ih]
        rfl
      · rename_i h
        rw [not_or] at h
        rw [List.cons_append, readString_cons h.1 h.2, ih]
        rfl

@[simp] theorem expect_append (text rest : List Char) : expect text (text ++ rest) = some rest := by
  simp [expect]

@[simp] theorem readOptional_optionalText (s : Option String) (rest : List Char) :
    readOptional (optionalText s ++ rest) = some (s, rest) := by
  cases s with
  | none => rfl
  | some s =>
      have hread : readOptional ('"' :: (escape s.toList ++ '"' :: rest)) =
          (readString (escape s.toList ++ '"' :: rest)).map fun p =>
            (some (String.ofList p.1), p.2) := rfl
      rw [optionalText, List.cons_append, List.append_assoc, List.singleton_append, hread,
        readString_escape, Option.map_some, String.ofList_toList]

theorem numeral_ne_comma {n : ℕ} : ∀ c ∈ numeral 10 n, decide (c ≠ ',') = true := by
  intro c hc
  obtain ⟨d, hd, rfl⟩ := mem_numeral (by decide) (by decide) hc
  exact decide_eq_true (hexDigit_ne d hd).2

/-- **A stored challenge is read back from its JSON.** -/
theorem validateJson_dumpJson (c : StoredChallenge) : validateJson (dumpJson c) = some c := by
  have hattempts : ∀ rest, (numeral 10 c.attempts ++ ',' :: rest).takeWhile (· ≠ ',') =
      numeral 10 c.attempts := by
    intro rest
    rw [List.takeWhile_append_of_pos numeral_ne_comma]
    simp
  have hrest : ∀ rest, (numeral 10 c.attempts ++ ',' :: rest).dropWhile (· ≠ ',') =
      ',' :: rest := by
    intro rest
    rw [List.dropWhile_append_of_pos numeral_ne_comma]
    simp
  have hlast : ∀ rest, expect (',' :: loginChallengeKey) (',' :: (loginChallengeKey ++ rest)) =
      some rest := fun rest => expect_append (',' :: loginChallengeKey) rest
  have hvalue : numeralValue 10 (numeral 10 c.attempts) = some c.attempts :=
    numeralValue_numeral (by decide) (by decide) 0 c.attempts
  rw [validateJson, dumpJson, String.toList_ofList]
  simp only [expect_append, readString_escape, String.ofList_toList, parseUuid_uuidStr,
    readOptional_optionalText, hattempts, hrest, hvalue, hlast, Option.bind_eq_bind,
    Option.bind_some, if_true]

end BackendTemplate.Codecs
