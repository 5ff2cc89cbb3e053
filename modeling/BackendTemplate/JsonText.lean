import Mathlib.Data.Bool.AllAny
import BackendTemplate.Json

/-!
# JSON Text

JSON values as text: a printer with the choices that printers differ in, and a reader that takes
white space wherever the grammar allows it. What is printed is read back, it has no control
character in it, and printed for ASCII it has nothing else.

## Main results

* `read_print` — what is printed is read back.
* `loads_print` — also where objects are dictionaries.
* `Style.printsAll_print` — the characters of what is printed.
-/

namespace Json

/-! ### The printer -/

/-- **How a printer writes**: whether it keeps to ASCII, and whether it puts a blank after a comma
and a colon. -/
structure Style where
  ascii : Bool
  spaced : Bool
deriving DecidableEq

/-- Four hexadecimal digits. -/
def hex4 (n : ℕ) : List Char :=
  [(n / 4096 % 16).digitChar, (n / 256 % 16).digitChar, (n / 16 % 16).digitChar,
    (n % 16).digitChar]

/-- A code unit of UTF-16, escaped. -/
def unitEscape (n : ℕ) : List Char := '\\' :: 'u' :: hex4 n

/-- A character of a string. -/
def escapeChar (ascii : Bool) (c : Char) : List Char :=
  if c = '"' then ['\\', '"']
  else if c = '\\' then ['\\', '\\']
  else if c = '\n' then ['\\', 'n']
  else if c = '\r' then ['\\', 'r']
  else if c = '\t' then ['\\', 't']
  else if c = '\x08' then ['\\', 'b']
  else if c = '\x0c' then ['\\', 'f']
  else if c.toNat < 0x20 then unitEscape c.toNat
  else if ascii ∧ 0x7e < c.toNat then
    if c.toNat < 0x10000 then unitEscape c.toNat
    else
      unitEscape (0xd800 + (c.toNat - 0x10000) / 0x400) ++
        unitEscape (0xdc00 + (c.toNat - 0x10000) % 0x400)
  else [c]

/-- A string, in quotes. -/
def quote (st : Style) (s : String) : List Char :=
  '"' :: s.toList.flatMap (escapeChar st.ascii) ++ ['"']

/-- A number. -/
def intText (n : ℤ) : List Char :=
  if n < 0 then '-' :: Nat.toDigits 10 n.natAbs else Nat.toDigits 10 n.natAbs

/-- What stands between two members behind the comma, and between a key and its value behind the
colon. -/
def Style.gap (st : Style) : List Char := if st.spaced then [' '] else []

mutual

/-- **The text of a value.** -/
def print (st : Style) : Json → List Char
  | null => ['n', 'u', 'l', 'l']
  | bool true => ['t', 'r', 'u', 'e']
  | bool false => ['f', 'a', 'l', 's', 'e']
  | int n => intText n
  | str s => quote st s
  | arr l => '[' :: printElems st l ++ [']']
  | obj d => '\x7b' :: printMembers st d ++ ['\x7d']

/-- The members of a list. -/
def printElems (st : Style) : List Json → List Char
  | [] => []
  | [j] => print st j
  | j :: j' :: l => print st j ++ ',' :: (st.gap ++ printElems st (j' :: l))

/-- The members of an object. -/
def printMembers (st : Style) : List (String × Json) → List Char
  | [] => []
  | [(k, j)] => quote st k ++ ':' :: (st.gap ++ print st j)
  | (k, j) :: m :: d =>
      quote st k ++ ':' :: (st.gap ++ print st j) ++ ',' :: (st.gap ++ printMembers st (m :: d))

end

/-! ### The reader -/

/-- White space between tokens. -/
def isSpace (c : Char) : Bool := c = ' ' ∨ c = '\n' ∨ c = '\r' ∨ c = '\t'

/-- Skip white space. -/
def skip (cs : List Char) : List Char := cs.dropWhile isSpace

/-- The value of a hexadecimal digit. -/
def hexDigit (c : Char) : Option ℕ :=
  if '0' ≤ c ∧ c ≤ '9' then some (c.toNat - '0'.toNat)
  else if 'a' ≤ c ∧ c ≤ 'f' then some (c.toNat - 'a'.toNat + 10)
  else if 'A' ≤ c ∧ c ≤ 'F' then some (c.toNat - 'A'.toNat + 10)
  else none

/-- Read four hexadecimal digits. -/
def readUnit : List Char → Option (ℕ × List Char)
  | a :: b :: c :: d :: r => do
      let a ← hexDigit a
      let b ← hexDigit b
      let c ← hexDigit c
      let d ← hexDigit d
      some (a * 4096 + b * 256 + c * 16 + d, r)
  | _ => none

/-- Read the second half of a pair of surrogates. -/
def readLow : List Char → Option (ℕ × List Char)
  | '\\' :: 'u' :: r => do
      let (n, r) ← readUnit r
      if 0xdc00 ≤ n ∧ n < 0xe000 then some (n, r) else none
  | _ => none

/-- Read what follows a backslash. -/
def readEscape : List Char → Option (Char × List Char)
  | [] => none
  | c :: r =>
      if c = '"' ∨ c = '\\' ∨ c = '/' then some (c, r)
      else if c = 'n' then some ('\n', r)
      else if c = 'r' then some ('\r', r)
      else if c = 't' then some ('\t', r)
      else if c = 'b' then some ('\x08', r)
      else if c = 'f' then some ('\x0c', r)
      else if c = 'u' then do
        let (n, r) ← readUnit r
        if n < 0xd800 ∨ 0xe000 ≤ n then some (Char.ofNat n, r)
        else if n < 0xdc00 then do
          let (m, r) ← readLow r
          some (Char.ofNat (0x10000 + (n - 0xd800) * 0x400 + (m - 0xdc00)), r)
        else none
      else none

/-- Read the characters of a string, to its closing quote. -/
def readChars : ℕ → List Char → Option (List Char × List Char)
  | 0, _ | _, [] => none
  | n + 1, c :: r =>
      if c = '"' then some ([], r)
      else if c = '\\' then do
        let (c, r) ← readEscape r
        let (cs, r) ← readChars n r
        some (c :: cs, r)
      else if c.toNat < 0x20 then none
      else do
        let (cs, r) ← readChars n r
        some (c :: cs, r)

/-- Read a natural number, without leading zeros. -/
def readNat (cs : List Char) : Option (ℕ × List Char) :=
  match cs.takeWhile Char.isDigit with
  | [] => none
  | '0' :: _ :: _ => none
  | ds => some (Nat.ofDigitChars 10 ds 0, cs.dropWhile Char.isDigit)

/-- Read a number. -/
def readInt : List Char → Option (ℤ × List Char)
  | '-' :: r => (readNat r).map fun (n, r) => (-n, r)
  | r => (readNat r).map fun (n, r) => (n, r)

/-- Read the rest of a word. -/
def readWord (word : List Char) (j : Json) (cs : List Char) : Option (Json × List Char) :=
  if word <+: cs then some (j, cs.drop word.length) else none

mutual

/-- **Read a value**, and what is left of the text. -/
def readValue : ℕ → List Char → Option (Json × List Char)
  | 0, _ => none
  | n + 1, cs =>
      match skip cs with
      | [] => none
      | c :: r =>
          if c = '"' then (readChars n r).map fun (s, r) => (str (String.ofList s), r)
          else if c = '[' then
            match skip r with
            | ']' :: r => some (arr [], r)
            | r => (readElems n r).map fun (l, r) => (arr l, r)
          else if c = '\x7b' then
            match skip r with
            | '\x7d' :: r => some (obj [], r)
            | r => (readMembers n r).map fun (d, r) => (obj d, r)
          else if c = 'n' then readWord ['u', 'l', 'l'] null r
          else if c = 't' then readWord ['r', 'u', 'e'] (bool true) r
          else if c = 'f' then readWord ['a', 'l', 's', 'e'] (bool false) r
          else (readInt (c :: r)).map fun (n, r) => (int n, r)

/-- Read the members of a list, to its closing bracket. -/
def readElems : ℕ → List Char → Option (List Json × List Char)
  | 0, _ => none
  | n + 1, cs => do
      let (j, r) ← readValue n cs
      match skip r with
      | ']' :: r => some ([j], r)
      | ',' :: r => do
          let (l, r) ← readElems n r
          some (j :: l, r)
      | _ => none

/-- Read the members of an object, to its closing brace. -/
def readMembers : ℕ → List Char → Option (List (String × Json) × List Char)
  | 0, _ => none
  | n + 1, cs =>
      match skip cs with
      | '"' :: r => do
          let (k, r) ← readChars n r
          match skip r with
          | ':' :: r => do
              let (j, r) ← readValue n r
              match skip r with
              | '\x7d' :: r => some ([(String.ofList k, j)], r)
              | ',' :: r => do
                  let (d, r) ← readMembers n r
                  some ((String.ofList k, j) :: d, r)
              | _ => none
          | _ => none
      | _ => none

end

/-- **Read a text.** -/
def read (cs : List Char) : Option Json := do
  let (j, r) ← readValue (cs.length + 1) cs
  if skip r = [] then some j else none

/-! ### Characters -/

theorem hexDigit_digitChar : ∀ d < 16, hexDigit d.digitChar = some d := by decide

/-- Four digits are read back. -/
theorem readUnit_hex4 {n : ℕ} (h : n < 0x10000) (r : List Char) :
    readUnit (hex4 n ++ r) = some (n, r) := by
  have hsum : n / 4096 % 16 * 4096 + n / 256 % 16 * 256 + n / 16 % 16 * 16 + n % 16 = n := by
    omega
  have hdigit : ∀ m, hexDigit (m % 16).digitChar = some (m % 16) :=
    fun m => hexDigit_digitChar _ (Nat.mod_lt m (by decide))
  simp only [hex4, List.cons_append, List.nil_append, readUnit, hdigit, Option.bind_eq_bind,
    Option.bind_some, hsum]

/-- What follows the letter of a code unit. -/
theorem readEscape_u (cs : List Char) :
    readEscape ('u' :: cs) = (readUnit cs).bind fun (n, r) =>
      if n < 0xd800 ∨ 0xe000 ≤ n then some (Char.ofNat n, r)
      else if n < 0xdc00 then (readLow r).bind fun (m, r) =>
        some (Char.ofNat (0x10000 + (n - 0xd800) * 0x400 + (m - 0xdc00)), r)
      else none := by
  rw [readEscape, if_neg (by decide), if_neg (by decide), if_neg (by decide), if_neg (by decide),
    if_neg (by decide), if_neg (by decide), if_pos rfl]
  rfl

/-- A code unit that is a character. -/
theorem readEscape_unit {c : Char} (h : c.toNat < 0x10000) (r : List Char) :
    readEscape ('u' :: (hex4 c.toNat ++ r)) = some (c, r) := by
  have hvalid : c.toNat < 0xd800 ∨ 0xe000 ≤ c.toNat := by
    rcases c.valid with hlow | hhigh
    · exact Or.inl hlow
    · exact Or.inr hhigh.1
  rw [readEscape_u, readUnit_hex4 h, Option.bind_some]
  simp only [if_pos hvalid, Char.ofNat_toNat]

/-- A character beyond the first plane, as a pair of surrogates. -/
theorem readEscape_pair {c : Char} (h : 0x10000 ≤ c.toNat) (r : List Char) :
    readEscape ('u' :: (hex4 (0xd800 + (c.toNat - 0x10000) / 0x400) ++
      (unitEscape (0xdc00 + (c.toNat - 0x10000) % 0x400) ++ r))) = some (c, r) := by
  have hmax : c.toNat < 0x110000 := by
    rcases c.valid with hlow | hhigh
    · exact Nat.lt_trans hlow (by decide)
    · exact hhigh.2
  obtain ⟨v, hv⟩ : ∃ v, c.toNat = 0x10000 + v := ⟨c.toNat - 0x10000, by omega⟩
  have hlow : readLow (unitEscape (0xdc00 + v % 0x400) ++ r) = some (0xdc00 + v % 0x400, r) := by
    rw [unitEscape, List.cons_append, List.cons_append, readLow, readUnit_hex4 (by omega)]
    simp only [Option.bind_eq_bind, Option.bind_some]
    rw [if_pos (by omega)]
  have hchar : Char.ofNat (0x10000 + (0xd800 + v / 0x400 - 0xd800) * 0x400 +
      (0xdc00 + v % 0x400 - 0xdc00)) = c := by
    rw [show 0x10000 + (0xd800 + v / 0x400 - 0xd800) * 0x400 + (0xdc00 + v % 0x400 - 0xdc00) =
      c.toNat by omega, Char.ofNat_toNat]
  rw [hv, Nat.add_sub_cancel_left, readEscape_u, readUnit_hex4 (by omega), Option.bind_some]
  simp only []
  rw [if_neg (by omega), if_pos (by omega), hlow, Option.bind_some, hchar]

/-- A character that is neither a control character nor beyond ASCII. -/
def Visible (c : Char) : Prop := 0x20 ≤ c.toNat ∧ c.toNat ≤ 0x7e

instance (c : Char) : Decidable (Visible c) := inferInstanceAs (Decidable (_ ∧ _))

theorem visible_digitChar : ∀ d < 16, Visible d.digitChar := by decide

theorem visible_hex4 (n : ℕ) : ∀ c ∈ hex4 n, Visible c := by
  have hdigit : ∀ m, Visible (m % 16).digitChar :=
    fun m => visible_digitChar _ (Nat.mod_lt m (by decide))
  simp [hex4, hdigit]

theorem visible_unitEscape (n : ℕ) : ∀ c ∈ unitEscape n, Visible c := by
  intro c hc
  rw [unitEscape, List.mem_cons, List.mem_cons] at hc
  rcases hc with rfl | rfl | hc
  · decide
  · decide
  · exact visible_hex4 n c hc

/-- **A character of a string stands as it is, or behind a backslash**, from where it is read
back. -/
theorem escapeChar_cases (a : Bool) (c : Char) :
    (escapeChar a c = [c] ∧ c ≠ '"' ∧ c ≠ '\\' ∧ 0x20 ≤ c.toNat ∧ (a → c.toNat ≤ 0x7e)) ∨
      ∃ e, escapeChar a c = '\\' :: e ∧ (∀ r, readEscape (e ++ r) = some (c, r)) ∧
        ∀ x ∈ e, Visible x := by
  by_cases hquote : c = '"'
  · subst hquote
    exact Or.inr ⟨['"'], rfl, fun _ => rfl, List.forall_mem_singleton.mpr (by decide)⟩
  by_cases hback : c = '\\'
  · subst hback
    exact Or.inr ⟨['\\'], rfl, fun _ => rfl, List.forall_mem_singleton.mpr (by decide)⟩
  by_cases hnewline : c = '\n'
  · subst hnewline
    exact Or.inr ⟨['n'], rfl, fun _ => rfl, List.forall_mem_singleton.mpr (by decide)⟩
  by_cases hreturn : c = '\r'
  · subst hreturn
    exact Or.inr ⟨['r'], rfl, fun _ => rfl, List.forall_mem_singleton.mpr (by decide)⟩
  by_cases htab : c = '\t'
  · subst htab
    exact Or.inr ⟨['t'], rfl, fun _ => rfl, List.forall_mem_singleton.mpr (by decide)⟩
  by_cases hbell : c = '\x08'
  · subst hbell
    exact Or.inr ⟨['b'], rfl, fun _ => rfl, List.forall_mem_singleton.mpr (by decide)⟩
  by_cases hfeed : c = '\x0c'
  · subst hfeed
    exact Or.inr ⟨['f'], rfl, fun _ => rfl, List.forall_mem_singleton.mpr (by decide)⟩
  rw [escapeChar, if_neg hquote, if_neg hback, if_neg hnewline, if_neg hreturn, if_neg htab,
    if_neg hbell, if_neg hfeed]
  by_cases hcontrol : c.toNat < 0x20
  · rw [if_pos hcontrol]
    exact Or.inr ⟨'u' :: hex4 c.toNat, rfl, readEscape_unit (by omega),
      fun x hx => visible_unitEscape c.toNat x (List.mem_cons_of_mem _ hx)⟩
  rw [if_neg hcontrol]
  by_cases hascii : a ∧ 0x7e < c.toNat
  · rw [if_pos hascii]
    by_cases hplane : c.toNat < 0x10000
    · rw [if_pos hplane]
      exact Or.inr ⟨'u' :: hex4 c.toNat, rfl, readEscape_unit hplane,
        fun x hx => visible_unitEscape c.toNat x (List.mem_cons_of_mem _ hx)⟩
    · rw [if_neg hplane]
      refine Or.inr ⟨'u' :: (hex4 (0xd800 + (c.toNat - 0x10000) / 0x400) ++
        unitEscape (0xdc00 + (c.toNat - 0x10000) % 0x400)), rfl, fun r => ?_, fun x hx => ?_⟩
      · rw [List.cons_append, List.append_assoc]
        exact readEscape_pair (by omega) r
      · rw [← List.cons_append, List.mem_append] at hx
        rcases hx with hx | hx
        · exact visible_unitEscape _ x (List.mem_cons_of_mem _ hx)
        · exact visible_unitEscape _ x hx
  · rw [if_neg hascii]
    exact Or.inl ⟨rfl, hquote, hback, by omega, fun ha => by
      rw [not_and, Nat.not_lt] at hascii
      exact hascii ha⟩

/-! ### Strings -/

/-- A character in front of what is read. -/
theorem readChars_escapeChar (n : ℕ) (a : Bool) (c : Char) (cs : List Char) :
    readChars (n + 1) (escapeChar a c ++ cs) =
      (readChars n cs).map fun (s, r) => (c :: s, r) := by
  rcases escapeChar_cases a c with ⟨hesc, hquote, hback, hcontrol, -⟩ | ⟨e, hesc, hread, -⟩
  · rw [hesc, List.singleton_append, readChars, if_neg hquote, if_neg hback,
      if_neg (Nat.not_lt.mpr hcontrol)]
    cases readChars n cs <;> rfl
  · rw [hesc, List.cons_append, readChars, if_neg (by decide), if_pos rfl, hread,
      Option.bind_eq_bind, Option.bind_some]
    change (readChars n cs).bind (fun (s, r) => some (c :: s, r)) = _
    cases readChars n cs <;> rfl

/-- **A string is read back**, to its closing quote. -/
theorem readChars_escaped (a : Bool) (r : List Char) :
    ∀ (s : List Char) (n : ℕ), s.length < n →
      readChars n (s.flatMap (escapeChar a) ++ '"' :: r) = some (s, r) := by
  intro s
  induction s with
  | nil =>
      intro n hn
      obtain ⟨n, rfl⟩ := Nat.exists_eq_succ_of_ne_zero (Nat.ne_of_gt hn)
      rfl
  | cons c s ih =>
      intro n hn
      obtain ⟨n, rfl⟩ := Nat.exists_eq_succ_of_ne_zero (Nat.ne_of_gt (Nat.zero_lt_of_lt hn))
      rw [List.flatMap_cons, List.append_assoc, readChars_escapeChar,
        ih n (Nat.lt_of_succ_lt_succ hn)]
      rfl

/-! ### Numbers -/

/-- What stands after a number. -/
def NoDigit (r : List Char) : Prop := ∀ c ∈ r.head?, ¬c.isDigit

/-- Only zero is printed with a zero in front. -/
theorem head_toDigits {n : ℕ} (h : 0 < n) : (Nat.toDigits 10 n).head? ≠ some '0' := by
  induction n using Nat.strongRecOn with
  | ind n ih =>
      rw [Nat.toDigits_eq_if (by decide)]
      by_cases hlt : n < 10
      · rw [if_pos hlt, List.head?_cons, Ne, Option.some.injEq, Nat.digitChar_eq_zero]
        exact Nat.ne_of_gt h
      · rw [if_neg hlt, List.head?_append_of_ne_nil _ Nat.toDigits_ne_nil]
        exact ih (n / 10) (Nat.div_lt_self h (by decide)) (by omega)

/-- Digits have no leading zero. -/
theorem toDigits_ne_zero_cons (n : ℕ) (d : Char) (ds : List Char) :
    Nat.toDigits 10 n ≠ '0' :: d :: ds := by
  intro h
  rcases Nat.eq_zero_or_pos n with rfl | hpos
  · rw [Nat.toDigits_zero] at h
    cases h
  · refine head_toDigits hpos ?_
    rw [h, List.head?_cons]

/-- **A natural number is read back.** -/
theorem readNat_toDigits {r : List Char} (h : NoDigit r) (n : ℕ) :
    readNat (Nat.toDigits 10 n ++ r) = some (n, r) := by
  have hdigits : ∀ c ∈ Nat.toDigits 10 n, c.isDigit := fun c hc =>
    Nat.isDigit_of_mem_toDigits (by decide) (by decide) hc
  have hrest : r.takeWhile Char.isDigit = [] ∧ r.dropWhile Char.isDigit = r := by
    cases r with
    | nil => exact ⟨rfl, rfl⟩
    | cons c r =>
        have hc : ¬c.isDigit := h c rfl
        exact ⟨List.takeWhile_cons_of_neg hc, List.dropWhile_cons_of_neg hc⟩
  have htake : (Nat.toDigits 10 n ++ r).takeWhile Char.isDigit = Nat.toDigits 10 n := by
    rw [List.takeWhile_append_of_pos hdigits, hrest.1, List.append_nil]
  have hdrop : (Nat.toDigits 10 n ++ r).dropWhile Char.isDigit = r := by
    rw [List.dropWhile_append_of_pos hdigits, hrest.2]
  rw [readNat, htake, hdrop]
  split
  · rename_i hnil
    exact absurd hnil Nat.toDigits_ne_nil
  · rename_i hzero
    exact absurd hzero (toDigits_ne_zero_cons n _ _)
  · rw [Nat.ofDigitChars_ten_toDigits]

/-- The first digit of a number. -/
theorem toDigits_eq_cons (n : ℕ) :
    ∃ d ds, Nat.toDigits 10 n = d :: ds ∧ d.isDigit := by
  obtain ⟨d, ds, h⟩ := List.exists_cons_of_ne_nil (@Nat.toDigits_ne_nil n 10)
  exact ⟨d, ds, h, Nat.isDigit_of_mem_toDigits (by decide) (by decide)
    (h ▸ List.mem_cons_self)⟩

/-- **A number is read back.** -/
theorem readInt_intText {r : List Char} (h : NoDigit r) (n : ℤ) :
    readInt (intText n ++ r) = some (n, r) := by
  rw [intText]
  split
  · rename_i hneg
    rw [List.cons_append, readInt, readNat_toDigits h, Option.map_some]
    exact congrArg (fun m => some (m, r)) (by omega)
  · rename_i hpos
    obtain ⟨d, ds, hds, hd⟩ := toDigits_eq_cons n.natAbs
    have hread := readNat_toDigits h n.natAbs
    rw [hds, List.cons_append] at hread ⊢
    rw [readInt, hread, Option.map_some]
    · exact congrArg (fun m => some (m, r)) (by omega)
    · rintro r' hminus
      rw [(List.cons.inj hminus).1] at hd
      cases hd

/-! ### Values -/

/-- The first character of a value, which begins no other token. -/
def Starts (c : Char) : Prop := ¬isSpace c ∧ c ≠ ']' ∧ c ≠ '\x7d'

instance (c : Char) : Decidable (Starts c) := inferInstanceAs (Decidable (_ ∧ _))

theorem starts_of_isDigit {c : Char} (h : c.isDigit) : Starts c := by
  refine ⟨fun hspace => ?_, ?_, ?_⟩
  · rw [isSpace, decide_eq_true_iff] at hspace
    rcases hspace with rfl | rfl | rfl | rfl <;> cases h
  · rintro rfl
    cases h
  · rintro rfl
    cases h

theorem print_eq_cons (st : Style) (j : Json) : ∃ c cs, print st j = c :: cs ∧ Starts c := by
  cases j with
  | null => exact ⟨'n', _, rfl, by decide⟩
  | bool b =>
      cases b with
      | true => exact ⟨'t', _, rfl, by decide⟩
      | false => exact ⟨'f', _, rfl, by decide⟩
  | int n =>
      obtain ⟨d, ds, hds, hd⟩ := toDigits_eq_cons n.natAbs
      by_cases hneg : n < 0
      · exact ⟨'-', _, by rw [print, intText, if_pos hneg], by decide⟩
      · exact ⟨d, ds, by rw [print, intText, if_neg hneg, hds], starts_of_isDigit hd⟩
  | str s => exact ⟨'"', _, rfl, by decide⟩
  | arr l => exact ⟨'[', _, rfl, by decide⟩
  | obj d => exact ⟨'\x7b', _, rfl, by decide⟩

theorem skip_cons {c : Char} (h : ¬isSpace c) (cs : List Char) : skip (c :: cs) = c :: cs :=
  List.dropWhile_cons_of_neg h

theorem skip_gap (st : Style) (cs : List Char) : skip (st.gap ++ cs) = skip cs := by
  rw [Style.gap]
  split
  · rfl
  · rfl

theorem readValue_gap (st : Style) (n : ℕ) (cs : List Char) :
    readValue n (st.gap ++ cs) = readValue n cs := by
  cases n with
  | zero => rw [readValue, readValue]
  | succ n => rw [readValue, readValue, skip_gap]

theorem readElems_gap (st : Style) (n : ℕ) (cs : List Char) :
    readElems n (st.gap ++ cs) = readElems n cs := by
  cases n with
  | zero => rw [readElems, readElems]
  | succ n => rw [readElems, readElems, readValue_gap]

theorem readMembers_gap (st : Style) (n : ℕ) (cs : List Char) :
    readMembers n (st.gap ++ cs) = readMembers n cs := by
  cases n with
  | zero => rw [readMembers, readMembers]
  | succ n => rw [readMembers, readMembers, skip_gap]

/-- What a value is read as, by its first character. -/
theorem readValue_cons {c : Char} (h : ¬isSpace c) (n : ℕ) (r : List Char) :
    readValue (n + 1) (c :: r) =
      if c = '"' then (readChars n r).map fun (s, r) => (str (String.ofList s), r)
      else if c = '[' then
        match skip r with
        | ']' :: r => some (arr [], r)
        | r => (readElems n r).map fun (l, r) => (arr l, r)
      else if c = '\x7b' then
        match skip r with
        | '\x7d' :: r => some (obj [], r)
        | r => (readMembers n r).map fun (d, r) => (obj d, r)
      else if c = 'n' then readWord ['u', 'l', 'l'] null r
      else if c = 't' then readWord ['r', 'u', 'e'] (bool true) r
      else if c = 'f' then readWord ['a', 'l', 's', 'e'] (bool false) r
      else (readInt (c :: r)).map fun (n, r) => (int n, r) := by
  rw [readValue, skip_cons h]

theorem readValue_quote (n : ℕ) (r : List Char) :
    readValue (n + 1) ('"' :: r) =
      (readChars n r).map fun (s, r) => (str (String.ofList s), r) := by
  rw [readValue_cons (by decide), if_pos rfl]

theorem readValue_bracket (n : ℕ) {c : Char} (hc : Starts c) (r : List Char) :
    readValue (n + 1) ('[' :: c :: r) = (readElems n (c :: r)).map fun (l, r) => (arr l, r) := by
  rw [readValue_cons (by decide), if_neg (by decide), if_pos rfl, skip_cons hc.1]
  split
  · rename_i hclose
    exact absurd (List.cons.inj hclose).1 hc.2.1
  · rfl

theorem readValue_brace (n : ℕ) {c : Char} (hc : Starts c) (r : List Char) :
    readValue (n + 1) ('\x7b' :: c :: r) =
      (readMembers n (c :: r)).map fun (d, r) => (obj d, r) := by
  rw [readValue_cons (by decide), if_neg (by decide), if_neg (by decide), if_pos rfl,
    skip_cons hc.1]
  split
  · rename_i hclose
    exact absurd (List.cons.inj hclose).1 hc.2.2
  · rfl

/-- **What is said of the members of a list or an object, and of it then, is said of every
value.** -/
theorem forall_of_members {P : Json → Prop} (hnull : P null) (hbool : ∀ b, P (bool b))
    (hint : ∀ n, P (int n)) (hstr : ∀ s, P (str s)) (harr : ∀ l, (∀ j ∈ l, P j) → P (arr l))
    (hobj : ∀ d, (∀ m ∈ d, P m.2) → P (obj d)) (j : Json) : P j :=
  @Json.rec P (fun l => ∀ j ∈ l, P j) (fun d => ∀ m ∈ d, P m.2) (fun m => P m.2) hnull hbool hint
    hstr harr hobj (fun _ h => absurd h List.not_mem_nil)
    (fun _ _ hhead htail => List.forall_mem_cons.mpr ⟨hhead, htail⟩)
    (fun _ h => absurd h List.not_mem_nil)
    (fun _ _ hhead htail => List.forall_mem_cons.mpr ⟨hhead, htail⟩) (fun _ _ h => h) j

section ReadBack

variable {st : Style}

/-- A value is read back, in front of whatever is no digit. -/
def ReadsBack (st : Style) (j : Json) : Prop :=
  ∀ n r, (print st j).length ≤ n → NoDigit r → readValue n (print st j ++ r) = some (j, r)

/-- The characters of a string are no more than those it is printed with. -/
theorem length_escaped (a : Bool) (s : List Char) :
    s.length ≤ (s.flatMap (escapeChar a)).length := by
  induction s with
  | nil => exact Nat.le_refl 0
  | cons c s ih =>
      have hpos : 0 < (escapeChar a c).length := by
        rcases escapeChar_cases a c with ⟨hesc, -⟩ | ⟨e, hesc, -⟩ <;> rw [hesc]
        · exact Nat.one_pos
        · exact Nat.succ_pos e.length
      rw [List.flatMap_cons, List.length_append, List.length_cons]
      omega

theorem readChars_quote {s : String} {n : ℕ} (h : (quote st s).length ≤ n + 1) (r : List Char) :
    readChars n (s.toList.flatMap (escapeChar st.ascii) ++ '"' :: r) = some (s.toList, r) := by
  refine readChars_escaped st.ascii r s.toList n ?_
  have hlen := length_escaped st.ascii s.toList
  rw [quote, List.length_append, List.length_cons, List.length_singleton] at h
  omega

theorem readsBack_str (s : String) : ReadsBack st (str s) := by
  intro n r hn _
  rw [print] at hn ⊢
  cases n with
  | zero => exact absurd hn (by simp [quote])
  | succ n =>
      rw [quote, List.append_assoc, List.cons_append, List.singleton_append, readValue_quote,
        readChars_quote hn, Option.map_some]
      simp only [String.ofList_toList]

theorem readsBack_int (k : ℤ) : ReadsBack st (int k) := by
  intro n r hn hr
  have hread := readInt_intText hr k
  obtain ⟨d, ds, hds, hd⟩ : ∃ d ds, intText k = d :: ds ∧ (d = '-' ∨ d.isDigit) := by
    obtain ⟨d, ds, hds, hd⟩ := toDigits_eq_cons k.natAbs
    by_cases hneg : k < 0
    · exact ⟨'-', _, by rw [intText, if_pos hneg], Or.inl rfl⟩
    · exact ⟨d, ds, by rw [intText, if_neg hneg, hds], Or.inr hd⟩
  have hne : ∀ c, ¬c.isDigit → c ≠ '-' → d ≠ c := by
    rintro c hdigit hminus rfl
    exact hd.elim hminus hdigit
  have hspace : ¬isSpace d := by
    rcases hd with rfl | hd
    · decide
    · exact (starts_of_isDigit hd).1
  rw [print] at hn ⊢
  rw [hds] at hn hread ⊢
  cases n with
  | zero => exact absurd hn (Nat.not_succ_le_zero _)
  | succ n =>
      rw [List.cons_append] at hread ⊢
      rw [readValue_cons hspace, if_neg (hne _ (by decide) (by decide)),
        if_neg (hne _ (by decide) (by decide)), if_neg (hne _ (by decide) (by decide)),
        if_neg (hne _ (by decide) (by decide)), if_neg (hne _ (by decide) (by decide)),
        if_neg (hne _ (by decide) (by decide)), hread, Option.map_some]

theorem readWord_append (word : List Char) (j : Json) (r : List Char) :
    readWord word j (word ++ r) = some (j, r) := by
  rw [readWord, if_pos (List.prefix_append word r), List.drop_left]

theorem readsBack_null : ReadsBack st null := by
  intro n r hn _
  rw [print] at hn ⊢
  cases n with
  | zero => exact absurd hn (by decide)
  | succ n =>
      exact (readValue_cons (by decide) n _).trans (readWord_append ['u', 'l', 'l'] null r)

theorem readsBack_bool (b : Bool) : ReadsBack st (bool b) := by
  intro n r hn _
  cases n with
  | zero =>
      cases b with
      | true => exact absurd hn (Nat.not_succ_le_zero 3)
      | false => exact absurd hn (Nat.not_succ_le_zero 4)
  | succ n =>
      cases b with
      | true =>
          exact (readValue_cons (by decide) n _).trans
            (readWord_append ['r', 'u', 'e'] (bool true) r)
      | false =>
          exact (readValue_cons (by decide) n _).trans
            (readWord_append ['a', 'l', 's', 'e'] (bool false) r)

theorem noDigit_cons {c : Char} (h : ¬c.isDigit) (r : List Char) : NoDigit (c :: r) := by
  rintro c' hc'
  obtain rfl := Option.some.inj hc'
  exact h

/-- **The members of a list are read back**, to its closing bracket. -/
theorem readElems_print {l : List Json} (h : ∀ j ∈ l, ReadsBack st j) (hne : l ≠ []) :
    ∀ n r, (printElems st l).length < n →
      readElems n (printElems st l ++ ']' :: r) = some (l, r) := by
  induction l with
  | nil => exact absurd rfl hne
  | cons j l ih =>
      intro n r hn
      cases n with
      | zero => exact absurd hn (Nat.not_lt_zero _)
      | succ n =>
          cases l with
          | nil =>
              rw [printElems] at hn ⊢
              rw [readElems, h j List.mem_cons_self n _ (Nat.le_of_lt_succ hn)
                (noDigit_cons (by decide) r)]
              rfl
          | cons j' l =>
              rw [printElems, List.length_append, List.length_cons, List.length_append] at hn
              rw [printElems, List.append_assoc, List.cons_append, List.append_assoc, readElems,
                h j List.mem_cons_self n _ (by omega) (noDigit_cons (by decide) _)]
              simp only [Option.bind_eq_bind, Option.bind_some]
              rw [skip_cons (by decide)]
              simp only []
              rw [readElems_gap, ih (fun j hj => h j (List.mem_cons_of_mem _ hj))
                (List.cons_ne_nil j' l) n r (by omega)]
              rfl

/-- A key and its colon are read. -/
theorem readMembers_key {k : String} {n : ℕ} (h : (quote st k).length ≤ n + 1)
    (cs : List Char) :
    readMembers (n + 1) (quote st k ++ ':' :: (st.gap ++ cs)) =
      (readValue n cs).bind fun (j, r) =>
        match skip r with
        | '\x7d' :: r => some ([(k, j)], r)
        | ',' :: r => (readMembers n r).bind fun (d, r) => some ((k, j) :: d, r)
        | _ => none := by
  rw [quote, List.append_assoc, List.cons_append, List.singleton_append, readMembers,
    skip_cons (by decide)]
  simp only []
  rw [readChars_quote h, Option.bind_eq_bind, Option.bind_some]
  simp only []
  rw [skip_cons (by decide)]
  simp only []
  rw [readValue_gap, String.ofList_toList]
  rfl

/-- **The members of an object are read back**, to its closing brace. -/
theorem readMembers_print {d : List (String × Json)} (h : ∀ m ∈ d, ReadsBack st m.2)
    (hne : d ≠ []) :
    ∀ n r, (printMembers st d).length < n →
      readMembers n (printMembers st d ++ '\x7d' :: r) = some (d, r) := by
  induction d with
  | nil => exact absurd rfl hne
  | cons m d ih =>
      obtain ⟨k, j⟩ := m
      intro n r hn
      have hj : ReadsBack st j := h (k, j) List.mem_cons_self
      cases n with
      | zero => exact absurd hn (Nat.not_lt_zero _)
      | succ n =>
          cases d with
          | nil =>
              rw [printMembers, List.length_append, List.length_cons, List.length_append] at hn
              rw [printMembers, List.append_assoc, List.cons_append, List.append_assoc,
                readMembers_key (by omega), hj n _ (by omega) (noDigit_cons (by decide) r)]
              rfl
          | cons m d =>
              rw [printMembers, List.length_append, List.length_append, List.length_cons,
                List.length_cons, List.length_append, List.length_append] at hn
              rw [printMembers, List.append_assoc, List.append_assoc, List.cons_append,
                List.append_assoc, List.cons_append, List.append_assoc,
                readMembers_key (by omega), hj n _ (by omega) (noDigit_cons (by decide) _),
                Option.bind_some]
              simp only []
              rw [skip_cons (by decide)]
              simp only []
              rw [readMembers_gap, ih (fun m hm => h m (List.mem_cons_of_mem _ hm))
                (List.cons_ne_nil m d) n r (by omega)]
              rfl

/-- A list is read back where its members are. -/
theorem readsBack_arr (l : List Json) (h : ∀ j ∈ l, ReadsBack st j) : ReadsBack st (arr l) := by
  intro n r hn _
  rw [print] at hn ⊢
  rw [List.length_append, List.length_cons] at hn
  cases n with
  | zero => exact absurd hn (Nat.not_succ_le_zero _)
  | succ n =>
      cases l with
      | nil => rfl
      | cons j l =>
          obtain ⟨c, cs, hcs, hc⟩ : ∃ c cs, printElems st (j :: l) = c :: cs ∧ Starts c := by
            obtain ⟨c, cs, hcs, hc⟩ := print_eq_cons st j
            cases l with
            | nil => exact ⟨c, cs, hcs, hc⟩
            | cons j' l => exact ⟨c, _, by rw [printElems, hcs, List.cons_append], hc⟩
          have hread := readElems_print h (List.cons_ne_nil j l) n r (Nat.le_of_lt_succ hn)
          rw [List.append_assoc, List.cons_append, List.singleton_append]
          rw [hcs, List.cons_append] at hread ⊢
          rw [readValue_bracket n hc, hread, Option.map_some]

/-- An object is read back where its members are. -/
theorem readsBack_obj (d : List (String × Json)) (h : ∀ m ∈ d, ReadsBack st m.2) :
    ReadsBack st (obj d) := by
  intro n r hn _
  rw [print] at hn ⊢
  rw [List.length_append, List.length_cons] at hn
  cases n with
  | zero => exact absurd hn (Nat.not_succ_le_zero _)
  | succ n =>
      cases d with
      | nil => rfl
      | cons m d =>
          obtain ⟨cs, hcs⟩ : ∃ cs, printMembers st (m :: d) = '"' :: cs := by
            cases d with
            | nil => exact ⟨_, rfl⟩
            | cons m' d => exact ⟨_, rfl⟩
          have hread := readMembers_print h (List.cons_ne_nil m d) n r (Nat.le_of_lt_succ hn)
          rw [List.append_assoc, List.cons_append, List.singleton_append]
          rw [hcs, List.cons_append] at hread ⊢
          rw [readValue_brace n (by decide), hread, Option.map_some]

/-- **Every value is read back.** -/
theorem readsBack (st : Style) (j : Json) : ReadsBack st j :=
  forall_of_members readsBack_null readsBack_bool readsBack_int readsBack_str readsBack_arr
    readsBack_obj j

end ReadBack

/-- **What is printed is read back.** -/
theorem read_print (st : Style) (j : Json) : read (print st j) = some j := by
  have hread := readsBack st j ((print st j).length + 1) [] (Nat.le_succ _) (by simp [NoDigit])
  rw [List.append_nil] at hread
  rw [read, hread]
  rfl

/-! ### Objects as dictionaries -/

mutual

/-- **A value with dictionaries for its objects**: of two members with one key the last counts. -/
def settle : Json → Json
  | null => null
  | bool b => bool b
  | int n => int n
  | str s => str s
  | arr l => arr (settleElems l)
  | obj d => obj (Dict.update [] (settleMembers d))

/-- The members of a list. -/
def settleElems : List Json → List Json
  | [] => []
  | j :: l => settle j :: settleElems l

/-- The members of an object. -/
def settleMembers : List (String × Json) → List (String × Json)
  | [] => []
  | (k, j) :: d => (k, settle j) :: settleMembers d

end

/-- A value that is settled. -/
def Settled (j : Json) : Prop := settle j = j

theorem settleElems_eq (l : List Json) : settleElems l = l.map settle := by
  induction l with
  | nil => rfl
  | cons j l ih => rw [settleElems, ih, List.map_cons]

theorem settleMembers_eq (d : List (String × Json)) :
    settleMembers d = d.map fun e => (e.1, settle e.2) := by
  induction d with
  | nil => rfl
  | cons m d ih =>
      obtain ⟨k, j⟩ := m
      rw [settleMembers, ih, List.map_cons]

/-- A dictionary of settled values is settled. -/
theorem settled_obj {d : List (String × Json)} (hkeys : (d.map Prod.fst).Nodup)
    (h : ∀ m ∈ d, Settled m.2) : Settled (obj d) := by
  have hsame : settleMembers d = d := by
    rw [settleMembers_eq]
    conv => rhs; rw [← List.map_id d]
    exact List.map_congr_left fun m hm => Prod.ext rfl (h m hm)
  rw [Settled, settle, hsame, Dict.update_of_disjoint hkeys fun e _ => List.not_mem_nil,
    List.nil_append]

theorem settled_arr {l : List Json} (h : ∀ j ∈ l, Settled j) : Settled (arr l) := by
  rw [Settled, settle, settleElems_eq]
  conv => rhs; rw [← List.map_id l]
  exact congrArg arr (List.map_congr_left h)

/-- **What is settled stays so.** -/
theorem settled_settle (j : Json) : Settled (settle j) := by
  induction j using forall_of_members with
  | hnull => rfl
  | hbool b => rfl
  | hint n => rfl
  | hstr s => rfl
  | harr l h =>
      rw [settle, settleElems_eq]
      refine settled_arr fun j hj => ?_
      obtain ⟨j', hj', rfl⟩ := List.mem_map.mp hj
      exact h j' hj'
  | hobj d h =>
      rw [settle, settleMembers_eq]
      refine settled_obj (Dict.nodup_update List.nodup_nil) fun m hm => ?_
      have hm := (Dict.mem_update hm).resolve_left List.not_mem_nil
      obtain ⟨m', hm', rfl⟩ := List.mem_map.mp hm
      exact h m' hm'

/-- **Load a value** from its text. -/
def loads (s : String) : Option Json := (read s.toList).map settle

/-- What is loaded is settled. -/
theorem settled_of_loads {s : String} {j : Json} (h : loads s = some j) : Settled j := by
  obtain ⟨j', -, rfl⟩ := Option.map_eq_some_iff.mp h
  exact settled_settle j'

/-- **What is settled is loaded as it was printed.** -/
theorem loads_print (st : Style) {j : Json} (h : Settled j) :
    loads (String.ofList (print st j)) = some j := by
  rw [loads, String.toList_ofList, read_print, Option.map_some, h]

/-! ### The characters of a text -/

/-- A character a style prints. -/
def Style.Prints (st : Style) (c : Char) : Prop := 0x20 ≤ c.toNat ∧ (st.ascii → c.toNat ≤ 0x7e)

namespace Style

variable {st : Style}

theorem prints_of_visible {c : Char} (h : Visible c) : st.Prints c := ⟨h.1, fun _ => h.2⟩

theorem prints_of_isDigit {c : Char} (h : c.isDigit) : st.Prints c := by
  rw [Char.isDigit, Bool.and_eq_true, decide_eq_true_iff, decide_eq_true_iff] at h
  have hlow : '0'.toNat ≤ c.toNat := h.1
  have hhigh : c.toNat ≤ '9'.toNat := h.2
  exact prints_of_visible ⟨Nat.le_trans (by decide) hlow, Nat.le_trans hhigh (by decide)⟩

/-- A style prints a text. -/
def PrintsAll (st : Style) (cs : List Char) : Prop := ∀ c ∈ cs, st.Prints c

theorem printsAll_nil : st.PrintsAll [] := fun _ h => absurd h List.not_mem_nil

theorem printsAll_cons {c : Char} {cs : List Char} (hc : st.Prints c) (h : st.PrintsAll cs) :
    st.PrintsAll (c :: cs) := List.forall_mem_cons.mpr ⟨hc, h⟩

theorem printsAll_append {cs cs' : List Char} (h : st.PrintsAll cs) (h' : st.PrintsAll cs') :
    st.PrintsAll (cs ++ cs') := List.forall_mem_append.mpr ⟨h, h'⟩

theorem printsAll_visible {cs : List Char} (h : cs.all fun c => Visible c) : st.PrintsAll cs :=
  fun c hc => prints_of_visible (List.all_iff_forall_prop.mp h c hc)

theorem printsAll_gap : st.PrintsAll st.gap := by
  rw [gap]
  split
  · exact printsAll_visible (by decide)
  · exact printsAll_nil

theorem printsAll_quote (s : String) : st.PrintsAll (quote st s) := by
  rw [quote]
  refine printsAll_append (printsAll_cons (prints_of_visible (by decide)) ?_)
    (printsAll_visible (by decide))
  intro x hx
  obtain ⟨c, -, hx⟩ := List.mem_flatMap.mp hx
  rcases escapeChar_cases st.ascii c with ⟨hesc, -, -, hlow, hhigh⟩ | ⟨e, hesc, -, he⟩
  · rw [hesc, List.mem_singleton] at hx
    exact hx ▸ ⟨hlow, hhigh⟩
  · rw [hesc, List.mem_cons] at hx
    rcases hx with rfl | hx
    · exact prints_of_visible (by decide)
    · exact prints_of_visible (he x hx)

theorem printsAll_int (n : ℤ) : st.PrintsAll (intText n) := by
  have hdigits : st.PrintsAll (Nat.toDigits 10 n.natAbs) := fun c hc =>
    prints_of_isDigit (Nat.isDigit_of_mem_toDigits (by decide) (by decide) hc)
  rw [intText]
  split
  · exact printsAll_cons (prints_of_visible (by decide)) hdigits
  · exact hdigits

theorem printsAll_elems {l : List Json} (h : ∀ j ∈ l, st.PrintsAll (print st j)) :
    st.PrintsAll (printElems st l) := by
  induction l with
  | nil => exact printsAll_nil
  | cons j l ih =>
      have hj := h j List.mem_cons_self
      cases l with
      | nil => exact hj
      | cons j' l =>
          rw [printElems]
          exact printsAll_append hj (printsAll_cons (prints_of_visible (by decide))
            (printsAll_append printsAll_gap (ih fun j hj => h j (List.mem_cons_of_mem _ hj))))

theorem printsAll_members {d : List (String × Json)} (h : ∀ m ∈ d, st.PrintsAll (print st m.2)) :
    st.PrintsAll (printMembers st d) := by
  induction d with
  | nil => exact printsAll_nil
  | cons m d ih =>
      obtain ⟨k, j⟩ := m
      have hmember : st.PrintsAll (quote st k ++ ':' :: (st.gap ++ print st j)) :=
        printsAll_append (printsAll_quote k) (printsAll_cons (prints_of_visible (by decide))
          (printsAll_append printsAll_gap (h (k, j) List.mem_cons_self)))
      cases d with
      | nil => exact hmember
      | cons m d =>
          rw [printMembers]
          exact printsAll_append hmember (printsAll_cons (prints_of_visible (by decide))
            (printsAll_append printsAll_gap (ih fun m hm => h m (List.mem_cons_of_mem _ hm))))

/-- **A style prints the text of every value**: without control characters, and in ASCII where it
keeps to that. -/
theorem printsAll_print (j : Json) : st.PrintsAll (print st j) := by
  induction j using forall_of_members with
  | hnull =>
      rw [print]
      exact printsAll_visible (by decide)
  | hbool b =>
      cases b <;> rw [print] <;> exact printsAll_visible (by decide)
  | hint n => exact printsAll_int n
  | hstr s => exact printsAll_quote s
  | harr l h =>
      rw [print]
      exact printsAll_append (printsAll_cons (prints_of_visible (by decide)) (printsAll_elems h))
        (printsAll_visible (by decide))
  | hobj d h =>
      rw [print]
      exact printsAll_append (printsAll_cons (prints_of_visible (by decide)) (printsAll_members h))
        (printsAll_visible (by decide))

end Style

end Json
