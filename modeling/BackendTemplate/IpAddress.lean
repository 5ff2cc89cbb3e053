import Mathlib.Algebra.Group.Nat.Defs
import Mathlib.Data.List.Basic

/-!
# IP Addresses

Addresses and networks of both versions, read from text as Python's `ipaddress` reads them: dotted
octets without leading zeros, hextets with at most one run of zeroes left out and perhaps an IPv4
suffix, a zone after `%`, and networks whose host bits are dropped.

Of the text of an address only its zone is free. `text_of_ipAddress` says so: everything before the
zone is digits, dots and colons.
-/

namespace IpAddress

/-- Texts. -/
abbrev Text := List Char

/-! ### Numbers -/

/-- Whether a character is in `_HEX_DIGITS`. -/
def isHexDigit (c : Char) : Bool :=
  c.isDigit || ('a' ≤ c && c ≤ 'f') || ('A' ≤ c && c ≤ 'F')

def digitValue (c : Char) : ℕ :=
  if c.isDigit then c.toNat - '0'.toNat
  else if 'a' ≤ c then c.toNat - 'a'.toNat + 10
  else c.toNat - 'A'.toNat + 10

/-- `int(text, base)`, of digits. -/
def intOf (base : ℕ) (s : Text) : ℕ := s.foldl (fun n c => n * base + digitValue c) 0

/-- The digits that one more number takes, the highest first. -/
def joinInts (base : ℕ) (start : ℕ) (ns : List ℕ) : ℕ := ns.foldl (fun n k => n * base + k) start

/-! ### IPv4 -/

/-- `IPv4Address._parse_octet`. -/
def parseOctet (s : Text) : Option ℕ :=
  if s.isEmpty then none
  else if !s.all Char.isDigit then none
  else if 3 < s.length then none
  else if s ≠ ['0'] ∧ s.head? = some '0' then none
  else if 255 < intOf 10 s then none
  else some (intOf 10 s)

/-- `IPv4Address._ip_int_from_string`. -/
def ipv4FromString (s : Text) : Option (BitVec 32) :=
  if s.isEmpty then none
  else if (s.splitOn '.').length ≠ 4 then none
  else ((s.splitOn '.').mapM parseOctet).map fun octets => BitVec.ofNat 32 (joinInts 256 0 octets)

/-- `IPv4Address`, of a text. -/
def ipv4Address (s : Text) : Option (BitVec 32) :=
  if s.contains '/' then none else ipv4FromString s

/-! ### IPv6 -/

/-- `IPv6Address._parse_hextet`; `int` refuses the empty text. -/
def parseHextet (s : Text) : Option ℕ :=
  if !s.all isHexDigit then none
  else if 4 < s.length then none
  else if s.isEmpty then none
  else some (intOf 16 s)

/-- The parts between the colons, an IPv4 suffix counting for two of them. -/
def ipv6Parts (s : Text) : Option (List Text) :=
  let parts := s.splitOn ':'
  let last := parts.getLastD []
  if parts.length < 3 then none
  else if last.contains '.' then
    (ipv4Address last).map fun ip : BitVec 32 =>
      parts.dropLast ++
        [Nat.toDigits 16 (ip >>> 16 &&& 0xFFFF#32).toNat, Nat.toDigits 16 (ip &&& 0xFFFF#32).toNat]
  else some parts

/-- How the hextets lie: the numbers of parts before and after the run of zeroes, and its length. -/
structure Layout where
  hi : ℕ
  lo : ℕ
  skipped : ℕ

/-- The empty parts, the endpoints left aside. -/
def skipIndices (parts : List Text) : List ℕ :=
  (List.range' 1 (parts.length - 2)).filter fun i => (parts.getD i []).isEmpty

/-- Where the run of zeroes is, if there is one. A colon at either end has to be one of two. -/
def layout (parts : List Text) : Option Layout :=
  let leading := (parts.headD []).isEmpty
  let trailing := (parts.getLastD []).isEmpty
  if 9 < parts.length then none
  else
    match skipIndices parts with
    | [] =>
        if parts.length ≠ 8 then none
        else if leading then none
        else if trailing then none
        else some { hi := parts.length, lo := 0, skipped := 0 }
    | [skip] =>
        let hi := if leading then skip - 1 else skip
        let lo := if trailing then parts.length - skip - 2 else parts.length - skip - 1
        if leading && hi ≠ 0 then none
        else if trailing && lo ≠ 0 then none
        else if 8 < hi + lo + 1 then none
        else some { hi := hi, lo := lo, skipped := 8 - (hi + lo) }
    | _ => none

/-- `IPv6Address._ip_int_from_string`. -/
def ipv6FromString (s : Text) : Option (BitVec 128) :=
  if s.isEmpty then none
  else do
    let parts ← ipv6Parts s
    let l ← layout parts
    let hi ← (parts.take l.hi).mapM parseHextet
    let lo ← (parts.drop (parts.length - l.lo)).mapM parseHextet
    some (BitVec.ofNat 128 (joinInts 65536 (joinInts 65536 0 hi * 65536 ^ l.skipped) lo))

/-- `IPv6Address._split_scope_id`: the text before the first `%`, and what is after it. -/
def splitScopeId (s : Text) : Option (Text × Option Text) :=
  match s.dropWhile (· ≠ '%') with
  | [] => some (s, none)
  | _ :: scopeId =>
      if scopeId.isEmpty || scopeId.contains '%' then none
      else some (s.takeWhile (· ≠ '%'), some scopeId)

/-- `IPv6Address`, of a text. -/
def ipv6Address (s : Text) : Option (BitVec 128 × Option Text) :=
  if s.contains '/' then none
  else (splitScopeId s).bind fun p => (ipv6FromString p.1).map fun ip => (ip, p.2)

/-! ### Addresses -/

/-- `IPv4Address | IPv6Address`. -/
inductive Address
  | v4 (ip : BitVec 32)
  | v6 (ip : BitVec 128) (scopeId : Option Text)
  deriving DecidableEq

/-- The zone of an address. -/
def Address.scopeId : Address → Option Text
  | .v4 _ => none
  | .v6 _ scopeId => scopeId

/-- `ip_address`. A text that is none is a `ValueError`. -/
def ipAddress (s : Text) : Option Address :=
  match ipv4Address s with
  | some ip => some (.v4 ip)
  | none => (ipv6Address s).map fun p => .v6 p.1 p.2

/-! ### Networks -/

/-- The network address and the netmask, with no host bits set. -/
structure Net (w : ℕ) where
  networkAddress : BitVec w
  netmask : BitVec w
  masked : networkAddress &&& netmask = networkAddress

/-- The network of an address, its host bits dropped. -/
def Net.make {w : ℕ} (ip netmask : BitVec w) : Net w where
  networkAddress := ip &&& netmask
  netmask := netmask
  masked := by rw [BitVec.and_assoc, BitVec.and_self]

/-- `_BaseNetwork.__contains__`, of an address of the same version. -/
def Net.contains {w : ℕ} (n : Net w) (ip : BitVec w) : Bool := ip &&& n.netmask = n.networkAddress

/-- `_ip_int_from_prefix`. -/
def ipIntFromPrefix (w prefixlen : ℕ) : BitVec w := BitVec.allOnes w ^^^ BitVec.allOnes w >>> prefixlen

/-- `_prefix_from_ip_int`: ones, then zeroes. -/
def prefixFromIpInt {w : ℕ} (ip : BitVec w) : Option ℕ :=
  let trailingZeroes := ((List.range w).takeWhile fun i => !ip.getLsbD i).length
  let prefixlen := w - trailingZeroes
  if ip >>> trailingZeroes = BitVec.ofNat w (2 ^ prefixlen - 1) then some prefixlen else none

/-- `_prefix_from_prefix_string`. -/
def prefixFromPrefixString (w : ℕ) (s : Text) : Option ℕ :=
  if s.isEmpty || !s.all Char.isDigit then none
  else if w < intOf 10 s then none
  else some (intOf 10 s)

/-- `_prefix_from_ip_string`: a netmask or a hostmask. -/
def prefixFromIpString (s : Text) : Option ℕ :=
  (ipv4FromString s).bind fun ip =>
    match prefixFromIpInt ip with
    | some prefixlen => some prefixlen
    | none => prefixFromIpInt (ip ^^^ BitVec.allOnes 32)

/-- `IPv4Network._make_netmask`. -/
def makeNetmask4 : Option Text → Option (BitVec 32)
  | none => some (ipIntFromPrefix 32 32)
  | some arg =>
      match prefixFromPrefixString 32 arg with
      | some prefixlen => some (ipIntFromPrefix 32 prefixlen)
      | none => (prefixFromIpString arg).map (ipIntFromPrefix 32)

/-- `IPv6Network._make_netmask`. -/
def makeNetmask6 : Option Text → Option (BitVec 128)
  | none => some (ipIntFromPrefix 128 128)
  | some arg => (prefixFromPrefixString 128 arg).map (ipIntFromPrefix 128)

/-- `_split_addr_prefix`. -/
def splitAddrPrefix (s : Text) : Option (Text × Option Text) :=
  match s.splitOn '/' with
  | [addr] => some (addr, none)
  | [addr, mask] => some (addr, some mask)
  | _ => none

/-- `IPv4Network | IPv6Network`. -/
inductive Network
  | v4 (net : Net 32)
  | v6 (net : Net 128)

/-- `IPv4Network`, of a text and not strict. -/
def ipv4Network (s : Text) : Option (Net 32) := do
  let (addr, mask) ← splitAddrPrefix s
  let ip ← ipv4Address addr
  let netmask ← makeNetmask4 mask
  some (.make ip netmask)

/-- `IPv6Network`, of a text and not strict. -/
def ipv6Network (s : Text) : Option (Net 128) := do
  let (addr, mask) ← splitAddrPrefix s
  let ip ← ipv6Address addr
  let netmask ← makeNetmask6 mask
  some (.make ip.1 netmask)

/-- `ip_network(text, strict=False)`. A text that is none is a `ValueError`. -/
def ipNetwork (s : Text) : Option Network :=
  match ipv4Network s with
  | some net => some (.v4 net)
  | none => (ipv6Network s).map .v6

/-- `address in network`: never across versions. -/
def Network.contains : Network → Address → Bool
  | .v4 net, .v4 ip => net.contains ip
  | .v6 net, .v6 ip _ => net.contains ip
  | _, _ => false

/-! ### The text of an address -/

/-- A character of an address without its zone. -/
def isAddressChar (c : Char) : Bool := isHexDigit c || c = '.' || c = ':'

theorem isAddressChar_of_hex {c : Char} (h : isHexDigit c = true) : isAddressChar c = true := by
  simp [isAddressChar, h]

theorem isAddressChar_of_digit {c : Char} (h : c.isDigit = true) : isAddressChar c = true :=
  isAddressChar_of_hex (by simp [isHexDigit, h])

theorem of_mem_intercalate {x c : Char} {parts : List Text} (h : c ∈ [x].intercalate parts) :
    c = x ∨ ∃ part ∈ parts, c ∈ part := by
  induction parts with
  | nil => exact absurd h (by simp)
  | cons part parts ih =>
      cases parts with
      | nil => exact Or.inr ⟨part, List.mem_cons_self, by simpa using h⟩
      | cons part' parts =>
          rw [List.intercalate_cons_cons, List.append_assoc, List.mem_append] at h
          rcases h with h | h
          · exact Or.inr ⟨part, List.mem_cons_self, h⟩
          · rcases List.mem_cons.mp h with rfl | h
            · exact Or.inl rfl
            · exact (ih h).imp_right fun ⟨q, hq, hc⟩ => ⟨q, List.mem_cons_of_mem _ hq, hc⟩

/-- A character of a text separates its parts, or is in one of them. -/
theorem of_mem_splitOn {x c : Char} {s : Text} (h : c ∈ s) : c = x ∨ ∃ part ∈ s.splitOn x, c ∈ part :=
  of_mem_intercalate (by rwa [List.intercalate_splitOn])

theorem of_mapM_eq_some {α β : Type} {f : α → Option β} {l : List α} {r : List β}
    (h : l.mapM f = some r) {a : α} (ha : a ∈ l) : ∃ b, f a = some b := by
  induction l generalizing r with
  | nil => exact absurd ha List.not_mem_nil
  | cons x l ih =>
      rw [List.mapM_cons] at h
      obtain ⟨b, hb, h⟩ := Option.bind_eq_some_iff.mp h
      obtain ⟨bs, hbs, -⟩ := Option.bind_eq_some_iff.mp h
      rcases List.mem_cons.mp ha with rfl | ha
      · exact ⟨b, hb⟩
      · exact ih hbs ha

theorem digit_of_parseOctet {s : Text} {n : ℕ} (h : parseOctet s = some n) :
    ∀ c ∈ s, c.isDigit = true := by
  rw [parseOctet] at h
  split at h
  · cases h
  · split at h
    · cases h
    · rename_i hall
      exact List.all_eq_true.mp (by simpa using hall)

theorem hex_of_parseHextet {s : Text} {n : ℕ} (h : parseHextet s = some n) :
    ∀ c ∈ s, isHexDigit c = true := by
  rw [parseHextet] at h
  split at h
  · cases h
  · rename_i hall
    exact List.all_eq_true.mp (by simpa using hall)

/-- The text of an IPv4 address: digits and dots. -/
theorem text_of_ipv4 {s : Text} {ip : BitVec 32} (h : ipv4FromString s = some ip) :
    s ≠ [] ∧ ∀ c ∈ s, isAddressChar c = true := by
  rw [ipv4FromString] at h
  split at h
  · cases h
  · rename_i hne
    split at h
    · cases h
    · obtain ⟨octets, hoctets, -⟩ := Option.map_eq_some_iff.mp h
      refine ⟨fun hs => hne (hs ▸ rfl), fun c hc => ?_⟩
      rcases @of_mem_splitOn '.' _ _ hc with rfl | ⟨part, hpart, hc⟩
      · rfl
      · obtain ⟨n, hn⟩ := of_mapM_eq_some hoctets hpart
        exact isAddressChar_of_digit (digit_of_parseOctet hn c hc)

theorem ipv4FromString_of_address {s : Text} {ip : BitVec 32} (h : ipv4Address s = some ip) :
    ipv4FromString s = some ip := by
  rw [ipv4Address] at h
  split at h
  · cases h
  · exact h

/-- **No part is passed over**: it is read as a hextet, or empty. -/
theorem layout_covers {parts : List Text} {l : Layout} (h : layout parts = some l) {part : Text}
    (hpart : part ∈ parts) :
    part ∈ parts.take l.hi ∨ part ∈ parts.drop (parts.length - l.lo) ∨ part = [] := by
  obtain ⟨i, hi, rfl⟩ := List.getElem_of_mem hpart
  have htake : ∀ n, i < n → parts[i] ∈ parts.take n := fun n hn =>
    List.mem_iff_getElem.mpr ⟨i, by rw [List.length_take]; omega, by simp⟩
  have hdrop : ∀ n, n ≤ i → parts[i] ∈ parts.drop n := fun n hn =>
    List.mem_iff_getElem.mpr ⟨i - n, by rw [List.length_drop]; omega, by
      simp [Nat.add_sub_cancel' hn]⟩
  have hfirst : i = 0 → parts[i] = parts.headD [] := by
    rintro rfl
    cases parts with
    | nil => exact absurd hi (by simp)
    | cons first parts => rfl
  have hlast : i = parts.length - 1 → parts[i] = parts.getLastD [] := by
    rintro rfl
    rw [List.getLastD_eq_getLast?, List.getLast?_eq_getElem?, List.getElem?_eq_getElem hi]
    rfl
  simp only [layout] at h
  split at h
  · cases h
  split at h
  · split_ifs at h
    obtain rfl := Option.some.inj h
    exact Or.inl (htake _ hi)
  · rename_i skip hskip
    have hmem : skip ∈ skipIndices parts := hskip ▸ List.mem_singleton_self skip
    obtain ⟨hrange, hempty⟩ := List.mem_filter.mp hmem
    rw [List.mem_range'_1] at hrange
    have hends : ((parts.headD []).isEmpty = true ∧ skip = 1 ∨ l.hi = skip) ∧
        ((parts.getLastD []).isEmpty = true ∧ parts.length = skip + 2 ∨
          l.lo = parts.length - skip - 1) := by
      cases hleading : (parts.headD []).isEmpty <;> cases htrailing : (parts.getLastD []).isEmpty <;>
        simp only [hleading, htrailing, Bool.true_and, Bool.false_and, Bool.false_eq_true, if_true,
          if_false, decide_eq_true_eq] at h <;>
        split_ifs at h <;> obtain rfl := Option.some.inj h <;> simp <;> omega
    rcases Nat.lt_trichotomy i skip with hbefore | rfl | hafter
    · rcases hends.1 with ⟨hleading, rfl⟩ | hskip
      · exact Or.inr (Or.inr ((hfirst (by omega)).trans (List.isEmpty_iff.mp hleading)))
      · exact Or.inl (htake _ (hskip ▸ hbefore))
    · rw [List.getD_eq_getElem?_getD, List.getElem?_eq_getElem hi, Option.getD_some] at hempty
      exact Or.inr (Or.inr (List.isEmpty_iff.mp hempty))
    · rcases hends.2 with ⟨htrailing, hlength⟩ | hskip
      · exact Or.inr (Or.inr ((hlast (by omega)).trans (List.isEmpty_iff.mp htrailing)))
      · exact Or.inr (Or.inl (hdrop _ (by omega)))
  · cases h

/-- The text of an IPv6 address: hex digits, dots and colons. -/
theorem text_of_ipv6 {s : Text} {ip : BitVec 128} (h : ipv6FromString s = some ip) :
    s ≠ [] ∧ ∀ c ∈ s, isAddressChar c = true := by
  rw [ipv6FromString] at h
  split at h
  · cases h
  · rename_i hne
    obtain ⟨parts, hparts, h⟩ := Option.bind_eq_some_iff.mp h
    obtain ⟨l, hl, h⟩ := Option.bind_eq_some_iff.mp h
    obtain ⟨hi, hhi, h⟩ := Option.bind_eq_some_iff.mp h
    obtain ⟨lo, hlo, -⟩ := Option.bind_eq_some_iff.mp h
    have hread : ∀ part ∈ parts, ∀ c ∈ part, isAddressChar c = true := by
      intro part hpart c hc
      rcases layout_covers hl hpart with hmem | hmem | rfl
      · obtain ⟨n, hn⟩ := of_mapM_eq_some hhi hmem
        exact isAddressChar_of_hex (hex_of_parseHextet hn c hc)
      · obtain ⟨n, hn⟩ := of_mapM_eq_some hlo hmem
        exact isAddressChar_of_hex (hex_of_parseHextet hn c hc)
      · exact absurd hc List.not_mem_nil
    refine ⟨fun hs => hne (hs ▸ rfl), fun c hc => ?_⟩
    rcases @of_mem_splitOn ':' _ _ hc with rfl | ⟨part, hpart, hc⟩
    · rfl
    · simp only [ipv6Parts] at hparts
      split_ifs at hparts
      · -- The last part is the text of an IPv4 address.
        obtain ⟨ip, hip, rfl⟩ := Option.map_eq_some_iff.mp hparts
        have hsplit := List.splitOn_ne_nil ':' s
        rw [← List.dropLast_append_getLast hsplit] at hpart
        rcases List.mem_append.mp hpart with hpart | hpart
        · exact hread part (List.mem_append_left _ hpart) c hc
        · obtain rfl := List.mem_singleton.mp hpart
          rw [List.getLastD_eq_getLast?, List.getLast?_eq_some_getLast hsplit] at hip
          exact (text_of_ipv4 (ipv4FromString_of_address hip)).2 c hc
      · obtain rfl := Option.some.inj hparts
        exact hread part hpart c hc

/-- **The text of an address** is digits, dots and colons, and then its zone. -/
theorem text_of_ipAddress {s : Text} {a : Address} (h : ipAddress s = some a) :
    ∃ base, base ≠ [] ∧ (∀ c ∈ base, isAddressChar c = true) ∧
      ((a.scopeId = none ∧ s = base) ∨
        ∃ z, a.scopeId = some z ∧ z ≠ [] ∧ s = base ++ '%' :: z) := by
  rw [ipAddress] at h
  split at h
  · rename_i ip hip
    obtain rfl := Option.some.inj h
    obtain ⟨hne, hall⟩ := text_of_ipv4 (ipv4FromString_of_address hip)
    exact ⟨s, hne, hall, Or.inl ⟨rfl, rfl⟩⟩
  · obtain ⟨⟨ip, zone⟩, h₆, rfl⟩ := Option.map_eq_some_iff.mp h
    rw [ipv6Address] at h₆
    split at h₆
    · cases h₆
    · obtain ⟨⟨base, z⟩, hsplit, h₆⟩ := Option.bind_eq_some_iff.mp h₆
      obtain ⟨ip', hip, h₆⟩ := Option.map_eq_some_iff.mp h₆
      obtain ⟨rfl, rfl⟩ := Prod.mk.inj h₆
      obtain ⟨hne, hall⟩ := text_of_ipv6 hip
      refine ⟨base, hne, hall, ?_⟩
      rw [splitScopeId] at hsplit
      have hs := List.takeWhile_append_dropWhile (p := (· ≠ '%')) (l := s)
      split at hsplit
      · obtain ⟨rfl, rfl⟩ := Prod.mk.inj (Option.some.inj hsplit)
        exact Or.inl ⟨rfl, rfl⟩
      · rename_i x scopeId hdrop
        split at hsplit
        · cases hsplit
        · rename_i hscope
          obtain ⟨rfl, rfl⟩ := Prod.mk.inj (Option.some.inj hsplit)
          have hx : x = '%' := by
            have := List.head?_dropWhile_not (· ≠ '%') s
            rw [hdrop] at this
            simpa using this
          subst hx
          refine Or.inr ⟨scopeId, rfl, fun hz => hscope (by simp [hz]), ?_⟩
          rw [← hdrop]
          exact hs.symm

end IpAddress
