import BackendTemplate.Rbac
import BackendTemplate.Regex

/-!
# Identifiers

The strings that `Username`, `RoleName`, `Permission` and `Email` accept, against the grammar of
each. The four patterns are read as `re` reads them (`Regex.Accepts`), which shows the recognisers
of the model to be what the patterns say; and `$` stands before a final line feed as well, so that
each of them takes an identifier with a line feed after it.

## Main results

* `accepts_name`, `accepts_email` — the patterns as `re` reads them.
* `identifiers_exact_iff` — a value object is exact on every string but an identifier with a line
  feed after it.
-/

namespace BackendTemplate

open Regex

variable {cls : Char → Bool} {s : List Char}

/-! ### Grammars -/

/-- A letter followed by so many characters of a class. -/
def IsName (cls : Char → Bool) (least : ℕ) (most : Option ℕ) (s : List Char) : Prop :=
  ∃ c cs, s = c :: cs ∧ isAsciiLetter c = true ∧ least ≤ cs.length ∧ (∀ m ∈ most, cs.length ≤ m) ∧
    ∀ d ∈ cs, cls d = true

/-- A letter followed by 1 to 31 characters from `[A-Za-z0-9_]`. -/
def IsUsername : List Char → Prop := IsName isUsernameChar 1 (some 31)

/-- A letter followed by 2 to 31 characters from `[a-zA-Z0-9_-]`. -/
def IsRoleName : List Char → Prop := IsName isRoleNameChar 2 (some 31)

/-- A letter followed by 1 to 63 characters from `[a-zA-Z0-9_:.-]`. -/
def IsPermissionName : List Char → Prop := IsName isPermissionNameChar 1 (some 63)

/-- `local@domain.tld`, with at least two letters at the top level. -/
def IsEmail (s : List Char) : Prop :=
  ∃ localPart domain tld, s = localPart ++ '@' :: (domain ++ '.' :: tld) ∧
    (localPart ≠ [] ∧ ∀ c ∈ localPart, isEmailLocalChar c = true) ∧
    (domain ≠ [] ∧ ∀ c ∈ domain, isEmailDomainChar c = true) ∧
    2 ≤ tld.length ∧ ∀ c ∈ tld, isAsciiLetter c = true

/-! ### The patterns, as `re` reads them -/

/-- `[a-zA-Z]C{least,most}` for a class `C` of characters. -/
def nameBody (cls : Char → Bool) (least : ℕ) (most : Option ℕ) : Regex Char :=
  .seq (.cls isAsciiLetter) (.rep (.cls cls) least most)

/-- `[a-zA-Z0-9._%+-]+@[a-zA-Z0-9.-]+\.[a-zA-Z]{2,}` -/
def emailBody : Regex Char :=
  .seq (.rep (.cls isEmailLocalChar) 1 none) (.seq (.cls (· = '@'))
    (.seq (.rep (.cls isEmailDomainChar) 1 none) (.seq (.cls (· = '.'))
      (.rep (.cls isAsciiLetter) 2 none))))

theorem plain_nameBody {least : ℕ} {most : Option ℕ} : (nameBody cls least most).Plain :=
  ⟨trivial, trivial⟩

theorem plain_emailBody : emailBody.Plain := ⟨trivial, trivial, trivial, trivial, trivial⟩

theorem matches_nameBody {nl : Char} {b a : List Char} {least : ℕ} {most : Option ℕ} :
    Matches nl (nameBody cls least most) b s a ↔ IsName cls least most s := by
  constructor
  · rintro ⟨_, cs, rfl, ⟨c, rfl, hc⟩, hcs⟩
    exact ⟨c, cs, rfl, hc, matches_rep_cls.mp hcs⟩
  · rintro ⟨c, cs, rfl, hc, hcs⟩
    exact ⟨[c], cs, rfl, ⟨c, rfl, hc⟩, matches_rep_cls.mpr hcs⟩

theorem matches_emailBody {nl : Char} {b a : List Char} :
    Matches nl emailBody b s a ↔ IsEmail s := by
  constructor
  · rintro ⟨localPart, _, rfl, hlocal, _, _, rfl, ⟨c, rfl, hat⟩, domain, _, rfl, hdomain, _, tld,
      rfl, ⟨d, rfl, hdot⟩, htld⟩
    obtain rfl := of_decide_eq_true hat
    obtain rfl := of_decide_eq_true hdot
    obtain ⟨hlen, -, hlocal⟩ := matches_rep_cls.mp hlocal
    obtain ⟨hlen', -, hdomain⟩ := matches_rep_cls.mp hdomain
    obtain ⟨hlen'', -, htld⟩ := matches_rep_cls.mp htld
    exact ⟨localPart, domain, tld, rfl, ⟨List.ne_nil_of_length_pos hlen, hlocal⟩,
      ⟨List.ne_nil_of_length_pos hlen', hdomain⟩, hlen'', htld⟩
  · rintro ⟨localPart, domain, tld, rfl, ⟨hlen, hlocal⟩, ⟨hlen', hdomain⟩, hlen'', htld⟩
    exact ⟨localPart, _, rfl,
      matches_rep_cls.mpr ⟨List.length_pos_of_ne_nil hlen, by simp, hlocal⟩, ['@'], _, rfl,
      ⟨'@', rfl, rfl⟩, domain, _, rfl,
      matches_rep_cls.mpr ⟨List.length_pos_of_ne_nil hlen', by simp, hdomain⟩, ['.'], tld, rfl,
      ⟨'.', rfl, rfl⟩, matches_rep_cls.mpr ⟨hlen'', by simp, htld⟩⟩

/-- **An anchored name** is a name, or one with a line feed after it. -/
theorem accepts_name {least : ℕ} {most : Option ℕ} :
    Accepts '\n' (nameBody cls least most).anchored s ↔
      ∃ t, IsName cls least most t ∧ (s = t ∨ s = t ++ ['\n']) := by
  simp only [accepts_anchored plain_nameBody, matches_nameBody]

/-- **An anchored address** is an address, or one with a line feed after it. -/
theorem accepts_email :
    Accepts '\n' emailBody.anchored s ↔ ∃ t, IsEmail t ∧ (s = t ∨ s = t ++ ['\n']) := by
  simp only [accepts_anchored plain_emailBody, matches_emailBody]

/-! ### The recognisers -/

theorem atDollar_iff : atDollar s = true ↔ s = [] ∨ s = ['\n'] := by
  rcases s with _ | ⟨c, _ | ⟨d, s⟩⟩
  · simp [atDollar]
  · simp [atDollar]
  · simp [atDollar]

/-- **Taking a class greedily up to `$`**, when a line feed is not of the class: what is taken is
what stands before the end, or before a final line feed. -/
theorem greedy_iff (hnl : cls '\n' = false) {P : List Char → Prop} :
    P (s.takeWhile cls) ∧ atDollar (s.dropWhile cls) = true ↔
      ∃ t, P t ∧ (∀ c ∈ t, cls c = true) ∧ (s = t ∨ s = t ++ ['\n']) := by
  constructor
  · rintro ⟨hP, hend⟩
    refine ⟨s.takeWhile cls, hP, fun c hc => List.mem_takeWhile_imp hc, ?_⟩
    rcases atDollar_iff.mp hend with hend | hend
    · exact Or.inl (by simpa [hend] using (List.takeWhile_append_dropWhile (p := cls) (l := s)).symm)
    · exact Or.inr (by simpa [hend] using (List.takeWhile_append_dropWhile (p := cls) (l := s)).symm)
  · rintro ⟨t, hP, ht, hs⟩
    have hspan : s.takeWhile cls = t ∧ (s.dropWhile cls = [] ∨ s.dropWhile cls = ['\n']) := by
      rcases hs with rfl | rfl
      · have h := span_class (a := []) ht (by simp)
        rw [List.append_nil] at h
        exact ⟨h.1, Or.inl h.2⟩
      · have h := span_class (a := ['\n']) ht (by simp [hnl])
        exact ⟨h.1, Or.inr h.2⟩
    exact ⟨hspan.1.symm ▸ hP, atDollar_iff.mpr hspan.2⟩

/-- Any recogniser of a letter and a run of a class, read as its pattern. -/
theorem word_iff (hnl : cls '\n' = false) {least : ℕ} {most : Option ℕ} {c : Char}
    {cs : List Char} :
    (isAsciiLetter c = true ∧ (least ≤ (cs.takeWhile cls).length ∧
        ∀ m ∈ most, (cs.takeWhile cls).length ≤ m) ∧ atDollar (cs.dropWhile cls) = true) ↔
      ∃ t, IsName cls least most t ∧ (c :: cs = t ∨ c :: cs = t ++ ['\n']) := by
  rw [greedy_iff hnl (P := fun t => least ≤ t.length ∧ ∀ m ∈ most, t.length ≤ m)]
  constructor
  · rintro ⟨hc, t, ⟨hleast, hmost⟩, ht, hs⟩
    refine ⟨c :: t, ⟨c, t, rfl, hc, hleast, hmost, ht⟩, ?_⟩
    exact hs.imp (congrArg (c :: ·)) (congrArg (c :: ·))
  · rintro ⟨_, ⟨c', t, rfl, hc, hleast, hmost, ht⟩, heq⟩
    have hs : c = c' ∧ (cs = t ∨ cs = t ++ ['\n']) := by
      rcases heq with hs | hs
      · obtain ⟨rfl, rfl⟩ := List.cons.inj hs
        exact ⟨rfl, Or.inl rfl⟩
      · obtain ⟨rfl, rfl⟩ := List.cons.inj hs
        exact ⟨rfl, Or.inr rfl⟩
    obtain ⟨rfl, hs⟩ := hs
    exact ⟨hc, t, ⟨hleast, hmost⟩, ht, hs⟩

/-- No name is empty, with a line feed after it or without. -/
theorem not_name_of_nil {least : ℕ} {most : Option ℕ} :
    ¬ ∃ t, IsName cls least most t ∧ ([] = t ∨ [] = t ++ ['\n']) := by
  rintro ⟨_, ⟨c, cs, rfl, -⟩, h | h⟩
  · cases h
  · cases h

/-- **`ROLE_NAME_PATTERN` and `PERMISSION_NAME_PATTERN`**, as `re` reads such a pattern. -/
theorem namePattern_iff (hnl : cls '\n' = false) (least most : ℕ) :
    namePattern cls least most s = true ↔
      Accepts '\n' (nameBody cls least (some most)).anchored s := by
  rw [accepts_name]
  cases s with
  | nil => exact iff_of_false (by simp [namePattern]) not_name_of_nil
  | cons c cs =>
      rw [← word_iff hnl]
      simp [namePattern, and_assoc]

/-- **`USERNAME_PATTERN`**, as `re` reads it. -/
theorem usernamePattern_iff :
    usernamePattern s = true ↔ Accepts '\n' (nameBody isUsernameChar 1 none).anchored s := by
  rw [accepts_name]
  cases s with
  | nil => exact iff_of_false (by simp [usernamePattern]) not_name_of_nil
  | cons c cs =>
      rw [← word_iff (by decide)]
      simp [usernamePattern, and_assoc, Nat.one_le_iff_ne_zero]

/-- What `emailDomain` reads: the part after the last dot is the top level. -/
theorem emailDomain_iff {m : List Char} :
    emailDomain m = true ↔ ∃ domain tld, m = domain ++ '.' :: tld ∧ domain ≠ [] ∧
      2 ≤ tld.length ∧ ∀ c ∈ tld, isAsciiLetter c = true := by
  have hdot : ∀ c, isAsciiLetter c = true → (c != '.') = true := by
    intro c hc
    rw [bne_iff_ne]
    rintro rfl
    exact absurd hc (by decide)
  rw [emailDomain]
  simp only [Bool.and_eq_true, List.all_eq_true, decide_eq_true_eq]
  constructor
  · rintro ⟨⟨htld, hlen⟩, hroom⟩
    have hsplit := List.takeWhile_append_dropWhile (p := (· != '.')) (l := m.reverse)
    rcases hdrop : m.reverse.dropWhile (· != '.') with _ | ⟨c, domain⟩
    · rw [hdrop, List.append_nil] at hsplit
      rw [hsplit, List.length_reverse] at hroom
      omega
    · have hc : c = '.' := by
        have := List.dropWhile_get_zero_not (· != '.') m.reverse (by simp [hdrop])
        simpa [hdrop] using this
      rw [hdrop, hc] at hsplit
      have hm : m = domain.reverse ++ '.' :: (m.reverse.takeWhile (· != '.')).reverse := by
        simpa using congrArg List.reverse hsplit.symm
      refine ⟨_, _, hm, ?_, by simpa using hlen, fun c hc => htld c (List.mem_reverse.mp hc)⟩
      rintro hnil
      have := congrArg List.length hm
      rw [List.reverse_eq_nil_iff.mp hnil] at this
      simp only [List.length_append, List.reverse_nil, List.length_nil, List.length_cons,
        List.length_reverse] at this
      omega
  · rintro ⟨domain, tld, rfl, hdomain, hlen, htld⟩
    have hrev : (domain ++ '.' :: tld).reverse = tld.reverse ++ '.' :: domain.reverse := by simp
    obtain ⟨htake, -⟩ := span_class (p := (· != '.')) (t := tld.reverse)
      (a := '.' :: domain.reverse) (fun c hc => hdot c (htld c (List.mem_reverse.mp hc)))
      (by simp)
    have hpos := List.length_pos_of_ne_nil hdomain
    rw [hrev, htake]
    refine ⟨⟨fun c hc => htld c (List.mem_reverse.mp hc), by simpa using hlen⟩, ?_⟩
    simp only [List.length_append, List.length_cons, List.length_reverse]
    omega

/-- **`EMAIL_PATTERN`**, as `re` reads it. -/
theorem emailPattern_iff : emailPattern s = true ↔ Accepts '\n' emailBody.anchored s := by
  have hread : emailPattern s = true ↔
      ∃ localPart rest, s = localPart ++ '@' :: rest ∧
        (localPart ≠ [] ∧ ∀ c ∈ localPart, isEmailLocalChar c = true) ∧
        emailDomain (rest.takeWhile isEmailDomainChar) = true ∧
        atDollar (rest.dropWhile isEmailDomainChar) = true := by
    rw [emailPattern]
    constructor
    · intro h
      split at h
      · rename_i rest hdrop
        simp only [Bool.and_eq_true, Bool.not_eq_true', List.isEmpty_eq_false_iff] at h
        refine ⟨_, rest, ?_, ⟨h.1.1, fun c hc => List.mem_takeWhile_imp hc⟩, h.1.2, h.2⟩
        rw [← hdrop, List.takeWhile_append_dropWhile]
      · cases h
    · rintro ⟨localPart, rest, rfl, ⟨hne, hlocal⟩, hdomain, hend⟩
      obtain ⟨htake, hdrop⟩ := span_class (a := '@' :: rest) hlocal
        (by simp [isEmailLocalChar, isAsciiLetter, isAsciiDigit])
      rw [htake, hdrop]
      simp [hne, hdomain, hend]
  rw [hread, accepts_email]
  constructor
  · rintro ⟨localPart, rest, rfl, hlocal, hend⟩
    obtain ⟨m, hm, hall, hrest⟩ := (greedy_iff (by decide) (P := (emailDomain · = true))).mp hend
    obtain ⟨domain, tld, rfl, hdomain, hlen, htld⟩ := emailDomain_iff.mp hm
    refine ⟨localPart ++ '@' :: (domain ++ '.' :: tld), ⟨localPart, domain, tld, rfl, hlocal,
      ⟨hdomain, fun c hc => hall c (List.mem_append_left _ hc)⟩, hlen, htld⟩, ?_⟩
    rcases hrest with rfl | rfl
    · exact Or.inl rfl
    · exact Or.inr (by simp)
  · rintro ⟨_, ⟨localPart, domain, tld, rfl, hlocal, ⟨hdomain, hall⟩, hlen, htld⟩, hs⟩
    have hletter : ∀ c ∈ domain ++ '.' :: tld, isEmailDomainChar c = true := by
      intro c hc
      rcases List.mem_append.mp hc with hc | hc
      · exact hall c hc
      · rcases List.mem_cons.mp hc with rfl | hc
        · rfl
        · simp [isEmailDomainChar, htld c hc]
    have hvalid := emailDomain_iff.mpr ⟨domain, tld, rfl, hdomain, hlen, htld⟩
    have hend := fun rest hrest =>
      (@greedy_iff isEmailDomainChar rest (by decide) (emailDomain · = true)).mpr
        ⟨domain ++ '.' :: tld, hvalid, hletter, hrest⟩
    rcases hs with rfl | rfl
    · exact ⟨localPart, _, rfl, hlocal, hend _ (Or.inl rfl)⟩
    · exact ⟨localPart, domain ++ '.' :: tld ++ ['\n'], by simp, hlocal, hend _ (Or.inr rfl)⟩

/-! ### The value objects -/

theorem Username.exists_make_iff {s : String} :
    (∃ u, Username.make s = .ok u) ↔ Username.validate s = .ok () := by
  unfold Username.make
  split
  · rename_i h
    exact iff_of_true ⟨_, rfl⟩ h
  · rename_i e h
    exact iff_of_false (fun ⟨_, hu⟩ => nomatch hu) (by simp [h])

theorem RoleName.exists_make_iff {s : String} :
    (∃ r, RoleName.make s = .ok r) ↔ RoleName.validate s = .ok () := by
  unfold RoleName.make
  split
  · rename_i h
    exact iff_of_true ⟨_, rfl⟩ h
  · rename_i e h
    exact iff_of_false (fun ⟨_, hr⟩ => nomatch hr) (by simp [h])

theorem Permission.exists_make_iff {s : String} {description : Option String} :
    (∃ p, Permission.make s description = .ok p) ↔ Permission.validate s = .ok () := by
  unfold Permission.make
  split
  · rename_i h
    exact iff_of_true ⟨_, rfl⟩ h
  · rename_i e h
    exact iff_of_false (fun ⟨_, hp⟩ => nomatch hp) (by simp [h])

theorem Email.exists_make_iff {s : Option String} :
    (∃ e, Email.make s = .ok e) ↔ Email.validate s = .ok () := by
  unfold Email.make
  split
  · rename_i h
    exact iff_of_true ⟨_, rfl⟩ h
  · rename_i e h
    exact iff_of_false (fun ⟨_, he⟩ => nomatch he) (by simp [h])

/-- What an anchored pattern accepts, apart. -/
theorem accepted_iff {G : List Char → Prop} :
    (∃ t, G t ∧ (s = t ∨ s = t ++ ['\n'])) ↔ G s ∨ ∃ t, s = t ++ ['\n'] ∧ G t := by
  constructor
  · rintro ⟨t, ht, rfl | rfl⟩
    · exact Or.inl ht
    · exact Or.inr ⟨t, rfl, ht⟩
  · rintro (h | ⟨t, rfl, ht⟩)
    · exact ⟨s, h, Or.inl rfl⟩
    · exact ⟨t, ht, Or.inr rfl⟩

/-- **What `Username` accepts**: the length is checked on the whole string, the line feed included. -/
theorem Username.accepts_iff (s : String) :
    (∃ u, Username.make s = .ok u) ↔
      IsUsername s.toList ∨ ∃ t, s.toList = t ++ ['\n'] ∧ IsUsername t ∧ t.length ≤ 31 := by
  have hlen : s.length = s.toList.length := String.length_toList.symm
  have hbound : ∀ t, (IsName isUsernameChar 1 none t ∧ t.length ≤ maxUsernameLength) ↔
      IsUsername t := by
    intro t
    constructor
    · rintro ⟨⟨c, cs, rfl, hc, hleast, -, hall⟩, hmax⟩
      exact ⟨c, cs, rfl, hc, hleast, fun m hm => by cases hm; exact Nat.le_of_succ_le_succ hmax, hall⟩
    · rintro ⟨c, cs, rfl, hc, hleast, hmost, hall⟩
      exact ⟨⟨c, cs, rfl, hc, hleast, by simp, hall⟩, Nat.succ_le_succ (hmost 31 rfl)⟩
  have hvalid : Username.validate s = .ok () ↔
      s.toList.length ≤ maxUsernameLength ∧ usernamePattern s.toList = true := by
    rw [Username.validate, hlen]
    rcases hs : s.toList with _ | ⟨c, cs⟩
    · simp [usernamePattern]
    · split
      · simp at *
      · split
        · simp_all
        · split
          · simp_all
          · simp_all
  rw [Username.exists_make_iff, hvalid, usernamePattern_iff, accepts_name, accepted_iff, and_or_left]
  refine or_congr (and_comm.trans (hbound _)) ⟨?_, ?_⟩
  · rintro ⟨hmax, t, ht, hname⟩
    rw [ht, List.length_append, List.length_singleton, maxUsernameLength] at hmax
    have hshort : t.length ≤ 31 := Nat.le_of_succ_le_succ hmax
    exact ⟨t, ht, (hbound t).mp ⟨hname, Nat.le_succ_of_le hshort⟩, hshort⟩
  · rintro ⟨t, ht, hname, hshort⟩
    refine ⟨?_, t, ht, ((hbound t).mpr hname).1⟩
    rw [ht, List.length_append, List.length_singleton, maxUsernameLength]
    exact Nat.succ_le_succ hshort

/-- **What `RoleName` accepts.** -/
theorem RoleName.accepts_iff (s : String) :
    (∃ r, RoleName.make s = .ok r) ↔
      IsRoleName s.toList ∨ ∃ t, s.toList = t ++ ['\n'] ∧ IsRoleName t := by
  have hvalid : RoleName.validate s = .ok () ↔ roleNamePattern s.toList = true := by
    rw [RoleName.validate]
    split
    · rename_i hs
      simp [hs, roleNamePattern, namePattern]
    · split
      · simp_all
      · simp_all
  rw [RoleName.exists_make_iff, hvalid, roleNamePattern, namePattern_iff (by decide), accepts_name,
    accepted_iff]
  rfl

/-- **What `Permission` accepts.** -/
theorem Permission.accepts_iff (s : String) (description : Option String) :
    (∃ p, Permission.make s description = .ok p) ↔
      IsPermissionName s.toList ∨ ∃ t, s.toList = t ++ ['\n'] ∧ IsPermissionName t := by
  have hvalid : Permission.validate s = .ok () ↔ permissionNamePattern s.toList = true := by
    rw [Permission.validate]
    split
    · simp_all
    · simp_all
  rw [Permission.exists_make_iff, hvalid, permissionNamePattern, namePattern_iff (by decide),
    accepts_name, accepted_iff]
  rfl

/-- **What `Email` accepts.** -/
theorem Email.accepts_iff (s : String) :
    (∃ e, Email.make (some s) = .ok e) ↔
      IsEmail s.toList ∨ ∃ t, s.toList = t ++ ['\n'] ∧ IsEmail t := by
  have hvalid : Email.validate (some s) = .ok () ↔ emailPattern s.toList = true := by
    rw [Email.validate]
    split
    · rename_i hs
      simp [hs, emailPattern]
    · split
      · simp_all
      · simp_all
  rw [Email.exists_make_iff, hvalid, emailPattern_iff, accepts_email, accepted_iff]

/-! ### Line breaks -/

/-- `\n` and `\r`. -/
def isLineBreak (c : Char) : Bool := c = '\n' || c = '\r'

/-- A character of a class without line breaks is none. -/
theorem isLineBreak_eq_false (hn : cls '\n' = false) (hr : cls '\r' = false) {c : Char}
    (hc : cls c = true) : isLineBreak c = false := by
  rw [isLineBreak, Bool.or_eq_false_iff, decide_eq_false_iff_not, decide_eq_false_iff_not]
  constructor
  · rintro rfl
    rw [hn] at hc
    cases hc
  · rintro rfl
    rw [hr] at hc
    cases hc

theorem IsName.no_break {least : ℕ} {most : Option ℕ} (h : IsName cls least most s)
    (hn : cls '\n' = false) (hr : cls '\r' = false) : ∀ c ∈ s, isLineBreak c = false := by
  obtain ⟨c, cs, rfl, hc, -, -, hall⟩ := h
  exact List.forall_mem_cons.mpr ⟨isLineBreak_eq_false (by decide) (by decide) hc,
    fun d hd => isLineBreak_eq_false hn hr (hall d hd)⟩

theorem IsEmail.no_break (h : IsEmail s) : ∀ c ∈ s, isLineBreak c = false := by
  obtain ⟨localPart, domain, tld, rfl, ⟨-, hlocal⟩, ⟨-, hdomain⟩, -, htld⟩ := h
  intro c hc
  simp only [List.mem_append, List.mem_cons] at hc
  rcases hc with hc | rfl | hc | rfl | hc
  · exact isLineBreak_eq_false (by decide) (by decide) (hlocal c hc)
  · decide
  · exact isLineBreak_eq_false (by decide) (by decide) (hdomain c hc)
  · decide
  · exact isLineBreak_eq_false (by decide) (by decide) (htld c hc)

/-- **A value object is exact on a string**: it accepts it just when the grammar has it, and accepts
no line break. -/
def Exact (accepts : Prop) (grammar : List Char → Prop) (s : String) : Prop :=
  (accepts ↔ grammar s.toList) ∧ (accepts → ∀ c ∈ s.toList, isLineBreak c = false)

/-- Exact on what the grammar has, and on no other string that is accepted. -/
theorem exact_iff {accepts : Prop} {grammar short : List Char → Prop} {s : String}
    (haccepts : accepts ↔ grammar s.toList ∨ ∃ t, s.toList = t ++ ['\n'] ∧ short t)
    (hbreak : grammar s.toList → ∀ c ∈ s.toList, isLineBreak c = false) :
    Exact accepts grammar s ↔ ¬ ∃ t, s.toList = t ++ ['\n'] ∧ short t := by
  constructor
  · rintro ⟨-, hnone⟩ ⟨t, hs, ht⟩
    have hnl := hnone (haccepts.mpr (Or.inr ⟨t, hs, ht⟩)) '\n' (by simp [hs])
    exact absurd hnl (by decide)
  · intro hnot
    have hgrammar : accepts ↔ grammar s.toList := haccepts.trans (or_iff_left hnot)
    exact ⟨hgrammar, fun h => hbreak (hgrammar.mp h)⟩

/-- **When identifiers match their grammar.** On every string each of the four value objects accepts
just what its grammar has, and no line break, unless the string is an identifier with a line feed
after it; a username is one that the line feed does not make too long. -/
theorem identifiers_exact_iff (s : String) :
    (Exact (∃ u, Username.make s = .ok u) IsUsername s ↔
        ¬ ∃ t, s.toList = t ++ ['\n'] ∧ IsUsername t ∧ t.length ≤ 31) ∧
      (Exact (∃ r, RoleName.make s = .ok r) IsRoleName s ↔
        ¬ ∃ t, s.toList = t ++ ['\n'] ∧ IsRoleName t) ∧
      (∀ description, Exact (∃ p, Permission.make s description = .ok p) IsPermissionName s ↔
        ¬ ∃ t, s.toList = t ++ ['\n'] ∧ IsPermissionName t) ∧
      (Exact (∃ e, Email.make (some s) = .ok e) IsEmail s ↔
        ¬ ∃ t, s.toList = t ++ ['\n'] ∧ IsEmail t) :=
  ⟨exact_iff (Username.accepts_iff s) fun h => h.no_break (by decide) (by decide),
    exact_iff (RoleName.accepts_iff s) fun h => h.no_break (by decide) (by decide),
    fun description => exact_iff (Permission.accepts_iff s description)
      fun h => h.no_break (by decide) (by decide),
    exact_iff (Email.accepts_iff s) IsEmail.no_break⟩

/-- **A line feed is accepted**: `alice` with a line feed after it is a username, a role name and the
name of a permission, and `a@b.co` with one is an address. -/
theorem line_feed_accepted :
    ((∃ u, Username.make "alice\n" = .ok u) ∧ ¬ IsUsername "alice\n".toList) ∧
      ((∃ r, RoleName.make "alice\n" = .ok r) ∧ ¬ IsRoleName "alice\n".toList) ∧
      ((∃ p, Permission.make "alice\n" none = .ok p) ∧ ¬ IsPermissionName "alice\n".toList) ∧
      (∃ e, Email.make (some "a@b.co\n") = .ok e) ∧ ¬ IsEmail "a@b.co\n".toList := by
  have hnot : ∀ {s : String}, '\n' ∈ s.toList →
      ¬ ∀ c ∈ s.toList, isLineBreak c = false := fun hs h => absurd (h '\n' hs) (by decide)
  refine ⟨⟨⟨⟨"alice\n", rfl⟩, rfl⟩, fun h => ?_⟩, ⟨⟨⟨"alice\n", rfl⟩, rfl⟩, fun h => ?_⟩,
    ⟨⟨⟨"alice\n", none, rfl⟩, rfl⟩, fun h => ?_⟩, ⟨⟨some "a@b.co\n", rfl⟩, rfl⟩, fun h => ?_⟩
  · exact hnot (by decide) (h.no_break (by decide) (by decide))
  · exact hnot (by decide) (h.no_break (by decide) (by decide))
  · exact hnot (by decide) (h.no_break (by decide) (by decide))
  · exact hnot (by decide) h.no_break

end BackendTemplate
