import Mathlib.Data.List.Dedup
import BackendTemplate.OneShot
import BackendTemplate.UserColumns

/-!
# Backup Codes

An account with a second factor holds the hashes of its backup codes. `User.verify_two_factor`
looks at them only once the one-time password has failed, and gives back a user without the hash
it has matched. A sequence of calls, each on the user the previous one returned, uses the backup
codes up as one-shot credentials (`OneShot`): those that reach them are the codes that are no
one-time password (`presented`).

## Main results

* `verifyTwoFactor_withCodes` — what one call does to an account that holds some codes.
* `after_withCodes` — what a sequence of calls leaves.
* `backup_codes_one_shot` — every code works once, and no other code is affected.
-/

namespace BackendTemplate

/-- `BACKUP_CODE_BYTES`. -/
def backupCodeBytes : ℕ := 8

/-- **The format of a backup code**: what `secrets.token_hex(BACKUP_CODE_BYTES)` returns. -/
def IsBackupCode (code : String) : Prop := ∃ b : Bytes, b.length = backupCodeBytes ∧ code = hex b

namespace User

variable {env : Env} {u : User} {secret code : String} {held codes : List String} {t now : Instant}
  {calls : List (Instant × String)}

/-! ### Sequences of calls -/

/-- The user after some calls of `verify_two_factor`, each made at an instant on the user that the
previous one returned. -/
def afterVerifying (env : Env) (u : User) (calls : List (Instant × String)) : User :=
  calls.foldl (fun u call => (u.verifyTwoFactor env call.1 call.2).2) u

/-- The codes that were accepted, in order. -/
def acceptedCodes (env : Env) : User → List (Instant × String) → List String
  | _, [] => []
  | u, (now, code) :: calls =>
      let r := u.verifyTwoFactor env now code
      if r.1 then code :: acceptedCodes env r.2 calls else acceptedCodes env r.2 calls

/-- **A code that is rejected, or accepted as a one-time password, changes nothing.** -/
theorem verifyTwoFactor_unchanged {s : TwoFactorSecret} (hs : u.twoFactorSecret = some s)
    (h : (u.verifyTwoFactor env now code).1 = false ∨ verifyCode env now s.secret code = true) :
    (u.verifyTwoFactor env now code).2 = u := by
  rw [verifyTwoFactor, hs] at h ⊢
  by_cases hoff : s.enabledAt.isNone = true
  · simp only [hoff, if_true]
  · by_cases hotp : verifyCode env now s.secret code = true
    · simp only [hoff, hotp, if_true, if_false, Bool.false_eq_true]
    · simp only [hoff, hotp, if_false, Bool.false_eq_true] at h ⊢
      split at h
      · rcases h with h | h <;> cases h
      · rfl

/-! ### Accounts that hold some codes -/

/-- The account with an enabled second factor that holds these codes. -/
def withCodes (env : Env) (u : User) (secret : String) (t : Instant) (held : List String) : User :=
  { u with twoFactorSecret := some ((TwoFactorSecret.create env secret held).enable t) }

/-- A user that is enrolled is the account that holds the codes it was created with. -/
theorem withCodes_of_enrolled
    (hu : u.twoFactorSecret = some ((TwoFactorSecret.create env secret codes).enable t)) :
    u.withCodes env secret t codes = u := by
  cases u
  simp only [withCodes] at hu ⊢
  rw [hu]

/-- The hashes of codes are compared as the codes are. -/
theorem fromRaw_inj (hsha : Function.Injective env.sha256) {a b : String} :
    TokenHash.fromRaw env a = TokenHash.fromRaw env b ↔ a = b :=
  ⟨fun h => hsha (congrArg TokenHash.value h), fun h => h ▸ rfl⟩

/-- What is left of the hashes without that of one code. -/
theorem filter_hashes (hsha : Function.Injective env.sha256) (code : String) (held : List String) :
    (held.map (TokenHash.fromRaw env)).filter (fun h => h ≠ TokenHash.fromRaw env code) =
      (OneShot.spend held code).map (TokenHash.fromRaw env) := by
  rw [List.filter_map, OneShot.spend]
  refine congrArg _ (List.filter_congr fun c _ => ?_)
  exact decide_eq_decide.mpr (not_congr (fromRaw_inj hsha))

/-- **Consuming a code** matches the one it is, if it is held, and takes it out. -/
theorem consumeBackupCode_create (hsha : Function.Injective env.sha256) (secret code : String)
    (held : List String) (t : Instant) :
    ((TwoFactorSecret.create env secret held).enable t).consumeBackupCode env code =
      if code ∈ held then
        some ((TwoFactorSecret.create env secret (OneShot.spend held code)).enable t)
      else none := by
  rw [TwoFactorSecret.consumeBackupCode]
  have hmatch : ∀ stored ∈ held.map (TokenHash.fromRaw env),
      stored.value = (TokenHash.fromRaw env code).value →
        code ∈ held ∧ stored = TokenHash.fromRaw env code := by
    intro stored hstored hvalue
    have heq := TokenHash.ext hvalue
    obtain ⟨c, hc, rfl⟩ := List.mem_map.mp hstored
    obtain rfl := (fromRaw_inj hsha).mp heq
    exact ⟨hc, rfl⟩
  have hheld : ((TwoFactorSecret.create env secret held).enable t).backupCodeHashes =
      held.map (TokenHash.fromRaw env) := rfl
  cases hfind : ((TwoFactorSecret.create env secret held).enable t).backupCodeHashes.find?
      fun stored => stored.value = (TokenHash.fromRaw env code).value with
  | none =>
      have hnone := List.find?_eq_none.mp hfind
      rw [if_neg]
      intro hcode
      refine hnone _ (hheld ▸ List.mem_map_of_mem hcode) ?_
      simp
  | some stored =>
      have hvalue := List.find?_some hfind
      obtain ⟨hcode, rfl⟩ := hmatch stored (hheld ▸ List.mem_of_find?_eq_some hfind)
        (of_decide_eq_true hvalue)
      rw [if_pos hcode]
      simp only [hheld, filter_hashes hsha]
      rfl

/-- **What one call does** to an account that holds some codes: a one-time password is accepted and
changes nothing, a code that is held is accepted and used up, and no other code is accepted. -/
theorem verifyTwoFactor_withCodes (hsha : Function.Injective env.sha256) (u : User)
    (secret code : String) (t now : Instant) (held : List String) :
    (u.withCodes env secret t held).verifyTwoFactor env now code =
      if verifyCode env now secret code then (true, u.withCodes env secret t held)
      else (decide (code ∈ held), u.withCodes env secret t (OneShot.spend held code)) := by
  rw [verifyTwoFactor]
  have hsecret : (u.withCodes env secret t held).twoFactorSecret =
      some ((TwoFactorSecret.create env secret held).enable t) := rfl
  simp only [hsecret, consumeBackupCode_create hsha]
  have hon : ((TwoFactorSecret.create env secret held).enable t).enabledAt.isNone = false := rfl
  have hsame : ((TwoFactorSecret.create env secret held).enable t).secret = secret := rfl
  rw [hon, hsame]
  by_cases hotp : verifyCode env now secret code = true
  · simp [hotp]
  · by_cases hcode : code ∈ held
    · simp [hotp, hcode, withCodes]
    · simp [hotp, hcode, OneShot.spend_of_notMem]

/-- The codes of some calls that are no one-time password when they are presented: those that are
looked up among the backup codes. -/
def presented (env : Env) (secret : String) (calls : List (Instant × String)) : List String :=
  (calls.filter fun call => !verifyCode env call.1 secret call.2).map Prod.snd

/-- **What a sequence of calls leaves**: the account with the codes that were not presented. -/
theorem after_withCodes (hsha : Function.Injective env.sha256) (u : User) (secret : String)
    (t : Instant) (held : List String) (calls : List (Instant × String)) :
    (u.withCodes env secret t held).afterVerifying env calls =
      u.withCodes env secret t (OneShot.left held (presented env secret calls)) := by
  induction calls generalizing held with
  | nil => rfl
  | cons call calls ih =>
      have hcons : (u.withCodes env secret t held).afterVerifying env (call :: calls) =
          ((u.withCodes env secret t held).verifyTwoFactor env call.1 call.2).2.afterVerifying env
            calls := rfl
      rw [hcons, verifyTwoFactor_withCodes hsha]
      by_cases hotp : verifyCode env call.1 secret call.2 = true
      · simp [hotp, ih, presented]
      · simp [hotp, ih, presented, OneShot.left]

/-- A code that is never a one-time password is accepted as often as it is used up. -/
theorem count_acceptedCodes (hsha : Function.Injective env.sha256)
    (hcode : ∀ now, verifyCode env now secret code = false) (u : User) (t : Instant)
    (held : List String) (calls : List (Instant × String)) :
    ((u.withCodes env secret t held).acceptedCodes env calls).count code =
      (OneShot.accepted held (presented env secret calls)).count code := by
  induction calls generalizing held with
  | nil => rfl
  | cons call calls ih =>
      obtain ⟨now, code'⟩ := call
      rw [acceptedCodes, verifyTwoFactor_withCodes hsha]
      by_cases hotp : verifyCode env now secret code' = true
      · have hne : code' ≠ code := by
          rintro rfl
          rw [hcode now] at hotp
          cases hotp
        simp [hotp, ih, presented, List.count_cons_of_ne hne]
      · by_cases hheld : code' ∈ held
        · simp [hotp, hheld, ih, presented, OneShot.accepted, List.count_cons]
        · simp [hotp, hheld, ih, presented, OneShot.accepted, OneShot.spend_of_notMem]

/-- What is accepted of codes that are never one-time passwords. -/
theorem mem_acceptedCodes (hsha : Function.Injective env.sha256)
    (hcode : ∀ now, verifyCode env now secret code = false) :
    code ∈ (u.withCodes env secret t held).acceptedCodes env calls ↔
      code ∈ held ∧ code ∈ presented env secret calls := by
  rw [← List.count_pos_iff, count_acceptedCodes hsha hcode, List.count_pos_iff,
    OneShot.mem_accepted]

/-- **Backup codes are one-shot and independent.** For every enrolment with distinct codes that is
enabled, and for every sequence of codes presented at any instants, each to the user that the
previous call returned: no issued code is accepted twice, every issued code that was not accepted
is accepted whenever it is presented next, as many codes remain as were issued less the different
ones that were accepted, and a call that rejects a code or takes it for a one-time password leaves
the user unchanged. -/
theorem backup_codes_one_shot (hsha : Function.Injective env.sha256)
    (hformat : ∀ now secret code, IsBackupCode code → verifyCode env now secret code = false)
    (hcodes : ∀ c ∈ codes, IsBackupCode c) (hdistinct : codes.Nodup)
    (hu : u.twoFactorSecret = some ((TwoFactorSecret.create env secret codes).enable t))
    (calls : List (Instant × String)) :
    (∀ c ∈ codes, (u.acceptedCodes env calls).count c ≤ 1) ∧
      (∀ c ∈ codes, c ∉ u.acceptedCodes env calls →
        ∀ now, ((u.afterVerifying env calls).verifyTwoFactor env now c).1 = true) ∧
      (∃ s, (u.afterVerifying env calls).twoFactorSecret = some s ∧
        s.remainingBackupCodes =
          codes.length - (u.acceptedCodes env calls).dedup.countP fun c => c ∈ codes) ∧
      ∀ now code,
        ((u.afterVerifying env calls).verifyTwoFactor env now code).1 = false ∨
            verifyCode env now secret code = true →
          ((u.afterVerifying env calls).verifyTwoFactor env now code).2 =
            u.afterVerifying env calls := by
  have hotp : ∀ c ∈ codes, ∀ now, verifyCode env now secret c = false := fun c hc now =>
    hformat now secret c (hcodes c hc)
  rw [← withCodes_of_enrolled hu, after_withCodes hsha]
  refine ⟨fun c hc => ?_, fun c hc hno now => ?_, ⟨_, rfl, ?_⟩, fun now code h => ?_⟩
  · rw [count_acceptedCodes hsha (hotp c hc)]
    exact List.nodup_iff_count_le_one.mp (OneShot.nodup_accepted _ _) c
  · rw [mem_acceptedCodes hsha (hotp c hc)] at hno
    rw [verifyTwoFactor_withCodes hsha, hotp c hc now]
    exact decide_eq_true (OneShot.mem_left.mpr ⟨hc, fun hx => hno ⟨hc, hx⟩⟩)
  · have haccepted : ((u.withCodes env secret t codes).acceptedCodes env calls).dedup.countP
        (fun c => c ∈ codes) = codes.countP fun c => c ∈ presented env secret calls := by
      rw [List.countP_eq_length_filter, List.countP_eq_length_filter]
      refine List.Perm.length_eq ((List.perm_ext_iff_of_nodup
        ((List.nodup_dedup _).filter _) (hdistinct.filter _)).mpr fun c => ?_)
      simp only [List.mem_filter, List.mem_dedup, decide_eq_true_eq]
      constructor
      · rintro ⟨hc, hissued⟩
        exact ⟨hissued, ((mem_acceptedCodes hsha (hotp c hissued)).mp hc).2⟩
      · rintro ⟨hissued, hc⟩
        exact ⟨(mem_acceptedCodes hsha (hotp c hissued)).mpr ⟨hissued, hc⟩, hissued⟩
    have hlength := List.length_eq_countP_add_countP
      (fun c => decide (c ∈ presented env secret calls)) (l := codes)
    rw [haccepted]
    change ((OneShot.left codes _).map _).length = _
    rw [List.length_map, OneShot.left_eq_filter, ← List.countP_eq_length_filter]
    simp only [Bool.not_eq_true, decide_eq_false_iff_not] at hlength
    omega
  · exact verifyTwoFactor_unchanged rfl h

end User

/-! ### An enrolment -/

theorem hexChars_length (b : Bytes) : (hexChars b).length = 2 * b.length := by
  induction b with
  | nil => rfl
  | cons x b ih =>
      rw [hexChars, List.length_cons, List.length_cons, ih, List.length_cons]
      omega

open Reference in
/-- In the reference environment a one-time password has six characters, so no backup code is
one. -/
theorem reference_rejects_backup_codes (now : Instant) (secret code : String)
    (h : IsBackupCode code) : verifyCode env now secret code = false := by
  obtain ⟨b, hb, rfl⟩ := h
  have htotp : ∀ k, (env.totp secret k).toList.length = 6 := by
    intro k
    change (if secret = seed then generateOtp k else "000000").toList.length = 6
    split
    · unfold generateOtp
      split <;> rfl
    · rfl
  have hnfkc : ∀ s, (env.nfkc s).toList.length = s.toList.length := fun s => by
    change (String.ofList (s.toList.map normalizeChar)).toList.length = _
    rw [String.toList_ofList, List.length_map]
  have hlong : (env.nfkc (hex b)).toList.length = 16 := by
    rw [hnfkc, hex, String.toList_ofList, hexChars_length, hb]
    rfl
  rw [verifyCode, List.any_eq_false]
  intro i _ heq
  have hlen := congrArg (fun s => s.toList.length) (of_decide_eq_true heq)
  rw [hlong, hnfkc, htotp] at hlen
  cases hlen

/-- Two backup codes. -/
def issuedCodes : List String := ["a7c3000000000000", "a7c3000000000001"]

open Reference in
/-- The account with these codes, enabled. -/
def codeHolder : User := bob.withCodes env seed clock issuedCodes

open Reference in
/-- A backup code, a one-time password, and the backup code again. -/
def codeReplay : List (Instant × String) :=
  [(clock, "a7c3000000000000"), (clock, "324550"), (clock, "a7c3000000000000")]

open Reference in
/-- The replay is rejected, and the other code still works. -/
theorem replayed_code_rejected :
    codeHolder.acceptedCodes env codeReplay = ["a7c3000000000000", "324550"] ∧
      ((codeHolder.afterVerifying env codeReplay).verifyTwoFactor env clock
        "a7c3000000000001").1 = true ∧
      ∃ s, (codeHolder.afterVerifying env codeReplay).twoFactorSecret = some s ∧
        s.remainingBackupCodes = 1 := by
  have haccepted : codeHolder.acceptedCodes env codeReplay = ["a7c3000000000000", "324550"] := by
    decide +kernel
  have hcodes : ∀ c ∈ issuedCodes, IsBackupCode c := by
    intro c hc
    rcases List.mem_cons.mp hc with rfl | hc
    · exact ⟨[0xa7, 0xc3, 0, 0, 0, 0, 0, 0], rfl, by decide⟩
    · obtain rfl := List.mem_singleton.mp hc
      exact ⟨[0xa7, 0xc3, 0, 0, 0, 0, 0, 1], rfl, by decide⟩
  obtain ⟨-, hkept, ⟨s, hs, hleft⟩, -⟩ := User.backup_codes_one_shot (u := codeHolder) (t := clock)
    sha256_injective reference_rejects_backup_codes hcodes (by decide) rfl codeReplay
  rw [haccepted] at hkept hleft
  exact ⟨haccepted, hkept _ (by decide) (by decide) _, s, hs, hleft.trans (by decide)⟩

end BackendTemplate
