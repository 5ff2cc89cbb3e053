import BackendTemplate.Provenance

/-!
# Verified Addresses

An account becomes verified by presenting the token that was sent to its address. The token is
looked up by its hash over all accounts, the check answers yes to any token once the account is
verified, and an address that changes gets a new token and starts unverified. In the journal of
the row, the last entry that changed the address issued a token; the first verification after it
presented that very token, before it expired.

## Main results

* `Derives.verification` — what each request does to the address and its verification.
* `verified_by_own_token` — the result.
-/

namespace BackendTemplate

open Atomic

variable {env : Env}

/-! ### What a request does to the address -/

theorem verifyTwoFactor_verification {u u' : User} {now : Instant} {code : String} {b : Bool}
    (h : u.verifyTwoFactor env now code = (b, u')) :
    u'.emailVerification = u.emailVerification ∧ u'.email = u.email := by
  obtain rfl : (u.verifyTwoFactor env now code).2 = u' := by rw [h]
  obtain ⟨s, hs⟩ := u.verifyTwoFactor_eq env now code
  rw [hs]
  exact ⟨rfl, rfl⟩

theorem updateUsername_verification (u : User) (name : Username) :
    (u.updateUsername name).emailVerification = u.emailVerification ∧
      (u.updateUsername name).email = u.email := by
  rw [User.updateUsername]
  split <;> exact ⟨rfl, rfl⟩

/-- A new address comes with a new token. -/
theorem updateEmail_cases (u : User) (now : Instant) (address : Email) (token : String) :
    u.updateEmail env now address token = u ∨
      address.value ≠ u.email.value ∧
        (u.updateEmail env now address token).email = address ∧
        (u.updateEmail env now address token).emailVerification =
          EmailVerification.createUnverified env now token ∧
        Event.emailVerificationRequested (u.updateEmail env now address token).id.value
          (address.value.getD "") token ∈ (u.updateEmail env now address token).events := by
  rw [User.updateEmail]
  split
  · rename_i hne
    exact Or.inr ⟨hne, rfl, rfl, List.mem_append_right _ List.mem_cons_self⟩
  · exact Or.inl rfl

/-- **What a request does to the address and its verification**: nothing; it verifies the
address; or it replaces the address and announces a token it has drawn. -/
theorem Derives.verification {r : Request} {p : Progress} {u₀ u : User}
    (h : Derives env r p u₀ u) :
    ((∀ token, r ≠ .verifyEmail token) ∧
      u.emailVerification = u₀.emailVerification ∧ u.email = u₀.email) ∨
    (∃ token, r = .verifyEmail token ∧ u.email = u₀.email ∧
      ∃ now ∈ p.instants, u₀.verifyEmail env now token = true) ∨
    ((∀ token, r ≠ .verifyEmail token) ∧ u.email.value ≠ u₀.email.value ∧
      ∃ now ∈ p.instants, ∃ token ∈ p.tokens,
        u.emailVerification = EmailVerification.createUnverified env now token ∧
        Event.emailVerificationRequested u.id.value (u.email.value.getD "") token ∈ u.events) := by
  have hs := h.sourced
  cases h.computes with
  | wrongPassword t t' =>
      refine Or.inl ⟨by simp, ?_⟩
      rw [User.recordFailedLoginAttempt]
      split <;> exact ⟨rfl, rfl⟩
  | rightPassword => exact Or.inl ⟨by simp, rfl, rfl⟩
  | completeConsumes now hv => exact Or.inl ⟨by simp, verifyTwoFactor_verification hv⟩
  | verifyConsumes now hv => exact Or.inl ⟨by simp, verifyTwoFactor_verification hv⟩
  | enrol => exact Or.inl ⟨by simp, rfl, rfl⟩
  | confirm now hc =>
      obtain ⟨s, -, rfl⟩ := confirmTwoFactor_ok hc
      exact Or.inl ⟨by simp, rfl, rfl⟩
  | disable => exact Or.inl ⟨by simp, rfl, rfl⟩
  | changePassword hc =>
      obtain rfl := changePassword_ok hc
      exact Or.inl ⟨by simp, rfl, rfl⟩
  | requestReset => exact Or.inl ⟨by simp, rfl, rfl⟩
  | resetPassword now hr =>
      obtain ⟨t, rfl⟩ := resetPassword_ok hr
      exact Or.inl ⟨by simp, rfl, rfl⟩
  | delete now =>
      refine Or.inl ⟨by simp, ?_⟩
      rw [User.delete]
      split <;> exact ⟨rfl, rfl⟩
  | @verifyEmail token _ verifiedAt =>
      obtain ⟨now, hnow, hv, -⟩ := hs
      exact Or.inr (Or.inl ⟨token, rfl, rfl, now, hnow, hv⟩)
  | profile =>
      obtain ⟨u₁, h₁, h₂⟩ := hs
      have hname : u₁.emailVerification = u₀.emailVerification ∧ u₁.email = u₀.email := by
        rcases h₁ with rfl | ⟨name, rfl⟩
        · exact ⟨rfl, rfl⟩
        · exact updateUsername_verification u₀ name
      rcases h₂ with rfl | ⟨now, hnow, token, htoken, address, rfl⟩
      · exact Or.inl ⟨by simp, hname⟩
      · rcases @updateEmail_cases env u₁ now address token with hsame |
          ⟨hne, hemail, hver, hev⟩
        · rw [hsame]
          exact Or.inl ⟨by simp, hname⟩
        · refine Or.inr (Or.inr ⟨by simp, ?_, now, hnow, token, htoken, hver, ?_⟩)
          · rw [hemail, ← hname.2]
            exact hne
          · rw [hemail]
            exact hev

/-! ### The columns -/

/-- The verification columns of a row, unread. -/
def verificationColumns (row : Option UserRow) :
    Option (Bool × Except AppError (Option TokenHash) × Option Instant) :=
  row.map fun r =>
    (r.isEmailVerified, hashColumn r.emailVerificationTokenHash, r.emailVerificationExpiresAt)

/-- The verification columns a record is stored in. -/
def EmailVerification.columns (v : EmailVerification) :
    Bool × Except AppError (Option TokenHash) × Option Instant :=
  (v.isVerified, .ok v.tokenHash, v.expiresAt)

theorem verificationColumns_userToValues (iv : ℕ) (u : User) (v : ℕ) :
    verificationColumns (some (userToValues env iv u v)) = some u.emailVerification.columns := by
  simp [verificationColumns, EmailVerification.columns, userToValues]

theorem verificationColumns_rowToUser {row : UserRow} {u : User} (h : rowToUser env row = .ok u) :
    verificationColumns (some row) = some u.emailVerification.columns := by
  simp only [rowToUser, except_bind_eq_ok, Except.ok.injEq] at h
  obtain ⟨_, -, _, -, _, -, _, -, _, -, _, -, th, hth, rfl⟩ := h
  simp [verificationColumns, EmailVerification.columns, hth]

/-- What an unverified account checks of a token. -/
theorem verify_unverified {v : EmailVerification} {now : Instant} {token : String}
    (hv : v.isVerified = false) (h : v.verify env now token = true) :
    (∃ th, v.tokenHash = some th ∧ th.value = env.sha256 token) ∧
      ∀ expiry, v.expiresAt = some expiry → now < expiry := by
  rw [EmailVerification.verify, hv, if_neg (by simp)] at h
  split at h
  · cases h
  · rename_i th hth
    split at h
    · cases h
    · rename_i hhash
      refine ⟨⟨th, hth, by simpa [TokenHash.fromRaw] using hhash⟩, fun expiry hexp => ?_⟩
      simpa [hexp] using h

/-! ### The journal -/

section Schedules

variable {ι : Type} [Fintype ι] [DecidableEq ι] {reqs : ι → Request} {w : World ι} {c : Cfg ι}

/-- The entry changes the address of the account; registering it does. -/
def Entry.ChangesEmail (e : Entry ι) : Prop := e.new.map UserRow.email ≠ e.old.map UserRow.email

/-- The entry makes `address` the address of the account at instant `now`, and its author
announces token `t` in an `EmailVerificationRequestedEvent`. -/
def Entry.Announces (c : Cfg ι) (address : Option String) (t : String)
    (now : Instant) (e : Entry ι) : Prop :=
  now ∈ (did c e.author).instants ∧ e.new.map UserRow.email = some address ∧
    ∃ u, ((did c e.author).userInsert = some u ∨ (did c e.author).userWrite = some u) ∧
      Event.emailVerificationRequested u.id.value (address.getD "") t ∈ u.events

/-- The entry is the commit of a request that has presented token `t` while the address was
`address`, before the expiry, if there is one. -/
def Entry.Presents (reqs : ι → Request) (c : Cfg ι) (address : Option String) (t : String)
    (expiry : Option Instant) (e : Entry ι) : Prop :=
  reqs e.author = .verifyEmail t ∧ e.old.map UserRow.email = some address ∧
    ∃ now ∈ (did c e.author).instants, ∀ t ∈ expiry, now < t

/-- The entry is the commit of a verification. -/
def Entry.Verifies (reqs : ι → Request) (e : Entry ι) : Prop :=
  ∃ token, reqs e.author = .verifyEmail token

omit [Fintype ι] [DecidableEq ι] in
/-- The address of an entry that derives a user. -/
theorem Entry.DerivedAs.emails {e : Entry ι} {u₀ u : User} (h : e.DerivedAs env reqs c u₀ u) :
    e.old.map UserRow.email = some u₀.email.value ∧
      e.new.map UserRow.email = some u.email.value := by
  obtain ⟨row, iv, hold, hok, -, -, hnew⟩ := h
  rw [hold, hnew]
  exact ⟨congrArg some (rowToUser_ok hok).2.2.2.1.symm, rfl⟩

omit [Fintype ι] [DecidableEq ι] in
/-- An entry that neither changes the address nor verifies it leaves the columns alone. -/
theorem Authored.columns_eq {e : Entry ι} (h : Authored env reqs c e) (hc : ¬ e.ChangesEmail)
    (hv : ¬ e.Verifies reqs) : verificationColumns e.new = verificationColumns e.old := by
  rcases h.2 with ⟨u, hold, -, -, iv, hnew⟩ | ⟨u₀, u, hder⟩
  · exact absurd (by rw [Entry.ChangesEmail, hold, hnew]; simp) hc
  · obtain ⟨hemail₀, hemail⟩ := hder.emails
    obtain ⟨row, iv, hold, hok, -, hd, hnew⟩ := hder
    rcases hd.verification with ⟨-, hver, -⟩ | ⟨token, hr, -⟩ | ⟨-, hne, -⟩
    · rw [hold, hnew, verificationColumns_userToValues, verificationColumns_rowToUser hok, hver]
    · exact absurd ⟨token, hr⟩ hv
    · refine absurd ?_ hc
      rw [Entry.ChangesEmail, hemail₀, hemail]
      simpa using hne

omit [Fintype ι] [DecidableEq ι] in
/-- **An entry that changes the address announces a token and stores its hash**, unverified and
with a day to go. -/
theorem Authored.announces {e : Entry ι} (h : Authored env reqs c e) (hc : e.ChangesEmail) :
    ∃ address t now, e.Announces c address t now ∧ verificationColumns e.new =
      some (EmailVerification.createUnverified env now t).columns := by
  rcases h.2 with ⟨u, hold, hins, hreg, iv, hnew⟩ | ⟨u₀, u, hder⟩
  · obtain ⟨-, now, hnow, d, -, userId, username, email, hashed, -, rfl⟩ := hreg
    refine ⟨email.value, env.uuidStr d, now, ⟨hnow, by rw [hnew]; rfl, _, Or.inl hins, ?_⟩, ?_⟩
    · exact List.mem_append_right _ List.mem_cons_self
    · rw [hnew, verificationColumns_userToValues]
      rfl
  · obtain ⟨hemail₀, hemail⟩ := hder.emails
    obtain ⟨row, iv, hold, hok, hw, hd, hnew⟩ := hder
    rw [Entry.ChangesEmail, hemail₀, hemail] at hc
    rcases hd.verification with ⟨-, -, hsame⟩ | ⟨-, -, hsame, -⟩ |
      ⟨-, -, now, hnow, token, -, hver, hev⟩
    · rw [hsame] at hc
      exact absurd rfl hc
    · rw [hsame] at hc
      exact absurd rfl hc
    · refine ⟨u.email.value, token, now, ⟨hnow, hemail, u, Or.inr hw, hev⟩, ?_⟩
      rw [hnew, verificationColumns_userToValues, hver]

omit [Fintype ι] [DecidableEq ι] in
/-- **A verification of an unverified account presents the token whose hash is stored**, before
it expires. -/
theorem Authored.verifies {e : Entry ι} (h : Authored env reqs c e) (he : e.Verifies reqs)
    {hash : Except AppError (Option TokenHash)} {expiry : Option Instant}
    (hcol : verificationColumns e.old = some (false, hash, expiry)) {address : Option String}
    (haddr : e.old.map UserRow.email = some address) :
    ∃ t th, hash = .ok (some th) ∧ th.value = env.sha256 t ∧
      e.Presents reqs c address t expiry := by
  obtain ⟨token, hreq⟩ := he
  rcases h.2 with ⟨u, hold, -⟩ | ⟨u₀, u, row, iv, hold, hok, -, hd, -⟩
  · rw [hold] at hcol
    cases hcol
  · rw [hold, verificationColumns_rowToUser hok] at hcol
    obtain ⟨hver, hhash, hexp⟩ : u₀.emailVerification.isVerified = false ∧
        Except.ok u₀.emailVerification.tokenHash = hash ∧
        u₀.emailVerification.expiresAt = expiry := by
      simpa [EmailVerification.columns] using hcol
    have hs := hd.sourced
    rw [hreq] at hs
    obtain ⟨now, hnow, hv, -⟩ := hs
    obtain ⟨⟨th, hth, hval⟩, hlt⟩ := verify_unverified hver hv
    refine ⟨token, th, ?_, hval, hreq, haddr, now, hnow, ?_⟩
    · rw [← hhash, hth]
    · rw [← hexp]
      exact hlt

omit [Fintype ι] [DecidableEq ι] in
/-- Along entries that keep the address, an account that ends verified and starts unverified is
verified by a token whose hash was stored at the start. -/
theorem Linked.verified {row row' : Option UserRow} {es : List (Entry ι)}
    (h : Linked row es row') (hauth : ∀ e ∈ es, Authored env reqs c e)
    (hno : ∀ e ∈ es, ¬ e.ChangesEmail) {hash : Except AppError (Option TokenHash)}
    {expiry : Option Instant} (hcol : verificationColumns row = some (false, hash, expiry))
    {address : Option String} (haddr : row.map UserRow.email = some address)
    {last : UserRow} (hlast : row' = some last) (hver : last.isEmailVerified = true) :
    ∃ v ∈ es, ∃ t th, hash = .ok (some th) ∧ th.value = env.sha256 t ∧
      v.Presents reqs c address t expiry := by
  rcases first_cases (Entry.Verifies reqs) es with hnone | ⟨es₁, v, es₂, rfl, hv, hfirst⟩
  · have hsame := h.unchanged fun e he => (hauth e he).columns_eq (hno e he) (hnone e he)
    rw [hcol, hlast] at hsame
    simp [verificationColumns, hver] at hsame
  · obtain ⟨mid, h₁, hmid, -⟩ := linked_append.mp h
    have hsub : ∀ e ∈ es₁, e ∈ es₁ ++ v :: es₂ := fun e he => List.mem_append_left _ he
    have hsame := h₁.unchanged fun e he =>
      (hauth e (hsub e he)).columns_eq (hno e (hsub e he)) (hfirst e he)
    have hemail := h₁.unchanged (f := Option.map UserRow.email) fun e he =>
      not_not.mp (hno e (hsub e he))
    rw [hcol, ← hmid] at hsame
    rw [haddr, ← hmid] at hemail
    obtain ⟨t, th, hhash, hval, hpres⟩ :=
      (hauth v (by simp)).verifies hv hsame hemail
    exact ⟨v, by simp, t, th, hhash, hval, hpres⟩

/-- **An address is only ever verified by its own token.** Whenever the row of an account says
verified, the last entry of its journal that changed the address announced a token, and a later
entry presented that very token within 24 hours, while the address was the current one. If no
entry changed the address, it is the one the row had at the start, and the row was verified then
or was verified by the token whose hash it held then. -/
theorem verified_by_own_token (hsha : Function.Injective env.sha256) (hw : Startable env w)
    {ls : List (Label ι Choice ℕ)} (h : (machine env ι).run (start env reqs w) ls = some c)
    {x : Uuid} {row : UserRow} (hrow : c.shared.db.user x = some row)
    (hver : row.isEmailVerified = true) :
    (∃ es₁ e es₂ t now, journal env x (start env reqs w) ls = es₁ ++ e :: es₂ ∧
      e.ChangesEmail ∧ (∀ e' ∈ es₂, ¬ e'.ChangesEmail) ∧ e.Announces c row.email t now ∧
      ∃ v ∈ es₂, v.Presents reqs c row.email t (some (now + hours 24))) ∨
    ((∀ e ∈ journal env x (start env reqs w) ls, ¬ e.ChangesEmail) ∧
      ∃ row₀, w.db.user x = some row₀ ∧ row₀.email = row.email ∧ (row₀.isEmailVerified = true ∨
        ∃ v ∈ journal env x (start env reqs w) ls, ∃ t,
          row₀.emailVerificationTokenHash = some (env.sha256 t) ∧
          v.Presents reqs c row.email t row₀.emailVerificationExpiresAt)) := by
  have hauth := (journal_authored hw x h).1
  have hlink := journal_linked (x := x) h
  rcases last_cases Entry.ChangesEmail (journal env x (start env reqs w) ls) with hno |
    ⟨es₁, e, es₂, hes, he, hno⟩
  · refine Or.inr ⟨hno, ?_⟩
    have hemail := hlink.unchanged (f := Option.map UserRow.email) fun e he =>
      not_not.mp (hno e he)
    rw [hrow, start_shared] at hemail
    obtain ⟨row₀, hrow₀, hsame⟩ := Option.map_eq_some_iff.mp hemail.symm
    refine ⟨row₀, hrow₀, hsame, ?_⟩
    by_cases hver₀ : row₀.isEmailVerified = true
    · exact Or.inl hver₀
    · have hcol : verificationColumns (w.db.user x) =
          some (false, hashColumn row₀.emailVerificationTokenHash,
            row₀.emailVerificationExpiresAt) := by
        simp [hrow₀, verificationColumns, hver₀]
      obtain ⟨v, hv, t, th, hhash, hval, hpres⟩ :=
        hlink.verified hauth hno hcol hemail.symm hrow hver
      refine Or.inr ⟨v, hv, t, ?_, hpres⟩
      rw [hashColumn_some hhash, hval]
  · rw [hes] at hauth hlink
    obtain ⟨mid, -, -, hlink₂⟩ := linked_append.mp hlink
    have hsub : ∀ e' ∈ es₂, e' ∈ es₁ ++ e :: es₂ := fun e' he' => by simp [he']
    obtain ⟨address, t, now, hann, hcol⟩ := (hauth e (by simp)).announces he
    have hemail := hlink₂.unchanged (f := Option.map UserRow.email) fun e' he' =>
      not_not.mp (hno e' he')
    have haddr : address = row.email := by
      rw [hrow, hann.2.1] at hemail
      exact (Option.some.inj hemail).symm
    subst haddr
    obtain ⟨v, hv, t', th, hhash, hval, hpres⟩ := hlink₂.verified
      (fun e' he' => hauth e' (hsub e' he')) hno hcol hann.2.1 hrow hver
    obtain rfl : TokenHash.fromRaw env t = th := Option.some.inj (Except.ok.inj hhash)
    obtain rfl : t = t' := hsha hval
    exact Or.inl ⟨es₁, e, es₂, t, now, hes, he, hno, hann, v, hv, hpres⟩

end Schedules

/-- A registration, and a verification with the token it announces. -/
def verificationRequests : Fin 2 → Request
  | 0 => .createUser "bob" "Correct-Horse-9" (some "bob@example.com") none
  | 1 => .verifyEmail "6f1c3e52-8d0a-4b7e-9c21-000000000002"

/-- A minute after the registration, the token is presented. -/
def verificationSchedule : List (Label (Fin 2) Choice ℕ) :=
  Reference.moves 0 10 ++ Reference.wait 60 ++ Reference.moves 1 7

/-- A new account is verified by the token it was sent. -/
theorem new_account_verified :
    ∃ c row, (machine Reference.env (Fin 2)).run
        (start Reference.env verificationRequests (Reference.world (Fin 2) {}))
        verificationSchedule = some c ∧
      c.shared.db.user (Reference.uuid4 0) = some row ∧ row.isEmailVerified = true ∧
      ∃ es₁ e es₂ t now, journal Reference.env (Reference.uuid4 0)
          (start Reference.env verificationRequests (Reference.world (Fin 2) {}))
          verificationSchedule = es₁ ++ e :: es₂ ∧
        e.ChangesEmail ∧ (∀ e' ∈ es₂, ¬ e'.ChangesEmail) ∧ e.Announces c row.email t now ∧
        ∃ v ∈ es₂, v.Presents verificationRequests c row.email t (some (now + hours 24)) := by
  obtain ⟨c, hc, hany⟩ : ∃ c, (machine Reference.env (Fin 2)).run
      (start Reference.env verificationRequests (Reference.world (Fin 2) {}))
      verificationSchedule = some c ∧
      (c.shared.db.user (Reference.uuid4 0)).any UserRow.isEmailVerified = true := by
    decide +kernel
  obtain ⟨row, hrow, hver⟩ := (Option.any_eq_true _ _).mp hany
  refine ⟨c, row, hc, hrow, hver, ?_⟩
  rcases verified_by_own_token Reference.sha256_injective (empty_startable Reference.env (Fin 2))
    hc hrow hver with h | ⟨-, row₀, hrow₀, -⟩
  · exact h
  · cases hrow₀

end BackendTemplate
