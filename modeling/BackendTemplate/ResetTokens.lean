import BackendTemplate.Provenance

/-!
# Password-Reset Tokens

A reset token is looked up by its hash, has to be unused and unexpired, is overwritten by a newer
request and cleared by a password change. The lookup and the write that spends it are separate
statements, and any number of requests may run in between; the version check makes each write
apply to the row that was read. So the journal of the row tells the whole story: the last entry
before a reset that touched the reset columns is the request that issued the token.

## Main results

* `Derives.resetToken` — what each request does to the reset columns.
* `reset_latest` — a reset spends the token most recently requested.
* `reset_token_single_use` — the result.
-/

namespace BackendTemplate

open Atomic

variable {env : Env}

/-! ### The reset columns -/

/-- Whether a request touches the reset columns of an existing account. -/
def Request.touchesReset : Request → Bool
  | .requestPasswordReset _ _ | .resetPassword _ _ _ | .changePassword _ _ _ => true
  | _ => false

/-- What a reset of the password checks. -/
theorem resetPassword_checks {u u' : User} {now : Instant} {token : String} {new : HashedPassword}
    (h : u.resetPassword env now token new = .ok u') :
    ∃ t, u.passwordResetToken = some t ∧ t.isValid now = true ∧ t.matches_ env token = true ∧
      u'.passwordResetToken = some t.markUsed := by
  rw [User.resetPassword] at h
  split at h
  · cases h
  · rename_i t ht
    split at h
    · cases h
    · rename_i hvalid
      split at h
      · cases h
      · rename_i hmatch
        obtain rfl := Except.ok.inj h
        exact ⟨t, ht, by simpa using hvalid, by simpa using hmatch, rfl⟩

/-- A token in use has an expiry, which has not been reached. -/
theorem isValid_expiry {T : PasswordResetToken} {now : Instant} (h : T.isValid now = true) :
    ∃ expiry, T.expiresAt = some expiry ∧ now < expiry := by
  rw [PasswordResetToken.isValid, Bool.and_eq_true] at h
  cases he : T.expiresAt with
  | none => simp [he] at h
  | some expiry => exact ⟨expiry, rfl, by simpa [he] using h.2⟩

/-- A token matches when its hash is the one that is held. -/
theorem matches_hash {T : PasswordResetToken} {t : String} (h : T.matches_ env t = true) :
    T.tokenHash.value = env.sha256 t := of_decide_eq_true h

theorem verifyTwoFactor_resetToken {u u' : User} {now : Instant} {code : String} {b : Bool}
    (h : u.verifyTwoFactor env now code = (b, u')) :
    u'.passwordResetToken = u.passwordResetToken := by
  obtain rfl : (u.verifyTwoFactor env now code).2 = u' := by rw [h]
  obtain ⟨s, hs⟩ := u.verifyTwoFactor_eq env now code
  rw [hs]

theorem updateUsername_resetToken (u : User) (name : Username) :
    (u.updateUsername name).passwordResetToken = u.passwordResetToken := by
  rw [User.updateUsername]
  split <;> rfl

theorem updateEmail_resetToken (u : User) (now : Instant) (address : Email) (token : String) :
    (u.updateEmail env now address token).passwordResetToken = u.passwordResetToken := by
  rw [User.updateEmail]
  split <;> rfl

/-- **Only three use cases touch the reset columns.** -/
theorem Computes.resetToken {r : Request} {u₀ u : User} (h : Computes env r u₀ u)
    (hr : r.touchesReset = false) : u.passwordResetToken = u₀.passwordResetToken := by
  cases h with
  | wrongPassword t t' =>
      rw [User.recordFailedLoginAttempt]
      split <;> rfl
  | rightPassword => rfl
  | completeConsumes now hv => exact verifyTwoFactor_resetToken hv
  | verifyConsumes now hv => exact verifyTwoFactor_resetToken hv
  | enrol => rfl
  | confirm now hc =>
      obtain ⟨s, -, rfl⟩ := confirmTwoFactor_ok hc
      rfl
  | disable => rfl
  | changePassword hc => cases hr
  | requestReset => cases hr
  | resetPassword now hc => cases hr
  | delete now =>
      rw [User.delete]
      split <;> rfl
  | verifyEmail => rfl
  | profile h₁ h₂ =>
      have hname : ∀ u₁, (u₁ = u₀ ∨ ∃ name, u₁ = u₀.updateUsername name) →
          u₁.passwordResetToken = u₀.passwordResetToken := by
        rintro u₁ (rfl | ⟨name, rfl⟩)
        · rfl
        · exact updateUsername_resetToken u₀ name
      rcases h₂ with rfl | ⟨now, address, token, rfl⟩
      · exact hname _ h₁
      · exact (updateEmail_resetToken _ now address token).trans (hname _ h₁)

/-- **What a request does to the reset columns**: it leaves them alone, stores a token it has
drawn, spends the token it presents, or clears them. -/
theorem Derives.resetToken {r : Request} {p : Progress} {u₀ u : User}
    (h : Derives env r p u₀ u) :
    (r.touchesReset = false ∧ u.passwordResetToken = u₀.passwordResetToken) ∨
    (∃ email ip, r = .requestPasswordReset email ip ∧ ∃ token ∈ p.tokens, ∃ now ∈ p.instants,
      u = u₀.requestPasswordReset env now token) ∨
    (∃ token pwd ip, r = .resetPassword token pwd ip ∧ ∃ now ∈ p.instants, ∃ new,
      u₀.resetPassword env now token new = .ok u) ∨
    ∃ userId old new, r = .changePassword userId old new ∧ u.passwordResetToken = none := by
  have hs := h.sourced
  cases r with
  | requestPasswordReset email ip => exact Or.inr (Or.inl ⟨email, ip, rfl, hs⟩)
  | resetPassword token pwd ip => exact Or.inr (Or.inr (Or.inl ⟨token, pwd, ip, rfl, hs⟩))
  | changePassword userId old new =>
      refine Or.inr (Or.inr (Or.inr ⟨userId, old, new, rfl, ?_⟩))
      cases h.computes with
      | changePassword hc =>
          obtain rfl := changePassword_ok hc
          rfl
  | _ => exact Or.inl ⟨rfl, h.computes.resetToken rfl⟩

/-- The token a row holds, unread. -/
def heldToken (row : Option UserRow) : Option (Except AppError (Option PasswordResetToken)) :=
  row.map passwordResetColumn

theorem heldToken_userToValues (iv : ℕ) (u : User) (v : ℕ) :
    heldToken (some (userToValues env iv u v)) = some (.ok u.passwordResetToken) :=
  congrArg some (passwordResetColumn_userToValues env iv u v)

theorem heldToken_rowToUser {row : UserRow} {u : User} (h : rowToUser env row = .ok u) :
    heldToken (some row) = some (.ok u.passwordResetToken) := by
  simp only [rowToUser, except_bind_eq_ok, Except.ok.injEq] at h
  obtain ⟨t, ht, _, -, _, -, _, -, _, -, _, -, _, -, rfl⟩ := h
  exact congrArg some ht

/-- The columns behind a token that was read. -/
theorem passwordResetColumn_some {row : UserRow} {t : PasswordResetToken}
    (h : passwordResetColumn row = .ok (some t)) :
    row.passwordResetTokenHash = some t.tokenHash.value ∧
      row.passwordResetExpiresAt = t.expiresAt := by
  rw [passwordResetColumn, except_bind_eq_ok] at h
  obtain ⟨o, ho, ht⟩ := h
  obtain ⟨b, hb, rfl⟩ := Option.map_eq_some_iff.mp (Except.ok.inj ht)
  subst hb
  exact ⟨hashColumn_some ho, rfl⟩

/-! ### The journal -/

section Schedules

variable {ι : Type} [Fintype ι] [DecidableEq ι] {reqs : ι → Request} {w : World ι} {c : Cfg ι}

/-- The entry is the commit of a reset that presents token `t`. -/
def Entry.Resets (reqs : ι → Request) (t : String) (e : Entry ι) : Prop :=
  ∃ pwd ip, reqs e.author = .resetPassword t pwd ip

/-- The entry is the commit of a request for a reset token. -/
def Entry.RequestsReset (reqs : ι → Request) (e : Entry ι) : Prop :=
  ∃ email ip, reqs e.author = .requestPasswordReset email ip

/-- The entry is the commit of a password change. -/
def Entry.ChangesPassword (reqs : ι → Request) (e : Entry ι) : Prop :=
  ∃ userId old new, reqs e.author = .changePassword userId old new

/-- The entry issues reset token `t`, good until `expiry`: its author has drawn the token, has
stored its hash with that expiry, and announces the token. -/
def Entry.IssuesReset (env : Env) (reqs : ι → Request) (c : Cfg ι) (t : String)
    (expiry : Instant) (e : Entry ι) : Prop :=
  e.RequestsReset reqs ∧ t ∈ (did c e.author).tokens ∧
    (∃ row, e.new = some row ∧ row.passwordResetTokenHash = some (env.sha256 t) ∧
      row.passwordResetExpiresAt = some expiry) ∧
    ∃ u, (did c e.author).userWrite = some u ∧
      Event.passwordResetRequested u.id.value (u.email.value.getD "") t ∈ u.events

/-- **Token `t`, good until `expiry`, is the one most recently requested**, after entries `es`
from row `row₀` on, and no password change has been committed since: the last request among the
entries has issued it; or there is none, and the row held it at the start. -/
def MostRecent (env : Env) (reqs : ι → Request) (c : Cfg ι) (row₀ : Option UserRow)
    (es : List (Entry ι)) (t : String) (expiry : Instant) : Prop :=
  (∃ es₁ e es₂, es = es₁ ++ e :: es₂ ∧ e.IssuesReset env reqs c t expiry ∧
    ∀ e' ∈ es₂, ¬ e'.RequestsReset reqs ∧ ¬ e'.ChangesPassword reqs) ∨
  ((∀ e' ∈ es, ¬ e'.RequestsReset reqs ∧ ¬ e'.ChangesPassword reqs) ∧
    ∃ row, row₀ = some row ∧ row.passwordResetTokenHash = some (env.sha256 t) ∧
      row.passwordResetExpiresAt = some expiry)

/-- The new password of the entry was set by a reset that presented `t` at instant `now`, read
by its author. -/
def Entry.ResetsAt (env : Env) (c : Cfg ι) (t : String) (now : Instant) (e : Entry ι) : Prop :=
  now ∈ (did c e.author).instants ∧ ∃ row u₀ u new iv v, e.old = some row ∧
    rowToUser env row = .ok u₀ ∧ u₀.resetPassword env now t new = .ok u ∧
    e.new = some (userToValues env iv u v)

/-- The entry touches the reset columns: it registers the account, or its author does. -/
def Entry.TouchesReset (reqs : ι → Request) (e : Entry ι) : Prop :=
  e.old = none ∨ (reqs e.author).touchesReset = true

omit [Fintype ι] [DecidableEq ι] in
theorem not_touchesReset {e : Entry ι} (h : ¬ e.TouchesReset reqs) :
    ¬ e.RequestsReset reqs ∧ ¬ e.ChangesPassword reqs ∧ ∀ t, ¬ e.Resets reqs t := by
  refine ⟨?_, ?_, fun t => ?_⟩
  · rintro ⟨email, ip, hr⟩
    exact h (Or.inr (by rw [hr]; rfl))
  · rintro ⟨userId, old, new, hr⟩
    exact h (Or.inr (by rw [hr]; rfl))
  · rintro ⟨pwd, ip, hr⟩
    exact h (Or.inr (by rw [hr]; rfl))

omit [Fintype ι] [DecidableEq ι] in
/-- An entry that does not touch the reset columns leaves the token that is held. -/
theorem Authored.heldToken_eq {e : Entry ι} (h : Authored env reqs c e)
    (ht : ¬ e.TouchesReset reqs) : heldToken e.new = heldToken e.old := by
  rcases h.2 with ⟨u, hold, -⟩ | ⟨u₀, u, row, iv, hold, hok, -, hd, hnew⟩
  · exact absurd (Or.inl hold) ht
  · have hr : (reqs e.author).touchesReset = false := by
      simpa using fun h => ht (Or.inr h)
    rw [hnew, hold, heldToken_userToValues, heldToken_rowToUser hok, hd.computes.resetToken hr]

omit [Fintype ι] [DecidableEq ι] in
/-- What an entry by a reset has found and checked. -/
theorem Authored.resets {e : Entry ι} (h : Authored env reqs c e) {t : String}
    (he : e.Resets reqs t) :
    ∃ T now, heldToken e.old = some (.ok (some T)) ∧ T.isValid now = true ∧
      T.matches_ env t = true ∧ e.ResetsAt env c t now := by
  obtain ⟨pwd, ip, hreq⟩ := he
  rcases h.2 with ⟨u, -, -, ⟨hr, -⟩, -⟩ | ⟨u₀, u, row, iv, hold, hok, -, hd, hnew⟩
  · rw [hreq] at hr
    cases hr
  · have hs := hd.sourced
    rw [hreq] at hs
    obtain ⟨now, hnow, new, hu⟩ := hs
    obtain ⟨T, hT, hvalid, hmatch, -⟩ := resetPassword_checks hu
    refine ⟨T, now, ?_, hvalid, hmatch, hnow, row, u₀, u, new, iv, _, hold, hok, hu, hnew⟩
    rw [hold, heldToken_rowToUser hok, hT]

omit [Fintype ι] [DecidableEq ι] in
/-- **An entry after which a usable token is held has issued it.** -/
theorem Authored.issues (hsha : Function.Injective env.sha256) {e : Entry ι}
    (h : Authored env reqs c e) (ht : e.TouchesReset reqs) {T : PasswordResetToken}
    (hT : heldToken e.new = some (.ok (some T))) {t : String} {now : Instant}
    (hvalid : T.isValid now = true) (hmatch : T.matches_ env t = true) {expiry : Instant}
    (hexp : T.expiresAt = some expiry) : e.IssuesReset env reqs c t expiry := by
  rcases h.2 with ⟨u, -, -, ⟨-, _, -, _, -, _, _, _, _, -, rfl⟩, iv, hnew⟩ |
    ⟨u₀, u, row, iv, hold, hok, hw, hd, hnew⟩
  · rw [hnew, heldToken_userToValues] at hT
    exact absurd hT (by simp [User.create, User.recordEvent])
  · rw [hnew, heldToken_userToValues] at hT
    have hT : u.passwordResetToken = some T := by simpa using hT
    rcases hd.resetToken with ⟨hr, -⟩ | ⟨email, ip, hr, token, htok, at_, -, rfl⟩ |
      ⟨token, pwd, ip, -, at_, -, new, hu⟩ | ⟨userId, old, new, -, hnone⟩
    · rcases ht with hnone | htrue
      · exact absurd (hold.symm.trans hnone) (by simp)
      · exact absurd (hr.symm.trans htrue) (by simp)
    · obtain rfl : PasswordResetToken.create env at_ token = T := Option.some.inj hT
      have heq : token = t := hsha (matches_hash hmatch)
      subst heq
      refine ⟨⟨email, ip, hr⟩, htok, ⟨_, hnew, rfl, hexp⟩, _, hw, ?_⟩
      exact List.mem_append_right _ List.mem_cons_self
    · obtain ⟨T', -, -, -, hused⟩ := resetPassword_checks hu
      obtain rfl := Option.some.inj (hT.symm.trans hused)
      exact absurd hvalid (by simp [PasswordResetToken.isValid, PasswordResetToken.markUsed])
    · exact absurd (hT.symm.trans hnone) (by simp)

/-- **A reset spends the token most recently requested**, before its expiry; and no reset has
touched the row since that request. -/
theorem reset_latest (hsha : Function.Injective env.sha256) (hw : Startable env w) {x : Uuid}
    {ls : List (Label ι Choice ℕ)} (h : (machine env ι).run (start env reqs w) ls = some c)
    {es₁ es₂ : List (Entry ι)} {e : Entry ι}
    (hes : journal env x (start env reqs w) ls = es₁ ++ e :: es₂) {t : String}
    (he : e.Resets reqs t) :
    ∃ expiry now, now < expiry ∧ e.ResetsAt env c t now ∧
      ((∃ es r es', es₁ = es ++ r :: es' ∧ r.IssuesReset env reqs c t expiry ∧
        ∀ e' ∈ es', ¬ e'.TouchesReset reqs) ∨
      ((∀ e' ∈ es₁, ¬ e'.TouchesReset reqs) ∧
        ∃ row, w.db.user x = some row ∧ row.passwordResetTokenHash = some (env.sha256 t) ∧
          row.passwordResetExpiresAt = some expiry)) := by
  have hauth := (journal_authored hw x h).1
  have hlink := journal_linked (x := x) h
  rw [hes] at hauth hlink
  obtain ⟨mid, hlink₁, hmid, -⟩ := linked_append.mp hlink
  obtain ⟨T, now, hT, hvalid, hmatch, hat⟩ := (hauth e (by simp)).resets he
  obtain ⟨expiry, hexp, hlt⟩ := isValid_expiry hvalid
  refine ⟨expiry, now, hlt, hat, ?_⟩
  have hkeep : ∀ es' : List (Entry ι), es' ⊆ es₁ → (∀ e' ∈ es', ¬ e'.TouchesReset reqs) →
      ∀ e' ∈ es', heldToken e'.new = heldToken e'.old := by
    intro es' hsub hno e' he'
    exact (hauth e' (List.mem_append_left _ (hsub he'))).heldToken_eq (hno e' he')
  rcases last_cases (Entry.TouchesReset reqs) es₁ with hno | ⟨es, r, es', rfl, hr, hno⟩
  · refine Or.inr ⟨hno, ?_⟩
    have hsame := hlink₁.unchanged (hkeep es₁ (List.Subset.refl _) hno)
    rw [← hmid, hT, start_shared] at hsame
    obtain ⟨row, hrow, hcol⟩ := Option.map_eq_some_iff.mp hsame.symm
    obtain ⟨hhash, hexp'⟩ := passwordResetColumn_some hcol
    refine ⟨row, hrow, ?_, hexp'.trans hexp⟩
    rw [hhash, matches_hash hmatch]
  · refine Or.inl ⟨es, r, es', rfl, ?_, hno⟩
    obtain ⟨mid', -, -, hlink'⟩ := linked_append.mp hlink₁
    have hsame := hlink'.unchanged
      (hkeep es' (fun e' he' => by simp [he']) hno)
    rw [← hmid, hT] at hsame
    exact (hauth r (by simp)).issues hsha hr hsame.symm hvalid hmatch hexp

/-- No reset with the same token comes before another. -/
theorem reset_not_before (hsha : Function.Injective env.sha256) (hf : FreshTokens env w)
    (hw : Startable env w) {x : Uuid} {ls : List (Label ι Choice ℕ)}
    (h : (machine env ι).run (start env reqs w) ls = some c) {es₁ es₂ : List (Entry ι)}
    {e : Entry ι} (hes : journal env x (start env reqs w) ls = es₁ ++ e :: es₂) {t : String}
    (he : e.Resets reqs t) : ∀ e' ∈ es₁, ¬ e'.Resets reqs t := by
  intro e' he' hreset
  obtain ⟨_, _, -, -, hlast⟩ := reset_latest hsha hw h hes he
  rcases hlast with ⟨es, r, es', rfl, hr, hno⟩ | ⟨hno, -⟩
  · have hdrew := (runs_of_run h).drew hf
    have hdrawn : t ∈ (did c r.author).secrets env := mem_secrets_of_token hr.2.1
    have hbefore : e' ∈ es := by
      rcases List.mem_append.mp he' with hmem | hmem
      · exact hmem
      · rcases List.mem_cons.mp hmem with rfl | hmem
        · obtain ⟨email, ip, hreq⟩ := hr.1
          obtain ⟨pwd, ip', hreq'⟩ := hreset
          exact absurd (hreq.symm.trans hreq') (by simp)
        · exact absurd hreset ((not_touchesReset (hno e' hmem)).2.2 t)
    obtain ⟨a, b, rfl⟩ := List.append_of_mem hbefore
    have hes' : journal env x (start env reqs w) ls = a ++ e' :: (b ++ r :: es' ++ e :: es₂) := by
      rw [hes]
      simp
    obtain ⟨_, _, -, -, hlast'⟩ := reset_latest hsha hw h hes' hreset
    rcases hlast' with ⟨a', r', a'', rfl, hr', -⟩ | ⟨-, row, hrow, hhash, -⟩
    · -- the same token would have been drawn by two requests
      have hauthor := hdrew.apart r'.author r.author t (mem_secrets_of_token hr'.2.1) hdrawn
      have hnodup := (journal_authored hw x h).2
      rw [hes'] at hnodup
      simp [List.nodup_append, hauthor] at hnodup
    · exact absurd hhash (hdrew.unseen hf hdrawn hrow).1
  · exact (not_touchesReset (hno e' he')).2.2 t hreset

/-- **Password-reset tokens are single-use, latest-only and expiring.** In the journal of any
account, along any schedule of any requests, a reset that presents token `t` is the only entry of
that token; `t` is the token most recently requested for the account, with no password change
since the request; and the reset was computed strictly before the expiry that request set. -/
theorem reset_token_single_use (hsha : Function.Injective env.sha256) (hf : FreshTokens env w)
    (hw : Startable env w) {ls : List (Label ι Choice ℕ)}
    (h : (machine env ι).run (start env reqs w) ls = some c) (x : Uuid) (t : String)
    (es₁ es₂ : List (Entry ι)) (e : Entry ι)
    (hes : journal env x (start env reqs w) ls = es₁ ++ e :: es₂) (he : e.Resets reqs t) :
    (∀ e' ∈ es₁ ++ es₂, ¬ e'.Resets reqs t) ∧
      ∃ expiry now, MostRecent env reqs c (w.db.user x) es₁ t expiry ∧ now < expiry ∧
        e.ResetsAt env c t now := by
  refine ⟨fun e' he' hreset => ?_, ?_⟩
  · rcases List.mem_append.mp he' with hmem | hmem
    · exact reset_not_before hsha hf hw h hes he e' hmem hreset
    · obtain ⟨a, b, rfl⟩ := List.append_of_mem hmem
      have hes' : journal env x (start env reqs w) ls = (es₁ ++ e :: a) ++ e' :: b := by
        rw [hes]
        simp
      exact reset_not_before hsha hf hw h hes' hreset e (by simp) he
  · obtain ⟨expiry, now, hlt, hat, hlast⟩ := reset_latest hsha hw h hes he
    refine ⟨expiry, now, ?_, hlt, hat⟩
    rcases hlast with ⟨es, r, es', rfl, hr, hno⟩ | ⟨hno, hrow⟩
    · refine Or.inl ⟨es, r, es', rfl, hr, fun e' he' => ?_⟩
      exact ⟨(not_touchesReset (hno e' he')).1, (not_touchesReset (hno e' he')).2.1⟩
    · refine Or.inr ⟨fun e' he' => ?_, hrow⟩
      exact ⟨(not_touchesReset (hno e' he')).1, (not_touchesReset (hno e' he')).2.1⟩

end Schedules

/-- A request for a reset token, and a reset that presents the token. -/
def resetRequests : Fin 2 → Request
  | 0 => .requestPasswordReset "alice@example.com" none
  | 1 => .resetPassword (Reference.tokenUrlsafe 0) "Battery-Staple-7" none

/-- A minute after the token is issued, it is spent. -/
def resetSchedule : List (Label (Fin 2) Choice ℕ) :=
  Reference.moves 0 7 ++ Reference.wait 60 ++ Reference.moves 1 10

/-- The world the two requests run in. -/
def resetWorld : World (Fin 2) :=
  Reference.world (Fin 2) (Reference.tables (Reference.alice false) true)

/-- The token that was issued is spent once, within its hour. -/
theorem issued_token_spent :
    ∃ c es₁ e es₂, (machine Reference.env (Fin 2)).run
        (start Reference.env resetRequests resetWorld) resetSchedule = some c ∧
      journal Reference.env Reference.aliceId
        (start Reference.env resetRequests resetWorld) resetSchedule = es₁ ++ e :: es₂ ∧
      e.Resets resetRequests (Reference.tokenUrlsafe 0) ∧
      (∀ e' ∈ es₁ ++ es₂, ¬ e'.Resets resetRequests (Reference.tokenUrlsafe 0)) ∧
      ∃ expiry now, MostRecent Reference.env resetRequests c (resetWorld.db.user Reference.aliceId)
        es₁ (Reference.tokenUrlsafe 0) expiry ∧ now < expiry ∧
        e.ResetsAt Reference.env c (Reference.tokenUrlsafe 0) now := by
  obtain ⟨c, hc, -⟩ : ∃ c, (machine Reference.env (Fin 2)).run
      (start Reference.env resetRequests resetWorld) resetSchedule = some c ∧ True := by
    decide +kernel
  have hauthors : (journal Reference.env Reference.aliceId
      (start Reference.env resetRequests resetWorld) resetSchedule).map Entry.author = [0, 1] := by
    decide +kernel
  obtain ⟨e₀, es, hes, -, hrest⟩ := List.map_eq_cons_iff.mp hauthors
  obtain ⟨e, es₂, rfl, he, hnil⟩ := List.map_eq_cons_iff.mp hrest
  have hreset : e.Resets resetRequests (Reference.tokenUrlsafe 0) :=
    ⟨"Battery-Staple-7", none, by rw [he]; rfl⟩
  have hfresh : FreshTokens Reference.env resetWorld := by
    refine reference_fresh fun row hrow => ?_
    obtain rfl : row = Reference.alice false := List.mem_singleton.mp hrow
    exact ⟨rfl, rfl⟩
  exact ⟨c, [e₀], e, es₂, hc, hes, hreset, reset_token_single_use Reference.sha256_injective hfresh
    (reference_startable (Fin 2) rfl true .empty) hc Reference.aliceId (Reference.tokenUrlsafe 0)
    [e₀] es₂ e hes hreset⟩

end BackendTemplate
