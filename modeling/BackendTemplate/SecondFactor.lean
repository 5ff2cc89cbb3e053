import BackendTemplate.UserRows

/-!
# The Second Factor Is Mandatory

`LoginUseCase` decides on a snapshot of the account whether it has a second factor. The
decision holds all the same: the login writes the account back, under its version, before
it inserts the session, so the snapshot is the committed row when the transaction commits,
and no concurrent confirmation can slip in between. `CompleteTwoFactorUseCase` inserts a
session only after `User.verify_two_factor` has accepted its code.

## Main results

* `Runs.checked` — an evaluated code was evaluated, against a user the request has read.
* `second_factor_mandatory` — what entitles a transaction to commit a new session.
-/

namespace BackendTemplate

open Atomic

variable {env : Env}

/-! ### Active second factors -/

/-- A users row with an active second factor: a stored secret, and an instant at which it
was enabled. -/
def UserRow.hasTwoFactor (row : UserRow) : Bool :=
  row.twoFactorSecret.any (fun b => !b.isEmpty) && row.twoFactorEnabledAt.isSome

/-- The row says what the aggregate says. -/
theorem rowToUser_hasTwoFactor {row : UserRow} {u : User} (h : rowToUser env row = .ok u) :
    u.hasTwoFactor = row.hasTwoFactor := by
  obtain ⟨-, -, -, -, -, ht⟩ := rowToUser_ok h
  rw [twoFactorColumn] at ht
  rw [User.hasTwoFactor, UserRow.hasTwoFactor]
  split at ht
  · rename_i hs
    rw [← Except.ok.inj ht, hs]
    rfl
  · rename_i hs
    rw [← Except.ok.inj ht, hs]
    rfl
  · rename_i b bs hs
    cases hd : env.decrypt (b :: bs) with
    | none =>
        rw [hd] at ht
        cases ht
    | some secret =>
        rw [hd] at ht
        obtain ⟨_, -, ht⟩ := except_bind_eq_ok.mp ht
        obtain ⟨hashes, -, ht⟩ := except_bind_eq_ok.mp ht
        rw [← Except.ok.inj ht, hs]
        rfl

theorem userToValues_hasTwoFactor (env : Env) (iv : ℕ) (u : User) (v : ℕ) :
    (userToValues env iv u v).hasTwoFactor = u.hasTwoFactor :=
  (rowToUser_hasTwoFactor (rowToUser_userToValues env iv u v)).symm

/-- A code is accepted only against an enabled secret. -/
theorem verifyTwoFactor_hasTwoFactor {u u' : User} {now : Instant} {code : String}
    (h : u.verifyTwoFactor env now code = (true, u')) : u.hasTwoFactor = true := by
  rw [User.verifyTwoFactor] at h
  rw [User.hasTwoFactor]
  split at h
  · exact absurd h (by simp)
  · rename_i s hs
    split at h
    · exact absurd h (by simp)
    · rename_i hen
      simpa [Option.isNone_iff_eq_none, Option.isSome_iff_ne_none] using hen

/-- A login leaves the second factor of the account alone. -/
theorem Computes.login_hasTwoFactor {data : LoginInput} {u₀ u : User}
    (h : Computes env (.login data) u₀ u) : u.hasTwoFactor = u₀.hasTwoFactor := by
  cases h with
  | wrongPassword t t' =>
      rw [User.recordFailedLoginAttempt]
      split <;> rfl
  | rightPassword => rfl

/-! ### Sessions that are committed -/

section Runs

variable {ι : Type} [Fintype ι] [DecidableEq ι] {reqs : ι → Request} {C : Steps ι}
  {w : World ι} {c c' : Cfg ι}

/-- The code that a request submits for evaluation. -/
def Request.submits : Request → Option String
  | .completeTwoFactor _ code | .verify2FA _ code => some code
  | _ => none

/-- **A code that a request has had evaluated** is the one it submits, and was evaluated, at
some instant, against a user the request has read. -/
theorem Runs.checked (h : Runs env reqs C w c) (i : ι) {u u' : User} {code : String} {b : Bool}
    (hchk : (u, code, b, u') ∈ (did c i).checks) :
    u ∈ (did c i).users ∧ (∃ now, u.verifyTwoFactor env now code = (b, u')) ∧
      (reqs i).submits = some code := by
  revert hchk
  refine h.induction (fun c => (u, code, b, u') ∈ (did c i).checks →
    u ∈ (did c i).users ∧ (∃ now, u.verifyTwoFactor env now code = (b, u')) ∧
      (reqs i).submits = some code) ?_ ?_ ?_ ?_
  · exact fun hchk => absurd hchk List.not_mem_nil
  · intro c j ch o k x w' _ ih _ _ hal he hchk
    by_cases hij : i = j
    · subst hij
      rw [did_afterCall_self] at hchk ⊢
      have hext := note_extends (did c i) o x
      by_cases ho : ∃ v code', o = .verifyTwoFactor v code'
      · obtain ⟨v, code', rfl⟩ := ho
        rcases List.mem_cons.mp hchk with heq | hold
        · simp only [exec, Option.some.injEq, Prod.mk.injEq] at he
          obtain ⟨rfl, -⟩ := he
          simp only [Prod.mk.injEq] at heq
          obtain ⟨rfl, rfl, heq⟩ := heq
          refine ⟨hal.1, ⟨c.shared.clock, heq.symm⟩, ?_⟩
          obtain ⟨-, -, hreq⟩ := hal
          cases hr : reqs i with
          | completeTwoFactor token code' =>
              rw [hr] at hreq
              exact congrArg some hreq.1.symm
          | verify2FA userId code' =>
              rw [hr] at hreq
              exact congrArg some hreq.1.symm
          | _ =>
              rw [hr] at hreq
              exact absurd hreq id
        · exact ⟨hext.users (ih hold).1, (ih hold).2⟩
      · rw [note_checks _ (fun v code' hv => ho ⟨v, code', hv⟩)] at hchk
        exact ⟨hext.users (ih hchk).1, (ih hchk).2⟩
    · rw [did_afterCall_ne hij] at hchk ⊢
      exact ih hchk
  · exact fun c j ch x _ ih _ _ _ hchk => ih hchk
  · exact fun c d _ ih _ hchk => ih hchk

/-- **The second factor is mandatory.** In any interleaving of any requests, a step that
makes a new sessions row visible is the commit of a login, with no active second factor in
the users row before and after the commit, or the commit of a completion whose code
`verify_two_factor` accepted against an enabled secret of the account, read by that very
request. -/
theorem second_factor_mandatory (h : Runs env reqs Machine.anyStep w c) (hw : Startable env w)
    {l : Label ι Choice ℕ} (hs : (machine env ι).step c l = some c')
    {row : SessionRow} (hrow : row ∈ c'.shared.db.sessions)
    (hnew : ∀ r ∈ c.shared.db.sessions, r.sessionId ≠ row.sessionId) :
    ∃ i ch, l = .act i ch ∧
      ((∃ data old new, reqs i = .login data ∧ c.shared.db.user row.userId = some old ∧
          old.hasTwoFactor = false ∧ c'.shared.db.user row.userId = some new ∧
          new.hasTwoFactor = false) ∨
        ∃ token code u u' now, reqs i = .completeTwoFactor token code ∧
          (u, code, true, u') ∈ (did c i).checks ∧ u.verifyTwoFactor env now code = (true, u') ∧
          u ∈ (did c i).users ∧ u.id.value = row.userId ∧ u.hasTwoFactor = true) := by
  have h' : Runs env reqs Machine.anyStep w c' := Machine.Reach.tail h trivial hs
  rcases h.step_db hs with hdb | ⟨i, ch, k, rfl, ht, hal, rfl⟩
  · rw [hdb] at hrow
    exact absurd rfl (hnew row hrow)
  · have ho := h.isOpen hw ht hal.1
    have hview : (c.shared.view i).session row.sessionId = some row := by
      rw [← commit_session env]
      exact (h'.minted hw).keyed.mem_sessions.mp hrow
    have hnone : c.shared.db.session row.sessionId = none := by
      rw [Db.session, Keyed.lookup_eq_none, List.mem_map]
      rintro ⟨r, hr, hid⟩
      exact hnew r hr hid
    obtain ⟨s, hadd, -, huser⟩ := ho.new_session hnone hview
    refine ⟨i, ch, rfl, ?_⟩
    obtain ⟨-, -, -, hgrant⟩ := ho.coherent.added s hadd
    cases hreq : reqs i with
    | login data =>
        rw [hreq] at hgrant
        obtain ⟨u, hu, -, h2, hid⟩ := hgrant
        obtain ⟨u₀, -, hcomp, old, hold, -, hok⟩ := (h.tracked hw).written i _ ht hal.1 u hu
        have hx : u.id.value = row.userId := by rw [huser, hid]
        have h2' : u₀.hasTwoFactor = false := by
          rw [hreq] at hcomp
          rw [← hcomp.computes.login_hasTwoFactor, h2]
        rw [hx] at hold
        rcases ho.user_view hold with ⟨-, hno⟩ | ⟨v, iv, hv, -, hv'⟩
        · exact absurd hx (hno u hu)
        · obtain rfl := Option.some.inj (hu.symm.trans hv)
          refine Or.inl ⟨data, old, userToValues env iv u (u.version + 1), rfl, hold, ?_, ?_, ?_⟩
          · rw [← rowToUser_hasTwoFactor hok, h2']
          · rw [afterCall_shared, commit_user]
            exact hv'
          · rw [userToValues_hasTwoFactor, h2]
    | completeTwoFactor token code =>
        rw [hreq] at hgrant
        obtain ⟨u, u', ch', -, hchk, hid, -⟩ := hgrant
        obtain ⟨hu, ⟨now, hv⟩, -⟩ := h.checked i hchk
        refine Or.inr ⟨token, code, u, u', now, rfl, hchk, hv, hu, ?_,
          verifyTwoFactor_hasTwoFactor hv⟩
        rw [huser, hid]
    | _ =>
        rw [hreq] at hgrant
        exact absurd hgrant id

end Runs

/-! ### A login with a password only -/

/-- A login of an account without a second factor, about to start. -/
def passwordLoginStart : Cfg (Fin 1) :=
  start Reference.env
    (fun _ => .login { password := Reference.password, username := some "alice" })
    (Reference.world (Fin 1) (Reference.tables (Reference.alice false) false))

/-- The login commits a session, and the account has no second factor when it does. -/
theorem password_login_granted : ∃ c c' row,
    (machine Reference.env (Fin 1)).run passwordLoginStart (Reference.moves 0 12) = some c ∧
      (machine Reference.env (Fin 1)).run c (Reference.moves 0 1) = some c' ∧
      row ∈ c'.shared.db.sessions ∧ ∃ old, c.shared.db.user row.userId = some old ∧
        old.hasTwoFactor = false := by
  obtain ⟨c, c', hc, hc', hnone, hsome⟩ := Machine.exists_run_run
    (P := fun c : Cfg (Fin 1) => c.shared.db.sessions = [])
    (Q := fun c : Cfg (Fin 1) => c.shared.db.sessions ≠ [])
    (by decide +kernel : ((machine Reference.env (Fin 1)).run passwordLoginStart
      (Reference.moves 0 12)).any (fun c₁ => _ && ((machine Reference.env (Fin 1)).run c₁
        (Reference.moves 0 1)).any _) = true)
  obtain ⟨row, hrow⟩ := List.exists_mem_of_ne_nil _ hsome
  have hstep : (machine Reference.env (Fin 1)).step c (.act 0 {}) = some c' := by
    rw [← Machine.run_singleton]
    exact hc'
  have hnew : ∀ r ∈ c.shared.db.sessions, r.sessionId ≠ row.sessionId := by
    rw [hnone]
    exact fun r hr => absurd hr List.not_mem_nil
  obtain ⟨i, ch, -, ⟨data, old, new, -, hold, h2, -⟩ | ⟨token, code, -, -, -, hreq, -⟩⟩ :=
    second_factor_mandatory (Machine.reach_of_run (Machine.runsWith_any _ _ _) hc)
      (reference_startable (Fin 1) rfl false .empty) hstep hrow hnew
  · exact ⟨c, c', row, hc, hc', hrow, old, hold, h2⟩
  · exact absurd hreq (by simp)

end BackendTemplate
