import BackendTemplate.Commits

/-!
# Revocation Against Concurrent Refreshes

`SQLAlchemySessionRepo.update` writes back the whole aggregate it was given, and a session
has no version. So a refresh that read its session before a revocation committed, and
writes it back afterwards, un-revokes the session and all its tokens.

Row locks close every other placement: while a rotation is pending it holds the session
row, so a revocation waits for it, and the other way round. `rotatesLive` is the condition
that the harmful placement does not happen: a step that writes an unrevoked session back
finds the committed row unrevoked. Along every run whose steps all satisfy it, a revoked
session stays revoked with its tokens, and no request refreshes it.

## Main results

* `Runs.fenced` — a pending rotation is of a session that is unrevoked in the tables.
* `revocation_permanent` — revocation is permanent along such runs.
-/

namespace BackendTemplate

open Atomic

variable {env : Env} {ι : Type}

/-- A step that writes an unrevoked session back finds the committed row unrevoked. -/
def rotatesLive (c : Cfg ι) : Label ι Choice ℕ → Prop
  | .act i _ => ∀ s k, c.threads i = .running (.call (.updateSession s) k) →
      s.isRevoked = false → ∀ row, c.shared.db.session s.sessionId = some row →
        row.isRevoked = false
  | .env _ => True

instance (c : Cfg ι) : (l : Label ι Choice ℕ) → Decidable (rotatesLive c l)
  | .act i _ => decidable_of_iff (∀ s ∈ (c.next i).bind Op.updates, s.isRevoked = false →
      ∀ row ∈ c.shared.db.session s.sessionId, row.isRevoked = false) forall_updates
  | .env _ => inferInstanceAs (Decidable True)

/-- Every pending rotation is of a session that is unrevoked in the tables. -/
def Fenced (c : Cfg ι) : Prop :=
  ∀ i a, c.threads i = .running a → (did c i).committed = false →
    ∀ s ∈ (did c i).updated, s.isRevoked = false →
      ∃ row, c.shared.db.session s.sessionId = some row ∧ row.isRevoked = false

variable [Fintype ι] [DecidableEq ι] {reqs : ι → Request} {w : World ι} {c c' : Cfg ι}

/-- An exchanged session has a row. -/
theorem Exchanges.session_row {t : String} {p : Progress} {s₀ s : SessionAggregate} {db : Db}
    (h : Exchanges env t p s₀ s) (hk : ∀ s ∈ p.sessions, Known db s) :
    ∃ row, db.session s.sessionId = some row := by
  obtain ⟨presented, new, now, hs₀, -, -, -, -, -, rfl⟩ := h
  obtain ⟨row, hrow, -⟩ := (hk s₀ hs₀).session
  exact ⟨row, hrow⟩

/-- **Pending rotations are fenced**: the condition says so when one is written, and the
row lock keeps it so. -/
theorem Runs.fenced (h : Runs env reqs rotatesLive w c) (hw : Startable env w) : Fenced c := by
  refine h.induction Fenced ?_ ?_ ?_ ?_
  · exact fun i a _ _ s hs => absurd hs List.not_mem_nil
  · intro c i ch o k x w' hr ih hC ht hal he j a hj hcj s hs hrev
    rw [afterCall_shared]
    by_cases hji : j = i
    · subst hji
      rw [did_afterCall_self] at hs hcj
      have hc := of_note_uncommitted hcj
      rcases mem_note_updated hs with hold | rfl
      · obtain ⟨row, hrow, hlive⟩ := ih j _ ht hc s hold hrev
        by_cases ho : o = .commit
        · subst ho
          rcases exec_commit he with ⟨rfl, rfl⟩ | ⟨rfl, rfl⟩
          · exact absurd hs List.not_mem_nil
          · exact absurd hcj (by simp [Progress.note])
        · exact ⟨row, (exec_db ho he).1.symm ▸ hrow, hlive⟩
      · -- the rotation is being written: its session was read, so it has a row
        obtain ⟨-, -, hsrc⟩ := hal
        rcases hsrc with ⟨s₀, -, rfl⟩ | ⟨t, s₀, -, hx, -⟩
        · exact absurd hrev (by simp)
        · obtain ⟨row, hrow⟩ := hx.session_row ((hr.minted hw).known j)
          rw [(exec_db (by simp) he).1]
          exact ⟨row, hrow, hC s k ht hrev row hrow⟩
    · rw [did_afterCall_ne hji] at hs hcj
      rw [threads_afterCall_ne hji] at hj
      obtain ⟨row, hrow, hlive⟩ := ih j a hj hcj s hs hrev
      by_cases ho : o = .commit
      · subst ho
        rcases exec_commit he with ⟨rfl, rfl⟩ | ⟨rfl, rfl⟩
        · exact ⟨row, hrow, hlive⟩
        · refine ⟨row, ?_, hlive⟩
          rw [commit_session, (hr.isOpen hw hj hcj).session_held (Ne.symm hji) hs, hrow]
      · exact ⟨row, (exec_db ho he).1.symm ▸ hrow, hlive⟩
  · intro c i ch x _ ih _ _ _ j a hj hcj s hs hrev
    exact ih j a (threads_left hj) hcj s hs hrev
  · exact fun c d _ ih _ => ih

omit [Fintype ι] [DecidableEq ι] in
/-- A commit leaves a revoked session revoked. -/
theorem Fenced.session {r : Request} {i : ι} {a : Act Response} (hf : Fenced c)
    (ho : Open env r c i) (ht : c.threads i = .running a) {sid : Uuid} {row : SessionRow}
    (hrow : c.shared.db.session sid = some row) (hrev : row.isRevoked = true) :
    ∃ row', (c.shared.view i).session sid = some row' ∧ row'.isRevoked = true := by
  obtain ⟨row', hrow', -, hcases⟩ := ho.session_view hrow
  refine ⟨row', hrow', ?_⟩
  rcases hcases with ⟨rfl, -⟩ | ⟨s, hs, rfl, hs', -⟩
  · exact hrev
  · rw [hs']
    by_contra hlive
    obtain ⟨row₁, hrow₁, hlive₁⟩ := hf i a ht ho.uncommitted s hs (by simpa using hlive)
    obtain rfl := Option.some.inj (hrow.symm.trans hrow₁)
    exact absurd (hrev.symm.trans hlive₁) (by simp)

omit [Fintype ι] [DecidableEq ι] in
/-- A commit leaves the revoked tokens of a revoked session revoked. -/
theorem Fenced.token {r : Request} {i : ι} {a : Act Response} (hf : Fenced c)
    (ho : Open env r c i) (ht : c.threads i = .running a) {sid x : Uuid} {row : SessionRow}
    (hrow : c.shared.db.session sid = some row) (hrev : row.isRevoked = true)
    {t : RefreshTokenRow} (htok : c.shared.db.token x = some t) (hsid : t.sessionId = sid)
    (htrev : t.isRevoked = true) :
    ∃ t', (c.shared.view i).token x = some t' ∧ t'.sessionId = sid ∧ t'.isRevoked = true := by
  obtain ⟨t', ht', hs', -, hcases⟩ := ho.token_view htok
  refine ⟨t', ht', hs'.trans hsid, ?_⟩
  rcases hcases with ⟨rfl, -⟩ | ⟨s, hs, u, hu, rfl, hu'⟩
  · exact htrev
  · rw [hu']
    rcases (ho.coherent.updated s hs).cases with ⟨-, hall⟩ | ⟨hlive, -⟩
    · exact hall u hu
    · -- the token row belongs to the session that is being rotated
      have hown : t.sessionId = s.sessionId := by
        have hwrite : WriteFrom env (did c i) (.tokenUpsert (refreshTokenToRow s.sessionId u)) :=
          ⟨s, hs, u, hu, rfl⟩
        rcases ho.minted.upsert ho.coherent hwrite with ⟨row', hrow', hs', -⟩ | hdrawn
        · obtain rfl := Option.some.inj (htok.symm.trans hrow')
          exact hs'
        · refine absurd (Or.inr (Or.inr ?_)) (ho.not_has hdrawn)
          have := List.mem_map_of_mem (f := RefreshTokenRow.id) (Keyed.mem_of_lookup htok)
          rwa [Keyed.key_of_lookup htok] at this
      obtain ⟨row₁, hrow₁, hlive₁⟩ := hf i a ht ho.uncommitted s hs hlive
      rw [← hown, hsid] at hrow₁
      obtain rfl := Option.some.inj (hrow.symm.trans hrow₁)
      exact absurd (hrev.symm.trans hlive₁) (by simp)

/-- What revocation of session `sid` in configuration `c` means in a later one: the session
and its revoked tokens are revoked, and no refresh has committed on it since. -/
structure Revoked (reqs : ι → Request) (sid : Uuid) (c c' : Cfg ι) : Prop where
  session : ∃ row, c'.shared.db.session sid = some row ∧ row.isRevoked = true
  tokens : ∀ x t, c.shared.db.token x = some t → t.sessionId = sid → t.isRevoked = true →
    ∃ t', c'.shared.db.token x = some t' ∧ t'.sessionId = sid ∧ t'.isRevoked = true
  refreshes : ∀ i tok, reqs i = .refreshToken tok → (did c' i).committed = true →
    (did c i).committed = true ∨ ∀ s ∈ (did c' i).updated, s.sessionId ≠ sid

theorem Runs.revoked (h : Runs env reqs rotatesLive w c) (hw : Startable env w)
    (h' : Later env rotatesLive c c') {sid : Uuid} {row : SessionRow}
    (hrow : c.shared.db.session sid = some row) (hrev : row.isRevoked = true) :
    Revoked reqs sid c c' := by
  refine h'.induction h (Revoked reqs sid c) ?_ ?_ ?_ ?_
  · exact ⟨⟨row, hrow, hrev⟩, fun x t ht hs htr => ⟨t, ht, hs, htr⟩,
      fun i tok _ hc => Or.inl hc⟩
  · intro c₁ i ch o k x w' hr ih _ ht hal he
    by_cases ho : o = .commit
    · subst ho
      rcases exec_commit he with ⟨rfl, rfl⟩ | ⟨rfl, rfl⟩
      · refine ⟨ih.session, ih.tokens, fun j tok hreq hc => ?_⟩
        by_cases hji : j = i
        · subst hji
          rw [did_afterCall_self] at hc
          exact absurd (hal.1.symm.trans hc) (by simp)
        · rw [did_afterCall_ne hji] at hc ⊢
          exact ih.refreshes j tok hreq hc
      · have hopen := hr.isOpen hw ht hal.1
        have hfence := hr.fenced hw
        obtain ⟨row₁, hrow₁, hrev₁⟩ := ih.session
        refine ⟨?_, ?_, fun j tok hreq hc => ?_⟩
        · rw [afterCall_shared, commit_session]
          exact hfence.session hopen ht hrow₁ hrev₁
        · intro y t hy hs htr
          obtain ⟨t₁, ht₁, hs₁, htr₁⟩ := ih.tokens y t hy hs htr
          rw [afterCall_shared, commit_token]
          exact hfence.token hopen ht hrow₁ hrev₁ ht₁ hs₁ htr₁
        · by_cases hji : j = i
          · subst hji
            rw [did_afterCall_self]
            right
            intro s hs hsid
            obtain ⟨hlive, -⟩ | ⟨hlive, -⟩ := (hopen.coherent.updated s hs).cases
            · -- a refresh commits an exchange, never a revocation
              have hdone := hal.2.1
              rw [hreq] at hdone
              obtain ⟨s₀, s₁, hx, hup⟩ := hdone
              obtain rfl : s = s₁ := List.mem_singleton.mp (hup ▸ hs)
              obtain ⟨presented, new, now, -, hrev₀, -, -, -, -, rfl⟩ := hx
              exact absurd (hlive.symm.trans hrev₀) (by simp)
            · obtain ⟨row₂, hrow₂, hlive₂⟩ := hfence j _ ht hal.1 s hs hlive
              rw [hsid] at hrow₂
              obtain rfl := Option.some.inj (hrow₁.symm.trans hrow₂)
              exact absurd (hrev₁.symm.trans hlive₂) (by simp)
          · rw [did_afterCall_ne hji] at hc ⊢
            exact ih.refreshes j tok hreq hc
    · obtain ⟨hdb, -⟩ := exec_db ho he
      refine ⟨by rw [afterCall_shared, hdb]; exact ih.session,
        by rw [afterCall_shared, hdb]; exact ih.tokens, fun j tok hreq hc => ?_⟩
      by_cases hji : j = i
      · subst hji
        rw [did_afterCall_self] at hc ⊢
        rcases of_note_committed hc with hbefore | rfl
        · refine (ih.refreshes j tok hreq hbefore).imp_right fun hne s hs => ?_
          rcases mem_note_updated hs with hs | rfl
          · exact hne s hs
          · exact absurd (hal.2.1.symm.trans hbefore) (by simp)
        · exact absurd rfl ho
      · rw [did_afterCall_ne hji] at hc ⊢
        exact ih.refreshes j tok hreq hc
  · exact fun c₁ i ch x _ ih _ _ _ => ⟨ih.session, ih.tokens, ih.refreshes⟩
  · exact fun c₁ d _ ih _ => ⟨ih.session, ih.tokens, ih.refreshes⟩

/-- **Revocation is permanent** along every run in which no rotation is written over a
committed revocation: the session stays revoked, its revoked tokens stay revoked, and a
request that had not committed by then never refreshes it. -/
theorem revocation_permanent (h : Runs env reqs rotatesLive w c) (hw : Startable env w)
    (h' : Later env rotatesLive c c') {sid : Uuid} {row : SessionRow}
    (hrow : c.shared.db.session sid = some row) (hrev : row.isRevoked = true) :
    (∃ row', c'.shared.db.session sid = some row' ∧ row'.isRevoked = true) ∧
      (∀ t ∈ c.shared.db.refreshTokens, t.sessionId = sid → t.isRevoked = true →
        ∃ t' ∈ c'.shared.db.refreshTokens, t'.id = t.id ∧ t'.isRevoked = true) ∧
      ∀ i tok out, reqs i = .refreshToken tok → (did c i).committed = false →
        c'.threads i = .done (.ok (.refreshed out)) → out.sessionId ≠ env.uuidStr sid := by
  have hall := h.revoked hw h' hrow hrev
  refine ⟨hall.session, fun t ht hsid htr => ?_, fun i tok out hreq hc hdone hout => ?_⟩
  · obtain ⟨t', ht', -, htr'⟩ := hall.tokens t.id t ((h.minted hw).keyed.mem_tokens.mp ht) hsid htr
    exact ⟨t', Keyed.mem_of_lookup ht', Keyed.key_of_lookup ht', htr'⟩
  · have hends := ((h.later h').ends hdone).1
    rw [hreq] at hends
    obtain ⟨hcomm, s, hs, hid⟩ := hends
    rcases hall.refreshes i tok hreq hcomm with hc' | hne
    · exact absurd (hc.symm.trans hc') (by simp)
    · refine hne s hs ?_
      have hparse := congrArg env.parseUuid (hid.symm.trans hout)
      rw [env.parseUuid_uuidStr, env.parseUuid_uuidStr] at hparse
      exact Option.some.inj hparse

/-! ### A refresh and a revocation -/

/-- A client refreshes the session while its owner revokes it. -/
def refreshAndRevoke : Fin 2 → Request
  | 0 => .refreshToken Reference.presented
  | 1 => .revokeSession Reference.aliceId (Reference.env.uuidStr Reference.session.sessionId)

/-- The two requests, about to start. -/
def refreshAndRevokeStart : Cfg (Fin 2) :=
  start Reference.env refreshAndRevoke
    (Reference.world (Fin 2) (Reference.tables (Reference.alice false) true))

/-- The session is revoked with all its tokens. -/
def SessionDead (sid : Uuid) (c : Cfg ι) : Prop :=
  (c.shared.db.session sid).map SessionRow.isRevoked = some true ∧
    ∀ t ∈ c.shared.db.refreshTokens, t.sessionId = sid → t.isRevoked = true

/-- The session is unrevoked and has an unrevoked token. -/
def SessionUsable (sid : Uuid) (c : Cfg ι) : Prop :=
  (c.shared.db.session sid).map SessionRow.isRevoked = some false ∧
    ∃ t ∈ c.shared.db.refreshTokens, t.sessionId = sid ∧ t.isRevoked = false

instance (sid : Uuid) (c : Cfg ι) : Decidable (SessionDead sid c) :=
  inferInstanceAs (Decidable (_ ∧ _))

instance (sid : Uuid) (c : Cfg ι) : Decidable (SessionUsable sid c) :=
  inferInstanceAs (Decidable (_ ∧ _))

/-- The revocation stands when the refresh comes after it. -/
theorem revocation_stands : ∃ c c',
    (machine Reference.env (Fin 2)).run refreshAndRevokeStart (Reference.moves 1 5) = some c ∧
      (machine Reference.env (Fin 2)).run c (Reference.moves 0 2) = some c' ∧
      ∃ row', c'.shared.db.session Reference.session.sessionId = some row' ∧
        row'.isRevoked = true := by
  obtain ⟨c, c', hc, hc', ⟨hdead, hsteps⟩, -⟩ := Machine.exists_run_run
    (M := machine Reference.env (Fin 2)) (c := refreshAndRevokeStart)
    (P := fun c => SessionDead Reference.session.sessionId c ∧
      (machine Reference.env (Fin 2)).RunsWith rotatesLive c (Reference.moves 0 2))
    (Q := fun _ => True)
    (by decide +kernel : ((machine Reference.env (Fin 2)).run refreshAndRevokeStart
      (Reference.moves 1 5)).any (fun c₁ => _ && ((machine Reference.env (Fin 2)).run c₁
        (Reference.moves 0 2)).any _) = true)
  obtain ⟨row, hrow, hrev⟩ := Option.map_eq_some_iff.mp hdead.1
  have hfirst : (machine Reference.env (Fin 2)).RunsWith rotatesLive refreshAndRevokeStart
      (Reference.moves 1 5) := by
    decide +kernel
  exact ⟨c, c', hc, hc', (revocation_permanent (Machine.reach_of_run hfirst hc)
    (reference_startable (Fin 2) rfl true .empty) (Machine.reach_of_run hsteps hc') hrow hrev).1⟩

/-- The revocation is lost when the refresh has read the session before it commits and writes
it back after: the session is usable again, with a new refresh token. -/
theorem revocation_lost : ∃ c c',
    (machine Reference.env (Fin 2)).run refreshAndRevokeStart
        (Reference.moves 0 10 ++ Reference.moves 1 5) = some c ∧
      (machine Reference.env (Fin 2)).run c (Reference.moves 0 4) = some c' ∧
      SessionDead Reference.session.sessionId c ∧ SessionUsable Reference.session.sessionId c' :=
  Machine.exists_run_run (by decide +kernel)

/-! ### The grants on Hydra's side -/

/-- The request has committed the revocation of all sessions of an account. -/
def Progress.RevokedAll (p : Progress) (x : Uuid) : Prop :=
  p.committed = true ∧ ∃ l ∈ p.listed, l.1 = x ∧
    p.updated = (l.2.map SessionAggregate.revoke).reverse

instance (p : Progress) (x : Uuid) : Decidable (p.RevokedAll x) :=
  inferInstanceAs (Decidable (_ ∧ _))

/-- The request has had Hydra revoke the consent and login sessions of an account. -/
def Progress.RevokedGrants (env : Env) (p : Progress) (x : Uuid) : Prop :=
  env.uuidStr x ∈ p.consentsRevoked ∧ env.uuidStr x ∈ p.loginsRevoked

instance (env : Env) (p : Progress) (x : Uuid) : Decidable (p.RevokedGrants env x) :=
  inferInstanceAs (Decidable (_ ∧ _))

omit [Fintype ι] [DecidableEq ι] in
/-- A revoked consent was revoked before, or is by this very call. -/
theorem mem_note_consents {p : Progress} {o : Op} {x : o.Res} {s : String}
    (h : s ∈ (p.note o x).consentsRevoked) :
    s ∈ p.consentsRevoked ∨ o = .revokeConsentSessions s := by
  rw [Progress.note.eq_def] at h
  split at h
  case h_21 =>
      rcases List.mem_cons.mp h with rfl | h
      · exact Or.inr rfl
      · exact Or.inl h
  all_goals exact Or.inl h

/-- **Only `RevokeAllSessionsUseCase` has Hydra revoke grants**, and only those of its
caller. -/
theorem Runs.grants {C : Steps ι} (h : Runs env reqs C w c) (i : ι) :
    ∀ s ∈ (did c i).consentsRevoked,
      ∃ userId, reqs i = .revokeAllSessions userId ∧ s = env.uuidStr userId := by
  revert i
  refine h.induction (fun c => ∀ i, ∀ s ∈ (did c i).consentsRevoked,
    ∃ userId, reqs i = .revokeAllSessions userId ∧ s = env.uuidStr userId) ?_ ?_ ?_ ?_
  · exact fun i s hs => absurd hs List.not_mem_nil
  · intro c i ch o k x w' _ ih _ _ hal _ j s hs
    by_cases hji : j = i
    · subst hji
      rw [did_afterCall_self] at hs
      rcases mem_note_consents hs with hold | rfl
      · exact ih j s hold
      · obtain ⟨-, hreq⟩ := hal
        split at hreq
        · rename_i userId hr
          exact ⟨userId, hr, hreq⟩
        · exact hreq.elim
    · rw [did_afterCall_ne hji] at hs
      exact ih j s hs
  · exact fun c i ch x _ ih _ _ _ => ih
  · exact fun c d _ ih _ => ih

/-- **When a bulk revocation also kills the grants on Hydra's side.** In every run, a request
that has succeeded and committed the revocation of all sessions of account `x` has had Hydra
revoke the consent and login sessions of `x` if and only if it is a
`RevokeAllSessionsUseCase`. -/
theorem bulk_revocation_grants_iff {C : Steps ι} (h : Runs env reqs C w c) {i : ι}
    {out : Response} (hdone : c.threads i = .done (.ok out)) {x : Uuid}
    (hrev : (did c i).RevokedAll x) :
    (did c i).RevokedGrants env x ↔ ∃ userId, reqs i = .revokeAllSessions userId := by
  constructor
  · rintro ⟨hconsents, -⟩
    obtain ⟨userId, hr, -⟩ := h.grants i _ hconsents
    exact ⟨userId, hr⟩
  · rintro ⟨userId, hr⟩
    obtain ⟨hcommitted, ⟨y, ss⟩, hlisted, rfl, -⟩ := hrev
    have hends := (h.ends hdone).1
    have hdid := (h.coherent i).committed hcommitted
    rw [hr] at hends hdid
    obtain ⟨ss', hlisted', -⟩ := hdid
    obtain ⟨rfl, -⟩ := Prod.mk.inj (Option.some.inj (hlisted.symm.trans hlisted'))
    exact hends.2.2

/-- The account is signed in, and its owner makes a request. -/
def signedInStart (r : Request) : Cfg Unit :=
  start Reference.env (fun _ => r)
    (Reference.world Unit (Reference.tables (Reference.alice false) true))

/-- Revoking all sessions revokes the grants. -/
theorem revokeAllSessions_grants : ∃ c,
    (machine Reference.env Unit).run (signedInStart (.revokeAllSessions Reference.aliceId))
        (Reference.moves () 7) = some c ∧
      (did c ()).RevokedAll Reference.aliceId ∧
      (did c ()).RevokedGrants Reference.env Reference.aliceId := by
  obtain ⟨c, hc, hdone, hrev⟩ : ∃ c, (machine Reference.env Unit).run
      (signedInStart (.revokeAllSessions Reference.aliceId)) (Reference.moves () 7) = some c ∧
      c.result () = some (.ok .nothing) ∧ (did c ()).RevokedAll Reference.aliceId := by
    decide +kernel
  exact ⟨c, hc, hrev, (bulk_revocation_grants_iff
    (Machine.reach_of_run (Machine.runsWith_any _ _ _) hc) (Config.result_eq_some.mp hdone)
    hrev).mpr ⟨_, rfl⟩⟩

/-- A password change revokes all sessions and leaves the grants. -/
theorem changePassword_leaves_grants : ∃ c,
    (machine Reference.env Unit).run (signedInStart
        (.changePassword Reference.aliceId Reference.password "New-Horse-10"))
        (Reference.moves () 9) = some c ∧
      c.result () = some (.ok .success) ∧ (did c ()).RevokedAll Reference.aliceId ∧
      ¬ (did c ()).RevokedGrants Reference.env Reference.aliceId := by
  decide +kernel

end BackendTemplate
