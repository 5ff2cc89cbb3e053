import BackendTemplate.Rotation

/-!
# Requests One After the Other

In a sequential run a request moves only while no other one is in flight. Then nothing a
request has read can change under it before it commits (`Runs.current`), which is what the
use cases silently assume.

The module ends with the first result about such runs: what becomes of a refresh token that
is presented again after it was exchanged. `acquire_by_token_hash` only looks for unrevoked
tokens, and an exchanged token stays revoked (`Runs.spent`), so the reuse branch of
`refresh_session` is never reached: the session survives the replay.

## Main results

* `Runs.current` — what a request has read is still so until it commits.
* `Runs.spent` — an exchanged token stays revoked.
* `replay_never_kills` — a replayed token raises `InvalidCredentialsError` and changes
  nothing.
-/

namespace BackendTemplate

open Atomic

variable {env : Env} {ι : Type}

/-! ### What a request has read -/

/-- What request `i` has read is what the tables hold. -/
structure Current (c : Cfg ι) (i : ι) : Prop where
  sessions : ∀ s ∈ (did c i).sessions, Loads c.shared.db s
  listed : ∀ u ss, (did c i).listed = some (u, ss) → c.shared.db.acquireSessionsOf u = .ok ss

/-- A request that is not in flight and has not left has done nothing. -/
theorem did_of_not_inFlight {c : Cfg ι} {i : ι} {a : Act Response}
    (h : ¬ Machine.InFlight c i) (ht : c.threads i = .running a) : did c i = {} := by
  have hnil : c.hist i = [] := by
    by_contra hne
    exact h ⟨hne, a, ht⟩
  rw [did, hnil, progress_nil]

/-- Listing sessions depends on the sessions and refresh_tokens tables only. -/
theorem acquireSessionsOf_congr {db db' : Db} (hs : db.sessions = db'.sessions)
    (ht : db.refreshTokens = db'.refreshTokens) (u : Uuid) :
    db.acquireSessionsOf u = db'.acquireSessionsOf u := by
  simp only [Db.acquireSessionsOf, Db.refreshTokensFor, hs, ht]

variable [Fintype ι] [DecidableEq ι] {reqs : ι → Request} {w : World ι} {c : Cfg ι}

/-- What a listing answers is what the committed tables hold. -/
theorem note_listed_current {r : Request} {ch : Choice} {i : ι} {a : Act Response} {o : Op}
    {x : o.Res} {w' : World ι} (hs : Sound env c) (ht : c.threads i = .running a)
    (hal : Allowed env r (did c i) o) (he : exec env ch i o c.shared = some (x, w')) {u : Uuid}
    {ss : List SessionAggregate} (hl : ((did c i).note o x).listed = some (u, ss)) :
    (did c i).listed = some (u, ss) ∨ c.shared.db.acquireSessionsOf u = .ok ss := by
  by_cases ho : ∃ v, o = .acquireSessionsOf v
  · obtain ⟨v, rfl⟩ := ho
    have hview : (c.shared.view i).sessions = c.shared.db.sessions ∧
        (c.shared.view i).refreshTokens = c.shared.db.refreshTokens :=
      view_sessions_eq ((hs.running i a ht).no_session hal.1 hal.2.1)
    simp only [exec, Option.some.injEq, Prod.mk.injEq] at he
    obtain ⟨rfl, -⟩ := he
    rw [acquireSessionsOf_congr hview.1 hview.2] at hl
    cases hx : c.shared.db.acquireSessionsOf v with
    | error e =>
        rw [hx] at hl
        exact Or.inl hl
    | ok ss' =>
        rw [hx] at hl
        obtain ⟨rfl, rfl⟩ := Prod.mk.inj (Option.some.inj hl)
        exact Or.inr hx
  · rw [note_listed _ (fun v hv => ho ⟨v, hv⟩)] at hl
    exact Or.inl hl

/-- **What a request has read is still so until it commits**, when requests run one after
the other. -/
theorem Runs.current (h : Runs env reqs Machine.sequentially w c) (hw : Startable env w)
    {i : ι} {a : Act Response} (ht : c.threads i = .running a)
    (hc : (did c i).committed = false) : Current c i := by
  revert i a
  refine h.induction
    (fun c => ∀ {i a}, c.threads i = .running a → (did c i).committed = false → Current c i)
    ?_ ?_ ?_ ?_
  · exact fun _ _ => ⟨fun s hs => absurd hs List.not_mem_nil, fun u ss hl => absurd hl (by simp)⟩
  · intro c i ch o k x w' hr ih hC ht hal he j a hj hcj
    have hdb : (o = .commit ∧ w' = c.shared.commit env i ∧
        ((did c i).note o x).committed = true) ∨ w'.db = c.shared.db := by
      by_cases ho : o = .commit
      · subst ho
        rcases exec_commit he with ⟨rfl, rfl⟩ | ⟨rfl, rfl⟩
        · exact Or.inr rfl
        · exact Or.inl ⟨rfl, rfl, rfl⟩
      · exact Or.inr (exec_db ho he).1
    by_cases hji : j = i
    · subst hji
      rw [did_afterCall_self] at hcj
      rcases hdb with ⟨-, -, hcomm⟩ | hdb
      · exact absurd (hcj.symm.trans hcomm) (by simp)
      · have hcur := ih ht (of_note_uncommitted hcj)
        have hs := hr.sound hw.idle
        refine ⟨fun s hsess => ?_, fun u ss hl => ?_⟩
        · rw [did_afterCall_self] at hsess
          rw [afterCall_shared, hdb]
          rcases mem_note_sessions he hsess with hold | hread
          · exact hcur.sessions s hold
          · exact hread.loads hs ht hal (hr.minted hw).keyed
        · rw [did_afterCall_self] at hl
          rw [afterCall_shared, hdb]
          exact (note_listed_current hs ht hal he hl).elim (hcur.listed u ss) id
    · -- another request is not in flight, so it has read nothing
      rw [threads_afterCall_ne hji] at hj
      have hnil := did_of_not_inFlight (hC j hji) hj
      refine ⟨fun s hs => ?_, fun u ss hl => ?_⟩
      · rw [did_afterCall_ne hji, hnil] at hs
        exact absurd hs List.not_mem_nil
      · rw [did_afterCall_ne hji, hnil] at hl
        exact absurd hl (by simp)
  · intro c i ch x _ ih _ _ _ j a hj hcj
    obtain ⟨h₁, h₂⟩ := ih (threads_left hj) hcj
    exact ⟨h₁, h₂⟩
  · intro c d _ ih _ j a hj hcj
    obtain ⟨h₁, h₂⟩ := ih hj hcj
    exact ⟨h₁, h₂⟩

/-! ### A replayed refresh token -/

omit [Fintype ι] [DecidableEq ι] in
/-- A token row that was revoked stays revoked through a commit whose request has read the
tables as they are. -/
theorem Current.keeps_revoked {r : Request} {i : ι} (hcur : Current c i) (ho : Open env r c i)
    {x : Uuid} {row : RefreshTokenRow} (hrow : c.shared.db.token x = some row)
    (hrev : row.isRevoked = true) :
    ∃ row', (c.shared.view i).token x = some row' ∧ row'.tokenHash = row.tokenHash ∧
      row'.isRevoked = true := by
  obtain ⟨row', hrow', -, hh, hcases⟩ := ho.token_view hrow
  refine ⟨row', hrow', hh, ?_⟩
  rcases hcases with ⟨rfl, -⟩ | ⟨s, hs, t', ht', rfl, hrev'⟩
  · exact hrev
  · rw [hrev']
    rcases (ho.coherent.updated s hs).cases with ⟨-, hall⟩ | ⟨-, t, s₀, -, hx⟩
    · exact hall t' ht'
    · obtain ⟨presented, new, htr⟩ := hx.spec
      rcases htr.touches ho ht' hrow with ⟨-, htrue⟩ | ⟨-, ht₀⟩
      · exact htrue
      · obtain ⟨row₂, hrow₂, -, -, hr₂, -⟩ :=
          (hcur.sessions s₀ htr.read).token ho.minted.keyed ht₀
        obtain rfl := Option.some.inj (hrow.symm.trans hrow₂)
        exact hr₂.symm.trans hrev

/-- **An exchanged token stays revoked** in a sequential run. -/
theorem Runs.spent (h : Runs env reqs Machine.sequentially w c) (hw : Startable env w)
    {i : ι} {t : String} (hi : reqs i = .refreshToken t) (hc : (did c i).committed = true) :
    ∃ x row, c.shared.db.token x = some row ∧ row.tokenHash = env.sha256 t ∧
      row.isRevoked = true := by
  revert hc
  refine h.induction (fun c => (did c i).committed = true → ∃ x row,
    c.shared.db.token x = some row ∧ row.tokenHash = env.sha256 t ∧ row.isRevoked = true)
    ?_ ?_ ?_ ?_
  · exact fun hc => absurd hc (by simp)
  · intro c j ch o k x w' hr ih hC ht hal he hc
    by_cases ho : o = .commit
    · subst ho
      rcases exec_commit he with ⟨rfl, rfl⟩ | ⟨rfl, rfl⟩
      · by_cases hij : i = j
        · subst hij
          rw [did_afterCall_self] at hc
          exact absurd (hal.1.symm.trans hc) (by simp)
        · rw [did_afterCall_ne hij] at hc
          exact ih hc
      · have hopen := hr.isOpen hw ht hal.1
        have hcur := hr.current hw ht hal.1
        by_cases hij : i = j
        · subst hij
          have hdone := hal.2.1
          rw [hi] at hdone
          obtain ⟨s₀, s, hx, hup⟩ := hdone
          obtain ⟨presented, new, htr⟩ := hx.spec
          obtain ⟨row, hrow, hh, hrev⟩ := htr.spends hopen hup
          exact ⟨presented.id, row, (commit_token env c.shared i _).trans hrow, hh, hrev⟩
        · rw [did_afterCall_ne hij] at hc
          obtain ⟨y, row, hrow, hh, hrev⟩ := ih hc
          obtain ⟨row', hrow', hh', hrev'⟩ := hcur.keeps_revoked hopen hrow hrev
          exact ⟨y, row', (commit_token env c.shared j y).trans hrow', hh'.trans hh, hrev'⟩
    · rw [afterCall_shared, (exec_db ho he).1]
      refine ih ?_
      by_cases hij : i = j
      · subst hij
        rw [did_afterCall_self] at hc
        exact (of_note_committed hc).resolve_right ho
      · rwa [did_afterCall_ne hij] at hc
  · exact fun c j ch x _ ih _ _ _ hc => ih hc
  · exact fun c d _ ih _ hc => ih hc

/-- The transaction of a request that is not in flight is empty. -/
theorem Runs.pending_idle {C : Steps ι} (h : Runs env reqs C w c) (hw : Startable env w) {j : ι}
    (hj : ¬ Machine.InFlight c j) : c.shared.pending j = [] := by
  have hs := h.sound hw.idle
  cases ht : c.threads j with
  | done x => exact hs.finished j x ht
  | running a =>
      have hp := hs.running j a ht
      rw [did_of_not_inFlight hj ht] at hp
      refine List.eq_nil_iff_forall_not_mem.mpr fun wr hwr => ?_
      have hsrc := hp.source wr hwr
      cases wr with
      | userInsert row =>
          obtain ⟨u, iv, hu, -⟩ := hsrc
          exact absurd hu (by simp)
      | userUpdate row =>
          obtain ⟨u, iv, hu, -⟩ := hsrc
          exact absurd hu (by simp)
      | sessionInsert row =>
          obtain ⟨s, hsome, -⟩ := hsrc
          exact absurd hsome (by simp)
      | tokenInsert row =>
          obtain ⟨s, t, hsome, -⟩ := hsrc
          exact absurd hsome (by simp)
      | sessionUpdate sid b e =>
          obtain ⟨s, hmem, -⟩ := hsrc
          exact absurd hmem List.not_mem_nil
      | tokenUpsert row =>
          obtain ⟨s, hmem, -⟩ := hsrc
          exact absurd hmem List.not_mem_nil
      | outboxInsert row => exact hsrc
      | auditInsert row => exact hsrc

/-- A hash all of whose rows are revoked finds no session. -/
theorem acquireSessionByToken_none {db : Db} {hash : Bytes}
    (h : ∀ row ∈ db.refreshTokens, row.tokenHash = hash → row.isRevoked = true) :
    db.acquireSessionByToken hash = .ok none := by
  have hfind : (db.refreshTokens.find? fun t => t.tokenHash = hash && !t.isRevoked) = none := by
    refine List.find?_eq_none.mpr fun row hrow hp => ?_
    rw [Bool.and_eq_true, decide_eq_true_eq, Bool.not_eq_true'] at hp
    exact absurd (hp.2.symm.trans (h row hrow hp.1)) (by simp)
  rw [Db.acquireSessionByToken, hfind]

/-- **What a replay is meant to do**: presenting token `t` raises `RefreshTokenReuseError`,
and the request leaves session `sid` and every one of its tokens revoked. -/
def ReplayKills (env : Env) (ch : Choice) (j : ι) (t : String) (sid : Uuid) (w : World ι) :
    Prop :=
  ∃ w' hist, (machine env ι).eval ch j (program env (.refreshToken t)) w [] =
      some (.error .refreshTokenReuse, w', hist) ∧
    (∃ row, (w'.rollback j).db.session sid = some row ∧ row.isRevoked = true) ∧
    ∀ r ∈ (w'.rollback j).db.refreshTokens, r.sessionId = sid → r.isRevoked = true

/-- **A replay never kills the session.** After any sequential run in which a request has
exchanged token `t`, presenting `t` again raises `InvalidCredentialsError` and leaves the
world as it was, whatever the session. -/
theorem replay_never_kills (h : Runs env reqs Machine.sequentially w c) (hw : Startable env w)
    (hidle : ∀ j, ¬ Machine.InFlight c j) {i : ι} {t : String} {out : RefreshTokenOutput}
    (hi : reqs i = .refreshToken t) (hdone : c.threads i = .done (.ok (.refreshed out)))
    (ch : Choice) (j : ι) :
    (∃ hist, (machine env ι).eval ch j (program env (.refreshToken t)) c.shared [] =
        some (.error (.invalidCredentials none), c.shared, hist)) ∧
      ∀ sid, ¬ ReplayKills env ch j t sid c.shared := by
  have hends := (h.ends hdone).1
  rw [hi] at hends
  obtain ⟨x, row, hrow, hhash, hrev⟩ := h.spent hw hi hends.1
  have hspent : ∀ row' ∈ c.shared.db.refreshTokens, row'.tokenHash = env.sha256 t →
      row'.isRevoked = true := by
    intro row' hrow' hhash'
    obtain rfl := eq_of_hash (h.hashes hw).committed hrow' (Keyed.mem_of_lookup hrow)
      (hhash'.trans hhash.symm)
    exact hrev
  have hview : c.shared.view j = c.shared.db := by
    rw [view_eq, h.pending_idle hw (hidle j), RowLocks.view_nil]
  have heval : ∃ hist, (machine env ι).eval ch j (program env (.refreshToken t)) c.shared [] =
      some (.error (.invalidCredentials none), c.shared, hist) := by
    have hcall : (machine env ι).exec ch j (.acquireSessionByToken (env.sha256 t)) c.shared =
        some (.ok none, c.shared) := by
      change some ((c.shared.view j).acquireSessionByToken (env.sha256 t), c.shared) = _
      rw [hview, acquireSessionByToken_none hspent]
    exact ⟨_, Machine.eval_call hcall⟩
  refine ⟨heval, fun sid hkills => ?_⟩
  obtain ⟨hist, heq⟩ := heval
  obtain ⟨w', hist', heq', -⟩ := hkills
  have := Option.some.inj (heq.symm.trans heq')
  simp at this

/-! ### A replayed token -/

/-- A session that is neither revoked nor expired. -/
def SessionOpen (sid : Uuid) (c : Cfg ι) : Prop :=
  ∃ row ∈ c.shared.db.sessions, row.sessionId = sid ∧ row.isRevoked = false ∧
    c.shared.clock < row.expiresAt

instance (sid : Uuid) (c : Cfg ι) : Decidable (SessionOpen sid c) :=
  inferInstanceAs (Decidable (∃ row ∈ c.shared.db.sessions, _))

/-- What a replay of the token answers. -/
def replayAnswer (c : Cfg (Fin 2)) : Option (Except AppError Response) :=
  ((machine Reference.env (Fin 2)).eval {} 1 (program Reference.env
    (.refreshToken Reference.presented)) c.shared []).map Prod.fst

/-- After an exchange, the replay of the old token is refused and has no effect. -/
theorem replay_refused : ∃ c,
    (machine Reference.env (Fin 2)).run sameTokenStart (Reference.moves 0 14) = some c ∧
      ∃ hist, (machine Reference.env (Fin 2)).eval {} 1 (program Reference.env
        (.refreshToken Reference.presented)) c.shared [] =
          some (.error (.invalidCredentials none), c.shared, hist) := by
  obtain ⟨c, hc, hidle, out, hout⟩ := Machine.exists_run
    (P := fun c : Cfg (Fin 2) => (∀ j, ¬ Machine.InFlight c j) ∧ Refreshed c 0)
    (by decide +kernel : ((machine Reference.env (Fin 2)).run sameTokenStart
      (Reference.moves 0 14)).any _ = true)
  have hsteps : (machine Reference.env (Fin 2)).RunsWith Machine.sequentially sameTokenStart
      (Reference.moves 0 14) := by
    decide +kernel
  exact ⟨c, hc, (replay_never_kills (Machine.reach_of_run hsteps hc)
    (reference_startable (Fin 2) rfl true .empty) hidle rfl hout {} 1).1⟩

/-- The session stays open after the replay of an exchanged token, and the replay does not
raise `RefreshTokenReuseError`. -/
theorem replay_kills_nothing : ∃ c,
    (machine Reference.env (Fin 2)).run sameTokenStart (Reference.moves 0 14) = some c ∧
      (machine Reference.env (Fin 2)).RunsWith Machine.sequentially sameTokenStart
        (Reference.moves 0 14) ∧
      Refreshed c 0 ∧ SessionOpen Reference.session.sessionId c ∧
      ¬ ReplayKills Reference.env {} 1 Reference.presented Reference.session.sessionId
        c.shared := by
  obtain ⟨c, hc, hdone, hopen, hanswer⟩ := Machine.exists_run
    (P := fun c : Cfg (Fin 2) => Refreshed c 0 ∧ SessionOpen Reference.session.sessionId c ∧
      replayAnswer c = some (.error (.invalidCredentials none)))
    (by decide +kernel : ((machine Reference.env (Fin 2)).run sameTokenStart
      (Reference.moves 0 14)).any _ = true)
  refine ⟨c, hc, by decide +kernel, hdone, hopen, ?_⟩
  rintro ⟨w', hist, heval, -⟩
  rw [replayAnswer, heval] at hanswer
  exact absurd hanswer (by simp)

end BackendTemplate
