import BackendTemplate.UserRows

/-!
# Account Isolation

Session ids come from the client and refresh tokens are upserted by their own id, so a use
case could reach rows that are not its caller's. It does not: a request on behalf of account
`x` writes back the users row of `x` and sessions it has read as sessions of `x`, and a
session that was read has its owner and its tokens in the tables (`Known`).

`Isolates x db db'` says what such a request may do to the tables. It is proved of one commit
(`Open.isolates`) and then of every run.

## Main results

* `Open.isolates` — the commit of a request on behalf of `x` isolates `x`.
* `account_isolation` — so does every run of requests on behalf of `x`.
-/

namespace BackendTemplate

open Atomic

variable {env : Env} {ι : Type}

/-- **The tables of the other accounts are as they were**: every users row but that of `x`,
every session that `x` does not own, and every refresh token of such a session. The outbox and
the audit log have grown at most. -/
structure Isolates (x : Uuid) (db db' : Db) : Prop where
  users : ∀ row : UserRow, row.id ≠ x → (row ∈ db'.users ↔ row ∈ db.users)
  sessions : ∀ row : SessionRow, row.userId ≠ x → (row ∈ db'.sessions ↔ row ∈ db.sessions)
  tokens : ∀ s ∈ db.sessions, s.userId ≠ x → ∀ t : RefreshTokenRow, t.sessionId = s.sessionId →
    (t ∈ db'.refreshTokens ↔ t ∈ db.refreshTokens)
  outbox : db.outbox <+: db'.outbox
  audit : db.audit <+: db'.audit

theorem Isolates.refl (x : Uuid) (db : Db) : Isolates x db db :=
  ⟨fun _ _ => .rfl, fun _ _ => .rfl, fun _ _ _ _ _ => .rfl, List.prefix_rfl, List.prefix_rfl⟩

theorem Isolates.trans {x : Uuid} {db db' db'' : Db} (h : Isolates x db db')
    (h' : Isolates x db' db'') : Isolates x db db'' where
  users row hrow := (h'.users row hrow).trans (h.users row hrow)
  sessions row hrow := (h'.sessions row hrow).trans (h.sessions row hrow)
  tokens s hs hsx t ht :=
    (h'.tokens s ((h.sessions s hsx).mpr hs) hsx t ht).trans (h.tokens s hs hsx t ht)
  outbox := h.outbox.trans h'.outbox
  audit := h.audit.trans h'.audit

/-- Statements only append to the outbox and to the audit log. -/
theorem view_logs (ws : List Write) (db : Db) :
    db.outbox <+: (RowLocks.view Db.apply db ws).outbox ∧
      db.audit <+: (RowLocks.view Db.apply db ws).audit := by
  induction ws generalizing db with
  | nil => exact ⟨List.prefix_rfl, List.prefix_rfl⟩
  | cons w ws ih =>
      have hw : db.outbox <+: (db.apply w).outbox ∧ db.audit <+: (db.apply w).audit := by
        cases w with
        | outboxInsert row => exact ⟨List.prefix_append _ _, List.prefix_rfl⟩
        | auditInsert row => exact ⟨List.prefix_rfl, List.prefix_append _ _⟩
        | _ => exact ⟨List.prefix_rfl, List.prefix_rfl⟩
      exact ⟨hw.1.trans (ih _).1, hw.2.trans (ih _).2⟩

/-! ### A request on behalf of an account -/

section Requests

variable {r : Request} {c : Cfg ι} {i : ι} {x : Uuid}

/-- A request on behalf of an account inserts neither a user nor a session. -/
theorem Open.inserts_nothing (h : Open env r c i) (hx : r.actor = some x) :
    (did c i).userInsert = none ∧ (did c i).added = none := by
  constructor
  · cases hu : (did c i).userInsert with
    | none => rfl
    | some u =>
        obtain ⟨hreg, -⟩ := h.coherent.userInsert u hu
        cases r with
        | createUser => cases hx
        | _ => cases hreg
  · cases hs : (did c i).added with
    | none => rfl
    | some s =>
        have hgrant := (h.coherent.added s hs).2.2.2
        cases r with
        | login => cases hx
        | completeTwoFactor => cases hx
        | _ => exact hgrant.elim

/-- The user it writes back is its own. -/
theorem Open.writes_own (h : Open env r c i) (hx : r.actor = some x) {u : User}
    (hu : (did c i).userWrite = some u) : u.id.value = x := by
  obtain ⟨u₀, -, hder⟩ := h.coherent.userWrite u hu
  rw [hder.computes.keeps.1]
  exact hder.actor x hx

/-- A session it writes back is one it has read, and is its own in the tables, with its
tokens. -/
theorem Open.updates_own (h : Open env r c i) (hx : r.actor = some x) {s : SessionAggregate}
    (hs : s ∈ (did c i).updated) :
    (∃ row, c.shared.db.session s.sessionId = some row ∧ row.userId = x) ∧
      ∀ t ∈ s.refreshTokens, ∃ row, c.shared.db.token t.id = some row ∧
        row.sessionId = s.sessionId := by
  rcases h.coherent.updated s hs with ⟨s₀, hs₀, rfl⟩ | ⟨t, s₀, rfl, -⟩
  · have hknown := h.minted.known i s₀ hs₀
    obtain ⟨row, hrow, howner⟩ := hknown.session
    refine ⟨⟨row, hrow, howner.trans (h.coherent.owned _ hs x hx)⟩, fun t ht => ?_⟩
    obtain ⟨t₀, ht₀, rfl⟩ := List.mem_map.mp ht
    obtain ⟨trow, htrow, hsid, -⟩ := hknown.tokens t₀ ht₀
    exact ⟨trow, htrow, hsid⟩
  · cases hx

/-- The users rows of the others. -/
theorem Open.isolates_user (h : Open env r c i) (hx : r.actor = some x) {y : Uuid} (hy : y ≠ x) :
    (c.shared.view i).user y = c.shared.db.user y := by
  cases hrow : c.shared.db.user y with
  | some row =>
      rcases h.user_view hrow with ⟨hview, -⟩ | ⟨u, iv, hu, hid, -⟩
      · exact hview
      · exact absurd (hid.symm.trans (h.writes_own hx hu)) hy
  | none =>
      cases hview : (c.shared.view i).user y with
      | none => rfl
      | some row =>
          obtain ⟨u, iv, hu, -⟩ := h.new_user hrow hview
          exact absurd ((h.inserts_nothing hx).1.symm.trans hu) (by simp)

/-- The sessions of the others, and those of `x` keep their owner. -/
theorem Open.isolates_session (h : Open env r c i) (hx : r.actor = some x) (sid : Uuid) :
    (c.shared.view i).session sid = c.shared.db.session sid ∨
      (∃ row, c.shared.db.session sid = some row ∧ row.userId = x) ∧
        ∃ row, (c.shared.view i).session sid = some row ∧ row.userId = x := by
  cases hrow : c.shared.db.session sid with
  | some row =>
      obtain ⟨row', hview, howner, hcases⟩ := h.session_view hrow
      rcases hcases with ⟨rfl, -⟩ | ⟨s, hs, rfl, -⟩
      · exact Or.inl hview
      · obtain ⟨⟨row₀, hrow₀, hmine⟩, -⟩ := h.updates_own hx hs
        obtain rfl := Option.some.inj (hrow.symm.trans hrow₀)
        exact Or.inr ⟨⟨row, rfl, hmine⟩, row', hview, howner.trans hmine⟩
  | none =>
      cases hview : (c.shared.view i).session sid with
      | none => exact Or.inl rfl
      | some row =>
          obtain ⟨s, hs, -⟩ := h.new_session hrow hview
          exact absurd ((h.inserts_nothing hx).2.symm.trans hs) (by simp)

/-- The refresh tokens of the others, and those of a session of `x` stay in it. -/
theorem Open.isolates_token (h : Open env r c i) (hx : r.actor = some x) (y : Uuid) :
    (c.shared.view i).token y = c.shared.db.token y ∨
      ∃ s ∈ (did c i).updated, (∃ t, c.shared.db.token y = some t ∧ t.sessionId = s.sessionId) ∧
        ∃ t, (c.shared.view i).token y = some t ∧ t.sessionId = s.sessionId := by
  cases hrow : c.shared.db.token y with
  | some row =>
      obtain ⟨row', hview, hsid, -, hcases⟩ := h.token_view hrow
      rcases hcases with ⟨rfl, -⟩ | ⟨s, hs, t, ht, rfl, -⟩
      · exact Or.inl hview
      · obtain ⟨row₀, hrow₀, hmine⟩ := (h.updates_own hx hs).2 t ht
        obtain rfl := Option.some.inj (hrow.symm.trans hrow₀)
        exact Or.inr ⟨s, hs, ⟨row, rfl, hmine⟩, row', hview, hsid.trans hmine⟩
  | none =>
      cases hview : (c.shared.view i).token y with
      | none => exact Or.inl rfl
      | some row =>
          obtain ⟨s, t, hs, ht, rfl, -⟩ := h.new_token hrow hview
          rcases hs with hs | hs
          · exact absurd ((h.inserts_nothing hx).2.symm.trans hs) (by simp)
          · obtain ⟨row₀, hrow₀, -⟩ := (h.updates_own hx hs).2 t ht
            exact absurd (hrow.symm.trans hrow₀) (by simp)

variable [DecidableEq ι]

/-- **The commit of a request on behalf of an account isolates the account.** -/
theorem Open.isolates (h : Open env r c i) (hx : r.actor = some x) :
    Isolates x c.shared.db (c.shared.commit env i).db := by
  have hk := h.minted.keyed
  have hk' : (c.shared.commit env i).db.Keyed := commit_keyed env c.shared i
    (keyed_view hk (h.minted.freshInserts h.coherent h.pending h.uncommitted))
  refine ⟨fun row hrow => ?_, fun row hrow => ?_, fun s hs hsx t ht => ?_, ?_, ?_⟩
  · rw [hk'.mem_users, hk.mem_users, commit_user, h.isolates_user hx hrow]
  · rw [hk'.mem_sessions, hk.mem_sessions, commit_session]
    rcases h.isolates_session hx row.sessionId with hsame | ⟨⟨r₀, hr₀, hx₀⟩, r₁, hr₁, hx₁⟩
    · rw [hsame]
    · rw [hr₀, hr₁, Option.some.injEq, Option.some.injEq]
      constructor
      · rintro rfl
        exact absurd hx₁ hrow
      · rintro rfl
        exact absurd hx₀ hrow
  · rw [hk'.mem_tokens, hk.mem_tokens, commit_token]
    rcases h.isolates_token hx t.id with hsame | ⟨s', hs', ⟨t₀, ht₀, hsid₀⟩, t₁, ht₁, hsid₁⟩
    · rw [hsame]
    · -- a session that was written back is one of `x`
      have hother : s'.sessionId ≠ s.sessionId := by
        intro hsid
        obtain ⟨⟨row, hrow, hmine⟩, -⟩ := h.updates_own hx hs'
        rw [hsid, hk.mem_sessions.mp hs] at hrow
        obtain rfl := Option.some.inj hrow
        exact hsx hmine
      rw [ht₀, ht₁, Option.some.injEq, Option.some.injEq]
      constructor
      · rintro rfl
        exact absurd (hsid₁.symm.trans ht) hother
      · rintro rfl
        exact absurd (hsid₀.symm.trans ht) hother
  · exact (view_logs _ _).1.trans (view_logs _ _).1
  · exact (view_logs _ _).2.trans (view_logs _ _).2

end Requests

/-- **Account isolation.** Any number of requests on behalf of account `x`, in any
interleaving, leave every users row but that of `x`, every session `x` does not own and every
refresh token of such a session as they were, at every point of the run and whatever the
requests answer; the outbox and the audit log only grow. -/
theorem account_isolation [Fintype ι] [DecidableEq ι] {reqs : ι → Request} {C : Steps ι}
    {w : World ι} {c : Cfg ι} (h : Runs env reqs C w c) (hw : Startable env w) {x : Uuid}
    (hx : ∀ i, (reqs i).actor = some x) : Isolates x w.db c.shared.db := by
  refine h.induction (fun c => Isolates x w.db c.shared.db) (.refl x w.db) ?_ ?_ ?_
  · intro c i ch o k y w' hr ih _ ht hal he
    by_cases ho : o = .commit
    · subst ho
      rcases exec_commit he with ⟨rfl, rfl⟩ | ⟨rfl, rfl⟩
      · exact ih
      · exact ih.trans ((hr.isOpen hw ht hal.1).isolates (hx i))
    · rw [afterCall_shared, (exec_db ho he).1]
      exact ih
  · exact fun c i ch y _ ih _ _ _ => ih
  · exact fun c d _ ih _ => ih

/-- Another account asks to revoke the session of the account. -/
def foreignRevocation : Cfg Unit :=
  start Reference.env (fun _ => .revokeSession (Reference.aliceId + 1)
      (Reference.env.uuidStr Reference.session.sessionId))
    (Reference.world Unit (Reference.tables (Reference.alice false) true))

/-- The session of the account, its token and its users row stay as they were. -/
theorem foreign_revocation_isolated : ∃ c,
    (machine Reference.env Unit).run foreignRevocation (Reference.moves () 2) = some c ∧
      c.result () = some (.ok .nothing) ∧ Reference.alice false ∈ c.shared.db.users ∧
      Reference.session ∈ c.shared.db.sessions ∧ Reference.token ∈ c.shared.db.refreshTokens := by
  obtain ⟨c, hc, hdone⟩ : ∃ c, (machine Reference.env Unit).run foreignRevocation
      (Reference.moves () 2) = some c ∧ c.result () = some (.ok .nothing) := by
    decide +kernel
  have hw : Startable Reference.env
      (Reference.world Unit (Reference.tables (Reference.alice false) true)) :=
    reference_startable Unit rfl true .empty
  have hi := account_isolation (x := Reference.aliceId + 1)
    (Machine.reach_of_run (Machine.runsWith_any _ _ _) hc) hw (fun _ => rfl)
  refine ⟨c, hc, hdone, ?_, ?_, ?_⟩
  · exact (hi.users _ (by decide +kernel)).mpr List.mem_cons_self
  · exact (hi.sessions _ (by decide +kernel)).mpr List.mem_cons_self
  · exact (hi.tokens Reference.session List.mem_cons_self (by decide +kernel) _ rfl).mpr
      List.mem_cons_self

end BackendTemplate
