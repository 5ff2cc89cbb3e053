import BackendTemplate.Maintenance
import BackendTemplate.Revocation
import BackendTemplate.Sequential

/-!
# Sessions and Refresh Tokens Agree

A session is a row of `sessions` and the rows of `refresh_tokens` that name it. Run one
after the other, the requests keep the two tables in step: an unrevoked session has exactly
one unrevoked token, a revoked one has none, and no token is without its session. The
purge of the maintenance worker deletes sessions with their tokens, so it keeps them in
step as well.

`Tidy` is the invariant, one row at a time. A transaction does one of three things to the
two tables (it inserts a session, it revokes some, or it exchanges a token) and there is
one lemma for each: `Open.tidy_insert`, `Open.tidy_revoke`, `Open.tidy_exchange`.

## Main results

* `Open.tidy` — the commit of a request that has read the tables as they are keeps them tidy.
* `tokens_consistent` — the tables agree in every state that a sequential run reaches.
-/

namespace BackendTemplate

open Atomic

variable {env : Env} {db : Db}

/-! ### Rows that statements bring -/

/-- Whether a sessions row is revoked, after statements: as it was, or as one of them set it. -/
theorem view_session_state (ws : List Write) {x : Uuid} {row : SessionRow}
    (h : (RowLocks.view Db.apply db ws).session x = some row) :
    (∃ row₀, db.session x = some row₀ ∧ row.isRevoked = row₀.isRevoked) ∨
      (∃ r, .sessionInsert r ∈ ws ∧ r.sessionId = x ∧ row.isRevoked = r.isRevoked) ∨
      ∃ b e, .sessionUpdate x b e ∈ ws := by
  induction ws generalizing db with
  | nil => exact Or.inl ⟨row, h, rfl⟩
  | cons w ws ih =>
      rcases ih h with ⟨row₁, h₁, hrev⟩ | ⟨r, hr, hrest⟩ | ⟨b, e, hw⟩
      · rw [apply_session] at h₁
        cases w with
        | sessionInsert r =>
            cases hold : db.session x with
            | some row₀ =>
                rw [hold] at h₁
                obtain rfl := Option.some.inj h₁
                exact Or.inl ⟨row₀, rfl, hrev⟩
            | none =>
                simp only [Write.onSession, hold, Option.none_or] at h₁
                split at h₁
                · rename_i hid
                  obtain rfl := Option.some.inj h₁
                  exact Or.inr (Or.inl ⟨r, List.mem_cons_self, hid, hrev⟩)
                · cases h₁
        | sessionUpdate sid b e =>
            simp only [Write.onSession] at h₁
            split at h₁
            · rename_i hid
              subst hid
              exact Or.inr (Or.inr ⟨b, e, List.mem_cons_self⟩)
            · exact Or.inl ⟨row₁, h₁, hrev⟩
        | _ => exact Or.inl ⟨row₁, h₁, hrev⟩
      · exact Or.inr (Or.inl ⟨r, List.mem_cons_of_mem _ hr, hrest⟩)
      · exact Or.inr (Or.inr ⟨b, e, List.mem_cons_of_mem _ hw⟩)

/-- Whether a refresh_tokens row is revoked, after statements. -/
theorem view_token_state (ws : List Write) {x : Uuid} {row : RefreshTokenRow}
    (h : (RowLocks.view Db.apply db ws).token x = some row) :
    (∃ row₀, db.token x = some row₀ ∧ row.isRevoked = row₀.isRevoked) ∨
      ∃ r, (.tokenInsert r ∈ ws ∨ .tokenUpsert r ∈ ws) ∧ r.id = x ∧
        row.isRevoked = r.isRevoked := by
  induction ws generalizing db with
  | nil => exact Or.inl ⟨row, h, rfl⟩
  | cons w ws ih =>
      rcases ih h with ⟨row₁, h₁, hrev⟩ | ⟨r, hr, hrest⟩
      · rw [apply_token] at h₁
        cases w with
        | tokenInsert r =>
            cases hold : db.token x with
            | some row₀ =>
                rw [hold] at h₁
                obtain rfl := Option.some.inj h₁
                exact Or.inl ⟨row₀, rfl, hrev⟩
            | none =>
                simp only [Write.onToken, hold, Option.none_or] at h₁
                split at h₁
                · rename_i hid
                  obtain rfl := Option.some.inj h₁
                  exact Or.inr ⟨r, Or.inl List.mem_cons_self, hid, hrev⟩
                · cases h₁
        | tokenUpsert r =>
            simp only [Write.onToken] at h₁
            split at h₁
            · rename_i hid
              refine Or.inr ⟨r, Or.inr List.mem_cons_self, hid.symm, ?_⟩
              cases hold : db.token x with
              | some row₀ =>
                  rw [hold] at h₁
                  obtain rfl := Option.some.inj h₁
                  exact hrev
              | none =>
                  rw [hold] at h₁
                  obtain rfl := Option.some.inj h₁
                  exact hrev
            · exact Or.inl ⟨row₁, h₁, hrev⟩
        | _ => exact Or.inl ⟨row₁, h₁, hrev⟩
      · exact Or.inr ⟨r, hr.imp (List.mem_cons_of_mem _) (List.mem_cons_of_mem _), hrest⟩

/-- An inserted session is there afterwards. -/
theorem view_session_inserted {ws : List Write} {r : SessionRow} (h : .sessionInsert r ∈ ws) :
    ∃ row, (RowLocks.view Db.apply db ws).session r.sessionId = some row := by
  induction ws generalizing db with
  | nil => exact absurd h List.not_mem_nil
  | cons w ws ih =>
      rcases List.mem_cons.mp h with rfl | h
      · have : ∃ row, (db.apply (.sessionInsert r)).session r.sessionId = some row := by
          rw [apply_session]
          cases hold : db.session r.sessionId with
          | some row₀ => exact ⟨row₀, rfl⟩
          | none => exact ⟨r, by simp [Write.onSession]⟩
        obtain ⟨row, hrow⟩ := this
        obtain ⟨row', hrow', -⟩ := view_session_some ws hrow
        exact ⟨row', hrow'⟩
      · exact ih h

/-- A token that was inserted or upserted is there afterwards. -/
theorem view_token_written {ws : List Write} {r : RefreshTokenRow}
    (h : .tokenInsert r ∈ ws ∨ .tokenUpsert r ∈ ws) :
    ∃ row, (RowLocks.view Db.apply db ws).token r.id = some row := by
  induction ws generalizing db with
  | nil => exact absurd h (by simp)
  | cons w ws ih =>
      have hhead : w = .tokenInsert r ∨ w = .tokenUpsert r ∨
          .tokenInsert r ∈ ws ∨ .tokenUpsert r ∈ ws := by
        simp only [List.mem_cons] at h
        tauto
      have hstep : (w = .tokenInsert r ∨ w = .tokenUpsert r) →
          ∃ row, (db.apply w).token r.id = some row := by
        rintro (rfl | rfl)
        · rw [apply_token]
          cases hold : db.token r.id with
          | some row₀ => exact ⟨row₀, rfl⟩
          | none => exact ⟨r, by simp [Write.onToken]⟩
        · rw [apply_token]
          simp [Write.onToken]
      rcases or_assoc.mpr hhead with hw | hws
      · obtain ⟨row, hrow⟩ := hstep hw
        obtain ⟨row', hrow', -⟩ := view_token_some ws hrow
        exact ⟨row', hrow'⟩
      · exact ih hws

/-! ### The invariant -/

/-- **The two tables agree**, one row at a time. -/
structure Tidy (db : Db) : Prop where
  live : ∀ {sid row}, db.session sid = some row → row.isRevoked = false →
    ∃ x t, db.token x = some t ∧ t.sessionId = sid ∧ t.isRevoked = false
  single : ∀ sid, ¬ TwoLive db sid
  unrevoked : ∀ {x t}, db.token x = some t → t.isRevoked = false →
    ∃ row, db.session t.sessionId = some row ∧ row.isRevoked = false
  housed : ∀ {x t}, db.token x = some t → ∃ row, db.session t.sessionId = some row

/-- The unrevoked refresh tokens of a session. -/
def Db.liveTokens (db : Db) (sid : Uuid) : List RefreshTokenRow :=
  db.refreshTokens.filter fun t => t.sessionId = sid && !t.isRevoked

/-- **Token/session consistency**, as the tables show it. -/
def Consistent (db : Db) : Prop :=
  (∀ row ∈ db.sessions, row.isRevoked = false → (db.liveTokens row.sessionId).length = 1) ∧
    (∀ row ∈ db.sessions, row.isRevoked = true → db.liveTokens row.sessionId = []) ∧
    ∀ t ∈ db.refreshTokens, ∃ row ∈ db.sessions, row.sessionId = t.sessionId

theorem mem_liveTokens {sid : Uuid} {t : RefreshTokenRow} :
    t ∈ db.liveTokens sid ↔ t ∈ db.refreshTokens ∧ t.sessionId = sid ∧ t.isRevoked = false := by
  simp [Db.liveTokens]

/-- Tables that agree row by row are consistent. -/
theorem Tidy.consistent (h : Tidy db) (hk : db.Keyed) : Consistent db := by
  refine ⟨fun row hrow hlive => ?_, fun row hrow hrev => ?_, fun t ht => ?_⟩
  · obtain ⟨x, t, ht, hs, hl⟩ := h.live (hk.mem_sessions.mp hrow) hlive
    have hmem := mem_liveTokens.mpr ⟨Keyed.mem_of_lookup ht, hs, hl⟩
    have hnodup : (db.liveTokens row.sessionId).Nodup :=
      (List.Nodup.of_map _ hk.tokens).filter _
    have hall : ∀ t' ∈ db.liveTokens row.sessionId, t' = t := by
      intro t' ht'
      obtain ⟨hmem', hs', hl'⟩ := mem_liveTokens.mp ht'
      by_contra hne
      refine h.single row.sessionId ⟨t', hmem', t, Keyed.mem_of_lookup ht, fun hid => hne ?_, hs',
        hs, hl', hl⟩
      exact List.inj_on_of_nodup_map hk.tokens hmem' (Keyed.mem_of_lookup ht) hid
    rw [List.eq_replicate_of_mem hall] at hmem hnodup ⊢
    rw [List.length_replicate]
    have hle := List.nodup_replicate.mp hnodup
    have hpos := List.length_pos_of_mem hmem
    rw [List.length_replicate] at hpos
    omega
  · refine List.eq_nil_iff_forall_not_mem.mpr fun t ht => ?_
    obtain ⟨hmem, hs, hl⟩ := mem_liveTokens.mp ht
    obtain ⟨row', hrow', hlive⟩ := h.unrevoked (hk.mem_tokens.mp hmem) hl
    rw [hs, hk.mem_sessions.mp hrow] at hrow'
    obtain rfl := Option.some.inj hrow'
    exact absurd (hrev.symm.trans hlive) (by simp)
  · obtain ⟨row, hrow⟩ := h.housed (hk.mem_tokens.mp ht)
    exact ⟨row, Keyed.mem_of_lookup hrow, Keyed.key_of_lookup hrow⟩

/-! ### What one transaction does -/

section Requests

variable {ι : Type} {r : Request} {c : Cfg ι} {i : ι}

/-- An id that was drawn names no session before the commit. -/
theorem Open.no_session (h : Open env r c i) {x : Uuid} (hx : x ∈ (did c i).drawn) :
    c.shared.db.session x = none := by
  rw [Db.session, Keyed.lookup_eq_none]
  exact fun hin => h.not_has hx (Or.inr (Or.inl hin))

/-- An id that was drawn names no token before the commit. -/
theorem Open.no_token (h : Open env r c i) {x : Uuid} (hx : x ∈ (did c i).drawn) :
    c.shared.db.token x = none := by
  rw [Db.token, Keyed.lookup_eq_none]
  exact fun hin => h.not_has hx (Or.inr (Or.inr hin))

/-- A request that writes no session back leaves the sessions that are there alone. -/
theorem Open.session_kept (h : Open env r c i) (hup : (did c i).updated = []) {x : Uuid}
    {row : SessionRow} (hx : c.shared.db.session x = some row) :
    (c.shared.view i).session x = some row := by
  obtain ⟨row', hrow', -, hcases⟩ := h.session_view hx
  rw [hup] at hcases
  rcases hcases with ⟨rfl, -⟩ | ⟨s, hs, -⟩
  · exact hrow'
  · exact absurd hs List.not_mem_nil

/-- A request that writes no session back leaves the tokens that are there alone. -/
theorem Open.token_kept (h : Open env r c i) (hup : (did c i).updated = []) {x : Uuid}
    {row : RefreshTokenRow} (hx : c.shared.db.token x = some row) :
    (c.shared.view i).token x = some row := by
  obtain ⟨row', hrow', -, -, hcases⟩ := h.token_view hx
  rw [hup] at hcases
  rcases hcases with ⟨rfl, -⟩ | ⟨s, hs, -⟩
  · exact hrow'
  · exact absurd hs List.not_mem_nil

/-- **The session a request inserts**: its row and the row of its token are there, unrevoked. -/
theorem Open.inserted (h : Open env r c i) {s : SessionAggregate}
    (hs : (did c i).added = some s) {t : RefreshToken} (ht : s.refreshTokens = [t]) :
    (∃ row, (c.shared.view i).session s.sessionId = some row ∧ row.isRevoked = false) ∧
      ∃ row, (c.shared.view i).token t.id = some row ∧ row.sessionId = s.sessionId ∧
        row.isRevoked = false := by
  obtain ⟨hrev, hsid, ⟨t', ht', htd⟩, -⟩ := h.coherent.added s hs
  obtain rfl : t = t' := List.head_eq_of_cons_eq (ht.symm.trans ht')
  have hnone : (did c i).updated = [] :=
    h.coherent.oneSession.resolve_left fun hn => absurd (hn.symm.trans hs) (by simp)
  have hsub := h.pending.added h.uncommitted s hs
  constructor
  · obtain ⟨row, hrow⟩ := @view_session_inserted c.shared.db _ _ (hsub List.mem_cons_self)
    refine ⟨row, hrow, ?_⟩
    rcases view_session_state _ hrow with ⟨row₀, h₀, -⟩ | ⟨r', hr', -, hr⟩ | ⟨b, e, hw⟩
    · exact absurd ((h.no_session hsid).symm.trans h₀) (by simp)
    · obtain ⟨s', hs', rfl⟩ := h.pending.source _ hr'
      obtain rfl := Option.some.inj (hs.symm.trans hs')
      exact hr.trans hrev
    · obtain ⟨s', hs', -⟩ := h.pending.source _ hw
      rw [hnone] at hs'
      exact absurd hs' List.not_mem_nil
  · have hw : .tokenInsert (refreshTokenToRow s.sessionId t) ∈ c.shared.pending i :=
      hsub (List.mem_cons_of_mem _ (List.mem_map_of_mem (by simp [ht])))
    obtain ⟨row, hrow⟩ := @view_token_written c.shared.db _ _ (Or.inl hw)
    refine ⟨row, hrow, ?_, ?_⟩
    · obtain ⟨s', t', hs', ht', -, hsid', -⟩ := h.new_token (h.no_token htd) hrow
      rw [hnone] at hs'
      obtain rfl := Option.some.inj (hs.symm.trans (hs'.resolve_right List.not_mem_nil))
      exact hsid'
    · rcases view_token_state _ hrow with ⟨row₀, h₀, -⟩ | ⟨r', hr' | hr', hid, hr⟩
      · exact absurd ((h.no_token htd).symm.trans h₀) (by simp)
      · obtain ⟨s', t₁, hs', ht₁, rfl⟩ := h.pending.source _ hr'
        exact hr.trans (h.coherent.unspent s' hs' t₁ ht₁)
      · obtain ⟨s', hs', -⟩ := h.pending.source _ hr'
        rw [hnone] at hs'
        exact absurd hs' List.not_mem_nil

/-- **Inserting a session keeps the tables tidy.** -/
theorem Open.tidy_insert (h : Open env r c i) (hk : (c.shared.view i).Keyed)
    (hd : Tidy c.shared.db) {s : SessionAggregate} (hs : (did c i).added = some s) :
    Tidy (c.shared.view i) := by
  obtain ⟨-, hsid, ⟨t, ht, htd⟩, -⟩ := h.coherent.added s hs
  have hup : (did c i).updated = [] :=
    h.coherent.oneSession.resolve_left fun hn => absurd (hn.symm.trans hs) (by simp)
  obtain ⟨⟨row, hrow, hlive⟩, tok, htok, htsid, htlive⟩ := h.inserted hs ht
  -- a token of the view is the new one, of the new session, or was there before
  have htokens : ∀ x t', (c.shared.view i).token x = some t' →
      (x = t.id ∧ t' = tok) ∨ c.shared.db.token x = some t' := by
    intro x t' hx
    cases hold : c.shared.db.token x with
    | some row₀ => exact Or.inr ((h.token_kept hup hold).symm.trans hx)
    | none =>
        obtain ⟨s', t₁, hs', ht₁, rfl, -⟩ := h.new_token hold hx
        rw [hup] at hs'
        obtain rfl := Option.some.inj (hs.symm.trans (hs'.resolve_right List.not_mem_nil))
        obtain rfl : t₁ = t := List.mem_singleton.mp (ht ▸ ht₁)
        exact Or.inl ⟨rfl, Option.some.inj (hx.symm.trans htok)⟩
  -- no token that was there before belongs to the new session
  have hother : ∀ x t', c.shared.db.token x = some t' → t'.sessionId ≠ s.sessionId := by
    intro x t' hx hsame
    obtain ⟨row₀, h₀⟩ := hd.housed hx
    rw [hsame, h.no_session hsid] at h₀
    cases h₀
  refine ⟨fun {sid row'} hrow' hl => ?_, fun sid htwo => ?_, fun {x t'} hx hl => ?_,
    fun {x t'} hx => ?_⟩
  · cases hold : c.shared.db.session sid with
    | some row₀ =>
        obtain rfl := Option.some.inj ((h.session_kept hup hold).symm.trans hrow')
        obtain ⟨x, t', hx, hxs, hxl⟩ := hd.live hold hl
        exact ⟨x, t', h.token_kept hup hx, hxs, hxl⟩
    | none =>
        obtain ⟨s', hs', rfl, -⟩ := h.new_session hold hrow'
        obtain rfl := Option.some.inj (hs.symm.trans hs')
        exact ⟨t.id, tok, htok, htsid, htlive⟩
  · obtain ⟨r₁, hr₁, r₂, hr₂, hne, hs₁, hs₂, hl₁, hl₂⟩ := htwo
    rcases htokens _ _ (hk.mem_tokens.mp hr₁) with ⟨hid₁, he₁⟩ | hold₁
    · rcases htokens _ _ (hk.mem_tokens.mp hr₂) with ⟨hid₂, -⟩ | hold₂
      · exact hne (hid₁.trans hid₂.symm)
      · refine hother _ _ hold₂ (hs₂.trans (hs₁.symm.trans ?_))
        rw [he₁, htsid]
    · rcases htokens _ _ (hk.mem_tokens.mp hr₂) with ⟨-, he₂⟩ | hold₂
      · refine hother _ _ hold₁ (hs₁.trans (hs₂.symm.trans ?_))
        rw [he₂, htsid]
      · exact hd.single sid ⟨r₁, Keyed.mem_of_lookup hold₁, r₂, Keyed.mem_of_lookup hold₂, hne, hs₁,
          hs₂, hl₁, hl₂⟩
  · rcases htokens x t' hx with ⟨-, rfl⟩ | hold
    · exact ⟨row, htsid ▸ hrow, hlive⟩
    · obtain ⟨row₀, h₀, hl₀⟩ := hd.unrevoked hold hl
      exact ⟨row₀, h.session_kept hup h₀, hl₀⟩
  · rcases htokens x t' hx with ⟨-, rfl⟩ | hold
    · exact ⟨row, htsid ▸ hrow⟩
    · obtain ⟨row₀, h₀⟩ := hd.housed hold
      exact ⟨row₀, h.session_kept hup h₀⟩

/-- A sessions row of the view was there before, when no session is inserted. -/
theorem Open.session_old (h : Open env r c i) (ha : (did c i).added = none) {sid : Uuid}
    {row : SessionRow} (hrow : (c.shared.view i).session sid = some row) :
    ∃ row₀, c.shared.db.session sid = some row₀ := by
  cases hold : c.shared.db.session sid with
  | some row₀ => exact ⟨row₀, rfl⟩
  | none =>
      obtain ⟨s, hs, -⟩ := h.new_session hold hrow
      exact absurd (ha.symm.trans hs) (by simp)

/-- **Revoking sessions keeps the tables tidy**: a session goes with all its tokens, because
the aggregate was loaded with all of them. -/
theorem Open.tidy_revoke (h : Open env r c i) (hcur : Current c i) (hk : (c.shared.view i).Keyed)
    (hd : Tidy c.shared.db) (ha : (did c i).added = none)
    (hall : ∀ s ∈ (did c i).updated, ∃ s₀ ∈ (did c i).sessions, s = s₀.revoke) :
    Tidy (c.shared.view i) := by
  -- a token of the view was there before, and is unrevoked only if it was and is not written
  have htokens : ∀ x t', (c.shared.view i).token x = some t' → ∃ t₀,
      c.shared.db.token x = some t₀ ∧ t'.sessionId = t₀.sessionId ∧
        (t'.isRevoked = false → t₀.isRevoked = false ∧
          ∀ s ∈ (did c i).updated, s.sessionId ≠ t₀.sessionId) := by
    intro x t' hx
    cases hold : c.shared.db.token x with
    | none =>
        obtain ⟨s, t, hs, ht, rfl, -⟩ := h.new_token hold hx
        rcases hs with hadd | hs
        · exact absurd (ha.symm.trans hadd) (by simp)
        · obtain ⟨s₀, hs₀, rfl⟩ := hall s hs
          obtain ⟨t₀, ht₀, rfl⟩ := List.mem_map.mp ht
          obtain ⟨row, hrow, -⟩ := (hcur.sessions s₀ hs₀).token h.minted.keyed ht₀
          exact absurd (hold.symm.trans hrow) (by simp)
    | some t₀ =>
        obtain ⟨t'', hx'', hsid, -, hcases⟩ := h.token_view hold
        obtain rfl := Option.some.inj (hx.symm.trans hx'')
        refine ⟨t₀, rfl, hsid, fun hl => ?_⟩
        rcases hcases with ⟨rfl, hno⟩ | ⟨s, hs, t, ht, -, hrev⟩
        · refine ⟨hl, fun s hs hsame => ?_⟩
          obtain ⟨s₀, hs₀, rfl⟩ := hall s hs
          obtain ⟨t, ht, hid, -⟩ := (hcur.sessions s₀ hs₀).of_row (Keyed.mem_of_lookup hold)
            hsame.symm
          refine hno _ hs t.revoked (List.mem_map_of_mem ht) ?_
          rw [RefreshToken.revoked_id, hid]
          exact Keyed.key_of_lookup hold
        · obtain ⟨s₀, -, rfl⟩ := hall s hs
          obtain ⟨t₁, -, rfl⟩ := List.mem_map.mp ht
          exact absurd (hl.symm.trans hrev) (by simp)
  refine ⟨fun {sid row'} hrow' hl => ?_, fun sid htwo => ?_, fun {x t'} hx hl => ?_,
    fun {x t'} hx => ?_⟩
  · obtain ⟨row₀, h₀⟩ := h.session_old ha hrow'
    obtain ⟨row₁, h₁, -, hcases⟩ := h.session_view h₀
    obtain rfl := Option.some.inj (hrow'.symm.trans h₁)
    rcases hcases with ⟨rfl, hno⟩ | ⟨s, hs, -, hrev, -⟩
    · obtain ⟨x, t₀, hx, hxs, hxl⟩ := hd.live h₀ hl
      obtain ⟨t', ht', -, -, hcases'⟩ := h.token_view hx
      rcases hcases' with ⟨rfl, -⟩ | ⟨s, hs, t, ht, rfl, -⟩
      · exact ⟨x, t', ht', hxs, hxl⟩
      · -- the token would belong to a session that is written back
        obtain ⟨s₀, hs₀, rfl⟩ := hall s hs
        obtain ⟨t₁, ht₁, rfl⟩ := List.mem_map.mp ht
        obtain ⟨row₂, hrow₂, hsid, -⟩ := (hcur.sessions s₀ hs₀).token h.minted.keyed ht₁
        obtain rfl := Option.some.inj (hx.symm.trans hrow₂)
        exact absurd (hsid.symm.trans hxs) (hno s₀.revoke hs)
    · obtain ⟨s₀, -, rfl⟩ := hall s hs
      exact absurd (hl.symm.trans hrev) (by simp)
  · obtain ⟨r₁, hr₁, r₂, hr₂, hne, hs₁, hs₂, hl₁, hl₂⟩ := htwo
    obtain ⟨t₁, ht₁, hsame₁, hkeep₁⟩ := htokens _ _ (hk.mem_tokens.mp hr₁)
    obtain ⟨t₂, ht₂, hsame₂, hkeep₂⟩ := htokens _ _ (hk.mem_tokens.mp hr₂)
    refine hd.single sid ⟨t₁, Keyed.mem_of_lookup ht₁, t₂, Keyed.mem_of_lookup ht₂, ?_,
      hsame₁.symm.trans hs₁, hsame₂.symm.trans hs₂, (hkeep₁ hl₁).1, (hkeep₂ hl₂).1⟩
    rw [Keyed.key_of_lookup ht₁, Keyed.key_of_lookup ht₂]
    exact hne
  · obtain ⟨t₀, h₀, hsame, hkeep⟩ := htokens x t' hx
    obtain ⟨hl₀, hno⟩ := hkeep hl
    obtain ⟨row, hrow, hrl⟩ := hd.unrevoked h₀ hl₀
    obtain ⟨row', hrow', -, hcases⟩ := h.session_view hrow
    rcases hcases with ⟨rfl, -⟩ | ⟨s, hs, hsid, -⟩
    · exact ⟨row', hsame ▸ hrow', hrl⟩
    · exact absurd hsid (hno s hs)
  · obtain ⟨t₀, h₀, hsame, -⟩ := htokens x t' hx
    obtain ⟨row, hrow⟩ := hd.housed h₀
    obtain ⟨row', hrow', -⟩ := h.session_view hrow
    exact ⟨row', hsame ▸ hrow'⟩

/-- **The token an exchange brings** is there afterwards, unrevoked. -/
theorem Open.exchanged (h : Open env r c i) {t : String} {s₀ s : SessionAggregate}
    (hx : Exchanges env t (did c i) s₀ s) (hup : (did c i).updated = [s])
    (ha : (did c i).added = none) :
    ∃ x row, (c.shared.view i).token x = some row ∧ row.sessionId = s.sessionId ∧
      row.isRevoked = false := by
  obtain ⟨presented, new, now, hs₀, -, -, -, hnew, hdrawn, rfl⟩ := hx
  have hmem : new ∈ (s₀.rotate now presented.id new UserService.sessionExpireSeconds).refreshTokens
      := List.mem_append_right _ (List.mem_singleton_self new)
  have hw := h.pending.updated h.uncommitted _ (by rw [hup]; exact List.mem_singleton_self _)
    (List.mem_cons_of_mem _ (List.mem_map_of_mem hmem))
  obtain ⟨row, hrow⟩ := @view_token_written c.shared.db _ _ (Or.inr hw)
  refine ⟨new.id, row, hrow, ?_, ?_⟩
  · obtain ⟨s', t', hs', -, -, hsid, -⟩ := h.new_token (h.no_token hdrawn) hrow
    rcases hs' with hadd | hs'
    · exact absurd (ha.symm.trans hadd) (by simp)
    · rw [hup] at hs'
      obtain rfl := List.mem_singleton.mp hs'
      exact hsid
  · rcases view_token_state _ hrow with ⟨row₀, h₀, -⟩ | ⟨r', hr' | hr', hid, hr⟩
    · exact absurd ((h.no_token hdrawn).symm.trans h₀) (by simp)
    · obtain ⟨s', t', hadd, -⟩ := h.pending.source _ hr'
      exact absurd (ha.symm.trans hadd) (by simp)
    · obtain ⟨s', hs', t', ht', rfl⟩ := h.pending.source _ hr'
      rw [hup] at hs'
      obtain rfl := List.mem_singleton.mp hs'
      rw [SessionAggregate.rotate_refreshTokens] at ht'
      rcases List.mem_append.mp ht' with hold | hlast
      · -- the tokens that were read have rows, and the new one has none
        obtain ⟨t₀, ht₀, rfl⟩ := List.mem_map.mp hold
        obtain ⟨row₀, h₀, -⟩ := (h.minted.known i s₀ hs₀).tokens t₀ ht₀
        have hid' : t₀.id = new.id := by
          rw [← show (refreshTokenToRow _ _).id = new.id from hid]
          change t₀.id = (if t₀.id = presented.id then t₀.revoked else t₀).id
          split <;> rfl
        rw [hid', h.no_token hdrawn] at h₀
        cases h₀
      · obtain rfl := List.mem_singleton.mp hlast
        exact hr.trans hnew

/-- **Exchanging a token keeps the tables tidy**: one unrevoked token goes, one comes. -/
theorem Open.tidy_exchange (h : Open env r c i) (hcur : Current c i)
    (hk : (c.shared.view i).Keyed) (hd : Tidy c.shared.db) {t : String}
    {s₀ s : SessionAggregate} (hx : Exchanges env t (did c i) s₀ s)
    (hup : (did c i).updated = [s]) : Tidy (c.shared.view i) := by
  have ha : (did c i).added = none :=
    h.coherent.oneSession.resolve_right fun hnil => absurd (hnil.symm.trans hup) (by simp)
  obtain ⟨presented, new, htr⟩ := hx.spec
  have hl₀ := hcur.sessions s₀ htr.read
  obtain ⟨prow, hprow, hpsid, -⟩ := htr.row h.minted
  -- a session that is unrevoked in the tables stays so
  have hsessions : ∀ sid row, c.shared.db.session sid = some row → row.isRevoked = false →
      ∃ row', (c.shared.view i).session sid = some row' ∧ row'.isRevoked = false := by
    intro sid row hrow hl
    obtain ⟨row', hrow', -, hcases⟩ := h.session_view hrow
    refine ⟨row', hrow', ?_⟩
    rw [hup] at hcases
    rcases hcases with ⟨rfl, -⟩ | ⟨s', hs', -, hrev, -⟩
    · exact hl
    · obtain rfl := List.mem_singleton.mp hs'
      exact hrev.trans htr.unrevoked
  obtain ⟨srow, hsrow⟩ := hx.session_row (h.minted.known i)
  obtain ⟨srow', hsrow', -, hscases⟩ := h.session_view hsrow
  have hslive : srow'.isRevoked = false := by
    rw [hup] at hscases
    rcases hscases with ⟨-, hno⟩ | ⟨s', hs', -, hrev, -⟩
    · exact absurd rfl (hno s (List.mem_singleton_self s))
    · obtain rfl := List.mem_singleton.mp hs'
      exact hrev.trans htr.unrevoked
  refine ⟨fun {sid row'} hrow' hl => ?_, fun sid htwo => ?_, fun {x t'} hxt hl => ?_,
    fun {x t'} hxt => ?_⟩
  · by_cases hsid : sid = s.sessionId
    · rw [hsid]
      exact h.exchanged hx hup ha
    · obtain ⟨row₀, h₀⟩ := h.session_old ha hrow'
      obtain ⟨row₁, h₁, -, hcases⟩ := h.session_view h₀
      obtain rfl := Option.some.inj (hrow'.symm.trans h₁)
      rw [hup] at hcases
      rcases hcases with ⟨rfl, -⟩ | ⟨s', hs', hid, -⟩
      · obtain ⟨x, t₀, hxt, hxs, hxl⟩ := hd.live h₀ hl
        obtain ⟨t', ht', hsame, -, hcases'⟩ := h.token_view hxt
        refine ⟨x, t', ht', hsame.trans hxs, ?_⟩
        rw [hup] at hcases'
        rcases hcases' with ⟨rfl, -⟩ | ⟨s', hs', t₁, ht₁, rfl, hrev⟩
        · exact hxl
        · obtain rfl := List.mem_singleton.mp hs'
          rcases htr.touches h ht₁ hxt with ⟨hid, -⟩ | ⟨-, ht₁'⟩
          · rw [hid, hprow] at hxt
            obtain rfl := Option.some.inj hxt
            exact absurd (hxs.symm.trans hpsid) hsid
          · obtain ⟨row₂, hrow₂, -, -, hrev₂, -⟩ := hl₀.token h.minted.keyed ht₁'
            obtain rfl := Option.some.inj (hxt.symm.trans hrow₂)
            exact hrev.trans (hrev₂.symm.trans hxl)
      · obtain rfl := List.mem_singleton.mp hs'
        exact absurd hid.symm hsid
  · exact hd.single sid (htr.twoLive h hup hl₀ hk htwo)
  · cases hold : c.shared.db.token x with
    | none =>
        obtain ⟨-, hsid⟩ := htr.added h hup hold hxt
        exact ⟨srow', hsid ▸ hsrow', hslive⟩
    | some t₀ =>
        obtain ⟨hsame, hl', -⟩ := htr.old_live h hup hl₀ hold hxt hl
        obtain ⟨row, hrow, hrl⟩ := hd.unrevoked hold hl'
        obtain ⟨row', hrow', hrl'⟩ := hsessions _ row hrow hrl
        exact ⟨row', hsame ▸ hrow', hrl'⟩
  · cases hold : c.shared.db.token x with
    | none =>
        obtain ⟨-, hsid⟩ := htr.added h hup hold hxt
        exact ⟨srow', hsid ▸ hsrow'⟩
    | some t₀ =>
        obtain ⟨t₁, ht₁, hsame, -⟩ := h.token_view hold
        obtain rfl := Option.some.inj (hxt.symm.trans ht₁)
        obtain ⟨row, hrow⟩ := hd.housed hold
        obtain ⟨row', hrow', -⟩ := h.session_view hrow
        exact ⟨row', hsame ▸ hrow'⟩

/-- **The commit of a request that has read the tables as they are keeps them tidy.** -/
theorem Open.tidy (h : Open env r c i) (hcur : Current c i) (hd : Tidy c.shared.db)
    (hdone : Completed env r (did c i)) : Tidy (c.shared.view i) := by
  have hk : (c.shared.view i).Keyed :=
    keyed_view h.minted.keyed (h.minted.freshInserts h.coherent h.pending h.uncommitted)
  cases ha : (did c i).added with
  | some s => exact h.tidy_insert hk hd ha
  | none =>
      by_cases hr : ∃ t, r = .refreshToken t
      · obtain ⟨t, rfl⟩ := hr
        obtain ⟨s₀, s, hx, hup⟩ := hdone
        exact h.tidy_exchange hcur hk hd hx hup
      · refine h.tidy_revoke hcur hk hd ha fun s hs => ?_
        rcases h.coherent.updated s hs with hrev | ⟨t, s₀, hrt, -⟩
        · exact hrev
        · exact absurd ⟨t, hrt⟩ hr

end Requests

/-! ### The purge -/

/-- `MaintenanceWorker._purge_expired_sessions`: the sessions that expired before the cutoff
are deleted, and `refresh_tokens.session_id` cascades. -/
def Db.purgeExpiredSessions (config : MaintenanceConfig) (now : Instant) (db : Db) : Db :=
  let cutoff : Instant := now - days config.sessionGraceDays
  { db with
    sessions := db.sessions.filter fun r => !decide (r.expiresAt < cutoff)
    refreshTokens := db.refreshTokens.filter fun t =>
      !db.sessions.any fun r => decide (r.expiresAt < cutoff) && decide (r.sessionId = t.sessionId) }

/-- The job as `run_once` runs it: in a transaction of its own, rolled back in a dry run. -/
def World.purge {ι : Type} (config : MaintenanceConfig) (w : World ι) : World ι :=
  if config.dryRun then w else { w with db := w.db.purgeExpiredSessions config w.clock }

section Purge

variable {config : MaintenanceConfig} {now : Instant}

/-- The sessions that are left. -/
theorem purge_session (hk : db.Keyed) {sid : Uuid} {row : SessionRow} :
    (db.purgeExpiredSessions config now).session sid = some row ↔
      db.session sid = some row ∧ ¬ row.expiresAt < now - days config.sessionGraceDays :=
  (Keyed.lookup_filter hk.sessions).trans (by simp [Db.session])

/-- The tokens that are left: those whose session is. -/
theorem purge_token (hk : db.Keyed) {x : Uuid} {t : RefreshTokenRow} :
    (db.purgeExpiredSessions config now).token x = some t ↔
      db.token x = some t ∧ ∀ row, db.session t.sessionId = some row →
        ¬ row.expiresAt < now - days config.sessionGraceDays := by
  refine (Keyed.lookup_filter hk.tokens).trans (and_congr_right fun _ => ?_)
  rw [Bool.not_eq_true', List.any_eq_false]
  constructor
  · intro h row hrow hexp
    refine h row (Keyed.mem_of_lookup hrow) ?_
    simp [hexp, Keyed.key_of_lookup hrow]
  · intro h row hrow hboth
    rw [Bool.and_eq_true, decide_eq_true_eq, decide_eq_true_eq] at hboth
    exact h row (hboth.2 ▸ hk.mem_sessions.mp hrow) hboth.1

/-- **The purge keeps the tables tidy.** -/
theorem Tidy.purge (h : Tidy db) (hk : db.Keyed) :
    Tidy (db.purgeExpiredSessions config now) := by
  refine ⟨fun {sid row} hrow hl => ?_, fun sid htwo => ?_, fun {x t} hx hl => ?_,
    fun {x t} hx => ?_⟩
  · obtain ⟨hrow, hexp⟩ := (purge_session hk).mp hrow
    obtain ⟨x, t, hx, hs, htl⟩ := h.live hrow hl
    refine ⟨x, t, (purge_token hk).mpr ⟨hx, fun row' hrow' => ?_⟩, hs, htl⟩
    rw [hs] at hrow'
    obtain rfl := Option.some.inj (hrow.symm.trans hrow')
    exact hexp
  · obtain ⟨r₁, hr₁, r₂, hr₂, hrest⟩ := htwo
    exact h.single sid ⟨r₁, List.mem_of_mem_filter hr₁, r₂, List.mem_of_mem_filter hr₂, hrest⟩
  · obtain ⟨hx, hexp⟩ := (purge_token hk).mp hx
    obtain ⟨row, hrow, hrl⟩ := h.unrevoked hx hl
    exact ⟨row, (purge_session hk).mpr ⟨hrow, hexp row hrow⟩, hrl⟩
  · obtain ⟨hx, hexp⟩ := (purge_token hk).mp hx
    obtain ⟨row, hrow⟩ := h.housed hx
    exact ⟨row, (purge_session hk).mpr ⟨hrow, hexp row hrow⟩⟩

/-- The service can go on after a purge. -/
theorem Startable.purge {ι : Type} {w : World ι} (h : Startable env w) :
    Startable env (w.purge config) := by
  rw [World.purge]
  split
  · exact h
  · refine ⟨h.idle, ⟨h.keyed.users, ?_, ?_⟩, ?_, fun x hx => h.unborn x ?_⟩
    · exact h.keyed.sessions.sublist (List.filter_sublist.map _)
    · exact h.keyed.tokens.sublist (List.filter_sublist.map _)
    · exact h.hashes.sublist (List.filter_sublist.map _)
    · rcases hx with hx | hx | hx
      · exact Or.inl hx
      · exact Or.inr (Or.inl ((List.filter_sublist.map _).mem hx))
      · exact Or.inr (Or.inr ((List.filter_sublist.map _).mem hx))

end Purge

/-! ### Sequential runs -/

/-- **The worlds that a sequential run reaches**: it starts with no session and no refresh
token, and goes on with requests, one at a time, and purges. A request may be cut off at any
point of its run, so the worlds in the middle of one are among those reached. -/
inductive Reached (env : Env) : World Unit → Prop
  | start {w : World Unit} (hw : Startable env w) (hs : w.db.sessions = [])
      (ht : w.db.refreshTokens = []) : Reached env w
  | request {w : World Unit} {c : Cfg Unit} (r : Request) (hw : Reached env w)
      (hr : Runs env (fun _ => r) Machine.anyStep w c) : Reached env (c.shared.rollback ())
  | purge {w : World Unit} (config : MaintenanceConfig) (hw : Reached env w) :
      Reached env (w.purge config)

/-- Tidiness depends on the sessions and refresh_tokens tables only. -/
theorem Tidy.congr {db' : Db} (h : Tidy db) (hs : db'.sessions = db.sessions)
    (ht : db'.refreshTokens = db.refreshTokens) : Tidy db' := by
  obtain ⟨h₁, h₂, h₃, h₄⟩ := h
  refine ⟨?_, ?_, ?_, ?_⟩
  · simpa only [Db.session, Db.token, hs, ht] using @h₁
  · simpa only [TwoLive, ht] using h₂
  · simpa only [Db.session, Db.token, hs, ht] using @h₃
  · simpa only [Db.session, Db.token, hs, ht] using @h₄

theorem tidy_empty (hs : db.sessions = []) (ht : db.refreshTokens = []) : Tidy db where
  live h := absurd h (by simp [Db.session, hs, Keyed.lookup])
  single sid := by
    rintro ⟨r, hr, -⟩
    rw [ht] at hr
    exact absurd hr List.not_mem_nil
  unrevoked h := absurd h (by simp [Db.token, ht, Keyed.lookup])
  housed h := absurd h (by simp [Db.token, ht, Keyed.lookup])

/-- Only one request runs, so it runs alone. -/
theorem Runs.alone {r : Request} {w : World Unit} {c : Cfg Unit}
    (h : Runs env (fun _ => r) Machine.anyStep w c) :
    Runs env (fun _ => r) Machine.sequentially w c := by
  refine h.mono fun c l _ => ?_
  cases l with
  | act i ch => exact fun j hj => absurd rfl hj
  | env d => trivial

/-- **A request that runs alone keeps the tables tidy.** -/
theorem Runs.tidy {r : Request} {w : World Unit} {c : Cfg Unit}
    (h : Runs env (fun _ => r) Machine.sequentially w c) (hw : Startable env w)
    (ht : Tidy w.db) : Tidy c.shared.db := by
  refine h.induction (fun c => Tidy c.shared.db) ht ?_ ?_ ?_
  · intro c i ch o k x w' hr ih _ hi hal he
    by_cases ho : o = .commit
    · subst ho
      rcases exec_commit he with ⟨rfl, rfl⟩ | ⟨rfl, rfl⟩
      · exact ih
      · obtain ⟨-, hs, htok⟩ := commit_tables env c.shared i
        exact ((hr.isOpen hw hi hal.1).tidy (hr.current hw hi hal.1) ih hal.2.1).congr hs htok
    · rw [afterCall_shared, (exec_db ho he).1]
      exact ih
  · exact fun c i ch x _ ih _ _ _ => ih
  · exact fun c d _ ih _ => ih

/-- The service can go on after a request. -/
theorem Runs.startable {r : Request} {w : World Unit} {c : Cfg Unit} {C : Steps Unit}
    (h : Runs env (fun _ => r) C w c) (hw : Startable env w) :
    Startable env (c.shared.rollback ()) where
  idle i := by
    rw [rollback_pending]
    exact Function.update_self _ _ _
  keyed := (h.minted hw).keyed
  hashes := (h.hashes hw).committed
  unborn := (h.minted hw).unborn

/-- The invariant of sequential runs. -/
theorem Reached.tidy {w : World Unit} (h : Reached env w) : Startable env w ∧ Tidy w.db := by
  induction h with
  | start hw hs ht => exact ⟨hw, tidy_empty hs ht⟩
  | request r _ hr ih => exact ⟨hr.startable ih.1, hr.alone.tidy ih.1 ih.2⟩
  | @purge w config _ ih =>
      refine ⟨ih.1.purge, ?_⟩
      rw [World.purge]
      split
      · exact ih.2
      · exact ih.2.purge ih.1.keyed

/-- **Token/session consistency.** In every state a sequential run reaches, a session that is
not revoked has exactly one refresh token that is not revoked, a revoked session has none,
and every refresh token belongs to a session. -/
theorem tokens_consistent {w : World Unit} (h : Reached env w) : Consistent w.db :=
  h.tidy.2.consistent h.tidy.1.keyed

/-- The world in which the account exists and nobody is signed in. -/
def signedOut : World Unit :=
  Reference.world Unit (Reference.tables (Reference.alice false) false)

/-- The account signs in and exchanges its refresh token. -/
theorem refreshed_consistent : ∃ w, Reached Reference.env w ∧
    w.db.sessions.map SessionRow.isRevoked = [false] ∧
    w.db.refreshTokens.map RefreshTokenRow.isRevoked = [true, false] ∧ Consistent w.db := by
  obtain ⟨c₁, h₁, c₂, h₂, hs, ht⟩ : ∃ c₁, (machine Reference.env Unit).run
      (start Reference.env (fun _ => .login
        { password := Reference.password, username := some "alice" }) signedOut)
      (Reference.moves () 14) = some c₁ ∧
      ∃ c₂, (machine Reference.env Unit).run
        (start Reference.env (fun _ => .refreshToken (Reference.tokenUrlsafe 2))
          (c₁.shared.rollback ())) (Reference.moves () 14) = some c₂ ∧
        c₂.shared.db.sessions.map SessionRow.isRevoked = [false] ∧
        c₂.shared.db.refreshTokens.map RefreshTokenRow.isRevoked = [true, false] := by
    decide +kernel
  have hstart : Reached Reference.env signedOut :=
    .start (reference_startable Unit rfl false .empty) rfl rfl
  have hlogin := Reached.request _ hstart (Machine.reach_of_run (Machine.runsWith_any _ _ _) h₁)
  have hw := Reached.request _ hlogin (Machine.reach_of_run (Machine.runsWith_any _ _ _) h₂)
  exact ⟨_, hw, hs, ht, tokens_consistent hw⟩

end BackendTemplate
