import BackendTemplate.Coherence
import BackendTemplate.Rows

/-!
# Sessions and Their Rows

`Loads db s` says that aggregate `s` is what the tables hold under its id, tokens
included; every `acquire_*` method of the session repository returns such an aggregate.
`Known db s` is the part of it that no later statement can undo: the rows of the session
and of its tokens exist, under the same owner and with the same hashes.
-/

namespace BackendTemplate

variable {db : Db} {s : SessionAggregate}

/-! ### Loading -/

/-- **Aggregate `s` is what the tables hold under its id.** -/
def Loads (db : Db) (s : SessionAggregate) : Prop :=
  ∃ row, db.session s.sessionId = some row ∧ sessionFromRows row s.refreshTokens = .ok s ∧
    db.tokensOf s.sessionId = .ok s.refreshTokens

theorem loads_of_loadSession (hk : (db.sessions.map SessionRow.sessionId).Nodup) {row : SessionRow} (hrow : row ∈ db.sessions)
    (h : db.loadSession row = .ok s) : Loads db s := by
  obtain ⟨ts, hts, hs⟩ := loadSession_ok h
  obtain ⟨hid, -, -, -, rfl⟩ := sessionFromRows_ok hs
  refine ⟨row, ?_, hs, ?_⟩
  · rw [hid]
    exact (Keyed.mem_iff_lookup hk).mp hrow
  · rw [hid]
    exact hts

theorem loads_acquireSession (hk : (db.sessions.map SessionRow.sessionId).Nodup) {sid : Uuid}
    (h : db.acquireSession sid = .ok (some s)) : Loads db s := by
  rw [Db.acquireSession] at h
  split at h
  · cases h
  · rename_i row hrow
    cases hl : db.loadSession row with
    | error e => rw [hl] at h; cases h
    | ok v =>
        rw [hl] at h
        obtain rfl : v = s := by simpa [Except.map] using h
        exact loads_of_loadSession hk (List.mem_of_find?_eq_some hrow) hl

theorem loads_acquireSessionByToken (hk : (db.sessions.map SessionRow.sessionId).Nodup) {hash : Bytes}
    (h : db.acquireSessionByToken hash = .ok (some s)) : Loads db s := by
  obtain ⟨_, -, -, -, row, hrow, -, -, hl⟩ := acquireSessionByToken_some h
  exact loads_of_loadSession hk hrow hl

/-- The tokens of one session, picked from a batch, are the tokens of that session. -/
theorem tokens_of_batch {rows : List RefreshTokenRow} {ids : List Uuid} {sid : Uuid}
    (hsid : sid ∈ ids) {g : List (Uuid × RefreshToken)}
    (h : (rows.filter fun t => ids.contains t.sessionId).mapM (fun row => do
      let t ← refreshTokenFromRow row
      Except.ok (row.sessionId, t)) = .ok g) :
    (rows.filter fun t => t.sessionId = sid).mapM refreshTokenFromRow =
      .ok ((g.filter fun p => p.1 = sid).map Prod.snd) := by
  induction rows generalizing g with
  | nil =>
      obtain rfl : [] = g := Except.ok.inj h
      rfl
  | cons row rows ih =>
      by_cases hin : ids.contains row.sessionId
      · rw [List.filter_cons, if_pos hin, List.mapM_cons, except_bind_eq_ok] at h
        obtain ⟨p, hp, h⟩ := h
        rw [except_bind_eq_ok] at hp h
        obtain ⟨t, ht, hp⟩ := hp
        obtain ⟨g', hg', h⟩ := h
        obtain rfl := Except.ok.inj hp
        obtain rfl : (row.sessionId, t) :: g' = g := Except.ok.inj h
        by_cases hs : row.sessionId = sid
        · rw [List.filter_cons_of_pos (by simpa using hs),
            List.filter_cons_of_pos (by simpa using hs), List.mapM_cons, ht]
          simp only [ih hg']
          rfl
        · rw [List.filter_cons_of_neg (by simpa using hs),
            List.filter_cons_of_neg (by simpa using hs)]
          exact ih hg'
      · rw [List.filter_cons, if_neg hin] at h
        have hs : row.sessionId ≠ sid := by
          rintro rfl
          exact hin (by simpa using hsid)
        rw [List.filter_cons_of_neg (by simpa using hs)]
        exact ih h

/-- **What `acquire_by_user_id` returns**: every unrevoked session of the user, and nothing
else. -/
theorem acquireSessionsOf_ok (hk : (db.sessions.map SessionRow.sessionId).Nodup) {u : Uuid}
    {ss : List SessionAggregate} (h : db.acquireSessionsOf u = .ok ss) :
    (∀ s ∈ ss, Loads db s ∧ s.userId.value = u ∧ s.isRevoked = false) ∧
      ∀ row ∈ db.sessions, row.userId = u → row.isRevoked = false →
        ∃ s ∈ ss, s.sessionId = row.sessionId := by
  rw [Db.acquireSessionsOf] at h
  split at h
  · rename_i hempty
    obtain rfl : [] = ss := Except.ok.inj h
    refine ⟨fun s hs => absurd hs List.not_mem_nil, fun row hrow hu hrev => ?_⟩
    have : row ∈ db.sessions.filter fun r => r.userId = u && !r.isRevoked :=
      List.mem_filter.mpr ⟨hrow, by simp [hu, hrev]⟩
    rw [List.isEmpty_iff.mp hempty] at this
    exact absurd this List.not_mem_nil
  · rw [except_bind_eq_ok] at h
    obtain ⟨g, hg, h⟩ := h
    refine ⟨fun s hs => ?_, fun row hrow hu hrev => ?_⟩
    · obtain ⟨row, hrow, hrs⟩ := mem_mapM_ok h hs
      obtain ⟨hid, huid, -, hrev, htok⟩ := sessionFromRows_ok hrs
      have hmem := List.mem_filter.mp hrow
      have hcond : row.userId = u ∧ row.isRevoked = false := by simpa using hmem.2
      refine ⟨⟨row, ?_, ?_, ?_⟩, huid.trans hcond.1, hrev.trans hcond.2⟩
      · rw [hid]
        exact (Keyed.mem_iff_lookup hk).mp hmem.1
      · rw [htok]
        exact hrs
      · rw [hid, htok]
        exact tokens_of_batch (List.mem_map_of_mem hrow) hg
    · obtain ⟨s, hs, hrs⟩ := mapM_ok_of_mem h
        (List.mem_filter.mpr ⟨hrow, by simp [hu, hrev]⟩)
      exact ⟨s, hs, (sessionFromRows_ok hrs).1⟩

/-- The sessions `acquire_by_user_id` returns are distinct. -/
theorem acquireSessionsOf_nodup (hk : (db.sessions.map SessionRow.sessionId).Nodup) {u : Uuid}
    {ss : List SessionAggregate} (h : db.acquireSessionsOf u = .ok ss) :
    (ss.map SessionAggregate.sessionId).Nodup := by
  rw [Db.acquireSessionsOf] at h
  split at h
  · obtain rfl : [] = ss := Except.ok.inj h
    exact List.nodup_nil
  · rw [except_bind_eq_ok] at h
    obtain ⟨g, -, h⟩ := h
    rw [map_of_mapM_ok (fun row s hs => (sessionFromRows_ok hs).1) h]
    exact hk.sublist (List.filter_sublist.map _)

/-- A session that was read has recorded no event. -/
theorem Loads.events (h : Loads db s) : s.events = [] := by
  obtain ⟨row, -, hs, -⟩ := h
  rw [sessionFromRows, except_bind_eq_ok] at hs
  obtain ⟨u, -, hs⟩ := hs
  exact (congrArg SessionAggregate.events (Except.ok.inj hs)).symm

/-- The rows behind the tokens of a loaded session. -/
theorem Loads.token (h : Loads db s) (hk : db.Keyed) {t : RefreshToken}
    (ht : t ∈ s.refreshTokens) :
    ∃ row, db.token t.id = some row ∧ row.sessionId = s.sessionId ∧
      row.tokenHash = t.tokenHash.value ∧ row.isRevoked = t.isRevoked ∧
      row.expiresAt = t.expiresAt := by
  obtain ⟨-, -, -, htok⟩ := h
  obtain ⟨row, hrow, hrt⟩ := mem_mapM_ok htok ht
  have hmem := List.mem_filter.mp hrow
  rw [refreshTokenFromRow, except_bind_eq_ok] at hrt
  obtain ⟨hash, hhash, hrt⟩ := hrt
  obtain rfl := Except.ok.inj hrt
  exact ⟨row, hk.mem_tokens.mp hmem.1, by simpa using hmem.2, (TokenHash.make_ok hhash).symm,
    rfl, rfl⟩

/-- Every token row of a loaded session is a token of the aggregate. -/
theorem Loads.of_row (h : Loads db s) {row : RefreshTokenRow} (hrow : row ∈ db.refreshTokens)
    (hs : row.sessionId = s.sessionId) :
    ∃ t ∈ s.refreshTokens, t.id = row.id ∧ t.isRevoked = row.isRevoked ∧
      t.tokenHash.value = row.tokenHash ∧ t.expiresAt = row.expiresAt := by
  obtain ⟨-, -, -, htok⟩ := h
  obtain ⟨t, ht, hrt⟩ := mapM_ok_of_mem htok (List.mem_filter.mpr ⟨hrow, by simpa using hs⟩)
  rw [refreshTokenFromRow, except_bind_eq_ok] at hrt
  obtain ⟨hash, hhash, hrt⟩ := hrt
  obtain rfl := Except.ok.inj hrt
  exact ⟨_, ht, rfl, rfl, TokenHash.make_ok hhash, rfl⟩

/-- Loading depends on the sessions and refresh_tokens tables only. -/
theorem Loads.congr {db' : Db} (h : Loads db s) (hs : db'.sessions = db.sessions)
    (ht : db'.refreshTokens = db.refreshTokens) : Loads db' s := by
  obtain ⟨row, h₁, h₂, h₃⟩ := h
  refine ⟨row, ?_, h₂, ?_⟩
  · rw [Db.session, hs]
    exact h₁
  · rw [Db.tokensOf, ht]
    exact h₃

/-! ### What no statement can undo -/

/-- The rows of a session and of its tokens exist, under the same owner and hashes. -/
structure Known (db : Db) (s : SessionAggregate) : Prop where
  session : ∃ row, db.session s.sessionId = some row ∧ row.userId = s.userId.value
  tokens : ∀ t ∈ s.refreshTokens, ∃ row, db.token t.id = some row ∧
    row.sessionId = s.sessionId ∧ row.tokenHash = t.tokenHash.value

theorem Loads.known (h : Loads db s) (hk : db.Keyed) : Known db s where
  session := by
    obtain ⟨row, hrow, hs, -⟩ := h
    exact ⟨row, hrow, (sessionFromRows_ok hs).2.1.symm⟩
  tokens t ht := by
    obtain ⟨row, hrow, hs, hh, -⟩ := h.token hk ht
    exact ⟨row, hrow, hs, hh⟩

/-- Statements keep a sessions row and its owner. -/
theorem view_session_some (ws : List Write) {x : Uuid} {row : SessionRow}
    (h : db.session x = some row) :
    ∃ row', (RowLocks.view Db.apply db ws).session x = some row' ∧ row'.userId = row.userId := by
  induction ws generalizing db row with
  | nil => exact ⟨row, h, rfl⟩
  | cons w ws ih =>
      have hstep : ∃ row', (db.apply w).session x = some row' ∧ row'.userId = row.userId := by
        rw [apply_session, h]
        cases w with
        | sessionUpdate sid isRevoked expiresAt =>
            simp only [Write.onSession]
            split
            · exact ⟨_, rfl, rfl⟩
            · exact ⟨row, rfl, rfl⟩
        | _ => exact ⟨row, rfl, rfl⟩
      obtain ⟨row', hrow', hu⟩ := hstep
      obtain ⟨row'', hrow'', hu'⟩ := ih hrow'
      exact ⟨row'', hrow'', hu'.trans hu⟩

/-- Statements keep a refresh_tokens row, its session and its hash. -/
theorem view_token_some (ws : List Write) {x : Uuid} {row : RefreshTokenRow}
    (h : db.token x = some row) :
    ∃ row', (RowLocks.view Db.apply db ws).token x = some row' ∧
      row'.sessionId = row.sessionId ∧ row'.tokenHash = row.tokenHash := by
  induction ws generalizing db row with
  | nil => exact ⟨row, h, rfl, rfl⟩
  | cons w ws ih =>
      have hstep : ∃ row', (db.apply w).token x = some row' ∧
          row'.sessionId = row.sessionId ∧ row'.tokenHash = row.tokenHash := by
        rw [apply_token, h]
        cases w with
        | tokenUpsert row' =>
            simp only [Write.onToken]
            split
            · exact ⟨_, rfl, rfl, rfl⟩
            · exact ⟨row, rfl, rfl, rfl⟩
        | _ => exact ⟨row, rfl, rfl, rfl⟩
      obtain ⟨row', hrow', hs, hh⟩ := hstep
      obtain ⟨row'', hrow'', hs', hh'⟩ := ih hrow'
      exact ⟨row'', hrow'', hs'.trans hs, hh'.trans hh⟩

/-- **What is known of a session stays known.** -/
theorem Known.view (h : Known db s) (ws : List Write) :
    Known (RowLocks.view Db.apply db ws) s where
  session := by
    obtain ⟨row, hrow, hu⟩ := h.session
    obtain ⟨row', hrow', hu'⟩ := view_session_some ws hrow
    exact ⟨row', hrow', hu'.trans hu⟩
  tokens t ht := by
    obtain ⟨row, hrow, hs, hh⟩ := h.tokens t ht
    obtain ⟨row', hrow', hs', hh'⟩ := view_token_some ws hrow
    exact ⟨row', hrow', hs'.trans hs, hh'.trans hh⟩

end BackendTemplate
