import BackendTemplate.Identities

/-!
# The Ways a Session Is Written and Read

A session and its refresh tokens live in two tables, written by inserts (`add`) or by a conditional
update and upserts (`update`), and read by one session id or, with one query for all tokens, by user.
Rows come back in any order, so a session is read up to the order of its tokens.

## Main results

* `acquireSession_add` — what `add` has written is read back.
* `view_updateSession` — what `update` leaves of the two tables.
* `acquireSessionsOf_agrees` — the batch returns what reading each session returns.
* `session_paths_agree` — the three together.
-/

namespace BackendTemplate

variable {db db' : Db} {s : SessionAggregate} {row : SessionRow}

/-- **The same session**, its refresh tokens in any order. -/
def SessionAggregate.Same (s s' : SessionAggregate) : Prop :=
  s' = { s with refreshTokens := s'.refreshTokens } ∧ s.refreshTokens.Perm s'.refreshTokens

/-- **The same rows** of the two tables, in any order. -/
def Db.SameRows (db db' : Db) : Prop :=
  db.sessions.Perm db'.sessions ∧ db.refreshTokens.Perm db'.refreshTokens

theorem Db.SameRows.symm (h : db.SameRows db') : db'.SameRows db := ⟨h.1.symm, h.2.symm⟩

/-! ### Reading rows in any order -/

theorem mapM_congr {ε α β : Type} {f g : α → Except ε β} {l : List α} (h : ∀ a ∈ l, f a = g a) :
    l.mapM f = l.mapM g := by
  induction l with
  | nil => rfl
  | cons a l ih =>
      rw [List.mapM_cons, List.mapM_cons, h a List.mem_cons_self,
        ih fun a' ha' => h a' (List.mem_cons_of_mem _ ha')]

theorem mapM_cons_ok {ε α β : Type} {f : α → Except ε β} {a : α} {l : List α} {r : List β} :
    (a :: l).mapM f = .ok r ↔ ∃ b r', f a = .ok b ∧ l.mapM f = .ok r' ∧ r = b :: r' := by
  rw [List.mapM_cons, except_bind_eq_ok]
  constructor
  · rintro ⟨b, hb, h⟩
    obtain ⟨r', hr', h⟩ := except_bind_eq_ok.mp h
    exact ⟨b, r', hb, hr', (Except.ok.inj h).symm⟩
  · rintro ⟨b, r', hb, hr', rfl⟩
    exact ⟨b, hb, except_bind_eq_ok.mpr ⟨r', hr', rfl⟩⟩

/-- A fallible map over the same elements in another order returns the same in that order. -/
theorem mapM_perm {ε α β : Type} {f : α → Except ε β} {l l' : List α} (h : l.Perm l')
    {r : List β} (hr : l.mapM f = .ok r) : ∃ r', l'.mapM f = .ok r' ∧ r.Perm r' := by
  induction h generalizing r with
  | nil => exact ⟨r, hr, .refl r⟩
  | cons a _ ih =>
      obtain ⟨b, r₁, hb, hr₁, rfl⟩ := mapM_cons_ok.mp hr
      obtain ⟨r₂, hr₂, hperm⟩ := ih hr₁
      exact ⟨b :: r₂, mapM_cons_ok.mpr ⟨b, r₂, hb, hr₂, rfl⟩, hperm.cons b⟩
  | swap a a' l =>
      obtain ⟨b', _, hb', h, rfl⟩ := mapM_cons_ok.mp hr
      obtain ⟨b, r₁, hb, hr₁, rfl⟩ := mapM_cons_ok.mp h
      exact ⟨b :: b' :: r₁, mapM_cons_ok.mpr ⟨b, _, hb, mapM_cons_ok.mpr ⟨b', r₁, hb', hr₁, rfl⟩,
        rfl⟩, .swap b b' r₁⟩
  | trans _ _ ih₁ ih₂ =>
      obtain ⟨r₁, hr₁, hperm₁⟩ := ih₁ hr
      obtain ⟨r₂, hr₂, hperm₂⟩ := ih₂ hr₁
      exact ⟨r₂, hr₂, hperm₁.trans hperm₂⟩

/-- A session is loaded up to the order of its tokens, in whatever order the rows come. -/
theorem loadSession_same (h : db.SameRows db') (hs : db.loadSession row = .ok s) :
    ∃ s', db'.loadSession row = .ok s' ∧ s.Same s' := by
  obtain ⟨ts, hts, hs⟩ := loadSession_ok hs
  have hts : (db.refreshTokens.filter fun t => t.sessionId = row.sessionId).mapM
      refreshTokenFromRow = .ok ts := hts
  obtain ⟨ts', hts', hperm⟩ := mapM_perm (h.2.filter _) hts
  rw [sessionFromRows, except_bind_eq_ok] at hs
  obtain ⟨u, hu, hs⟩ := hs
  obtain rfl := Except.ok.inj hs
  refine ⟨_, except_bind_eq_ok.mpr ⟨ts', hts', except_bind_eq_ok.mpr ⟨u, hu, rfl⟩⟩, rfl, hperm⟩

/-- A session is found by the one row under its id, in whatever order the rows come. -/
theorem acquireSession_of_row (h : db.SameRows db') (hrow : row ∈ db.sessions)
    (huniq : ∀ r ∈ db.sessions, r.sessionId = row.sessionId → r = row) :
    db'.acquireSession row.sessionId = (db'.loadSession row).map some := by
  rw [Db.acquireSession]
  cases hfind : db'.sessions.find? fun r => r.sessionId = row.sessionId with
  | none =>
      rw [List.find?_eq_none] at hfind
      exact absurd (by simp) (hfind row (h.1.mem_iff.mp hrow))
  | some r =>
      have hid : r.sessionId = row.sessionId := by simpa using List.find?_some hfind
      rw [huniq r (h.1.mem_iff.mpr (List.mem_of_find?_eq_some hfind)) hid]

/-! ### Adding a session -/

/-- **The foreign key of `refresh_tokens`**: every token row belongs to a session row. -/
def Db.Referenced (db : Db) : Prop :=
  ∀ t ∈ db.refreshTokens, ∃ r ∈ db.sessions, r.sessionId = t.sessionId

/-- Every statement the database admits keeps the foreign key. -/
theorem Db.Referenced.apply (h : db.Referenced) {w : Write} (hw : db.admits w = true) :
    (db.apply w).Referenced := by
  have hinsert : ∀ t : RefreshTokenRow, (∃ r ∈ db.sessions, r.sessionId = t.sessionId) →
      ∀ t' ∈ db.refreshTokens ++ [t], ∃ r ∈ db.sessions, r.sessionId = t'.sessionId := by
    intro t ht t' ht'
    rcases List.mem_append.mp ht' with ht' | ht'
    · exact h t' ht'
    · rw [List.mem_singleton.mp ht']
      exact ht
  cases w with
  | sessionInsert row =>
      intro t ht
      obtain ⟨r, hr, hid⟩ := h t ht
      exact ⟨r, List.mem_append_left _ hr, hid⟩
  | sessionUpdate sid isRevoked expiresAt =>
      intro t ht
      obtain ⟨r, hr, hid⟩ := h t ht
      refine ⟨_, List.mem_map_of_mem hr, ?_⟩
      rw [← hid]
      split
      · rfl
      · rfl
  | tokenInsert row =>
      rw [Db.admits, Bool.and_eq_true, List.any_eq_true] at hw
      obtain ⟨-, r, hr, hid⟩ := hw
      exact hinsert row ⟨r, hr, of_decide_eq_true hid⟩
  | tokenUpsert row =>
      rw [Db.admits, Bool.or_eq_true, Bool.and_eq_true, List.any_eq_true] at hw
      intro t ht
      change t ∈ upsertToken db.refreshTokens row at ht
      rw [upsertToken] at ht
      split at ht
      · obtain ⟨t', ht', rfl⟩ := List.mem_map.mp ht
        obtain ⟨r, hr, hid⟩ := h t' ht'
        refine ⟨r, hr, hid.trans ?_⟩
        split
        · rfl
        · rfl
      · rename_i hnone
        rcases hw with ⟨r, hr, hid⟩ | ⟨-, hany⟩
        · exact absurd (List.any_eq_true.mpr ⟨r, hr, hid⟩) hnone
        · obtain ⟨r, hr, hid⟩ := List.any_eq_true.mp hany
          exact hinsert row ⟨r, hr, of_decide_eq_true hid⟩ t ht
  | _ => exact h

/-- The tables after the statements of `add`. -/
theorem view_addSession (db : Db) (s : SessionAggregate) :
    (RowLocks.view Db.apply db (addSessionWrites s)).sessions = db.sessions ++ [sessionToRow s] ∧
      (RowLocks.view Db.apply db (addSessionWrites s)).refreshTokens =
        db.refreshTokens ++ s.refreshTokens.map (refreshTokenToRow s.sessionId) := by
  have htokens : ∀ (ts : List RefreshToken) (db : Db),
      (RowLocks.view Db.apply db (ts.map fun t =>
        .tokenInsert (refreshTokenToRow s.sessionId t))).sessions = db.sessions ∧
      (RowLocks.view Db.apply db (ts.map fun t =>
        .tokenInsert (refreshTokenToRow s.sessionId t))).refreshTokens =
          db.refreshTokens ++ ts.map (refreshTokenToRow s.sessionId) := by
    intro ts
    induction ts with
    | nil => exact fun db => ⟨rfl, (List.append_nil _).symm⟩
    | cons t ts ih =>
        intro db
        obtain ⟨h₁, h₂⟩ := ih (db.apply (.tokenInsert (refreshTokenToRow s.sessionId t)))
        exact ⟨h₁, h₂.trans (List.append_assoc _ _ _)⟩
  exact htokens s.refreshTokens (db.apply (.sessionInsert (sessionToRow s)))

/-- The row of a token is read back. -/
theorem refreshTokenFromRow_toRow (sid : Uuid) (t : RefreshToken) :
    refreshTokenFromRow (refreshTokenToRow sid t) = .ok t := by
  rw [refreshTokenFromRow, refreshTokenToRow, TokenHash.make_value]
  rfl

/-- **What `add` has written is read back**, when every token row belonged to a session before. -/
theorem acquireSession_add (hforeign : db.Referenced) (hadmits : db.admitsAll (addSessionWrites s) = true)
    (h : (RowLocks.view Db.apply db (addSessionWrites s)).SameRows db') :
    ∃ s', db'.acquireSession s.sessionId = .ok (some s') ∧ { s with events := [] }.Same s' := by
  obtain ⟨hsessions, htokens⟩ := view_addSession db s
  have hnew : ∀ r ∈ db.sessions, r.sessionId ≠ s.sessionId := by
    have hadmit : db.admits (.sessionInsert (sessionToRow s)) = true :=
      (Bool.and_eq_true_iff.mp hadmits).1
    rw [Db.admits, Bool.and_eq_true, Bool.not_eq_true', List.any_eq_false] at hadmit
    exact fun r hr hid => hadmit.1 r hr (decide_eq_true hid)
  have hload : (RowLocks.view Db.apply db (addSessionWrites s)).loadSession (sessionToRow s) =
      .ok { s with events := [] } := by
    have hold : (db.refreshTokens.filter fun t => t.sessionId = s.sessionId) = [] := by
      rw [List.filter_eq_nil_iff]
      intro t ht hid
      obtain ⟨r, hr, hrt⟩ := hforeign t ht
      exact hnew r hr (hrt.trans (by simpa using hid))
    have hmap : ∀ ts : List RefreshToken,
        ((ts.map (refreshTokenToRow s.sessionId)).filter fun t => t.sessionId = s.sessionId).mapM
          refreshTokenFromRow = .ok ts := by
      intro ts
      induction ts with
      | nil => rfl
      | cons t ts ih =>
          rw [List.map_cons, List.filter_cons_of_pos (by simp [refreshTokenToRow]), mapM_cons_ok]
          exact ⟨t, ts, refreshTokenFromRow_toRow _ t, ih, rfl⟩
    refine except_bind_eq_ok.mpr ⟨s.refreshTokens, ?_, ?_⟩
    · rw [Db.tokensOf, htokens, List.filter_append]
      change ((db.refreshTokens.filter fun t => decide (t.sessionId = s.sessionId)) ++ _).mapM _ = _
      rw [hold, List.nil_append]
      exact hmap s.refreshTokens
    · rw [sessionFromRows]
      simp only [sessionToRow, UserID.make_value]
      rfl
  have hfind := @acquireSession_of_row _ _ (sessionToRow s) h (by simp [hsessions]) (by
    intro r hr hid
    rw [hsessions, List.mem_append, List.mem_singleton] at hr
    exact hr.resolve_left fun hr => hnew r hr hid)
  obtain ⟨s', hs', hsame⟩ := loadSession_same h hload
  exact ⟨s', by rw [show s.sessionId = (sessionToRow s).sessionId from rfl, hfind, hs']; rfl, hsame⟩

/-! ### Updating a session -/

/-- **What `update` leaves** of the two tables. -/
structure SessionUpdated (db db' : Db) (s : SessionAggregate) : Prop where
  /-- The stored session is revoked and expires as the aggregate. -/
  session : ∀ row ∈ db'.sessions, row.sessionId = s.sessionId →
    row.isRevoked = s.isRevoked ∧ row.expiresAt = s.expiresAt
  /-- It is still stored, with its other columns. -/
  kept : ∀ old ∈ db.sessions, old.sessionId = s.sessionId →
    old.set s.isRevoked s.expiresAt ∈ db'.sessions
  otherSessions : (db'.sessions.filter fun r => r.sessionId ≠ s.sessionId) =
    db.sessions.filter fun r => r.sessionId ≠ s.sessionId
  /-- Every token of the aggregate, the last under its id, is stored as it is there; a new one with
  all its columns, one that was stored with the others it had. -/
  token : ∀ before t after, s.refreshTokens = before ++ t :: after →
    (∀ t' ∈ after, t'.id ≠ t.id) → ∃ row, db'.token t.id = some row ∧
      row.isRevoked = t.isRevoked ∧ row.expiresAt = t.expiresAt ∧
      ((∀ t' ∈ before, t'.id ≠ t.id) →
        (db.token t.id = none → row = refreshTokenToRow s.sessionId t) ∧
        ∀ old, db.token t.id = some old → row = old.set t.isRevoked t.expiresAt)
  otherTokens : (db'.refreshTokens.filter fun r => r.id ∉ s.refreshTokens.map RefreshToken.id) =
    db.refreshTokens.filter fun r => r.id ∉ s.refreshTokens.map RefreshToken.id

/-- The statement of `update` for a token. -/
def upsertOf (sid : Uuid) (t : RefreshToken) : Write := .tokenUpsert (refreshTokenToRow sid t)

/-- An upsert leaves the rows under other ids. -/
theorem filter_upsertToken {rows : List RefreshTokenRow} {row : RefreshTokenRow}
    {p : RefreshTokenRow → Bool} (hp : ∀ r, r.id = row.id → p r = false) :
    (upsertToken rows row).filter p = rows.filter p := by
  rw [upsertToken]
  split
  · refine Keyed.filter_map_of_left_out fun r => ?_
    by_cases hid : r.id = row.id
    · rw [if_pos hid]
      exact Or.inr ⟨hp r hid, hp _ hid⟩
    · exact Or.inl (if_neg hid)
  · rw [List.filter_append, List.filter_cons_of_neg (by simp [hp row rfl])]
    exact List.append_nil _

/-- Upserts under other ids leave a row. -/
theorem foldl_upsert_ne {sid x : Uuid} {ts : List RefreshToken} (h : ∀ t ∈ ts, t.id ≠ x)
    (old : Option RefreshTokenRow) :
    (ts.map (upsertOf sid)).foldl (fun old w => w.onToken x old) old = old := by
  induction ts with
  | nil => rfl
  | cons t ts ih =>
      rw [List.map_cons, List.foldl_cons,
        show (upsertOf sid t).onToken x old = old from if_neg (Ne.symm (h t List.mem_cons_self))]
      exact ih fun t' ht' => h t' (List.mem_cons_of_mem _ ht')

/-- **What the statements of `update` leave.** -/
theorem view_updateSession (db : Db) (s : SessionAggregate) :
    SessionUpdated db (RowLocks.view Db.apply db (updateSessionWrites s)) s := by
  set db₁ := db.apply (.sessionUpdate s.sessionId s.isRevoked s.expiresAt) with hdb₁
  -- the upserts leave the sessions table
  have hupserts : ∀ (ts : List RefreshToken) (db : Db),
      (RowLocks.view Db.apply db (ts.map (upsertOf s.sessionId))).sessions = db.sessions := by
    intro ts
    induction ts with
    | nil => exact fun db => rfl
    | cons t ts ih => exact fun db => ih (db.apply (upsertOf s.sessionId t))
  have hsessions : (RowLocks.view Db.apply db (updateSessionWrites s)).sessions =
      db.sessions.map fun r =>
        if r.sessionId = s.sessionId then r.set s.isRevoked s.expiresAt else r :=
    hupserts s.refreshTokens db₁
  refine ⟨?_, ?_, ?_, ?_, ?_⟩
  · intro row hrow hid
    rw [hsessions] at hrow
    obtain ⟨r, -, rfl⟩ := List.mem_map.mp hrow
    split at hid
    · rename_i h
      rw [if_pos h]
      exact ⟨rfl, rfl⟩
    · rename_i h
      exact absurd hid h
  · intro old hold hid
    rw [hsessions]
    exact List.mem_map.mpr ⟨old, hold, if_pos hid⟩
  · rw [hsessions]
    refine Keyed.filter_map_of_left_out fun r => ?_
    by_cases hid : r.sessionId = s.sessionId
    · rw [if_pos hid]
      exact Or.inr ⟨by simp [hid], by simp [SessionRow.set, hid]⟩
    · exact Or.inl (if_neg hid)
  · intro before t after hts hafter
    have hrow : (RowLocks.view Db.apply db (updateSessionWrites s)).token t.id =
        (upsertOf s.sessionId t).onToken t.id
          ((before.map (upsertOf s.sessionId)).foldl (fun old w => w.onToken t.id old)
            (db.token t.id)) := by
      rw [view_token]
      change (s.refreshTokens.map (upsertOf s.sessionId)).foldl _ (db.token t.id) = _
      rw [hts, List.map_append, List.foldl_append, List.map_cons, List.foldl_cons,
        foldl_upsert_ne hafter]
    rw [hrow]
    set mid := (before.map (upsertOf s.sessionId)).foldl (fun old w => w.onToken t.id old)
      (db.token t.id) with hmid
    have hkept : (∀ t' ∈ before, t'.id ≠ t.id) → mid = db.token t.id :=
      fun hbefore => foldl_upsert_ne hbefore _
    refine ⟨_, if_pos rfl, ?_⟩
    cases hm : mid with
    | none =>
        refine ⟨rfl, rfl, fun hbefore => ⟨fun _ => rfl, fun old hold => ?_⟩⟩
        rw [← hkept hbefore, hm] at hold
        cases hold
    | some r =>
        refine ⟨rfl, rfl, fun hbefore => ⟨fun hnone => ?_, fun old hold => ?_⟩⟩
        · rw [← hkept hbefore, hm] at hnone
          cases hnone
        · rw [← hkept hbefore, hm] at hold
          cases hold
          rfl
  · have hfilter : ∀ (ts : List RefreshToken) (db : Db),
        (∀ t ∈ ts, t.id ∈ s.refreshTokens.map RefreshToken.id) →
        ((RowLocks.view Db.apply db (ts.map (upsertOf s.sessionId))).refreshTokens.filter fun r =>
          r.id ∉ s.refreshTokens.map RefreshToken.id) =
          db.refreshTokens.filter fun r => r.id ∉ s.refreshTokens.map RefreshToken.id := by
      intro ts
      induction ts with
      | nil => exact fun db _ => rfl
      | cons t ts ih =>
          intro db hmem
          refine (ih (db.apply (upsertOf s.sessionId t))
            fun t' ht' => hmem t' (List.mem_cons_of_mem _ ht')).trans ?_
          refine filter_upsertToken fun r hr => ?_
          rw [decide_eq_false_iff_not, not_not, hr]
          exact hmem t List.mem_cons_self
    exact hfilter s.refreshTokens db₁ fun t ht => List.mem_map_of_mem ht

/-! ### The sessions of a user -/

/-- **The batch agrees with the single reads**: it succeeds just when every unrevoked session of the
user can be read, and returns these sessions, each as it is read by its id. -/
def BatchAgrees (db db' : Db) (x : Uuid) : Prop :=
  ((∃ ss, db.acquireSessionsOf x = .ok ss) ↔
      ∀ row ∈ db.sessions, row.userId = x → row.isRevoked = false →
        ∃ s, db'.acquireSession row.sessionId = .ok (some s)) ∧
    ∀ ss, db.acquireSessionsOf x = .ok ss →
      ss.map SessionAggregate.sessionId =
        (db.sessions.filter fun r => r.userId = x && !r.isRevoked).map SessionRow.sessionId ∧
      ∀ s ∈ ss, ∃ s', db'.acquireSession s.sessionId = .ok (some s') ∧ s.Same s'

/-- The tokens of a batch, each of which belongs to a session that can be loaded, can be loaded. -/
theorem refreshTokensFor_ok {rows : List SessionRow}
    (h : ∀ row ∈ rows, ∃ ts, db.tokensOf row.sessionId = .ok ts) :
    ∃ g, db.refreshTokensFor (rows.map SessionRow.sessionId) = .ok g := by
  refine mapM_ok fun t ht => ?_
  obtain ⟨ht, hin⟩ := List.mem_filter.mp ht
  obtain ⟨row, hrow, hid⟩ := List.mem_map.mp (List.contains_iff_mem.mp hin)
  obtain ⟨ts, hts⟩ := h row hrow
  obtain ⟨token, -, htoken⟩ := mapM_ok_of_mem hts
    (List.mem_filter.mpr ⟨ht, decide_eq_true hid.symm⟩)
  exact ⟨_, except_bind_eq_ok.mpr ⟨token, htoken, rfl⟩⟩

/-- What a batch loads for a session is what its own read loads. -/
theorem loadSession_of_batch {ids : List Uuid} {g : List (Uuid × RefreshToken)}
    (hg : db.refreshTokensFor ids = .ok g) (hid : row.sessionId ∈ ids) :
    sessionFromRows row ((g.filter fun p => p.1 = row.sessionId).map Prod.snd) =
      db.loadSession row := by
  have htokens : db.tokensOf row.sessionId =
      .ok ((g.filter fun p => p.1 = row.sessionId).map Prod.snd) := tokens_of_batch hid hg
  rw [Db.loadSession, htokens]
  rfl

/-- The batched read loads each unrevoked session of the user. -/
theorem acquireSessionsOf_eq {x : Uuid} {ss : List SessionAggregate} :
    db.acquireSessionsOf x = .ok ss ↔
      (db.sessions.filter fun r => r.userId = x && !r.isRevoked).mapM db.loadSession =
        .ok ss := by
  rw [Db.acquireSessionsOf]
  generalize (db.sessions.filter fun r => r.userId = x && !r.isRevoked) = rows
  split
  · rename_i hempty
    rw [List.isEmpty_iff.mp hempty]
    rfl
  · have hsame : ∀ {g}, db.refreshTokensFor (rows.map SessionRow.sessionId) = .ok g →
        rows.mapM (fun row =>
          sessionFromRows row ((g.filter fun p => p.1 = row.sessionId).map Prod.snd)) =
          rows.mapM db.loadSession := fun hg =>
      mapM_congr fun row hrow => loadSession_of_batch hg (List.mem_map_of_mem hrow)
    rw [except_bind_eq_ok]
    constructor
    · rintro ⟨g, hg, hss⟩
      rw [hsame hg] at hss
      exact hss
    · intro hss
      have htokens : ∀ row ∈ rows, ∃ ts, db.tokensOf row.sessionId = .ok ts := fun row hrow => by
        obtain ⟨s, -, hs⟩ := mapM_ok_of_mem hss hrow
        obtain ⟨ts, hts, -⟩ := loadSession_ok hs
        exact ⟨ts, hts⟩
      obtain ⟨g, hg⟩ := refreshTokensFor_ok htokens
      refine ⟨g, hg, ?_⟩
      rw [hsame hg]
      exact hss

/-- **`acquire_by_user_id` is `acquire_by_session_id`** for each unrevoked session of the user. -/
theorem acquireSessionsOf_agrees (hkey : (db.sessions.map SessionRow.sessionId).Nodup)
    (h : db.SameRows db') (x : Uuid) : BatchAgrees db db' x := by
  set rows := db.sessions.filter fun r => r.userId = x && !r.isRevoked with hrows
  have hmem : ∀ row, row ∈ rows ↔ row ∈ db.sessions ∧ row.userId = x ∧ row.isRevoked = false := by
    intro row
    rw [hrows, List.mem_filter, Bool.and_eq_true, decide_eq_true_eq, Bool.not_eq_true']
  have hread : ∀ row ∈ db.sessions,
      db'.acquireSession row.sessionId = (db'.loadSession row).map some := fun row hrow =>
    acquireSession_of_row h hrow fun r hr hid => List.inj_on_of_nodup_map hkey hr hrow hid
  have hloads : ∀ row ∈ db.sessions,
      (∃ s, db.loadSession row = .ok s) ↔ ∃ s, db'.acquireSession row.sessionId = .ok (some s) := by
    intro row hrow
    rw [hread row hrow]
    constructor
    · rintro ⟨s, hs⟩
      obtain ⟨s', hs', -⟩ := loadSession_same h hs
      exact ⟨s', by rw [hs']; rfl⟩
    · rintro ⟨s', hs'⟩
      cases hl : db'.loadSession row with
      | error e =>
          rw [hl] at hs'
          cases hs'
      | ok s =>
          obtain ⟨s'', hs'', -⟩ := loadSession_same h.symm hl
          exact ⟨s'', hs''⟩
  have hbatch := @acquireSessionsOf_eq db x
  rw [← hrows] at hbatch
  refine ⟨?_, fun ss hss => ?_⟩
  · constructor
    · rintro ⟨ss, hss⟩ row hrow hx hrev
      obtain ⟨s, -, hs⟩ := mapM_ok_of_mem (hbatch.mp hss) ((hmem row).mpr ⟨hrow, hx, hrev⟩)
      exact (hloads row hrow).mp ⟨s, hs⟩
    · intro hall
      obtain ⟨ss, hss⟩ := mapM_ok (f := db.loadSession) (l := rows) fun row hrow => by
        obtain ⟨hrow, hx, hrev⟩ := (hmem row).mp hrow
        exact (hloads row hrow).mpr (hall row hrow hx hrev)
      exact ⟨ss, hbatch.mpr hss⟩
  · have hss := hbatch.mp hss
    have hid : ∀ row s, db.loadSession row = .ok s → s.sessionId = row.sessionId := by
      intro row s hs
      obtain ⟨ts, -, hs⟩ := loadSession_ok hs
      exact (sessionFromRows_ok hs).1
    refine ⟨map_of_mapM_ok hid hss, fun s hs => ?_⟩
    obtain ⟨row, hrow, hl⟩ := mem_mapM_ok hss hs
    obtain ⟨s', hs', hsame⟩ := loadSession_same h hl
    refine ⟨s', ?_, hsame⟩
    rw [hid row s hl, hread row ((hmem row).mp hrow).1, hs']
    rfl

/-- **The loading paths of sessions agree and lose nothing.** A session that `add` has written is read
back by its id, from the rows in any order, as it was; what `update` leaves is the aggregate's, and
nothing else changes; and reading all sessions of a user returns the unrevoked ones, each as it is
read by its id. -/
theorem session_paths_agree {ι : Type} [Fintype ι] [DecidableEq ι] (env : Env) (ch : Choice)
    (i : ι) (w w' : World ι) (s : SessionAggregate) :
    ((w.view i).Referenced → exec env ch i (.addSession s) w = some (.ok (), w') →
      ∀ db', (w'.view i).SameRows db' →
        ∃ s', db'.acquireSession s.sessionId = .ok (some s') ∧ { s with events := [] }.Same s') ∧
    (exec env ch i (.updateSession s) w = some (.ok (), w') →
      SessionUpdated (w.view i) (w'.view i) s) ∧
    ∀ (db db' : Db) (x : Uuid), (db.sessions.map SessionRow.sessionId).Nodup → db.SameRows db' →
      BatchAgrees db db' x := by
  have hview : ∀ ws, (w.issue i ws).view i = RowLocks.view Db.apply (w.view i) ws := by
    intro ws
    rw [view_eq, issue_pending, Function.update_self, RowLocks.view_append]
    rfl
  refine ⟨fun hforeign h db' hrows => ?_, fun h => ?_, fun db db' x hkey hrows => ?_⟩
  · rcases exec_addSession h with ⟨hx, -⟩ | ⟨-, -, hadmits, rfl⟩
    · cases hx
    · rw [hview] at hrows
      exact acquireSession_add hforeign hadmits hrows
  · rcases exec_updateSession h with ⟨hx, -⟩ | ⟨-, -, -, rfl⟩
    · cases hx
    · rw [hview]
      exact view_updateSession (w.view i) s
  · exact acquireSessionsOf_agrees hkey hrows x

open Reference

/-- A second session of the account, with two tokens, one of them spent. -/
def secondSession : SessionAggregate where
  sessionId := 0x2c9e1f705b3d4e88a1c40000000000c2
  userId := ⟨aliceId, by decide⟩
  deviceInfo := { userAgent := some "curl/8", ipAddress := some "192.0.2.7" }
  createdAt := clock
  expiresAt := clock + seconds 2592000
  refreshTokens :=
    [⟨⟨[1], by decide⟩, 0x2c9e1f705b3d4e88a1c40000000000d2, clock + seconds 604800, true, clock⟩,
      ⟨⟨[2], by decide⟩, 0x2c9e1f705b3d4e88a1c40000000000d3, clock + seconds 604800, false, clock⟩]

/-- The tables once the second session is added. -/
def withSecond : Db := RowLocks.view Db.apply (tables (alice false) true) (addSessionWrites secondSession)

/-- The second session is added and read back; it is revoked; and both sessions are read. -/
theorem second_session_kept :
    (∃ w', exec Reference.env {} () (.addSession secondSession)
        (world Unit (tables (alice false) true)) = some (.ok (), w') ∧
      ∃ s', (w'.view ()).acquireSession secondSession.sessionId = .ok (some s') ∧
        secondSession.Same s') ∧
    (∃ w', exec Reference.env {} () (.updateSession { secondSession with isRevoked := true })
        (world Unit withSecond) = some (.ok (), w') ∧
      SessionUpdated withSecond (w'.view ()) { secondSession with isRevoked := true }) ∧
    BatchAgrees withSecond withSecond aliceId := by
  have hpaths := fun db => session_paths_agree (ι := Unit) Reference.env {} () (world Unit db)
  refine ⟨⟨_, rfl, ?_⟩, ⟨_, rfl, ?_⟩, ?_⟩
  · refine (hpaths (tables (alice false) true) _ secondSession).1 ?_ rfl _ ⟨.refl _, .refl _⟩
    intro t ht
    obtain rfl := List.mem_singleton.mp ht
    exact ⟨session, List.mem_singleton.mpr rfl, rfl⟩
  · exact (hpaths withSecond _ _).2.1 rfl
  · exact (hpaths {} (world Unit {}) secondSession).2.2 _ _ aliceId (by decide) ⟨.refl _, .refl _⟩

end BackendTemplate
