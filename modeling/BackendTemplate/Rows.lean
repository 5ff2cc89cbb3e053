import BackendTemplate.Keyed
import BackendTemplate.RowLocks
import BackendTemplate.Tables

/-!
# The Tables, One Row at a Time

The three tables the results speak of, seen through their primary keys: `Db.user`,
`Db.session` and `Db.token` look a row up, the `apply_*` lemmas say what each statement
does to one row, and the `*_guarded` lemmas say that a row changes only under its lock, so
that the general facts of `RowLocks` apply to it.
-/

namespace BackendTemplate

/-- The users row with this id. -/
def Db.user (db : Db) (x : Uuid) : Option UserRow := Keyed.lookup UserRow.id db.users x

/-- The sessions row with this id. -/
def Db.session (db : Db) (x : Uuid) : Option SessionRow :=
  Keyed.lookup SessionRow.sessionId db.sessions x

/-- The refresh_tokens row with this id. -/
def Db.token (db : Db) (x : Uuid) : Option RefreshTokenRow :=
  Keyed.lookup RefreshTokenRow.id db.refreshTokens x

/-- **Primary keys are unique.** -/
structure Db.Keyed (db : Db) : Prop where
  users : (db.users.map UserRow.id).Nodup
  sessions : (db.sessions.map SessionRow.sessionId).Nodup
  tokens : (db.refreshTokens.map RefreshTokenRow.id).Nodup

theorem Db.Keyed.mem_users {db : Db} (h : db.Keyed) {r : UserRow} :
    r ∈ db.users ↔ db.user r.id = some r := Keyed.mem_iff_lookup h.users

theorem Db.Keyed.mem_sessions {db : Db} (h : db.Keyed) {r : SessionRow} :
    r ∈ db.sessions ↔ db.session r.sessionId = some r := Keyed.mem_iff_lookup h.sessions

theorem Db.Keyed.mem_tokens {db : Db} (h : db.Keyed) {r : RefreshTokenRow} :
    r ∈ db.refreshTokens ↔ db.token r.id = some r := Keyed.mem_iff_lookup h.tokens

/-! ### What a statement does to one row -/

/-- The users row under `x` after a statement. -/
def Write.onUser (x : Uuid) (old : Option UserRow) : Write → Option UserRow
  | .userInsert row => old.or (if row.id = x then some row else none)
  | .userUpdate row => if x = row.id then old.map fun _ => row else old
  | _ => old

/-- The sessions row under `x` after a statement. -/
def Write.onSession (x : Uuid) (old : Option SessionRow) : Write → Option SessionRow
  | .sessionInsert row => old.or (if row.sessionId = x then some row else none)
  | .sessionUpdate sid isRevoked expiresAt =>
      if x = sid then old.map fun r => r.set isRevoked expiresAt else old
  | _ => old

/-- The refresh_tokens row under `x` after a statement. -/
def Write.onToken (x : Uuid) (old : Option RefreshTokenRow) : Write → Option RefreshTokenRow
  | .tokenInsert row => old.or (if row.id = x then some row else none)
  | .tokenUpsert row =>
      if x = row.id then some (match old with
        | some r => r.set row.isRevoked row.expiresAt
        | none => row)
      else old
  | _ => old

theorem apply_user (db : Db) (w : Write) (x : Uuid) :
    (db.apply w).user x = w.onUser x (db.user x) := by
  cases w with
  | userInsert row => exact Keyed.lookup_append row x
  | userUpdate row => exact Keyed.lookup_modify UserRow.id (fun _ _ => rfl) x
  | _ => rfl

theorem apply_session (db : Db) (w : Write) (x : Uuid) :
    (db.apply w).session x = w.onSession x (db.session x) := by
  cases w with
  | sessionInsert row => exact Keyed.lookup_append row x
  | sessionUpdate sid isRevoked expiresAt =>
      exact Keyed.lookup_modify SessionRow.sessionId
        (f := fun r : SessionRow => r.set isRevoked expiresAt) (fun _ h => h) x
  | _ => rfl

/-- An upsert changes the row under its key or adds one. -/
theorem lookup_upsertToken (rows : List RefreshTokenRow) (row : RefreshTokenRow) (x : Uuid) :
    Keyed.lookup RefreshTokenRow.id (upsertToken rows row) x =
      Write.onToken x (Keyed.lookup RefreshTokenRow.id rows x) (.tokenUpsert row) := by
  rw [upsertToken]
  split
  · rename_i hany
    rw [List.any_eq_true] at hany
    obtain ⟨r, hr, hid⟩ := hany
    have hid : r.id = row.id := by simpa using hid
    refine (Keyed.lookup_modify RefreshTokenRow.id
      (f := fun r : RefreshTokenRow => r.set row.isRevoked row.expiresAt)
      (fun _ h => h) x).trans ?_
    simp only [Write.onToken]
    by_cases hx : x = row.id
    · obtain ⟨r', hr'⟩ := Keyed.exists_lookup RefreshTokenRow.id hr
      rw [hid, ← hx] at hr'
      rw [if_pos hx, if_pos hx, hr']
      rfl
    · rw [if_neg hx, if_neg hx]
  · rename_i hany
    have hnone : Keyed.lookup RefreshTokenRow.id rows row.id = none := by
      rw [Keyed.lookup_eq_none, List.mem_map]
      rintro ⟨r, hr, hid⟩
      exact hany (List.any_eq_true.mpr ⟨r, hr, by simpa using hid⟩)
    rw [Keyed.lookup_append]
    simp only [Write.onToken]
    by_cases hx : x = row.id
    · subst hx
      simp [hnone]
    · rw [if_neg hx, if_neg (Ne.symm hx), Option.or_none]

theorem apply_token (db : Db) (w : Write) (x : Uuid) :
    (db.apply w).token x = w.onToken x (db.token x) := by
  cases w with
  | tokenInsert row => exact Keyed.lookup_append row x
  | tokenUpsert row => exact lookup_upsertToken db.refreshTokens row x
  | _ => rfl

/-- The row under a key after a sequence of statements. -/
theorem view_token (db : Db) (ws : List Write) (x : Uuid) :
    (RowLocks.view Db.apply db ws).token x =
      ws.foldl (fun old w => w.onToken x old) (db.token x) := by
  induction ws generalizing db with
  | nil => rfl
  | cons w ws ih => rw [RowLocks.view, List.foldl_cons, ← RowLocks.view, ih, apply_token]; rfl

/-! ### Rows change only under their lock -/

theorem user_guarded (x : Uuid) :
    RowLocks.Guards Db.apply Write.keys (.user x) fun db => db.user x := by
  intro db w hk
  change (db.apply w).user x = db.user x
  rw [apply_user]
  cases w with
  | userInsert row =>
      have : row.id ≠ x := fun h => hk (by simp [Write.keys, h])
      simp [Write.onUser, this]
  | userUpdate row =>
      have : x ≠ row.id := fun h => hk (by simp [Write.keys, h])
      simp [Write.onUser, this]
  | _ => rfl

theorem session_guarded (x : Uuid) :
    RowLocks.Guards Db.apply Write.keys (.session x) fun db => db.session x := by
  intro db w hk
  change (db.apply w).session x = db.session x
  rw [apply_session]
  cases w with
  | sessionInsert row =>
      have : row.sessionId ≠ x := fun h => hk (by simp [Write.keys, h])
      simp [Write.onSession, this]
  | sessionUpdate sid isRevoked expiresAt =>
      have : x ≠ sid := fun h => hk (by simp [Write.keys, h])
      simp [Write.onSession, this]
  | _ => rfl

theorem token_guarded (x : Uuid) :
    RowLocks.Guards Db.apply Write.keys (.token x) fun db => db.token x := by
  intro db w hk
  change (db.apply w).token x = db.token x
  rw [apply_token]
  cases w with
  | tokenInsert row =>
      have : row.id ≠ x := fun h => hk (by simp [Write.keys, h])
      simp [Write.onToken, this]
  | tokenUpsert row =>
      have : x ≠ row.id := fun h => hk (by simp [Write.keys, h])
      simp [Write.onToken, this]
  | _ => rfl

end BackendTemplate
