import BackendTemplate.Reference
import BackendTemplate.Transactions

/-!
# Primary Keys and Drawn Ids Along a Run

Every id the service stores is drawn from `uuid4`, which never repeats a draw. So, in
every reachable configuration, primary keys are unique, an id in the tables belongs to a
request that has committed or was there before the run, and a session that a request has
read still has its rows, whatever other requests have committed since (`Runs.minted`).

## Main results

* `keyed_view` — statements whose new ids are fresh keep primary keys unique.
* `Runs.minted` — the invariant.
* `Minted.upsert` — a pending upsert touches a token row of its own session, or brings an
  id its request has drawn.
-/

namespace BackendTemplate

open Atomic

variable {env : Env} {db : Db}

/-! ### Ids in the tables -/

/-- The id is a primary key of one of the tables. -/
def Db.Has (db : Db) (x : Uuid) : Prop :=
  x ∈ db.users.map UserRow.id ∨ x ∈ db.sessions.map SessionRow.sessionId ∨
    x ∈ db.refreshTokens.map RefreshTokenRow.id

/-- The id of the row a statement may insert into `refresh_tokens`. -/
def Write.tokenId : Write → Option Uuid
  | .tokenInsert row | .tokenUpsert row => some row.id
  | _ => none

theorem apply_users_ids (db : Db) (w : Write) :
    (db.apply w).users.map UserRow.id = db.users.map UserRow.id ++ w.newUser.toList := by
  cases w with
  | userInsert row => simp [Db.apply, Write.newUser]
  | userUpdate row =>
      exact (Keyed.map_key_modify (f := fun _ => row) (fun _ _ => rfl)).trans
        (List.append_nil _).symm
  | _ => exact (List.append_nil _).symm

theorem apply_sessions_ids (db : Db) (w : Write) :
    (db.apply w).sessions.map SessionRow.sessionId =
      db.sessions.map SessionRow.sessionId ++ w.newSession.toList := by
  cases w with
  | sessionInsert row => simp [Db.apply, Write.newSession]
  | sessionUpdate sid isRevoked expiresAt =>
      refine Eq.trans ?_ (List.append_nil _).symm
      exact Keyed.map_key_modify (f := fun r : SessionRow => r.set isRevoked expiresAt)
        (fun _ h => h)
  | _ => exact (List.append_nil _).symm

/-- The ids of an upserted table. -/
theorem upsertToken_ids (rows : List RefreshTokenRow) (row : RefreshTokenRow) :
    (upsertToken rows row).map RefreshTokenRow.id =
      if row.id ∈ rows.map RefreshTokenRow.id then rows.map RefreshTokenRow.id
      else rows.map RefreshTokenRow.id ++ [row.id] := by
  have hiff : (rows.any fun r => r.id = row.id) = true ↔ row.id ∈ rows.map RefreshTokenRow.id := by
    rw [List.any_eq_true, List.mem_map]
    simp
  rw [upsertToken]
  by_cases h : row.id ∈ rows.map RefreshTokenRow.id
  · rw [if_pos (hiff.mpr h), if_pos h]
    exact Keyed.map_key_modify
      (f := fun r : RefreshTokenRow => r.set row.isRevoked row.expiresAt) (fun _ h => h)
  · rw [if_neg (mt hiff.mp h), if_neg h]
    simp

theorem mem_apply_tokens_ids {w : Write} {x : Uuid} :
    x ∈ (db.apply w).refreshTokens.map RefreshTokenRow.id ↔
      x ∈ db.refreshTokens.map RefreshTokenRow.id ∨ w.tokenId = some x := by
  cases w with
  | tokenInsert row =>
      simp only [Db.apply, Write.tokenId, List.map_append, List.mem_append, Option.some.injEq]
      simp [eq_comm]
  | tokenUpsert row =>
      change x ∈ (upsertToken db.refreshTokens row).map RefreshTokenRow.id ↔ _
      rw [upsertToken_ids]
      by_cases h : row.id ∈ db.refreshTokens.map RefreshTokenRow.id
      · rw [if_pos h]
        refine ⟨Or.inl, fun hx => ?_⟩
        rcases hx with hx | hx
        · exact hx
        · exact Option.some.inj hx ▸ h
      · rw [if_neg h, List.mem_append, List.mem_singleton]
        simp [Write.tokenId, eq_comm]
  | _ => simp [Db.apply, Write.tokenId]

/-- The ids a statement may bring into the tables. -/
def Write.Brings (w : Write) (x : Uuid) : Prop :=
  w.newUser = some x ∨ w.newSession = some x ∨ w.tokenId = some x

theorem has_apply {w : Write} {x : Uuid} : (db.apply w).Has x ↔ db.Has x ∨ w.Brings x := by
  rw [Db.Has, Db.Has, Write.Brings, apply_users_ids, apply_sessions_ids, mem_apply_tokens_ids,
    List.mem_append, List.mem_append]
  simp only [Option.mem_toList]
  tauto

/-- **The ids in the tables after a sequence of statements.** -/
theorem has_view {ws : List Write} {x : Uuid} :
    (RowLocks.view Db.apply db ws).Has x ↔ db.Has x ∨ ∃ w ∈ ws, w.Brings x := by
  induction ws generalizing db with
  | nil => simp
  | cons w ws ih =>
      have : RowLocks.view Db.apply db (w :: ws) = RowLocks.view Db.apply (db.apply w) ws := rfl
      rw [this, ih, has_apply, or_assoc]
      simp

/-- The statements whose inserts are fresh and do not meet each other. -/
structure FreshInserts (db : Db) (ws : List Write) : Prop where
  users : (ws.filterMap Write.newUser).Nodup
  sessions : (ws.filterMap Write.newSession).Nodup
  tokens : (ws.filterMap Write.newToken).Nodup
  newUser : ∀ x ∈ ws.filterMap Write.newUser, x ∉ db.users.map UserRow.id
  newSession : ∀ x ∈ ws.filterMap Write.newSession, x ∉ db.sessions.map SessionRow.sessionId
  newToken : ∀ x ∈ ws.filterMap Write.newToken, x ∉ db.refreshTokens.map RefreshTokenRow.id
  upsert : ∀ row, .tokenUpsert row ∈ ws → row.id ∉ ws.filterMap Write.newToken

theorem keyed_apply (h : db.Keyed) {w : Write}
    (hu : ∀ x, w.newUser = some x → x ∉ db.users.map UserRow.id)
    (hs : ∀ x, w.newSession = some x → x ∉ db.sessions.map SessionRow.sessionId)
    (ht : ∀ x, w.newToken = some x → x ∉ db.refreshTokens.map RefreshTokenRow.id) :
    (db.apply w).Keyed := by
  cases w with
  | userInsert row => exact ⟨Keyed.nodup_append h.users (hu _ rfl), h.sessions, h.tokens⟩
  | userUpdate row =>
      exact ⟨Keyed.nodup_modify (f := fun _ => row) (fun _ _ => rfl) h.users, h.sessions,
        h.tokens⟩
  | sessionInsert row => exact ⟨h.users, Keyed.nodup_append h.sessions (hs _ rfl), h.tokens⟩
  | sessionUpdate sid isRevoked expiresAt =>
      refine ⟨h.users, ?_, h.tokens⟩
      exact Keyed.nodup_modify (f := fun r : SessionRow => r.set isRevoked expiresAt)
        (fun _ h => h) h.sessions
  | tokenInsert row => exact ⟨h.users, h.sessions, Keyed.nodup_append h.tokens (ht _ rfl)⟩
  | tokenUpsert row =>
      refine ⟨h.users, h.sessions, ?_⟩
      change ((upsertToken db.refreshTokens row).map RefreshTokenRow.id).Nodup
      rw [upsertToken_ids]
      split
      · exact h.tokens
      · rename_i hn
        have := Keyed.nodup_append h.tokens hn
        rwa [List.map_append] at this
  | outboxInsert row => exact ⟨h.users, h.sessions, h.tokens⟩
  | auditInsert row => exact ⟨h.users, h.sessions, h.tokens⟩

theorem mem_filterMap_tail {f : Write → Option Uuid} {w : Write} {ws : List Write} {x : Uuid}
    (h : x ∈ ws.filterMap f) : x ∈ (w :: ws).filterMap f := by
  obtain ⟨w', hw', hx⟩ := List.mem_filterMap.mp h
  exact List.mem_filterMap.mpr ⟨w', List.mem_cons_of_mem _ hw', hx⟩

/-- An id that the first of several inserts brings is not brought again. -/
theorem head_ne_of_nodup {f : Write → Option Uuid} {w : Write} {ws : List Write} {x : Uuid}
    (h : ((w :: ws).filterMap f).Nodup) (hx : x ∈ ws.filterMap f) : f w ≠ some x := by
  intro hw
  rw [List.filterMap_cons_some hw] at h
  exact (List.nodup_cons.mp h).1 hx

theorem FreshInserts.tail {w : Write} {ws : List Write} (h : FreshInserts db (w :: ws)) :
    FreshInserts (db.apply w) ws where
  users := h.users.sublist ((List.sublist_cons_self w ws).filterMap _)
  sessions := h.sessions.sublist ((List.sublist_cons_self w ws).filterMap _)
  tokens := h.tokens.sublist ((List.sublist_cons_self w ws).filterMap _)
  newUser x hx := by
    rw [apply_users_ids, List.mem_append, Option.mem_toList]
    rintro (hold | hnew)
    · exact h.newUser x (mem_filterMap_tail hx) hold
    · exact head_ne_of_nodup h.users hx hnew
  newSession x hx := by
    rw [apply_sessions_ids, List.mem_append, Option.mem_toList]
    rintro (hold | hnew)
    · exact h.newSession x (mem_filterMap_tail hx) hold
    · exact head_ne_of_nodup h.sessions hx hnew
  newToken x hx := by
    rw [mem_apply_tokens_ids]
    rintro (hold | hnew)
    · exact h.newToken x (mem_filterMap_tail hx) hold
    · cases w with
      | tokenInsert row => exact head_ne_of_nodup h.tokens hx hnew
      | tokenUpsert row =>
          obtain rfl := Option.some.inj hnew
          exact h.upsert row List.mem_cons_self (mem_filterMap_tail hx)
      | _ => exact absurd hnew (by simp [Write.tokenId])
  upsert row hrow hx := h.upsert row (List.mem_cons_of_mem _ hrow) (mem_filterMap_tail hx)

/-- **Fresh inserts keep primary keys unique.** -/
theorem keyed_view (h : db.Keyed) {ws : List Write} (hf : FreshInserts db ws) :
    (RowLocks.view Db.apply db ws).Keyed := by
  induction ws generalizing db with
  | nil => exact h
  | cons w ws ih =>
      refine ih (keyed_apply h ?_ ?_ ?_) hf.tail
      · exact fun x hx => hf.newUser x (List.mem_filterMap.mpr ⟨w, List.mem_cons_self, hx⟩)
      · exact fun x hx => hf.newSession x (List.mem_filterMap.mpr ⟨w, List.mem_cons_self, hx⟩)
      · exact fun x hx => hf.newToken x (List.mem_filterMap.mpr ⟨w, List.mem_cons_self, hx⟩)

/-! ### Commits -/

/-- The statements a commit adds for the drained events touch none of the three tables. -/
theorem eventWrites_cases {rng : ℕ} {now : Instant} {es : List Event} {w : Write}
    (h : w ∈ eventWrites env rng now es) :
    (∃ row, w = .outboxInsert row) ∨ ∃ row, w = .auditInsert row := by
  rcases List.mem_append.mp h with h | h
  · obtain ⟨e, -, rfl⟩ := List.mem_map.mp h
    exact Or.inl ⟨_, rfl⟩
  · obtain ⟨e, -, he⟩ := List.mem_filterMap.mp h
    obtain ⟨row, -, rfl⟩ := Option.map_eq_some_iff.mp he
    exact Or.inr ⟨_, rfl⟩

/-- Statements on other tables leave the three tables alone. -/
theorem view_other {ws : List Write}
    (h : ∀ w ∈ ws, (∃ row, w = .outboxInsert row) ∨ ∃ row, w = .auditInsert row) :
    (RowLocks.view Db.apply db ws).users = db.users ∧
      (RowLocks.view Db.apply db ws).sessions = db.sessions ∧
      (RowLocks.view Db.apply db ws).refreshTokens = db.refreshTokens := by
  induction ws generalizing db with
  | nil => exact ⟨rfl, rfl, rfl⟩
  | cons w ws ih =>
      have hw : (db.apply w).users = db.users ∧ (db.apply w).sessions = db.sessions ∧
          (db.apply w).refreshTokens = db.refreshTokens := by
        rcases h w List.mem_cons_self with ⟨row, rfl⟩ | ⟨row, rfl⟩
        · exact ⟨rfl, rfl, rfl⟩
        · exact ⟨rfl, rfl, rfl⟩
      rw [← hw.1, ← hw.2.1, ← hw.2.2]
      exact ih fun w' hw' => h w' (List.mem_cons_of_mem _ hw')

section Runs

variable {ι : Type} [DecidableEq ι]

/-- **A commit makes the view of its request the committed state.** -/
theorem commit_tables (env : Env) (w : World ι) (i : ι) :
    (w.commit env i).db.users = (w.view i).users ∧
      (w.commit env i).db.sessions = (w.view i).sessions ∧
      (w.commit env i).db.refreshTokens = (w.view i).refreshTokens :=
  view_other fun _ hw => eventWrites_cases hw

theorem commit_user (env : Env) (w : World ι) (i : ι) (x : Uuid) :
    (w.commit env i).db.user x = (w.view i).user x := by
  rw [Db.user, Db.user, (commit_tables env w i).1]

theorem commit_session (env : Env) (w : World ι) (i : ι) (x : Uuid) :
    (w.commit env i).db.session x = (w.view i).session x := by
  rw [Db.session, Db.session, (commit_tables env w i).2.1]

theorem commit_token (env : Env) (w : World ι) (i : ι) (x : Uuid) :
    (w.commit env i).db.token x = (w.view i).token x := by
  rw [Db.token, Db.token, (commit_tables env w i).2.2]

theorem commit_has (env : Env) (w : World ι) (i : ι) (x : Uuid) :
    (w.commit env i).db.Has x ↔ (w.view i).Has x := by
  obtain ⟨h₁, h₂, h₃⟩ := commit_tables env w i
  rw [Db.Has, Db.Has, h₁, h₂, h₃]

theorem commit_keyed (env : Env) (w : World ι) (i : ι) (h : (w.view i).Keyed) :
    (w.commit env i).db.Keyed := by
  obtain ⟨h₁, h₂, h₃⟩ := commit_tables env w i
  exact ⟨h₁ ▸ h.users, h₂ ▸ h.sessions, h₃ ▸ h.tokens⟩

/-- What is known of a session stays known after a commit. -/
theorem known_commit {w : World ι} {s : SessionAggregate} (h : Known w.db s) (i : ι) :
    Known (w.commit env i).db s :=
  (h.view (w.pending i)).view (eventWrites env w.rng w.clock (w.txs i).events)

/-! ### The invariant -/

/-- **Ids and keys in a configuration.** -/
structure Minted (env : Env) (c : Cfg ι) : Prop where
  keyed : c.shared.db.Keyed
  drawn : ∀ i, ∀ x ∈ (did c i).drawn, ∃ n < c.shared.rng, x = env.uuid4 n
  apart : ∀ i j, ∀ x ∈ (did c i).drawn, x ∈ (did c j).drawn → i = j
  unborn : ∀ x, c.shared.db.Has x → ∀ n, c.shared.rng ≤ n → env.uuid4 n ≠ x
  owned : ∀ x, c.shared.db.Has x → ∀ i, x ∈ (did c i).drawn → (did c i).committed = true
  known : ∀ i, ∀ s ∈ (did c i).sessions, Known c.shared.db s

/-- A world the service can start in: no transaction is open, primary keys and token hashes
are unique, and no stored id will be drawn again. -/
structure Startable (env : Env) (w : World ι) : Prop where
  idle : ∀ i, w.pending i = []
  keyed : w.db.Keyed
  hashes : (w.db.refreshTokens.map RefreshTokenRow.tokenHash).Nodup
  unborn : ∀ x, w.db.Has x → ∀ n, w.rng ≤ n → env.uuid4 n ≠ x

/-- The service can be started over empty tables. -/
theorem empty_startable (env : Env) (ι : Type) : Startable env (Reference.world ι {}) where
  idle _ := rfl
  keyed := ⟨List.nodup_nil, List.nodup_nil, List.nodup_nil⟩
  hashes := List.nodup_nil
  unborn x hx := by
    rcases hx with hx | hx | hx
    · exact absurd hx List.not_mem_nil
    · exact absurd hx List.not_mem_nil
    · exact absurd hx List.not_mem_nil

/-- The reference worlds can be started in. -/
theorem reference_startable (ι : Type) {user : UserRow} (hid : user.id = Reference.aliceId)
    (signedIn : Bool) (cache : InMemoryCache) :
    Startable Reference.env
      (Reference.world ι (Reference.tables user signedIn) cache) := by
  have hfresh : ∀ x : ℕ, x < 0x6f1c3e528d0a4b7e9c21000000000000 →
      ∀ n, Reference.env.uuid4 n ≠ x := by
    intro x hx n hn
    have : 0x6f1c3e528d0a4b7e9c21000000000000 + n = x := hn
    omega
  cases signedIn with
  | false =>
      refine ⟨fun i => rfl, ⟨by simp [Reference.world, Reference.tables], List.nodup_nil,
        List.nodup_nil⟩, List.nodup_nil, fun x hx n _ => hfresh x ?_ n⟩
      rcases hx with hx | hx | hx
      · obtain rfl : x = user.id := by simpa [Reference.world, Reference.tables] using hx
        rw [hid]
        decide
      · exact absurd hx List.not_mem_nil
      · exact absurd hx List.not_mem_nil
  | true =>
      refine ⟨fun i => rfl, ⟨by simp [Reference.world, Reference.tables], List.nodup_singleton _,
        List.nodup_singleton _⟩, List.nodup_singleton _, fun x hx n _ => hfresh x ?_ n⟩
      rcases hx with hx | hx | hx
      · obtain rfl : x = user.id := by simpa [Reference.world, Reference.tables] using hx
        rw [hid]
        decide
      · obtain rfl : x = Reference.session.sessionId := List.mem_singleton.mp hx
        decide
      · obtain rfl : x = Reference.token.id := List.mem_singleton.mp hx
        decide

omit [DecidableEq ι] in
theorem minted_start (reqs : ι → Request) {w : World ι} (h : Startable env w) :
    Minted env (start env reqs w) where
  keyed := h.keyed
  drawn _ _ hx := absurd hx List.not_mem_nil
  apart _ _ _ hx := absurd hx List.not_mem_nil
  unborn := h.unborn
  owned _ _ _ hx := absurd hx List.not_mem_nil
  known _ _ hs := absurd hs List.not_mem_nil

/-- Only a draw adds a drawn id. -/
theorem note_drawn (p : Progress) {o : Op} (ho : o ≠ .uuid4) (x : o.Res) :
    (p.note o x).drawn = p.drawn := by
  cases o with
  | uuid4 => exact absurd rfl ho
  | acquireUser q =>
      match x with
      | .error e => rfl
      | .ok none => rfl
      | .ok (some u) => rfl
  | acquireSession sid =>
      match x with
      | .error e => rfl
      | .ok none => rfl
      | .ok (some s) => rfl
  | acquireSessionByToken hash =>
      match x with
      | .error e => rfl
      | .ok none => rfl
      | .ok (some s) => rfl
  | acquireSessionsOf u => cases x <;> rfl
  | cacheGet k => cases x <;> rfl
  | updateUser u => cases x <;> rfl
  | addUser u => cases x <;> rfl
  | addSession s => cases x <;> rfl
  | updateSession s => cases x <;> rfl
  | commit => cases x <;> rfl
  | _ => rfl

/-- A session read by a request is in the tables the request sees. -/
def Read (db : Db) (o : Op) (x : o.Res) (s : SessionAggregate) : Prop :=
  match o, x with
  | .acquireSession sid, _ => db.acquireSession sid = .ok (some s)
  | .acquireSessionByToken hash, _ => db.acquireSessionByToken hash = .ok (some s)
  | .acquireSessionsOf u, _ => ∃ ss, db.acquireSessionsOf u = .ok ss ∧ s ∈ ss
  | _, _ => False

theorem mem_note_sessions [Fintype ι] {p : Progress} {ch : Choice} {i : ι} {o : Op} {x : o.Res}
    {w w' : World ι} (he : exec env ch i o w = some (x, w')) {s : SessionAggregate}
    (hs : s ∈ (p.note o x).sessions) : s ∈ p.sessions ∨ Read (w.view i) o x s := by
  cases o with
  | acquireSession sid =>
      simp only [exec, Option.some.injEq, Prod.mk.injEq] at he
      obtain ⟨rfl, -⟩ := he
      cases hx : (w.view i).acquireSession sid with
      | error e =>
          rw [hx] at hs
          exact Or.inl hs
      | ok v =>
          rw [hx] at hs
          cases v with
          | none => exact Or.inl hs
          | some s' =>
              rcases List.mem_cons.mp hs with rfl | hs
              · exact Or.inr hx
              · exact Or.inl hs
  | acquireSessionByToken hash =>
      simp only [exec, Option.some.injEq, Prod.mk.injEq] at he
      obtain ⟨rfl, -⟩ := he
      cases hx : (w.view i).acquireSessionByToken hash with
      | error e =>
          rw [hx] at hs
          exact Or.inl hs
      | ok v =>
          rw [hx] at hs
          cases v with
          | none => exact Or.inl hs
          | some s' =>
              rcases List.mem_cons.mp hs with rfl | hs
              · exact Or.inr hx
              · exact Or.inl hs
  | acquireSessionsOf u =>
      simp only [exec, Option.some.injEq, Prod.mk.injEq] at he
      obtain ⟨rfl, -⟩ := he
      cases hx : (w.view i).acquireSessionsOf u with
      | error e =>
          rw [hx] at hs
          exact Or.inl hs
      | ok ss =>
          rw [hx] at hs
          rcases List.mem_append.mp hs with hs | hs
          · exact Or.inr ⟨ss, hx, hs⟩
          · exact Or.inl hs
  | acquireUser q =>
      rcases x with e | _ | s <;> exact Or.inl hs
  | cacheGet k => cases x <;> exact Or.inl hs
  | updateUser u => cases x <;> exact Or.inl hs
  | addUser u => cases x <;> exact Or.inl hs
  | addSession s => cases x <;> exact Or.inl hs
  | updateSession s => cases x <;> exact Or.inl hs
  | commit => cases x <;> exact Or.inl hs
  | _ => exact Or.inl hs

omit [DecidableEq ι] in
/-- **A session is read as the committed tables hold it**: the request has written no
session of its own by then. -/
theorem Read.loads {c : Cfg ι} {i : ι} {r : Request} {a : Act Response} {o : Op} {x : o.Res}
    {s : SessionAggregate} (h : Read (c.shared.view i) o x s) (hs : Sound env c)
    (ht : c.threads i = .running a) (hal : Allowed env r (did c i) o)
    (hk : c.shared.db.Keyed) : Loads c.shared.db s := by
  have hview : (did c i).added = none → (did c i).updated = [] →
      (c.shared.view i).sessions = c.shared.db.sessions ∧
        (c.shared.view i).refreshTokens = c.shared.db.refreshTokens :=
    fun h₁ h₂ => view_sessions_eq ((hs.running i a ht).no_session h₁ h₂)
  cases o with
  | acquireSession sid =>
      obtain ⟨h₁, h₂⟩ := hview hal.1 hal.2.1
      exact (loads_acquireSession (h₁ ▸ hk.sessions) h).congr h₁.symm h₂.symm
  | acquireSessionByToken hash =>
      obtain ⟨h₁, h₂⟩ := hview hal.1 hal.2.1
      exact (loads_acquireSessionByToken (h₁ ▸ hk.sessions) h).congr h₁.symm h₂.symm
  | acquireSessionsOf u =>
      obtain ⟨h₁, h₂⟩ := hview hal.1 hal.2.1
      obtain ⟨ss, hss, hmem⟩ := h
      exact (((acquireSessionsOf_ok (h₁ ▸ hk.sessions) hss).1 s hmem).1).congr h₁.symm h₂.symm
  | _ => exact absurd h (by simp [Read])

/-- **A step keeps ids and keys** when new ids are fresh draws, and rows are added under
ids its request has drawn. -/
theorem Minted.step {c : Cfg ι} (h : Minted env c) {i : ι} {o : Op} {x : o.Res}
    {a : Act Response} {w : World ι} (hk : w.db.Keyed) (hrng : c.shared.rng ≤ w.rng)
    (hdrawn : ∀ y ∈ ((did c i).note o x).drawn, y ∈ (did c i).drawn ∨
      ∃ n, c.shared.rng ≤ n ∧ n < w.rng ∧ y = env.uuid4 n)
    (hsub : (did c i).drawn ⊆ ((did c i).note o x).drawn)
    (hcomm : (did c i).committed = true → ((did c i).note o x).committed = true)
    (hhas : ∀ y, w.db.Has y → c.shared.db.Has y ∨
      y ∈ (did c i).drawn ∧ ((did c i).note o x).committed = true)
    (hkeep : ∀ s, Known c.shared.db s → Known w.db s)
    (hnew : ∀ s ∈ ((did c i).note o x).sessions, Known w.db s) :
    Minted env (Machine.afterCall c i o x a w) := by
  -- an id drawn by `i` is an old draw or one of the draws of this very call
  have hdid : ∀ j, ∀ y ∈ (did (Machine.afterCall c i o x a w) j).drawn,
      y ∈ (did c j).drawn ∨ j = i ∧ ∃ n, c.shared.rng ≤ n ∧ n < w.rng ∧ y = env.uuid4 n := by
    intro j y hy
    by_cases hj : j = i
    · subst hj
      rw [did_afterCall_self] at hy
      exact (hdrawn y hy).imp_right fun hn => ⟨rfl, hn⟩
    · rw [did_afterCall_ne hj] at hy
      exact Or.inl hy
  have hfresh : ∀ j, ∀ y ∈ (did c j).drawn, ∀ n, c.shared.rng ≤ n → y ≠ env.uuid4 n := by
    rintro j y hy n hn rfl
    obtain ⟨m, hm, he⟩ := h.drawn j _ hy
    have := env.uuid4_injective he
    omega
  refine ⟨hk, ?_, ?_, ?_, ?_, ?_⟩
  · intro j y hy
    rw [afterCall_shared]
    rcases hdid j y hy with hy | ⟨-, n, -, hn, rfl⟩
    · obtain ⟨n, hn, rfl⟩ := h.drawn j y hy
      exact ⟨n, by omega, rfl⟩
    · exact ⟨n, hn, rfl⟩
  · intro j j' y hy hy'
    rcases hdid j y hy with hold | ⟨hji, n, hn, -, he⟩
    · rcases hdid j' y hy' with hold' | ⟨-, n, hn, -, he⟩
      · exact h.apart j j' y hold hold'
      · exact absurd he (hfresh j y hold n hn)
    · rcases hdid j' y hy' with hold' | ⟨hji', -⟩
      · exact absurd he (hfresh j' y hold' n hn)
      · exact hji.trans hji'.symm
  · intro y hy n hn
    rw [afterCall_shared] at hy hn
    rcases hhas y hy with hy | ⟨hy, -⟩
    · exact h.unborn y hy n (by omega)
    · exact (hfresh i y hy n (by omega)).symm
  · intro y hy j hj
    rw [afterCall_shared] at hy
    rcases hdid j y hj with hj | ⟨rfl, n, hn, -, rfl⟩
    · rcases hhas y hy with hy | ⟨hyi, hc⟩
      · have hc := h.owned y hy j hj
        by_cases hji : j = i
        · subst hji
          rw [did_afterCall_self]
          exact hcomm hc
        · rw [did_afterCall_ne hji]
          exact hc
      · obtain rfl := h.apart j i y hj hyi
        rw [did_afterCall_self]
        exact hc
    · rcases hhas _ hy with hy | ⟨hy, -⟩
      · exact absurd rfl (h.unborn _ hy n hn)
      · exact absurd rfl (hfresh j _ hy n hn)
  · intro j s hs
    rw [afterCall_shared]
    by_cases hji : j = i
    · subst hji
      rw [did_afterCall_self] at hs
      exact hnew s hs
    · rw [did_afterCall_ne hji] at hs
      exact hkeep s (h.known j s hs)

omit [DecidableEq ι] in
/-- **A pending upsert touches a token row of its own session, or brings a drawn id.** -/
theorem Minted.upsert {c : Cfg ι} (h : Minted env c) {r : Request} {i : ι}
    (hc : Coherent env r (did c i)) {row : RefreshTokenRow}
    (hw : WriteFrom env (did c i) (.tokenUpsert row)) :
    (∃ row', c.shared.db.token row.id = some row' ∧ row'.sessionId = row.sessionId ∧
      row'.tokenHash = row.tokenHash) ∨ row.id ∈ (did c i).drawn := by
  obtain ⟨s, hs, t, ht, rfl⟩ := hw
  rcases hc.updated s hs with ⟨s₀, hs₀, rfl⟩ | ⟨tok, s₀, -, hx⟩
  · obtain ⟨t₀, ht₀, rfl⟩ := List.mem_map.mp ht
    exact Or.inl ((h.known i s₀ hs₀).tokens t₀ ht₀)
  · obtain ⟨presented, new, now, hs₀, -, -, -, -, hdrawn, rfl⟩ := hx
    rw [SessionAggregate.rotate_refreshTokens] at ht
    rcases List.mem_append.mp ht with ht | ht
    · obtain ⟨t₀, ht₀, rfl⟩ := List.mem_map.mp ht
      obtain ⟨row', hrow', hsid, hh⟩ := (h.known i s₀ hs₀).tokens t₀ ht₀
      refine Or.inl ⟨row', ?_, hsid, ?_⟩
      · split
        · exact hrow'
        · exact hrow'
      · split
        · exact hh
        · exact hh
    · obtain rfl := List.mem_singleton.mp ht
      exact Or.inr hdrawn

omit [DecidableEq ι] in
/-- The ids a pending statement brings are known or drawn by its request. -/
theorem Minted.brings {c : Cfg ι} (h : Minted env c) {r : Request} {i : ι}
    (hc : Coherent env r (did c i)) {w : Write} (hw : WriteFrom env (did c i) w) {y : Uuid}
    (hy : w.Brings y) : c.shared.db.Has y ∨ y ∈ (did c i).drawn := by
  cases w with
  | userInsert row =>
      obtain ⟨u, iv, hu, rfl⟩ := hw
      rcases hy with hy | hy | hy
      · exact Or.inr (Option.some.inj hy ▸ hc.inserted_id hu)
      · exact absurd hy (by simp [Write.newSession])
      · exact absurd hy (by simp [Write.tokenId])
  | sessionInsert row =>
      obtain ⟨s, hs, rfl⟩ := hw
      rcases hy with hy | hy | hy
      · exact absurd hy (by simp [Write.newUser])
      · exact Or.inr (Option.some.inj hy ▸ (hc.added s hs).2.1)
      · exact absurd hy (by simp [Write.tokenId])
  | tokenInsert row =>
      obtain ⟨s, t, hs, ht, rfl⟩ := hw
      rcases hy with hy | hy | hy
      · exact absurd hy (by simp [Write.newUser])
      · exact absurd hy (by simp [Write.newSession])
      · obtain ⟨-, -, ⟨t', ht', hdrawn⟩, -⟩ := hc.added s hs
        rw [ht', List.mem_singleton] at ht
        subst ht
        exact Or.inr (Option.some.inj hy ▸ hdrawn)
  | tokenUpsert row =>
      rcases hy with hy | hy | hy
      · exact absurd hy (by simp [Write.newUser])
      · exact absurd hy (by simp [Write.newSession])
      · obtain rfl : row.id = y := Option.some.inj hy
        rcases h.upsert hc hw with ⟨row', hrow', -⟩ | hdrawn
        · refine Or.inl (Or.inr (Or.inr ?_))
          have := List.mem_map_of_mem (f := RefreshTokenRow.id) (Keyed.mem_of_lookup hrow')
          rwa [Keyed.key_of_lookup hrow'] at this
        · exact Or.inr hdrawn
  | _ =>
      rcases hy with hy | hy | hy
      · exact absurd hy (by simp [Write.newUser])
      · exact absurd hy (by simp [Write.newSession])
      · exact absurd hy (by simp [Write.tokenId])

omit [DecidableEq ι] in
/-- The inserts of a request that is about to commit are fresh. -/
theorem Minted.freshInserts {c : Cfg ι} (h : Minted env c) {r : Request} {i : ι}
    (hc : Coherent env r (did c i)) (hp : Pending env (did c i) (c.shared.pending i))
    (hcomm : (did c i).committed = false) :
    FreshInserts c.shared.db (c.shared.pending i) := by
  have hnew : ∀ y ∈ (did c i).drawn, ¬ c.shared.db.Has y := by
    intro y hy hhas
    exact absurd (hcomm.symm.trans (h.owned y hhas i hy)) (by simp)
  refine ⟨hp.newUsers, hp.newSessions, hp.newTokens, ?_, ?_, ?_, ?_⟩
  · intro y hy hin
    obtain ⟨w, hw, hwy⟩ := List.mem_filterMap.mp hy
    cases w with
    | userInsert row =>
        obtain ⟨u, iv, hu, rfl⟩ := hp.source _ hw
        obtain rfl := Option.some.inj hwy
        exact hnew _ (hc.inserted_id hu) (Or.inl hin)
    | _ => exact absurd hwy (by simp [Write.newUser])
  · intro y hy hin
    obtain ⟨w, hw, hwy⟩ := List.mem_filterMap.mp hy
    cases w with
    | sessionInsert row =>
        obtain ⟨s, hs, rfl⟩ := hp.source _ hw
        obtain rfl := Option.some.inj hwy
        exact hnew _ (hc.added s hs).2.1 (Or.inr (Or.inl hin))
    | _ => exact absurd hwy (by simp [Write.newSession])
  · intro y hy hin
    obtain ⟨w, hw, hwy⟩ := List.mem_filterMap.mp hy
    cases w with
    | tokenInsert row =>
        obtain ⟨s, t, hs, ht, rfl⟩ := hp.source _ hw
        obtain ⟨-, -, ⟨t', ht', hdrawn⟩, -⟩ := hc.added s hs
        rw [ht', List.mem_singleton] at ht
        subst ht
        obtain rfl := Option.some.inj hwy
        exact hnew _ hdrawn (Or.inr (Or.inr hin))
    | _ => exact absurd hwy (by simp [Write.newToken])
  · intro row hrow hin
    obtain ⟨s, hs, -⟩ := hp.source _ hrow
    rcases hc.oneSession with ha | hu
    · rw [(hp.no_insert ha).2] at hin
      exact absurd hin List.not_mem_nil
    · rw [hu] at hs
      exact absurd hs List.not_mem_nil

variable [Fintype ι] {reqs : ι → Request} {C : Steps ι} {w : World ι} {c : Cfg ι}

/-- **Ids and keys along every run.** -/
theorem Runs.minted (h : Runs env reqs C w c) (hw : Startable env w) : Minted env c := by
  refine h.induction (Minted env) (minted_start reqs hw) ?_ ?_ ?_
  · intro c i ch o k x w' hr hm _ ht hal he
    have hs := hr.sound hw.idle
    have hext := note_extends (did c i) o x
    have hread : ∀ s ∈ ((did c i).note o x).sessions, Known c.shared.db s := by
      intro s hsess
      rcases mem_note_sessions he hsess with hold | hread
      · exact hm.known i s hold
      · exact (hread.loads hs ht hal hm.keyed).known hm.keyed
    by_cases ho : o = .commit
    · subst ho
      rcases exec_commit he with ⟨rfl, rfl⟩ | ⟨rfl, rfl⟩
      · refine hm.step hm.keyed le_rfl (fun y hy => Or.inl hy) hext.drawn id
          (fun y hy => Or.inl hy) (fun _ hk => hk) hread
      · have hp := hs.running i _ ht
        have hcoh := hr.coherent i
        refine hm.step ?_ ?_ (fun y hy => Or.inl hy) hext.drawn (fun _ => rfl) ?_ ?_ ?_
        · exact commit_keyed env _ i (keyed_view hm.keyed (hm.freshInserts hcoh hp hal.1))
        · exact Nat.le_add_right _ _
        · intro y hy
          rw [commit_has, view_eq, has_view] at hy
          rcases hy with hy | ⟨wr, hwr, hy⟩
          · exact Or.inl hy
          · exact (hm.brings hcoh (hp.source wr hwr) hy).imp_right fun hd => ⟨hd, rfl⟩
        · exact fun s hk => known_commit hk i
        · exact fun s hsess => known_commit (hread s hsess) i
    · obtain ⟨hdb, hrng⟩ := exec_db ho he
      by_cases hu : o = .uuid4
      · subst hu
        simp only [exec, Option.some.injEq, Prod.mk.injEq] at he
        obtain ⟨rfl, rfl⟩ := he
        refine hm.step hm.keyed hrng (fun y hy => ?_) hext.drawn id (fun y hy => Or.inl hy)
          (fun _ hk => hk) hread
        rcases List.mem_cons.mp hy with rfl | hy
        · exact Or.inr ⟨c.shared.rng, le_rfl, Nat.lt_succ_self _, rfl⟩
        · exact Or.inl hy
      · refine hm.step (hdb ▸ hm.keyed) hrng (fun y hy => ?_) hext.drawn
          (note_committed (did c i) o x) (fun y hy => ?_) (fun s hk => hdb ▸ hk) (fun s hs => ?_)
        · exact Or.inl (note_drawn (did c i) hu x ▸ hy)
        · exact Or.inl (hdb ▸ hy)
        · exact hdb ▸ hread s hs
  · exact fun c i ch x _ hm _ _ _ => ⟨hm.keyed, hm.drawn, hm.apart, hm.unborn, hm.owned, hm.known⟩
  · exact fun c d _ hm _ => ⟨hm.keyed, hm.drawn, hm.apart, hm.unborn, hm.owned, hm.known⟩

end Runs

end BackendTemplate
