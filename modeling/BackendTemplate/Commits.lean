import BackendTemplate.TokenHashes

/-!
# What a Commit Does to Each Row

A commit makes the view of its request the committed state. Read through the contract, that
view is simple: a row the request has not written is the committed row, and a row it has
written holds what the request wrote (`session_view`, `token_view`, `user_view`); a row that
was not there before was inserted by it (`new_session`, `new_token`).

The hypotheses shared by all of them are grouped in `Open`: request `i` is running, in a
configuration that a run has reached, and has not committed.
-/

namespace BackendTemplate

open Atomic

variable {env : Env} {db : Db}

/-! ### Rows and statements -/

/-- A sessions row after statements: untouched, set by an update, or met by an insert. -/
theorem view_session_cases (ws : List Write) {x : Uuid} {row : SessionRow}
    (h : db.session x = some row) :
    ∃ row', (RowLocks.view Db.apply db ws).session x = some row' ∧ row'.userId = row.userId ∧
      ((row' = row ∧ ∀ b e, .sessionUpdate x b e ∉ ws) ∨
        (∃ b e, .sessionUpdate x b e ∈ ws ∧ row'.isRevoked = b ∧ row'.expiresAt = e) ∨
        ∃ r, .sessionInsert r ∈ ws ∧ r.sessionId = x) := by
  obtain ⟨row', hrow', hu⟩ := view_session_some ws h
  refine ⟨row', hrow', hu, ?_⟩
  rcases (session_guarded x).last ws db with ⟨hnot, heq⟩ | ⟨ws₁, w, hw, hk, -, heq⟩
  · refine Or.inl ⟨?_, fun b e hmem => hnot ⟨_, hmem, by simp [Write.keys]⟩⟩
    exact Option.some.inj (hrow'.symm.trans (heq.trans h))
  · cases w with
    | sessionInsert r => exact Or.inr (Or.inr ⟨r, hw, by simpa [Write.keys, eq_comm] using hk⟩)
    | sessionUpdate sid b e =>
        obtain rfl : x = sid := by simpa [Write.keys] using hk
        obtain ⟨row₁, hrow₁, -⟩ := view_session_some ws₁ h
        have hset : some row' = some (row₁.set b e) := by
          rw [← hrow', heq, apply_session, hrow₁]
          simp [Write.onSession]
        obtain rfl := Option.some.inj hset
        exact Or.inr (Or.inl ⟨b, e, hw, rfl, rfl⟩)
    | userInsert r => exact absurd hk (by simp [Write.keys])
    | userUpdate r => exact absurd hk (by simp [Write.keys])
    | tokenInsert r => exact absurd hk (by simp [Write.keys])
    | tokenUpsert r => exact absurd hk (by simp [Write.keys])
    | outboxInsert r => exact absurd hk (by simp [Write.keys])
    | auditInsert r => exact absurd hk (by simp [Write.keys])

/-- A refresh_tokens row after statements. -/
theorem view_token_cases (ws : List Write) {x : Uuid} {row : RefreshTokenRow}
    (h : db.token x = some row) :
    ∃ row', (RowLocks.view Db.apply db ws).token x = some row' ∧
      row'.sessionId = row.sessionId ∧ row'.tokenHash = row.tokenHash ∧
      ((row' = row ∧ ∀ r, .tokenUpsert r ∈ ws → r.id ≠ x) ∨
        (∃ r, .tokenUpsert r ∈ ws ∧ r.id = x ∧ row'.isRevoked = r.isRevoked) ∨
        ∃ r, .tokenInsert r ∈ ws ∧ r.id = x) := by
  obtain ⟨row', hrow', hs, hh⟩ := view_token_some ws h
  refine ⟨row', hrow', hs, hh, ?_⟩
  rcases (token_guarded x).last ws db with ⟨hnot, heq⟩ | ⟨ws₁, w, hw, hk, -, heq⟩
  · refine Or.inl ⟨?_, fun r hmem hr => hnot ⟨_, hmem, by simp [Write.keys, hr]⟩⟩
    exact Option.some.inj (hrow'.symm.trans (heq.trans h))
  · cases w with
    | tokenInsert r => exact Or.inr (Or.inr ⟨r, hw, by simpa [Write.keys, eq_comm] using hk⟩)
    | tokenUpsert r =>
        obtain rfl : x = r.id := by simpa [Write.keys] using hk
        obtain ⟨row₁, hrow₁, -⟩ := view_token_some ws₁ h
        have hset : some row' = some (row₁.set r.isRevoked r.expiresAt) := by
          rw [← hrow', heq, apply_token, hrow₁]
          simp [Write.onToken]
        obtain rfl := Option.some.inj hset
        exact Or.inr (Or.inl ⟨r, hw, rfl, rfl⟩)
    | userInsert r => exact absurd hk (by simp [Write.keys])
    | userUpdate r => exact absurd hk (by simp [Write.keys])
    | sessionInsert r => exact absurd hk (by simp [Write.keys])
    | sessionUpdate sid b e => exact absurd hk (by simp [Write.keys])
    | outboxInsert r => exact absurd hk (by simp [Write.keys])
    | auditInsert r => exact absurd hk (by simp [Write.keys])

/-- A sessions row that statements bring was inserted. -/
theorem view_session_new (ws : List Write) {x : Uuid} {row : SessionRow}
    (h : db.session x = none) (hv : (RowLocks.view Db.apply db ws).session x = some row) :
    ∃ r, .sessionInsert r ∈ ws ∧ r.sessionId = x ∧ row.userId = r.userId := by
  induction ws generalizing db with
  | nil => exact absurd (h.symm.trans hv) (by simp)
  | cons w ws ih =>
      have hcons : (RowLocks.view Db.apply (db.apply w) ws).session x = some row := hv
      cases hx : (db.apply w).session x with
      | none =>
          obtain ⟨r, hr, hid, hu⟩ := ih hx hcons
          exact ⟨r, List.mem_cons_of_mem _ hr, hid, hu⟩
      | some row₁ =>
          obtain ⟨row₂, hrow₂, hu⟩ := view_session_some ws hx
          obtain rfl := Option.some.inj (hcons.symm.trans hrow₂)
          rw [apply_session, h] at hx
          cases w with
          | sessionInsert r =>
              simp only [Write.onSession, Option.none_or] at hx
              split at hx
              · rename_i hid
                obtain rfl := Option.some.inj hx
                exact ⟨r, List.mem_cons_self, hid, hu⟩
              · cases hx
          | sessionUpdate sid b e =>
              simp only [Write.onSession, Option.map_none, ite_self] at hx
              cases hx
          | _ => cases hx

/-- A refresh_tokens row that statements bring was inserted or upserted. -/
theorem view_token_new (ws : List Write) {x : Uuid} {row : RefreshTokenRow}
    (h : db.token x = none) (hv : (RowLocks.view Db.apply db ws).token x = some row) :
    ∃ r, (.tokenInsert r ∈ ws ∨ .tokenUpsert r ∈ ws) ∧ r.id = x ∧
      row.sessionId = r.sessionId ∧ row.tokenHash = r.tokenHash := by
  induction ws generalizing db with
  | nil => exact absurd (h.symm.trans hv) (by simp)
  | cons w ws ih =>
      have hcons : (RowLocks.view Db.apply (db.apply w) ws).token x = some row := hv
      cases hx : (db.apply w).token x with
      | none =>
          obtain ⟨r, hr, hrest⟩ := ih hx hcons
          exact ⟨r, hr.imp (List.mem_cons_of_mem _) (List.mem_cons_of_mem _), hrest⟩
      | some row₁ =>
          obtain ⟨row₂, hrow₂, hs, hh⟩ := view_token_some ws hx
          obtain rfl := Option.some.inj (hcons.symm.trans hrow₂)
          rw [apply_token, h] at hx
          cases w with
          | tokenInsert r =>
              simp only [Write.onToken, Option.none_or] at hx
              split at hx
              · rename_i hid
                obtain rfl := Option.some.inj hx
                exact ⟨r, Or.inl List.mem_cons_self, hid, hs, hh⟩
              · cases hx
          | tokenUpsert r =>
              simp only [Write.onToken] at hx
              split at hx
              · rename_i hid
                obtain rfl := Option.some.inj hx
                exact ⟨r, Or.inr List.mem_cons_self, hid.symm, hs, hh⟩
              · cases hx
          | _ => cases hx

/-- Statements keep a users row. -/
theorem view_user_some (ws : List Write) {x : Uuid} {row : UserRow}
    (h : db.user x = some row) : ∃ row', (RowLocks.view Db.apply db ws).user x = some row' := by
  induction ws generalizing db row with
  | nil => exact ⟨row, h⟩
  | cons w ws ih =>
      have hstep : ∃ row', (db.apply w).user x = some row' := by
        rw [apply_user, h]
        cases w with
        | userUpdate r =>
            simp only [Write.onUser]
            split
            · exact ⟨r, rfl⟩
            · exact ⟨row, rfl⟩
        | _ => exact ⟨row, rfl⟩
      obtain ⟨row', hrow'⟩ := hstep
      exact ih hrow'

/-- A users row after statements. -/
theorem view_user_cases (ws : List Write) {x : Uuid} {row : UserRow}
    (h : db.user x = some row) :
    ((RowLocks.view Db.apply db ws).user x = some row ∧ ∀ r, .userUpdate r ∈ ws → r.id ≠ x) ∨
      (∃ r, .userUpdate r ∈ ws ∧ r.id = x ∧
        (RowLocks.view Db.apply db ws).user x = some r) ∨
      ∃ r, .userInsert r ∈ ws ∧ r.id = x := by
  rcases (user_guarded x).last ws db with ⟨hnot, heq⟩ | ⟨ws₁, w, hw, hk, -, heq⟩
  · exact Or.inl ⟨heq.trans h, fun r hmem hr => hnot ⟨_, hmem, by simp [Write.keys, hr]⟩⟩
  · cases w with
    | userInsert r => exact Or.inr (Or.inr ⟨r, hw, by simpa [Write.keys, eq_comm] using hk⟩)
    | userUpdate r =>
        have hx : x = r.id := by simpa [Write.keys] using hk
        obtain ⟨row₁, hrow₁⟩ := view_user_some ws₁ h
        refine Or.inr (Or.inl ⟨r, hw, hx.symm, ?_⟩)
        rw [heq, apply_user, hrow₁]
        simp [Write.onUser, hx]
    | sessionInsert r => exact absurd hk (by simp [Write.keys])
    | sessionUpdate sid b e => exact absurd hk (by simp [Write.keys])
    | tokenInsert r => exact absurd hk (by simp [Write.keys])
    | tokenUpsert r => exact absurd hk (by simp [Write.keys])
    | outboxInsert r => exact absurd hk (by simp [Write.keys])
    | auditInsert r => exact absurd hk (by simp [Write.keys])

/-- Statements that update no user keep a users row as it is. -/
theorem view_user_fixed (ws : List Write) (hno : ∀ r, .userUpdate r ∉ ws) {x : Uuid}
    {row : UserRow} (h : db.user x = some row) :
    (RowLocks.view Db.apply db ws).user x = some row := by
  induction ws generalizing db with
  | nil => exact h
  | cons w ws ih =>
      refine ih (fun r hr => hno r (List.mem_cons_of_mem _ hr)) ?_
      rw [apply_user, h]
      cases w with
      | userUpdate r => exact absurd List.mem_cons_self (hno r)
      | _ => rfl

/-- A users row that statements bring was inserted, and is as inserted unless updated. -/
theorem view_user_new (ws : List Write) {x : Uuid} {row : UserRow} (h : db.user x = none)
    (hv : (RowLocks.view Db.apply db ws).user x = some row) :
    ∃ r, .userInsert r ∈ ws ∧ ((∀ r', .userUpdate r' ∉ ws) → row = r) := by
  induction ws generalizing db with
  | nil => exact absurd (h.symm.trans hv) (by simp)
  | cons w ws ih =>
      have hcons : (RowLocks.view Db.apply (db.apply w) ws).user x = some row := hv
      cases hx : (db.apply w).user x with
      | none =>
          obtain ⟨r, hr, hsame⟩ := ih hx hcons
          exact ⟨r, List.mem_cons_of_mem _ hr,
            fun hno => hsame fun r' hr' => hno r' (List.mem_cons_of_mem _ hr')⟩
      | some row₁ =>
          have hfix : (∀ r', .userUpdate r' ∉ ws) → row = row₁ := fun hno =>
            Option.some.inj (hcons.symm.trans (view_user_fixed ws hno hx))
          rw [apply_user, h] at hx
          cases w with
          | userInsert r =>
              simp only [Write.onUser, Option.none_or] at hx
              split at hx
              · obtain rfl := Option.some.inj hx
                exact ⟨r, List.mem_cons_self,
                  fun hno => hfix fun r' hr' => hno r' (List.mem_cons_of_mem _ hr')⟩
              · cases hx
          | userUpdate r =>
              simp only [Write.onUser, Option.map_none, ite_self] at hx
              cases hx
          | _ => cases hx

/-! ### The view of a request -/

section Requests

variable {ι : Type} {r : Request} {c : Cfg ι} {i : ι} {x : Uuid}

/-- **Request `i` is in its transaction**: what every run guarantees while it is. -/
structure Open (env : Env) (r : Request) (c : Cfg ι) (i : ι) : Prop where
  pending : Pending env (did c i) (c.shared.pending i)
  minted : Minted env c
  coherent : Coherent env r (did c i)
  exclusive : RowLocks.Exclusive Write.keys c.shared.pending
  uncommitted : (did c i).committed = false

theorem Runs.isOpen [Fintype ι] [DecidableEq ι] {reqs : ι → Request} {C : Steps ι}
    {w : World ι} (h : Runs env reqs C w c) (hw : Startable env w) {a : Act Response}
    (ht : c.threads i = .running a) (hc : (did c i).committed = false) :
    Open env (reqs i) c i :=
  ⟨(h.sound hw.idle).running i a ht, h.minted hw, h.coherent i, (h.sound hw.idle).exclusive, hc⟩

/-- An id a request has drawn is in no table before it commits. -/
theorem Open.not_has (h : Open env r c i) (hx : x ∈ (did c i).drawn) :
    ¬ c.shared.db.Has x := fun hhas =>
  absurd (h.uncommitted.symm.trans (h.minted.owned x hhas i hx)) (by simp)

theorem Open.not_session_insert (h : Open env r c i) {row row' : SessionRow}
    (hx : c.shared.db.session x = some row) (hw : .sessionInsert row' ∈ c.shared.pending i) :
    row'.sessionId ≠ x := by
  rintro rfl
  obtain ⟨s, hs, rfl⟩ := h.pending.source _ hw
  refine h.not_has (h.coherent.added s hs).2.1 (Or.inr (Or.inl ?_))
  have := List.mem_map_of_mem (f := SessionRow.sessionId) (Keyed.mem_of_lookup hx)
  rwa [Keyed.key_of_lookup hx] at this

theorem Open.not_token_insert (h : Open env r c i) {row row' : RefreshTokenRow}
    (hx : c.shared.db.token x = some row) (hw : .tokenInsert row' ∈ c.shared.pending i) :
    row'.id ≠ x := by
  rintro rfl
  obtain ⟨s, t, hs, ht, rfl⟩ := h.pending.source _ hw
  obtain ⟨-, -, ⟨t', ht', hdrawn⟩, -⟩ := h.coherent.added s hs
  rw [ht', List.mem_singleton] at ht
  subst ht
  refine h.not_has hdrawn (Or.inr (Or.inr ?_))
  have := List.mem_map_of_mem (f := RefreshTokenRow.id) (Keyed.mem_of_lookup hx)
  rwa [Keyed.key_of_lookup hx] at this

theorem Open.not_user_insert (h : Open env r c i) {row row' : UserRow}
    (hx : c.shared.db.user x = some row) (hw : .userInsert row' ∈ c.shared.pending i) :
    row'.id ≠ x := by
  rintro rfl
  obtain ⟨u, iv, hu, rfl⟩ := h.pending.source _ hw
  refine h.not_has (h.coherent.inserted_id hu) (Or.inl ?_)
  have := List.mem_map_of_mem (f := UserRow.id) (Keyed.mem_of_lookup hx)
  rwa [Keyed.key_of_lookup hx] at this

/-- **A sessions row as request `i` sees it**: the committed row, or what it wrote. -/
theorem Open.session_view (h : Open env r c i) {row : SessionRow}
    (hx : c.shared.db.session x = some row) :
    ∃ row', (c.shared.view i).session x = some row' ∧ row'.userId = row.userId ∧
      ((row' = row ∧ ∀ s ∈ (did c i).updated, s.sessionId ≠ x) ∨
        ∃ s ∈ (did c i).updated, s.sessionId = x ∧ row'.isRevoked = s.isRevoked ∧
          row'.expiresAt = s.expiresAt) := by
  obtain ⟨row', hrow', hu, hcases⟩ := view_session_cases (c.shared.pending i) hx
  refine ⟨row', hrow', hu, ?_⟩
  rcases hcases with ⟨rfl, hno⟩ | ⟨b, e, hmem, rfl, rfl⟩ | ⟨r', hmem, hid⟩
  · refine Or.inl ⟨rfl, fun s hs hsx => ?_⟩
    have hsub := h.pending.updated h.uncommitted s hs
    exact hno _ _ (hsx ▸ hsub List.mem_cons_self)
  · obtain ⟨s, hs, hsid, hrev, hexp⟩ := h.pending.source _ hmem
    exact Or.inr ⟨s, hs, hsid.symm, hrev, hexp⟩
  · exact absurd hid (h.not_session_insert hx hmem)

/-- **A refresh_tokens row as request `i` sees it.** -/
theorem Open.token_view (h : Open env r c i) {row : RefreshTokenRow}
    (hx : c.shared.db.token x = some row) :
    ∃ row', (c.shared.view i).token x = some row' ∧ row'.sessionId = row.sessionId ∧
      row'.tokenHash = row.tokenHash ∧
      ((row' = row ∧ ∀ s ∈ (did c i).updated, ∀ t ∈ s.refreshTokens, t.id ≠ x) ∨
        ∃ s ∈ (did c i).updated, ∃ t ∈ s.refreshTokens, t.id = x ∧
          row'.isRevoked = t.isRevoked) := by
  obtain ⟨row', hrow', hs, hh, hcases⟩ := view_token_cases (c.shared.pending i) hx
  refine ⟨row', hrow', hs, hh, ?_⟩
  rcases hcases with ⟨rfl, hno⟩ | ⟨r', hmem, hid, hrev⟩ | ⟨r', hmem, hid⟩
  · refine Or.inl ⟨rfl, fun s hs t ht htx => ?_⟩
    have hsub := h.pending.updated h.uncommitted s hs
    exact hno _ (hsub (List.mem_cons_of_mem _ (List.mem_map_of_mem ht))) htx
  · obtain ⟨s, hs, t, ht, rfl⟩ := h.pending.source _ hmem
    exact Or.inr ⟨s, hs, t, ht, hid, hrev⟩
  · exact absurd hid (h.not_token_insert hx hmem)

/-- A sessions row that request `i` adds is the one it inserted. -/
theorem Open.new_session (h : Open env r c i) {row : SessionRow}
    (hx : c.shared.db.session x = none) (hv : (c.shared.view i).session x = some row) :
    ∃ s, (did c i).added = some s ∧ s.sessionId = x ∧ row.userId = s.userId.value := by
  obtain ⟨r', hmem, hid, hu⟩ := view_session_new _ hx hv
  obtain ⟨s, hs, rfl⟩ := h.pending.source _ hmem
  exact ⟨s, hs, hid, hu⟩

/-- A refresh_tokens row that request `i` adds comes from a session it wrote. -/
theorem Open.new_token (h : Open env r c i) {row : RefreshTokenRow}
    (hx : c.shared.db.token x = none) (hv : (c.shared.view i).token x = some row) :
    ∃ s t, ((did c i).added = some s ∨ s ∈ (did c i).updated) ∧ t ∈ s.refreshTokens ∧
      t.id = x ∧ row.sessionId = s.sessionId ∧ row.tokenHash = t.tokenHash.value := by
  obtain ⟨r', hmem | hmem, hid, hs, hh⟩ := view_token_new _ hx hv
  · obtain ⟨s, t, hadd, ht, rfl⟩ := h.pending.source _ hmem
    exact ⟨s, t, Or.inl hadd, ht, hid, hs, hh⟩
  · obtain ⟨s, hup, t, ht, rfl⟩ := h.pending.source _ hmem
    exact ⟨s, t, Or.inr hup, ht, hid, hs, hh⟩

/-- **A users row as request `i` sees it.** -/
theorem Open.user_view (h : Open env r c i) {row : UserRow}
    (hx : c.shared.db.user x = some row) :
    ((c.shared.view i).user x = some row ∧
        ∀ u, (did c i).userWrite = some u → u.id.value ≠ x) ∨
      ∃ u iv, (did c i).userWrite = some u ∧ u.id.value = x ∧
        (c.shared.view i).user x = some (userToValues env iv u (u.version + 1)) := by
  rcases view_user_cases (c.shared.pending i) hx with ⟨hv, hno⟩ | ⟨r', hmem, hid, hv⟩ |
    ⟨r', hmem, hid⟩
  · refine Or.inl ⟨hv, fun u hu hux => ?_⟩
    obtain ⟨iv, hiv⟩ := h.pending.user h.uncommitted u hu
    exact hno _ hiv hux
  · obtain ⟨u, iv, hu, rfl⟩ := h.pending.source _ hmem
    exact Or.inr ⟨u, iv, hu, hid, hv⟩
  · exact absurd hid (h.not_user_insert hx hmem)

/-- A users row that request `i` adds is the one it inserted. -/
theorem Open.new_user (h : Open env r c i) {row : UserRow}
    (hx : c.shared.db.user x = none) (hv : (c.shared.view i).user x = some row) :
    ∃ u iv, (did c i).userInsert = some u ∧ row = userToValues env iv u 0 := by
  obtain ⟨r', hmem, hsame⟩ := view_user_new _ hx hv
  obtain ⟨u, iv, hu, rfl⟩ := h.pending.source _ hmem
  refine ⟨u, iv, hu, hsame fun r'' hr'' => ?_⟩
  obtain ⟨v, _, hv', -⟩ := h.pending.source _ hr''
  rcases h.coherent.oneUser with hnone | hnone
  · exact absurd (hnone.symm.trans hv') (by simp)
  · exact absurd (hnone.symm.trans hu) (by simp)

/-! ### Rows held by a request -/

/-- **A session a request has written back does not move** under the others. -/
theorem Open.session_held (h : Open env r c i) {j : ι} (hj : j ≠ i) {s : SessionAggregate}
    (hs : s ∈ (did c i).updated) :
    (c.shared.view j).session s.sessionId = c.shared.db.session s.sessionId := by
  have hw := h.pending.updated h.uncommitted s hs List.mem_cons_self
  refine h.exclusive.view_eq (session_guarded s.sessionId) hj.symm ⟨_, hw, ?_⟩ c.shared.db
  simp [Write.keys]

/-- A user a request has written back does not move under the others. -/
theorem Open.user_held (h : Open env r c i) {j : ι} (hj : j ≠ i) {u : User}
    (hu : (did c i).userWrite = some u) :
    (c.shared.view j).user u.id.value = c.shared.db.user u.id.value := by
  obtain ⟨iv, hw⟩ := h.pending.user h.uncommitted u hu
  refine h.exclusive.view_eq (user_guarded u.id.value) hj.symm ⟨_, hw, ?_⟩ c.shared.db
  simp [Write.keys, userToValues]

/-- **Every sessions row that was not there at the start was inserted by a request that has
committed.** -/
theorem Runs.created [Fintype ι] [DecidableEq ι] {reqs : ι → Request} {C : Steps ι}
    {w : World ι} (h : Runs env reqs C w c) (hw : Startable env w) {row : SessionRow}
    (hx : c.shared.db.session x = some row) :
    (∃ row₀, w.db.session x = some row₀ ∧ row₀.userId = row.userId) ∨
      ∃ i s, (did c i).committed = true ∧ (did c i).added = some s ∧ s.sessionId = x ∧
        s.userId.value = row.userId := by
  revert row
  refine h.induction (fun c => ∀ {row : SessionRow}, c.shared.db.session x = some row →
    (∃ row₀, w.db.session x = some row₀ ∧ row₀.userId = row.userId) ∨
      ∃ i s, (did c i).committed = true ∧ (did c i).added = some s ∧ s.sessionId = x ∧
        s.userId.value = row.userId) ?_ ?_ ?_ ?_
  · exact fun hx => Or.inl ⟨_, hx, rfl⟩
  · intro c i ch o k y w' hr ih _ ht hal he row hx
    -- a request that has committed keeps the session it has inserted
    have hkeep : ∀ {row' : SessionRow}, c.shared.db.session x = some row' →
        row'.userId = row.userId → (∃ row₀, w.db.session x = some row₀ ∧ row₀.userId = row.userId) ∨
          ∃ j s, (did (Machine.afterCall c i o y (k y) w') j).committed = true ∧
            (did (Machine.afterCall c i o y (k y) w') j).added = some s ∧ s.sessionId = x ∧
            s.userId.value = row.userId := by
      intro row' hrow' hu
      rcases ih hrow' with ⟨row₀, h₀, hu₀⟩ | ⟨j, s, hc, ha, hs, hsu⟩
      · exact Or.inl ⟨row₀, h₀, hu₀.trans hu⟩
      · refine Or.inr ⟨j, s, ?_, ?_, hs, hsu.trans hu⟩
        · by_cases hji : j = i
          · subst hji
            rw [did_afterCall_self]
            exact note_committed _ o y hc
          · rwa [did_afterCall_ne hji]
        · by_cases hji : j = i
          · subst hji
            rw [did_afterCall_self, (note_sameWrites _ (hal.no_write hc) y).2.2.1]
            exact ha
          · rwa [did_afterCall_ne hji]
    rw [afterCall_shared] at hx
    by_cases ho : o = .commit
    · subst ho
      rcases exec_commit he with ⟨rfl, rfl⟩ | ⟨rfl, rfl⟩
      · exact hkeep hx rfl
      · rw [commit_session] at hx
        have hopen := hr.isOpen hw ht hal.1
        cases hold : c.shared.db.session x with
        | some row' =>
            obtain ⟨row'', hrow'', hu, -⟩ := hopen.session_view hold
            obtain rfl := Option.some.inj (hx.symm.trans hrow'')
            exact hkeep hold hu.symm
        | none =>
            obtain ⟨s, ha, hs, hu⟩ := hopen.new_session hold hx
            refine Or.inr ⟨i, s, ?_, ?_, hs, hu.symm⟩
            · rw [did_afterCall_self]
              rfl
            · rw [did_afterCall_self]
              exact ha
    · rw [(exec_db ho he).1] at hx
      exact hkeep hx rfl
  · exact fun c i ch y _ ih _ _ _ row hx => ih hx
  · exact fun c d _ ih _ row hx => ih hx

end Requests

end BackendTemplate
