import BackendTemplate.SessionRows

/-!
# Open Transactions Along a Run

What holds of the open transactions in every reachable configuration, whatever the
requests and whatever the schedule:

* `Sound` — no two open transactions hold the same row, every pending statement comes from
  a write the request has made, and every write the request has made is pending until it
  commits or leaves;
* `Minted` — primary keys are unique, ids are drawn once, an id in the tables was drawn by
  a request that has committed (or before the run), and the sessions a request has read
  are still there.

Both are proved once, through `Runs.induction`; the results about users and sessions use
them and never look at a schedule again.
-/

namespace BackendTemplate

open Atomic

variable {env : Env} {p q : Progress} {ws : List Write}

/-! ### Pending statements -/

/-- The statements that touch the users table. -/
def Write.onUsers : Write → Bool
  | .userInsert _ | .userUpdate _ => true
  | _ => false

/-- The write of a request that a pending statement comes from. -/
def WriteFrom (env : Env) (p : Progress) : Write → Prop
  | .userUpdate row => ∃ u iv, p.userWrite = some u ∧ row = userToValues env iv u (u.version + 1)
  | .userInsert row => ∃ u iv, p.userInsert = some u ∧ row = userToValues env iv u 0
  | .sessionInsert row => ∃ s, p.added = some s ∧ row = sessionToRow s
  | .tokenInsert row =>
      ∃ s t, p.added = some s ∧ t ∈ s.refreshTokens ∧ row = refreshTokenToRow s.sessionId t
  | .sessionUpdate sid isRevoked expiresAt =>
      ∃ s ∈ p.updated, sid = s.sessionId ∧ isRevoked = s.isRevoked ∧ expiresAt = s.expiresAt
  | .tokenUpsert row =>
      ∃ s ∈ p.updated, ∃ t ∈ s.refreshTokens, row = refreshTokenToRow s.sessionId t
  | .outboxInsert _ | .auditInsert _ => False

/-- The id of the row a statement inserts into `sessions`. -/
def Write.newSession : Write → Option Uuid
  | .sessionInsert row => some row.sessionId
  | _ => none

/-- The id of the row a statement inserts into `refresh_tokens`. -/
def Write.newToken : Write → Option Uuid
  | .tokenInsert row => some row.id
  | _ => none

/-- The id of the row a statement inserts into `users`. -/
def Write.newUser : Write → Option Uuid
  | .userInsert row => some row.id
  | _ => none

/-- **The pending statements of a request** that has made progress `p`. -/
structure Pending (env : Env) (p : Progress) (ws : List Write) : Prop where
  source : ∀ w ∈ ws, WriteFrom env p w
  user : p.committed = false → ∀ u, p.userWrite = some u →
    ∃ iv, .userUpdate (userToValues env iv u (u.version + 1)) ∈ ws
  added : p.committed = false → ∀ s, p.added = some s → addSessionWrites s ⊆ ws
  updated : p.committed = false → ∀ s ∈ p.updated, updateSessionWrites s ⊆ ws
  closed : p.committed = true → ws = []
  oneUser : (ws.filter Write.onUsers).length ≤ 1
  newUsers : (ws.filterMap Write.newUser).Nodup
  newSessions : (ws.filterMap Write.newSession).Nodup
  newTokens : (ws.filterMap Write.newToken).Nodup

theorem pending_nil (env : Env) (hw : p.userWrite = none ∨ p.committed = true)
    (ha : p.added = none ∨ p.committed = true) (hu : p.updated = [] ∨ p.committed = true) :
    Pending env p [] where
  source _ h := absurd h List.not_mem_nil
  user hc u hu' := by
    rcases hw with hw | hw
    · exact absurd (hw.symm.trans hu') (by simp)
    · exact absurd (hc.symm.trans hw) (by simp)
  added hc s hs := by
    rcases ha with ha | ha
    · exact absurd (ha.symm.trans hs) (by simp)
    · exact absurd (hc.symm.trans ha) (by simp)
  updated hc s hs := by
    rcases hu with hu | hu
    · rw [hu] at hs
      exact absurd hs List.not_mem_nil
    · exact absurd (hc.symm.trans hu) (by simp)
  closed _ := rfl
  oneUser := Nat.zero_le _
  newUsers := List.nodup_nil
  newSessions := List.nodup_nil
  newTokens := List.nodup_nil

theorem WriteFrom.same {w : Write} (h : WriteFrom env p w) (hw : p.SameWrites q) :
    WriteFrom env q w := by
  obtain ⟨hu, hi, ha, hup, -⟩ := hw
  cases w with
  | userUpdate row => simpa only [WriteFrom, hu] using h
  | userInsert row => simpa only [WriteFrom, hi] using h
  | sessionInsert row => simpa only [WriteFrom, ha] using h
  | tokenInsert row => simpa only [WriteFrom, ha] using h
  | sessionUpdate sid isRevoked expiresAt => simpa only [WriteFrom, hup] using h
  | tokenUpsert row => simpa only [WriteFrom, hup] using h
  | outboxInsert row => exact h
  | auditInsert row => exact h

theorem Pending.same (h : Pending env p ws) (hw : p.SameWrites q) : Pending env q ws := by
  obtain ⟨hu, hi, ha, hup, hc⟩ := hw
  refine ⟨fun w hw => (h.source w hw).same ⟨hu, hi, ha, hup, hc⟩, ?_, ?_, ?_, ?_, h.oneUser,
    h.newUsers, h.newSessions, h.newTokens⟩
  · rw [hc, hu]
    exact h.user
  · rw [hc, ha]
    exact h.added
  · rw [hc, hup]
    exact h.updated
  · rw [hc]
    exact h.closed

/-- A request that has written no user has no user statement pending. -/
theorem Pending.no_user (h : Pending env p ws) (hw : p.userWrite = none)
    (hi : p.userInsert = none) : ws.filter Write.onUsers = [] := by
  refine List.filter_eq_nil_iff.mpr fun w hmem => ?_
  have hf := h.source w hmem
  cases w with
  | userUpdate row =>
      obtain ⟨u, iv, hu, -⟩ := hf
      exact absurd (hw.symm.trans hu) (by simp)
  | userInsert row =>
      obtain ⟨u, iv, hu, -⟩ := hf
      exact absurd (hi.symm.trans hu) (by simp)
  | _ => simp [Write.onUsers]

/-- The statements that touch a session or a refresh token. -/
def Write.onSessions : Write → Bool
  | .sessionInsert _ | .sessionUpdate _ _ _ | .tokenInsert _ | .tokenUpsert _ => true
  | _ => false

/-- A request that has written no session has no session statement pending. -/
theorem Pending.no_session (h : Pending env p ws) (ha : p.added = none) (hu : p.updated = []) :
    ∀ w ∈ ws, w.onSessions = false := by
  intro w hmem
  have hf := h.source w hmem
  cases w with
  | sessionInsert row =>
      obtain ⟨s, hs, -⟩ := hf
      exact absurd (ha.symm.trans hs) (by simp)
  | tokenInsert row =>
      obtain ⟨s, t, hs, -⟩ := hf
      exact absurd (ha.symm.trans hs) (by simp)
  | sessionUpdate sid isRevoked expiresAt =>
      obtain ⟨s, hs, -⟩ := hf
      rw [hu] at hs
      exact absurd hs List.not_mem_nil
  | tokenUpsert row =>
      obtain ⟨s, hs, -⟩ := hf
      rw [hu] at hs
      exact absurd hs List.not_mem_nil
  | _ => rfl

/-- Statements on other tables leave the users alone. -/
theorem view_users_eq {db : Db} (h : ws.filter Write.onUsers = []) :
    (RowLocks.view Db.apply db ws).users = db.users := by
  induction ws generalizing db with
  | nil => rfl
  | cons w ws ih =>
      rw [List.filter_eq_nil_iff] at h
      have hw : (db.apply w).users = db.users := by
        cases w with
        | userInsert row => exact absurd rfl (h _ List.mem_cons_self)
        | userUpdate row => exact absurd rfl (h _ List.mem_cons_self)
        | _ => rfl
      rw [← hw]
      exact ih (List.filter_eq_nil_iff.mpr fun w' hw' => h w' (List.mem_cons_of_mem _ hw'))

/-- Statements on other tables leave the sessions and the refresh tokens alone. -/
theorem view_sessions_eq {db : Db} (h : ∀ w ∈ ws, w.onSessions = false) :
    (RowLocks.view Db.apply db ws).sessions = db.sessions ∧
      (RowLocks.view Db.apply db ws).refreshTokens = db.refreshTokens := by
  induction ws generalizing db with
  | nil => exact ⟨rfl, rfl⟩
  | cons w ws ih =>
      have hw : (db.apply w).sessions = db.sessions ∧
          (db.apply w).refreshTokens = db.refreshTokens := by
        cases w with
        | userInsert row => exact ⟨rfl, rfl⟩
        | userUpdate row => exact ⟨rfl, rfl⟩
        | outboxInsert row => exact ⟨rfl, rfl⟩
        | auditInsert row => exact ⟨rfl, rfl⟩
        | _ => exact absurd (h _ List.mem_cons_self) (by simp [Write.onSessions])
      rw [← hw.1, ← hw.2]
      exact ih fun w' hw' => h w' (List.mem_cons_of_mem _ hw')

/-- A request that has inserted no session has no insert pending. -/
theorem Pending.no_insert (h : Pending env p ws) (ha : p.added = none) :
    ws.filterMap Write.newSession = [] ∧ ws.filterMap Write.newToken = [] := by
  constructor
  · refine List.filterMap_eq_nil_iff.mpr fun w hmem => ?_
    cases w with
    | sessionInsert row =>
        obtain ⟨s, hs, -⟩ := h.source _ hmem
        exact absurd (ha.symm.trans hs) (by simp)
    | _ => rfl
  · refine List.filterMap_eq_nil_iff.mpr fun w hmem => ?_
    cases w with
    | tokenInsert row =>
        obtain ⟨s, t, hs, -⟩ := h.source _ hmem
        exact absurd (ha.symm.trans hs) (by simp)
    | _ => rfl

/-- A user statement joins the pending ones. -/
theorem Pending.updateUser (h : Pending env p ws) (hc : p.committed = false)
    (hw : p.userWrite = none) (hi : p.userInsert = none) (u : User) (iv : ℕ) :
    Pending env { p with userWrite := some u }
      (ws ++ [.userUpdate (userToValues env iv u (u.version + 1))]) where
  source w hmem := by
    rcases List.mem_append.mp hmem with hmem | hmem
    · have hf := h.source w hmem
      cases w with
      | userUpdate row =>
          obtain ⟨u', iv', hu', -⟩ := hf
          exact absurd (hw.symm.trans hu') (by simp)
      | _ => exact hf
    · obtain rfl := List.mem_singleton.mp hmem
      exact ⟨u, iv, rfl, rfl⟩
  user _ u' hu' := by
    obtain rfl := Option.some.inj hu'
    exact ⟨iv, by simp⟩
  added _ s hs := List.Subset.trans (h.added hc s hs) (List.subset_append_left _ _)
  updated _ s hs := List.Subset.trans (h.updated hc s hs) (List.subset_append_left _ _)
  closed hc' := absurd (hc.symm.trans hc') (by simp)
  oneUser := by
    rw [List.filter_append, h.no_user hw hi, List.nil_append]
    exact List.length_filter_le _ _
  newUsers := by
    rw [List.filterMap_append]
    exact (List.append_nil _).symm ▸ h.newUsers
  newSessions := by
    rw [List.filterMap_append]
    exact (List.append_nil _).symm ▸ h.newSessions
  newTokens := by
    rw [List.filterMap_append]
    exact (List.append_nil _).symm ▸ h.newTokens

theorem Pending.addUser (h : Pending env p ws) (hc : p.committed = false)
    (hw : p.userWrite = none) (hi : p.userInsert = none) (u : User) (iv : ℕ) :
    Pending env { p with userInsert := some u }
      (ws ++ [.userInsert (userToValues env iv u 0)]) where
  source w hmem := by
    rcases List.mem_append.mp hmem with hmem | hmem
    · have hf := h.source w hmem
      cases w with
      | userInsert row =>
          obtain ⟨u', iv', hu', -⟩ := hf
          exact absurd (hi.symm.trans hu') (by simp)
      | _ => exact hf
    · obtain rfl := List.mem_singleton.mp hmem
      exact ⟨u, iv, rfl, rfl⟩
  user _ u' hu' := absurd (hw.symm.trans hu') (by simp)
  added _ s hs := List.Subset.trans (h.added hc s hs) (List.subset_append_left _ _)
  updated _ s hs := List.Subset.trans (h.updated hc s hs) (List.subset_append_left _ _)
  closed hc' := absurd (hc.symm.trans hc') (by simp)
  oneUser := by
    rw [List.filter_append, h.no_user hw hi, List.nil_append]
    exact List.length_filter_le _ _
  newUsers := by
    have : ws.filterMap Write.newUser = [] := by
      refine List.filterMap_eq_nil_iff.mpr fun w hmem => ?_
      cases w with
      | userInsert row =>
          obtain ⟨u', iv', hu', -⟩ := h.source _ hmem
          exact absurd (hi.symm.trans hu') (by simp)
      | _ => rfl
    rw [List.filterMap_append, this]
    simp [Write.newUser]
  newSessions := by
    rw [List.filterMap_append]
    exact (List.append_nil _).symm ▸ h.newSessions
  newTokens := by
    rw [List.filterMap_append]
    exact (List.append_nil _).symm ▸ h.newTokens

/-- The statements of `add` come from the session that is added. -/
theorem addSession_source {s : SessionAggregate} {w : Write} (hs : p.added = some s)
    (hw : w ∈ addSessionWrites s) : WriteFrom env p w := by
  rcases List.mem_cons.mp hw with rfl | hw
  · exact ⟨s, hs, rfl⟩
  · obtain ⟨t, ht, rfl⟩ := List.mem_map.mp hw
    exact ⟨s, t, hs, ht, rfl⟩

/-- The statements of `update` come from the session that is updated. -/
theorem updateSession_source {s : SessionAggregate} {w : Write} (hs : s ∈ p.updated)
    (hw : w ∈ updateSessionWrites s) : WriteFrom env p w := by
  rcases List.mem_cons.mp hw with rfl | hw
  · exact ⟨s, hs, rfl, rfl, rfl⟩
  · obtain ⟨t, ht, rfl⟩ := List.mem_map.mp hw
    exact ⟨s, hs, t, ht, rfl⟩

theorem Pending.addSession (h : Pending env p ws) (hc : p.committed = false)
    (ha : p.added = none) {s : SessionAggregate} {t : RefreshToken}
    (ht : s.refreshTokens = [t]) :
    Pending env { p with added := some s } (ws ++ addSessionWrites s) where
  source w hmem := by
    rcases List.mem_append.mp hmem with hmem | hmem
    · have hf := h.source w hmem
      cases w with
      | sessionInsert row =>
          obtain ⟨s', hs', -⟩ := hf
          exact absurd (ha.symm.trans hs') (by simp)
      | tokenInsert row =>
          obtain ⟨s', t', hs', -⟩ := hf
          exact absurd (ha.symm.trans hs') (by simp)
      | _ => exact hf
    · exact addSession_source rfl hmem
  user _ u hu := by
    obtain ⟨iv, hiv⟩ := h.user hc u hu
    exact ⟨iv, List.mem_append_left _ hiv⟩
  added _ s' hs' := by
    obtain rfl := Option.some.inj hs'
    exact List.subset_append_right _ _
  updated _ s' hs' := List.Subset.trans (h.updated hc s' hs') (List.subset_append_left _ _)
  closed hc' := absurd (hc.symm.trans hc') (by simp)
  oneUser := by
    have : (addSessionWrites s).filter Write.onUsers = [] := by
      simp [addSessionWrites, ht, Write.onUsers]
    rw [List.filter_append, this, List.append_nil]
    exact h.oneUser
  newUsers := by
    have : (addSessionWrites s).filterMap Write.newUser = [] := by
      simp [addSessionWrites, ht, Write.newUser, List.filterMap_cons]
    rw [List.filterMap_append, this, List.append_nil]
    exact h.newUsers
  newSessions := by
    rw [List.filterMap_append, (h.no_insert ha).1]
    simp [addSessionWrites, ht, Write.newSession, List.filterMap_cons]
  newTokens := by
    rw [List.filterMap_append, (h.no_insert ha).2]
    simp [addSessionWrites, ht, Write.newToken, List.filterMap_cons]

theorem updateSessionWrites_quiet (s : SessionAggregate) :
    (updateSessionWrites s).filter Write.onUsers = [] ∧
      (updateSessionWrites s).filterMap Write.newUser = [] ∧
      (updateSessionWrites s).filterMap Write.newSession = [] ∧
      (updateSessionWrites s).filterMap Write.newToken = [] := by
  refine ⟨?_, ?_, ?_, ?_⟩
  · simp [updateSessionWrites, Write.onUsers]
  · simp [updateSessionWrites, Write.newUser]
  · simp [updateSessionWrites, Write.newSession]
  · simp [updateSessionWrites, Write.newToken]

theorem Pending.updateSession (h : Pending env p ws) (hc : p.committed = false)
    (s : SessionAggregate) :
    Pending env { p with updated := s :: p.updated } (ws ++ updateSessionWrites s) where
  source w hmem := by
    rcases List.mem_append.mp hmem with hmem | hmem
    · have hf := h.source w hmem
      cases w with
      | sessionUpdate sid isRevoked expiresAt =>
          obtain ⟨s', hs', hrest⟩ := hf
          exact ⟨s', List.mem_cons_of_mem _ hs', hrest⟩
      | tokenUpsert row =>
          obtain ⟨s', hs', hrest⟩ := hf
          exact ⟨s', List.mem_cons_of_mem _ hs', hrest⟩
      | _ => exact hf
    · exact updateSession_source List.mem_cons_self hmem
  user _ u hu := by
    obtain ⟨iv, hiv⟩ := h.user hc u hu
    exact ⟨iv, List.mem_append_left _ hiv⟩
  added _ s' hs' := List.Subset.trans (h.added hc s' hs') (List.subset_append_left _ _)
  updated _ s' hs' := by
    rcases List.mem_cons.mp hs' with rfl | hs'
    · exact List.subset_append_right _ _
    · exact List.Subset.trans (h.updated hc s' hs') (List.subset_append_left _ _)
  closed hc' := absurd (hc.symm.trans hc') (by simp)
  oneUser := by
    rw [List.filter_append, (updateSessionWrites_quiet s).1, List.append_nil]
    exact h.oneUser
  newUsers := by
    rw [List.filterMap_append, (updateSessionWrites_quiet s).2.1, List.append_nil]
    exact h.newUsers
  newSessions := by
    rw [List.filterMap_append, (updateSessionWrites_quiet s).2.2.1, List.append_nil]
    exact h.newSessions
  newTokens := by
    rw [List.filterMap_append, (updateSessionWrites_quiet s).2.2.2, List.append_nil]
    exact h.newTokens

/-! ### Sound configurations -/

section Runs

variable {ι : Type}

/-- **The open transactions of a configuration.** -/
structure Sound (env : Env) (c : Cfg ι) : Prop where
  exclusive : RowLocks.Exclusive Write.keys c.shared.pending
  running : ∀ i p, c.threads i = .running p → Pending env (did c i) (c.shared.pending i)
  finished : ∀ i x, c.threads i = .done x → c.shared.pending i = []

/-- Every pending statement comes from a write of its request. -/
theorem Sound.source {c : Cfg ι} (h : Sound env c) (i : ι) :
    ∀ w ∈ c.shared.pending i, WriteFrom env (did c i) w := by
  cases ht : c.threads i with
  | running p => exact (h.running i p ht).source
  | done x =>
      rw [h.finished i x ht]
      exact fun w hw => absurd hw List.not_mem_nil

variable [DecidableEq ι]

/-- A step of request `i` keeps a configuration sound when it keeps it sound for `i` and
keeps the rows held apart. -/
theorem Sound.step {c : Cfg ι} (h : Sound env c) {i : ι} {o : Op} {x : o.Res}
    {a : Act Response} {w : World ι} {ws : List Write}
    (hpend : w.pending = Function.update c.shared.pending i ws)
    (hex : RowLocks.Exclusive Write.keys w.pending)
    (hi : Pending env ((did c i).note o x) ws) :
    Sound env (Machine.afterCall c i o x a w) where
  exclusive := hex
  running j p hj := by
    by_cases hji : j = i
    · subst hji
      rw [did_afterCall_self, afterCall_shared, hpend, Function.update_self]
      exact hi
    · have hj' : c.threads j = .running p := by simpa [Machine.afterCall, hji] using hj
      rw [did_afterCall_ne hji, afterCall_shared, hpend, Function.update_of_ne hji]
      exact h.running j p hj'
  finished j y hj := by
    by_cases hji : j = i
    · subst hji
      exact absurd hj (by simp [Machine.afterCall])
    · have hj' : c.threads j = .done y := by simpa [Machine.afterCall, hji] using hj
      rw [afterCall_shared, hpend, Function.update_of_ne hji]
      exact h.finished j y hj'

/-- The statements a write issues are added to those of its request. -/
theorem Sound.issue {c : Cfg ι} (h : Sound env c) {i : ι} {o : Op} {x : o.Res}
    {a : Act Response} {w : World ι} {ws : List Write}
    (hfree : RowLocks.Free Write.keys c.shared.pending i ws)
    (hpend : w.pending = Function.update c.shared.pending i (c.shared.pending i ++ ws))
    (hi : Pending env ((did c i).note o x) (c.shared.pending i ++ ws)) :
    Sound env (Machine.afterCall c i o x a w) :=
  h.step hpend (hpend ▸ h.exclusive.extend hfree) hi

/-- A call that leaves the open transactions alone. -/
theorem Sound.quiet {c : Cfg ι} (h : Sound env c) {i : ι} {o : Op} {x : o.Res}
    {a b : Act Response} {w : World ι} (ht : c.threads i = .running a)
    (hpend : w.pending = c.shared.pending) (hw : (did c i).SameWrites ((did c i).note o x)) :
    Sound env (Machine.afterCall c i o x b w) := by
  have hself : w.pending = Function.update c.shared.pending i (c.shared.pending i) := by
    rw [hpend, Function.update_eq_self]
  exact h.step hself (hpend ▸ h.exclusive) ((h.running i a ht).same hw)

variable [Fintype ι] {reqs : ι → Request} {C : Steps ι} {w : World ι} {c : Cfg ι}

/-- **The open transactions are sound along every run.** -/
theorem Runs.sound (h : Runs env reqs C w c) (hw : ∀ i, w.pending i = []) : Sound env c := by
  refine h.induction (Sound env) ?_ ?_ ?_ ?_
  · refine ⟨fun i j _ k hk => ?_, fun i p _ => ?_, fun i x hx => ?_⟩
    · rw [start_shared, hw i] at hk
      exact absurd hk RowLocks.not_holds_nil
    · rw [start_shared, start_did, hw i]
      exact pending_nil env (Or.inl rfl) (Or.inl rfl) (Or.inl rfl)
    · exact absurd hx (by simp [start, Config.start])
  · intro c i ch o k x w' _ hs _ ht hal he
    have hp := hs.running i _ ht
    by_cases ho : o.writes = false
    · exact hs.quiet ht (exec_quiet ho he).2.1 (note_sameWrites _ ho x)
    · cases o with
      | updateUser u =>
          obtain ⟨h₁, h₂, h₃, -⟩ := hal
          rcases exec_updateUser he with ⟨e, rfl, -, rfl⟩ | ⟨rfl, -, hf, rfl⟩
          · exact hs.quiet ht rfl ⟨rfl, rfl, rfl, rfl, rfl⟩
          · exact hs.issue hf (by simp) (hp.updateUser h₃ h₁ h₂ u _)
      | addUser u =>
          obtain ⟨h₁, h₂, h₃, -⟩ := hal
          rcases exec_addUser he with ⟨e, rfl, rfl⟩ | ⟨rfl, hf, rfl⟩
          · exact hs.quiet ht rfl ⟨rfl, rfl, rfl, rfl, rfl⟩
          · exact hs.issue hf (by simp) (hp.addUser h₃ h₁ h₂ u _)
      | addSession s =>
          obtain ⟨h₁, -, h₃, -, -, ⟨t, htok, -⟩, -⟩ := hal
          rcases exec_addSession he with ⟨rfl, rfl⟩ | ⟨rfl, hf, -, rfl⟩
          · exact hs.quiet ht rfl ⟨rfl, rfl, rfl, rfl, rfl⟩
          · exact hs.issue hf (by simp) (hp.addSession h₃ h₁ htok)
      | updateSession s =>
          obtain ⟨-, h₂, -⟩ := hal
          rcases exec_updateSession he with ⟨rfl, rfl⟩ | ⟨rfl, hf, -, rfl⟩
          · exact hs.quiet ht rfl ⟨rfl, rfl, rfl, rfl, rfl⟩
          · exact hs.issue hf (by simp) (hp.updateSession h₂ s)
      | commit =>
          rcases exec_commit he with ⟨rfl, rfl⟩ | ⟨rfl, rfl⟩
          · refine hs.step (rollback_pending _ _) ?_
              (pending_nil env (Or.inl rfl) (Or.inl rfl) (Or.inl rfl))
            rw [rollback_pending]
            exact hs.exclusive.clear
          · refine hs.step (commit_pending _ _ _) ?_
              (pending_nil env (Or.inr rfl) (Or.inr rfl) (Or.inr rfl))
            rw [commit_pending]
            exact hs.exclusive.clear
      | _ => exact absurd rfl ho
  · intro c i ch x _ hs _ ht _
    refine ⟨?_, fun j p hj => ?_, fun j y hj => ?_⟩
    · rw [left_shared, rollback_pending]
      exact hs.exclusive.clear
    · by_cases hji : j = i
      · subst hji
        exact absurd hj (by simp [left])
      · have hj' : c.threads j = .running p := by simpa [left, hji] using hj
        rw [left_shared, rollback_pending, Function.update_of_ne hji, left_did]
        exact hs.running j p hj'
    · by_cases hji : j = i
      · subst hji
        rw [left_shared, rollback_pending, Function.update_self]
      · have hj' : c.threads j = .done y := by simpa [left, hji] using hj
        rw [left_shared, rollback_pending, Function.update_of_ne hji]
        exact hs.finished j y hj'
  · exact fun c d _ hs _ => ⟨hs.exclusive, hs.running, hs.finished⟩

end Runs

end BackendTemplate
