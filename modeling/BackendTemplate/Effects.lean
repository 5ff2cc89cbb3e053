import BackendTemplate.Discipline

/-!
# What a Call Does to the World

The inversion lemmas of `exec`: what a call that writes does (`exec_updateUser`,
`exec_addUser`, `exec_addSession`, `exec_updateSession`, `exec_commit`), and that every
other call leaves the tables and the open transactions alone (`exec_quiet`). Later modules
never unfold `exec`.

They also show that the world only gives the answers the use cases rely on
(`machine_answers`), which puts every call of every request, in every interleaving, under
the contract (`start_obeys` with `Atomic.Machine.Reach.obeys`).
-/

namespace BackendTemplate

open Atomic Atomic.Prog

variable {env : Env} {ι : Type}

/-! ### Reads -/

/-- **What the `acquire_*` methods find**: a row that the query selects, decoded. -/
theorem acquireUser_some {db : Db} {q : UserQuery} {u : User}
    (h : db.acquireUser env q = .ok (some u)) :
    ∃ row ∈ db.users, q.selects row = true ∧ rowToUser env row = .ok u := by
  rw [Db.acquireUser] at h
  split at h
  · cases h
  · rename_i row hrow
    refine ⟨row, List.mem_of_find?_eq_some hrow, List.find?_some hrow, ?_⟩
    cases hr : rowToUser env row with
    | error e => rw [hr] at h; cases h
    | ok v =>
        rw [hr] at h
        obtain rfl : v = u := by simpa [Except.map] using h
        rfl

/-- A user found by id has that id. -/
theorem acquireUser_id {db : Db} {x : Uuid} {u : User}
    (h : db.acquireUser env (.id x) = .ok (some u)) : u.id.value = x := by
  obtain ⟨row, -, hsel, hr⟩ := acquireUser_some h
  rw [(rowToUser_ok hr).1]
  simpa [UserQuery.selects] using hsel

/-- What `_session_from_rows` keeps of its row. -/
theorem sessionFromRows_ok {row : SessionRow} {ts : List RefreshToken} {s : SessionAggregate}
    (h : sessionFromRows row ts = .ok s) :
    s.sessionId = row.sessionId ∧ s.userId.value = row.userId ∧ s.expiresAt = row.expiresAt ∧
      s.isRevoked = row.isRevoked ∧ s.refreshTokens = ts := by
  rw [sessionFromRows, except_bind_eq_ok] at h
  obtain ⟨u, hu, hs⟩ := h
  obtain rfl := Except.ok.inj hs
  exact ⟨rfl, UserID.make_ok hu, rfl, rfl, rfl⟩

/-- A session loaded from its row. -/
theorem loadSession_ok {db : Db} {row : SessionRow} {s : SessionAggregate}
    (h : db.loadSession row = .ok s) :
    ∃ ts, db.tokensOf row.sessionId = .ok ts ∧ sessionFromRows row ts = .ok s :=
  except_bind_eq_ok.mp h

/-- **What `acquire_by_token_hash` finds**: an unrevoked token row with this hash, and the
unrevoked session it belongs to. -/
theorem acquireSessionByToken_some {db : Db} {hash : Bytes} {s : SessionAggregate}
    (h : db.acquireSessionByToken hash = .ok (some s)) :
    ∃ token ∈ db.refreshTokens, token.tokenHash = hash ∧ token.isRevoked = false ∧
      ∃ row ∈ db.sessions, row.sessionId = token.sessionId ∧ row.isRevoked = false ∧
        db.loadSession row = .ok s := by
  rw [Db.acquireSessionByToken] at h
  split at h
  · cases h
  · rename_i token htoken
    have ht := List.find?_some htoken
    rw [Bool.and_eq_true, decide_eq_true_eq, Bool.not_eq_true'] at ht
    refine ⟨token, List.mem_of_find?_eq_some htoken, ht.1, ht.2, ?_⟩
    split at h
    · cases h
    · rename_i row hrow
      split at h
      · cases h
      · rename_i hrev
        refine ⟨row, List.mem_of_find?_eq_some hrow, ?_, by simpa using hrev, ?_⟩
        · simpa using List.find?_some hrow
        · cases hl : db.loadSession row with
          | error e => rw [hl] at h; cases h
          | ok v =>
              rw [hl] at h
              obtain rfl : v = s := by simpa [Except.map] using h
              rfl

/-- The sessions `acquire_by_user_id` returns belong to the user. -/
theorem acquireSessionsOf_owner {db : Db} {x : Uuid} {ss : List SessionAggregate}
    (h : db.acquireSessionsOf x = .ok ss) : ∀ s ∈ ss, s.userId.value = x := by
  intro s hs
  rw [Db.acquireSessionsOf] at h
  split at h
  · obtain rfl : [] = ss := Except.ok.inj h
    exact absurd hs List.not_mem_nil
  · rw [except_bind_eq_ok] at h
    obtain ⟨g, -, h⟩ := h
    obtain ⟨row, hrow, hrs⟩ := mem_mapM_ok h hs
    have hcond : row.userId = x ∧ row.isRevoked = false := by
      simpa using (List.mem_filter.mp hrow).2
    exact (sessionFromRows_ok hrs).2.1.trans hcond.1

/-! ### The open transactions -/

@[simp] theorem draw_db (w : World ι) (n : ℕ) : (w.draw n).db = w.db := rfl

@[simp] theorem draw_pending (w : World ι) (n : ℕ) : (w.draw n).pending = w.pending := rfl

theorem view_eq (w : World ι) (i : ι) :
    w.view i = RowLocks.view Db.apply w.db (w.pending i) := rfl

/-- A request that has written nothing sees the tables. -/
theorem view_of_idle {w : World ι} {i : ι} (h : w.pending i = []) : w.view i = w.db := by
  rw [view_eq, h]
  rfl

section Worlds

variable [DecidableEq ι]

@[simp] theorem issue_db (w : World ι) (i : ι) (ws : List Write) : (w.issue i ws).db = w.db := rfl

@[simp] theorem issue_pending (w : World ι) (i : ι) (ws : List Write) :
    (w.issue i ws).pending = Function.update w.pending i (w.pending i ++ ws) := by
  funext j
  by_cases h : j = i
  · subst h
    simp [World.pending, World.issue]
  · simp [World.pending, World.issue, h]

@[simp] theorem track_pending (w : World ι) (i : ι) (es : List Event) :
    (w.track i es).pending = w.pending := by
  funext j
  by_cases h : j = i
  · subst h
    simp [World.pending, World.track]
  · simp [World.pending, World.track, h]

/-- What a request sees after one statement of its own. -/
theorem view_issue_draw (w : World ι) (i : ι) (wr : Write) (n : ℕ) :
    ((w.issue i [wr]).draw n).view i = (w.view i).apply wr := by
  rw [view_eq, draw_pending, issue_pending, Function.update_self, RowLocks.view_append]
  rfl

theorem view_track (w : World ι) (i j : ι) (es : List Event) :
    (w.track i es).view j = w.view j := by
  rw [view_eq, track_pending]
  rfl

@[simp] theorem rollback_db (w : World ι) (i : ι) : (w.rollback i).db = w.db := rfl

@[simp] theorem rollback_pending (w : World ι) (i : ι) :
    (w.rollback i).pending = Function.update w.pending i [] := by
  funext j
  by_cases h : j = i
  · subst h
    simp [World.pending, World.rollback]
  · simp [World.pending, World.rollback, h]

@[simp] theorem commit_pending (env : Env) (w : World ι) (i : ι) :
    (w.commit env i).pending = Function.update w.pending i [] := by
  funext j
  by_cases h : j = i
  · subst h
    simp [World.pending, World.commit]
  · simp [World.pending, World.commit, h]

end Worlds

/-! ### Calls -/

/-- The calls that can change the tables or the open transactions. -/
def Op.writes : Op → Bool
  | .addUser _ | .updateUser _ | .addSession _ | .updateSession _ | .commit => true
  | _ => false

section Exec

variable [Fintype ι] [DecidableEq ι]

/-- Statements either run, on rows nobody else holds, or raise and leave no trace. -/
theorem execWrites_cases {α : Type} {w w' : World ι} {i : ι} {ws : List Write}
    {err : AppError} {done : World ι → World ι} {a : α} {x : Except AppError α}
    (h : execWrites w i ws err done a = some (x, w')) :
    (x = .error err ∧ w' = w) ∨
      (x = .ok a ∧ RowLocks.Free Write.keys w.pending i ws ∧ (w.view i).admitsAll ws = true ∧
        w' = done (w.issue i ws)) := by
  rw [execWrites] at h
  split at h
  · rename_i hf
    split at h
    · rename_i ha
      simp only [Option.some.injEq, Prod.mk.injEq] at h
      exact Or.inr ⟨h.1.symm, hf, ha, h.2.symm⟩
    · simp only [Option.some.injEq, Prod.mk.injEq] at h
      exact Or.inl ⟨h.1.symm, h.2.symm⟩
  · cases h

theorem uniquenessError_verdict (db : Db) (u : User) : (uniquenessError db u).verdict = false := by
  rw [uniquenessError]
  split
  · rfl
  · split <;> rfl

variable {ch : Choice} {i : ι} {w w' : World ι}

/-- **The conditional update of a users row.** -/
theorem exec_updateUser {u : User} {x : Except AppError User}
    (h : exec env ch i (.updateUser u) w = some (x, w')) :
    (∃ e, x = .error e ∧ e.verdict = false ∧ w' = w) ∨
      (x = .ok { u with version := u.version + 1 } ∧
        (∃ r ∈ (w.view i).users, r.id = u.id.value ∧ r.version = u.version) ∧
        RowLocks.Free Write.keys w.pending i
          [.userUpdate (userToValues env w.rng u (u.version + 1))] ∧
        w' = (w.issue i [.userUpdate (userToValues env w.rng u (u.version + 1))]).draw 1) := by
  change execUpdateUser env w i u = _ at h
  rw [execUpdateUser] at h
  split at h
  · rename_i hany
    rcases execWrites_cases h with ⟨rfl, rfl⟩ | ⟨rfl, hf, -, rfl⟩
    · exact Or.inl ⟨_, rfl, uniquenessError_verdict _ _, rfl⟩
    · rw [List.any_eq_true] at hany
      obtain ⟨r, hr, hrv⟩ := hany
      rw [Bool.and_eq_true, decide_eq_true_eq, decide_eq_true_eq] at hrv
      exact Or.inr ⟨rfl, ⟨r, hr, hrv⟩, hf, rfl⟩
  · simp only [Option.some.injEq, Prod.mk.injEq] at h
    exact Or.inl ⟨_, h.1.symm, rfl, h.2.symm⟩

theorem exec_addUser {u : User} {x : Except AppError Unit}
    (h : exec env ch i (.addUser u) w = some (x, w')) :
    (∃ e, x = .error e ∧ w' = w) ∨
      (x = .ok () ∧
        RowLocks.Free Write.keys w.pending i [.userInsert (userToValues env w.rng u 0)] ∧
        w' = (w.issue i [.userInsert (userToValues env w.rng u 0)]).draw 1) := by
  rw [exec] at h
  rcases execWrites_cases h with ⟨rfl, rfl⟩ | ⟨rfl, hf, -, rfl⟩
  · exact Or.inl ⟨_, rfl, rfl⟩
  · exact Or.inr ⟨rfl, hf, rfl⟩

theorem exec_addSession {s : SessionAggregate} {x : Except AppError Unit}
    (h : exec env ch i (.addSession s) w = some (x, w')) :
    (x = .error .integrityError ∧ w' = w) ∨
      (x = .ok () ∧ RowLocks.Free Write.keys w.pending i (addSessionWrites s) ∧
        (w.view i).admitsAll (addSessionWrites s) = true ∧
        w' = w.issue i (addSessionWrites s)) :=
  execWrites_cases h

theorem exec_updateSession {s : SessionAggregate} {x : Except AppError Unit}
    (h : exec env ch i (.updateSession s) w = some (x, w')) :
    (x = .error .integrityError ∧ w' = w) ∨
      (x = .ok () ∧ RowLocks.Free Write.keys w.pending i (updateSessionWrites s) ∧
        (w.view i).admitsAll (updateSessionWrites s) = true ∧
        w' = w.issue i (updateSessionWrites s)) :=
  execWrites_cases h

theorem exec_commit {x : Except AppError Unit}
    (h : exec env ch i .commit w = some (x, w')) :
    (x = .error .databaseError ∧ w' = w.rollback i) ∨ (x = .ok () ∧ w' = w.commit env i) := by
  change (if ch.commitFails then _ else _) = _ at h
  split at h
  · simp only [Option.some.injEq, Prod.mk.injEq] at h
    exact Or.inl ⟨h.1.symm, h.2.symm⟩
  · simp only [Option.some.injEq, Prod.mk.injEq] at h
    exact Or.inr ⟨h.1.symm, h.2.symm⟩

/-- **Every other call leaves the tables and the open transactions alone.** -/
theorem exec_quiet {o : Op} (ho : o.writes = false) {x : o.Res}
    (h : exec env ch i o w = some (x, w')) :
    w'.db = w.db ∧ w'.pending = w.pending ∧ w.rng ≤ w'.rng ∧ w'.clock = w.clock := by
  cases o with
  | addUser u => exact absurd ho (by simp [Op.writes])
  | updateUser u => exact absurd ho (by simp [Op.writes])
  | addSession s => exact absurd ho (by simp [Op.writes])
  | updateSession s => exact absurd ho (by simp [Op.writes])
  | commit => exact absurd ho (by simp [Op.writes])
  | register es =>
      simp only [exec, Option.some.injEq, Prod.mk.injEq] at h
      obtain ⟨-, rfl⟩ := h
      exact ⟨rfl, track_pending w i es, le_rfl, rfl⟩
  | _ =>
      simp only [exec, Option.some.injEq, Prod.mk.injEq] at h
      obtain ⟨-, rfl⟩ := h
      exact ⟨rfl, rfl, by simp [World.draw], rfl⟩

/-- **Only a commit changes the tables**, and no call takes a draw back. -/
theorem exec_db {o : Op} (ho : o ≠ .commit) {x : o.Res}
    (h : exec env ch i o w = some (x, w')) : w'.db = w.db ∧ w.rng ≤ w'.rng := by
  by_cases hw : o.writes = false
  · exact ⟨(exec_quiet hw h).1, (exec_quiet hw h).2.2.1⟩
  · cases o with
    | addUser u =>
        rcases exec_addUser h with ⟨e, rfl, rfl⟩ | ⟨rfl, -, rfl⟩
        · exact ⟨rfl, le_rfl⟩
        · exact ⟨rfl, Nat.le_succ _⟩
    | updateUser u =>
        rcases exec_updateUser h with ⟨e, rfl, -, rfl⟩ | ⟨rfl, -, -, rfl⟩
        · exact ⟨rfl, le_rfl⟩
        · exact ⟨rfl, Nat.le_succ _⟩
    | addSession s =>
        rcases exec_addSession h with ⟨rfl, rfl⟩ | ⟨rfl, -, -, rfl⟩
        · exact ⟨rfl, le_rfl⟩
        · exact ⟨rfl, le_rfl⟩
    | updateSession s =>
        rcases exec_updateSession h with ⟨rfl, rfl⟩ | ⟨rfl, -, -, rfl⟩
        · exact ⟨rfl, le_rfl⟩
        · exact ⟨rfl, le_rfl⟩
    | commit => exact absurd rfl ho
    | _ => exact absurd rfl hw

/-- **The world gives only possible answers.** -/
theorem machine_answers (env : Env) : (machine env ι).Answers (possible env) := by
  intro ch i o w x w' h
  change exec env ch i o w = some (x, w') at h
  cases o with
  | acquireUser q =>
      simp only [exec, Option.some.injEq, Prod.mk.injEq] at h
      obtain ⟨rfl, -⟩ := h
      cases hx : (w.view i).acquireUser env q with
      | error e => trivial
      | ok v =>
          cases v with
          | none => trivial
          | some u =>
              refine ⟨fun x hq => ?_, ?_⟩
              · subst hq
                exact acquireUser_id hx
              · obtain ⟨row, -, -, hr⟩ := acquireUser_some hx
                exact rowToUser_events hr
  | tokenHexes n =>
      simp only [exec, Option.some.injEq, Prod.mk.injEq] at h
      obtain ⟨rfl, -⟩ := h
      simp [possible]
  | acquireSessionsOf u =>
      simp only [exec, Option.some.injEq, Prod.mk.injEq] at h
      obtain ⟨rfl, -⟩ := h
      cases hx : (w.view i).acquireSessionsOf u with
      | error e => trivial
      | ok ss => exact acquireSessionsOf_owner hx
  | updateUser u =>
      rcases exec_updateUser h with ⟨e, rfl, he, -⟩ | ⟨rfl, -⟩
      · exact he
      · rfl
  | addSession s =>
      rcases exec_addSession h with ⟨rfl, -⟩ | ⟨rfl, -⟩
      · rfl
      · trivial
  | commit =>
      rcases exec_commit h with ⟨rfl, -⟩ | ⟨rfl, -⟩
      · rfl
      · trivial
  | verifyTwoFactor u code =>
      simp only [exec, Option.some.injEq, Prod.mk.injEq] at h
      exact ⟨w.clock, h.1.symm⟩
  | acquireSessionByToken hash =>
      simp only [exec, Option.some.injEq, Prod.mk.injEq] at h
      obtain ⟨rfl, -⟩ := h
      cases hx : (w.view i).acquireSessionByToken hash with
      | error e => trivial
      | ok v =>
          cases v with
          | none => trivial
          | some s =>
              obtain ⟨_, -, -, -, row, -, -, hrev, hload⟩ := acquireSessionByToken_some hx
              obtain ⟨ts, -, hs⟩ := loadSession_ok hload
              exact (sessionFromRows_ok hs).2.2.2.1.trans hrev
  | _ => trivial

end Exec

/-! ### The contract along every run -/

/-- The contract of request `r`, on full histories. -/
theorem program_obeys (env : Env) (r : Request) :
    (program env r).Obeys Hist.note (possible env) (fun h o => Allowed env r (progress h) o)
      (fun h x => Ends env r (progress h) x) [] :=
  Obeys.pull (f := progress) (fun _ _ _ => rfl) (program_keeps env r)

/-- The requests about to start are inside the contract. -/
theorem start_obeys (env : Env) (reqs : ι → Request) (w : World ι) :
    Machine.Obeys (possible env) (fun i h o => Allowed env (reqs i) (progress h) o)
      (fun i h x => Ends env (reqs i) (progress h) x)
      (Config.start w fun i => program env (reqs i)) :=
  Machine.obeys_start fun i => program_obeys env (reqs i)

end BackendTemplate
