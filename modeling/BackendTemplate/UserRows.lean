import BackendTemplate.Commits

/-!
# Users and Their Rows

`SQLAlchemyUserRepo.update` is conditional on the version it read and bumps it. So a user
that a request is about to commit was computed from the row that is in the table at that
very moment (`Tracked.written`), whatever other requests did in between: any other commit
would have bumped the version, and from the write to the commit the row is locked.

## Main results

* `Computes.keeps` — a request computes a user with the same id and version.
* `Runs.tracked` — the invariant.
* `Tracked.commit_row` — what a commit does to a users row.
-/

namespace BackendTemplate

open Atomic

variable {env : Env}

/-! ### What a request computes -/

theorem verifyTwoFactor_version (u : User) (now : Instant) (code : String) :
    (u.verifyTwoFactor env now code).2.version = u.version := by
  obtain ⟨s, hs⟩ := u.verifyTwoFactor_eq env now code
  rw [hs]

theorem verifyTwoFactor_keeps {u u' : User} {now : Instant} {code : String} {b : Bool}
    (h : u.verifyTwoFactor env now code = (b, u')) : u'.id = u.id ∧ u'.version = u.version := by
  have hsnd : u' = (u.verifyTwoFactor env now code).2 := by rw [h]
  subst hsnd
  exact ⟨verifyTwoFactor_id u now code, verifyTwoFactor_version u now code⟩

theorem confirmTwoFactor_ok {u u' : User} {now : Instant} {code : String}
    (h : u.confirmTwoFactor env now code = .ok u') :
    ∃ s, u.twoFactorSecret = some s ∧
      u' = { u with twoFactorSecret := some (s.enable now) }.recordEvent
        (.twoFactorEnabled u.id.value s.remainingBackupCodes) := by
  rw [User.confirmTwoFactor] at h
  split at h
  · cases h
  · rename_i s hs
    split at h
    · cases h
    · split at h
      · cases h
      · exact ⟨s, hs, (Except.ok.inj h).symm⟩

theorem changePassword_ok {u u' : User} {old : PlainPassword env} {new : HashedPassword}
    (h : u.changePassword env old new = .ok u') :
    u' = { u with
      hashedPassword := new
      accountLock := u.accountLock.unlock
      passwordResetToken := none }.recordEvent (.passwordChanged u.id.value) := by
  rw [User.changePassword] at h
  split at h
  · cases h
  · exact (Except.ok.inj h).symm

theorem resetPassword_ok {u u' : User} {now : Instant} {token : String} {new : HashedPassword}
    (h : u.resetPassword env now token new = .ok u') :
    ∃ t, u' = { u with
      hashedPassword := new
      accountLock := u.accountLock.unlock
      passwordResetToken := some t }.recordEvent (.passwordResetCompleted u.id.value) := by
  rw [User.resetPassword] at h
  split at h
  · cases h
  · split at h
    · cases h
    · split at h
      · cases h
      · exact ⟨_, (Except.ok.inj h).symm⟩

/-- **A request computes a user with the same id and version.** -/
theorem Computes.keeps {r : Request} {u₀ u : User} (h : Computes env r u₀ u) :
    u.id = u₀.id ∧ u.version = u₀.version := by
  cases h with
  | wrongPassword t t' =>
      rw [User.recordFailedLoginAttempt]
      split <;> exact ⟨rfl, rfl⟩
  | rightPassword => exact ⟨rfl, rfl⟩
  | completeConsumes now hv => exact verifyTwoFactor_keeps hv
  | verifyConsumes now hv => exact verifyTwoFactor_keeps hv
  | enrol => exact ⟨rfl, rfl⟩
  | confirm now hc =>
      obtain ⟨s, -, rfl⟩ := confirmTwoFactor_ok hc
      exact ⟨rfl, rfl⟩
  | disable => exact ⟨rfl, rfl⟩
  | changePassword hc =>
      obtain rfl := changePassword_ok hc
      exact ⟨rfl, rfl⟩
  | requestReset => exact ⟨rfl, rfl⟩
  | resetPassword now hr =>
      obtain ⟨t, rfl⟩ := resetPassword_ok hr
      exact ⟨rfl, rfl⟩
  | delete now =>
      rw [User.delete]
      split <;> exact ⟨rfl, rfl⟩
  | verifyEmail => exact ⟨rfl, rfl⟩
  | profile h₁ h₂ =>
      have hname : ∀ name, (u₀.updateUsername name).id = u₀.id ∧
          (u₀.updateUsername name).version = u₀.version := by
        intro name
        rw [User.updateUsername]
        split <;> exact ⟨rfl, rfl⟩
      have hmail : ∀ (v : User) now address token, (v.updateEmail env now address token).id = v.id ∧
          (v.updateEmail env now address token).version = v.version := by
        intro v now address token
        rw [User.updateEmail]
        split <;> exact ⟨rfl, rfl⟩
      rcases h₁ with rfl | ⟨name, rfl⟩
      · rcases h₂ with rfl | ⟨now, address, token, rfl⟩
        · exact ⟨rfl, rfl⟩
        · exact hmail _ _ _ _
      · rcases h₂ with rfl | ⟨now, address, token, rfl⟩
        · exact hname name
        · exact ⟨(hmail _ _ _ _).1.trans (hname name).1, (hmail _ _ _ _).2.trans (hname name).2⟩

/-! ### Loading -/

section Requests

variable {ι : Type} [Fintype ι] [DecidableEq ι]

/-- A user that a request has read was, or is by this very call. -/
theorem mem_note_users {p : Progress} {ch : Choice} {i : ι} {o : Op} {x : o.Res}
    {w w' : World ι} (he : exec env ch i o w = some (x, w')) {u : User}
    (hu : u ∈ (p.note o x).users) :
    u ∈ p.users ∨ ∃ q, o = .acquireUser q ∧ (w.view i).acquireUser env q = .ok (some u) := by
  cases o with
  | acquireUser q =>
      simp only [exec, Option.some.injEq, Prod.mk.injEq] at he
      obtain ⟨rfl, -⟩ := he
      cases hx : (w.view i).acquireUser env q with
      | error e =>
          rw [hx] at hu
          exact Or.inl hu
      | ok v =>
          rw [hx] at hu
          cases v with
          | none => exact Or.inl hu
          | some u' =>
              rcases List.mem_cons.mp hu with rfl | hu
              · exact Or.inr ⟨q, rfl, hx⟩
              · exact Or.inl hu
  | acquireSession sid =>
      rcases x with e | _ | s <;> exact Or.inl hu
  | acquireSessionByToken hash =>
      rcases x with e | _ | s <;> exact Or.inl hu
  | acquireSessionsOf u' => cases x <;> exact Or.inl hu
  | cacheGet k => cases x <;> exact Or.inl hu
  | updateUser u' => cases x <;> exact Or.inl hu
  | addUser u' => cases x <;> exact Or.inl hu
  | addSession s => cases x <;> exact Or.inl hu
  | updateSession s => cases x <;> exact Or.inl hu
  | commit => cases x <;> exact Or.inl hu
  | _ => exact Or.inl hu

/-! ### The invariant -/

/-- **What the tables know of the users that requests have read and written.** -/
structure Tracked (env : Env) (reqs : ι → Request) (c : Cfg ι) : Prop where
  /-- A user that was read still has a row, at its version or a later one; at its version,
  the row is what was read. -/
  loaded : ∀ i, ∀ u ∈ (did c i).users, ∃ row, c.shared.db.user u.id.value = some row ∧
    u.version ≤ row.version ∧ (row.version = u.version → rowToUser env row = .ok u)
  /-- A user that is about to be committed was computed from the committed row. -/
  written : ∀ i a, c.threads i = .running a → (did c i).committed = false →
    ∀ u, (did c i).userWrite = some u →
      ∃ u₀ ∈ (did c i).users, Derives env (reqs i) (did c i) u₀ u ∧
      ∃ row, c.shared.db.user u.id.value = some row ∧ row.version = u.version ∧
        rowToUser env row = .ok u₀

variable {reqs : ι → Request} {C : Steps ι} {w : World ι} {c : Cfg ι}

omit [Fintype ι] in
/-- A call that does not commit keeps the invariant when what it reads is in the tables and
what it writes comes from the committed row. -/
theorem Tracked.quiet (h : Tracked env reqs c) {i : ι} {o : Op} {x : o.Res}
    {a b : Act Response} {w' : World ι} (ht : c.threads i = .running a)
    (hdb : w'.db = c.shared.db)
    (hc : ((did c i).note o x).committed = false → (did c i).committed = false)
    (hread : ∀ u ∈ ((did c i).note o x).users, u ∈ (did c i).users ∨
      ∃ row, c.shared.db.user u.id.value = some row ∧ rowToUser env row = .ok u)
    (hwrite : ∀ u, ((did c i).note o x).userWrite = some u → (did c i).userWrite = some u ∨
      ∃ u₀ ∈ (did c i).users, Derives env (reqs i) (did c i) u₀ u ∧
        ∃ row, c.shared.db.user u.id.value = some row ∧ row.version = u.version ∧
          rowToUser env row = .ok u₀) :
    Tracked env reqs (Machine.afterCall c i o x b w') := by
  have hext := note_extends (did c i) o x
  refine ⟨fun j u hu => ?_, fun j a' hj hcj u hu => ?_⟩
  · rw [afterCall_shared, hdb]
    by_cases hji : j = i
    · subst hji
      rw [did_afterCall_self] at hu
      rcases hread u hu with hold | ⟨row, hrow, hok⟩
      · exact h.loaded j u hold
      · exact ⟨row, hrow, (rowToUser_ok hok).2.1.le, fun _ => hok⟩
    · rw [did_afterCall_ne hji] at hu
      exact h.loaded j u hu
  · rw [afterCall_shared, hdb]
    by_cases hji : j = i
    · subst hji
      rw [did_afterCall_self] at hu hcj ⊢
      have hfrom : ∃ u₀ ∈ (did c j).users, Derives env (reqs j) (did c j) u₀ u ∧
          ∃ row, c.shared.db.user u.id.value = some row ∧ row.version = u.version ∧
            rowToUser env row = .ok u₀ :=
        (hwrite u hu).elim (h.written j a ht (hc hcj) u) id
      obtain ⟨u₀, hu₀, hd, hrow⟩ := hfrom
      exact ⟨u₀, hext.users hu₀, hd.mono hext, hrow⟩
    · rw [did_afterCall_ne hji] at hu hcj ⊢
      rw [threads_afterCall_ne hji] at hj
      exact h.written j a' hj hcj u hu

omit [Fintype ι] [DecidableEq ι] in
/-- **What a commit does to a users row**: nothing, or it replaces the row by what its
request computed from it, one version later. -/
theorem Tracked.commit_row (h : Tracked env reqs c) {i : ι} {a : Act Response}
    (ho : Open env (reqs i) c i) (ht : c.threads i = .running a) {x : Uuid} {row : UserRow}
    (hrow : c.shared.db.user x = some row) :
    ((c.shared.view i).user x = some row ∧
        ∀ u, (did c i).userWrite = some u → u.id.value ≠ x) ∨
      ∃ u₀ u iv, (did c i).userWrite = some u ∧ u.id.value = x ∧ u₀ ∈ (did c i).users ∧
        Derives env (reqs i) (did c i) u₀ u ∧ rowToUser env row = .ok u₀ ∧
        (c.shared.view i).user x = some (userToValues env iv u (row.version + 1)) := by
  rcases ho.user_view hrow with hsame | ⟨u, iv, hu, rfl, hview⟩
  · exact Or.inl hsame
  · obtain ⟨u₀, hu₀, hcomp, row', hrow', hv, hok⟩ := h.written i a ht ho.uncommitted u hu
    obtain rfl := Option.some.inj (hrow.symm.trans hrow')
    exact Or.inr ⟨u₀, u, iv, hu, rfl, hu₀, hcomp, hok, hv.symm ▸ hview⟩

theorem Tracked.commit (h : Tracked env reqs c) (hr : Runs env reqs C w c)
    (hw : Startable env w) {i : ι} {k : calls.Res .commit → Act Response}
    (ht : c.threads i = .running (.call .commit k)) (hc : (did c i).committed = false) :
    Tracked env reqs (Machine.afterCall c i .commit (.ok ()) (k (.ok ()))
      (c.shared.commit env i)) := by
  have ho := hr.isOpen hw ht hc
  refine ⟨fun j u hu => ?_, fun j a hj hcj u hu => ?_⟩
  · have hu' : u ∈ (did c j).users := by
      by_cases hji : j = i
      · subst hji
        rw [did_afterCall_self] at hu
        exact hu
      · rwa [did_afterCall_ne hji] at hu
    obtain ⟨row, hrow, hle, hok⟩ := h.loaded j u hu'
    rw [afterCall_shared, commit_user]
    rcases h.commit_row ho ht hrow with ⟨hview, -⟩ | ⟨u₀, v, iv, -, -, -, -, -, hview⟩
    · exact ⟨row, hview, hle, hok⟩
    · refine ⟨_, hview, hle.trans (Nat.le_succ _), fun hv => ?_⟩
      have : row.version + 1 = u.version := hv
      omega
  · by_cases hji : j = i
    · subst hji
      rw [did_afterCall_self] at hcj
      exact absurd hcj (by simp [Progress.note])
    · rw [did_afterCall_ne hji] at hu hcj ⊢
      rw [threads_afterCall_ne hji] at hj
      obtain ⟨u₀, hu₀, hcomp, row, hrow, hrest⟩ := h.written j a hj hcj u hu
      refine ⟨u₀, hu₀, hcomp, row, ?_, hrest⟩
      rw [afterCall_shared, commit_user, (hr.isOpen hw hj hcj).user_held (Ne.symm hji) hu, hrow]

/-- **Users are tracked along every run.** -/
theorem Runs.tracked (h : Runs env reqs C w c) (hw : Startable env w) : Tracked env reqs c := by
  refine h.induction (Tracked env reqs) ?_ ?_ ?_ ?_
  · exact ⟨fun i u hu => absurd hu List.not_mem_nil, fun i a _ _ u hu => absurd hu (by simp)⟩
  · intro c i ch o k x w' hr ih _ ht hal he
    have hs := hr.sound hw.idle
    have hk := (hr.minted hw).keyed
    -- while a request has written no user, it sees the committed users
    have husers : (did c i).userWrite = none → (did c i).userInsert = none →
        (c.shared.view i).users = c.shared.db.users := fun h₁ h₂ =>
      view_users_eq ((hs.running i _ ht).no_user h₁ h₂)
    by_cases ho : o = .commit
    · subst ho
      rcases exec_commit he with ⟨rfl, rfl⟩ | ⟨rfl, rfl⟩
      · refine ih.quiet ht rfl (fun hc => hc) (fun u hu => Or.inl hu) fun u hu => ?_
        exact absurd hu (by simp [Progress.note, Progress.undo])
      · exact ih.commit hr hw ht hal.1
    · refine ih.quiet ht (exec_db ho he).1 of_note_uncommitted (fun u hu => ?_) fun u hu => ?_
      · rcases mem_note_users he hu with hold | ⟨q, rfl, hacq⟩
        · exact Or.inl hold
        · obtain ⟨row, hrow, -, hok⟩ := acquireUser_some hacq
          rw [husers hal.1 hal.2.1] at hrow
          refine Or.inr ⟨row, ?_, hok⟩
          rw [(rowToUser_ok hok).1]
          exact hk.mem_users.mp hrow
      · rcases note_userWrite hu with hold | rfl
        · exact Or.inl hold
        · obtain ⟨h₁, h₂, -, u₀, hu₀, hcomp⟩ := hal
          rcases exec_updateUser he with ⟨e, rfl, -, -⟩ | ⟨rfl, ⟨row, hrow, hid, hv⟩, -, -⟩
          · exact Or.inl hu
          · rw [husers h₁ h₂] at hrow
            have hrow' := hk.mem_users.mp hrow
            obtain ⟨hid₀, hv₀⟩ := hcomp.computes.keeps
            obtain ⟨row₀, hrow₀, -, hok⟩ := ih.loaded i u₀ hu₀
            rw [← hid₀, ← hid] at hrow₀
            obtain rfl := Option.some.inj (hrow'.symm.trans hrow₀)
            exact Or.inr ⟨u₀, hu₀, hcomp, row, hid ▸ hrow', hv, hok (hv.trans hv₀)⟩
  · intro c i ch x _ ih _ _ _
    exact ⟨ih.loaded, fun j a hj => ih.written j a (threads_left hj)⟩
  · exact fun c d _ ih _ => ⟨ih.loaded, ih.written⟩

end Requests

end BackendTemplate
