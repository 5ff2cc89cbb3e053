import BackendTemplate.Anonymisation
import BackendTemplate.Consistency

/-!
# The Reuse Alarm

A refresh with a token that is not valid revokes the session and raises `RefreshTokenReuseError`:
somebody presents a token that was spent. But the lookup passes over revoked tokens, and a token is
not valid when it is revoked or has expired. So what raises the alarm is a token that has outlived
itself in a session that has not.

## Main results

* `eval_refreshToken` — how a refresh ends, by what the lookup returns.
* `lapsed_iff_rows` — the tokens that have outlived themselves, in rows.
* `alarm_sound_iff` — the alarm is sound for a token exactly when it is not such a token, or was spent
  before.
-/

namespace BackendTemplate

open Atomic Atomic.Prog

variable {env : Env}

/-! ### What raises the alarm -/

/-- The computation does not raise the alarm. -/
def NoAlarm {α : Type} (x : Except AppError α) : Prop := x ≠ .error .refreshTokenReuse

theorem noAlarm_ok {α : Type} (a : α) : NoAlarm (.ok a : Except AppError α) := nofun

theorem noAlarm_error {α : Type} {e : AppError} (he : e ≠ .refreshTokenReuse) :
    NoAlarm (.error e : Except AppError α) := fun h => he (Except.error.inj h)

theorem NoAlarm.bind {α β : Type} {x : Except AppError α} {f : α → Except AppError β}
    (hx : NoAlarm x) (hf : ∀ a, NoAlarm (f a)) : NoAlarm (x >>= f) := by
  cases x with
  | ok a => exact hf a
  | error e => exact fun h => hx (congrArg _ (Except.error.inj h))

theorem NoAlarm.map {α β : Type} {x : Except AppError α} (f : α → β) (hx : NoAlarm x) :
    NoAlarm (x.map f) := by
  cases x with
  | ok a => exact noAlarm_ok (f a)
  | error e => exact fun h => hx (congrArg _ (Except.error.inj h))

theorem noAlarm_mapM {α β : Type} {f : α → Except AppError β} (hf : ∀ a, NoAlarm (f a))
    (l : List α) : NoAlarm (l.mapM f) := by
  induction l with
  | nil => exact noAlarm_ok []
  | cons a l ih =>
      rw [List.mapM_cons]
      exact (hf a).bind fun b => ih.bind fun bs => noAlarm_ok (b :: bs)

/-! ### Rows -/

theorem noAlarm_tokenHash (b : Bytes) : NoAlarm (TokenHash.make b) := by
  rw [TokenHash.make]
  split
  · exact noAlarm_ok _
  · exact noAlarm_error (by simp)

theorem noAlarm_userId (u : Uuid) : NoAlarm (UserID.make u) := by
  rw [UserID.make]
  split
  · exact noAlarm_ok _
  · exact noAlarm_error (by simp)

theorem noAlarm_hashedPassword (b : Bytes) : NoAlarm (HashedPassword.make b) := by
  rw [HashedPassword.make]
  split
  · exact noAlarm_ok _
  · exact noAlarm_error (by simp)

theorem noAlarm_username (s : String) : NoAlarm (Username.make s) := by
  have hvalidate : NoAlarm (Username.validate s) := by
    rw [Username.validate]
    repeat' split
    all_goals first | exact noAlarm_ok _ | exact noAlarm_error (by simp)
  unfold Username.make
  split
  · exact noAlarm_ok _
  · rename_i e he
    exact fun h => hvalidate (he.trans (congrArg _ (Except.error.inj h)))

theorem noAlarm_email (s : Option String) : NoAlarm (Email.make s) := by
  have hvalidate : NoAlarm (Email.validate s) := by
    unfold Email.validate
    repeat' split
    all_goals first | exact noAlarm_ok _ | exact noAlarm_error (by simp)
  unfold Email.make
  split
  · exact noAlarm_ok _
  · rename_i e he
    exact fun h => hvalidate (he.trans (congrArg _ (Except.error.inj h)))

theorem noAlarm_hashColumn (column : Option Bytes) : NoAlarm (hashColumn column) := by
  unfold hashColumn
  split
  · exact noAlarm_ok _
  · exact noAlarm_ok _
  · exact (noAlarm_tokenHash _).map some

theorem noAlarm_backupCodes (codes : List String) : NoAlarm (backupCodesColumn codes) := by
  induction codes with
  | nil => exact noAlarm_ok []
  | cons code codes ih =>
      rw [backupCodesColumn]
      cases fromHex code with
      | none => exact noAlarm_error (by simp)
      | some b => exact (noAlarm_tokenHash b).bind fun h => ih.bind fun hs => noAlarm_ok (h :: hs)

theorem noAlarm_twoFactor (row : UserRow) : NoAlarm (twoFactorColumn env row) := by
  unfold twoFactorColumn
  split
  · exact noAlarm_ok _
  · exact noAlarm_ok _
  · rename_i b bs _
    cases env.decrypt (b :: bs) with
    | none => exact noAlarm_error (by simp)
    | some secret => exact (noAlarm_backupCodes _).bind fun hashes => noAlarm_ok _

/-- Loading a user raises no alarm. -/
theorem noAlarm_rowToUser (row : UserRow) : NoAlarm (rowToUser env row) := by
  rw [rowToUser]
  have hreset : NoAlarm (passwordResetColumn row) := (noAlarm_hashColumn _).bind fun h => noAlarm_ok _
  exact hreset.bind fun reset => (noAlarm_twoFactor row).bind fun secret =>
    (noAlarm_userId _).bind fun id => (noAlarm_username _).bind fun name =>
      (noAlarm_email _).bind fun address => (noAlarm_hashedPassword _).bind fun hashed =>
        (noAlarm_hashColumn _).bind fun hash => noAlarm_ok _

/-- Loading a session raises no alarm. -/
theorem noAlarm_loadSession (db : Db) (row : SessionRow) : NoAlarm (db.loadSession row) := by
  have htoken : ∀ t, NoAlarm (refreshTokenFromRow t) := fun t =>
    (noAlarm_tokenHash t.tokenHash).bind fun h => noAlarm_ok _
  have htokens : NoAlarm (db.tokensOf row.sessionId) := noAlarm_mapM htoken _
  exact htokens.bind fun ts => (noAlarm_userId row.userId).bind fun u => noAlarm_ok _

theorem noAlarm_acquireSessionByToken (db : Db) (hash : Bytes) :
    NoAlarm (db.acquireSessionByToken hash) := by
  rw [Db.acquireSessionByToken]
  split
  · exact noAlarm_ok _
  · split
    · exact noAlarm_ok _
    · split
      · exact noAlarm_ok _
      · exact (noAlarm_loadSession db _).map some

theorem noAlarm_acquireUser (db : Db) (q : UserQuery) : NoAlarm (db.acquireUser env q) := by
  rw [Db.acquireUser]
  split
  · exact noAlarm_ok _
  · exact (noAlarm_rowToUser _).map some

/-! ### A refresh -/

/-- The answers of the world raise no alarm. -/
def quietAnswer : (o : Op) → o.Res → Prop
  | .acquireUser _, x => NoAlarm x
  | .acquireSessionByToken _, x => NoAlarm x
  | .updateSession _, x => NoAlarm x
  | .commit, x => NoAlarm x
  | _, _ => True

theorem machine_quiet {ι : Type} [Fintype ι] [DecidableEq ι] :
    (machine env ι).Answers quietAnswer := by
  intro ch i o w x w' h
  change exec env ch i o w = some (x, w') at h
  cases o with
  | acquireUser q =>
      simp only [exec, Option.some.injEq, Prod.mk.injEq] at h
      exact h.1 ▸ noAlarm_acquireUser _ q
  | acquireSessionByToken hash =>
      simp only [exec, Option.some.injEq, Prod.mk.injEq] at h
      exact h.1 ▸ noAlarm_acquireSessionByToken _ hash
  | updateSession s =>
      rcases exec_updateSession h with ⟨rfl, -⟩ | ⟨rfl, -⟩
      · exact noAlarm_error (by simp)
      · exact noAlarm_ok ()
  | commit =>
      rcases exec_commit h with ⟨rfl, -⟩ | ⟨rfl, -⟩
      · exact noAlarm_error (by simp)
      · exact noAlarm_ok ()
  | _ => trivial

/-- A program that ends without the alarm. -/
def WithoutAlarm {α : Type} (h : Hist calls) (p : Act α) : Prop :=
  p.Obeys Hist.note quietAnswer (fun _ _ => True) (fun _ x => NoAlarm x) h

theorem WithoutAlarm.bind {α β : Type} {h : Hist calls} {p : Act β} {f : β → Act α}
    (hp : WithoutAlarm h p) (hf : ∀ h b, WithoutAlarm h (f b)) : WithoutAlarm h (p >>= f) := by
  refine (obeys_bind _ p f).mpr (Obeys.mono hp (fun _ _ h => h) ?_)
  intro h x hx
  cases x with
  | ok b => exact hf h b
  | error e => exact fun he => hx (congrArg _ (Except.error.inj he))

theorem commit_withoutAlarm (h : Hist calls) : WithoutAlarm h commit :=
  ⟨trivial, fun x hx => by
    cases x with
    | ok u => exact noAlarm_ok ()
    | error e => exact fun he => hx (congrArg _ (Except.error.inj he))⟩

/-- Exchanging the token that was found raises no alarm. -/
theorem rotateSession_withoutAlarm (h : Hist calls) (s : SessionAggregate) (p : RefreshToken) :
    WithoutAlarm h (UserService.rotateSession env s p) := by
  have hask : ∀ (h : Hist calls) (o : Op), WithoutAlarm h (ask o) := fun h o =>
    ⟨trivial, fun x _ => noAlarm_ok x⟩
  have hraiseIf : ∀ (h : Hist calls) (c : Bool) (e : AppError), e ≠ .refreshTokenReuse →
      WithoutAlarm h (raiseIf c e) := fun h c e he =>
    obeys_raiseIf (fun _ => noAlarm_error he) fun _ => noAlarm_ok ()
  have hattempt : ∀ {α : Type} (h : Hist calls) (x : Except AppError α), NoAlarm x →
      WithoutAlarm h (ofExcept x) := fun h x hx =>
    obeys_ofExcept (fun a _ => noAlarm_ok a) fun e he => he ▸ hx
  rw [UserService.rotateSession]
  have hacquire : WithoutAlarm h (UserRepo.acquireById s.userId) :=
    ⟨trivial, fun x hx => hattempt _ x hx⟩
  refine hacquire.bind fun h user => ?_
  cases user with
  | none => exact noAlarm_error (by simp)
  | some user =>
      refine (hraiseIf h user.isDeleted (.invalidCredentials none) (by simp)).bind fun h _ =>
        (hask h .now).bind fun h at_ =>
          (hraiseIf h (user.isLocked at_) (.accountLocked (some user.id.value)) (by simp)).bind
            fun h _ => (hask h .tokenUrlsafe).bind fun h raw => ?_
      have hnew : ∀ h, WithoutAlarm h (UserService.newRefreshToken env raw) := fun h =>
        (hask h .now).bind fun h _ => (hask h .uuid4).bind fun h _ => (hask h .now).bind
          fun h _ => noAlarm_ok _
      refine (hnew h).bind fun h token => (hask h .now).bind fun h refreshedAt => ?_
      have hupdate : ∀ s', WithoutAlarm h (attempt (ask (.updateSession s'))) := fun s' =>
        ⟨trivial, fun x hx => hattempt _ x hx⟩
      exact (hupdate _).bind fun h _ => (hask h (.register _)).bind fun h _ => noAlarm_ok _

/-- A refresh with a token that is presented at an instant, to the tables as they are. -/
def presenting (db : Db) (cache : InMemoryCache) (t : Instant) (rng : ℕ) : World Unit where
  db := db
  txs _ := {}
  cache := cache
  clock := t
  rng := rng

/-- The lookup finds a session by the token, and the token in it. -/
def Finds (env : Env) (db : Db) (token : String) (s : SessionAggregate) (p : RefreshToken) : Prop :=
  db.acquireSessionByToken (env.sha256 token) = .ok (some s) ∧
    s.findRefreshToken (TokenHash.fromRaw env token) = some p

/-- How a refresh ends. -/
inductive Refresh (env : Env) (db : Db) (token : String) (t : Instant)
    (r : Except AppError Response) (db' : Db) : Prop
  /-- The session cannot be loaded, or there is none, or it is over. -/
  | refused (hr : NoAlarm r)
      (hnone : ∀ s p, Finds env db token s p → s.isExpired t = true)
  /-- The token that was found is not valid. -/
  | alarm {s : SessionAggregate} {p : RefreshToken} (hfinds : Finds env db token s p)
      (hs : s.isExpired t = false) (hp : p.isValid t = false)
      (hr : r = .error .refreshTokenReuse ∨ r = .error .integrityError) (hdb : db' = db)
  /-- It is. -/
  | rotated {s : SessionAggregate} {p : RefreshToken} (hfinds : Finds env db token s p)
      (hp : p.isValid t = true) (hr : NoAlarm r)

variable {db : Db} {cache : InMemoryCache} {t : Instant} {rng : ℕ} {token : String} {ch : Choice}
  {r : Except AppError Response} {w' : World Unit} {hist : Hist calls}

/-- The end of a refresh that raises the alarm. -/
theorem eval_alarm {α β : Type} {s : SessionAggregate} {f : α → Act β} {w : World Unit}
    {hist hist' : Hist calls} {r : Except AppError β}
    (h : (machine env Unit).eval ch () ((attempt (ask (.updateSession s)) >>= fun _ =>
      register s.events >>= fun _ => raise .refreshTokenReuse).bind f) w hist =
        some (r, w', hist')) :
    (r = .error .refreshTokenReuse ∨ r = .error .integrityError) ∧ w'.db = w.db := by
  cases hx : exec env ch () (.updateSession s) w with
  | none =>
      change (machine env Unit).eval ch () (.call (Op.updateSession s) _) _ _ = _ at h
      rw [Machine.eval, show (machine env Unit).exec ch () (.updateSession s) w = none from hx] at h
      cases h
  | some out =>
      obtain ⟨x, w₁⟩ := out
      change (machine env Unit).eval ch () (.call (Op.updateSession s) _) _ _ = _ at h
      rw [Machine.eval_call hx] at h
      rcases exec_updateSession hx with ⟨rfl, rfl⟩ | ⟨rfl, -, -, rfl⟩
      · obtain ⟨rfl, hw⟩ := Prod.mk.inj (Option.some.inj h)
        exact ⟨Or.inr rfl, (congrArg World.db (Prod.mk.inj hw).1).symm⟩
      · obtain ⟨rfl, hw⟩ := Prod.mk.inj (Option.some.inj h)
        exact ⟨Or.inl rfl, (congrArg World.db (Prod.mk.inj hw).1).symm⟩

/-- **How a refresh ends**, by what the lookup returns. -/
theorem eval_refreshToken (h : (machine env Unit).eval ch () (refreshToken env token)
    (presenting db cache t rng) [] = some (r, w', hist)) : Refresh env db token t r w'.db := by
  have hacquire : (machine env Unit).exec ch () (.acquireSessionByToken (env.sha256 token))
      (presenting db cache t rng) =
        some (db.acquireSessionByToken (env.sha256 token), presenting db cache t rng) := rfl
  have hnow : (machine env Unit).exec ch () .now (presenting db cache t rng) =
      some (t, presenting db cache t rng) := rfl
  change (machine env Unit).eval ch () (.call (Op.acquireSessionByToken (env.sha256 token)) _) _ []
    = _ at h
  rw [Machine.eval_call hacquire] at h
  have hquiet := noAlarm_acquireSessionByToken db (env.sha256 token)
  have hfinds : ∀ s p, Finds env db token s p →
      db.acquireSessionByToken (env.sha256 token) = .ok (some s) := fun s p hf => hf.1
  cases hx : db.acquireSessionByToken (env.sha256 token) with
  | error e =>
      rw [hx] at h hquiet hfinds
      obtain ⟨rfl, -⟩ := Prod.mk.inj (Option.some.inj h)
      exact .refused (fun he => hquiet (congrArg _ (Except.error.inj he)))
        fun s p hf => (nomatch (hfinds s p hf))
  | ok found =>
      cases found with
      | none =>
          rw [hx] at h hfinds
          obtain ⟨rfl, -⟩ := Prod.mk.inj (Option.some.inj h)
          exact .refused (noAlarm_error (by simp)) fun s p hf => (nomatch (hfinds s p hf))
      | some s =>
          rw [hx] at h hfinds
          change (machine env Unit).eval ch () (.call Op.now _) _ _ = _ at h
          rw [Machine.eval_call hnow] at h
          have hsame : ∀ s' p, Finds env db token s' p → s' = s := fun s' p hf =>
            (Option.some.inj (Except.ok.inj (hfinds s' p hf))).symm
          simp only [Prog.bind] at h
          cases hover : s.isExpired t with
          | true =>
              simp only [hover, raiseIf_true, raise_bind, Prog.bind, Machine.eval_raise] at h
              obtain ⟨rfl, -⟩ := Prod.mk.inj (Option.some.inj h)
              exact .refused (noAlarm_error (by simp)) fun s' p hf => (hsame s' p hf) ▸ hover
          | false =>
              simp only [hover, raiseIf_false, ret_bind] at h
              cases hp : s.findRefreshToken (TokenHash.fromRaw env token) with
              | none =>
                  simp only [hp, Prog.bind, Machine.eval_raise] at h
                  obtain ⟨rfl, -⟩ := Prod.mk.inj (Option.some.inj h)
                  refine .refused (noAlarm_error (by simp)) fun s' p hf => ?_
                  obtain rfl := hsame s' p hf
                  exact absurd (hp.symm.trans hf.2) nofun
              | some p =>
                  have hfound : Finds env db token s p := ⟨hx, hp⟩
                  simp only [hp] at h
                  change (machine env Unit).eval ch () (.call Op.now _) _ _ = _ at h
                  rw [Machine.eval_call hnow] at h
                  simp only [Prog.bind] at h
                  cases hvalid : p.isValid t with
                  | true =>
                      simp only [hvalid, Bool.not_true, Bool.false_eq_true, if_false] at h
                      have hquiet : ∀ hist, WithoutAlarm hist (UserService.rotateSession env s p >>=
                          fun out => commit >>= fun _ => pure (Response.refreshed
                            { userId := out.2.1.id.value
                              sessionId := env.uuidStr out.1.sessionId
                              expiresAt := env.isoformat out.1.expiresAt
                              refreshToken := out.2.2 })) := fun hist =>
                        (rotateSession_withoutAlarm hist s p).bind fun hist out =>
                          (commit_withoutAlarm hist).bind fun _ _ => noAlarm_ok _
                      exact .rotated hfound hvalid (Machine.eval_induction machine_quiet (hquiet _)
                        (fun _ _ => True) trivial (fun _ _ _ _ _ _ _ _ => trivial) h).2
                  | false =>
                      simp only [hvalid, Bool.not_false, if_true] at h
                      obtain ⟨hr, hdb⟩ := eval_alarm h
                      exact .alarm hfound hover hvalid hr hdb

/-- The one client of a world waits for nobody. -/
theorem exec_alone (o : Op) (w : World Unit) : ∃ x w', exec env ch () o w = some (x, w') := by
  have hwrites : ∀ {α : Type} (ws : List Write) (err : AppError) (done : World Unit → World Unit)
      (a : α), ∃ x w', execWrites w () ws err done a = some (x, w') := by
    intro α ws err done a
    have hfree : RowLocks.Free Write.keys w.pending () ws := fun j hj => absurd rfl hj
    rw [execWrites, if_pos hfree]
    split
    · exact ⟨_, _, rfl⟩
    · exact ⟨_, _, rfl⟩
  cases o with
  | addUser u => exact hwrites [.userInsert (userToValues env w.rng u 0)] _ (·.draw 1) ()
  | addSession s => exact hwrites _ _ _ _
  | updateSession s => exact hwrites _ _ _ _
  | updateUser u =>
      change ∃ x w', execUpdateUser env w () u = some (x, w')
      rw [execUpdateUser]
      split
      · exact hwrites _ _ _ _
      · exact ⟨_, _, rfl⟩
  | commit =>
      change ∃ x w', (if ch.commitFails then _ else _) = some (x, w')
      split
      · exact ⟨_, _, rfl⟩
      · exact ⟨_, _, rfl⟩
  | _ => exact ⟨_, _, rfl⟩

theorem eval_alone {α : Type} (p : Act α) (w : World Unit) (hist : Hist calls) :
    ∃ r w' hist', (machine env Unit).eval ch () p w hist = some (r, w', hist') := by
  induction p generalizing w hist with
  | ret a => exact ⟨_, _, _, rfl⟩
  | raise e => exact ⟨_, _, _, rfl⟩
  | call o k ih =>
      obtain ⟨x, w₁, hx⟩ := @exec_alone env ch o w
      obtain ⟨r, w', hist', h⟩ := ih x w₁ (⟨o, x⟩ :: hist)
      exact ⟨r, w', hist', (Machine.eval_call hx).trans h⟩

/-! ### Tokens that have outlived themselves -/

/-- **A token that has outlived itself**: the lookup finds it, it is not revoked, and it is past its
own expiry in a session that is not. -/
def Lapsed (env : Env) (db : Db) (token : String) (t : Instant) : Prop :=
  ∃ s p, Finds env db token s p ∧ s.isExpired t = false ∧ p.isRevoked = false ∧ p.isExpired t = true

instance (env : Env) (db : Db) (token : String) (t : Instant) : Decidable (Lapsed env db token t) :=
  decidable_of_iff
    (∃ s ∈ (db.acquireSessionByToken (env.sha256 token)).toOption.join,
      ∃ p ∈ s.findRefreshToken (TokenHash.fromRaw env token),
        s.isExpired t = false ∧ p.isRevoked = false ∧ p.isExpired t = true) <| by
    unfold Lapsed Finds
    cases db.acquireSessionByToken (env.sha256 token) with
    | error e => simp [Except.toOption]
    | ok found => cases found <;> simp [Except.toOption]

/-- The row behind the token that was found. -/
theorem Finds.row {s : SessionAggregate} {p : RefreshToken} (h : Finds env db token s p) :
    ∃ row ∈ db.refreshTokens, row.tokenHash = env.sha256 token ∧ row.isRevoked = p.isRevoked ∧
      row.expiresAt = p.expiresAt ∧ ∃ r ∈ db.sessions, r.sessionId = row.sessionId ∧
        r.isRevoked = false ∧ r.expiresAt = s.expiresAt := by
  obtain ⟨-, -, -, -, r, hr, -, hrev, hload⟩ := acquireSessionByToken_some h.1
  obtain ⟨ts, hts, hs⟩ := loadSession_ok hload
  obtain ⟨-, -, hexp, -, rfl⟩ := sessionFromRows_ok hs
  obtain ⟨row, hrow, hrt⟩ := mem_mapM_ok hts (List.mem_of_find?_eq_some h.2)
  obtain ⟨hmem, hid⟩ := List.mem_filter.mp hrow
  rw [refreshTokenFromRow, except_bind_eq_ok] at hrt
  obtain ⟨hash, hhash, hrt⟩ := hrt
  obtain rfl := Except.ok.inj hrt
  have hsame : hash = TokenHash.fromRaw env token := by simpa using List.find?_some h.2
  refine ⟨row, hmem, ?_, rfl, rfl, r, hr, (of_decide_eq_true hid).symm, hrev, hexp.symm⟩
  rw [← TokenHash.make_ok hhash, hsame, TokenHash.fromRaw]

/-- **In rows**: the token is there, unrevoked and past its expiry, and so is its session, unrevoked
and not past its own. -/
theorem lapsed_iff_rows (hk : db.Keyed) (hn : db.hashes.Nodup)
    (hl : ∀ r ∈ db.sessions, ∃ s, db.loadSession r = .ok s) :
    Lapsed env db token t ↔
      ∃ row ∈ db.refreshTokens, row.tokenHash = env.sha256 token ∧ row.isRevoked = false ∧
        row.expiresAt ≤ t ∧ ∃ r ∈ db.sessions, r.sessionId = row.sessionId ∧
          r.isRevoked = false ∧ t < r.expiresAt := by
  constructor
  · rintro ⟨s, p, hf, hs, hrev, hexp⟩
    obtain ⟨row, hrow, hhash, hrev', hexp', r, hr, hid, hlive, hr'⟩ := hf.row
    refine ⟨row, hrow, hhash, hrev'.trans hrev, hexp' ▸ of_decide_eq_true hexp, r, hr, hid, hlive, ?_⟩
    exact hr' ▸ lt_of_not_ge (of_decide_eq_false hs)
  · rintro ⟨row, hrow, hhash, hrev, hexp, r, hr, hid, hlive, hr'⟩
    obtain ⟨s, hload⟩ := hl r hr
    obtain ⟨ts, -, hs⟩ := loadSession_ok hload
    obtain ⟨hsid, -, hsexp, -, -⟩ := sessionFromRows_ok hs
    have hfound : db.acquireSessionByToken (env.sha256 token) = .ok (some s) := by
      obtain ⟨row', hfind⟩ : ∃ row', (db.refreshTokens.find? fun t =>
          t.tokenHash = env.sha256 token && !t.isRevoked) = some row' :=
        Option.isSome_iff_exists.mp (List.find?_isSome.mpr ⟨row, hrow, by simp [hhash, hrev]⟩)
      have hhash' := List.find?_some hfind
      rw [Bool.and_eq_true, decide_eq_true_eq] at hhash'
      obtain rfl := eq_of_hash hn (List.mem_of_find?_eq_some hfind) hrow (hhash'.1.trans hhash.symm)
      have hsession : (db.sessions.find? fun r => r.sessionId = row'.sessionId) = some r :=
        hid ▸ (Keyed.mem_iff_lookup hk.sessions).mp hr
      rw [Db.acquireSessionByToken, hfind]
      simp only [hsession, hlive, hload]
      rfl
    obtain ⟨p, hp⟩ : ∃ p, s.findRefreshToken (TokenHash.fromRaw env token) = some p := by
      obtain ⟨tk, htk, -, -, hval, -⟩ :=
        (loads_of_loadSession hk.sessions hr hload).of_row hrow (hid.symm.trans hsid.symm)
      refine Option.isSome_iff_exists.mp (List.find?_isSome.mpr ⟨tk, htk, decide_eq_true ?_⟩)
      exact TokenHash.ext (hval.trans hhash)
    obtain ⟨row', hrow', hhash', hrev', hexp', -⟩ := Finds.row ⟨hfound, hp⟩
    obtain rfl := eq_of_hash hn hrow' hrow (hhash'.trans hhash.symm)
    exact ⟨s, p, ⟨hfound, hp⟩, decide_eq_false (hsexp ▸ not_le_of_gt hr'), hrev'.symm.trans hrev,
      decide_eq_true (hexp' ▸ hexp)⟩

/-! ### The alarm -/

section Alarm

variable {ι : Type}

/-- The token was exchanged, or revoked. -/
def ExchangedOrRevoked (env : Env) (reqs : ι → Request) (token : String) (c : Cfg ι) : Prop :=
  (∃ i out, reqs i = .refreshToken token ∧ c.threads i = .done (.ok (.refreshed out))) ∨
    ∃ row ∈ c.shared.db.refreshTokens, row.tokenHash = env.sha256 token ∧ row.isRevoked = true

variable [Fintype ι] [DecidableEq ι]

/-- The token was exchanged or revoked at some point of a run. -/
def SpentBefore (env : Env) (reqs : ι → Request) (w : World ι) (ls : List (ServiceLabel ι))
    (token : String) : Prop :=
  Runs.Met (serviceStep env) Runs.always (ExchangedOrRevoked env reqs token) (start env reqs w) ls

/-- **The alarm has no false positives**, for a token that is presented at an instant to the tables
that a run has left: a reuse is reported only of a token that was spent, and one that has outlived
itself unspent is refused with `InvalidCredentialsError`, and the tables stay as they are. -/
def AlarmSound (env : Env) (reqs : ι → Request) (w : World ι) (ls : List (ServiceLabel ι)) (db : Db)
    (token : String) (t : Instant) : Prop :=
  ∀ (cache : InMemoryCache) (rng : ℕ) (ch : Choice) (r : Except AppError Response)
    (w' : World Unit) (hist : Hist calls),
    (machine env Unit).eval ch () (refreshToken env token) (presenting db cache t rng) [] =
        some (r, w', hist) →
      (r = .error .refreshTokenReuse → SpentBefore env reqs w ls token) ∧
        (¬ SpentBefore env reqs w ls token → Lapsed env db token t →
          r = .error (.invalidCredentials none) ∧ w'.db = db)

/-- A token that has outlived itself is taken for a reused one. -/
theorem Lapsed.alarms (h : Lapsed env db token t)
    (he : (machine env Unit).eval ch () (refreshToken env token) (presenting db cache t rng) [] =
      some (r, w', hist)) :
    (r = .error .refreshTokenReuse ∨ r = .error .integrityError) ∧ w'.db = db := by
  obtain ⟨s, p, ⟨hfound, hp⟩, hs, hrev, hexp⟩ := h
  have hsame : ∀ {s' p'}, Finds env db token s' p' → s' = s ∧ p' = p := by
    rintro s' p' ⟨hfound', hp'⟩
    obtain rfl := Option.some.inj (Except.ok.inj (hfound'.symm.trans hfound))
    exact ⟨rfl, Option.some.inj (hp'.symm.trans hp)⟩
  cases eval_refreshToken he with
  | refused _ hnone => exact absurd (hs.symm.trans (hnone s p ⟨hfound, hp⟩)) nofun
  | alarm _ _ _ hr hdb => exact ⟨hr, hdb⟩
  | rotated hf hvalid _ =>
      obtain ⟨-, rfl⟩ := hsame hf
      rw [RefreshToken.isValid, hexp] at hvalid
      exact absurd hvalid (by simp)

variable {reqs : ι → Request} {w : World ι} {c : Cfg ι} {ls : List (ServiceLabel ι)}

/-- The alarm is not sound for a token that has outlived itself and was not spent. -/
theorem Lapsed.not_sound (h : Lapsed env db token t) (hs : ¬ SpentBefore env reqs w ls token) :
    ¬ AlarmSound env reqs w ls db token t := by
  intro hsound
  obtain ⟨r, w', hist, he⟩ :=
    @eval_alone env {} _ (refreshToken env token) (presenting db .empty t 0) []
  have hrefused := ((hsound _ _ _ _ _ _ he).2 hs h).1
  rcases (h.alarms he).1 with hr | hr
  · exact absurd (hr.symm.trans hrefused) nofun
  · exact absurd (hr.symm.trans hrefused) nofun

/-- **When the alarm is sound.** After any run of the service, a token that is presented raises no
false alarm exactly when it has not outlived itself, or was spent. -/
theorem alarm_sound_iff
    (hrun : Runs.run (serviceStep env) Runs.always (start env reqs w) ls = some c) (token : String)
    (t : Instant) :
    AlarmSound env reqs w ls c.shared.db token t ↔
      (Lapsed env c.shared.db token t → SpentBefore env reqs w ls token) := by
  constructor
  · intro hsound h
    by_contra hs
    exact h.not_sound hs hsound
  · intro h cache rng ch r w' hist he
    refine ⟨fun hr => ?_, fun hs hl => absurd (h hl) hs⟩
    subst hr
    cases eval_refreshToken he with
    | refused hr _ => exact absurd rfl hr
    | rotated _ _ hr => exact absurd rfl hr
    | @alarm s p hf hlive hvalid _ _ =>
        cases hrev : p.isRevoked with
        | true =>
            obtain ⟨row, hrow, hhash, hrow', -⟩ := hf.row
            exact Runs.Met.last hrun (Or.inr ⟨row, hrow, hhash, hrow'.trans hrev⟩)
        | false =>
            refine h ⟨s, p, hf, hlive, hrev, ?_⟩
            simpa [RefreshToken.isValid, hrev] using hvalid

end Alarm

/-! ### A client that stays away -/

/-- The request of a client that signs in. -/
def signIn : Unit → Request
  | () => .login { password := Reference.password, username := some "alice" }

/-- The account signs in, and some days pass. -/
def awayFor (n : ℕ) : List (ServiceLabel Unit) :=
  (Reference.moves () 14 ++ Reference.wait (n * 86400)).map .request

/-- What the sign-in leaves is unspent at every point of the run. -/
theorem sign_in_unspent {n : ℕ} (h : ∀ k ≤ 15,
      (Runs.run (serviceStep Reference.env) Runs.always (start Reference.env signIn signedOut)
        ((awayFor n).take k)).all (fun c => c.shared.db.refreshTokens.all fun row =>
          !row.isRevoked) = true) :
    ¬ SpentBefore Reference.env signIn signedOut (awayFor n) (Reference.tokenUrlsafe 2) := by
  intro hspent
  obtain ⟨k, hk, c, hc, hP⟩ := Runs.Met.take hspent
  have hall := h k (by simpa [awayFor, Reference.moves, Reference.wait] using hk)
  rw [hc] at hall
  rcases hP with ⟨i, out, hi, -⟩ | ⟨row, hrow, -, hrev⟩
  · cases i
    exact absurd hi nofun
  · have := List.all_eq_true.mp hall row hrow
    rw [hrev] at this
    exact absurd this (by simp)

/-- **A client that stays away for eight days** is told that its token was reused: it signs in, and
presents the one token it got, which nobody has presented before. -/
theorem away_is_no_reuse : ∃ c,
    Runs.run (serviceStep Reference.env) Runs.always (start Reference.env signIn signedOut)
      (awayFor 8) = some c ∧
    Lapsed Reference.env c.shared.db (Reference.tokenUrlsafe 2) c.shared.clock ∧
    ¬ SpentBefore Reference.env signIn signedOut (awayFor 8) (Reference.tokenUrlsafe 2) ∧
    ¬ AlarmSound Reference.env signIn signedOut (awayFor 8) c.shared.db (Reference.tokenUrlsafe 2)
      c.shared.clock := by
  obtain ⟨c, hc, hlapsed⟩ : ∃ c,
      Runs.run (serviceStep Reference.env) Runs.always (start Reference.env signIn signedOut)
        (awayFor 8) = some c ∧
      Lapsed Reference.env c.shared.db (Reference.tokenUrlsafe 2) c.shared.clock := by
    decide +kernel
  have hunspent := sign_in_unspent (n := 8) (by decide +kernel)
  exact ⟨c, hc, hlapsed, hunspent, hlapsed.not_sound hunspent⟩

/-- A client that is back after a day finds the alarm sound. -/
theorem back_after_a_day : ∃ c,
    Runs.run (serviceStep Reference.env) Runs.always (start Reference.env signIn signedOut)
      (awayFor 1) = some c ∧
    (∃ row ∈ c.shared.db.refreshTokens, row.isRevoked = false) ∧
    AlarmSound Reference.env signIn signedOut (awayFor 1) c.shared.db (Reference.tokenUrlsafe 2)
      c.shared.clock := by
  obtain ⟨c, hc, hrow, hlapsed⟩ : ∃ c,
      Runs.run (serviceStep Reference.env) Runs.always (start Reference.env signIn signedOut)
        (awayFor 1) = some c ∧
      (∃ row ∈ c.shared.db.refreshTokens, row.isRevoked = false) ∧
      ¬ Lapsed Reference.env c.shared.db (Reference.tokenUrlsafe 2) c.shared.clock := by
    decide +kernel
  exact ⟨c, hc, hrow, (alarm_sound_iff hc _ _).mpr fun h => absurd h hlapsed⟩

end BackendTemplate
