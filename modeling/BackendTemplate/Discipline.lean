import BackendTemplate.Progress

/-!
# Every Use Case Keeps the Contract

The contract of `BackendTemplate.Progress` is proved of each use case by running it
symbolically: a rule per call, a rule per service function, and one theorem per use case.
`program_keeps` collects them.

## Main results

* `program_keeps` — every use case keeps the contract.
-/

namespace BackendTemplate

open Atomic Atomic.Prog

section Rules

variable {env : Env} {r : Request} {α β : Type} {p : Progress}
variable {post : Progress → Except AppError α → Prop}

/-! ### Rules -/

@[simp] theorem keeps_pure (a : α) : Keeps env r post p (pure a) ↔ post p (.ok a) := Iff.rfl

@[simp] theorem keeps_raise (e : AppError) :
    Keeps env r post p (Prog.raise e) ↔ post p (.error e) := Iff.rfl

theorem keeps_ask (o : Op) (f : o.Res → Act α) :
    Keeps env r post p (ask o >>= f) ↔
      Allowed env r p o ∧ ∀ x, possible env o x → Keeps env r post (p.note o x) (f x) := Iff.rfl

/-- Sequencing, for a part whose specification is known. -/
theorem Keeps.bind {mid : Progress → Except AppError β → Prop} {a : Act β} {f : β → Act α}
    (ha : Keeps env r mid p a) (hok : ∀ p v, mid p (.ok v) → Keeps env r post p (f v))
    (herr : ∀ p e, mid p (.error e) → post p (.error e)) :
    Keeps env r post p (a >>= f) := by
  refine (obeys_bind post a f).mpr (Obeys.mono ha (fun _ _ h => h) ?_)
  intro p x hx
  cases x with
  | ok v => exact hok p v hx
  | error e => exact herr p e hx

theorem keeps_ofExcept (x : Except AppError β) (f : β → Act α) :
    Keeps env r post p (ofExcept x >>= f) ↔
      (∀ e, x = .error e → post p (.error e)) ∧
        ∀ a, x = .ok a → Keeps env r post p (f a) := by
  cases x with
  | ok a => simp
  | error e => simp

theorem keeps_raiseIf (c : Bool) (e : AppError) (f : Unit → Act α) :
    Keeps env r post p (raiseIf c e >>= f) ↔
      (c = true → post p (.error e)) ∧ (c = false → Keeps env r post p (f ())) := by
  cases c with
  | true => simp
  | false => simp

theorem keeps_ite (c : Prop) [Decidable c] (a b : Act α) :
    Keeps env r post p (if c then a else b) ↔
      (c → Keeps env r post p a) ∧ (¬ c → Keeps env r post p b) := by
  by_cases hc : c
  · simp [hc]
  · simp [hc]

/-- A call that can raise. -/
theorem attempt_bind (a : Act (Except AppError β)) (f : β → Act α) :
    attempt a >>= f = a >>= fun x => ofExcept x >>= f :=
  Prog.bind_assoc _ _ _

theorem ite_bind (c : Prop) [Decidable c] (a b : Act β) (f : β → Act α) :
    (if c then a else b) >>= f = if c then a >>= f else b >>= f := by
  by_cases hc : c
  · simp [hc]
  · simp [hc]

theorem keeps_now {f : Instant → Act α}
    (h : ∀ t, Keeps env r post { p with instants := t :: p.instants } (f t)) :
    Keeps env r post p (now >>= f) :=
  ⟨trivial, fun t _ => h t⟩

theorem keeps_register {events : List Event} {f : Unit → Act α}
    (h : Keeps env r post { p with registered := p.registered ++ events } (f ())) :
    Keeps env r post p (register events >>= f) :=
  ⟨trivial, fun _ _ => h⟩

theorem keeps_uuid4 {f : Uuid → Act α}
    (h : ∀ x, Keeps env r post { p with drawn := x :: p.drawn } (f x)) :
    Keeps env r post p (ask .uuid4 >>= f) :=
  ⟨trivial, fun x _ => h x⟩

/-- The calls that leave no trace in the progress and are always allowed. -/
theorem keeps_silent {o : Op} {f : o.Res → Act α} (ho : Allowed env r p o)
    (hn : ∀ x, p.note o x = p) (h : ∀ x, Keeps env r post p (f x)) :
    Keeps env r post p (ask o >>= f) := by
  refine ⟨ho, fun x _ => ?_⟩
  rw [hn]
  exact h x

theorem keeps_tokenUrlsafe {f : String → Act α}
    (h : ∀ t, Keeps env r post { p with tokens := t :: p.tokens } (f t)) :
    Keeps env r post p (ask .tokenUrlsafe >>= f) :=
  ⟨trivial, fun t _ => h t⟩

theorem keeps_tokenHexes {n : ℕ} {f : List String → Act α}
    (h : ∀ ts, ts.length = n → Keeps env r post { p with tokens := ts ++ p.tokens } (f ts)) :
    Keeps env r post p (ask (.tokenHexes n) >>= f) :=
  ⟨trivial, fun ts hts => h ts hts⟩

theorem keeps_hashPassword {pwd : String} {f : Bytes → Act α}
    (h : ∀ x, Keeps env r post p (f x)) :
    Keeps env r post p (ask (.hashPassword pwd) >>= f) :=
  keeps_silent (o := .hashPassword pwd) trivial (fun _ => rfl) h

/-- `commit`: what the request has to have written, and both outcomes. -/
theorem keeps_commit {f : Unit → Act α} (hc : p.committed = false)
    (hw : Completed env r p) (ha : p.Announced)
    (herr : ∀ e, e.verdict = false → post p.undo (.error e))
    (hok : Keeps env r post { p with committed := true } (f ())) :
    Keeps env r post p (commit >>= f) := by
  rw [commit, attempt_bind, keeps_ask]
  refine ⟨⟨hc, hw, ha⟩, fun x hx => ?_⟩
  cases x with
  | error e => exact herr e hx
  | ok u => exact hok

/-- The `acquire_*` methods of the user repository. -/
theorem keeps_acquire {q : UserQuery} {f : Option User → Act α}
    (hp : p.userWrite = none ∧ p.userInsert = none ∧ p.committed = false ∧ p.users = [])
    (herr : ∀ e, post p (.error e)) (hnone : Keeps env r post p (f none))
    (hsome : ∀ u, (∀ x, q = .id x → u.id.value = x) → u.events = [] →
      Keeps env r post { p with users := u :: p.users } (f (some u))) :
    Keeps env r post p (UserRepo.acquire q >>= f) := by
  rw [UserRepo.acquire, attempt_bind, keeps_ask]
  refine ⟨hp, fun x hx => ?_⟩
  match x, hx with
  | .error e, _ => exact herr e
  | .ok none, _ => exact hnone
  | .ok (some u), hx => exact hsome u hx.1 hx.2

/-- `UserRepo.update` returns the user at its new version. -/
theorem keeps_update {u : User} {f : User → Act α}
    (hp : p.userWrite = none ∧ p.userInsert = none ∧ p.committed = false)
    (hu : ∃ u₀ ∈ p.users, Derives env r p u₀ u)
    (herr : ∀ e, e.verdict = false → post p (.error e))
    (hok : Keeps env r post { p with userWrite := some u }
      (f { u with version := u.version + 1 })) :
    Keeps env r post p (UserRepo.update u >>= f) := by
  rw [UserRepo.update, attempt_bind, keeps_ask]
  refine ⟨⟨hp.1, hp.2.1, hp.2.2, hu⟩, fun x hx => ?_⟩
  match x, hx with
  | .error e, hx => exact herr e hx
  | .ok v, hx =>
      obtain rfl : v = { u with version := u.version + 1 } := hx
      exact hok

/-- `acquire_by_token_hash`: the session it finds is not revoked. -/
theorem keeps_acquireSessionByToken {hash : Bytes} {f : Option SessionAggregate → Act α}
    (hp : p.added = none ∧ p.updated = [] ∧ p.committed = false)
    (herr : ∀ e, post p (.error e)) (hnone : Keeps env r post p (f none))
    (hsome : ∀ s, s.isRevoked = false →
      Keeps env r post { p with sessions := s :: p.sessions } (f (some s))) :
    Keeps env r post p (attempt (ask (.acquireSessionByToken hash)) >>= f) := by
  rw [attempt_bind, keeps_ask]
  refine ⟨hp, fun x hx => ?_⟩
  match x, hx with
  | .error e, _ => exact herr e
  | .ok none, _ => exact hnone
  | .ok (some s), hx => exact hsome s hx

/-- `acquire_by_session_id`. -/
theorem keeps_acquireSession {sid : Uuid} {f : Option SessionAggregate → Act α}
    (hp : p.added = none ∧ p.updated = [] ∧ p.committed = false)
    (herr : ∀ e, post p (.error e)) (hnone : Keeps env r post p (f none))
    (hsome : ∀ s, Keeps env r post { p with sessions := s :: p.sessions } (f (some s))) :
    Keeps env r post p (attempt (ask (.acquireSession sid)) >>= f) := by
  rw [attempt_bind, keeps_ask]
  refine ⟨hp, fun x hx => ?_⟩
  match x, hx with
  | .error e, _ => exact herr e
  | .ok none, _ => exact hnone
  | .ok (some s), _ => exact hsome s

/-- `SQLAlchemySessionRepo.update`. -/
theorem keeps_updateSession {s : SessionAggregate} {f : Unit → Act α}
    (hp : p.added = none ∧ p.committed = false)
    (hs : (∃ s₀ ∈ p.sessions, s = s₀.revoke) ∨
      ∃ t s₀, r = .refreshToken t ∧ Exchanges env t p s₀ s ∧ p.updated = [])
    (hactor : ∀ x, r.actor = some x → s.userId.value = x) (hturn : p.Follows s)
    (herr : ∀ e, post p (.error e))
    (hok : Keeps env r post { p with updated := s :: p.updated } (f ())) :
    Keeps env r post p (attempt (ask (.updateSession s)) >>= f) := by
  rw [attempt_bind, keeps_ask]
  refine ⟨⟨hp.1, hp.2, hs, hactor, hturn⟩, fun x _ => ?_⟩
  cases x with
  | error e => exact herr e
  | ok u => exact hok

/-! ### The service functions -/

/-- A new refresh token carries a fresh id and is not revoked. -/
theorem keeps_newRefreshToken {raw : String} {f : RefreshToken → Act α}
    (h : ∀ ts t, t.isRevoked = false → Keeps env r post
      { p with instants := ts ++ p.instants, drawn := t.id :: p.drawn } (f t)) :
    Keeps env r post p (UserService.newRefreshToken env raw >>= f) := by
  rw [UserService.newRefreshToken]
  simp only [Prog.bind_assoc]
  refine keeps_now fun t₁ => keeps_uuid4 fun id => keeps_now fun t₂ => ?_
  exact h [t₂, t₁]
    { tokenHash := TokenHash.fromRaw env raw
      id := id
      expiresAt := t₁ + seconds UserService.refreshTokenExpireSeconds
      createdAt := t₂ } rfl

/-- `_build_session`: a fresh, unrevoked session of the user with one fresh token. -/
theorem keeps_buildSession {user : User} {d : DeviceInfo}
    {f : SessionAggregate × String → Act α}
    (h : ∀ ts ds ks s raw, s.userId = user.id → s.isRevoked = false → s.sessionId ∈ ds →
      (∃ t, s.refreshTokens = [t] ∧ t.id ∈ ds) →
      (∀ t ∈ s.refreshTokens, t.isRevoked = false) → Keeps env r post
      { p with
        instants := ts ++ p.instants
        drawn := ds ++ p.drawn
        tokens := ks ++ p.tokens } (f (s, raw))) :
    Keeps env r post p (UserService.buildSession env user d >>= f) := by
  rw [UserService.buildSession]
  simp only [Prog.bind_assoc]
  refine keeps_now fun t₁ => keeps_uuid4 fun sid => keeps_tokenUrlsafe fun raw => ?_
  refine keeps_newRefreshToken fun ts t ht => ?_
  have := h (ts ++ [t₁]) [t.id, sid] [raw]
    ((SessionAggregate.create t₁ sid user.id d UserService.sessionExpireSeconds).addRefreshToken
      t) raw rfl rfl (by simp [SessionAggregate.create, SessionAggregate.addRefreshToken,
        SessionAggregate.recordEvent])
      ⟨t, rfl, by simp⟩ (fun t' ht' => List.mem_singleton.mp ht' ▸ ht)
  simpa using this

/-- `persist_session`. -/
theorem keeps_persistSession {s : SessionAggregate} {f : Unit → Act α}
    (hp : p.added = none ∧ p.updated = [] ∧ p.committed = false) (hs : s.isRevoked = false)
    (hsid : s.sessionId ∈ p.drawn) (ht : ∃ t, s.refreshTokens = [t] ∧ t.id ∈ p.drawn)
    (hg : Granted env r p s) (hl : p.FoundLive s)
    (hnew : ∀ t ∈ s.refreshTokens, t.isRevoked = false)
    (herr : ∀ e, e.verdict = false → post p (.error e))
    (hok : Keeps env r post { p with added := some s, registered := p.registered ++ s.events }
      (f ())) :
    Keeps env r post p (UserService.persistSession s >>= f) := by
  rw [UserService.persistSession]
  simp only [Prog.bind_assoc, attempt_bind]
  refine ⟨⟨hp.1, hp.2.1, hp.2.2, hs, hsid, ht, hg, hl, hnew⟩, fun x hx => ?_⟩
  cases x with
  | error e => exact herr e hx
  | ok u => exact keeps_register hok

/-- `get_user_by_id`: an existing account that is not deleted. -/
theorem keeps_getUserById {id : UserID} {f : User → Act α}
    (hp : p.userWrite = none ∧ p.userInsert = none ∧ p.committed = false ∧ p.users = [])
    (herr : ∀ p e, post p (.error e))
    (h : ∀ u, u.id = id → u.events = [] →
      Keeps env r post { p with users := u :: p.users } (f u)) :
    Keeps env r post p (UserService.getUserById id >>= f) := by
  rw [UserService.getUserById, UserRepo.acquireById, Prog.bind_assoc]
  refine keeps_acquire hp (herr p) (herr p _) fun u hu hev => ?_
  simp only [Prog.bind_assoc, keeps_raiseIf]
  exact ⟨fun _ => herr _ _, fun _ => h u (UserID.ext (hu id.value rfl)) hev⟩

/-- `update_user` without a new name or address. -/
theorem keeps_updateUser {u : User} {f : User → Act α}
    (hp : p.userWrite = none ∧ p.userInsert = none ∧ p.committed = false)
    (hu : ∃ u₀ ∈ p.users, Derives env r p u₀ u) (herr : ∀ p e, post p (.error e))
    (hok : ∀ v, Keeps env r post
      { p with userWrite := some u, registered := p.registered ++ u.events } (f v)) :
    Keeps env r post p (UserService.updateUser env u none none >>= f) := by
  rw [UserService.updateUser]
  simp only [Prog.bind_assoc, keeps_raiseIf, UserService.updateUsernameOf,
    UserService.updateEmailOf]
  refine ⟨fun _ => herr _ _, fun _ => ?_⟩
  refine keeps_update hp hu (fun _ _ => herr _ _) ?_
  exact keeps_register (hok _)

/-- The loop of `revoke_all_sessions`. -/
theorem keeps_updateEach {u : Uuid} {done ss : List SessionAggregate} {f : Unit → Act α}
    (hp : p.added = none ∧ p.committed = false) (hlist : p.listed = some (u, done ++ ss))
    (hdone : p.updated = (done.map SessionAggregate.revoke).reverse)
    (hs : ∀ s ∈ ss, s ∈ p.sessions)
    (hactor : ∀ s ∈ ss, ∀ x, r.actor = some x → s.userId.value = x)
    (herr : ∀ p e, post p (.error e))
    (hok : Keeps env r post
      { p with
        updated := ((done ++ ss).map SessionAggregate.revoke).reverse
        registered :=
          p.registered ++ (ss.map SessionAggregate.revoke).flatMap SessionAggregate.events }
      (f ())) :
    Keeps env r post p
      (UserService.updateEach (ss.map SessionAggregate.revoke) >>= f) := by
  induction ss generalizing p done with
  | nil =>
      rw [List.append_nil, List.map_nil, List.flatMap_nil, List.append_nil, ← hdone] at hok
      exact hok
  | cons s ss ih =>
      rw [List.map_cons, UserService.updateEach]
      simp only [Prog.bind_assoc]
      refine keeps_updateSession hp (Or.inl ⟨s, hs s List.mem_cons_self, rfl⟩)
        (hactor s List.mem_cons_self) (Or.inr ⟨u, done, s, ss, hlist, hdone, rfl⟩) (herr p) ?_
      refine keeps_register (@ih _ (done ++ [s]) hp ?_ ?_
        (fun s' hs' => hs s' (List.mem_cons_of_mem _ hs'))
        (fun s' hs' => hactor s' (List.mem_cons_of_mem _ hs')) ?_)
      · simpa using hlist
      · simp [hdone]
      · simpa using hok

/-- `revoke_all_sessions`: every session that was listed is written back revoked. -/
theorem keeps_revokeAllSessions {id : UserID} {f : List SessionAggregate → Act α}
    (hp : p.added = none ∧ p.updated = [] ∧ p.committed = false)
    (hactor : ∀ x, r.actor = some x → id.value = x) (herr : ∀ p e, post p (.error e))
    (hok : ∀ ss, Keeps env r post
      { p with
        sessions := ss ++ p.sessions
        listed := some (id.value, ss)
        updated := (ss.map SessionAggregate.revoke).reverse
        registered :=
          p.registered ++ (ss.map SessionAggregate.revoke).flatMap SessionAggregate.events }
      (f (ss.map SessionAggregate.revoke))) :
    Keeps env r post p (UserService.revokeAllSessions id >>= f) := by
  rw [UserService.revokeAllSessions]
  simp only [Prog.bind_assoc, attempt_bind]
  refine ⟨⟨hp.1, hp.2.1, hp.2.2⟩, fun x hx => ?_⟩
  cases x with
  | error e => exact herr p e
  | ok ss =>
      refine @keeps_updateEach env r _ _ _ id.value [] ss _ ⟨hp.1, hp.2.2⟩ rfl hp.2.1
        (fun s hs => List.mem_append_left _ hs) (fun s hs x hr => ?_) herr ?_
      · exact (hx s hs).trans (hactor x hr)
      · exact hok ss

end Rules

/-- The account of a request is the one whose id it has parsed. -/
theorem actor_id {r : Request} {userId : Uuid} {id v : UserID} (hr : r.actor = some userId)
    (hid : UserID.make userId = .ok id) (hv : v = id) :
    ∀ x, r.actor = some x → v.value = x := by
  intro x hx
  obtain rfl := Option.some.inj (hr.symm.trans hx)
  rw [hv]
  exact UserID.make_ok hid

/-- A request that acts for no account. -/
theorem actor_none {r : Request} {P : Uuid → Prop} (hr : r.actor = none) :
    ∀ x, r.actor = some x → P x :=
  fun _ hx => absurd (hr.symm.trans hx) (by simp)

/-- A request that has registered the events of what it has written, in order, has announced
them. -/
theorem announced_of_eq {p : Progress} (h : p.registered = p.written) : p.Announced := by
  rw [Progress.Announced, h]

/-- A request that has registered the events of a user and then those of the sessions it has
revoked has announced both. -/
theorem announced_revoked {p : Progress} {ss : List SessionAggregate}
    (hr : p.registered = (p.userWrite.map User.events).getD [] ++
      ss.flatMap SessionAggregate.events)
    (hi : p.userInsert = none) (ha : p.added = none) (hu : p.updated = ss.reverse) :
    p.Announced := by
  rw [Progress.Announced, Progress.written, hr, hi, ha, hu]
  simp only [Option.map_none, Option.getD_none, List.append_nil]
  exact ((List.reverse_perm ss).symm.flatMap_right _).append_left _

/-- A request that has announced what it has written and now inserts a session announces that
too. -/
theorem announced_added {p : Progress} {s : SessionAggregate} (hr : p.registered = p.written)
    (hs : p.added = none ∧ p.updated = []) :
    { p with added := some s, registered := p.registered ++ s.events : Progress }.Announced := by
  refine announced_of_eq ?_
  simp [Progress.written, hr, hs.1, hs.2]

/-! ### The use cases -/

variable {env : Env}

/-- What holds when a request ends. -/
def Ends (env : Env) (r : Request) (p : Progress) (x : Except AppError Response) : Prop :=
  Answered env r p x ∧ Settled env r p

/-- An error says something only of a login or a completion. -/
theorem ends_error {r : Request} (hl : ∀ data, r ≠ .login data)
    (hc : ∀ token code, r ≠ .completeTwoFactor token code) (p : Progress) (e : AppError) :
    Ends env r p (.error e) := by
  cases r with
  | login data => exact absurd rfl (hl data)
  | completeTwoFactor token code => exact absurd rfl (hc token code)
  | _ =>
      exact ⟨trivial, trivial⟩

/-- The rotation of a live session, from the check of the presented token on. -/
theorem rotateSession_keeps {t : String} {p : Progress} {s₀ : SessionAggregate}
    {presented : RefreshToken} {f : SessionAggregate × User × String → Act Response}
    (hp : p.userWrite = none ∧ p.userInsert = none ∧ p.committed = false)
    (hread : p.users = []) (hs : p.added = none ∧ p.updated = []) (hmem : s₀ ∈ p.sessions)
    (hlive : s₀.isRevoked = false)
    (hfind : s₀.findRefreshToken (TokenHash.fromRaw env t) = some presented)
    (hvalid : presented.isRevoked = false)
    (hreg : p.registered = [])
    (hf : ∀ p s u raw, p.committed = false → Exchanges env t p s₀ s → p.updated = [s] →
      p.Announced → Keeps env (.refreshToken t) (Ends env (.refreshToken t)) p (f (s, u, raw))) :
    Keeps env (.refreshToken t) (Ends env (.refreshToken t)) p
      (UserService.rotateSession env s₀ presented >>= f) := by
  have herr : ∀ p e, Ends env (.refreshToken t) p (.error e) :=
    ends_error (fun _ => by simp) fun _ _ => by simp
  rw [UserService.rotateSession, UserRepo.acquireById, Prog.bind_assoc]
  refine keeps_acquire ⟨hp.1, hp.2.1, hp.2.2, hread⟩ (herr _) (herr _ _) fun u _ _ => ?_
  simp only [Prog.bind_assoc, keeps_raiseIf]
  refine ⟨fun _ => herr _ _, fun _ => keeps_now fun t₁ => ?_⟩
  rw [keeps_raiseIf]
  refine ⟨fun _ => herr _ _, fun _ => keeps_tokenUrlsafe fun raw => ?_⟩
  refine keeps_newRefreshToken fun ts new hnew => keeps_now fun t₂ => ?_
  refine keeps_updateSession ⟨hs.1, hp.2.2⟩ (Or.inr ⟨t, s₀, rfl, ?_, hs.2⟩)
    (actor_none rfl) (Or.inl hs.2) (herr _) ?_
  · exact ⟨presented, new, t₂, hmem, hlive, hfind, hvalid, hnew, by simp, rfl⟩
  · refine keeps_register (hf _ _ _ _ hp.2.2 ?_ (by simp [hs.2]) (announced_of_eq ?_))
    · exact ⟨presented, new, t₂, hmem, hlive, hfind, hvalid, hnew, by simp, rfl⟩
    · simp [Progress.written, hreg, hp.1, hp.2.1, hs.1, hs.2]

theorem refreshToken_keeps (t : String) :
    Keeps env (.refreshToken t) (Ends env (.refreshToken t)) {} (refreshToken env t) := by
  have herr : ∀ p e, Ends env (.refreshToken t) p (.error e) :=
    ends_error (fun _ => by simp) fun _ _ => by simp
  rw [refreshToken, UserService.refreshSession, Prog.bind_assoc]
  refine keeps_acquireSessionByToken ⟨rfl, rfl, rfl⟩ (herr _) (herr _ _) fun s₀ hlive => ?_
  simp only [Prog.bind_assoc]
  refine keeps_now fun t₁ => ?_
  rw [keeps_raiseIf]
  refine ⟨fun _ => herr _ _, fun _ => ?_⟩
  cases hfind : s₀.findRefreshToken (TokenHash.fromRaw env t) with
  | none => exact herr _ _
  | some presented =>
      simp only [Prog.bind_assoc]
      refine keeps_now fun t₂ => ?_
      rw [ite_bind, keeps_ite]
      refine ⟨fun _ => ?_, fun hv => ?_⟩
      · -- the reuse path writes a revoked session and then raises
        simp only [Prog.bind_assoc]
        refine keeps_updateSession ⟨rfl, rfl⟩ (Or.inl ⟨s₀, by simp, rfl⟩)
          (actor_none rfl) (Or.inl rfl) (herr _) ?_
        exact keeps_register (herr _ _)
      · have hvalid : presented.isRevoked = false := by
          simp only [RefreshToken.isValid] at hv
          cases h : presented.isRevoked <;> simp_all
        refine rotateSession_keeps ⟨rfl, rfl, rfl⟩ rfl ⟨rfl, rfl⟩ (by simp) hlive hfind hvalid rfl ?_
        intro p s u raw hc hx hu ha
        refine keeps_commit hc ⟨s₀, s, hx, hu⟩ ha (fun _ _ => herr _ _) ?_
        exact ⟨⟨rfl, s, by simp [hu], rfl⟩, trivial⟩

theorem revokeSession_keeps (userId : Uuid) (sessionId : String) :
    Keeps env (.revokeSession userId sessionId) (Ends env (.revokeSession userId sessionId)) {}
      (revokeSession env userId sessionId) := by
  have herr : ∀ p e, Ends env (.revokeSession userId sessionId) p (.error e) :=
    ends_error (fun _ => by simp) fun _ _ => by simp
  rw [revokeSession]
  cases env.parseUuid sessionId with
  | none => exact herr _ _
  | some sid =>
      simp only [Prog.pure_bind, keeps_ofExcept]
      refine ⟨fun _ _ => herr _ _, fun id hid => ?_⟩
      rw [UserService.revokeSession, Prog.bind_assoc]
      refine keeps_acquireSession ⟨rfl, rfl, rfl⟩ (herr _) ⟨trivial, trivial⟩ fun s => ?_
      simp only [ite_bind, keeps_ite, Prog.bind_assoc]
      refine ⟨fun howner => ?_, fun _ => ⟨trivial, trivial⟩⟩
      refine keeps_updateSession ⟨rfl, rfl⟩ (Or.inl ⟨s, by simp, rfl⟩) (actor_id rfl hid howner)
        (Or.inl rfl) (herr _) ?_
      exact keeps_register (keeps_commit rfl trivial
        (announced_of_eq (by simp [Progress.written])) (fun _ _ => herr _ _) ⟨trivial, trivial⟩)

theorem revokeAllSessions_keeps (userId : Uuid) :
    Keeps env (.revokeAllSessions userId) (Ends env (.revokeAllSessions userId)) {}
      (revokeAllSessions env userId) := by
  have herr : ∀ p e, Ends env (.revokeAllSessions userId) p (.error e) :=
    ends_error (fun _ => by simp) fun _ _ => by simp
  rw [revokeAllSessions, keeps_ofExcept]
  refine ⟨fun _ _ => herr _ _, fun id hid => ?_⟩
  refine keeps_revokeAllSessions ⟨rfl, rfl, rfl⟩ (actor_id rfl hid rfl) herr fun ss => ?_
  have hlisted : id.value = userId := UserID.make_ok hid
  refine keeps_commit rfl ⟨ss, by rw [hlisted], rfl⟩ (announced_revoked (by simp) rfl rfl rfl)
    (fun _ _ => herr _ _) ?_
  refine ⟨⟨rfl, rfl⟩, fun _ _ => ⟨⟨rfl, rfl⟩, fun _ _ => ⟨⟨rfl, rfl, ?_, ?_⟩, trivial⟩⟩⟩
  · exact List.mem_cons_self
  · exact List.mem_cons_self

theorem changePassword_keeps (userId : Uuid) (oldPwd newPwd : String) :
    Keeps env (.changePassword userId oldPwd newPwd)
      (Ends env (.changePassword userId oldPwd newPwd)) {}
      (changePassword env userId oldPwd newPwd) := by
  have herr : ∀ p e, Ends env (.changePassword userId oldPwd newPwd) p (.error e) :=
    ends_error (fun _ => by simp) fun _ _ => by simp
  rw [changePassword, keeps_ofExcept]
  refine ⟨fun _ _ => herr _ _, fun id hid => ?_⟩
  refine keeps_getUserById ⟨rfl, rfl, rfl, rfl⟩ herr fun u hu _ => ?_
  simp only [keeps_ofExcept]
  refine ⟨fun _ _ => herr _ _, fun old _ => ⟨fun _ _ => herr _ _, fun new _ => ?_⟩⟩
  rw [UserService.changePassword]
  simp only [Prog.bind_assoc]
  refine keeps_hashPassword fun bytes => ?_
  simp only [keeps_ofExcept]
  refine ⟨fun _ _ => herr _ _, fun hashed _ => ⟨fun _ _ => herr _ _, fun changed hc => ?_⟩⟩
  refine keeps_update ⟨rfl, rfl, rfl⟩
    ⟨u, by simp, .changePassword hc, trivial, actor_id rfl hid hu⟩ (fun _ _ => herr _ _) ?_
  refine keeps_register
    (keeps_revokeAllSessions ⟨rfl, rfl, rfl⟩ (actor_id rfl hid hu) herr fun ss => ?_)
  have hid : changed.id = u.id := by
    simp only [User.changePassword] at hc
    split at hc
    · cases hc
    · obtain rfl := Except.ok.inj hc
      rfl
  exact keeps_commit rfl ⟨changed, ss, rfl, by rw [hid], rfl⟩
    (announced_revoked rfl rfl rfl rfl) (fun _ _ => herr _ _) ⟨trivial, trivial⟩

/-- Resetting the password keeps the account. -/
theorem resetPassword_id {u u' : User} {now : Instant} {token : String} {new : HashedPassword}
    (h : u.resetPassword env now token new = .ok u') : u'.id = u.id := by
  simp only [User.resetPassword] at h
  split at h
  · cases h
  · split at h
    · cases h
    · split at h
      · cases h
      · obtain rfl := Except.ok.inj h
        rfl

/-- The rate limit in front of a program that does not care about errors. -/
theorem keeps_checkAddressLimit {r : Request} {endpoint : String} {ip : Option String}
    {p : Progress} {f : Unit → Act Response}
    (herr : ∀ p e, Ends env r p (.error e)) (h : Keeps env r (Ends env r) p (f ())) :
    Keeps env r (Ends env r) p (checkAddressLimit endpoint ip >>= f) := by
  rw [checkAddressLimit, ite_bind, keeps_ite]
  refine ⟨fun _ => ?_, fun _ => h⟩
  rw [checkRateLimit, Prog.bind_assoc]
  refine keeps_silent trivial (fun _ => rfl) fun limit => ?_
  rw [ite_bind, keeps_ite]
  refine ⟨fun _ => h, fun _ => ?_⟩
  rw [Prog.bind_assoc]
  exact keeps_now fun t => herr _ _

theorem resetPassword_keeps (token newPwd : String) (ip : Option String) :
    Keeps env (.resetPassword token newPwd ip) (Ends env (.resetPassword token newPwd ip)) {}
      (resetPassword env token newPwd ip) := by
  have herr : ∀ p e, Ends env (.resetPassword token newPwd ip) p (.error e) :=
    ends_error (fun _ => by simp) fun _ _ => by simp
  rw [resetPassword]
  refine keeps_checkAddressLimit herr ?_
  rw [keeps_ofExcept]
  refine ⟨fun _ _ => herr _ _, fun new _ => ?_⟩
  rw [UserService.resetPassword, UserRepo.acquireByResetToken, Prog.bind_assoc]
  refine keeps_acquire ⟨rfl, rfl, rfl, rfl⟩ (herr _) (herr _ _) fun u _ _ => ?_
  simp only [Prog.bind_assoc]
  refine keeps_hashPassword fun bytes => ?_
  rw [keeps_ofExcept]
  refine ⟨fun _ _ => herr _ _, fun hashed _ => keeps_now fun t => ?_⟩
  rw [keeps_ofExcept]
  refine ⟨fun _ _ => herr _ _, fun reset hr => ?_⟩
  refine keeps_update ⟨rfl, rfl, rfl⟩
    ⟨u, by simp, .resetPassword t hr, ⟨t, by simp, hashed, hr⟩, actor_none rfl⟩
    (fun _ _ => herr _ _) ?_
  refine keeps_register
    (keeps_revokeAllSessions ⟨rfl, rfl, rfl⟩ (actor_none rfl) herr fun ss => ?_)
  refine keeps_commit rfl ⟨reset, ss, rfl, ?_, rfl⟩ (announced_revoked rfl rfl rfl rfl)
    (fun _ _ => herr _ _) ⟨trivial, trivial⟩
  rw [resetPassword_id hr]

theorem deleteMe_keeps (userId : Uuid) :
    Keeps env (.deleteMe userId) (Ends env (.deleteMe userId)) {} (deleteMe userId) := by
  have herr : ∀ p e, Ends env (.deleteMe userId) p (.error e) :=
    ends_error (fun _ => by simp) fun _ _ => by simp
  rw [deleteMe, keeps_ofExcept]
  refine ⟨fun _ _ => herr _ _, fun id hid => ?_⟩
  rw [UserService.deleteUser, UserRepo.acquireById, Prog.bind_assoc]
  refine keeps_acquire ⟨rfl, rfl, rfl, rfl⟩ (herr _) (herr _ _) fun u hu _ => ?_
  have huid : u.id = id := UserID.ext (hu id.value rfl)
  simp only [ite_bind, keeps_ite, Prog.bind_assoc]
  refine ⟨fun _ => keeps_commit rfl trivial (announced_of_eq rfl) (fun _ _ => herr _ _)
    ⟨trivial, trivial⟩, fun _ => ?_⟩
  refine keeps_revokeAllSessions ⟨rfl, rfl, rfl⟩ (actor_id rfl hid rfl) herr fun ss =>
    keeps_now fun t => ?_
  refine keeps_update ⟨rfl, rfl, rfl⟩ ⟨u, by simp, .delete t, trivial, actor_id rfl hid huid⟩
    (fun _ _ => herr _ _) ?_
  refine keeps_register (keeps_commit rfl trivial ?_ (fun _ _ => herr _ _) ⟨trivial, trivial⟩)
  -- here the sessions are announced before the user
  refine List.perm_append_comm.trans ?_
  exact announced_revoked (p := { userWrite := some (u.delete t), updated := _, registered := _ })
    rfl rfl rfl rfl

theorem requestPasswordReset_keeps (email : String) (ip : Option String) :
    Keeps env (.requestPasswordReset email ip) (Ends env (.requestPasswordReset email ip)) {}
      (requestPasswordReset env email ip) := by
  have herr : ∀ p e, Ends env (.requestPasswordReset email ip) p (.error e) :=
    ends_error (fun _ => by simp) fun _ _ => by simp
  rw [requestPasswordReset]
  refine keeps_checkAddressLimit herr ?_
  rw [keeps_ofExcept]
  refine ⟨fun _ _ => herr _ _, fun address _ => ?_⟩
  have hend : ∀ p : Progress, p.committed = false → p.registered = p.written →
      Keeps env (.requestPasswordReset email ip) (Ends env (.requestPasswordReset email ip)) p
        (commit >>= fun _ => pure .success) :=
    fun p hp ha => keeps_commit hp trivial (announced_of_eq ha) (fun _ _ => herr _ _)
      ⟨trivial, trivial⟩
  rw [UserService.requestPasswordReset, UserRepo.acquireByEmail, Prog.bind_assoc]
  refine keeps_acquire ⟨rfl, rfl, rfl, rfl⟩ (herr _) (hend _ rfl rfl) fun u _ _ => ?_
  simp only [Prog.bind_assoc]
  refine keeps_tokenUrlsafe fun token => keeps_now fun t => ?_
  refine keeps_update ⟨rfl, rfl, rfl⟩
    ⟨u, by simp, .requestReset t token, ⟨token, by simp, t, by simp, rfl⟩, actor_none rfl⟩
    (fun _ _ => herr _ _) ?_
  exact keeps_register (hend _ rfl (by simp [Progress.written]))

theorem verifyEmail_keeps (token : String) :
    Keeps env (.verifyEmail token) (Ends env (.verifyEmail token)) {} (verifyEmail env token) := by
  have herr : ∀ p e, Ends env (.verifyEmail token) p (.error e) :=
    ends_error (fun _ => by simp) fun _ _ => by simp
  rw [verifyEmail, UserService.verifyEmail, UserRepo.acquireByVerificationToken,
    Prog.bind_assoc]
  refine keeps_acquire ⟨rfl, rfl, rfl, rfl⟩ (herr _) (herr _ _) fun u _ _ => ?_
  simp only [Prog.bind_assoc]
  refine keeps_now fun t => ?_
  rw [keeps_raiseIf]
  refine ⟨fun _ => herr _ _, fun hv => keeps_now fun t' => ?_⟩
  refine keeps_update ⟨rfl, rfl, rfl⟩
    ⟨u, by simp, .verifyEmail t', ⟨t, by simp, by simpa using hv, t', rfl⟩, actor_none rfl⟩
    (fun _ _ => herr _ _) ?_
  exact keeps_register (keeps_commit rfl trivial (announced_of_eq (by simp [Progress.written]))
    (fun _ _ => herr _ _) ⟨trivial, trivial⟩)

theorem enable2FA_keeps (userId : Uuid) :
    Keeps env (.enable2FA userId) (Ends env (.enable2FA userId)) {} (enable2FA env userId) := by
  have herr : ∀ p e, Ends env (.enable2FA userId) p (.error e) :=
    ends_error (fun _ => by simp) fun _ _ => by simp
  rw [enable2FA, keeps_ofExcept]
  refine ⟨fun _ _ => herr _ _, fun id hid => ?_⟩
  refine keeps_getUserById ⟨rfl, rfl, rfl, rfl⟩ herr fun u hu _ => ?_
  rw [keeps_raiseIf]
  refine ⟨fun _ => herr _ _, fun h2 => ?_⟩
  refine keeps_silent trivial (fun _ => rfl) fun secret => keeps_tokenHexes fun codes _ => ?_
  refine keeps_updateUser ⟨rfl, rfl, rfl⟩
    ⟨u, by simp, .enrol secret codes h2, trivial, actor_id rfl hid hu⟩ herr fun _ => ?_
  exact keeps_commit rfl trivial (announced_of_eq (by simp [Progress.written]))
    (fun _ _ => herr _ _) ⟨trivial, trivial⟩

theorem confirm2FA_keeps (userId : Uuid) (code : String) :
    Keeps env (.confirm2FA userId code) (Ends env (.confirm2FA userId code)) {}
      (confirm2FA env userId code) := by
  have herr : ∀ p e, Ends env (.confirm2FA userId code) p (.error e) :=
    ends_error (fun _ => by simp) fun _ _ => by simp
  rw [confirm2FA, keeps_ofExcept]
  refine ⟨fun _ _ => herr _ _, fun id hid => ?_⟩
  refine keeps_getUserById ⟨rfl, rfl, rfl, rfl⟩ herr fun u hu _ => keeps_now fun t => ?_
  rw [keeps_ofExcept]
  refine ⟨fun _ _ => herr _ _, fun confirmed hc => ?_⟩
  refine keeps_updateUser ⟨rfl, rfl, rfl⟩
    ⟨u, by simp, .confirm t hc, trivial, actor_id rfl hid hu⟩ herr fun _ => ?_
  exact keeps_commit rfl trivial (announced_of_eq (by simp [Progress.written]))
    (fun _ _ => herr _ _) ⟨trivial, trivial⟩

theorem disable2FA_keeps (userId : Uuid) (pwd : String) :
    Keeps env (.disable2FA userId pwd) (Ends env (.disable2FA userId pwd)) {}
      (disable2FA env userId pwd) := by
  have herr : ∀ p e, Ends env (.disable2FA userId pwd) p (.error e) :=
    ends_error (fun _ => by simp) fun _ _ => by simp
  rw [disable2FA, keeps_ofExcept]
  refine ⟨fun _ _ => herr _ _, fun id hid => ?_⟩
  refine keeps_getUserById ⟨rfl, rfl, rfl, rfl⟩ herr fun u hu _ => ?_
  simp only [keeps_ofExcept, keeps_raiseIf]
  refine ⟨fun _ _ => herr _ _, fun _ _ => ⟨fun _ => herr _ _, fun _ => ?_⟩⟩
  refine keeps_updateUser ⟨rfl, rfl, rfl⟩
    ⟨u, by simp, .disable, trivial, actor_id rfl hid hu⟩ herr fun _ => ?_
  exact keeps_commit rfl trivial (announced_of_eq (by simp [Progress.written]))
    (fun _ _ => herr _ _) ⟨trivial, trivial⟩

/-- A code that was accepted by consuming a recovery code leaves another user; any other
evaluation leaves the user as it was. -/
theorem verifyTwoFactor_ne {u : User} {now : Instant} {code : String}
    (h : (u.verifyTwoFactor env now code).2 ≠ u) : (u.verifyTwoFactor env now code).1 = true := by
  revert h
  rw [User.verifyTwoFactor]
  split
  · simp
  · split
    · simp
    · split
      · simp
      · split <;> simp

/-- Evaluating a code records no event. -/
theorem verifyTwoFactor_events (u : User) (now : Instant) (code : String) :
    (u.verifyTwoFactor env now code).2.events = u.events := by
  obtain ⟨s, hs⟩ := u.verifyTwoFactor_eq env now code
  rw [hs]

theorem verify2FA_keeps (userId : Uuid) (code : String) :
    Keeps env (.verify2FA userId code) (Ends env (.verify2FA userId code)) {}
      (verify2FA userId code) := by
  have herr : ∀ p e, Ends env (.verify2FA userId code) p (.error e) :=
    ends_error (fun _ => by simp) fun _ _ => by simp
  rw [verify2FA, keeps_ofExcept]
  refine ⟨fun _ _ => herr _ _, fun id hid => ?_⟩
  rw [UserRepo.acquireById]
  refine keeps_acquire ⟨rfl, rfl, rfl, rfl⟩ (herr _) ⟨trivial, trivial⟩ fun u hu hev => ?_
  have huid : u.id = id := UserID.ext (hu id.value rfl)
  rw [keeps_ask]
  refine ⟨⟨by simp, rfl, rfl, rfl⟩, fun x hx => ?_⟩
  obtain ⟨now, rfl⟩ := hx
  rw [keeps_ite]
  refine ⟨fun hne => ?_, fun _ => ⟨trivial, trivial⟩⟩
  refine keeps_update ⟨rfl, rfl, rfl⟩ ⟨u, by simp [Progress.note], ?_⟩ (fun _ _ => herr _ _) ?_
  · exact ⟨.verifyConsumes now (Prod.ext (verifyTwoFactor_ne hne) rfl) hne, trivial,
      actor_id rfl hid huid⟩
  · -- the aggregate is not registered, but it has recorded nothing either
    refine keeps_commit rfl (fun v code' v' hv _ => ?_) (announced_of_eq ?_) (fun _ _ => herr _ _)
      ⟨trivial, trivial⟩
    rotate_left
    · simp [Progress.note, Progress.written, verifyTwoFactor_events, hev]
    have hv' : (v, code', true, v') = (u, code, u.verifyTwoFactor env now code) := by
      simpa [Progress.note] using hv
    simp only [Prod.mk.injEq] at hv'
    exact congrArg (fun y : Bool × User => some y.2) hv'.2.2.symm

/-- The uniqueness check of an address that does not care about errors. -/
theorem keeps_emailExists {r : Request} {address : Option String} {e : AppError} {p : Progress}
    {f : Unit → Act Response} (herr : ∀ p e, Ends env r p (.error e))
    (h : Keeps env r (Ends env r) p (f ())) :
    Keeps env r (Ends env r) p
      (ask (.emailExists address) >>= fun found => raiseIf found e >>= f) := by
  refine keeps_silent trivial (fun _ => rfl) fun found => ?_
  rw [keeps_raiseIf]
  exact ⟨fun _ => herr _ _, fun _ => h⟩

/-- The end of `CreateUserUseCase`, once the names are known to be free. -/
theorem insertUser_keeps {username pwd : String} {email ip : Option String} {drawn : Uuid}
    {id : UserID} (hid : UserID.make drawn = .ok id) (name : Username) (address : Email)
    (plain : PlainPassword env) :
    Keeps env (.createUser username pwd email ip) (Ends env (.createUser username pwd email ip))
      { drawn := [drawn] } (do
        let bytes ← ask (.hashPassword plain.value)
        let hashed ← ofExcept (HashedPassword.make bytes)
        let token ← ask .uuid4
        let at_ ← now
        attempt (ask (.addUser (User.create env at_ id name address hashed (env.uuidStr token))))
        register (User.create env at_ id name address hashed (env.uuidStr token)).events
        commit
        pure (.created (User.create env at_ id name address hashed
          (env.uuidStr token)).id.value)) := by
  have herr : ∀ p e, Ends env (.createUser username pwd email ip) p (.error e) :=
    ends_error (fun _ => by simp) fun _ _ => by simp
  refine keeps_hashPassword fun bytes => ?_
  rw [keeps_ofExcept]
  refine ⟨fun _ _ => herr _ _, fun hashed _ => keeps_uuid4 fun token => keeps_now fun t => ?_⟩
  rw [attempt_bind, keeps_ask]
  refine ⟨⟨rfl, rfl, rfl, ?_⟩, fun x _ => ?_⟩
  · have hv : id.value = drawn := UserID.make_ok hid
    exact ⟨rfl, t, by simp, token, by simp, id, name, address, hashed, by simp [hv], rfl⟩
  · cases x with
    | error e => exact herr _ _
    | ok u =>
        refine keeps_register (keeps_commit rfl trivial ?_ (fun _ _ => herr _ _)
          ⟨trivial, trivial⟩)
        exact announced_of_eq (by simp [Progress.note, Progress.written])

theorem createUser_keeps (username pwd : String) (email ip : Option String) :
    Keeps env (.createUser username pwd email ip) (Ends env (.createUser username pwd email ip))
      {} (createUser env username pwd email ip) := by
  have herr : ∀ p e, Ends env (.createUser username pwd email ip) p (.error e) :=
    ends_error (fun _ => by simp) fun _ _ => by simp
  rw [createUser]
  refine keeps_checkAddressLimit herr (keeps_uuid4 fun drawn => ?_)
  simp only [keeps_ofExcept]
  refine ⟨fun _ _ => herr _ _, fun id hid => ⟨fun _ _ => herr _ _, fun name _ =>
    ⟨fun _ _ => herr _ _, fun address _ => ⟨fun _ _ => herr _ _, fun plain _ => ?_⟩⟩⟩⟩
  rw [UserService.create]
  simp only [Prog.bind_assoc, ite_bind, Prog.pure_bind]
  refine keeps_silent trivial (fun _ => rfl) fun found => ?_
  rw [keeps_raiseIf]
  refine ⟨fun _ => herr _ _, fun _ => ?_⟩
  rw [keeps_ite]
  exact ⟨fun _ => keeps_emailExists herr (insertUser_keeps hid name address plain),
    fun _ => insertUser_keeps hid name address plain⟩

/-- An optional profile field that does not care about errors. -/
theorem keeps_profileField {r : Request} {β : Type} {make : String → Except AppError β}
    {v : Option String} {p : Progress} {f : Option β → Act Response}
    (herr : ∀ p e, Ends env r p (.error e)) (h : ∀ v, Keeps env r (Ends env r) p (f v)) :
    Keeps env r (Ends env r) p (profileField make v >>= f) := by
  rw [profileField, ite_bind, keeps_ite]
  refine ⟨fun _ => ?_, fun _ => h none⟩
  rw [Prog.bind_assoc, keeps_ofExcept]
  exact ⟨fun _ _ => herr _ _, fun v _ => h (some v)⟩

/-- The username part of `update_user`. -/
theorem keeps_updateUsernameOf {r : Request} {user updated : User} {name : Option Username}
    {p : Progress} {f : User → Act Response} (herr : ∀ p e, Ends env r p (.error e))
    (h : ∀ v, (v = updated ∨ ∃ n, v = updated.updateUsername n) →
      Keeps env r (Ends env r) p (f v)) :
    Keeps env r (Ends env r) p (UserService.updateUsernameOf user updated name >>= f) := by
  cases name with
  | none => exact h _ (Or.inl rfl)
  | some name =>
      rw [UserService.updateUsernameOf]
      simp only [ite_bind, keeps_ite, Prog.bind_assoc]
      refine ⟨fun _ => ?_, fun _ => h _ (Or.inl rfl)⟩
      refine keeps_silent trivial (fun _ => rfl) fun found => ?_
      rw [keeps_raiseIf]
      exact ⟨fun _ => herr _ _, fun _ => h _ (Or.inr ⟨name, rfl⟩)⟩

/-- The email part of `update_user`. -/
theorem keeps_updateEmailOf {r : Request} {user updated : User} {address : Option Email}
    {p : Progress} {f : User → Act Response} (herr : ∀ p e, Ends env r p (.error e))
    (h : ∀ ts ks v, (v = updated ∨ ∃ t ∈ ts, ∃ k ∈ ks, ∃ a, v = updated.updateEmail env t a k) →
      Keeps env r (Ends env r)
        { p with instants := ts ++ p.instants, tokens := ks ++ p.tokens } (f v)) :
    Keeps env r (Ends env r) p (UserService.updateEmailOf env user updated address >>= f) := by
  cases address with
  | none => exact h [] [] _ (Or.inl rfl)
  | some address =>
      rw [UserService.updateEmailOf]
      simp only [ite_bind, keeps_ite, Prog.bind_assoc]
      refine ⟨fun _ => keeps_emailExists herr ?_, fun _ => h [] [] _ (Or.inl rfl)⟩
      refine keeps_tokenHexes fun drawn hlen => keeps_now fun t => ?_
      obtain ⟨k, rfl⟩ := List.length_eq_one_iff.mp hlen
      exact h [t] [k] _ (Or.inr ⟨t, by simp, k, by simp, address, rfl⟩)

theorem updateProfile_keeps (userId : Uuid) (username email : Option String) :
    Keeps env (.updateProfile userId username email)
      (Ends env (.updateProfile userId username email)) {}
      (updateProfile env userId username email) := by
  have herr : ∀ p e, Ends env (.updateProfile userId username email) p (.error e) :=
    ends_error (fun _ => by simp) fun _ _ => by simp
  rw [updateProfile, keeps_ofExcept]
  refine ⟨fun _ _ => herr _ _, fun id hid => ?_⟩
  refine keeps_getUserById ⟨rfl, rfl, rfl, rfl⟩ herr fun u hu _ => ?_
  refine keeps_profileField herr fun name => keeps_profileField herr fun address => ?_
  rw [UserService.updateUser]
  simp only [Prog.bind_assoc, keeps_raiseIf]
  refine ⟨fun _ => herr _ _, fun _ => ?_⟩
  refine keeps_updateUsernameOf herr fun u₁ h₁ => keeps_updateEmailOf herr fun ts ks u₂ h₂ => ?_
  have hcomp : u₂ = u₁ ∨ ∃ now address token, u₂ = u₁.updateEmail env now address token := by
    rcases h₂ with h₂ | ⟨t, _, k, _, a, h₂⟩
    · exact Or.inl h₂
    · exact Or.inr ⟨t, a, k, h₂⟩
  refine keeps_update ⟨rfl, rfl, rfl⟩ ⟨u, by simp, .profile h₁ hcomp, ⟨u₁, h₁, ?_⟩,
    actor_id rfl hid hu⟩ (fun _ _ => herr _ _) ?_
  · simpa using h₂
  refine keeps_register (keeps_commit rfl trivial
    (announced_of_eq (by simp [Progress.written])) (fun _ _ => herr _ _) ?_)
  exact keeps_now fun _ => ⟨trivial, trivial⟩

/-! ### Signing in -/

/-- A login may end with an error that is no verdict, or before it has found an account. -/
theorem login_ends_error {data : LoginInput} {p : Progress} {e : AppError}
    (h : e.verdict = false ∨ p.users = []) : Ends env (.login data) p (.error e) := by
  refine ⟨fun hv u hu => ?_, trivial⟩
  rcases h with h | h
  · rw [h] at hv
    exact absurd hv (by simp)
  · rw [h] at hu
    exact absurd hu List.not_mem_nil

/-- The limiters in front of a login. -/
theorem keeps_checkLoginLimits {data : LoginInput} {key : Option String} {p : Progress}
    {f : Unit → Act Response} (hp : p.users = [])
    (h : Keeps env (.login data) (Ends env (.login data)) p (f ())) :
    Keeps env (.login data) (Ends env (.login data)) p (checkLoginLimits key >>= f) := by
  cases key with
  | none => exact h
  | some key =>
      rw [checkLoginLimits, checkRateLimit]
      simp only [Prog.bind_assoc]
      refine keeps_silent trivial (fun _ => rfl) fun limit => ?_
      simp only [ite_bind, keeps_ite, Prog.bind_assoc, Prog.pure_bind]
      refine ⟨fun _ => ?_, fun _ => keeps_now fun t => login_ends_error (Or.inr hp)⟩
      refine keeps_silent trivial (fun _ => rfl) fun locked => ?_
      rw [keeps_raiseIf]
      exact ⟨fun _ => login_ends_error (Or.inr hp), fun _ => h⟩

/-- The end of a login whose password check gave no session. -/
theorem refuseLogin_keeps {data : LoginInput} {key : Option String} {p : Progress}
    {user u : User} (hc : p.committed = false) (hp : p.users = [u]) (ha : p.Announced)
    (hv : (∃ t ∈ p.instants, u.isLocked t = true) ∨ u.isDeleted = true ∨
      ∃ failedAt, p.userWrite = some (u.recordFailedLoginAttempt failedAt
        UserService.maxFailedAttempts UserService.lockoutDurationMinutes)) :
    Keeps env (.login data) (Ends env (.login data)) p
      (recordFailedLogin key >>= fun _ => refuseLogin user) := by
  have hend : ∀ ts e, Ends env (.login data)
      { p with committed := true, instants := ts ++ p.instants } (.error e) := by
    refine fun ts e => ⟨fun _ u' hu' => ⟨rfl, ?_⟩, trivial⟩
    obtain rfl : u' = u := by simpa [hp] using hu'
    rcases hv with ⟨t, ht, hl⟩ | hv
    · exact Or.inl ⟨t, by simp [ht], hl⟩
    · exact Or.inr hv
  have hrefuse : Keeps env (.login data) (Ends env (.login data)) p (refuseLogin user) := by
    rw [refuseLogin]
    refine keeps_commit hc trivial ha (fun e he => login_ends_error (Or.inl he)) ?_
    refine keeps_now fun t => ?_
    rw [keeps_raiseIf]
    exact ⟨fun _ => hend [t] _, fun _ => hend [t] _⟩
  cases key with
  | none => exact hrefuse
  | some key => exact keeps_silent trivial (fun _ => rfl) fun _ => hrefuse

/-- The end of a login whose password check gave a session. -/
theorem acceptLogin_keeps {data : LoginInput} {key : Option String} {p : Progress}
    {u : User} {s : SessionAggregate} {raw : String} {d : DeviceInfo}
    (hc : p.committed = false) (hadd : p.added = none ∧ p.updated = [])
    (hu : p.userWrite = some u) (hpwd : PasswordChecked env data p u) (hs : s.userId = u.id)
    (hrev : s.isRevoked = false) (hsid : s.sessionId ∈ p.drawn)
    (ht : ∃ t, s.refreshTokens = [t] ∧ t.id ∈ p.drawn)
    (hnew : ∀ t ∈ s.refreshTokens, t.isRevoked = false) (ha : p.registered = p.written)
    (hl : p.FoundLive s) :
    Keeps env (.login data) (Ends env (.login data)) p
      (resetLoginAttempts key >>= fun _ =>
        if ({ u with version := u.version + 1 } : User).hasTwoFactor then
          challengeLogin env data { u with version := u.version + 1 } d
        else grantLogin env { u with version := u.version + 1 } s (some raw)) := by
  have hrest : Keeps env (.login data) (Ends env (.login data)) p
      (if ({ u with version := u.version + 1 } : User).hasTwoFactor then
        challengeLogin env data { u with version := u.version + 1 } d
      else grantLogin env { u with version := u.version + 1 } s (some raw)) := by
    rw [keeps_ite]
    refine ⟨fun _ => ?_, fun h2 => ?_⟩
    · rw [challengeLogin, ChallengeStore.issue]
      refine keeps_commit hc trivial (announced_of_eq ha)
        (fun e he => login_ends_error (Or.inl he)) ?_
      simp only [Prog.bind_assoc]
      refine keeps_tokenUrlsafe fun token => ?_
      rw [ChallengeStore.put, keeps_ask]
      refine ⟨⟨token, _, u, rfl, rfl, rfl, hu, hpwd, rfl, rfl⟩, fun _ _ => ⟨fun h => ?_, trivial⟩⟩
      cases h
    · rw [grantLogin]
      refine keeps_persistSession ⟨hadd.1, hadd.2, hc⟩ hrev hsid ht
        ⟨u, hu, hpwd, Bool.eq_false_of_not_eq_true h2, hs⟩ hl hnew
        (fun e he => login_ends_error (Or.inl he)) ?_
      refine keeps_commit hc trivial (announced_added ha hadd)
        (fun e he => login_ends_error (Or.inl he)) ?_
      exact ⟨fun _ => ⟨rfl, s, rfl, congrArg UserID.value hs.symm⟩, trivial⟩
  cases key with
  | none => exact hrest
  | some key => exact keeps_silent trivial (fun _ => rfl) fun _ => hrest

/-- `LoginUseCase` from the moment the account is found. -/
theorem authenticateUser_keeps {data : LoginInput} {key : Option String} {u : User}
    {pwd : PlainPassword env} {d : DeviceInfo}
    (hpwd : PlainPassword.make env data.password = .ok pwd) :
    Keeps env (.login data) (Ends env (.login data)) { users := [u] }
      (UserService.authenticateUser env pwd u d >>= fun result => match result with
        | (none, _, _) => do
            recordFailedLogin key
            raise (.invalidCredentials none)
        | (some user, none, _) => do
            recordFailedLogin key
            refuseLogin user
        | (some user, some session, refreshToken) => do
            resetLoginAttempts key
            if user.hasTwoFactor then challengeLogin env data user d
            else grantLogin env user session refreshToken) := by
  rw [UserService.authenticateUser]
  simp only [Prog.bind_assoc]
  refine keeps_now fun t => ?_
  simp only [ite_bind, keeps_ite, Prog.bind_assoc]
  refine ⟨fun hl => ?_, fun hl => ⟨fun hd => ?_, fun hd => ⟨fun hv => ?_, fun hv => ?_⟩⟩⟩
  · exact refuseLogin_keeps rfl rfl (announced_of_eq rfl) (Or.inl ⟨t, by simp, hl⟩)
  · exact refuseLogin_keeps rfl rfl (announced_of_eq rfl) (Or.inr (Or.inl hd))
  · -- a wrong password is written back before the request commits
    refine keeps_now fun t' => ?_
    refine keeps_update ⟨rfl, rfl, rfl⟩ ⟨u, by simp, ?_⟩
      (fun e he => login_ends_error (Or.inl he)) ?_
    · exact ⟨.wrongPassword t t' hpwd (by simpa using hl) (by simpa using hd) (by simpa using hv),
        trivial, actor_none rfl⟩
    · exact keeps_register (refuseLogin_keeps rfl rfl
        (announced_of_eq (by simp [Progress.written])) (Or.inr (Or.inr ⟨t', rfl⟩)))
  · refine keeps_update ⟨rfl, rfl, rfl⟩
      ⟨u, by simp, .rightPassword hpwd (by simpa using hv), trivial, actor_none rfl⟩
      (fun e he => login_ends_error (Or.inl he)) ?_
    refine keeps_register (keeps_buildSession fun ts ds ks s raw hs hrev hsid ht hnew => ?_)
    obtain ⟨tok, htok, hid⟩ := ht
    refine acceptLogin_keeps rfl ⟨rfl, rfl⟩ rfl
      ⟨u, pwd, List.mem_cons_self, hpwd, by simpa using hv, rfl⟩ hs hrev (by simp [hsid])
      ⟨tok, htok, by simp [hid]⟩ hnew ?_ ⟨u, by simp, hs, by simpa using hd, t, by simp, by simpa using hl⟩
    simp [Progress.written]

theorem login_keeps (data : LoginInput) :
    Keeps env (.login data) (Ends env (.login data)) {} (login env data) := by
  rw [login]
  refine keeps_checkLoginLimits rfl ?_
  rw [keeps_ofExcept]
  refine ⟨fun _ _ => login_ends_error (Or.inr rfl), fun pwd hpwd => ?_⟩
  have hunknown : Keeps env (.login data) (Ends env (.login data)) {}
      (recordFailedLogin (attemptKey env data) >>= fun _ =>
        Prog.raise (.invalidCredentials none)) := by
    cases attemptKey env data with
    | none => exact login_ends_error (Or.inr rfl)
    | some key =>
        exact keeps_silent trivial (fun _ => rfl) fun _ => login_ends_error (Or.inr rfl)
  rw [UserService.authenticate]
  simp only [ite_bind, keeps_ite, Prog.bind_assoc, keeps_ofExcept]
  refine ⟨fun _ => hunknown, fun _ => ⟨fun _ => ⟨fun _ _ => login_ends_error (Or.inr rfl),
    fun name _ => ?_⟩, fun _ => ⟨fun _ _ => login_ends_error (Or.inr rfl), fun address _ => ?_⟩⟩⟩
  · rw [UserRepo.acquireByUsername]
    exact keeps_acquire ⟨rfl, rfl, rfl, rfl⟩ (fun _ => login_ends_error (Or.inr rfl)) hunknown
      fun u _ _ => authenticateUser_keeps hpwd
  · rw [UserRepo.acquireByEmail]
    exact keeps_acquire ⟨rfl, rfl, rfl, rfl⟩ (fun _ => login_ends_error (Or.inr rfl)) hunknown
      fun u _ _ => authenticateUser_keeps hpwd

/-! ### Completing a two-factor login -/

/-- The key of a challenge is not the key of a used code. -/
theorem challengeKey_ne_usedKey (token : String) (u : Uuid) (code : String) :
    ChallengeStore.key token ≠ UsedCodes.key env u code := by
  intro h
  have h' := congrArg String.toList h
  simp only [ChallengeStore.key, UsedCodes.key, String.toList_append] at h'
  have := congrArg List.head? h'
  simp at this

/-- A completion that has had no code evaluated may end with any error. -/
theorem complete_ends_error {token code : String} {p : Progress} (h : p.checks = [])
    (e : AppError) : Ends env (.completeTwoFactor token code) p (.error e) := by
  refine ⟨trivial, fun u hu => ?_, fun raw _ u code' u' hu => ?_⟩
  · rw [h] at hu
    exact absurd hu List.not_mem_nil
  · rw [h] at hu
    exact absurd hu List.not_mem_nil

/-- What was read under a key is no longer held once the key is written. -/
theorem not_holds_release {p q : Progress} {token raw : String}
    (hq : q.held = p.release (ChallengeStore.key token)) : ¬ q.Holds token raw := by
  rw [Progress.Holds, hq, Progress.release, List.mem_filter]
  simp

/-- Once the challenge is no longer held, a completion without an accepted code may end. -/
theorem complete_ends_refused {token code : String} {p : Progress}
    (hh : ∀ raw, ¬ p.Holds token raw) (hc : ∀ u code' u', (u, code', true, u') ∉ p.checks)
    (e : AppError) : Ends env (.completeTwoFactor token code) p (.error e) :=
  ⟨trivial, fun u hu => absurd hu (hc u code u), fun raw h => absurd h (hh raw)⟩

/-- `discard`. -/
theorem keeps_discard {token code : String} (raw : String) {p : Progress} {f : Unit → Act Response}
    (hh : p.Holds token raw)
    (h : Keeps env (.completeTwoFactor token code) (Ends env (.completeTwoFactor token code))
      { p with
        dropped := ChallengeStore.key token :: p.dropped
        held := p.release (ChallengeStore.key token) } (f ())) :
    Keeps env (.completeTwoFactor token code) (Ends env (.completeTwoFactor token code)) p
      (ChallengeStore.discard token >>= f) :=
  ⟨⟨rfl, raw, hh⟩, fun _ _ => h⟩

/-- Writing the challenge back, or dropping it, ends a refused completion. -/
theorem refuseTwoFactor_keeps {token code : String} (raw : String) {p : Progress} {c : StoredChallenge}
    (hh : p.Holds token raw) (hraw : env.validateJson raw = some c)
    (hc : ∀ u code' u', (u, code', true, u') ∉ p.checks) :
    Keeps env (.completeTwoFactor token code) (Ends env (.completeTwoFactor token code)) p
      (refuseTwoFactor env token c.toChallenge) := by
  rw [refuseTwoFactor, ChallengeStore.recordFailure]
  simp only [ite_bind, keeps_ite, Prog.bind_assoc]
  refine ⟨fun _ => keeps_discard raw hh ?_, fun hex => ?_⟩
  · refine complete_ends_refused (fun raw => not_holds_release (p := p) ?_) ?_ _
    · rfl
    · exact hc
  · rw [ChallengeStore.put, keeps_ask]
    refine ⟨Or.inl ⟨raw, c, rfl, rfl, rfl, hh, hraw, ?_⟩, fun _ _ => ?_⟩
    · have : ¬ maxAttempts ≤ c.attempts + 1 := fun h => hex (decide_eq_true h)
      omega
    · refine complete_ends_refused (fun raw => not_holds_release (p := p) ?_) ?_ _
      · rfl
      · exact hc

/-- `dropChallenge`. -/
theorem dropChallenge_keeps {token code : String} (raw : String) {p : Progress} (hh : p.Holds token raw)
    (hc : p.checks = []) :
    Keeps env (.completeTwoFactor token code) (Ends env (.completeTwoFactor token code)) p
      (dropChallenge token) := by
  refine keeps_discard raw hh (complete_ends_error ?_ _)
  exact hc

/-- The start of the session, once the code is accepted and the challenge dropped. -/
theorem openSession_keeps {token code : String} {p : Progress} {u u' v : User}
    {c : StoredChallenge} (hp : p.added = none ∧ p.updated = [] ∧ p.committed = false)
    (hu : u ∈ p.users) (hchk : (u, code, true, u') ∈ p.checks) (hv : v.id = u.id)
    (hread : p.HasRead env token c) (hid : c.userId = u.id.value)
    (hdrop : ChallengeStore.key token ∈ p.dropped) (hcons : p.Consumed)
    (hlive : p.Usable u) (ha : p.registered = p.written)
    (hset : Settled env (.completeTwoFactor token code) p) :
    Keeps env (.completeTwoFactor token code) (Ends env (.completeTwoFactor token code)) p (do
      let started ← UserService.startSession env v c.toChallenge.deviceInfo
      commit
      pure (.completed
        { userId := v.id.value
          sessionId := env.uuidStr started.1.sessionId
          refreshToken := started.2
          loginChallenge := c.toChallenge.loginChallenge })) := by
  rw [UserService.startSession]
  simp only [Prog.bind_assoc]
  refine keeps_buildSession fun ts ds ks s raw hs hrev hsid ht hnew => ?_
  obtain ⟨tok, htok, hmem⟩ := ht
  have howner : s.userId = u.id := by rw [hs, hv]
  refine keeps_persistSession hp hrev (by simp [hsid]) ⟨tok, htok, by simp [hmem]⟩
    ⟨u, u', c, hu, hchk, howner, hread, hid, hdrop⟩ ⟨u, hu, howner, hlive.1, ?_⟩ hnew
    (fun _ _ => ⟨trivial, hset⟩) ?_
  · obtain ⟨t, ht, hlock⟩ := hlive.2
    exact ⟨t, List.mem_append_right _ ht, hlock⟩
  refine keeps_commit hp.2.2 ⟨rfl, hcons⟩
    (announced_added (p := { p with instants := _, drawn := _, tokens := _ }) ha ⟨hp.1, hp.2.1⟩)
    (fun _ _ => ⟨trivial, hset⟩) ?_
  exact ⟨⟨rfl, s, rfl, rfl, congrArg UserID.value hs.symm⟩, hset⟩

/-- A code that consumed a recovery code keeps the account. -/
theorem verifyTwoFactor_id (u : User) (now : Instant) (code : String) :
    (u.verifyTwoFactor env now code).2.id = u.id := by
  obtain ⟨s, hs⟩ := u.verifyTwoFactor_eq env now code
  rw [hs]

/-- The end of `CompleteTwoFactorUseCase`, once the code is accepted. -/
theorem grantTwoFactor_keeps {token code : String} (raw : String) {p : Progress} {u : User}
    {c : StoredChallenge} {now : Instant}
    (hp : p.userWrite = none ∧ p.userInsert = none ∧ p.committed = false)
    (hs : p.added = none ∧ p.updated = []) (hu : u ∈ p.users)
    (hchk : p.checks = [(u, code, true, (u.verifyTwoFactor env now code).2)])
    (hv : (u.verifyTwoFactor env now code).1 = true) (hh : p.Holds token raw)
    (hraw : env.validateJson raw = some c) (hget : (ChallengeStore.key token, raw) ∈ p.gets)
    (hid : c.userId = u.id.value) (hlive : p.Usable u) (hreg : p.registered = []) :
    Keeps env (.completeTwoFactor token code) (Ends env (.completeTwoFactor token code)) p
      (grantTwoFactor env token code c.toChallenge u (u.verifyTwoFactor env now code).2) := by
  have hrest : ∀ (q : Progress) (v : User), q.checks = p.checks → q.users = p.users →
      q.instants = p.instants →
      q.added = none ∧ q.updated = [] ∧ q.committed = false → q.Holds token raw →
      (ChallengeStore.key token, raw) ∈ q.gets → v.id = u.id →
      ((u.verifyTwoFactor env now code).2 ≠ u →
        q.userWrite = some (u.verifyTwoFactor env now code).2) →
      q.registered = q.written →
      Keeps env (.completeTwoFactor token code) (Ends env (.completeTwoFactor token code)) q (do
        UsedCodes.remember env c.toChallenge.userId code
        ChallengeStore.discard token
        let started ← UserService.startSession env v c.toChallenge.deviceInfo
        commit
        pure (.completed
          { userId := v.id.value
            sessionId := env.uuidStr started.1.sessionId
            refreshToken := started.2
            loginChallenge := c.toChallenge.loginChallenge })) := by
    intro q v hqc hqu hqi hqs hqh hqg hvid hqw hqr
    rw [UsedCodes.remember, keeps_ask]
    have hkey : UsedCodes.key env c.toChallenge.userId code = UsedCodes.key env u.id.value code := by
      rw [← hid]
      rfl
    have hmem : (u, code, true, (u.verifyTwoFactor env now code).2) ∈ q.checks := by
      rw [hqc, hchk]
      exact List.mem_cons_self
    refine ⟨Or.inr ⟨u, _, hkey, rfl, rfl, hmem⟩, fun _ _ => keeps_discard raw ?_ ?_⟩
    · rw [Progress.Holds] at hqh
      simp only [Progress.Holds, Progress.note, Progress.release, List.mem_filter, hqh]
      simpa using challengeKey_ne_usedKey token c.toChallenge.userId code
    · refine openSession_keeps hqs (hqu ▸ hu) hmem hvid ⟨raw, hqg, hraw⟩ hid
        List.mem_cons_self (fun w code' w' hw hne => ?_) ⟨hlive.1, hqi ▸ hlive.2⟩ hqr
        ⟨fun w hw => ?_, fun raw' h => ?_⟩
      · have hw' : (w, code', true, w') ∈ q.checks := hw
        obtain ⟨rfl, -, rfl⟩ : w = u ∧ code' = code ∧ w' = (u.verifyTwoFactor env now code).2 := by
          simpa [hqc, hchk] using hw'
        exact hqw hne
      · have hw' : (w, code, true, w) ∈ q.checks := hw
        obtain ⟨rfl, -⟩ : w = u ∧ _ := by simpa [hqc, hchk] using hw'
        rw [← hkey]
        exact List.mem_cons_self
      · exact absurd h (not_holds_release rfl)
  rw [grantTwoFactor, persistConsumed]
  simp only [ite_bind, keeps_ite, Prog.bind_assoc, Prog.pure_bind]
  refine ⟨fun hne => ?_, fun hsame => ?_⟩
  · refine keeps_update hp
      ⟨u, hu, .completeConsumes now (Prod.ext hv rfl) hne, trivial, actor_none rfl⟩ ?_ ?_
    · refine fun e _ => ⟨trivial, fun w hw => ?_, fun raw' _ w code' w' hw => ?_⟩
      · obtain ⟨rfl, h⟩ : w = u ∧ w = (u.verifyTwoFactor env now code).2 := by
          simpa [hchk] using hw
        exact absurd h.symm hne
      · exact absurd hw (by simp [hchk])
    · refine keeps_register (hrest _ _ rfl rfl rfl ⟨hs.1, hs.2, hp.2.2⟩ hh hget ?_ (fun _ => rfl) ?_)
      · exact verifyTwoFactor_id u now code
      · simp [Progress.written, hreg, hp.2.1, hs.1, hs.2]
  · refine hrest p _ rfl rfl rfl ⟨hs.1, hs.2, hp.2.2⟩ hh hget (verifyTwoFactor_id u now code)
      (fun hne => absurd hne hsame) ?_
    simp [Progress.written, hreg, hp.1, hp.2.1, hs.1, hs.2]

/-- `CompleteTwoFactorUseCase`, once the account is found usable. -/
theorem checkTwoFactor_keeps {token code : String} (raw : String) {p : Progress} {u : User}
    {c : StoredChallenge}
    (hp : p.userWrite = none ∧ p.userInsert = none ∧ p.committed = false)
    (hs : p.added = none ∧ p.updated = []) (hu : u ∈ p.users) (hchk : p.checks = [])
    (hh : p.Holds token raw) (hraw : env.validateJson raw = some c)
    (hget : (ChallengeStore.key token, raw) ∈ p.gets) (hid : c.userId = u.id.value)
    (hlive : p.Usable u) (hreg : p.registered = []) :
    Keeps env (.completeTwoFactor token code) (Ends env (.completeTwoFactor token code)) p
      (checkTwoFactor env token code c.toChallenge u) := by
  have hkey : UsedCodes.key env c.toChallenge.userId code = UsedCodes.key env u.id.value code := by
    rw [← hid]
    rfl
  rw [checkTwoFactor, UsedCodes.wasUsed, Prog.bind_assoc, keeps_ask]
  refine ⟨Or.inr ⟨⟨_, rfl⟩, hchk⟩, fun x _ => ?_⟩
  cases x with
  | some v =>
      refine refuseTwoFactor_keeps raw ?_ hraw ?_
      · exact List.mem_cons_of_mem _ hh
      · intro w code' w' hw
        have hw' : (w, code', true, w') ∈ p.checks := hw
        exact absurd hw' (by simp [hchk])
  | none =>
      refine ⟨⟨hu, hp.2.2, rfl, hchk, ?_, raw, hh⟩, fun y hy => ?_⟩
      · rw [← hkey]
        exact List.mem_cons_self
      · obtain ⟨now, rfl⟩ := hy
        refine (keeps_ite _ _ _).mpr ⟨fun hv => ?_, fun hv => ?_⟩
        · refine refuseTwoFactor_keeps raw hh hraw fun w code' w' hw => ?_
          have hw' : (w, code', true, w') ∈ (u, code, u.verifyTwoFactor env now code) :: p.checks :=
            hw
          rw [hchk, List.mem_singleton, Prod.mk.injEq, Prod.mk.injEq] at hw'
          have : (u.verifyTwoFactor env now code).1 = true := by rw [← hw'.2.2]
          rw [this] at hv
          exact absurd hv (by simp)
        · have hv' : (u.verifyTwoFactor env now code).1 = true := by simpa using hv
          refine grantTwoFactor_keeps raw hp hs hu ?_ hv' hh hraw hget hid hlive hreg
          have : (u.verifyTwoFactor env now code) =
              (true, (u.verifyTwoFactor env now code).2) := Prod.ext hv' rfl
          rw [← this]
          exact congrArg _ hchk

/-- `read`: the challenge is held from then on. -/
theorem keeps_read {token code : String} {f : TwoFactorChallenge → Act Response}
    (h : ∀ raw c, env.validateJson raw = some c →
      Keeps env (.completeTwoFactor token code) (Ends env (.completeTwoFactor token code))
        { gets := [(ChallengeStore.key token, raw)], held := [(ChallengeStore.key token, raw)] }
        (f c.toChallenge)) :
    Keeps env (.completeTwoFactor token code) (Ends env (.completeTwoFactor token code)) {}
      (ChallengeStore.read env token >>= f) := by
  rw [ChallengeStore.read, Prog.bind_assoc, keeps_ask]
  refine ⟨Or.inl ⟨rfl, rfl⟩, fun x _ => ?_⟩
  cases x with
  | none => exact complete_ends_error rfl _
  | some raw =>
      simp only [Progress.note]
      split
      · exact h raw _ ‹_›
      · simp only [Prog.bind_assoc]
        exact keeps_discard raw List.mem_cons_self (complete_ends_error rfl _)

theorem completeTwoFactor_keeps (token code : String) :
    Keeps env (.completeTwoFactor token code) (Ends env (.completeTwoFactor token code)) {}
      (completeTwoFactor env token code) := by
  rw [completeTwoFactor]
  refine keeps_read fun raw c hraw => ?_
  rw [keeps_ofExcept]
  refine ⟨fun _ _ => complete_ends_error rfl _, fun id hid => ?_⟩
  have hdrop : ∀ p : Progress, p.held = [(ChallengeStore.key token, raw)] → p.checks = [] →
      Keeps env (.completeTwoFactor token code) (Ends env (.completeTwoFactor token code)) p
        (dropChallenge token) := by
    intro p hp hchk
    refine dropChallenge_keeps raw ?_ hchk
    rw [Progress.Holds, hp]
    exact List.mem_cons_self
  rw [UserRepo.acquireById]
  refine keeps_acquire ⟨rfl, rfl, rfl, rfl⟩ (fun _ => complete_ends_error rfl _)
    (hdrop _ rfl rfl) fun u hu _ => ?_
  have hcu : c.userId = u.id.value := by
    rw [hu id.value rfl]
    exact (UserID.make_ok hid).symm
  rw [keeps_ite]
  refine ⟨fun _ => hdrop _ rfl rfl, fun hdel => keeps_now fun t => ?_⟩
  rw [keeps_ite]
  refine ⟨fun _ => hdrop _ rfl rfl, fun hlock => ?_⟩
  exact checkTwoFactor_keeps raw ⟨rfl, rfl, rfl⟩ ⟨rfl, rfl⟩ (by simp) rfl
    List.mem_cons_self hraw (by simp) hcu
    ⟨by simpa using hdel, t, by simp, by simpa using hlock⟩ rfl

/-- **Every use case keeps the contract.** -/
theorem program_keeps (env : Env) (r : Request) : Keeps env r (Ends env r) {} (program env r) := by
  cases r with
  | createUser username pwd email ip => exact createUser_keeps username pwd email ip
  | login data => exact login_keeps data
  | completeTwoFactor token code => exact completeTwoFactor_keeps token code
  | refreshToken token => exact refreshToken_keeps token
  | enable2FA userId => exact enable2FA_keeps userId
  | confirm2FA userId code => exact confirm2FA_keeps userId code
  | disable2FA userId pwd => exact disable2FA_keeps userId pwd
  | verify2FA userId code => exact verify2FA_keeps userId code
  | revokeSession userId sessionId => exact revokeSession_keeps userId sessionId
  | revokeAllSessions userId => exact revokeAllSessions_keeps userId
  | changePassword userId old new => exact changePassword_keeps userId old new
  | requestPasswordReset email ip => exact requestPasswordReset_keeps email ip
  | resetPassword token new ip => exact resetPassword_keeps token new ip
  | deleteMe userId => exact deleteMe_keeps userId
  | verifyEmail token => exact verifyEmail_keeps token
  | updateProfile userId username email => exact updateProfile_keeps userId username email

end BackendTemplate
