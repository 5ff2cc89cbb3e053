import BackendTemplate.Effects

/-!
# What the Contract Says of a Request at Any Moment

`Allowed` constrains one call at a time. `Coherent env r p` is what follows for the
progress of a request as a whole: every user it has written was computed from one it
has loaded, every session it has written back comes from one it has loaded, every session
it has inserted was granted, and a committed request has written what its commit demands.
`Coherent.note` keeps it at every allowed call, so it holds of every request in every
reachable configuration (`Runs.coherent`).

`Runs` is the reachability relation of the service and `Runs.induction` its invariant rule;
every later invariant is proved through it.
-/

namespace BackendTemplate

open Atomic

variable {env : Env} {r : Request} {p q : Progress}

/-! ### Progress only grows -/

/-- What was read, drawn and checked under `p` still is under `q`. -/
structure Progress.Extends (p q : Progress) : Prop where
  users : p.users ⊆ q.users
  sessions : p.sessions ⊆ q.sessions
  drawn : p.drawn ⊆ q.drawn
  instants : p.instants ⊆ q.instants
  tokens : p.tokens ⊆ q.tokens
  checks : p.checks ⊆ q.checks
  gets : p.gets ⊆ q.gets
  dropped : p.dropped ⊆ q.dropped

/-- The two have written the same. -/
def Progress.SameWrites (p q : Progress) : Prop :=
  q.userWrite = p.userWrite ∧ q.userInsert = p.userInsert ∧ q.added = p.added ∧
    q.updated = p.updated ∧ q.committed = p.committed

theorem Progress.Extends.refl (p : Progress) : p.Extends p :=
  ⟨fun _ h => h, fun _ h => h, fun _ h => h, fun _ h => h, fun _ h => h, fun _ h => h,
    fun _ h => h, fun _ h => h⟩

/-- Every call extends the progress. -/
theorem note_extends (p : Progress) (o : Op) (x : o.Res) : p.Extends (p.note o x) := by
  cases o with
  | acquireUser q =>
      match x with
      | .error e => exact .refl p
      | .ok none => exact .refl p
      | .ok (some u) => exact { Progress.Extends.refl p with users := List.subset_cons_self _ _ }
  | acquireSession sid =>
      match x with
      | .error e => exact .refl p
      | .ok none => exact .refl p
      | .ok (some s) => exact { Progress.Extends.refl p with sessions := List.subset_cons_self _ _ }
  | acquireSessionByToken hash =>
      match x with
      | .error e => exact .refl p
      | .ok none => exact .refl p
      | .ok (some s) => exact { Progress.Extends.refl p with sessions := List.subset_cons_self _ _ }
  | acquireSessionsOf u =>
      match x with
      | .error e => exact .refl p
      | .ok ss =>
          exact { Progress.Extends.refl p with sessions := List.subset_append_right _ _ }
  | uuid4 => exact { Progress.Extends.refl p with drawn := List.subset_cons_self _ _ }
  | now => exact { Progress.Extends.refl p with instants := List.subset_cons_self _ _ }
  | tokenUrlsafe => exact { Progress.Extends.refl p with tokens := List.subset_cons_self _ _ }
  | tokenHexes n => exact { Progress.Extends.refl p with tokens := List.subset_append_right _ _ }
  | verifyTwoFactor u code =>
      exact { Progress.Extends.refl p with checks := List.subset_cons_self _ _ }
  | cacheGet k =>
      match x with
      | none => exact { Progress.Extends.refl p with }
      | some v => exact { Progress.Extends.refl p with gets := List.subset_cons_self _ _ }
  | cacheDelete k =>
      exact { Progress.Extends.refl p with dropped := List.subset_cons_self _ _ }
  | updateUser u => cases x <;> exact { Progress.Extends.refl p with }
  | addUser u => cases x <;> exact { Progress.Extends.refl p with }
  | addSession s => cases x <;> exact { Progress.Extends.refl p with }
  | updateSession s => cases x <;> exact { Progress.Extends.refl p with }
  | commit => cases x <;> exact { Progress.Extends.refl p with }
  | _ => exact { Progress.Extends.refl p with }

/-- A call that does not write leaves what was written alone. -/
theorem note_sameWrites (p : Progress) {o : Op} (ho : o.writes = false) (x : o.Res) :
    p.SameWrites (p.note o x) := by
  cases o with
  | acquireUser q =>
      match x with
      | .error e => exact ⟨rfl, rfl, rfl, rfl, rfl⟩
      | .ok none => exact ⟨rfl, rfl, rfl, rfl, rfl⟩
      | .ok (some u) => exact ⟨rfl, rfl, rfl, rfl, rfl⟩
  | acquireSession sid =>
      match x with
      | .error e => exact ⟨rfl, rfl, rfl, rfl, rfl⟩
      | .ok none => exact ⟨rfl, rfl, rfl, rfl, rfl⟩
      | .ok (some s) => exact ⟨rfl, rfl, rfl, rfl, rfl⟩
  | acquireSessionByToken hash =>
      match x with
      | .error e => exact ⟨rfl, rfl, rfl, rfl, rfl⟩
      | .ok none => exact ⟨rfl, rfl, rfl, rfl, rfl⟩
      | .ok (some s) => exact ⟨rfl, rfl, rfl, rfl, rfl⟩
  | acquireSessionsOf u => cases x <;> exact ⟨rfl, rfl, rfl, rfl, rfl⟩
  | cacheGet k => cases x <;> exact ⟨rfl, rfl, rfl, rfl, rfl⟩
  | updateUser u => exact absurd ho (by simp [Op.writes])
  | addUser u => exact absurd ho (by simp [Op.writes])
  | addSession s => exact absurd ho (by simp [Op.writes])
  | updateSession s => exact absurd ho (by simp [Op.writes])
  | commit => exact absurd ho (by simp [Op.writes])
  | _ => exact ⟨rfl, rfl, rfl, rfl, rfl⟩

/-- Only a commit commits. -/
theorem note_committed_eq (p : Progress) {o : Op} (ho : o ≠ .commit) (x : o.Res) :
    (p.note o x).committed = p.committed := by
  by_cases hw : o.writes = false
  · exact (note_sameWrites p hw x).2.2.2.2
  · cases o with
    | updateUser u => cases x <;> rfl
    | addUser u => cases x <;> rfl
    | addSession s => cases x <;> rfl
    | updateSession s => cases x <;> rfl
    | commit => exact absurd rfl ho
    | _ => exact absurd rfl hw

/-- A request that has committed has committed. -/
theorem note_committed (p : Progress) (o : Op) (x : o.Res) (h : p.committed = true) :
    (p.note o x).committed = true := by
  by_cases ho : o = .commit
  · subst ho
    cases x with
    | ok v => rfl
    | error e => exact h
  · rw [note_committed_eq p ho, h]

/-- A request that has not committed had not before. -/
theorem of_note_uncommitted {o : Op} {x : o.Res} (h : (p.note o x).committed = false) :
    p.committed = false := by
  by_contra hc
  have := note_committed p o x (by simpa using hc)
  exact absurd (h.symm.trans this) (by simp)

/-- A session that has been written back was, or is by this very call. -/
theorem mem_note_updated {o : Op} {x : o.Res} {s : SessionAggregate}
    (h : s ∈ (p.note o x).updated) : s ∈ p.updated ∨ o = .updateSession s := by
  by_cases ho : o.writes = false
  · exact Or.inl ((note_sameWrites p ho x).2.2.2.1 ▸ h)
  · cases o with
    | updateUser u => cases x <;> exact Or.inl h
    | addUser u => cases x <;> exact Or.inl h
    | addSession s' => cases x <;> exact Or.inl h
    | updateSession s' =>
        cases x with
        | error e => exact Or.inl h
        | ok v =>
            rcases List.mem_cons.mp h with rfl | h
            · exact Or.inr rfl
            · exact Or.inl h
    | commit =>
        cases x with
        | ok v => exact Or.inl h
        | error e => exact absurd h List.not_mem_nil
    | _ => exact absurd rfl ho

/-- A user that has been written back was, or is by this very call. -/
theorem note_userWrite {o : Op} {x : o.Res} {u : User}
    (h : (p.note o x).userWrite = some u) : p.userWrite = some u ∨ o = .updateUser u := by
  by_cases ho : o.writes = false
  · exact Or.inl ((note_sameWrites p ho x).1 ▸ h)
  · cases o with
    | updateUser u' =>
        cases x with
        | error e => exact Or.inl h
        | ok v => exact Or.inr (congrArg Op.updateUser (Option.some.inj h))
    | addUser u' => cases x <;> exact Or.inl h
    | addSession s => cases x <;> exact Or.inl h
    | updateSession s => cases x <;> exact Or.inl h
    | commit =>
        cases x with
        | ok v => exact Or.inl h
        | error e => exact absurd h (by simp [Progress.note, Progress.undo])
    | _ => exact absurd rfl ho

/-- A request that has committed had, or does by this very call. -/
theorem of_note_committed {o : Op} {x : o.Res} (h : (p.note o x).committed = true) :
    p.committed = true ∨ o = .commit := by
  by_cases ho : o = .commit
  · exact Or.inr ho
  · exact Or.inl (note_committed_eq p ho x ▸ h)

/-- Only a listing of sessions changes what was listed, and no write does. -/
theorem note_listed (p : Progress) {o : Op} (ho : ∀ u, o ≠ .acquireSessionsOf u) (x : o.Res) :
    (p.note o x).listed = p.listed := by
  cases o with
  | acquireUser q =>
      match x with
      | .error e => rfl
      | .ok none => rfl
      | .ok (some u) => rfl
  | acquireSession sid =>
      match x with
      | .error e => rfl
      | .ok none => rfl
      | .ok (some s) => rfl
  | acquireSessionByToken hash =>
      match x with
      | .error e => rfl
      | .ok none => rfl
      | .ok (some s) => rfl
  | acquireSessionsOf u => exact absurd rfl (ho u)
  | cacheGet k => cases x <;> rfl
  | updateUser u => cases x <;> rfl
  | addUser u => cases x <;> rfl
  | addSession s => cases x <;> rfl
  | updateSession s => cases x <;> rfl
  | commit => cases x <;> rfl
  | _ => rfl

/-- Only an evaluation adds a check. -/
theorem note_checks (p : Progress) {o : Op} (ho : ∀ u code, o ≠ .verifyTwoFactor u code)
    (x : o.Res) : (p.note o x).checks = p.checks := by
  cases o with
  | acquireUser q =>
      match x with
      | .error e => rfl
      | .ok none => rfl
      | .ok (some u) => rfl
  | acquireSession sid =>
      match x with
      | .error e => rfl
      | .ok none => rfl
      | .ok (some s) => rfl
  | acquireSessionByToken hash =>
      match x with
      | .error e => rfl
      | .ok none => rfl
      | .ok (some s) => rfl
  | verifyTwoFactor u code => exact absurd rfl (ho u code)
  | acquireSessionsOf u => cases x <;> rfl
  | cacheGet k => cases x <;> rfl
  | updateUser u => cases x <;> rfl
  | addUser u => cases x <;> rfl
  | addSession s => cases x <;> rfl
  | updateSession s => cases x <;> rfl
  | commit => cases x <;> rfl
  | _ => rfl

/-- Only a read of a user adds one. -/
theorem note_users (p : Progress) {o : Op} (ho : ∀ q, o ≠ .acquireUser q) (x : o.Res) :
    (p.note o x).users = p.users := by
  cases o with
  | acquireUser q => exact absurd rfl (ho q)
  | acquireSession sid =>
      match x with
      | .error e => rfl
      | .ok none => rfl
      | .ok (some s) => rfl
  | acquireSessionByToken hash =>
      match x with
      | .error e => rfl
      | .ok none => rfl
      | .ok (some s) => rfl
  | acquireSessionsOf u => cases x <;> rfl
  | cacheGet k => cases x <;> rfl
  | updateUser u => cases x <;> rfl
  | addUser u => cases x <;> rfl
  | addSession s => cases x <;> rfl
  | updateSession s => cases x <;> rfl
  | commit => cases x <;> rfl
  | _ => rfl

/-- **A request reads one user.** -/
theorem Allowed.oneRead {o : Op} (h : Allowed env r p o) (hp : p.users.length ≤ 1) (x : o.Res) :
    (p.note o x).users.length ≤ 1 := by
  by_cases ho : ∃ q, o = .acquireUser q
  · obtain ⟨q, rfl⟩ := ho
    match x with
    | .error e => exact hp
    | .ok none => exact hp
    | .ok (some u) =>
        change (u :: p.users).length ≤ 1
        rw [h.2.2.2]
        exact le_rfl
  · rw [note_users p (fun q hq => ho ⟨q, hq⟩) x]
    exact hp

/-- **After its commit a request writes nothing.** -/
theorem Allowed.no_write {o : Op} (h : Allowed env r p o) (hc : p.committed = true) :
    o.writes = false := by
  cases o with
  | updateUser u => exact absurd (h.2.2.1.symm.trans hc) (by simp)
  | addUser u => exact absurd (h.2.2.1.symm.trans hc) (by simp)
  | addSession s => exact absurd (h.2.2.1.symm.trans hc) (by simp)
  | updateSession s => exact absurd (h.2.1.symm.trans hc) (by simp)
  | commit => exact absurd (h.1.symm.trans hc) (by simp)
  | _ => rfl

theorem Exchanges.mono {t : String} {s₀ s : SessionAggregate} (h : Exchanges env t p s₀ s)
    (hpq : p.Extends q) : Exchanges env t q s₀ s := by
  obtain ⟨presented, new, now, hs, hrest⟩ := h
  obtain ⟨h₁, h₂, h₃, h₄, h₅, h₆⟩ := hrest
  exact ⟨presented, new, now, hpq.sessions hs, h₁, h₂, h₃, h₄, hpq.drawn h₅, h₆⟩

theorem Granted.mono {s : SessionAggregate} (h : Granted env r p s) (hpq : p.Extends q)
    (hw : q.userWrite = p.userWrite) : Granted env r q s := by
  cases r with
  | login data =>
      obtain ⟨u, hu, ⟨u₀, pwd, hu₀, hpwd⟩, hrest⟩ := h
      exact ⟨u, hw.trans hu, ⟨u₀, pwd, hpq.users hu₀, hpwd⟩, hrest⟩
  | completeTwoFactor token code =>
      obtain ⟨u, u', c, hu, hchk, hs, ⟨raw, hget, hraw⟩, hid, hdrop⟩ := h
      exact ⟨u, u', c, hpq.users hu, hpq.checks hchk, hs, ⟨raw, hpq.gets hget, hraw⟩, hid,
        hpq.dropped hdrop⟩
  | _ => exact h

theorem Sourced.mono {u₀ u : User} (h : Sourced env r p u₀ u) (hpq : p.Extends q) :
    Sourced env r q u₀ u := by
  cases r with
  | requestPasswordReset email ip =>
      obtain ⟨token, htoken, now, hnow, hu⟩ := h
      exact ⟨token, hpq.tokens htoken, now, hpq.instants hnow, hu⟩
  | resetPassword token new ip =>
      obtain ⟨now, hnow, hu⟩ := h
      exact ⟨now, hpq.instants hnow, hu⟩
  | verifyEmail token =>
      obtain ⟨now, hnow, hu⟩ := h
      exact ⟨now, hpq.instants hnow, hu⟩
  | updateProfile userId username email =>
      obtain ⟨u₁, h₁, h₂⟩ := h
      refine ⟨u₁, h₁, h₂.imp_right ?_⟩
      rintro ⟨now, hnow, token, htoken, hu⟩
      exact ⟨now, hpq.instants hnow, token, hpq.tokens htoken, hu⟩
  | _ => trivial

theorem Derives.mono {u₀ u : User} (h : Derives env r p u₀ u) (hpq : p.Extends q) :
    Derives env r q u₀ u :=
  ⟨h.computes, h.sourced.mono hpq, h.actor⟩

theorem Registers.mono {u : User} (h : Registers env r p u) (hpq : p.Extends q) :
    Registers env r q u := by
  obtain ⟨hr, now, hnow, d, hd, userId, username, email, hashed, hid, hu⟩ := h
  exact ⟨hr, now, hpq.instants hnow, d, hpq.drawn hd, userId, username, email, hashed,
    hpq.drawn hid, hu⟩

theorem Progress.FoundLive.mono {s : SessionAggregate} (h : p.FoundLive s) (hpq : p.Extends q) :
    q.FoundLive s := by
  obtain ⟨u, hu, hs, hdel, t, ht, hlock⟩ := h
  exact ⟨u, hpq.users hu, hs, hdel, t, hpq.instants ht, hlock⟩

/-! ### Coherence -/

/-- Where a session that was written back comes from. -/
def Rewrites (env : Env) (r : Request) (p : Progress) (s : SessionAggregate) : Prop :=
  (∃ s₀ ∈ p.sessions, s = s₀.revoke) ∨
    ∃ t s₀, r = .refreshToken t ∧ Exchanges env t p s₀ s

/-- **What the contract says of a request at any moment.** -/
structure Coherent (env : Env) (r : Request) (p : Progress) : Prop where
  oneRead : p.users.length ≤ 1
  updated : ∀ s ∈ p.updated, Rewrites env r p s
  userWrite : ∀ u, p.userWrite = some u → ∃ u₀ ∈ p.users, Derives env r p u₀ u
  userInsert : ∀ u, p.userInsert = some u → Registers env r p u
  added : ∀ s, p.added = some s → s.isRevoked = false ∧ s.sessionId ∈ p.drawn ∧
    (∃ t, s.refreshTokens = [t] ∧ t.id ∈ p.drawn) ∧ Granted env r p s
  foundLive : ∀ s, p.added = some s → p.FoundLive s
  unspent : ∀ s, p.added = some s → ∀ t ∈ s.refreshTokens, t.isRevoked = false
  owned : ∀ s ∈ p.updated, ∀ x, r.actor = some x → s.userId.value = x
  inTurn : p.updated.length ≤ 1 ∨ ∃ u done rest, p.listed = some (u, done ++ rest) ∧
    p.updated = (done.map SessionAggregate.revoke).reverse
  oneUser : p.userWrite = none ∨ p.userInsert = none
  oneSession : p.added = none ∨ p.updated = []
  committed : p.committed = true → Completed env r p

theorem Rewrites.mono {s : SessionAggregate} (h : Rewrites env r p s) (hpq : p.Extends q) :
    Rewrites env r q s := by
  rcases h with ⟨s₀, hs, rfl⟩ | ⟨t, s₀, hr, hx⟩
  · exact Or.inl ⟨s₀, hpq.sessions hs, rfl⟩
  · exact Or.inr ⟨t, s₀, hr, hx.mono hpq⟩

/-- A session that was written back is revoked with all its tokens, or is the outcome of an
exchange and unrevoked. -/
theorem Rewrites.cases {s : SessionAggregate} (h : Rewrites env r p s) :
    (s.isRevoked = true ∧ ∀ t ∈ s.refreshTokens, t.isRevoked = true) ∨
      s.isRevoked = false ∧ ∃ t s₀, r = .refreshToken t ∧ Exchanges env t p s₀ s := by
  rcases h with ⟨s₀, -, rfl⟩ | ⟨t, s₀, hr, hx⟩
  · refine Or.inl ⟨rfl, fun t ht => ?_⟩
    obtain ⟨t₀, -, rfl⟩ := List.mem_map.mp ht
    rfl
  · refine Or.inr ⟨?_, t, s₀, hr, hx⟩
    obtain ⟨presented, new, now, -, hrev, -, -, -, -, rfl⟩ := hx
    exact hrev

/-- The id of an account that was registered was drawn for it. -/
theorem Coherent.inserted_id (h : Coherent env r p) {u : User} (hu : p.userInsert = some u) :
    u.id.value ∈ p.drawn := by
  obtain ⟨-, now, -, d, -, userId, username, email, hashed, hid, rfl⟩ := h.userInsert u hu
  exact hid

/-- What a user was computed from stays known. -/
theorem Coherent.wrote (h : Coherent env r p) (hpq : p.Extends q) {u : User}
    (hu : p.userWrite = some u) : ∃ u₀ ∈ q.users, Derives env r q u₀ u := by
  obtain ⟨u₀, hu₀, hd⟩ := h.userWrite u hu
  exact ⟨u₀, hpq.users hu₀, hd.mono hpq⟩

theorem coherent_start (env : Env) (r : Request) : Coherent env r {} where
  oneRead := Nat.zero_le 1
  updated _ h := absurd h List.not_mem_nil
  userWrite _ h := absurd h (by simp)
  userInsert _ h := absurd h (by simp)
  added _ h := absurd h (by simp)
  foundLive _ h := absurd h (by simp)
  unspent _ h := absurd h (by simp)
  owned _ h := absurd h List.not_mem_nil
  inTurn := Or.inl (Nat.zero_le 1)
  oneUser := Or.inl rfl
  oneSession := Or.inl rfl
  committed h := absurd h (by simp)

theorem Completed.mono (h : Completed env r p) (hpq : p.Extends q)
    (hu : q.userWrite = p.userWrite) (ha : q.added = p.added) (hup : q.updated = p.updated)
    (hl : q.listed = p.listed) (hch : q.checks = p.checks) : Completed env r q := by
  have hcons : p.Consumed → q.Consumed := by
    intro hc u code u' hmem hne
    rw [hch] at hmem
    exact hu.trans (hc u code u' hmem hne)
  cases r with
  | completeTwoFactor token code => exact ⟨(congrArg Option.isSome ha).trans h.1, hcons h.2⟩
  | verify2FA userId code => exact hcons h
  | refreshToken t =>
      obtain ⟨s₀, s, hx, hs⟩ := h
      exact ⟨s₀, s, hx.mono hpq, hup.trans hs⟩
  | revokeAllSessions userId =>
      obtain ⟨ss, h₁, h₂⟩ := h
      exact ⟨ss, hl.trans h₁, hup.trans h₂⟩
  | changePassword userId old new =>
      obtain ⟨u, ss, h₁, h₂, h₃⟩ := h
      exact ⟨u, ss, hu.trans h₁, hl.trans h₂, hup.trans h₃⟩
  | resetPassword token new ip =>
      obtain ⟨u, ss, h₁, h₂, h₃⟩ := h
      exact ⟨u, ss, hu.trans h₁, hl.trans h₂, hup.trans h₃⟩
  | _ => exact h

/-- A progress that has written the same, and seen more, is as coherent. -/
theorem Coherent.extend (h : Coherent env r p) (hpq : p.Extends q) (hw : p.SameWrites q)
    (hl : (q.listed = p.listed ∧ q.checks = p.checks) ∨ p.committed = false)
    (hlist : q.listed = p.listed ∨ p.updated = []) (hread : q.users.length ≤ 1) :
    Coherent env r q := by
  obtain ⟨hu, hi, ha, hup, hc⟩ := hw
  refine ⟨hread, ?_, ?_, ?_, ?_, ?_, ?_, ?_, ?_, ?_, ?_, ?_⟩
  · intro s hs
    rw [hup] at hs
    exact (h.updated s hs).mono hpq
  · intro u hu'
    rw [hu] at hu'
    exact h.wrote hpq hu'
  · intro u hu'
    rw [hi] at hu'
    exact (h.userInsert u hu').mono hpq
  · intro s hs
    rw [ha] at hs
    obtain ⟨h₁, h₂, ⟨t, ht, htd⟩, hg⟩ := h.added s hs
    exact ⟨h₁, hpq.drawn h₂, ⟨t, ht, hpq.drawn htd⟩, hg.mono hpq hu⟩
  · intro s hs
    rw [ha] at hs
    exact (h.foundLive s hs).mono hpq
  · rw [ha]
    exact h.unspent
  · rw [hup]
    exact h.owned
  · rw [hup]
    rcases hlist with hsame | hnil
    · rw [hsame]
      exact h.inTurn
    · rw [hnil]
      exact Or.inl (Nat.zero_le 1)
  · rw [hu, hi]
    exact h.oneUser
  · rw [ha, hup]
    exact h.oneSession
  · intro hq
    rw [hc] at hq
    rcases hl with hl | hl
    · exact (h.committed hq).mono hpq hu ha hup hl.1 hl.2
    · rw [hl] at hq
      exact absurd hq (by simp)

/-- A user written back after a grant changes nothing: a login writes before it is granted
a session, and a completion is granted one by its code. -/
theorem Granted.updateUser {s : SessionAggregate} (h : Granted env r p s)
    (hw : p.userWrite = none) (u : User) : Granted env r { p with userWrite := some u } s := by
  cases r with
  | login data =>
      obtain ⟨u', hu', -⟩ := h
      rw [hw] at hu'
      exact absurd hu' (by simp)
  | completeTwoFactor token code => exact h
  | _ => exact h

/-- **An allowed call keeps a request coherent.** -/
theorem Coherent.note (h : Coherent env r p) {o : Op} (ho : Allowed env r p o) (x : o.Res) :
    Coherent env r (p.note o x) := by
  have hext := note_extends p o x
  have hread := ho.oneRead h.oneRead x
  cases o with
  | updateUser u =>
      obtain ⟨hw, hi, hc, hu⟩ := ho
      cases x with
      | error e => exact h
      | ok v =>
          refine { h with
            userWrite := ?_
            userInsert := fun u' hu' => (h.userInsert u' hu').mono hext
            added := ?_
            oneUser := Or.inr hi
            committed := ?_ }
          · intro u' hu'
            obtain rfl := Option.some.inj hu'
            obtain ⟨u₀, hu₀, hd⟩ := hu
            exact ⟨u₀, hu₀, hd.mono hext⟩
          · intro s hs
            obtain ⟨h₁, h₂, h₃, hg⟩ := h.added s hs
            exact ⟨h₁, h₂, h₃, hg.updateUser hw u⟩
          · intro hq
            exact absurd (hc.symm.trans hq) (by simp)
  | addUser u =>
      obtain ⟨hw, -, hc, hu⟩ := ho
      cases x with
      | error e => exact h
      | ok v =>
          refine { h with
            userWrite := fun u' hu' => absurd (hw.symm.trans hu') (by simp)
            userInsert := ?_
            added := ?_
            oneUser := Or.inl hw
            committed := ?_ }
          · intro u' hu'
            obtain rfl := Option.some.inj hu'
            exact hu.mono hext
          · intro s hs
            obtain ⟨h₁, h₂, h₃, hg⟩ := h.added s hs
            exact ⟨h₁, h₂, h₃, hg.mono hext rfl⟩
          · intro hq
            exact absurd (hc.symm.trans hq) (by simp)
  | addSession s =>
      obtain ⟨-, hup, hc, hrev, hsid, ht, hg, hlive, hnew⟩ := ho
      cases x with
      | error e => exact h
      | ok v =>
          refine { h with
            userWrite := fun u hu => h.wrote hext hu
            userInsert := fun u hu => (h.userInsert u hu).mono hext
            updated := ?_
            added := ?_
            foundLive := ?_
            unspent := ?_
            oneSession := Or.inr hup
            committed := ?_ }
          · intro s' hs'
            exact (h.updated s' hs').mono hext
          · intro s' hs'
            obtain rfl := Option.some.inj hs'
            exact ⟨hrev, hsid, ht, hg.mono hext rfl⟩
          · intro s' hs'
            obtain rfl := Option.some.inj hs'
            exact hlive.mono hext
          · intro s' hs'
            obtain rfl := Option.some.inj hs'
            exact hnew
          · intro hq
            exact absurd (hc.symm.trans hq) (by simp)
  | updateSession s =>
      obtain ⟨hadd, hc, hs, hactor, hturn⟩ := ho
      cases x with
      | error e => exact h
      | ok v =>
          refine { h with
            userWrite := fun u hu => h.wrote hext hu
            userInsert := fun u hu => (h.userInsert u hu).mono hext
            updated := ?_
            added := ?_
            owned := ?_
            inTurn := ?_
            oneSession := Or.inl hadd
            committed := ?_ }
          · intro s' hs'
            refine Rewrites.mono (p := p) ?_ hext
            rcases List.mem_cons.mp hs' with rfl | hs'
            · rcases hs with hs | ⟨t, s₀, hr, hx, -⟩
              · exact Or.inl hs
              · exact Or.inr ⟨t, s₀, hr, hx⟩
            · exact h.updated s' hs'
          · intro s' hs'
            exact absurd (hadd.symm.trans hs') (by simp)
          · intro s' hs'
            rcases List.mem_cons.mp hs' with rfl | hs'
            · exact hactor
            · exact h.owned s' hs'
          · rcases hturn with hnil | ⟨u, done, s₀, rest, hlist, hup, rfl⟩
            · exact Or.inl (by simp [Progress.note, hnil])
            · refine Or.inr ⟨u, done ++ [s₀], rest, ?_, ?_⟩
              · simpa [Progress.note] using hlist
              · simp [Progress.note, hup]
          · intro hq
            exact absurd (hc.symm.trans hq) (by simp)
  | commit =>
      cases x with
      | ok v =>
          refine { h with
            userWrite := fun u hu => h.wrote hext hu
            userInsert := fun u hu => (h.userInsert u hu).mono hext
            updated := ?_
            added := ?_
            committed := fun _ => ?_ }
          · intro s hs
            exact (h.updated s hs).mono hext
          · intro s hs
            obtain ⟨h₁, h₂, h₃, hg⟩ := h.added s hs
            exact ⟨h₁, h₂, h₃, hg.mono hext rfl⟩
          · exact ho.2.1.mono hext rfl rfl rfl rfl rfl
      | error e =>
          refine ⟨hread, ?_, ?_, ?_, ?_, ?_, ?_, ?_, Or.inl (Nat.zero_le 1), Or.inl rfl,
            Or.inl rfl, ?_⟩
          · exact fun s hs => absurd hs List.not_mem_nil
          · exact fun u hu => absurd hu (by simp [Progress.note, Progress.undo])
          · exact fun u hu => absurd hu (by simp [Progress.note, Progress.undo])
          · exact fun s hs => absurd hs (by simp [Progress.note, Progress.undo])
          · exact fun s hs => absurd hs (by simp [Progress.note, Progress.undo])
          · exact fun s hs => absurd hs (by simp [Progress.note, Progress.undo])
          · exact fun s hs => absurd hs List.not_mem_nil
          · exact fun hq => absurd (ho.1.symm.trans hq) (by simp)
  | acquireSessionsOf u =>
      exact h.extend hext (note_sameWrites p rfl x) (Or.inr ho.2.2) (Or.inr ho.2.1) hread
  | verifyTwoFactor u code =>
      exact h.extend hext (note_sameWrites p rfl x) (Or.inr ho.2.1)
        (Or.inl (note_listed p (by simp) x)) hread
  | _ =>
      exact h.extend hext (note_sameWrites p rfl x)
        (Or.inl ⟨note_listed p (by simp) x, note_checks p (by simp) x⟩)
        (Or.inl (note_listed p (by simp) x)) hread

/-! ### Runs of the service -/

section Runs

variable {ι : Type}

/-- A configuration of the service. -/
abbrev Cfg (ι : Type) := Config calls ι (World ι) AppError Response

/-- A condition on the steps of a run of the service. -/
abbrev Steps (ι : Type) := Cfg ι → Label ι Choice ℕ → Prop

/-- The session a call writes back. -/
def Op.updates : Op → Option SessionAggregate
  | .updateSession s => some s
  | _ => none

/-- A condition on the session the next call of a request writes back. -/
theorem forall_updates {c : Cfg ι} {i : ι} {Q : SessionAggregate → Prop} :
    (∀ s ∈ (c.next i).bind Op.updates, Q s) ↔
      ∀ s k, c.threads i = .running (.call (.updateSession s) k) → Q s := by
  constructor
  · intro h s k ht
    exact h s (by rw [Config.next_eq_some.mpr ⟨k, ht⟩]; rfl)
  · intro h s hs
    obtain ⟨o, ho, hos⟩ := Option.bind_eq_some_iff.mp hs
    obtain ⟨k, ht⟩ := Config.next_eq_some.mp ho
    cases o with
    | updateSession s' =>
        obtain rfl := Option.some.inj hos
        exact h s' k ht
    | _ => cases hos

/-- What request `i` has done in configuration `c`. -/
def did (c : Cfg ι) (i : ι) : Progress := progress (c.hist i)

/-- The requests `reqs`, about to start in world `w`. -/
def start (env : Env) (reqs : ι → Request) (w : World ι) : Cfg ι :=
  Config.start w fun i => program env (reqs i)

@[simp] theorem start_shared (env : Env) (reqs : ι → Request) (w : World ι) :
    (start env reqs w).shared = w := rfl

@[simp] theorem start_did (env : Env) (reqs : ι → Request) (w : World ι) (i : ι) :
    did (start env reqs w) i = {} := rfl

/-- The configuration after the clock has advanced. -/
def tick (c : Cfg ι) (d : ℕ) : Cfg ι :=
  { c with shared := { c.shared with clock := c.shared.clock + d } }

@[simp] theorem tick_did (c : Cfg ι) (d : ℕ) (i : ι) : did (tick c d) i = did c i := rfl

@[simp] theorem tick_threads (c : Cfg ι) (d : ℕ) : (tick c d).threads = c.threads := rfl

variable [DecidableEq ι]

/-- The configuration after a request has left. -/
def left (c : Cfg ι) (i : ι) (x : Except AppError Response) : Cfg ι where
  shared := c.shared.rollback i
  threads := Function.update c.threads i (.done x)
  hist := c.hist

@[simp] theorem left_shared (c : Cfg ι) (i : ι) (x : Except AppError Response) :
    (left c i x).shared = c.shared.rollback i := rfl

@[simp] theorem left_did (c : Cfg ι) (i j : ι) (x : Except AppError Response) :
    did (left c i x) j = did c j := rfl

@[simp] theorem afterCall_shared (c : Cfg ι) (i : ι) (o : Op) (x : o.Res) (p : Act Response)
    (w : World ι) : (Machine.afterCall c i o x p w).shared = w := rfl

@[simp] theorem did_afterCall_self (c : Cfg ι) (i : ι) (o : Op) (x : o.Res) (p : Act Response)
    (w : World ι) : did (Machine.afterCall c i o x p w) i = (did c i).note o x := by
  have : (Machine.afterCall c i o x p w).hist i = ⟨o, x⟩ :: c.hist i :=
    Function.update_self _ _ _
  rw [did, this]
  rfl

theorem did_afterCall_ne {i j : ι} (h : j ≠ i) (c : Cfg ι) (o : Op) (x : o.Res)
    (p : Act Response) (w : World ι) : did (Machine.afterCall c i o x p w) j = did c j := by
  simp [did, Machine.afterCall, h]

/-- A call of one request moves no other request. -/
theorem threads_afterCall_ne {i j : ι} (h : j ≠ i) (c : Cfg ι) (o : Op) (x : o.Res)
    (p : Act Response) (w : World ι) :
    (Machine.afterCall c i o x p w).threads j = c.threads j := by
  simp [Machine.afterCall, h]

/-- The requests that still run after one has left were running before. -/
theorem threads_left {i j : ι} {c : Cfg ι} {x : Except AppError Response} {a : Act Response}
    (h : (left c i x).threads j = .running a) : c.threads j = .running a := by
  by_cases hj : j = i
  · subst hj
    exact absurd h (by simp [left])
  · simpa [left, hj] using h

variable [Fintype ι]

/-- Configuration `c` is reached from the start of `reqs` in `w` by steps that satisfy `C`. -/
def Runs (env : Env) (reqs : ι → Request) (C : Steps ι) (w : World ι) (c : Cfg ι) : Prop :=
  (machine env ι).Reach C (start env reqs w) c

/-- Configuration `c'` is reached from `c` by steps that satisfy `C`. -/
def Later (env : Env) (C : Steps ι) (c c' : Cfg ι) : Prop := (machine env ι).Reach C c c'

theorem Runs.later {reqs : ι → Request} {C : Steps ι} {w : World ι} {c c' : Cfg ι}
    (h : Runs env reqs C w c) (h' : Later env C c c') : Runs env reqs C w c' :=
  Machine.Reach.trans h h'

/-- **The invariant rule from a reached configuration on**, for steps that satisfy a condition
on top of the one the run before it met. -/
theorem Later.induction_within {reqs : ι → Request} {C C₀ : Steps ι} {w : World ι}
    {c c' : Cfg ι} (hC : ∀ c l, C c l → C₀ c l) (h' : Later env C c c')
    (h : Runs env reqs C₀ w c) (J : Cfg ι → Prop) (hc : J c)
    (hcall : ∀ c i ch o k x w', Runs env reqs C₀ w c → J c → C c (.act i ch) →
      c.threads i = .running (.call o k) → Allowed env (reqs i) (did c i) o →
      exec env ch i o c.shared = some (x, w') → J (Machine.afterCall c i o x (k x) w'))
    (hexit : ∀ c i ch x, Runs env reqs C₀ w c → J c → C c (.act i ch) →
      c.threads i = .running (Prog.ofExcept x) → Ends env (reqs i) (did c i) x →
      J (left c i x))
    (htick : ∀ c d, Runs env reqs C₀ w c → J c → C c (.env d) → J (tick c d)) : J c' :=
  Machine.Reach.induction (machine_answers env)
    (Machine.Reach.obeys (machine_answers env) (start_obeys env reqs w) h) J hc
    (fun c i ch o k x w' hr => hcall c i ch o k x w' (h.later (hr.mono hC)))
    (fun c i ch x hr => hexit c i ch x (h.later (hr.mono hC)))
    (fun c d hr => htick c d (h.later (hr.mono hC))) h'

/-- **The invariant rule from some configuration on**: what holds in a reachable
configuration, and is kept by allowed calls, by exits inside the contract and by the clock,
holds in every later one. -/
theorem Later.induction {reqs : ι → Request} {C : Steps ι} {w : World ι} {c c' : Cfg ι}
    (h' : Later env C c c') (h : Runs env reqs C w c) (J : Cfg ι → Prop) (hc : J c)
    (hcall : ∀ c i ch o k x w', Runs env reqs C w c → J c → C c (.act i ch) →
      c.threads i = .running (.call o k) → Allowed env (reqs i) (did c i) o →
      exec env ch i o c.shared = some (x, w') → J (Machine.afterCall c i o x (k x) w'))
    (hexit : ∀ c i ch x, Runs env reqs C w c → J c → C c (.act i ch) →
      c.threads i = .running (Prog.ofExcept x) → Ends env (reqs i) (did c i) x →
      J (left c i x))
    (htick : ∀ c d, Runs env reqs C w c → J c → C c (.env d) → J (tick c d)) : J c' :=
  Later.induction_within (fun _ _ hl => hl) h' h J hc hcall hexit htick

/-- **The invariant rule of the service**: an invariant that holds at the start and is
kept by allowed calls, by exits inside the contract and by the clock holds in every
reachable configuration. -/
theorem Runs.induction {reqs : ι → Request} {C : Steps ι} {w : World ι} {c : Cfg ι}
    (h : Runs env reqs C w c) (J : Cfg ι → Prop) (hstart : J (start env reqs w))
    (hcall : ∀ c i ch o k x w', Runs env reqs C w c → J c → C c (.act i ch) →
      c.threads i = .running (.call o k) → Allowed env (reqs i) (did c i) o →
      exec env ch i o c.shared = some (x, w') → J (Machine.afterCall c i o x (k x) w'))
    (hexit : ∀ c i ch x, Runs env reqs C w c → J c → C c (.act i ch) →
      c.threads i = .running (Prog.ofExcept x) → Ends env (reqs i) (did c i) x →
      J (left c i x))
    (htick : ∀ c d, Runs env reqs C w c → J c → C c (.env d) → J (tick c d)) : J c :=
  Later.induction h (.refl : Runs env reqs C w _) J hstart hcall hexit htick

/-- A request that has left satisfied its postcondition. -/
theorem Runs.ends {reqs : ι → Request} {C : Steps ι} {w : World ι} {c : Cfg ι}
    (h : Runs env reqs C w c) {i : ι} {x : Except AppError Response}
    (hx : c.threads i = .done x) : Ends env (reqs i) (did c i) x :=
  (Machine.Reach.obeys (machine_answers env) (start_obeys env reqs w) h).done hx

/-- The next call of a request is an allowed one. -/
theorem Runs.allowed {reqs : ι → Request} {C : Steps ι} {w : World ι} {c : Cfg ι}
    (h : Runs env reqs C w c) {i : ι} {o : Op} {k : o.Res → Act Response}
    (ht : c.threads i = .running (.call o k)) : Allowed env (reqs i) (did c i) o :=
  ((Machine.Reach.obeys (machine_answers env) (start_obeys env reqs w) h).running ht).1

/-- **The step with which a request commits.** -/
theorem step_committed {c c' : Cfg ι} {i : ι} {ch : Choice}
    (hs : (machine env ι).step c (.act i ch) = some c') (hunc : (did c i).committed = false)
    (hc : (did c' i).committed = true) :
    ∃ k, c.threads i = .running (.call .commit k) ∧
      c' = Machine.afterCall c i .commit (.ok ()) (k (.ok ())) (c.shared.commit env i) := by
  rcases Machine.step_cases hs with ⟨j, ch', o, k, x, w', hl, ht, he, rfl⟩ |
    ⟨j, ch', x, hl, ht, rfl⟩ | ⟨d, hl, -⟩
  · obtain ⟨rfl, rfl⟩ := Label.act.inj hl
    rw [did_afterCall_self] at hc
    rcases of_note_committed hc with hold | rfl
    · exact absurd (hunc.symm.trans hold) (by simp)
    · rcases exec_commit he with ⟨rfl, rfl⟩ | ⟨rfl, rfl⟩
      · exact absurd (hunc.symm.trans hc) (by simp)
      · exact ⟨k, ht, rfl⟩
  · exact absurd (hunc.symm.trans hc) (by simp)
  · cases hl

/-! ### What a step keeps of a request -/

section Steps

variable {reqs : ι → Request} {C : Steps ι} {w w' : World ι} {c c' d : Cfg ι} {i j : ι} {o : Op}
  {y : o.Res} {a : Act Response}

omit [Fintype ι] in
theorem committed_afterCall (h : (did d j).committed = true) :
    (did (Machine.afterCall d i o y a w') j).committed = true := by
  by_cases hji : j = i
  · subst hji
    rw [did_afterCall_self]
    exact note_committed _ o y h
  · rwa [did_afterCall_ne hji]

omit [Fintype ι] in
theorem sameWrites_afterCall (hal : Allowed env (reqs i) (did d i) o)
    (h : (did d j).committed = true) :
    (did d j).SameWrites (did (Machine.afterCall d i o y a w') j) := by
  by_cases hji : j = i
  · subst hji
    rw [did_afterCall_self]
    exact note_sameWrites _ (hal.no_write h) y
  · rw [did_afterCall_ne hji]
    exact ⟨rfl, rfl, rfl, rfl, rfl⟩

omit [Fintype ι] in
theorem extends_afterCall : (did d j).Extends (did (Machine.afterCall d i o y a w') j) := by
  by_cases hji : j = i
  · subst hji
    rw [did_afterCall_self]
    exact note_extends _ o y
  · rw [did_afterCall_ne hji]
    exact .refl _

/-- **A step keeps what a request has seen, and what a committed request has written.** -/
theorem Runs.step_keeps (h : Runs env reqs C w c) {l : Label ι Choice ℕ}
    (hs : (machine env ι).step c l = some c') (j : ι) :
    (did c j).Extends (did c' j) ∧ ((did c j).committed = true →
      (did c' j).committed = true ∧ (did c j).SameWrites (did c' j)) := by
  rcases Machine.step_cases hs with ⟨i, ch, o, k, x, w', rfl, ht, he, rfl⟩ |
    ⟨i, ch, x, rfl, ht, rfl⟩ | ⟨d, rfl, rfl⟩
  · exact ⟨extends_afterCall, fun hc =>
      ⟨committed_afterCall hc, sameWrites_afterCall (h.allowed ht) hc⟩⟩
  · exact ⟨.refl _, fun hc => ⟨hc, rfl, rfl, rfl, rfl, rfl⟩⟩
  · exact ⟨.refl _, fun hc => ⟨hc, rfl, rfl, rfl, rfl, rfl⟩⟩

end Steps

/-- **Only a commit changes the tables.** -/
theorem Runs.step_db {reqs : ι → Request} {C : Steps ι} {w : World ι} {c c' : Cfg ι}
    (h : Runs env reqs C w c) {l : Label ι Choice ℕ}
    (hs : (machine env ι).step c l = some c') :
    c'.shared.db = c.shared.db ∨ ∃ i ch k, l = .act i ch ∧
      c.threads i = .running (.call .commit k) ∧ Allowed env (reqs i) (did c i) .commit ∧
      c' = Machine.afterCall c i .commit (.ok ()) (k (.ok ())) (c.shared.commit env i) := by
  rcases Machine.step_cases hs with ⟨i, ch, o, k, x, w', rfl, ht, he, rfl⟩ |
    ⟨i, ch, x, rfl, ht, rfl⟩ | ⟨d, rfl, rfl⟩
  · by_cases ho : o = .commit
    · subst ho
      rcases exec_commit he with ⟨rfl, rfl⟩ | ⟨rfl, rfl⟩
      · exact Or.inl rfl
      · exact Or.inr ⟨i, ch, k, rfl, ht, h.allowed ht, rfl⟩
    · exact Or.inl (exec_db ho he).1
  · exact Or.inl rfl
  · exact Or.inl rfl

/-- **Every request is coherent in every reachable configuration.** -/
theorem Runs.coherent {reqs : ι → Request} {C : Steps ι} {w : World ι} {c : Cfg ι}
    (h : Runs env reqs C w c) (i : ι) : Coherent env (reqs i) (did c i) := by
  revert i
  refine h.induction (fun c => ∀ i, Coherent env (reqs i) (did c i)) ?_ ?_ ?_ ?_
  · exact fun i => coherent_start env (reqs i)
  · intro c i ch o k x w' _ ih _ _ hal _ j
    by_cases hj : j = i
    · subst hj
      rw [did_afterCall_self]
      exact (ih j).note hal x
    · rw [did_afterCall_ne hj]
      exact ih j
  · exact fun c i ch x _ ih _ _ _ j => ih j
  · exact fun c d _ ih _ j => ih j

end Runs

end BackendTemplate
