import BackendTemplate.Commits

/-!
# Exchanging One Refresh Token Concurrently

Any number of requests present the same refresh token. Each reads the session, checks the
token, and writes the rotated aggregate back with an upsert that asks for nothing. Two of
them that read before either has committed both succeed, and the session is left with two
unrevoked tokens.

`exchangesLive` is the condition that this does not happen: a rotation is written only
while the presented token is unrevoked in the committed table. Under it the row lock on the
token makes the exchange exclusive: at most one request commits, and it trades one unrevoked
token for another.

## Main results

* `Exchanges.spec` — what an exchange makes of the tokens of its session.
* `exchanged_at_most_once` — at most one of the requests succeeds.
-/

namespace BackendTemplate

open Atomic

variable {env : Env} {ι : Type} {t : String}

/-- A rotation is written only while the presented token is unrevoked in the tables. -/
def exchangesLive (env : Env) (t : String) (c : Cfg ι) : Label ι Choice ℕ → Prop
  | .act i _ => ∀ s k, c.threads i = .running (.call (.updateSession s) k) →
      s.isRevoked = false → ∀ row ∈ c.shared.db.refreshTokens,
        row.tokenHash = env.sha256 t → row.isRevoked = false
  | .env _ => True

instance (c : Cfg ι) : (l : Label ι Choice ℕ) → Decidable (exchangesLive env t c l)
  | .act i _ => decidable_of_iff (∀ s ∈ (c.next i).bind Op.updates, s.isRevoked = false →
      ∀ row ∈ c.shared.db.refreshTokens, row.tokenHash = env.sha256 t → row.isRevoked = false)
      forall_updates
  | .env _ => inferInstanceAs (Decidable True)

/-- Session `sid` has two unrevoked refresh tokens. -/
def TwoLive (db : Db) (sid : Uuid) : Prop :=
  ∃ r₁ ∈ db.refreshTokens, ∃ r₂ ∈ db.refreshTokens, r₁.id ≠ r₂.id ∧
    r₁.sessionId = sid ∧ r₂.sessionId = sid ∧ r₁.isRevoked = false ∧ r₂.isRevoked = false

/-! ### What an exchange writes -/

/-- What an exchange makes of the tokens of a session: the presented one is revoked, one is
new, the others are as they were read. -/
structure Traded (env : Env) (t : String) (p : Progress) (s₀ s : SessionAggregate)
    (presented new : RefreshToken) : Prop where
  read : s₀ ∈ p.sessions
  held : presented ∈ s₀.refreshTokens
  hash : presented.tokenHash.value = env.sha256 t
  live : presented.isRevoked = false
  drawn : new.id ∈ p.drawn
  same : s.sessionId = s₀.sessionId
  unrevoked : s.isRevoked = false
  revokes : presented.revoked ∈ s.refreshTokens
  tokens : ∀ t' ∈ s.refreshTokens, t' = new ∨ (t'.id = presented.id ∧ t'.isRevoked = true) ∨
    (t'.id ≠ presented.id ∧ t' ∈ s₀.refreshTokens)

theorem Exchanges.spec {p : Progress} {s₀ s : SessionAggregate} (h : Exchanges env t p s₀ s) :
    ∃ presented new, Traded env t p s₀ s presented new := by
  obtain ⟨presented, new, now, hs₀, hrev, hfind, hlive, -, hdrawn, rfl⟩ := h
  have hmem := List.mem_of_find?_eq_some hfind
  have hhash : presented.tokenHash = TokenHash.fromRaw env t := by
    simpa using List.find?_some hfind
  refine ⟨presented, new, hs₀, hmem, congrArg TokenHash.value hhash, hlive, hdrawn, rfl, hrev,
    ?_, ?_⟩
  · rw [SessionAggregate.rotate_refreshTokens]
    exact List.mem_append_left _ (List.mem_map.mpr ⟨presented, hmem, by simp⟩)
  · intro t' ht'
    rw [SessionAggregate.rotate_refreshTokens] at ht'
    rcases List.mem_append.mp ht' with ht' | ht'
    · obtain ⟨t₀, ht₀, rfl⟩ := List.mem_map.mp ht'
      by_cases hid : t₀.id = presented.id
      · rw [if_pos hid]
        exact Or.inr (Or.inl ⟨hid, rfl⟩)
      · rw [if_neg hid]
        exact Or.inr (Or.inr ⟨hid, ht₀⟩)
    · exact Or.inl (List.mem_singleton.mp ht')

section Requests

variable {r : Request} {c : Cfg ι} {i : ι} {s₀ s : SessionAggregate}
  {presented new : RefreshToken}

/-- The row of the presented token. -/
theorem Traded.row (h : Traded env t (did c i) s₀ s presented new) (hm : Minted env c) :
    ∃ row, c.shared.db.token presented.id = some row ∧ row.sessionId = s.sessionId ∧
      row.tokenHash = env.sha256 t := by
  obtain ⟨row, hrow, hs, hh⟩ := (hm.known i s₀ h.read).tokens presented h.held
  exact ⟨row, hrow, hs.trans h.same.symm, hh.trans h.hash⟩

/-- The new token has no row before the commit. -/
theorem Traded.new_row (h : Traded env t (did c i) s₀ s presented new) (ho : Open env r c i) :
    c.shared.db.token new.id = none := by
  rw [Db.token, Keyed.lookup_eq_none]
  exact fun hin => ho.not_has h.drawn (Or.inr (Or.inr hin))

/-- A committed token row that the rotation touches: the presented one becomes revoked, any
other is written as it was read. -/
theorem Traded.touches (h : Traded env t (did c i) s₀ s presented new) (ho : Open env r c i)
    {row : RefreshTokenRow} {t' : RefreshToken} (ht' : t' ∈ s.refreshTokens)
    (hrow : c.shared.db.token t'.id = some row) :
    (t'.id = presented.id ∧ t'.isRevoked = true) ∨
      (t'.id ≠ presented.id ∧ t' ∈ s₀.refreshTokens) := by
  rcases h.tokens t' ht' with rfl | hrest
  · exact absurd ((h.new_row ho).symm.trans hrow) (by simp)
  · exact hrest

/-- **The commit of a rotation revokes the presented token.** -/
theorem Traded.spends (h : Traded env t (did c i) s₀ s presented new) (ho : Open env r c i)
    (hup : (did c i).updated = [s]) :
    ∃ row, (c.shared.view i).token presented.id = some row ∧ row.tokenHash = env.sha256 t ∧
      row.isRevoked = true := by
  obtain ⟨row, hrow, -, hhash⟩ := h.row ho.minted
  obtain ⟨row', hrow', -, hh, hcases⟩ := ho.token_view hrow
  refine ⟨row', hrow', hh.trans hhash, ?_⟩
  rw [hup] at hcases
  rcases hcases with ⟨-, hno⟩ | ⟨s', hs', t', ht', hid, hrev⟩
  · exact absurd rfl (hno s List.mem_cons_self presented.revoked h.revokes)
  · obtain rfl := List.mem_singleton.mp hs'
    rcases h.touches ho ht' (hid ▸ hrow) with ⟨-, htrue⟩ | ⟨hne, -⟩
    · exact hrev.trans htrue
    · exact absurd hid hne

/-- An unrevoked token row after a rotation, if it was there before, was unrevoked before
and is not the presented one. -/
theorem Traded.old_live (h : Traded env t (did c i) s₀ s presented new) (ho : Open env r c i)
    (hup : (did c i).updated = [s]) (hl : Loads c.shared.db s₀) {row row' : RefreshTokenRow}
    {x : Uuid} (hrow : c.shared.db.token x = some row)
    (hrow' : (c.shared.view i).token x = some row') (hlive : row'.isRevoked = false) :
    row.sessionId = row'.sessionId ∧ row.isRevoked = false ∧ x ≠ presented.id := by
  obtain ⟨row₁, hrow₁, hs, -, hcases⟩ := ho.token_view hrow
  obtain rfl := Option.some.inj (hrow'.symm.trans hrow₁)
  rw [hup] at hcases
  rcases hcases with ⟨rfl, hno⟩ | ⟨s', hs', t', ht', rfl, hrev⟩
  · refine ⟨rfl, hlive, ?_⟩
    rintro rfl
    exact hno s List.mem_cons_self _ h.revokes rfl
  · obtain rfl := List.mem_singleton.mp hs'
    rcases h.touches ho ht' hrow with ⟨-, htrue⟩ | ⟨hne, ht₀⟩
    · exact absurd (hlive.symm.trans (hrev.trans htrue)) (by simp)
    · obtain ⟨row₂, hrow₂, -, -, hrev₂, -⟩ := hl.token ho.minted.keyed ht₀
      obtain rfl := Option.some.inj (hrow.symm.trans hrow₂)
      exact ⟨hs.symm, hrev₂.trans (hrev.symm.trans hlive), hne⟩

/-- A token row that a rotation adds is the new one, in the rotated session. -/
theorem Traded.added (h : Traded env t (did c i) s₀ s presented new) (ho : Open env r c i)
    (hup : (did c i).updated = [s]) {row : RefreshTokenRow} {x : Uuid}
    (hrow : c.shared.db.token x = none) (hrow' : (c.shared.view i).token x = some row) :
    x = new.id ∧ row.sessionId = s.sessionId := by
  obtain ⟨s', t', hs', ht', rfl, hsid, -⟩ := ho.new_token hrow hrow'
  have hs : s' = s := by
    rcases hs' with hadd | hs'
    · rcases ho.coherent.oneSession with hnone | hnil
      · exact absurd (hnone.symm.trans hadd) (by simp)
      · exact absurd (hnil.symm.trans hup) (by simp)
    · exact List.mem_singleton.mp (hup ▸ hs')
  subst hs
  refine ⟨?_, hsid⟩
  rcases h.tokens t' ht' with rfl | ⟨hid, -⟩ | ⟨-, ht₀⟩
  · rfl
  · obtain ⟨row₁, hrow₁, -⟩ := h.row ho.minted
    exact absurd (hrow.symm.trans (hid ▸ hrow₁)) (by simp)
  · obtain ⟨row₁, hrow₁, -⟩ := (ho.minted.known i s₀ h.read).tokens t' ht₀
    exact absurd (hrow.symm.trans hrow₁) (by simp)

/-- **A rotation trades one unrevoked token for another**: a session with two unrevoked
tokens afterwards had two before. -/
theorem Traded.twoLive (h : Traded env t (did c i) s₀ s presented new) (ho : Open env r c i)
    (hup : (did c i).updated = [s]) (hl : Loads c.shared.db s₀)
    (hk : (c.shared.view i).Keyed) {sid : Uuid} (htwo : TwoLive (c.shared.view i) sid) :
    TwoLive c.shared.db sid := by
  obtain ⟨r₁, hr₁, r₂, hr₂, hne, hs₁, hs₂, hl₁, hl₂⟩ := htwo
  obtain ⟨row, hrow, hsid, -⟩ := h.row ho.minted
  have hlive : row.isRevoked = false := by
    obtain ⟨row', hrow', -, -, hrev, -⟩ := hl.token ho.minted.keyed h.held
    obtain rfl := Option.some.inj (hrow.symm.trans hrow')
    exact hrev.trans h.live
  have hv₁ := hk.mem_tokens.mp hr₁
  have hv₂ := hk.mem_tokens.mp hr₂
  -- an unrevoked row that was there before stands beside the presented one
  have hbeside : ∀ r' row', c.shared.db.token r'.id = some row' →
      (c.shared.view i).token r'.id = some r' → r'.isRevoked = false → r'.sessionId = sid →
      row.sessionId = sid → TwoLive c.shared.db sid := by
    intro r' row' hdb hv hlv hs hsid'
    obtain ⟨hs', hl', hne'⟩ := h.old_live ho hup hl hdb hv hlv
    refine ⟨row', Keyed.mem_of_lookup hdb, row, Keyed.mem_of_lookup hrow, ?_, hs'.trans hs, hsid',
      hl', hlive⟩
    rw [Keyed.key_of_lookup hdb, Keyed.key_of_lookup hrow]
    exact hne'
  cases hd₁ : c.shared.db.token r₁.id with
  | none =>
      obtain ⟨hn₁, hsn₁⟩ := h.added ho hup hd₁ hv₁
      cases hd₂ : c.shared.db.token r₂.id with
      | none => exact absurd (hn₁.trans (h.added ho hup hd₂ hv₂).1.symm) hne
      | some row₂ => exact hbeside r₂ row₂ hd₂ hv₂ hl₂ hs₂ (hsid.trans (hsn₁.symm.trans hs₁))
  | some row₁ =>
      cases hd₂ : c.shared.db.token r₂.id with
      | none =>
          obtain ⟨-, hsn₂⟩ := h.added ho hup hd₂ hv₂
          exact hbeside r₁ row₁ hd₁ hv₁ hl₁ hs₁ (hsid.trans (hsn₂.symm.trans hs₂))
      | some row₂ =>
          obtain ⟨hs₁', hl₁', -⟩ := h.old_live ho hup hl hd₁ hv₁ hl₁
          obtain ⟨hs₂', hl₂', -⟩ := h.old_live ho hup hl hd₂ hv₂ hl₂
          refine ⟨row₁, Keyed.mem_of_lookup hd₁, row₂, Keyed.mem_of_lookup hd₂, ?_,
            hs₁'.trans hs₁, hs₂'.trans hs₂, hl₁', hl₂'⟩
          rw [Keyed.key_of_lookup hd₁, Keyed.key_of_lookup hd₂]
          exact hne

end Requests

/-! ### Many requests, one token -/

section Runs

variable [Fintype ι] [DecidableEq ι] {w : World ι} {c : Cfg ι}

/-- What holds while requests race for one token. Until one of them commits the session
tables are those of the start; from then on the token is spent. -/
structure Once (env : Env) (t : String) (w : World ι) (c : Cfg ι) : Prop where
  before : (∀ i, (did c i).committed = false) →
    c.shared.db.refreshTokens = w.db.refreshTokens ∧
      ∀ i, ∀ s ∈ (did c i).sessions, Loads c.shared.db s
  unique : ∀ i j, (did c i).committed = true → (did c j).committed = true → i = j
  spent : ∀ i, (did c i).committed = true → ∀ row ∈ c.shared.db.refreshTokens,
    row.tokenHash = env.sha256 t → row.isRevoked = true
  live : ∀ i a, c.threads i = .running a → (did c i).committed = false →
    ∀ s ∈ (did c i).updated, s.isRevoked = false → ∀ row ∈ c.shared.db.refreshTokens,
      row.tokenHash = env.sha256 t → row.isRevoked = false
  two : ∀ sid, TwoLive c.shared.db sid → TwoLive w.db sid

omit [Fintype ι] in
/-- A call that commits nothing keeps the race as it is. -/
theorem Once.quiet (h : Once env t w c) {i : ι} {o : Op} {x : o.Res} {a b : Act Response}
    {w' : World ι} (ht : c.threads i = .running a) (hdb : w'.db = c.shared.db)
    (hc : ((did c i).note o x).committed = (did c i).committed)
    (hread : ∀ s ∈ ((did c i).note o x).sessions, s ∈ (did c i).sessions ∨ Loads c.shared.db s)
    (hup : ∀ s ∈ ((did c i).note o x).updated, s.isRevoked = false → s ∈ (did c i).updated ∨
      ∀ row ∈ c.shared.db.refreshTokens, row.tokenHash = env.sha256 t →
        row.isRevoked = false) :
    Once env t w (Machine.afterCall c i o x b w') := by
  have hcomm : ∀ j, (did (Machine.afterCall c i o x b w') j).committed = (did c j).committed := by
    intro j
    by_cases hj : j = i
    · subst hj
      rw [did_afterCall_self, hc]
    · rw [did_afterCall_ne hj]
  refine ⟨fun hnone => ?_, fun i' j hi hj => ?_, fun j hj => ?_, ?_, ?_⟩
  · obtain ⟨htok, hloads⟩ := h.before fun j => hcomm j ▸ hnone j
    rw [afterCall_shared, hdb]
    refine ⟨htok, fun j s hs => ?_⟩
    by_cases hj : j = i
    · subst hj
      rw [did_afterCall_self] at hs
      exact (hread s hs).elim (hloads j s) id
    · rw [did_afterCall_ne hj] at hs
      exact hloads j s hs
  · rw [hcomm] at hi hj
    exact h.unique i' j hi hj
  · rw [hcomm] at hj
    rw [afterCall_shared, hdb]
    exact h.spent j hj
  · intro j a' hj hcj s hs hrev
    rw [hcomm] at hcj
    rw [afterCall_shared, hdb]
    by_cases hji : j = i
    · subst hji
      rw [did_afterCall_self] at hs
      exact (hup s hs hrev).elim (fun hold => h.live j a ht hcj s hold hrev) id
    · rw [did_afterCall_ne hji] at hs
      rw [threads_afterCall_ne hji] at hj
      exact h.live j a' hj hcj s hs hrev
  · rw [afterCall_shared, hdb]
    exact h.two

/-- **The first commit spends the token**, and there is no second one. -/
theorem Once.commit {i : ι} {k : calls.Res .commit → Act Response}
    (h : Once env t w c)
    (hr : Runs env (fun _ : ι => .refreshToken t) (exchangesLive env t) w c)
    (hw : Startable env w) (ht : c.threads i = .running (.call .commit k))
    (hal : Allowed env (.refreshToken t) (did c i) .commit)
    (hk : (c.shared.commit env i).db.Keyed) (hn : Indexed (c.shared.commit env i)) :
    Once env t w (Machine.afterCall c i .commit (.ok ()) (k (.ok ()))
      (c.shared.commit env i)) := by
  have ho := hr.isOpen hw ht hal.1
  obtain ⟨s₀, s, hx, hup⟩ := hal.2.1
  obtain ⟨presented, new, htr⟩ := hx.spec
  have hs : s ∈ (did c i).updated := by simp [hup]
  obtain ⟨row, hrow, hsid, hhash⟩ := htr.row ho.minted
  -- the presented token is live in the tables, so nobody has exchanged it yet
  have hlive := h.live i _ ht hal.1 s hs htr.unrevoked row (Keyed.mem_of_lookup hrow) hhash
  have hnone : ∀ j, (did c j).committed = false := by
    intro j
    by_contra hj
    have := h.spent j (by simpa using hj) row (Keyed.mem_of_lookup hrow) hhash
    exact absurd (hlive.symm.trans this) (by simp)
  obtain ⟨htok, hloads⟩ := h.before hnone
  have hwin : ∀ j, (did (Machine.afterCall c i .commit (.ok ()) (k (.ok ()))
      (c.shared.commit env i)) j).committed = true → j = i := by
    intro j hj
    by_contra hji
    rw [did_afterCall_ne hji] at hj
    exact absurd ((hnone j).symm.trans hj) (by simp)
  obtain ⟨-, -, htokens⟩ := commit_tables env c.shared i
  refine ⟨fun hall => ?_, fun j j' hj hj' => (hwin j hj).trans (hwin j' hj').symm,
    fun j _ row' hrow' hhash' => ?_, ?_, ?_⟩
  · have := hall i
    rw [did_afterCall_self] at this
    exact absurd this (by simp [Progress.note])
  · obtain ⟨spent, hspent, hsh, hrev⟩ := htr.spends ho hup
    rw [← commit_token env] at hspent
    obtain rfl := eq_of_hash hn.committed hrow' (Keyed.mem_of_lookup hspent)
      (hhash'.trans hsh.symm)
    exact hrev
  · -- another pending rotation would hold the same token row
    intro j a hj hcj s' hs' hrev
    by_cases hji : j = i
    · subst hji
      rw [did_afterCall_self] at hcj
      exact absurd hcj (by simp [Progress.note])
    · rw [did_afterCall_ne hji] at hs' hcj
      rw [threads_afterCall_ne hji] at hj
      have ho' := hr.isOpen hw hj hcj
      obtain ⟨hrevoked, -⟩ | ⟨-, t', s₀', heq, hx'⟩ := (ho'.coherent.updated s' hs').cases
      · exact absurd (hrev.symm.trans hrevoked) (by simp)
      · obtain rfl := Request.refreshToken.inj heq
        obtain ⟨presented', new', htr'⟩ := hx'.spec
        obtain ⟨row', hrow', -, hhash'⟩ := htr'.row ho'.minted
        have hsame := eq_of_hash (hr.hashes hw).committed (Keyed.mem_of_lookup hrow)
          (Keyed.mem_of_lookup hrow') (hhash.trans hhash'.symm)
        have hid : presented.id = presented'.id := by
          rw [← Keyed.key_of_lookup hrow, ← Keyed.key_of_lookup hrow', hsame]
        have hheld : ∀ {l : ι} {r : Request} {s : SessionAggregate} {q : RefreshToken},
            Open env r c l → s ∈ (did c l).updated → q.revoked ∈ s.refreshTokens →
            RowLocks.Holds Write.keys (c.shared.pending l) (.token q.id) := by
          intro l r s q hol hsl hq
          have hmem := hol.pending.updated hol.uncommitted s hsl
            (List.mem_cons_of_mem _ (List.mem_map_of_mem hq))
          exact ⟨_, hmem, by simp [Write.keys, refreshTokenToRow]⟩
        exact absurd (hid ▸ hheld ho hs htr.revokes)
          (ho.exclusive j i hji _ (hheld ho' hs' htr'.revokes))
  · intro sid htwo
    have hview : TwoLive (c.shared.view i) sid := by
      rw [afterCall_shared, TwoLive, htokens] at htwo
      exact htwo
    have hkv : (c.shared.view i).Keyed := by
      obtain ⟨h₁, h₂, h₃⟩ := commit_tables env c.shared i
      exact ⟨h₁ ▸ hk.users, h₂ ▸ hk.sessions, h₃ ▸ hk.tokens⟩
    have := htr.twoLive ho hup (hloads i s₀ htr.read) hkv hview
    rw [TwoLive, htok] at this
    exact this

/-- **The race for one token, along every run.** -/
theorem Runs.once (h : Runs env (fun _ : ι => .refreshToken t) (exchangesLive env t) w c)
    (hw : Startable env w) : Once env t w c := by
  refine h.induction (Once env t w) ?_ ?_ ?_ ?_
  · refine ⟨fun _ => ⟨rfl, fun i s hs => absurd hs List.not_mem_nil⟩, fun i j hi => ?_,
      fun i hi => ?_, fun i a _ _ s hs => absurd hs List.not_mem_nil, fun sid htwo => htwo⟩
    · exact absurd hi (by simp)
    · exact absurd hi (by simp)
  · intro c i ch o k x w' hr ih hC ht hal he
    have hs := hr.sound hw.idle
    by_cases ho : o = .commit
    · subst ho
      have hafter := hr.tail hC (Machine.step_call ht he)
      rcases exec_commit he with ⟨rfl, rfl⟩ | ⟨rfl, rfl⟩
      · refine ih.quiet ht rfl rfl (fun s hs => Or.inl hs) fun s hs => ?_
        exact absurd hs List.not_mem_nil
      · exact ih.commit hr hw ht hal (Runs.minted hafter hw).keyed (Runs.hashes hafter hw)
    · refine ih.quiet ht (exec_db ho he).1 (note_committed_eq _ ho x) (fun s hsess => ?_)
        (fun s hs hrev => ?_)
      · rcases mem_note_sessions he hsess with hold | hread
        · exact Or.inl hold
        · exact Or.inr (hread.loads hs ht hal (hr.minted hw).keyed)
      · rcases mem_note_updated hs with hold | rfl
        · exact Or.inl hold
        · exact Or.inr (hC s k ht hrev)
  · intro c i ch x _ ih _ _ _
    exact ⟨ih.before, ih.unique, ih.spent, fun j a hj => ih.live j a (threads_left hj), ih.two⟩
  · exact fun c d _ ih _ => ⟨ih.before, ih.unique, ih.spent, ih.live, ih.two⟩

/-- **A refresh token is exchanged at most once** along every run in which a rotation is
written only while the presented token is unrevoked: at most one of the requests returns a
new token, and no session gains a second unrevoked token. -/
theorem exchanged_at_most_once
    (h : Runs env (fun _ : ι => .refreshToken t) (exchangesLive env t) w c)
    (hw : Startable env w) :
    (∀ i j out out', c.threads i = .done (.ok (.refreshed out)) →
      c.threads j = .done (.ok (.refreshed out')) → i = j) ∧
      ∀ sid, TwoLive c.shared.db sid → TwoLive w.db sid := by
  have honce := h.once hw
  refine ⟨fun i j out out' hi hj => ?_, honce.two⟩
  exact honce.unique i j (h.ends hi).1.1 (h.ends hj).1.1

end Runs

/-! ### Two clients with one token -/

/-- Request `i` has returned a new refresh token. -/
def Refreshed (c : Cfg ι) (i : ι) : Prop := ∃ out, c.threads i = .done (.ok (.refreshed out))

instance (c : Cfg ι) (i : ι) : Decidable (Refreshed c i) :=
  decidable_of_iff ((match c.threads i with
      | .done (.ok (.refreshed _)) => true
      | _ => false) = true) <| by
    rw [Refreshed]
    split
    · rename_i out h
      simp [h]
    · rename_i h
      simp only [Bool.false_eq_true, false_iff, not_exists]
      exact fun out => h out

instance (db : Db) (sid : Uuid) : Decidable (TwoLive db sid) :=
  inferInstanceAs (Decidable (∃ r₁ ∈ db.refreshTokens, ∃ r₂ ∈ db.refreshTokens, _))

/-- Two requests with the same refresh token, about to start. -/
def sameTokenStart : Cfg (Fin 2) :=
  start Reference.env (fun _ => .refreshToken Reference.presented)
    (Reference.world (Fin 2) (Reference.tables (Reference.alice false) true))

/-- One after the other, one of them succeeds. -/
theorem exchanged_once_in_turn : ∃ c,
    (machine Reference.env (Fin 2)).run sameTokenStart
        (Reference.moves 0 14 ++ Reference.moves 1 2) = some c ∧
      Refreshed c 0 ∧ ¬ Refreshed c 1 := by
  obtain ⟨c, hc, hfirst⟩ := Machine.exists_run (P := fun c : Cfg (Fin 2) => Refreshed c 0)
    (by decide +kernel : ((machine Reference.env (Fin 2)).run sameTokenStart
      (Reference.moves 0 14 ++ Reference.moves 1 2)).any _ = true)
  have hsteps : (machine Reference.env (Fin 2)).RunsWith
      (exchangesLive Reference.env Reference.presented) sameTokenStart
      (Reference.moves 0 14 ++ Reference.moves 1 2) := by
    decide +kernel
  refine ⟨c, hc, hfirst, ?_⟩
  rintro ⟨out', h₁⟩
  obtain ⟨out, h₀⟩ := hfirst
  have honce := (exchanged_at_most_once (Machine.reach_of_run hsteps hc)
    (reference_startable (Fin 2) rfl true .empty)).1 0 1 out out' h₀ h₁
  exact absurd honce (by decide)

/-- When both read the token before either writes, both succeed, and the session is left with
two unrevoked tokens. -/
theorem exchanged_twice : ∃ c,
    (machine Reference.env (Fin 2)).run sameTokenStart (Reference.moves 0 10 ++
        Reference.moves 1 10 ++ Reference.moves 0 4 ++ Reference.moves 1 4) = some c ∧
      Refreshed c 0 ∧ Refreshed c 1 ∧ TwoLive c.shared.db Reference.session.sessionId :=
  Machine.exists_run (by decide +kernel)

end BackendTemplate
