import BackendTemplate.Challenges
import BackendTemplate.Sequential

/-!
# What a Password Change Cuts Off

`ChangePasswordUseCase` and `ResetPasswordUseCase` revoke every session of the account in the
transaction that replaces the password. Pending two-factor challenges are not touched: they
live in the cache, under tokens the service does not know. In a sequential run in which no
request completes a challenge of the account that was pending at the commit (`leavesOld`),
every session that is created or refreshed afterwards descends from a password that was
checked after the commit.

## Main results

* `CutOff` — the invariant: live sessions and new challenges come from logins since the
  commit.
* `password_change_cuts_off` — the result.
-/

namespace BackendTemplate

open Atomic

variable {env : Env} {ι : Type} {reqs : ι → Request} {x : Uuid}

/-! ### Descent -/

/-- The use cases that replace a password. -/
def Request.replacesPassword : Request → Bool
  | .changePassword _ _ _ | .resetPassword _ _ _ => true
  | _ => false

/-- Request `i`, which had not started in `c`, is a login that has accepted the password of
account `x` and has committed. -/
def LoggedInSince (env : Env) (reqs : ι → Request) (x : Uuid) (c d : Cfg ι) (i : ι) : Prop :=
  c.hist i = [] ∧ (did d i).committed = true ∧
    ∃ data u, reqs i = .login data ∧ (did d i).userWrite = some u ∧
      PasswordChecked env data (did d i) u ∧ u.id.value = x

/-- A login since `c` has issued a challenge of account `x` under the token. -/
def IssuedSince (env : Env) (reqs : ι → Request) (x : Uuid) (c d : Cfg ι) (token : String) :
    Prop :=
  ∃ l v, LoggedInSince env reqs x c d l ∧ (ChallengeStore.key token, v) ∈ (did d l).puts

/-- What entitles request `i` to a session of account `x`: it is a login since `c`, or it
completes a challenge that a login since `c` has issued. -/
def EntitledSince (env : Env) (reqs : ι → Request) (x : Uuid) (c d : Cfg ι) (i : ι) : Prop :=
  LoggedInSince env reqs x c d i ∨
    c.hist i = [] ∧ ∃ token code, reqs i = .completeTwoFactor token code ∧
      IssuedSince env reqs x c d token

/-- **A session of account `x` that descends from a password check made since `c`**: it was
created by a login since `c`, or by a completion of a challenge such a login has issued. -/
def Descends (env : Env) (reqs : ι → Request) (x : Uuid) (c d : Cfg ι) (sid : Uuid) : Prop :=
  ∃ i s, (did d i).committed = true ∧ (did d i).added = some s ∧ s.sessionId = sid ∧
    EntitledSince env reqs x c d i

/-- The cache holds a challenge of account `x` under the token. -/
def Challenged (env : Env) (x : Uuid) (m : InMemoryCache) (token : String) : Prop :=
  ∃ raw e st, m.store (ChallengeStore.key token) = some (raw, e) ∧
    env.validateJson raw = some st ∧ st.userId = x

/-- No request reads a challenge of account `x` that cache `m` holds. -/
def leavesOld (env : Env) (x : Uuid) (m : InMemoryCache) (c : Cfg ι) : Label ι Choice ℕ → Prop
  | .act i _ => ∀ token k,
      c.threads i = .running (.call (.cacheGet (ChallengeStore.key token)) k) →
      ¬ Challenged env x m token
  | .env _ => True

/-- Requests come one at a time and leave the challenges of account `x` alone that were
pending in `c`. -/
def sinceChange (env : Env) (x : Uuid) (c d : Cfg ι) (l : Label ι Choice ℕ) : Prop :=
  Machine.sequentially d l ∧ leavesOld env x c.shared.cache d l

/-! ### What a call keeps -/

section Calls

variable [DecidableEq ι] {c d : Cfg ι} {i j : ι} {o : Op} {y : o.Res} {a : Act Response}
  {w' : World ι}

theorem puts_afterCall {e : String × String} (h : e ∈ (did d j).puts) :
    e ∈ (did (Machine.afterCall d i o y a w') j).puts := by
  by_cases hji : j = i
  · subst hji
    rw [did_afterCall_self]
    by_cases ho : o.onCache = false
    · rw [(note_sameCache (did d j) ho y).2.2.2.1]
      exact h
    · cases o with
      | cacheGet k => cases y <;> exact h
      | cacheSet k v t => exact List.mem_cons_of_mem _ h
      | cacheDelete k => exact h
      | _ => exact absurd rfl ho
  · rwa [did_afterCall_ne hji]

theorem LoggedInSince.call (h : LoggedInSince env reqs x c d j)
    (hal : Allowed env (reqs i) (did d i) o) :
    LoggedInSince env reqs x c (Machine.afterCall d i o y a w') j := by
  obtain ⟨hidle, hc, data, u, hreq, hu, ⟨u₀, pwd, hu₀, hpwd⟩, hx⟩ := h
  refine ⟨hidle, committed_afterCall hc, data, u, hreq, ?_,
    ⟨u₀, pwd, extends_afterCall.users hu₀, hpwd⟩, hx⟩
  rw [(sameWrites_afterCall hal hc).1]
  exact hu

theorem IssuedSince.call {token : String} (h : IssuedSince env reqs x c d token)
    (hal : Allowed env (reqs i) (did d i) o) :
    IssuedSince env reqs x c (Machine.afterCall d i o y a w') token := by
  obtain ⟨l, v, hl, hput⟩ := h
  exact ⟨l, v, hl.call hal, puts_afterCall hput⟩

theorem EntitledSince.call (h : EntitledSince env reqs x c d j)
    (hal : Allowed env (reqs i) (did d i) o) :
    EntitledSince env reqs x c (Machine.afterCall d i o y a w') j := by
  rcases h with hl | ⟨hidle, token, code, hreq, hissued⟩
  · exact Or.inl (hl.call hal)
  · exact Or.inr ⟨hidle, token, code, hreq, hissued.call hal⟩

theorem Descends.call {sid : Uuid} (h : Descends env reqs x c d sid)
    (hal : Allowed env (reqs i) (did d i) o) :
    Descends env reqs x c (Machine.afterCall d i o y a w') sid := by
  obtain ⟨l, s, hc, hadd, hs, hent⟩ := h
  refine ⟨l, s, committed_afterCall hc, ?_, hs, hent.call hal⟩
  rw [(sameWrites_afterCall hal hc).2.2.1]
  exact hadd

end Calls

/-! ### The invariant -/

/-- **What a password change has cut off**, in a configuration `d` after the commit of request
`i₀` that led to `c`. -/
structure CutOff (env : Env) (reqs : ι → Request) (x : Uuid) (i₀ : ι) (c d : Cfg ι) : Prop where
  /-- The request that changed the password has committed. -/
  changed : (did d i₀).committed = true
  /-- Every other request under way has started since. -/
  fresh : ∀ j a, d.threads j = .running a → j ≠ i₀ → c.hist j = []
  /-- A live session descends from a password check since. -/
  rows : ∀ sid row, d.shared.db.session sid = some row → row.userId = x →
    row.isRevoked = false → Descends env reqs x c d sid
  /-- A session that was read alive descends from a password check since. -/
  read : ∀ j, c.hist j = [] → ∀ s ∈ (did d j).sessions, s.userId.value = x →
    s.isRevoked = false → Descends env reqs x c d s.sessionId
  /-- A challenge that was not pending in `c` was issued by a login since. -/
  entries : ∀ token, Challenged env x d.shared.cache token →
    Challenged env x c.shared.cache token ∨ IssuedSince env reqs x c d token
  /-- So was a challenge that was read. -/
  gets : ∀ j, c.hist j = [] → ∀ token raw st, (ChallengeStore.key token, raw) ∈ (did d j).gets →
    env.validateJson raw = some st → st.userId = x → IssuedSince env reqs x c d token

/-- What entitles a request to the session it has inserted for the account. -/
theorem CutOff.granted {i₀ : ι} {c d : Cfg ι} (h : CutOff env reqs x i₀ c d) {j : ι}
    (hidle : c.hist j = []) (hco : Coherent env (reqs j) (did d j)) {s : SessionAggregate}
    (hadd : (did d j).added = some s) (hs : s.userId.value = x) :
    (∃ data u, reqs j = .login data ∧ (did d j).userWrite = some u ∧
        PasswordChecked env data (did d j) u ∧ u.id.value = x) ∨
      ∃ token code, reqs j = .completeTwoFactor token code ∧
        IssuedSince env reqs x c d token := by
  obtain ⟨-, -, -, hgrant⟩ := hco.added s hadd
  cases hr : reqs j with
  | login data =>
      rw [hr] at hgrant
      obtain ⟨u, hu, hpwd, -, hid⟩ := hgrant
      exact Or.inl ⟨data, u, rfl, hu, hpwd, hid ▸ hs⟩
  | completeTwoFactor token code =>
      rw [hr] at hgrant
      obtain ⟨u, u', st, -, -, hid, ⟨raw, hget, hraw⟩, hst, -⟩ := hgrant
      refine Or.inr ⟨token, code, rfl, h.gets j hidle token raw st hget hraw ?_⟩
      rw [hst, ← hid, hs]
  | _ =>
      rw [hr] at hgrant
      exact absurd hgrant id

section Steps

variable [Fintype ι] [DecidableEq ι] {w : World ι} {i₀ : ι} {c d : Cfg ι} {i : ι} {ch : Choice}
  {o : Op} {y : o.Res} {k : o.Res → Act Response} {w' : World ι}

/-- The challenges after a call: as before, or written by a login since, or written back. -/
theorem CutOff.entries_call (h : CutOff env reqs x i₀ c d)
    (hkind : (reqs i₀).replacesPassword = true) (ht : d.threads i = .running (.call o k))
    (hal : Allowed env (reqs i) (did d i) o) (he : exec env ch i o d.shared = some (y, w'))
    {token : String} (hch : Challenged env x w'.cache token) :
    Challenged env x c.shared.cache token ∨
      IssuedSince env reqs x c (Machine.afterCall d i o y (k y) w') token := by
  have hold : Challenged env x d.shared.cache token → Challenged env x c.shared.cache token ∨
      IssuedSince env reqs x c (Machine.afterCall d i o y (k y) w') token :=
    fun hch => (h.entries token hch).imp_right fun hi => hi.call hal
  by_cases ho : o.onCache = false
  · rw [(exec_uncached ho he).1] at hch
    exact hold hch
  · obtain ⟨raw, e, st, hstore, hraw, hst⟩ := hch
    cases o with
    | cacheGet key =>
        rcases exec_cacheGet he with ⟨_, _, -, -, -, rfl⟩ | ⟨-, -, -, hupd⟩
        · exact hold ⟨raw, e, st, hstore, hraw, hst⟩
        · rw [hupd] at hstore
          by_cases hkey : ChallengeStore.key token = key
          · rw [hkey, Function.update_self] at hstore
            cases hstore
          · rw [Function.update_of_ne hkey] at hstore
            exact hold ⟨raw, e, st, hstore, hraw, hst⟩
    | cacheDelete key =>
        rw [exec_cacheDelete he] at hstore
        by_cases hkey : ChallengeStore.key token = key
        · rw [← hkey, delete_store_self] at hstore
          cases hstore
        · rw [delete_store_ne _ hkey] at hstore
          exact hold ⟨raw, e, st, hstore, hraw, hst⟩
    | cacheSet key value ttl =>
        rw [exec_cacheSet he] at hstore
        by_cases hkey : ChallengeStore.key token = key
        · subst hkey
          obtain rfl := set_store_value hstore
          have hne : i ≠ i₀ := by
            rintro rfl
            cases hr : reqs i with
            | changePassword u old new =>
                rw [hr] at hal
                exact absurd hal id
            | resetPassword t new ip =>
                rw [hr] at hal
                exact absurd hal id
            | _ =>
                rw [hr] at hkind
                cases hkind
          have hidle := h.fresh i _ ht hne
          refine Or.inr ?_
          cases hr : reqs i with
          | login data =>
              rw [hr] at hal
              obtain ⟨_, st', u, -, rfl, -, hu, hpwd, hid, hc⟩ := id hal
              rw [env.validateJson_dumpJson, Option.some.injEq] at hraw
              subst hraw
              have hlog : LoggedInSince env reqs x c d i :=
                ⟨hidle, hc, data, u, hr, hu, hpwd, hid.symm.trans hst⟩
              refine ⟨i, env.dumpJson st', hlog.call (hr ▸ hal), ?_⟩
              rw [did_afterCall_self]
              exact List.mem_cons_self
          | completeTwoFactor token' code =>
              rw [hr] at hal
              rcases id hal with ⟨raw', st', hkey, rfl, -, hheld, hraw', -⟩ | ⟨u, u', hkey, -⟩
              · obtain rfl := challengeKey_injective hkey
                rw [env.validateJson_dumpJson, Option.some.injEq] at hraw
                subst hraw
                have hget := held_subset_gets (d.hist i) hheld
                exact (h.gets i hidle token raw' st' hget hraw' hst).call (hr ▸ hal)
              · exact absurd hkey (challengeKey_ne_usedKey token u.id.value code)
          | _ =>
              rw [hr] at hal
              exact absurd hal id
        · rw [set_store_ne _ _ hkey] at hstore
          exact hold ⟨raw, e, st, hstore, hraw, hst⟩
    | _ => exact absurd rfl ho

/-- The live sessions after a call: only a commit changes them. -/
theorem CutOff.rows_call (h : CutOff env reqs x i₀ c d) (hr : Runs env reqs Machine.sequentially w d)
    (hw : Startable env w) (ht : d.threads i = .running (.call o k))
    (hal : Allowed env (reqs i) (did d i) o) (he : exec env ch i o d.shared = some (y, w'))
    {sid : Uuid} {row : SessionRow} (hrow : w'.db.session sid = some row) (hu : row.userId = x)
    (hlive : row.isRevoked = false) :
    Descends env reqs x c (Machine.afterCall d i o y (k y) w') sid := by
  by_cases ho : o = .commit
  · subst ho
    rcases exec_commit he with ⟨rfl, rfl⟩ | ⟨rfl, rfl⟩
    · exact (h.rows sid row hrow hu hlive).call hal
    · have hopen := hr.isOpen hw ht hal.1
      have hne : i ≠ i₀ := by
        rintro rfl
        exact absurd (hal.1.symm.trans h.changed) (by simp)
      have hidle := h.fresh i _ ht hne
      rw [commit_session] at hrow
      cases hold : d.shared.db.session sid with
      | none =>
          obtain ⟨s, hadd, hs, hsu⟩ := hopen.new_session hold hrow
          refine ⟨i, s, by rw [did_afterCall_self]; rfl, by rw [did_afterCall_self]; exact hadd,
            hs, ?_⟩
          rcases h.granted hidle hopen.coherent hadd (hsu.symm.trans hu) with hlogin |
            ⟨token, code, hreq, hissued⟩
          · refine Or.inl ⟨hidle, by rw [did_afterCall_self]; rfl, ?_⟩
            rw [did_afterCall_self]
            exact hlogin
          · exact Or.inr ⟨hidle, token, code, hreq, hissued.call hal⟩
      | some row₀ =>
          obtain ⟨row', hrow', hu', hcases⟩ := hopen.session_view hold
          obtain rfl := Option.some.inj (hrow.symm.trans hrow')
          rcases hcases with ⟨rfl, -⟩ | ⟨s, hs, rfl, hrev, -⟩
          · exact (h.rows sid row hold hu hlive).call hal
          · rcases (hopen.coherent.updated s hs).cases with ⟨htrue, -⟩ | ⟨-, t, s₀, -, hx⟩
            · exact absurd (hrev.symm.trans hlive) (by simp [htrue])
            · obtain ⟨presented, new, now, hread, hlive₀, -, -, -, -, rfl⟩ := hx
              obtain ⟨row₁, hrow₁, hu₁⟩ := (hopen.minted.known i s₀ hread).session
              obtain rfl := Option.some.inj (hold.symm.trans hrow₁)
              exact (h.read i hidle s₀ hread (hu₁.symm.trans (hu'.symm.trans hu)) hlive₀).call hal
  · rw [(exec_db ho he).1] at hrow
    exact (h.rows sid row hrow hu hlive).call hal

/-- **A call keeps what was cut off.** -/
theorem CutOff.call (h : CutOff env reqs x i₀ c d) (hkind : (reqs i₀).replacesPassword = true)
    (hr : Runs env reqs Machine.sequentially w d) (hw : Startable env w)
    (hC : leavesOld env x c.shared.cache d (.act i ch))
    (ht : d.threads i = .running (.call o k)) (hal : Allowed env (reqs i) (did d i) o)
    (he : exec env ch i o d.shared = some (y, w')) :
    CutOff env reqs x i₀ c (Machine.afterCall d i o y (k y) w') where
  changed := committed_afterCall h.changed
  fresh j a hj hne := by
    by_cases hji : j = i
    · subst hji
      exact h.fresh j _ ht hne
    · rw [threads_afterCall_ne hji] at hj
      exact h.fresh j a hj hne
  rows sid row hrow hu hlive := h.rows_call hr hw ht hal he hrow hu hlive
  read j hidle s hs hu hlive := by
    by_cases hji : j = i
    · subst hji
      rw [did_afterCall_self] at hs
      rcases mem_note_sessions he hs with hold | hread
      · exact (h.read j hidle s hold hu hlive).call hal
      · obtain ⟨row, hrow, hrows, -⟩ :=
          hread.loads (hr.sound hw.idle) ht hal (hr.minted hw).keyed
        obtain ⟨-, hu', -, hrev, -⟩ := sessionFromRows_ok hrows
        exact (h.rows _ row hrow (hu'.symm.trans hu) (hrev.symm.trans hlive)).call hal
    · rw [did_afterCall_ne hji] at hs
      exact (h.read j hidle s hs hu hlive).call hal
  entries token hch := h.entries_call hkind ht hal he hch
  gets j hidle token raw st hget hraw hst := by
    by_cases hji : j = i
    · subst hji
      rw [did_afterCall_self] at hget
      rcases mem_note_gets hget with hold | ⟨rfl, hy⟩
      · exact (h.gets j hidle token raw st hold hraw hst).call hal
      · rcases exec_cacheGet he with ⟨v, e, rfl, hv, -⟩ | ⟨rfl, -⟩
        · obtain rfl := Option.some.inj (eq_of_heq hy)
          rcases h.entries token ⟨v, e, st, hv, hraw, hst⟩ with hold | hissued
          · exact absurd hold (hC token k ht)
          · exact hissued.call hal
        · cases eq_of_heq hy
    · rw [did_afterCall_ne hji] at hget
      exact (h.gets j hidle token raw st hget hraw hst).call hal

/-- The request that replaces the password leaves no session of the account alive. -/
theorem revoked_by_change (hr : Runs env reqs Machine.sequentially w d) (hw : Startable env w)
    (hkind : (reqs i).replacesPassword = true) {u : User} (hu : (did d i).userWrite = some u)
    {k : calls.Res .commit → Act Response} (ht : d.threads i = .running (.call .commit k))
    {sid : Uuid} {row : SessionRow} (hrow : (d.shared.view i).session sid = some row)
    (hid : row.userId = u.id.value) : row.isRevoked = true := by
  obtain ⟨hunc, hdone, -⟩ := hr.allowed ht
  have hopen := hr.isOpen hw ht hunc
  have hcur := hr.current hw ht hunc
  obtain ⟨u', ss, hu', hlisted, hup⟩ : ∃ u ss, (did d i).userWrite = some u ∧
      (did d i).listed = some (u.id.value, ss) ∧
      (did d i).updated = (ss.map SessionAggregate.revoke).reverse := by
    cases hq : reqs i with
    | changePassword x old new =>
        rw [hq] at hdone
        exact hdone
    | resetPassword t new ip =>
        rw [hq] at hdone
        exact hdone
    | _ =>
        rw [hq] at hkind
        cases hkind
  obtain rfl := Option.some.inj (hu.symm.trans hu')
  cases hold : d.shared.db.session sid with
  | none =>
      -- it inserts no session
      obtain ⟨s, hadd, -⟩ := hopen.new_session hold hrow
      obtain ⟨-, -, -, hgrant⟩ := hopen.coherent.added s hadd
      cases hq : reqs i with
      | login data =>
          rw [hq] at hkind
          cases hkind
      | completeTwoFactor token code =>
          rw [hq] at hkind
          cases hkind
      | _ =>
          rw [hq] at hgrant
          exact absurd hgrant id
  | some row₀ =>
      obtain ⟨row', hrow', hu', hcases⟩ := hopen.session_view hold
      obtain rfl := Option.some.inj (hrow.symm.trans hrow')
      rcases hcases with ⟨rfl, hno⟩ | ⟨s, hs, -, hrev, -⟩
      · -- every live session of the account was listed, so this one was not alive
        by_contra hlive
        have hmem := Keyed.mem_of_lookup hold
        obtain ⟨s, hs, hsid⟩ := (acquireSessionsOf_ok hopen.minted.keyed.sessions
          (hcur.listed _ _ hlisted)).2 row hmem hid (by simpa using hlive)
        refine hno s.revoke ?_ ((SessionAggregate.revoke_sessionId s).trans
          (hsid.trans (Keyed.key_of_lookup hold)))
        rw [hup, List.mem_reverse]
        exact List.mem_map_of_mem hs
      · rw [hup, List.mem_reverse] at hs
        obtain ⟨s₀, -, rfl⟩ := List.mem_map.mp hs
        exact hrev

/-- What a commit that replaces a password cuts off at once. -/
theorem cutOff_start {c₀ : Cfg ι} (h : Runs env reqs Machine.sequentially w c₀)
    (hw : Startable env w) (hkind : (reqs i).replacesPassword = true) {u : User}
    (hu : (did c₀ i).userWrite = some u) (hunc : (did c₀ i).committed = false)
    (hseq : Machine.sequentially c₀ (.act i ch : Label ι Choice ℕ))
    (hs : (machine env ι).step c₀ (.act i ch) = some c) (hc : (did c i).committed = true) :
    CutOff env reqs u.id.value i c c := by
  obtain ⟨k, ht, hafter⟩ := step_committed hs hunc hc
  have hunstarted : ∀ j, c.hist j = [] → did c j = {} := fun j hj => by rw [did, hj, progress_nil]
  refine ⟨hc, fun j a hj hne => ?_, fun sid row hrow hid hlive => ?_, fun j hj s hmem => ?_,
    fun token hch => Or.inl hch, fun j hj token raw st hget => ?_⟩
  · -- no other request was in flight at the commit
    rw [hafter, threads_afterCall_ne hne] at hj
    have hnil : c₀.hist j = [] := by
      by_contra hhist
      exact hseq j hne ⟨hhist, a, hj⟩
    rw [hafter]
    exact (Function.update_of_ne hne _ _).trans hnil
  · rw [hafter, afterCall_shared, commit_session] at hrow
    exact absurd ((revoked_by_change h hw hkind hu ht hrow hid).symm.trans hlive) (by simp)
  · rw [hunstarted j hj] at hmem
    exact absurd hmem List.not_mem_nil
  · rw [hunstarted j hj] at hget
    exact absurd hget List.not_mem_nil

/-- **A password change cuts off everything proved with the old password.** Once a request
that replaces the password of account `u` has committed, every session of the account that a
later request creates or refreshes descends from a password check made after the commit, as
long as no request reads a challenge of the account that was pending at the commit. -/
theorem password_change_cuts_off {c₀ c' : Cfg ι} (h : Runs env reqs Machine.sequentially w c₀)
    (hw : Startable env w) (hkind : (reqs i).replacesPassword = true) {u : User}
    (hu : (did c₀ i).userWrite = some u) (hunc : (did c₀ i).committed = false)
    (hseq : Machine.sequentially c₀ (.act i ch : Label ι Choice ℕ))
    (hs : (machine env ι).step c₀ (.act i ch) = some c) (hc : (did c i).committed = true)
    (h' : Later env (sinceChange env u.id.value c) c c') {j : ι} (hidle : c.hist j = [])
    {s : SessionAggregate} (hdone : (did c' j).committed = true) (hid : s.userId = u.id)
    (hsess : (did c' j).added = some s ∨ s ∈ (did c' j).updated ∧ s.isRevoked = false) :
    Descends env reqs u.id.value c c' s.sessionId := by
  have hr : Runs env reqs Machine.sequentially w c := Machine.Reach.tail h hseq hs
  have hcut : CutOff env reqs u.id.value i c c := cutOff_start h hw hkind hu hunc hseq hs hc
  have hcut' : CutOff env reqs u.id.value i c c' := by
    refine Later.induction_within (fun _ _ hl => hl.1) h' hr (CutOff env reqs u.id.value i c)
      hcut ?_ ?_ ?_
    · exact fun d i' ch o k y w' hr ih hC ht hal he => ih.call hkind hr hw hC.2 ht hal he
    · intro d i' ch y _ ih _ _ _
      exact ⟨ih.changed, fun j a hj => ih.fresh j a (threads_left hj), ih.rows, ih.read,
        ih.entries, ih.gets⟩
    · exact fun d t _ ih _ => ⟨ih.changed, ih.fresh, ih.rows, ih.read, ih.entries, ih.gets⟩
  have hco := (hr.later (h'.mono fun _ _ hl => hl.1)).coherent j
  rcases hsess with hadd | ⟨hup, hlive⟩
  · refine ⟨j, s, hdone, hadd, rfl, ?_⟩
    rcases hcut'.granted hidle hco hadd (congrArg UserID.value hid) with hlogin |
      ⟨token, code, hreq, hissued⟩
    · exact Or.inl ⟨hidle, hdone, hlogin⟩
    · exact Or.inr ⟨hidle, token, code, hreq, hissued⟩
  · rcases (hco.updated s hup).cases with ⟨htrue, -⟩ | ⟨-, t, s₀, -, hx⟩
    · exact absurd (htrue.symm.trans hlive) (by simp)
    · obtain ⟨presented, new, now, hread, hlive₀, -, -, -, -, rfl⟩ := hx
      exact hcut'.read j hidle s₀ hread (congrArg UserID.value hid) hlive₀

/-- Without a completion, no request reads a challenge at all. -/
theorem Runs.sinceChange {c' : Cfg ι} (h : Runs env reqs Machine.sequentially w d)
    (hno : ∀ i token code, reqs i ≠ .completeTwoFactor token code)
    (h' : Later env Machine.sequentially d c') : Later env (sinceChange env x c) d c' := by
  induction h' with
  | refl => exact .refl
  | @tail d₁ d₂ l hr hl hs ih =>
      refine ih.tail ⟨hl, ?_⟩ hs
      cases l with
      | env t => trivial
      | act i ch =>
          intro token k ht
          have hal := (h.later hr).allowed ht
          cases hq : reqs i with
          | completeTwoFactor token' code => exact absurd hq (hno i token' code)
          | _ =>
              rw [hq] at hal
              exact absurd hal id

end Steps

/-! ### After a password change -/

/-- The password the account changes to. -/
def newPassword : String := "Battery-Staple-7"

/-- A password change, and a request that comes after it. -/
def changeThen (r : Request) : Fin 2 → Request
  | 0 => .changePassword Reference.aliceId Reference.password newPassword
  | 1 => r

/-- The two requests, about to start. -/
def changeThenStart (secondFactor : Bool) (r : Request) : Cfg (Fin 2) :=
  start Reference.env (changeThen r)
    (Reference.world (Fin 2) (Reference.tables (Reference.alice secondFactor) false)
      pendingChallenge)

/-- A login with the new password. -/
def newLogin : Request := .login { username := some "alice", password := newPassword }

/-- The session of a login with the new password descends from it. -/
theorem new_password_descends : ∃ c₀,
    (machine Reference.env (Fin 2)).run (changeThenStart false newLogin)
        (Reference.moves 0 5) = some c₀ ∧
      ∃ c, (machine Reference.env (Fin 2)).run c₀ (Reference.moves 0 1) = some c ∧
      ∃ c', (machine Reference.env (Fin 2)).run c
        (Reference.moves 0 1 ++ Reference.moves 1 14) = some c' ∧
      ∃ s, (did c' 1).added = some s ∧
        Descends Reference.env (changeThen newLogin) Reference.aliceId c c' s.sessionId := by
  obtain ⟨c₀, h₀, ⟨hu, hunc⟩, c, h₁, ⟨hc, hidle⟩, c', h₂, hdone, hadd⟩ :
      ∃ c₀, (machine Reference.env (Fin 2)).run (changeThenStart false newLogin)
          (Reference.moves 0 5) = some c₀ ∧
        ((did c₀ 0).userWrite.any (fun u => u.id.value = Reference.aliceId) = true ∧
          (did c₀ 0).committed = false) ∧
        ∃ c, (machine Reference.env (Fin 2)).run c₀ (Reference.moves 0 1) = some c ∧
          ((did c 0).committed = true ∧ c.hist 1 = []) ∧
          ∃ c', (machine Reference.env (Fin 2)).run c
              (Reference.moves 0 1 ++ Reference.moves 1 14) = some c' ∧
            (did c' 1).committed = true ∧
              (did c' 1).added.any (fun s => s.userId.value = Reference.aliceId) = true := by
    decide +kernel
  have hsteps : (machine Reference.env (Fin 2)).RunsWith Machine.sequentially
      (changeThenStart false newLogin) (Reference.moves 0 5 ++ (Reference.moves 0 1 ++
        (Reference.moves 0 1 ++ Reference.moves 1 14))) := by
    decide +kernel
  obtain ⟨hsteps₀, hsteps₁⟩ := hsteps.split h₀
  obtain ⟨hsteps₁, hsteps₂⟩ := hsteps₁.split h₁
  have hr₀ : Runs Reference.env (changeThen newLogin) Machine.sequentially _ c₀ :=
    Machine.reach_of_run hsteps₀ h₀
  have hr₁ := hr₀.later (Machine.reach_of_run hsteps₁ h₁)
  obtain ⟨u, hu, hux⟩ := (Option.any_eq_true _ _).mp hu
  obtain ⟨s, hs, hsx⟩ := (Option.any_eq_true _ _).mp hadd
  have hux : u.id.value = Reference.aliceId := of_decide_eq_true hux
  have hsx : s.userId.value = Reference.aliceId := of_decide_eq_true hsx
  have hno : ∀ i token code, changeThen newLogin i ≠ .completeTwoFactor token code := by
    intro i token code
    match i with
    | 0 => simp [changeThen]
    | 1 => simp [changeThen, newLogin]
  have hlater := hr₁.sinceChange (x := u.id.value) (c := c) hno
    (Machine.reach_of_run hsteps₂ h₂)
  have hdesc := password_change_cuts_off (i := 0) (j := 1) hr₀
    (reference_startable (Fin 2) rfl false pendingChallenge) rfl hu hunc hsteps₁.1
    ((Machine.run_singleton _ _ _).symm.trans h₁) hc hlater hidle hdone
    (UserID.ext (hsx.trans hux.symm)) (Or.inl hs)
  rw [hux] at hdesc
  exact ⟨c₀, h₀, c, h₁, c', h₂, s, hs, hdesc⟩

/-- A completion of the challenge that was pending. -/
def oldChallenge : Request := .completeTwoFactor challengeToken rightCode

/-- A challenge that was pending when the password was changed yields a session afterwards,
and no login has been made since. -/
theorem old_challenge_survives : ∃ c,
    (machine Reference.env (Fin 2)).run (changeThenStart true oldChallenge)
        (Reference.moves 0 6) = some c ∧ (did c 0).committed = true ∧
      ∃ c', (machine Reference.env (Fin 2)).run c
        (Reference.moves 0 1 ++ Reference.moves 1 17) = some c' ∧
      (machine Reference.env (Fin 2)).RunsWith Machine.sequentially c
        (Reference.moves 0 1 ++ Reference.moves 1 17) ∧
      c.hist 1 = [] ∧ (did c' 1).committed = true ∧
      ∃ s, (did c' 1).added = some s ∧ s.userId.value = Reference.aliceId ∧
        ¬ Descends Reference.env (changeThen oldChallenge) Reference.aliceId c c'
          s.sessionId := by
  obtain ⟨c, h₁, hc, c', h₂, hseq, hidle, hdone, hadd⟩ :
      ∃ c, (machine Reference.env (Fin 2)).run (changeThenStart true oldChallenge)
          (Reference.moves 0 6) = some c ∧ (did c 0).committed = true ∧
        ∃ c', (machine Reference.env (Fin 2)).run c
            (Reference.moves 0 1 ++ Reference.moves 1 17) = some c' ∧
          (machine Reference.env (Fin 2)).RunsWith Machine.sequentially c
            (Reference.moves 0 1 ++ Reference.moves 1 17) ∧
          c.hist 1 = [] ∧ (did c' 1).committed = true ∧
          (did c' 1).added.any (fun s => s.userId.value = Reference.aliceId) = true := by
    decide +kernel
  obtain ⟨s, hs, hsx⟩ := (Option.any_eq_true _ _).mp hadd
  refine ⟨c, h₁, hc, c', h₂, hseq, hidle, hdone, s, hs, of_decide_eq_true hsx, ?_⟩
  have hnone : ∀ i, ¬ LoggedInSince Reference.env (changeThen oldChallenge) Reference.aliceId
      c c' i := by
    rintro i ⟨-, -, data, _, hlogin, -⟩
    match i with
    | 0 => cases hlogin
    | 1 => cases hlogin
  rintro ⟨i, _, -, -, -, hlogin | ⟨-, _, _, -, l, _, hlogin, -⟩⟩
  · exact hnone i hlogin
  · exact hnone l hlogin

end BackendTemplate
