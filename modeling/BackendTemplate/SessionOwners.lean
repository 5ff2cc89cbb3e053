import BackendTemplate.Consistency

/-!
# Whose a Session Is

A login that asks for no second factor, and the completion of one that does, answer with the id of
the session they have opened. The id outlives the answer: it goes into the context of a login that
Hydra is told about, and from there into access tokens. What makes that safe is that an id once
given to a session of an account is never given to a session of another, not even after
`MaintenanceWorker` has deleted the row (`World.Owns`).

## Main results

* `Runs.owns`, `World.Owns.purge` — requests and purges keep whose a session is.
* `Runs.opened` — a session that a request has committed is stored for its account.
* `Runs.login_session` — the session a login answers with is the one it has opened.
-/

namespace BackendTemplate

open Atomic Atomic.Prog

/-- The session is stored, for this account. -/
def Db.Holds (db : Db) (sid x : Uuid) : Prop := ∃ row, db.session sid = some row ∧ row.userId = x

/-- **The session is the account's, for good**: no session of this id is stored for another
account, and the id will not be drawn again. -/
structure World.Owns {ι : Type} (env : Env) (w : World ι) (sid x : Uuid) : Prop where
  owner : ∀ row, w.db.session sid = some row → row.userId = x
  unborn : ∀ n, w.rng ≤ n → env.uuid4 n ≠ sid

section Requests

variable {env : Env} {ι : Type} [Fintype ι] [DecidableEq ι] {reqs : ι → Request} {C : Steps ι}
  {w w' : World ι} {c : Cfg ι} {i : ι} {sid x : Uuid}

/-! ### What requests keep -/

omit [Fintype ι] [DecidableEq ι] in
/-- A session that is stored is its account's. -/
theorem Startable.owns (hw : Startable env w) (h : w.db.Holds sid x) : w.Owns env sid x := by
  obtain ⟨row, hrow, rfl⟩ := h
  refine ⟨fun row' hrow' => ?_, hw.unborn sid (Or.inr (Or.inl ?_))⟩
  · rw [Option.some.inj (hrow'.symm.trans hrow)]
  · exact Keyed.key_of_lookup hrow ▸ List.mem_map_of_mem (Keyed.mem_of_lookup hrow)

omit [Fintype ι] in
/-- A commit keeps a session that is stored. -/
theorem Db.Holds.commit (h : w.db.Holds sid x) (i : ι) : (w.commit env i).db.Holds sid x := by
  obtain ⟨row, hrow, rfl⟩ := h
  obtain ⟨row', hrow', hu⟩ := view_session_some (w.pending i) hrow
  exact ⟨row', (commit_session env w i sid).trans hrow', hu⟩

/-- Every call keeps a session that is stored. -/
theorem Db.Holds.call (h : w.db.Holds sid x) {ch : Choice} {o : Op} {y : o.Res}
    (he : exec env ch i o w = some (y, w')) : w'.db.Holds sid x := by
  by_cases ho : o = .commit
  · subst ho
    rcases exec_commit he with ⟨rfl, rfl⟩ | ⟨rfl, rfl⟩
    · exact h
    · exact h.commit i
  · exact (exec_db ho he).1 ▸ h

omit [Fintype ι] in
/-- **A commit keeps whose a session is**, when its request has not drawn the id. -/
theorem World.Owns.commit (h : c.shared.Owns env sid x) {r : Request} (ho : Open env r c i)
    (hnot : sid ∉ (did c i).drawn) : (c.shared.commit env i).Owns env sid x where
  owner row hrow := by
    rw [commit_session] at hrow
    cases hold : c.shared.db.session sid with
    | some row₀ =>
        obtain ⟨row', hrow', hu⟩ := view_session_some (c.shared.pending i) hold
        obtain rfl := Option.some.inj (hrow'.symm.trans hrow)
        exact hu.trans (h.owner _ hold)
    | none =>
        obtain ⟨s, hs, rfl, -⟩ := ho.new_session hold hrow
        exact absurd (ho.coherent.added s hs).2.1 hnot
  unborn n hn := h.unborn n (le_trans (Nat.le_add_right _ _) hn)

/-- **A call keeps whose a session is**, when the ids its request has drawn before it commits are
other ones. -/
theorem World.Owns.call (h : c.shared.Owns env sid x) {ch : Choice} {o : Op} {y : o.Res}
    (ho : o = .commit → Open env (reqs i) c i ∧ sid ∉ (did c i).drawn)
    (he : exec env ch i o c.shared = some (y, w')) : w'.Owns env sid x := by
  by_cases hc : o = .commit
  · subst hc
    rcases exec_commit he with ⟨rfl, rfl⟩ | ⟨rfl, rfl⟩
    · exact ⟨h.owner, h.unborn⟩
    · exact h.commit (ho rfl).1 (ho rfl).2
  · obtain ⟨hdb, hrng⟩ := exec_db hc he
    exact ⟨hdb ▸ h.owner, fun n hn => h.unborn n (le_trans hrng hn)⟩

/-- A draw is not the id of a session that somebody owns. -/
theorem World.Owns.not_drawn (h : w.Owns env sid x) {p : Progress} {ch : Choice} {o : Op}
    {y : o.Res} (he : exec env ch i o w = some (y, w')) (hnot : sid ∉ p.drawn) :
    sid ∉ (p.note o y).drawn := by
  by_cases ho : o = .uuid4
  · subst ho
    simp only [exec, Option.some.injEq, Prod.mk.injEq] at he
    obtain ⟨rfl, -⟩ := he
    intro hin
    rcases List.mem_cons.mp hin with hnew | hold
    · exact h.unborn w.rng le_rfl hnew.symm
    · exact hnot hold
  · rw [note_drawn p ho]
    exact hnot

/-- **Requests keep whose a session is**, in every interleaving. -/
theorem Runs.owns (h : Runs env reqs C w c) (hw : Startable env w) (ho : w.Owns env sid x) :
    c.shared.Owns env sid x := by
  -- the requests of this run do not draw the id
  refine (h.induction (fun c => c.shared.Owns env sid x ∧ ∀ i, sid ∉ (did c i).drawn)
    ⟨ho, fun i => List.not_mem_nil⟩ ?_ ?_ ?_).1
  · intro c i ch o k y w' hr ⟨ih, hnot⟩ _ ht hal he
    constructor
    · have hcommit : o = .commit → Open env (reqs i) c i ∧ sid ∉ (did c i).drawn := by
        rintro rfl
        exact ⟨hr.isOpen hw ht hal.1, hnot i⟩
      exact ih.call hcommit he
    · intro j
      by_cases hji : j = i
      · subst hji
        rw [did_afterCall_self]
        exact ih.not_drawn he (hnot j)
      · rw [did_afterCall_ne hji]
        exact hnot j
  · exact fun c i ch y _ ih _ _ _ => ⟨⟨ih.1.owner, ih.1.unborn⟩, ih.2⟩
  · exact fun c d _ ih _ => ⟨⟨ih.1.owner, ih.1.unborn⟩, ih.2⟩

omit [Fintype ι] [DecidableEq ι] in
/-- The purge deletes sessions and gives none to another account. -/
theorem World.Owns.purge (h : w.Owns env sid x) (hk : w.db.Keyed) (config : MaintenanceConfig) :
    (w.purge config).Owns env sid x := by
  rw [World.purge]
  split
  · exact h
  · exact ⟨fun row hrow => h.owner row ((purge_session hk).mp hrow).1, h.unborn⟩

/-! ### Opening a session -/

omit [Fintype ι] in
/-- **The commit of the request that has inserted a session** stores it for its account. -/
theorem Open.opens {r : Request} (ho : Open env r c i) {s : SessionAggregate}
    (hs : (did c i).added = some s) :
    (c.shared.commit env i).db.Holds s.sessionId s.userId.value := by
  obtain ⟨-, hsid, ⟨t, ht, -⟩, -⟩ := ho.coherent.added s hs
  obtain ⟨⟨row, hrow, -⟩, -⟩ := ho.inserted hs ht
  obtain ⟨s', hs', -, hu⟩ := ho.new_session (ho.no_session hsid) hrow
  obtain rfl := Option.some.inj (hs.symm.trans hs')
  exact ⟨row, (commit_session env c.shared i _).trans hrow, hu⟩

/-- **A session that a request has committed** is stored for its account, whatever the other
requests do. -/
theorem Runs.opened (h : Runs env reqs C w c) (hw : Startable env w)
    (hc : (did c i).committed = true) {s : SessionAggregate} (hs : (did c i).added = some s) :
    c.shared.db.Holds s.sessionId s.userId.value := by
  revert hc s
  refine h.induction (fun c => (did c i).committed = true → ∀ {s}, (did c i).added = some s →
    c.shared.db.Holds s.sessionId s.userId.value) ?_ ?_ ?_ ?_
  · exact fun hc => absurd hc (by simp)
  · intro c j ch o k y w' hr ih _ ht hal he hc s hs
    by_cases hij : i = j
    · subst hij
      rw [did_afterCall_self] at hc hs
      rcases of_note_committed hc with hold | rfl
      · exact (ih hold ((note_sameWrites _ (hal.no_write hold) y).2.2.1.symm.trans hs)).call he
      · rcases exec_commit he with ⟨rfl, rfl⟩ | ⟨rfl, rfl⟩
        · exact absurd (hal.1.symm.trans hc) (by simp)
        · exact (hr.isOpen hw ht hal.1).opens hs
    · rw [did_afterCall_ne hij] at hc hs
      exact (ih hc hs).call he
  · exact fun c j ch y _ ih _ _ _ => ih
  · exact fun c d _ ih _ => ih

/-! ### What a login answers with -/

/-- An answer to a login names the session that was inserted, unless it asks for a second factor. -/
def NamesSession (env : Env) (p : Progress) (y : Except AppError Response) : Prop :=
  ∀ out, y = .ok (.loggedIn out) → out.requiresTwoFactor = false →
    ∃ s, p.added = some s ∧ out.sessionId = some (env.uuidStr s.sessionId)

/-- The end of a login, after `p`: whatever is answered to its calls, it names the session. -/
def Names (env : Env) (p : Progress) (a : Act Response) : Prop :=
  a.Obeys Progress.note (fun _ _ => True) (fun _ _ => True) (NamesSession env) p

theorem namesSession_error {p : Progress} (e : AppError) : NamesSession env p (.error e) := by
  rintro out ⟨⟩

/-- A program keeps a postcondition that every end satisfies. -/
theorem obeys_always {α : Type} {post : Progress → Except AppError α → Prop} (a : Act α)
    (h : ∀ p y, post p y) (p : Progress) :
    a.Obeys Progress.note (fun _ _ => True) (fun _ _ => True) post p := by
  induction a generalizing p with
  | ret v => exact h p _
  | raise e => exact h p _
  | call o k ih => exact ⟨trivial, fun y _ => ih y _⟩

/-- What comes before the end does not matter. -/
theorem Names.bind {β : Type} {p : Progress} (a : Act β) {f : β → Act Response}
    (hf : ∀ p v, Names env p (f v)) : Names env p (a >>= f) := by
  refine (obeys_bind _ a f).mpr (obeys_always a (fun p y => ?_) p)
  cases y with
  | ok v => exact hf p v
  | error e => exact namesSession_error e

/-- A commit keeps the session that was inserted, or raises. -/
theorem names_commit {p : Progress} {a : Act Response}
    (ha : Names env { p with committed := true } a) : Names env p (commit >>= fun _ => a) := by
  refine ⟨trivial, fun y _ => ?_⟩
  cases y with
  | error e => exact namesSession_error e
  | ok u => exact ha

/-- **A login that opens a session names it.** -/
theorem names_grantLogin {p : Progress} (user : User) (session : SessionAggregate)
    (refreshToken : Option String) : Names env p (grantLogin env user session refreshToken) := by
  refine ⟨trivial, fun y _ => ?_⟩
  cases y with
  | error e => exact namesSession_error e
  | ok u =>
      -- the session has been inserted; its events are registered next
      refine ⟨trivial, fun _ _ => names_commit ?_⟩
      intro out hout _
      obtain rfl := Response.loggedIn.inj (Except.ok.inj hout)
      exact ⟨session, rfl, rfl⟩

/-- A login that asks for a second factor opens no session. -/
theorem names_challengeLogin {p : Progress} (data : LoginInput) (user : User)
    (deviceInfo : DeviceInfo) : Names env p (challengeLogin env data user deviceInfo) := by
  refine names_commit (Names.bind _ fun p token => ?_)
  intro out hout hno
  obtain rfl := Response.loggedIn.inj (Except.ok.inj hout)
  cases hno

/-- **Every login names the session it opens.** -/
theorem names_login (data : LoginInput) : Names env {} (login env data) := by
  refine Names.bind _ fun p _ => Names.bind _ fun p password => Names.bind _ fun p result => ?_
  obtain ⟨_ | user, _ | session, token⟩ := result
  · exact Names.bind _ fun p _ => namesSession_error _
  · exact Names.bind _ fun p _ => namesSession_error _
  · exact Names.bind _ fun p _ => Names.bind _ fun p _ => Names.bind _ fun p _ =>
      Names.bind _ fun p _ => namesSession_error _
  · refine Names.bind _ fun p _ => ?_
    split
    · exact names_challengeLogin data user _
    · exact names_grantLogin user session token

/-- **The session a login answers with** is the one it has opened. -/
theorem Runs.login_session (h : Runs env reqs C w c) {data : LoginInput}
    (hr : reqs i = .login data) {out : LoginOutput}
    (hx : c.threads i = .done (.ok (.loggedIn out))) (hno : out.requiresTwoFactor = false) :
    ∃ s, (did c i).added = some s ∧ out.sessionId = some (env.uuidStr s.sessionId) := by
  have hstart : Machine.Obeys (fun _ _ => True) (fun _ _ _ => True)
      (fun j hist y => (∃ data, reqs j = .login data) → NamesSession env (progress hist) y)
      (start env reqs w) := by
    refine Machine.obeys_start fun j => ?_
    have hpart : (program env (reqs j)).Obeys Progress.note (fun _ _ => True) (fun _ _ => True)
        (fun p y => (∃ data, reqs j = .login data) → NamesSession env p y) {} := by
      by_cases hj : ∃ data, reqs j = .login data
      · obtain ⟨data, hj⟩ := hj
        rw [hj]
        exact (names_login data).mono (fun _ _ _ => trivial) fun _ _ hy _ => hy
      · exact obeys_always _ (fun _ _ hj' => absurd hj' hj) _
    exact Obeys.pull (f := progress) (t := []) (fun _ _ _ => rfl) hpart
  have hends := Machine.Reach.obeys (fun _ _ _ _ _ _ _ => trivial) hstart h
  exact hends.done hx ⟨data, hr⟩ out rfl hno

end Requests

end BackendTemplate
