import BackendTemplate.Effects
import BackendTemplate.RbacAdditions

/-!
# Requests That Add to the Role Store at Once

Between the lookup of a unique key and its insertion anything can happen. As long as no request
commits a key that another one has found missing, no statement is refused
(`AdditionsInFlight`), and then requests fail with domain errors only. A request that loses the
race for a key ends with the `IntegrityError` of the database: no repository of roles translates
it, as `UserRepo` does.

## Main results

* `Additions.answer` — a call leaves an open transaction one, and is no fault.
* `additions_step` — so does any step at which no race is lost.
* `losers_get_domain_error` — along every run of such steps, a request succeeds or raises a domain
  error; `lost_races_refused` is what happens otherwise.
-/

namespace BackendTemplate

open Atomic Atomic.Prog

/-! ### Calls -/

/-- The keys a transaction has inserted, and those of the id it has drawn. -/
def owned (ws : List RowWrite) (t : InsertLog) : List RbacKey :=
  ws.flatMap RowWrite.inserts ++ t.drawn.toList.flatMap minted

/-- A user that is found is stored. -/
theorem RbacDb.acquireUser_some {db : RbacDb} {env : Env} {u : Uuid} {user : User}
    (h : db.acquireUser env u = .ok (some user)) : u ∈ db.users.map UserRow.id := by
  rw [RbacDb.acquireUser] at h
  cases hx : ({ users := db.users } : Db).acquireUser env (.id u) with
  | error e =>
      rw [hx] at h
      cases h
  | ok found =>
      rw [hx] at h
      obtain rfl : found = some user := Except.ok.inj h
      obtain ⟨row, hrow, hsel, -⟩ := BackendTemplate.acquireUser_some hx
      have hid : row.id = u := by simpa [UserQuery.selects] using hsel
      exact hid ▸ List.mem_map_of_mem hrow

/-- Every stored account can be decoded. -/
def RbacDb.Decodes (env : Env) (db : RbacDb) : Prop :=
  ∀ u, ∃ user, db.acquireUser env u = .ok user

section Calls

variable {ι : Type} [DecidableEq ι] {env : Env} {commitFails : Bool} {i : ι} {w : RbacWorld ι}
variable {given : Option Uuid} {t : InsertLog}

/-- **A call before the commit** leaves an open transaction one, and is no fault. -/
theorem Additions.answer (commitFails : Bool) (h : Additions w.db (w.pending i) t) {o : RbacOp}
    (hal : t.Allowed given o) (ho : o ≠ .commit)
    (hgiven : ∀ b ∈ given, b ∈ w.db.users.map UserRow.id) (hload : w.db.Decodes env)
    (hfresh : ∀ k ∈ minted (env.uuid4 w.rng),
      k ∉ w.db.keys ++ (w.pending i).flatMap RowWrite.inserts) :
    Additions w.db ((answer env commitFails i o w).2.pending i)
        (t.note o (answer env commitFails i o w).1) ∧
      ((t.note o (answer env commitFails i o w).1).Fault → t.Fault) := by
  have husers : (w.view i).users = w.db.users := (RbacDb.view_keys h.distinct h.adds).2.1
  have habsent : ∀ k, k ∉ (w.view i).keys →
      k ∉ w.db.keys ++ (w.pending i).flatMap RowWrite.inserts :=
    fun k hk hmem => hk ((h.mem_keys k).mpr hmem)
  cases o with
  | now => exact ⟨h, id⟩
  | permissionsOf r => exact ⟨h, id⟩
  | register events =>
      have hsame : (BackendTemplate.answer env commitFails i (.register events) w).2.pending i =
          w.pending i := by simp [BackendTemplate.answer, RbacWorld.track, RbacWorld.pending]
      rw [hsame]
      exact ⟨h, id⟩
  | uuid4 =>
      refine ⟨h.learn h.missing (fun x hx k hk => ?_) h.users h.roles h.ids rfl rfl h.current, id⟩
      obtain rfl := Option.some.inj hx
      exact hfresh k hk
  | acquireUser u =>
      change Additions w.db (w.pending i) (t.note (.acquireUser u) ((w.view i).acquireUser env u)) ∧
        ((t.note (.acquireUser u) ((w.view i).acquireUser env u)).Fault → t.Fault)
      have hsame : (w.view i).acquireUser env u = w.db.acquireUser env u := by
        rw [RbacDb.acquireUser, RbacDb.acquireUser, husers]
      obtain ⟨user, huser⟩ := hload u
      rw [hsame, huser]
      cases user with
      | none => exact ⟨h, id⟩
      | some user =>
          refine ⟨h.learn h.missing h.drawn (fun x hx => ?_) h.roles h.ids rfl rfl h.current, id⟩
          rcases List.mem_cons.mp hx with rfl | hx
          · exact RbacDb.acquireUser_some huser
          · exact h.users x hx
  | roleById r =>
      -- nothing written yet: the request sees the committed tables
      have hview : w.view i = w.db := by
        rw [RbacWorld.view]
        exact (congrArg (RowLocks.view RbacDb.apply w.db) (h.untouched hal)).trans rfl
      change Additions w.db (w.pending i) (t.note (.roleById r) ((w.view i).roleById r)) ∧
        ((t.note (.roleById r) ((w.view i).roleById r)).Fault → t.Fault)
      rw [hview]
      cases hrow : w.db.roleById r with
      | none => exact ⟨h, id⟩
      | some row =>
          refine ⟨h.learn h.missing h.drawn h.users (fun x hx => ?_) h.ids rfl rfl h.current, id⟩
          rcases List.mem_cons.mp hx with rfl | hx
          · exact Keyed.mem_of_lookup hrow
          · exact h.roles hx
  | roleByName n =>
      change Additions w.db (w.pending i) (t.note (.roleByName n) ((w.view i).roleByName n)) ∧
        ((t.note (.roleByName n) ((w.view i).roleByName n)).Fault → t.Fault)
      cases hrow : (w.view i).roleByName n with
      | some row => exact ⟨h, id⟩
      | none =>
          refine ⟨h.learn (fun k hk => ?_) h.drawn h.users h.roles h.ids rfl rfl h.current, id⟩
          obtain rfl := Option.some.inj hk
          refine habsent _ ?_
          rw [RbacDb.roleName_mem_keys]
          exact Keyed.lookup_eq_none.mp hrow
  | permissionByName n =>
      change Additions w.db (w.pending i)
          (t.note (.permissionByName n) ((w.view i).permissionByName n)) ∧
        ((t.note (.permissionByName n) ((w.view i).permissionByName n)).Fault → t.Fault)
      cases hrow : (w.view i).permissionByName n with
      | some row =>
          refine ⟨h.learn h.missing h.drawn h.users h.roles (fun x hx => ?_) rfl rfl h.current, id⟩
          rcases List.mem_cons.mp hx with rfl | hx
          · exact List.mem_map_of_mem (Keyed.mem_of_lookup hrow)
          · exact h.ids x hx
      | none =>
          refine ⟨h.learn (fun k hk => ?_) h.drawn h.users h.roles h.ids rfl rfl h.current, id⟩
          obtain rfl := Option.some.inj hk
          refine habsent _ ?_
          rw [RbacDb.permissionName_mem_keys]
          exact Keyed.lookup_eq_none.mp hrow
  | userRole u r =>
      change Additions w.db (w.pending i) (t.note (.userRole u r) ((w.view i).userRole u r)) ∧
        ((t.note (.userRole u r) ((w.view i).userRole u r)).Fault → t.Fault)
      cases hrow : (w.view i).userRole u r with
      | some row => exact ⟨h, id⟩
      | none =>
          refine ⟨h.learn (fun k hk => ?_) h.drawn h.users h.roles h.ids rfl rfl h.current, id⟩
          obtain rfl := Option.some.inj hk
          refine habsent _ ?_
          rw [RbacDb.assignment_mem_keys]
          simpa [RbacDb.userRole] using hrow
  | permissionIdsOf r =>
      obtain ⟨hheld, hlinked, -⟩ := hal
      refine ⟨h.learn h.missing h.drawn h.users h.roles h.ids rfl rfl
        fun r' hr cur hc p hp => ?_, id⟩
      obtain rfl := Option.some.inj (hheld.symm.trans hr)
      obtain rfl := Option.some.inj hc
      exact Or.inl (RbacDb.mem_permissionIdsOf.mpr hp)
  | execute st =>
      have hadm : (w.view i).admitsAll ((w.view i).rowWrites st) = true := h.admits hgiven hal
      rcases answer_execute env commitFails i w st with ⟨hok, -, hws⟩ | ⟨err, herr, -⟩
      · rw [hok, hws]
        refine ⟨h.executed hal, ?_⟩
        cases st <;> exact id
      · rw [BackendTemplate.answer, if_pos hadm] at herr
        cases herr
  | commit => exact absurd rfl ho

/-- What another call writes. -/
theorem answer_pending {o : RbacOp} (hst : ∀ st, o ≠ .execute st) (ho : o ≠ .commit) :
    (answer env commitFails i o w).2.pending i = w.pending i := by
  cases o with
  | execute st => exact absurd rfl (hst st)
  | commit => exact absurd rfl ho
  | register events => simp [BackendTemplate.answer, RbacWorld.track, RbacWorld.pending]
  | _ => rfl

/-- Only a draw advances the random source before the commit. -/
theorem answer_rng (env : Env) (commitFails : Bool) (i : ι) (w : RbacWorld ι) {o : RbacOp}
    (ho : o ≠ .commit) :
    w.rng ≤ (answer env commitFails i o w).2.rng ∧
      (o = .uuid4 → (answer env commitFails i o w).2.rng = w.rng + 1) := by
  cases o with
  | uuid4 => exact ⟨Nat.le_succ _, fun _ => rfl⟩
  | commit => exact absurd rfl ho
  | execute st =>
      refine ⟨?_, fun h => by cases h⟩
      rw [BackendTemplate.answer]
      split <;> exact le_rfl
  | _ => exact ⟨le_rfl, fun h => by cases h⟩

/-- A statement inserts rows under the id that was drawn. -/
theorem InsertLog.Executes.drawn {db : RbacDb} {st : Statement} (hst : t.Executes given st)
    {x : Uuid} {k : RbacKey} (hk : k ∈ minted x)
    (hmem : k ∈ (db.rowWrites st).flatMap RowWrite.inserts) :
    ∃ y ∈ t.drawn, k ∈ minted y := by
  have hid : ∀ k ∈ minted x, k = .role x ∨ k = .permission x := by simp [minted]
  obtain ⟨w, hw, hkw⟩ := List.mem_flatMap.mp hmem
  cases st with
  | insertRole row =>
      refine ⟨row.id, hst.2, ?_⟩
      obtain rfl := List.mem_singleton.mp hw
      rcases List.mem_cons.mp hkw with rfl | hkw
      · exact List.mem_cons_self
      · rcases hid k hk with rfl | rfl <;> exact absurd (List.mem_singleton.mp hkw) (by simp)
  | insertPermission row =>
      refine ⟨row.id, hst.2, ?_⟩
      obtain rfl := List.mem_singleton.mp hw
      rcases List.mem_cons.mp hkw with rfl | hkw
      · exact List.mem_cons_of_mem _ List.mem_cons_self
      · rcases hid k hk with rfl | rfl <;> exact absurd (List.mem_singleton.mp hkw) (by simp)
  | insertUserRole row =>
      obtain rfl := List.mem_singleton.mp hw
      rcases hid k hk with rfl | rfl <;> exact absurd (List.mem_singleton.mp hkw) (by simp)
  | updateRole r name description =>
      obtain ⟨row, -, rfl⟩ := List.mem_map.mp hw
      exact absurd hkw List.not_mem_nil
  | deleteRolePermissions r ids =>
      obtain ⟨l, -, rfl⟩ := List.mem_map.mp hw
      exact absurd hkw List.not_mem_nil
  | insertRolePermission r p =>
      obtain rfl := List.mem_singleton.mp hw
      exact absurd hkw List.not_mem_nil
  | _ => exact absurd hst id

theorem mem_owned {ws : List RowWrite} {k : RbacKey} :
    k ∈ owned ws t ↔ k ∈ ws.flatMap RowWrite.inserts ∨ ∃ x ∈ t.drawn, k ∈ minted x := by
  have hdrawn : k ∈ t.drawn.toList.flatMap minted ↔ ∃ x ∈ t.drawn, k ∈ minted x := by
    simp [List.mem_flatMap]
  rw [owned, List.mem_append, hdrawn]

/-- A call that neither draws nor writes keeps the id that was drawn. -/
theorem InsertLog.note_drawn {o : RbacOp} (hd : o ≠ .uuid4) (hst : ∀ st, o ≠ .execute st)
    (ho : o ≠ .commit) (x : o.Res) : (t.note o x).drawn = t.drawn := by
  unfold InsertLog.note
  split <;> first
    | rfl
    | exact absurd rfl hd
    | exact absurd rfl (hst _)
    | exact absurd rfl ho

/-- **What a call adds to the ids of a request**: a draw adds one, and nothing else does. -/
theorem owned_answer (env : Env) (commitFails : Bool) (w : RbacWorld ι) {o : RbacOp}
    (hal : t.Allowed given o) (ho : o ≠ .commit) :
    (∀ x ∈ (t.note o (answer env commitFails i o w).1).drawn,
      x ∈ t.drawn ∨ o = .uuid4 ∧ x = env.uuid4 w.rng) ∧
    ∀ x, ∀ k ∈ minted x, k ∈ owned ((answer env commitFails i o w).2.pending i)
        (t.note o (answer env commitFails i o w).1) →
      k ∈ owned (w.pending i) t ∨ o = .uuid4 ∧ k ∈ minted (env.uuid4 w.rng) := by
  by_cases hst : ∃ st, o = .execute st
  · obtain ⟨st, rfl⟩ := hst
    have hdrawn : ∀ x ∈ (t.executed st).drawn, x ∈ t.drawn := by
      intro x hx
      cases st <;> first | exact hx | exact absurd hx (by simp [InsertLog.executed])
    rcases answer_execute env commitFails i w st with ⟨hok, -, hws⟩ | ⟨err, herr, hw⟩
    · rw [hok, hws]
      refine ⟨fun x hx => Or.inl (hdrawn x hx), fun x k hk hmem => Or.inl ?_⟩
      rw [mem_owned, List.flatMap_append, List.mem_append] at hmem
      rw [mem_owned]
      rcases hmem with (hmem | hmem) | ⟨y, hy, hky⟩
      · exact Or.inl hmem
      · exact Or.inr (hal.drawn hk hmem)
      · exact Or.inr ⟨y, hdrawn y hy, hky⟩
    · rw [herr, hw]
      exact ⟨fun x hx => Or.inl hx, fun x k _ hmem => Or.inl hmem⟩
  · rw [not_exists] at hst
    rw [answer_pending hst ho]
    have hdrawn : ∀ x ∈ (t.note o (answer env commitFails i o w).1).drawn,
        x ∈ t.drawn ∨ o = .uuid4 ∧ x = env.uuid4 w.rng := by
      intro x hx
      by_cases hd : o = .uuid4
      · subst hd
        exact Or.inr ⟨rfl, (Option.some.inj hx).symm⟩
      · rw [InsertLog.note_drawn hd hst ho] at hx
        exact Or.inl hx
    refine ⟨hdrawn, fun x k _ hmem => ?_⟩
    rw [mem_owned] at hmem ⊢
    rcases hmem with hmem | ⟨y, hy, hky⟩
    · exact Or.inl (Or.inl hmem)
    · rcases hdrawn y hy with hy | ⟨ho, rfl⟩
      · exact Or.inl (Or.inr ⟨y, hy, hky⟩)
      · exact Or.inr ⟨ho, hky⟩

end Calls

/-! ### Transactions in flight -/

/-- What the history of a request amounts to. -/
def insertLog (h : Hist rbacCalls) : InsertLog := h.foldr (fun e t => t.note e.1 e.2) {}

section Flight

variable {ι : Type} {env : Env} {i : ι} {users : List UserRow} {given : Option Uuid}
variable {w w' : RbacWorld ι} {logs logs' : ι → InsertLog} {c : RbacCfg ι}

/-- What request `k` has done in configuration `c`. -/
def added (c : RbacCfg ι) (k : ι) : InsertLog := insertLog (c.hist k)

/-- **Drawn ids are new**: no value the random source has yet to give is an id, and the one a
request has drawn is the id of no row another one has inserted, nor one it has drawn. -/
structure IdsApart (env : Env) (w : RbacWorld ι) (logs : ι → InsertLog) : Prop where
  fresh : ∀ n, w.rng ≤ n → ∀ k ∈ minted (env.uuid4 n),
    k ∉ w.db.keys ∧ ∀ j, k ∉ owned (w.pending j) (logs j)
  apart : ∀ j j', j ≠ j' → ∀ x ∈ (logs j).drawn, ∀ k ∈ minted x,
    k ∉ owned (w.pending j') (logs j')

/-- No request draws. -/
theorem IdsApart.keep (h : IdsApart env w logs) (hrng : w.rng ≤ w'.rng)
    (hkeys : ∀ k ∈ w'.db.keys, k ∈ w.db.keys ∨ ∃ j, k ∈ owned (w.pending j) (logs j))
    (hdrawn : ∀ j, ∀ x ∈ (logs' j).drawn, x ∈ (logs j).drawn)
    (howned : ∀ j x, ∀ k ∈ minted x, k ∈ owned (w'.pending j) (logs' j) →
      k ∈ owned (w.pending j) (logs j)) : IdsApart env w' logs' where
  fresh n hn k hk := by
    obtain ⟨hdb, hothers⟩ := h.fresh n (hrng.trans hn) k hk
    refine ⟨fun hmem => ?_, fun j hmem => hothers j (howned j _ k hk hmem)⟩
    rcases hkeys k hmem with hmem | ⟨j, hmem⟩
    · exact hdb hmem
    · exact hothers j hmem
  apart j j' hj x hx k hk hmem := h.apart j j' hj x (hdrawn j x hx) k hk (howned j' x k hk hmem)

theorem minted_inj {x y : Uuid} {k : RbacKey} (hx : k ∈ minted x) (hy : k ∈ minted y) : x = y := by
  simp only [minted, List.mem_cons, List.not_mem_nil, or_false] at hx hy
  grind

/-- Request `i` draws. -/
theorem IdsApart.draw (h : IdsApart env w logs) (hrng : w'.rng = w.rng + 1)
    (hdb : w'.db = w.db)
    (hdrawn : ∀ j, ∀ x ∈ (logs' j).drawn, x ∈ (logs j).drawn ∨ j = i ∧ x = env.uuid4 w.rng)
    (howned : ∀ j x, ∀ k ∈ minted x, k ∈ owned (w'.pending j) (logs' j) →
      k ∈ owned (w.pending j) (logs j) ∨ j = i ∧ k ∈ minted (env.uuid4 w.rng)) :
    IdsApart env w' logs' where
  fresh n hn k hk := by
    rw [hrng] at hn
    obtain ⟨hkeys, hothers⟩ := h.fresh n (by omega) k hk
    refine ⟨hdb ▸ hkeys, fun j hmem => ?_⟩
    rcases howned j _ k hk hmem with hmem | ⟨-, hmem⟩
    · exact hothers j hmem
    · have := env.uuid4_injective (minted_inj hk hmem)
      omega
  apart j j' hj x hx k hk hmem := by
    have hnew : ∀ k ∈ minted (env.uuid4 w.rng), ∀ j, k ∉ owned (w.pending j) (logs j) :=
      fun k hk => (h.fresh w.rng le_rfl k hk).2
    rcases hdrawn j x hx with hx | ⟨rfl, rfl⟩
    · rcases howned j' x k hk hmem with hmem | ⟨-, hmem⟩
      · exact h.apart j j' hj x hx k hk hmem
      · exact hnew k hmem j (mem_owned.mpr (Or.inr ⟨x, hx, hk⟩))
    · rcases howned j' _ k hk hmem with hmem | ⟨hji, -⟩
      · exact hnew k hk j' hmem
      · exact hj hji.symm

/-- **The invariant of requests that add to the store**: no two of them hold the same row, each one
that runs is an open transaction of its kind, and none has had a fault. -/
structure AdditionsInFlight (env : Env) (users : List UserRow) (c : RbacCfg ι) : Prop where
  exclusive : RowLocks.Exclusive RowWrite.keys c.shared.pending
  users : c.shared.db.users = users
  closed : ∀ k x, c.threads k = .done x → c.shared.pending k = []
  isOpen : ∀ k p, c.threads k = .running p →
    Additions c.shared.db (c.shared.pending k) (added c k)
  ids : IdsApart env c.shared (added c)
  sound : ∀ k, ¬ (added c k).Fault

/-- The key a running request has found missing. -/
def awaited (c : RbacCfg ι) (k : ι) : Option RbacKey :=
  match c.threads k with
  | .running _ => (added c k).missing
  | .done _ => none

theorem atCommit_of_running {k : Except RbacError Unit → RbacAct (Option RoleOutput)}
    (ht : c.threads i = .running (.call RbacOp.commit k)) : atCommit c i = true :=
  atCommit_iff.mpr (Config.next_eq_some.mpr ⟨k, ht⟩)

/-- **No race is lost at this step**: the database accepts the commit, if it is one, and no other
request has found a key missing that the commit puts there. -/
def RaceFree (c : RbacCfg ι) : Label ι Bool ℕ → Prop
  | .act i commitFails => atCommit c i = true → commitFails = false ∧
      ∀ j, j ≠ i → ∀ k ∈ awaited c j, ¬ RowLocks.Holds RowWrite.keys (c.shared.pending i) k
  | .env _ => True

instance [Fintype ι] [DecidableEq ι] (c : RbacCfg ι) : DecidablePred (RaceFree c)
  | .act i commitFails => inferInstanceAs (Decidable (atCommit c i = true → commitFails = false ∧
      ∀ j, j ≠ i → ∀ k ∈ awaited c j, ¬ RowLocks.Holds RowWrite.keys (c.shared.pending i) k))
  | .env _ => inferInstanceAs (Decidable True)

section Steps

variable [DecidableEq ι]

theorem added_afterCall (c : RbacCfg ι) (i : ι) (o : RbacOp) (x : o.Res)
    (p : RbacAct (Option RoleOutput)) (w : RbacWorld ι) :
    added (Machine.afterCall c i o x p w) = Function.update (added c) i ((added c i).note o x) := by
  funext k
  by_cases hk : k = i
  · subst hk
    rw [Function.update_self, added]
    change insertLog (Function.update c.hist k (⟨o, x⟩ :: c.hist k) k) = _
    rw [Function.update_self]
    rfl
  · rw [Function.update_of_ne hk, added]
    change insertLog (Function.update c.hist i (⟨o, x⟩ :: c.hist i) k) = _
    rw [Function.update_of_ne hk]
    rfl

/-- A call before the commit. -/
theorem AdditionsInFlight.call (h : AdditionsInFlight env users c) {o : RbacOp}
    {k : o.Res → RbacAct (Option RoleOutput)} (ht : c.threads i = .running (.call o k))
    (hal : (added c i).Allowed given o) (ho : o ≠ .commit) (hwait : ¬ c.shared.Waits i o)
    (hgiven : ∀ b ∈ given, b ∈ users.map UserRow.id) (hload : c.shared.db.Decodes env)
    (commitFails : Bool) :
    AdditionsInFlight env users (Machine.afterCall c i o (answer env commitFails i o c.shared).1
      (k (answer env commitFails i o c.shared).1) (answer env commitFails i o c.shared).2) := by
  have hfresh := h.ids.fresh c.shared.rng le_rfl
  have hnew : ∀ k ∈ minted (env.uuid4 c.shared.rng),
      k ∉ c.shared.db.keys ++ (c.shared.pending i).flatMap RowWrite.inserts := by
    intro k hk hmem
    obtain ⟨hdb, hown⟩ := hfresh k hk
    rcases List.mem_append.mp hmem with hmem | hmem
    · exact hdb hmem
    · exact hown i (mem_owned.mpr (Or.inl hmem))
  obtain ⟨hans, hfault⟩ := (h.isOpen i _ ht).answer commitFails hal ho
    (h.users.symm ▸ hgiven) hload hnew
  obtain ⟨hdrawn, howned⟩ := owned_answer env commitFails c.shared hal ho
  obtain ⟨hrng, hdraw⟩ := answer_rng env commitFails i c.shared ho
  set x := (answer env commitFails i o c.shared).1
  set w' := (answer env commitFails i o c.shared).2
  have hdb : w'.db = c.shared.db := answer_db ho
  have hpending : ∀ j, j ≠ i → w'.pending j = c.shared.pending j :=
    fun j hj => answer_pending_ne hj o
  -- what the logs and the rows of all requests become
  have hdrawn' : ∀ j, ∀ y ∈ (added (Machine.afterCall c i o x (k x) w') j).drawn,
      y ∈ (added c j).drawn ∨ j = i ∧ o = .uuid4 ∧ y = env.uuid4 c.shared.rng := by
    intro j y hy
    rw [added_afterCall] at hy
    by_cases hj : j = i
    · subst hj
      rw [Function.update_self] at hy
      exact (hdrawn y hy).imp_right fun h => ⟨rfl, h⟩
    · rw [Function.update_of_ne hj] at hy
      exact Or.inl hy
  have howned' : ∀ j y, ∀ key ∈ minted y,
      key ∈ owned (w'.pending j) (added (Machine.afterCall c i o x (k x) w') j) →
        key ∈ owned (c.shared.pending j) (added c j) ∨
          j = i ∧ o = .uuid4 ∧ key ∈ minted (env.uuid4 c.shared.rng) := by
    intro j y key hkey hmem
    rw [added_afterCall] at hmem
    by_cases hj : j = i
    · subst hj
      rw [Function.update_self] at hmem
      exact (howned y key hkey hmem).imp_right fun h => ⟨rfl, h⟩
    · rw [Function.update_of_ne hj, hpending j hj] at hmem
      exact Or.inl hmem
  refine ⟨exclusive_answer h.exclusive hwait, (congrArg RbacDb.users hdb).trans h.users,
    fun j y hy => ?_, fun j p hp => ?_, ?_, fun j => ?_⟩
  · have hj : j ≠ i := by
      rintro rfl
      simp [Machine.afterCall] at hy
    refine (hpending j hj).trans (h.closed j y ?_)
    simpa [Machine.afterCall, hj] using hy
  · change Additions w'.db (w'.pending j) _
    rw [hdb, added_afterCall]
    by_cases hj : j = i
    · subst hj
      rw [Function.update_self]
      exact hans
    · rw [Function.update_of_ne hj, hpending j hj]
      refine h.isOpen j p ?_
      simpa [Machine.afterCall, hj] using hp
  · by_cases hd : o = .uuid4
    · exact h.ids.draw (hdraw hd) hdb
        (fun j y hy => (hdrawn' j y hy).imp_right fun h => ⟨h.1, h.2.2⟩)
        fun j y key hkey hmem => (howned' j y key hkey hmem).imp_right fun h => ⟨h.1, h.2.2⟩
    · refine h.ids.keep hrng (fun key hkey => Or.inl (hdb ▸ hkey)) (fun j y hy => ?_)
        fun j y key hkey hmem => ?_
      · exact (hdrawn' j y hy).resolve_right fun h => hd h.2.1
      · exact (howned' j y key hkey hmem).resolve_right fun h => hd h.2.1
  · rw [added_afterCall]
    by_cases hj : j = i
    · subst hj
      rw [Function.update_self]
      exact fun hf => h.sound j (hfault hf)
    · rw [Function.update_of_ne hj]
      exact h.sound j

/-- A commit that the database accepts. -/
theorem AdditionsInFlight.commit (h : AdditionsInFlight env users c)
    {k : Except RbacError Unit → RbacAct (Option RoleOutput)} (p : RbacAct (Option RoleOutput))
    (ht : c.threads i = .running (.call RbacOp.commit k))
    (hfree : RaceFree c (.act i false)) :
    AdditionsInFlight env users
      (Machine.afterCall c i .commit (.ok ()) p (c.shared.commit i)) := by
  have hown := h.isOpen i _ ht
  obtain ⟨-, hfree⟩ := hfree (atCommit_of_running ht)
  have hpending : (c.shared.commit i).pending = Function.update c.shared.pending i [] :=
    pending_rollback c.shared i
  have hlog : added (Machine.afterCall c i .commit (.ok ()) p (c.shared.commit i)) =
      Function.update (added c) i {} := added_afterCall c i .commit (.ok ()) p _
  have hkeys : ∀ key, key ∈ (c.shared.commit i).db.keys ↔
      key ∈ c.shared.db.keys ++ (c.shared.pending i).flatMap RowWrite.inserts := hown.mem_keys
  refine ⟨?_, ?_, fun j x hx => ?_, fun j q hq => ?_, ?_, fun j => ?_⟩
  · change RowLocks.Exclusive RowWrite.keys (c.shared.commit i).pending
    rw [hpending]
    exact h.exclusive.clear
  · exact (RbacDb.view_keys hown.distinct hown.adds).2.1.trans h.users
  · change (c.shared.commit i).pending j = []
    rw [hpending]
    by_cases hj : j = i
    · rw [hj, Function.update_self]
    · rw [Function.update_of_ne hj]
      refine h.closed j x ?_
      simpa [Machine.afterCall, hj] using hx
  · change Additions (c.shared.commit i).db ((c.shared.commit i).pending j) _
    rw [hpending, hlog]
    by_cases hj : j = i
    · rw [hj, Function.update_self, Function.update_self]
      exact Additions.start hown.nodup_keys
    · rw [Function.update_of_ne hj, Function.update_of_ne hj]
      have htj : c.threads j = .running q := by simpa [Machine.afterCall, hj] using hq
      refine (h.isOpen j q htj).other hown (h.exclusive j i hj) (fun key hkey => ?_)
        (fun x hx key hkey hmem => ?_) _
      · refine hfree j hj key ?_
        rw [awaited, htj]
        exact hkey
      · exact h.ids.apart j i hj x hx key hkey (mem_owned.mpr (Or.inl hmem))
  · refine h.ids.keep (Nat.le_add_right _ _) (fun key hkey => ?_) (fun j x hx => ?_)
      fun j x key _ hmem => ?_
    · refine (List.mem_append.mp ((hkeys key).mp hkey)).imp_right fun hkey => ⟨i, ?_⟩
      exact mem_owned.mpr (Or.inl hkey)
    · rw [hlog] at hx
      by_cases hj : j = i
      · rw [hj, Function.update_self] at hx
        exact absurd hx (by simp)
      · rwa [Function.update_of_ne hj] at hx
    · change key ∈ owned ((c.shared.commit i).pending j) _ at hmem
      rw [hlog, hpending] at hmem
      by_cases hj : j = i
      · rw [hj, Function.update_self, Function.update_self] at hmem
        exact absurd hmem (by simp [owned])
      · rwa [Function.update_of_ne hj, Function.update_of_ne hj] at hmem
  · rw [hlog]
    by_cases hj : j = i
    · rw [hj, Function.update_self]
      simp [InsertLog.Fault]
    · rw [Function.update_of_ne hj]
      exact h.sound j

variable [Fintype ι]

/-- A request that leaves. -/
theorem AdditionsInFlight.exit (h : AdditionsInFlight env users c) (i : ι)
    (x : Except RbacError (Option RoleOutput)) :
    AdditionsInFlight env users (Machine.afterExit (rbacMachine env ι) c i x) := by
  have hpending : (c.shared.rollback i).pending = Function.update c.shared.pending i [] :=
    pending_rollback c.shared i
  refine ⟨?_, h.users, fun j y hy => ?_, fun j p hp => ?_, ?_, h.sound⟩
  · change RowLocks.Exclusive RowWrite.keys (c.shared.rollback i).pending
    rw [hpending]
    exact h.exclusive.clear
  · change (c.shared.rollback i).pending j = []
    rw [hpending]
    by_cases hj : j = i
    · rw [hj, Function.update_self]
    · rw [Function.update_of_ne hj]
      refine h.closed j y ?_
      simpa [Machine.afterExit, hj] using hy
  · have hj : j ≠ i := by
      rintro rfl
      simp [Machine.afterExit] at hp
    change Additions c.shared.db ((c.shared.rollback i).pending j) (added c j)
    rw [hpending, Function.update_of_ne hj]
    refine h.isOpen j p ?_
    simpa [Machine.afterExit, hj] using hp
  · refine h.ids.keep le_rfl (fun key hkey => Or.inl hkey) (fun j y hy => hy)
      fun j y key _ hmem => ?_
    change key ∈ owned ((c.shared.rollback i).pending j) (added c j) at hmem
    rw [hpending] at hmem
    rw [mem_owned] at hmem ⊢
    by_cases hj : j = i
    · rw [hj, Function.update_self] at hmem
      rw [hj]
      exact hmem.imp_left fun hmem => absurd hmem (by simp)
    · rwa [Function.update_of_ne hj] at hmem

end Steps

end Flight

/-! ### Runs -/

section Runs

variable {ι : Type} [DecidableEq ι] {env : Env} {reqs : ι → RbacRequest} {w : RbacWorld ι}
variable {c c' : RbacCfg ι}

/-- Requests about to start in world `w`. -/
def startRequests (reqs : ι → RbacRequest) (w : RbacWorld ι) : RbacCfg ι :=
  Config.start w fun k => (reqs k).useCase

/-- No value the random source has yet to give is the id of a role or a permission. -/
def RbacWorld.DrawsNew (env : Env) (w : RbacWorld ι) : Prop :=
  ∀ n, w.rng ≤ n → ∀ k ∈ minted (env.uuid4 n), k ∉ w.db.keys

/-- **A store in which these requests can start**: the constraints hold, no transaction is open, the
accounts can be decoded, those that assign are stored, and ids yet to be drawn are new. -/
structure ReadyFor (env : Env) (reqs : ι → RbacRequest) (w : RbacWorld ι) : Prop where
  adds : ∀ i, (reqs i).Adds
  idle : ∀ i, w.txs i = {}
  wellFormed : w.db.WellFormed
  decodes : w.db.Decodes env
  assigners : ∀ i, ∀ b ∈ (reqs i).assigner, b ∈ w.db.users.map UserRow.id
  drawsNew : w.DrawsNew env

/-- Every request makes the calls of its discipline, and fails with a domain error unless there was
a fault. -/
def AdditionsObey (reqs : ι → RbacRequest) (c : RbacCfg ι) : Prop :=
  Machine.Obeys rbacPossible (fun i h o => (insertLog h).Allowed (reqs i).assigner o)
    (fun _ h x => ∀ e, x = .error e → e.isDomain = true ∨ (insertLog h).Fault) c

omit [DecidableEq ι] in
theorem startRequests_obey (hreqs : ∀ i, (reqs i).Adds) (w : RbacWorld ι) :
    AdditionsObey reqs (startRequests reqs w) := by
  intro i
  change ((reqs i).useCase).Obeys _ _ _ _ []
  have h : ((reqs i).useCase).Obeys InsertLog.note rbacPossible
      (InsertLog.Allowed (reqs i).assigner)
      (fun t x => ∀ e, x = .error e → e.isDomain = true ∨ t.Fault) (insertLog []) := by
    refine Obeys.mono (useCase_inserts (hreqs i)) (fun _ _ h => h) ?_
    rintro t (e | out) h e' he
    · obtain rfl := Except.error.inj he
      exact h
    · cases he
  exact Obeys.pull (f := insertLog) (fun _ _ _ => rfl) h

omit [DecidableEq ι] in
/-- Before their first call the requests are in flight. -/
theorem startRequests_inFlight (h : ReadyFor env reqs w) :
    AdditionsInFlight env w.db.users (startRequests reqs w) := by
  have hpending : ∀ i, w.pending i = [] := fun i => by rw [RbacWorld.pending, h.idle i]
  have howned : ∀ i k, k ∉ owned (w.pending i) {} := fun i k => by
    rw [hpending i]
    simp [owned]
  refine ⟨fun i j _ k hk => ?_, rfl, fun k x hx => absurd hx (by simp [startRequests, Config.start]), fun k p _ => ?_,
    ⟨fun n hn k hk => ⟨h.drawsNew n hn k hk, fun j => howned j k⟩,
      fun j j' _ x hx => absurd hx (by simp [added, insertLog, startRequests, Config.start])⟩,
    fun k => by simp [InsertLog.Fault, added, insertLog, startRequests, Config.start]⟩
  · change RowLocks.Holds _ (w.pending i) k at hk
    rw [hpending i] at hk
    exact absurd hk RowLocks.not_holds_nil
  · change Additions w.db (w.pending k) {}
    rw [hpending k]
    exact Additions.start h.wellFormed.nodup_keys

variable [Fintype ι]

/-- **A step at which no race is lost** keeps the requests in flight. -/
theorem additions_step (hin : AdditionsInFlight env w.db.users c) (hob : AdditionsObey reqs c)
    (hload : w.db.Decodes env) (hby : ∀ i, ∀ b ∈ (reqs i).assigner, b ∈ w.db.users.map UserRow.id)
    {l : Label ι Bool ℕ} (hfree : RaceFree c l) (hs : (rbacMachine env ι).step c l = some c') :
    AdditionsInFlight env w.db.users c' := by
  have hload' : c.shared.db.Decodes env := by
    intro u
    rw [RbacDb.acquireUser, hin.users]
    exact hload u
  rcases Machine.step_cases hs with ⟨i, ch, o, k, x, w', rfl, ht, he, rfl⟩ |
    ⟨i, ch, x, rfl, ht, rfl⟩ | ⟨d, rfl, rfl⟩
  · simp only [rbacMachine] at he
    split at he
    · cases he
    · rename_i hwait
      obtain ⟨rfl, rfl⟩ := Prod.mk.inj (Option.some.inj he)
      have hal : (insertLog (c.hist i)).Allowed (reqs i).assigner o := (hob.running ht).1
      by_cases ho : o = .commit
      · subst ho
        obtain ⟨rfl, -⟩ := hfree (atCommit_of_running ht)
        exact hin.commit _ ht hfree
      · exact hin.call ht hal ho hwait (hby i) hload' ch
  · exact hin.exit i x
  · exact ⟨hin.exclusive, hin.users, hin.closed, hin.isOpen,
      ⟨hin.ids.fresh, hin.ids.apart⟩, hin.sound⟩

/-- **Nobody sees an `IntegrityError`** along a run in which no race is lost: whichever requests add
roles, assignments and permissions at once, in any number, each one that has ended has succeeded or
raised a domain error. -/
theorem losers_get_domain_error (hw : ReadyFor env reqs w)
    (h : (rbacMachine env ι).Reach RaceFree (startRequests reqs w) c) (i : ι)
    {x : Except RbacError (Option RoleOutput)} (hx : c.result i = some x) :
    (∃ out, x = .ok out) ∨ ∃ e, x = .error e ∧ e.isDomain = true := by
  have hinv : AdditionsInFlight env w.db.users c ∧ AdditionsObey reqs c := by
    clear hx
    induction h with
    | refl => exact ⟨startRequests_inFlight hw, startRequests_obey hw.adds w⟩
    | tail _ hfree hs ih =>
        exact ⟨additions_step ih.1 ih.2 hw.decodes hw.assigners hfree hs,
          Machine.step_obeys (rbac_answers env) ih.2 hs⟩
  obtain ⟨hin, hob⟩ := hinv
  cases x with
  | ok out => exact Or.inl ⟨out, rfl⟩
  | error e =>
      have hpost := hob.done (Config.result_eq_some.mp hx) e rfl
      exact Or.inr ⟨e, rfl, hpost.resolve_right (hin.sound i)⟩

end Runs

namespace Reference

/-- The account and a role without permissions are stored, and no request is in flight. -/
def raceWorld : RbacWorld (Fin 2) where
  db := { users := [alice false], roles := [editorRole] }
  txs _ := {}
  clock := clock
  rng := 0

/-- Both requests make their first `lookup` calls, then the first one runs until it has left, and
then the second one. -/
def bothLookUpFirst (lookup first second : ℕ) : List (Label (Fin 2) Bool ℕ) :=
  List.replicate lookup (.act 0 false) ++ List.replicate lookup (.act 1 false) ++
    List.replicate first (.act 0 false) ++ List.replicate second (.act 1 false)

/-- An assignment of the role to the account. -/
def assignEditor : RbacRequest := .assignRole aliceId editorRole.id none

theorem raceWorld_readyFor : ReadyFor env (fun _ => assignEditor) raceWorld where
  adds _ := trivial
  idle _ := rfl
  wellFormed := by constructor <;> decide +kernel
  decodes u := by
    by_cases hu : u = aliceId
    · have hok : (match raceWorld.db.acquireUser env aliceId with
          | .ok _ => true
          | .error _ => false) = true := by decide +kernel
      rw [hu]
      split at hok
      · exact ⟨_, ‹_›⟩
      · cases hok
    · have hnone : raceWorld.db.users.find? (UserQuery.id u).selects = none := by
        simpa [raceWorld, UserQuery.selects, alice] using Ne.symm hu
      exact ⟨none, by rw [RbacDb.acquireUser, Db.acquireUser, hnone]; rfl⟩
  assigners _ b hb := absurd hb (by simp [assignEditor, RbacRequest.assigner])
  drawsNew n _ k hk := by
    have hid : editorRole.id ≠ env.uuid4 n := by
      intro h
      have : 0x5a7b3c1d9e0f4a62b8d3000000000021 = 0x6f1c3e528d0a4b7e9c21000000000000 + n := h
      omega
    have hkeys : raceWorld.db.keys = [.role editorRole.id, .roleName "editor"] := rfl
    rw [hkeys]
    rcases List.mem_cons.mp hk with rfl | hk
    · simpa using Ne.symm hid
    · obtain rfl := List.mem_singleton.mp hk
      simp

end Reference

open Reference

/-- Two assignments of one role to one account at once: the second request looks the assignment up
when the first one has committed, finds it, and succeeds. -/
theorem second_assignment_succeeds :
    ∃ c x, (rbacMachine Reference.env (Fin 2)).run
        (startRequests (fun _ => assignEditor) raceWorld) (bothLookUpFirst 3 6 3) = some c ∧
      c.result 1 = some x ∧
      ((∃ out, x = .ok out) ∨ ∃ e, x = .error e ∧ e.isDomain = true) := by
  have hfree : (rbacMachine Reference.env (Fin 2)).RunsWith RaceFree
      (startRequests (fun _ => assignEditor) raceWorld) (bothLookUpFirst 3 6 3) := by
    decide +kernel
  obtain ⟨c, hrun, hdone⟩ :=
    Machine.exists_run (M := rbacMachine Reference.env (Fin 2))
      (c := startRequests (fun _ => assignEditor) raceWorld) (l := bothLookUpFirst 3 6 3)
      (P := fun c => (c.result 1).isSome = true) (by decide +kernel)
  obtain ⟨x, hx⟩ := Option.isSome_iff_exists.mp hdone
  exact ⟨c, x, hrun, hx, losers_get_domain_error raceWorld_readyFor
    (Machine.reach_of_run hfree hrun) 1 hx⟩

/-- The three contested requests, and the schedules in which both find the key missing. -/
def Reference.contested : List (RbacRequest × List (Label (Fin 2) Bool ℕ)) :=
  [(.createRole "auditor" none, bothLookUpFirst 1 5 3), (assignEditor, bothLookUpFirst 4 5 3),
    (.addPermissionToRole editorRole.id "audit:read", bothLookUpFirst 3 9 3)]

/-- Of two requests that run as a race says, the first succeeds and the second ends with the
`IntegrityError` of the database. -/
def LoserRefused (race : RbacRequest × List (Label (Fin 2) Bool ℕ)) : Prop :=
  ∃ c, (rbacMachine Reference.env (Fin 2)).run (startRequests (fun _ => race.1) raceWorld) race.2 =
      some c ∧
    (∃ out, c.result 0 = some (.ok out)) ∧ c.result 1 = some (.error (.app .integrityError)) ∧
    (RbacError.app .integrityError).isDomain = false

/-- **The loser of a race gets the `IntegrityError`** of the database: two requests that create one
role, assign one role to one user, or add one new permission, both find the key missing; the
first one commits, the insertion of the second one is refused, and nothing translates that. -/
theorem lost_races_refused : contested.Forall LoserRefused := by
  have hruns : ∀ race ∈ contested, ∃ c, (rbacMachine Reference.env (Fin 2)).run
        (startRequests (fun _ => race.1) raceWorld) race.2 = some c ∧
      c.succeeded 0 = true ∧ c.result 1 = some (.error (.app .integrityError)) := by
    decide +kernel
  refine List.forall_iff_forall_mem.mpr fun race hrace => ?_
  obtain ⟨c, hrun, hok, hrefused⟩ := hruns race hrace
  exact ⟨c, hrun, Config.succeeded_iff.mp hok, hrefused, rfl⟩

end BackendTemplate
