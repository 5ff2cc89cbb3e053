import BackendTemplate.RbacRows
import BackendTemplate.RbacService
import BackendTemplate.Reference
import BackendTemplate.Runs

/-!
# The Role Store, One Request at a Time

A request that runs with no other transaction open never waits: it is a function of the tables.
`RbacSolo` is its transaction, `RoleStore.handle` the function, and `eval_handle` says that the
machine computes it. Each operation of `RBACService` gets one specification here, from the
statements of its repository methods up, and `handle_cases` is what a request can do to the
store.

The service protects the role named `admin`: it can neither be deleted nor taken from a user.
Nothing protects the permission named `admin` that the role carries.

## Main results

* `eval_handle` — a request alone on the machine is `RoleStore.handle`.
* `handle_cases` — everything a request can do to the store.
* `administrators_keep_access` — an administrator stays one while nobody takes the permission
  `admin` from that role; `admin_locked_out` is what happens otherwise.
-/

namespace BackendTemplate

open Atomic Atomic.Prog

/-! ### A transaction alone -/

/-- A transaction with no other one open: the committed tables, the tables as it sees them, and
the events registered with its unit of work. -/
structure RbacSolo where
  committed : RbacDb
  current : RbacDb
  events : List DomainEvent
  clock : Instant
  rng : ℕ

/-- The answers to a transaction alone. -/
def soloAnswer (env : Env) (commitFails : Bool) : (o : RbacOp) → RbacSolo → o.Res × RbacSolo
  | .now, s => (s.clock, s)
  | .uuid4, s => (env.uuid4 s.rng, { s with rng := s.rng + 1 })
  | .acquireUser u, s => (s.current.acquireUser env u, s)
  | .roleById r, s => (s.current.roleById r, s)
  | .roleByName name, s => (s.current.roleByName name, s)
  | .permissionsOf r, s => (s.current.permissionsOf r, s)
  | .permissionByName name, s => (s.current.permissionByName name, s)
  | .permissionIdsOf r, s => (s.current.permissionIdsOf r, s)
  | .userRole u r, s => (s.current.userRole u r, s)
  | .execute st, s =>
      if s.current.admitsAll (s.current.rowWrites st) then
        (.ok (), { s with current := s.current.after st })
      else (.error (.app .integrityError), s)
  | .register events, s => ((), { s with events := s.events ++ events })
  | .commit, s =>
      if commitFails then
        (.error (.app .databaseError), { s with current := s.committed, events := [] })
      else
        let db := { s.current with events := s.current.events ++ s.events }
        (.ok (), ⟨db, db, [], s.clock, s.rng + 2 * s.events.length⟩)

/-- The transaction of request `i`, if it is the only one. -/
def RbacWorld.solo {ι : Type} (w : RbacWorld ι) (i : ι) : RbacSolo :=
  ⟨w.db, w.view i, (w.txs i).events, w.clock, w.rng⟩

section Alone

variable {ι : Type} [DecidableEq ι] {env : Env} {commitFails : Bool} {i : ι} {w : RbacWorld ι}

/-- The world answers a request as it answers a transaction alone. -/
theorem soloAnswer_solo (o : RbacOp) (w : RbacWorld ι) :
    soloAnswer env commitFails o (w.solo i) =
      ((answer env commitFails i o w).1, (answer env commitFails i o w).2.solo i) := by
  cases o with
  | execute st =>
      have hcur : (w.solo i).current = w.view i := rfl
      rw [soloAnswer, answer, hcur]
      split
      · simp [RbacWorld.issue, RbacWorld.view, RbacWorld.solo, RbacDb.after]
      · rfl
  | register events => simp [soloAnswer, answer, RbacWorld.solo, RbacWorld.track, RbacWorld.view]
  | commit =>
      simp only [soloAnswer, answer, RbacWorld.solo]
      split
      · simp [RbacWorld.rollback, RbacWorld.view]
      · simp [RbacWorld.commit, RbacWorld.view]
  | _ => rfl

/-- No other transaction is open. -/
def RbacWorld.Alone (w : RbacWorld ι) (i : ι) : Prop := ∀ j, j ≠ i → w.pending j = []

theorem RbacWorld.Alone.answer (h : w.Alone i) (o : RbacOp) :
    (answer env commitFails i o w).2.Alone i := by
  intro j hj
  cases o with
  | execute st =>
      simp only [BackendTemplate.answer]
      split
      · simpa [RbacWorld.issue, RbacWorld.pending, hj] using h j hj
      · exact h j hj
  | register events => simpa [BackendTemplate.answer, RbacWorld.track, RbacWorld.pending, hj] using h j hj
  | commit =>
      simp only [BackendTemplate.answer]
      split
      · simpa [RbacWorld.rollback, RbacWorld.pending, hj] using h j hj
      · simpa [RbacWorld.commit, RbacWorld.pending, hj] using h j hj
  | _ => exact h j hj

omit [DecidableEq ι] in
/-- A request alone does not wait. -/
theorem RbacWorld.Alone.not_waits (h : w.Alone i) (o : RbacOp) : ¬ w.Waits i o := by
  cases o with
  | execute st =>
      rw [RbacWorld.Waits, not_not]
      refine ⟨fun j hj w' hw' => ?_, fun j hj w' hw' => ?_⟩
      · rw [h j hj] at hw'
        exact absurd hw' List.not_mem_nil
      · rw [h j hj] at hw'
        exact absurd hw' List.not_mem_nil
  | _ => exact id

end Alone

/-! ### The store as a function -/

/-- The role store between two requests. -/
structure RoleStore where
  db : RbacDb
  clock : Instant
  rng : ℕ

/-- Open a transaction. -/
def RoleStore.begin (st : RoleStore) : RbacSolo := ⟨st.db, st.db, [], st.clock, st.rng⟩

/-- Close a transaction: what was not committed is gone. -/
def RbacSolo.close (s : RbacSolo) : RoleStore := ⟨s.committed, s.clock, s.rng⟩

/-- A request on the store, and what it returns. -/
def RoleStore.handle (env : Env) (commitFails : Bool) (st : RoleStore) (req : RbacRequest) :
    Except RbacError (Option RoleOutput) × RoleStore :=
  let out := req.useCase.run (soloAnswer env commitFails) st.begin
  (out.1, out.2.close)

/-- The store a world is between two requests. -/
def RbacWorld.store {ι : Type} (w : RbacWorld ι) : RoleStore := ⟨w.db, w.clock, w.rng⟩

/-- **A request alone on the machine is a function of the store.** -/
theorem eval_handle {ι : Type} [DecidableEq ι] [Fintype ι] (env : Env) (commitFails : Bool) {i : ι}
    {w : RbacWorld ι} (hw : ∀ j, w.txs j = {}) (req : RbacRequest) :
    ∃ w' h, (rbacMachine env ι).eval commitFails i req.useCase w [] =
        some ((w.store.handle env commitFails req).1, w', h) ∧
      w'.store = (w.store.handle env commitFails req).2 := by
  have hexec : ∀ o (w : RbacWorld ι), w.Alone i →
      (rbacMachine env ι).exec commitFails i o w = some (answer env commitFails i o w) ∧
        (answer env commitFails i o w).2.Alone i :=
    fun o w h => ⟨if_neg (h.not_waits o), h.answer o⟩
  have halone : w.Alone i := fun j _ => by rw [RbacWorld.pending, hw j]
  obtain ⟨h, hrun⟩ := Machine.eval_eq_run hexec req.useCase halone []
  have hsolo : w.solo i = w.store.begin := by
    rw [RbacWorld.solo, RbacWorld.view, hw i]
    rfl
  have hmap : req.useCase.run (soloAnswer env commitFails) (w.solo i) =
      ((req.useCase.run (answer env commitFails i) w).1,
        (req.useCase.run (answer env commitFails i) w).2.solo i) :=
    run_map (fun w => w.solo i) soloAnswer_solo _ w
  rw [hsolo] at hmap
  rw [RoleStore.handle, hmap]
  exact ⟨_, h, hrun, rfl⟩

/-! ### What the repositories do -/

section Repositories

variable {env : Env} {commitFails : Bool} {d : RbacDb} {s : RbacSolo}

/-- The constraints hold of the tables, committed and current. -/
def RbacSolo.Valid (s : RbacSolo) : Prop := s.committed.WellFormed ∧ s.current.WellFormed

/-- Storing events touches no table of the role store. -/
theorem RbacDb.WellFormed.withEvents {db : RbacDb} (h : db.WellFormed) (events : List DomainEvent) :
    { db with events := events }.WellFormed :=
  { h with }

/-- Every call keeps the constraints. -/
theorem RbacSolo.Valid.answer (o : RbacOp) (s : RbacSolo) (h : s.Valid) :
    (soloAnswer env commitFails o s).2.Valid := by
  cases o with
  | execute st =>
      rw [soloAnswer]
      split
      · rename_i hadm
        exact ⟨h.1, h.2.view hadm⟩
      · exact h
  | commit =>
      rw [soloAnswer]
      split
      · exact ⟨h.1, h.1⟩
      · exact ⟨h.2.withEvents _, h.2.withEvents _⟩
  | _ => exact h

/-- A failed run has committed nothing. -/
def Uncommitted (d : RbacDb) (_ : RbacError) (s : RbacSolo) : Prop := s.committed = d

/-- A run on a transaction alone. -/
abbrev SoloEnsures {α : Type} (env : Env) (commitFails : Bool) (d : RbacDb)
    (p : RbacAct α) (s : RbacSolo) (Q : α → RbacSolo → Prop) : Prop :=
  p.Ensures (soloAnswer env commitFails) Q (Uncommitted d) s

/-- A statement that the constraints admit has its effect; one they refuse fails. -/
theorem ensures_statement {Q : Unit → RbacSolo → Prop} (hd : s.committed = d) (st : Statement)
    (h : s.current.admitsAll (s.current.rowWrites st) = true →
      Q () { s with current := s.current.after st }) :
    SoloEnsures env commitFails d (runStatement st) s Q := by
  rw [SoloEnsures, runStatement, rbacAsk, perform_bind, ensures_call]
  simp only [soloAnswer]
  split
  · rename_i hadm
    exact h hadm
  · exact hd

/-- The entity that the tables hold under an id. -/
structure RbacDb.Loads (db : RbacDb) (r : RoleID) (role : Role) : Prop where
  roleId : role.roleId = r
  row : ⟨r.value, role.name.value, role.description⟩ ∈ db.roles
  names : ∀ n, n ∈ role.permissionNames ↔ db.Carries r.value n
  events : role.events = []

theorem mapM_toPermission {rows : List PermissionRow} {ps : List Permission}
    (h : rows.mapM PermissionRow.toPermission = .ok ps) :
    ps.map Permission.name = rows.map PermissionRow.name := by
  induction rows generalizing ps with
  | nil =>
      obtain rfl : [] = ps := Except.ok.inj h
      rfl
  | cons row rows ih =>
      rw [List.mapM_cons] at h
      obtain ⟨p, hp, h⟩ := except_bind_eq_ok.mp h
      obtain ⟨ps', hps', h⟩ := except_bind_eq_ok.mp h
      obtain rfl := Except.ok.inj h
      rw [List.map_cons, List.map_cons, ih hps', (Permission.make_ok hp).1]

theorem RoleRow.toRole_ok {row : RoleRow} {ps : List Permission} {role : Role}
    (h : row.toRole ps = .ok role) :
    role.roleId.value = row.id ∧ role.name.value = row.name ∧ role.description = row.description ∧
      role.permissions = ps ∧ role.events = [] := by
  obtain ⟨roleId, hid, h⟩ := except_bind_eq_ok.mp h
  obtain ⟨name, hname, h⟩ := except_bind_eq_ok.mp h
  obtain rfl := Except.ok.inj h
  exact ⟨RoleID.make_ok hid, RoleName.make_ok hname, rfl, rfl, rfl⟩

theorem rbacUserID_ok {x : Uuid} {u : UserID} (h : rbacUserID x = .ok u) : u.value = x := by
  unfold rbacUserID UserID.make at h
  split at h
  · obtain rfl := Except.ok.inj h
    rfl
  · cases h

theorem RoleID.ext {a b : RoleID} (h : a.value = b.value) : a = b := by
  cases a
  cases b
  subst h
  rfl

/-- `_get_role_permissions` reads the stored names of the role. -/
theorem ensures_getRolePermissions (hd : s.committed = d) (r : Uuid) :
    SoloEnsures env commitFails d (RoleRepo.getRolePermissions r) s fun ps s' =>
      s' = s ∧ ∀ n, n ∈ ps.map Permission.name ↔ s.current.Carries r n := by
  rw [SoloEnsures, RoleRepo.getRolePermissions, rbacAsk, perform_bind, ensures_call]
  refine ensures_ofExcept (fun ps hps => ⟨rfl, fun n => ?_⟩) fun _ _ => hd
  rw [mapM_toPermission hps, RbacDb.carries_iff, List.mem_map]
  rfl

/-- `acquire_by_id`, refused when there is no role: the entity of the tables, which it leaves
alone. -/
theorem ensures_acquireRole (hd : s.committed = d) (r : RoleID) :
    SoloEnsures env commitFails d (RBACService.acquireRole r) s
      fun role s' => s' = s ∧ s.current.Loads r role := by
  rw [SoloEnsures, RBACService.acquireRole, RoleRepo.acquireById, rbacAsk, perform_bind,
    call_bind, ensures_call]
  simp only [soloAnswer]
  cases hrow : s.current.roleById r.value with
  | none => exact hd
  | some row =>
      have hid : row.id = r.value := Keyed.key_of_lookup hrow
      rw [RoleRepo.load, bind_assoc]
      refine (ensures_getRolePermissions hd row.id).bind ?_
      rintro ps s' ⟨rfl, hnames⟩
      rw [bind_assoc]
      refine (ensures_bind _ _).mpr (ensures_ofExcept (fun role hrole => ?_) fun _ _ => hd)
      obtain ⟨hid', hname, hdesc, hperms, hevents⟩ := RoleRow.toRole_ok hrole
      refine ⟨rfl, RoleID.ext (hid'.trans hid), ?_, fun n => ?_, hevents⟩
      · rw [← hid, hname, hdesc]
        exact Keyed.mem_of_lookup hrow
      · rw [Role.permissionNames, hperms, hnames, hid]

/-- Tables to which at most new permissions were added. -/
structure RbacDb.Grown (db db' : RbacDb) : Prop where
  users : db'.users = db.users
  roles : db'.roles = db.roles
  links : db'.rolePermissions = db.rolePermissions
  userRoles : db'.userRoles = db.userRoles
  events : db'.events = db.events
  permissions : ∀ p ∈ db.permissions, p ∈ db'.permissions

/-- A new permission is linked to no role yet. -/
theorem RbacDb.Grown.carries {db db' : RbacDb} (h : db.Grown db') (hw : db.WellFormed)
    (hw' : db'.WellFormed) (r : Uuid) (n : String) : db'.Carries r n ↔ db.Carries r n := by
  constructor
  · rintro ⟨p, hp, hl, hn⟩
    rw [h.links] at hl
    obtain ⟨q, hq, hid⟩ := List.mem_map.mp (hw.linkPermission _ hl)
    obtain rfl := List.inj_on_of_nodup_map hw'.permissionIds (h.permissions q hq) hp hid
    exact ⟨q, hq, hl, hn⟩
  · rintro ⟨p, hp, hl, hn⟩
    exact ⟨p, h.permissions p hp, h.links ▸ hl, hn⟩

/-- `PermissionRepo.acquire_by_name`. -/
theorem ensures_permissionByName (hd : s.committed = d) (n : String) :
    SoloEnsures env commitFails d (PermissionRepo.acquireByName n) s fun p s' =>
      s' = s ∧ ∀ p' ∈ p, p'.name = n ∧ ∃ q ∈ s.current.permissions, q.name = n := by
  rw [SoloEnsures, PermissionRepo.acquireByName, rbacAsk, perform_bind, ensures_call]
  simp only [soloAnswer]
  cases hrow : s.current.permissionByName n with
  | none => exact ⟨rfl, fun p hp => absurd hp (by simp)⟩
  | some row =>
      have hname : row.name = n := Keyed.key_of_lookup hrow
      refine (ensures_bind _ _).mpr (ensures_ofExcept (fun p hp => ?_) fun _ _ => hd)
      refine ⟨rfl, fun p' hp' => ?_⟩
      obtain rfl : p = p' := Option.some.inj hp'
      exact ⟨(Permission.make_ok hp).1.trans hname, row, Keyed.mem_of_lookup hrow, hname⟩

/-- The permission of a name, found or added. -/
theorem ensures_acquirePermission (hd : s.committed = d) (n : String) :
    SoloEnsures env commitFails d (RBACService.acquirePermission n) s fun p s' =>
      p.name = n ∧ s'.committed = d ∧ s'.events = s.events ∧ s.current.Grown s'.current ∧
        ∃ q ∈ s'.current.permissions, q.name = n := by
  rw [RBACService.acquirePermission]
  refine (ensures_permissionByName hd n).bind ?_
  rintro found s' ⟨rfl, hfound⟩
  cases found with
  | some p =>
      obtain ⟨hname, hq⟩ := hfound p rfl
      exact ⟨hname, hd, rfl, ⟨rfl, rfl, rfl, rfl, rfl, fun _ h => h⟩, hq⟩
  | none =>
      refine (ensures_bind _ _).mpr (ensures_ofExcept (fun p hp => ?_) fun _ _ => hd)
      have hname := (Permission.make_ok hp).1
      rw [PermissionRepo.add, rbacAsk, perform_bind, call_bind, ensures_call]
      refine (ensures_bind _ _).mpr (ensures_statement ?_ _ fun _ => ?_)
      · exact hd
      · exact ⟨hname, hd, rfl, ⟨rfl, rfl, rfl, rfl, rfl, fun _ h => List.mem_append_left _ h⟩, _,
          List.mem_append_right _ List.mem_cons_self, hname⟩

/-! ### What `update` does -/

/-- A name that has a permission is resolved to its id. -/
theorem ensures_resolve (hw : s.current.WellFormed) (p : Permission) {q : PermissionRow}
    (hq : q ∈ s.current.permissions) (hn : q.name = p.name) :
    SoloEnsures env commitFails d (RoleRepo.resolve p) s fun id s' => s' = s ∧ id = q.id := by
  rw [SoloEnsures, RoleRepo.resolve, rbacAsk, perform_bind, ensures_call]
  simp only [soloAnswer, hw.permissionByName_eq_some.mpr ⟨hq, hn⟩]
  exact ⟨rfl, rfl⟩

/-- The ids of names that all have a permission. -/
theorem ensures_resolveAll (hw : s.current.WellFormed) (ps : List Permission) (ids : List Uuid)
    (hps : ∀ p ∈ ps, ∃ q ∈ s.current.permissions, q.name = p.name) :
    SoloEnsures env commitFails d (RoleRepo.resolveAll ps ids) s fun ids' s' => s' = s ∧
      ∀ q ∈ s.current.permissions, q.id ∈ ids' ↔ q.id ∈ ids ∨ ∃ p ∈ ps, p.name = q.name := by
  induction ps generalizing ids with
  | nil => exact ⟨rfl, fun q _ => by simp⟩
  | cons p ps ih =>
      obtain ⟨q, hq, hn⟩ := hps p List.mem_cons_self
      refine (ensures_resolve hw p hq hn).bind ?_
      rintro id s' ⟨rfl, rfl⟩
      refine (ih (ids.insert q.id) fun p' hp' => hps p' (List.mem_cons_of_mem _ hp')).mono ?_
      rintro ids' s'' ⟨rfl, hids⟩
      refine ⟨rfl, fun q' hq' => ?_⟩
      rw [hids q' hq', List.mem_insert_iff]
      have hid : q'.id = q.id ↔ p.name = q'.name := by
        constructor
        · intro h
          obtain rfl := List.inj_on_of_nodup_map hw.permissionIds hq' hq h
          exact hn.symm
        · intro h
          obtain rfl := List.inj_on_of_nodup_map hw.permissionNames hq' hq (h.symm.trans hn.symm)
          rfl
      rw [hid, or_comm (a := p.name = q'.name), or_assoc]
      simp only [List.mem_cons, exists_eq_or_imp]

/-- The deletion of the links that are no longer desired. -/
theorem ensures_unlinkAll (hd : s.committed = d) (r : Uuid) (ids : List Uuid) :
    SoloEnsures env commitFails d (RoleRepo.unlinkAll r ids) s fun _ s' =>
      s' = { s with current := { s.current with
        rolePermissions := s.current.rolePermissions.filter fun l => ¬ (l.1 = r ∧ l.2 ∈ ids) } } := by
  rw [RoleRepo.unlinkAll]
  split
  · rename_i hnil
    obtain rfl := List.isEmpty_iff.mp hnil
    change s = _
    simp
  · refine ensures_statement hd _ fun _ => ?_
    rw [RbacDb.after, RbacDb.view_deleteRolePermissions]

/-- The insertion of the links that are missing. -/
theorem ensures_linkAll (hd : s.committed = d) (r : Uuid) (ids : List Uuid) :
    SoloEnsures env commitFails d (RoleRepo.linkAll r ids) s fun _ s' =>
      s' = { s with current := { s.current with
        rolePermissions := s.current.rolePermissions ++ ids.map fun p => (r, p) } } := by
  induction ids generalizing s with
  | nil =>
      change s = _
      simp
  | cons p ids ih =>
      refine (ensures_bind _ _).mpr (ensures_statement hd _ fun _ => (ih ?_).mono ?_)
      · exact hd
      · rintro - s' rfl
        simp [RbacDb.after, RbacDb.rowWrites, RowLocks.view, RbacDb.apply]

/-- **`update` links the role to the permissions of its names.** -/
theorem ensures_update (hd : s.committed = d) (hw : s.current.WellFormed) {role : Role}
    (hrow : ⟨role.roleId.value, role.name.value, role.description⟩ ∈ s.current.roles)
    (hknown : ∀ n ∈ role.permissionNames, ∃ q ∈ s.current.permissions, q.name = n) :
    SoloEnsures env commitFails d (RoleRepo.update role) s fun _ s' => ∃ ids,
      s' = { s with current := s.current.relink role.roleId.value ids } ∧
        ∀ q ∈ s.current.permissions, q.id ∈ ids ↔ q.name ∈ role.permissionNames := by
  refine (ensures_bind _ _).mpr (ensures_statement hd _ fun _ => ?_)
  have hsame : s.current.after (.updateRole role.roleId.value role.name.value role.description) =
      s.current := (hw.updateRole hrow).2
  rw [hsame, rbacAsk, perform_bind, ensures_call]
  simp only [soloAnswer]
  have hps : ∀ p ∈ role.permissions, ∃ q ∈ s.current.permissions, q.name = p.name :=
    fun p hp => hknown p.name (List.mem_map_of_mem hp)
  refine (ensures_resolveAll (d := d) hw role.permissions [] hps).bind ?_
  rintro ids s' ⟨rfl, hids⟩
  refine (ensures_unlinkAll hd _ _).bind ?_
  rintro - s' rfl
  refine Ensures.mono (ensures_linkAll ?_ _ _) ?_
  · exact hd
  rintro - s' rfl
  refine ⟨ids, ?_, fun q hq => ?_⟩
  · rw [← RbacDb.relink_eq]
    rfl
  · rw [hids q hq, Role.permissionNames, List.mem_map]
    simp

end Repositories

/-! ### Editing a role -/

/-- A set of names after one of them was put in or taken out. -/
def withName (present : Bool) (n : String) (names : String → Prop) (m : String) : Prop :=
  if m = n then present = true else names m

/-- **A role entity was edited**: one name put in or taken out, with an event exactly if that
changed something. -/
structure Role.Edited (role role' : Role) (n : String) (present : Bool) : Prop where
  roleId : role'.roleId = role.roleId
  name : role'.name = role.name
  description : role'.description = role.description
  names : ∀ m, m ∈ role'.permissionNames ↔ withName present n (· ∈ role.permissionNames) m
  silent : (n ∈ role.permissionNames ↔ present = true) → role'.events = role.events
  event : ¬ (n ∈ role.permissionNames ↔ present = true) →
    role'.events = role.events ++ [.roleUpdated role.roleId.value ["permissions"]]

theorem Role.hasPermission_iff {role : Role} {n : String} :
    role.hasPermission n = true ↔ n ∈ role.permissionNames := by
  simp [hasPermission, permissionNames]

theorem Role.addPermission_edited (role : Role) (p : Permission) :
    role.Edited (role.addPermission p) p.name true := by
  by_cases h : role.hasPermission p.name = true
  · have hn := hasPermission_iff.mp h
    have hsame : role.addPermission p = role := if_pos h
    rw [hsame]
    refine ⟨rfl, rfl, rfl, fun m => ?_, fun _ => rfl, fun hne => absurd ⟨fun _ => rfl, fun _ => hn⟩ hne⟩
    rw [withName]
    split
    · rename_i hm
      exact ⟨fun _ => rfl, fun _ => hm ▸ hn⟩
    · rfl
  · have hn := fun hn => h (hasPermission_iff.mpr hn)
    have hadd : role.addPermission p =
        { role with permissions := role.permissions ++ [p] }.recordEvent
          (.roleUpdated role.roleId.value ["permissions"]) := if_neg h
    rw [hadd]
    refine ⟨rfl, rfl, rfl, fun m => ?_, fun hiff => absurd (hiff.mpr rfl) hn, fun _ => rfl⟩
    simp only [permissionNames, recordEvent, List.map_append, List.map_singleton, List.mem_append,
      List.mem_singleton, withName]
    split
    · rename_i hm
      simp [hm]
    · rename_i hm
      simp [hm]

theorem Role.removePermission_edited (role : Role) (n : String) :
    role.Edited (role.removePermission n) n false := by
  have hnames : ∀ m, m ∈ (role.permissions.filter fun p => p.name ≠ n).map Permission.name ↔
      withName false n (· ∈ role.permissionNames) m := by
    intro m
    simp only [List.mem_map, List.mem_filter, decide_eq_true_eq, withName, permissionNames]
    split
    · rename_i hm
      subst hm
      simp only [Bool.false_eq_true, iff_false]
      rintro ⟨p, ⟨-, hne⟩, heq⟩
      exact hne heq
    · rename_i hm
      constructor
      · rintro ⟨p, ⟨hp, -⟩, rfl⟩
        exact ⟨p, hp, rfl⟩
      · rintro ⟨p, hp, rfl⟩
        exact ⟨p, ⟨hp, hm⟩, rfl⟩
  have hlen : (role.permissions.filter fun p => p.name ≠ n).length = role.permissions.length ↔
      n ∉ role.permissionNames := by
    rw [List.length_filter_eq_length_iff, permissionNames, List.mem_map]
    simp
  rw [removePermission]
  split
  · rename_i hne
    have hmem : n ∈ role.permissionNames := by
      by_contra hn
      exact hne (hlen.mpr hn)
    exact ⟨rfl, rfl, rfl, hnames, fun hiff => absurd (hiff.mp hmem) (by simp), fun _ => rfl⟩
  · rename_i heq
    have hmem := hlen.mp (not_not.mp heq)
    exact ⟨rfl, rfl, rfl, hnames, fun _ => rfl, fun hne => absurd ⟨fun h => absurd h hmem, fun h => absurd h (by simp)⟩ hne⟩

/-- **The permissions of a role were edited** in the tables: one name put in or taken out of the
role, and nothing else. -/
structure RbacDb.Edited (db db' : RbacDb) (r : Uuid) (n : String) (present : Bool) : Prop where
  users : db'.users = db.users
  roles : db'.roles = db.roles
  userRoles : db'.userRoles = db.userRoles
  events : db'.events = db.events
  carries : ∀ m, db'.Carries r m ↔ withName present n (db.Carries r) m
  others : ∀ r', r' ≠ r → ∀ m, db'.Carries r' m ↔ db.Carries r' m

section Service

variable {env : Env} {commitFails : Bool} {d : RbacDb} {s : RbacSolo}

/-- **Storing an edited role edits its permissions in the tables**, in tables to which at most the
permission of the name was added since the role was read. -/
theorem ensures_store {db : RbacDb} {r : RoleID} {n : String} {present : Bool} {role role' : Role}
    (hd : s.committed = d) (hdb : db.WellFormed) (hw : s.current.WellFormed)
    (hgrown : db.Grown s.current) (hload : db.Loads r role) (hedit : role.Edited role' n present)
    (hknown : present = true → ∃ q ∈ s.current.permissions, q.name = n) :
    SoloEnsures env commitFails d (RBACService.store role') s fun out s' =>
      out = role' ∧ s'.committed = d ∧ s'.events = s.events ++ role'.events ∧
        db.Edited s'.current r.value n present := by
  have hid : role'.roleId = r := hedit.roleId.trans hload.roleId
  have hcarries := fun r m => hgrown.carries hdb hw r m
  have hrow : ⟨role'.roleId.value, role'.name.value, role'.description⟩ ∈ s.current.roles := by
    rw [hid, hedit.name, hedit.description, hgrown.roles]
    exact hload.row
  have hnames : ∀ m, m ∈ role'.permissionNames ↔ withName present n (db.Carries r.value) m := by
    intro m
    rw [hedit.names m, withName, withName, hload.names m]
  have hq : ∀ m ∈ role'.permissionNames, ∃ q ∈ s.current.permissions, q.name = m := by
    intro m hm
    have hm := (hnames m).mp hm
    rw [withName] at hm
    split at hm
    · rename_i hmn
      exact hmn ▸ hknown hm
    · obtain ⟨q, hq, -, hqm⟩ := hm
      exact ⟨q, hgrown.permissions q hq, hqm⟩
  refine (ensures_update hd hw hrow hq).bind ?_
  rintro - s' ⟨ids, rfl, hids⟩
  rw [rbacAsk, perform_bind, ensures_call]
  refine ⟨rfl, hd, rfl, hgrown.users, hgrown.roles, hgrown.userRoles, hgrown.events,
    fun m => ?_, fun r' hr' m => ?_⟩
  · change (s.current.relink role'.roleId.value ids).Carries r.value m ↔ _
    rw [hid, RbacDb.carries_relink, if_pos rfl, ← hnames m]
    constructor
    · rintro ⟨q, hqmem, hqid, rfl⟩
      exact (hids q hqmem).mp hqid
    · intro hm
      obtain ⟨q, hqmem, rfl⟩ := hq m hm
      exact ⟨q, hqmem, (hids q hqmem).mpr hm, rfl⟩
  · change (s.current.relink role'.roleId.value ids).Carries r' m ↔ _
    rw [hid, RbacDb.carries_relink, if_neg hr', hcarries]

/-- The entity a request on the permissions of a role returns, and what it did to the tables. -/
def PermissionEdit (d : RbacDb) (s : RbacSolo) (r : RoleID) (n : String) (present : Bool)
    (out : Role) (s' : RbacSolo) : Prop :=
  ∃ role, s.current.Loads r role ∧ role.Edited out n present ∧ s'.committed = d ∧
    s'.events = s.events ++ out.events ∧ s.current.Edited s'.current r.value n present

theorem ensures_addPermissionToRole (hd : s.committed = d) (hv : s.Valid) (r : RoleID)
    (n : String) :
    SoloEnsures env commitFails d (RBACService.addPermissionToRole r n) s
      (PermissionEdit d s r n true) := by
  refine (ensures_acquireRole hd r).bind ?_
  rintro role s' ⟨rfl, hload⟩
  refine ((ensures_acquirePermission hd n).invariant RbacSolo.Valid.answer hv).bind ?_
  rintro p s'' ⟨⟨rfl, hd', hev, hgrown, hq⟩, hv'⟩
  have hedit := role.addPermission_edited p
  refine (ensures_store hd' hv.2 hv'.2 hgrown hload hedit fun _ => hq).mono ?_
  rintro out s₃ ⟨rfl, hd₃, hev₃, hdb⟩
  exact ⟨role, hload, hedit, hd₃, hev ▸ hev₃, hdb⟩

theorem ensures_removePermissionFromRole (hd : s.committed = d) (hv : s.Valid) (r : RoleID)
    (n : String) :
    SoloEnsures env commitFails d (RBACService.removePermissionFromRole r n) s
      (PermissionEdit d s r n false) := by
  refine (ensures_acquireRole hd r).bind ?_
  rintro role s' ⟨rfl, hload⟩
  have hedit := role.removePermission_edited n
  refine (ensures_store hd hv.2 hv.2 ⟨rfl, rfl, rfl, rfl, rfl, fun _ h => h⟩ hload hedit
    fun h => absurd h (by simp)).mono ?_
  rintro out s₃ ⟨rfl, hd₃, hev₃, hdb⟩
  exact ⟨role, hload, hedit, hd₃, hev₃, hdb⟩

/-! ### Creating and deleting roles, and assigning them -/

theorem ensures_createRole (hd : s.committed = d) (name : RoleName) (description : Option String) :
    SoloEnsures env commitFails d (RBACService.createRole name description) s fun out s' =>
      ∃ roleId, out = Role.create roleId name description ∧ s'.committed = d ∧
        s'.events = s.events ++ out.events ∧
        (∀ row ∈ s.current.roles, row.id ≠ roleId.value ∧ row.name ≠ name.value) ∧
        s'.current = { s.current with
          roles := s.current.roles ++ [⟨roleId.value, name.value, description⟩] } := by
  have hfound : SoloEnsures env commitFails d (RoleRepo.acquireByName name) s
      fun _ s' => s' = s := by
    rw [SoloEnsures, RoleRepo.acquireByName, rbacAsk, perform_bind, ensures_call]
    simp only [soloAnswer]
    cases s.current.roleByName name.value with
    | none => rfl
    | some row =>
        refine (ensures_getRolePermissions hd row.id).bind ?_
        rintro ps s' ⟨rfl, -⟩
        exact (ensures_bind _ _).mpr (ensures_ofExcept (fun _ _ => rfl) fun _ _ => hd)
  refine hfound.bind ?_
  rintro existing s' rfl
  cases existing with
  | some role => exact hd
  | none =>
      rw [rbacAsk, perform_bind, ensures_call]
      refine (ensures_bind _ _).mpr (ensures_ofExcept (fun roleId _ => ?_) fun _ _ => hd)
      refine (ensures_bind _ _).mpr ((ensures_bind _ _).mpr (ensures_statement ?_ _ fun hadm => ?_))
      · exact hd
      · refine ⟨roleId, rfl, hd, rfl, ?_, rfl⟩
        simpa [RbacDb.rowWrites, RbacDb.admitsAll, RbacDb.admits, soloAnswer, Role.create,
          Role.recordEvent, not_or] using hadm

/-- `delete` takes the role with its links and its assignments. -/
theorem ensures_delete (hd : s.committed = d) (hw : s.current.WellFormed) {r : RoleID}
    {row : RoleRow} (hrow : row ∈ s.current.roles) (hid : row.id = r.value) :
    SoloEnsures env commitFails d (RoleRepo.delete r) s fun _ s' =>
      s' = { s with current := s.current.withoutRole r.value } := by
  refine (ensures_bind _ _).mpr (ensures_statement hd _ fun _ => ?_)
  refine (ensures_bind _ _).mpr (ensures_statement ?_ _ fun _ => ?_)
  · exact hd
  refine ensures_statement ?_ _ fun _ => ?_
  · exact hd
  · rw [← hid]
    exact congrArg (fun db => { s with current := db }) (hw.after_delete hrow)

theorem ensures_deleteRole (hd : s.committed = d) (hv : s.Valid) (r : RoleID) :
    SoloEnsures env commitFails d (RBACService.deleteRole r) s fun _ s' =>
      (∃ row ∈ s.current.roles, row.id = r.value ∧ row.name ≠ RBACService.defaultRoleAdmin) ∧
        s'.committed = d ∧ s'.events = s.events ++ [.roleDeleted r.value] ∧
        s'.current = s.current.withoutRole r.value := by
  refine (ensures_acquireRole hd r).bind ?_
  rintro role s' ⟨rfl, hload⟩
  refine (ensures_bind _ _).mpr (ensures_raiseIf (fun _ => hd) fun hname => ?_)
  have hname := of_decide_eq_false hname
  refine (ensures_delete hd hv.2 hload.row rfl).bind ?_
  rintro - s₁ rfl
  refine ⟨⟨_, hload.row, rfl, hname⟩, hd, ?_, rfl⟩
  change s'.events ++ (role.delete).events = _
  rw [Role.delete, Role.recordEvent, hload.events, hload.roleId]
  rfl

/-- `user_repo.acquire_by_id`, refused when there is no user, reads the tables. -/
theorem ensures_acquireUser (hd : s.committed = d) (u : UserID) :
    SoloEnsures env commitFails d (RBACService.acquireUser u) s fun _ s' => s' = s := by
  rw [SoloEnsures, RBACService.acquireUser, rbacAsk, perform_bind, ensures_call]
  refine (ensures_bind _ _).mpr (ensures_ofExcept (fun user _ => ?_) fun _ _ => hd)
  cases user with
  | none => exact hd
  | some user => rfl

theorem ensures_assignRole (hd : s.committed = d) (u : UserID) (r : RoleID)
    (assignedBy : Option UserID) :
    SoloEnsures env commitFails d (RBACService.assignRole u r assignedBy) s fun user s' =>
      s'.committed = d ∧ (∃ row ∈ s.current.roles, row.id = r.value) ∧
        (s'.events = s.events ∧ s'.current = s.current ∨
          ∃ row : UserRoleRow, row.userId = u.value ∧ row.roleId = r.value ∧
            s'.events = s.events ++ [user.assignRole r assignedBy] ∧
            s'.current = { s.current with userRoles := s.current.userRoles ++ [row] }) := by
  refine (ensures_acquireUser hd u).bind ?_
  rintro user s' rfl
  refine (ensures_acquireRole hd r).bind ?_
  rintro role s₁ ⟨rfl, hload⟩
  have hrole : ∃ row ∈ s₁.current.roles, row.id = r.value := ⟨_, hload.row, rfl⟩
  rw [rbacAsk, perform_bind, ensures_call]
  cases (soloAnswer env commitFails (.userRole u.value r.value) s₁).1 with
  | some row => exact ⟨hd, hrole, Or.inl ⟨rfl, rfl⟩⟩
  | none =>
      refine (ensures_bind _ _).mpr ?_
      refine (ensures_bind _ _).mpr (ensures_statement ?_ _ fun _ => ?_)
      · exact hd
      · exact ⟨hd, hrole, Or.inr ⟨_, rfl, rfl, rfl, rfl⟩⟩

theorem ensures_revokeRole (hd : s.committed = d) (u : UserID) (r : RoleID) :
    SoloEnsures env commitFails d (RBACService.revokeRole u r) s fun user s' =>
      (∃ row ∈ s.current.roles, row.id = r.value ∧ row.name ≠ RBACService.defaultRoleAdmin) ∧
        s'.committed = d ∧ s'.events = s.events ++ [user.revokeRole r] ∧
        s'.current = { s.current with
          userRoles := s.current.userRoles.filter fun a =>
            ¬ (a.userId = u.value ∧ a.roleId = r.value) } := by
  refine (ensures_acquireUser hd u).bind ?_
  rintro user s' rfl
  refine (ensures_acquireRole hd r).bind ?_
  rintro role s₁ ⟨rfl, hload⟩
  refine (ensures_bind _ _).mpr (ensures_raiseIf (fun _ => hd) fun hname => ?_)
  have hname := of_decide_eq_false hname
  refine (ensures_bind _ _).mpr (ensures_statement hd _ fun _ => ?_)
  refine ⟨⟨_, hload.row, rfl, hname⟩, hd, rfl, ?_⟩
  change s₁.current.after _ = _
  rw [RbacDb.after, RbacDb.rowWrites, RbacDb.view_deleteUserRoles fun a a' hu hr => by rw [hu, hr]]
  simp

end Service

/-! ### What a request can do to the store -/

/-- The events of an edit of a role: one exactly if the edit changed something. -/
def EditEvents (db : RbacDb) (r : Uuid) (n : String) (present : Bool)
    (events : List DomainEvent) : Prop :=
  ((db.Carries r n ↔ present = true) → events = []) ∧
    (¬ (db.Carries r n ↔ present = true) → events = [.roleUpdated r ["permissions"]])

/-- The committed tables after an edit of a role. -/
def RbacDb.EditedTo (db db' : RbacDb) (r : Uuid) (n : String) (present : Bool) : Prop :=
  ∃ edited events, db.Edited edited r n present ∧ EditEvents db r n present events ∧
    db' = { edited with events := db.events ++ events }

/-- **The effect of a request that succeeds** on the committed tables. -/
def RbacRequest.Effect (db db' : RbacDb) : RbacRequest → Prop
  | .createRole name description => ∃ r,
      (∀ row ∈ db.roles, row.id ≠ r ∧ row.name ≠ name) ∧
        db' = { db with
          roles := db.roles ++ [⟨r, name, description⟩]
          events := db.events ++ [.roleCreated r name] }
  | .deleteRole r =>
      (∃ row ∈ db.roles, row.id = r ∧ row.name ≠ RBACService.defaultRoleAdmin) ∧
        db' = { db.withoutRole r with events := db.events ++ [.roleDeleted r] }
  | .assignRole u r _ =>
      (∃ row ∈ db.roles, row.id = r) ∧
        (db' = db ∨ ∃ row e, row.userId = u ∧ row.roleId = r ∧
          db' = { db with userRoles := db.userRoles ++ [row], events := db.events ++ [e] })
  | .revokeRole u r =>
      (∃ row ∈ db.roles, row.id = r ∧ row.name ≠ RBACService.defaultRoleAdmin) ∧
        ∃ e, db' = { db with
          userRoles := db.userRoles.filter fun a => ¬ (a.userId = u ∧ a.roleId = r)
          events := db.events ++ [e] }
  | .addPermissionToRole r n => db.EditedTo db' r n true
  | .removePermissionFromRole r n => db.EditedTo db' r n false

section Requests

variable {env : Env} {commitFails : Bool} {d : RbacDb} {s : RbacSolo}

/-- The commit makes the tables of the transaction the committed ones, with its events. -/
theorem ensures_commit (hd : s.committed = d) {α : Type} (a : α) :
    SoloEnsures env commitFails d (rbacCommit >>= fun _ => pure a) s fun x s' =>
      x = a ∧ s'.committed = { s.current with events := s.current.events ++ s.events } := by
  rw [SoloEnsures, rbacCommit, rbacAsk, perform_bind, call_bind, ensures_call, soloAnswer]
  split
  · exact hd
  · exact ⟨rfl, rfl⟩

/-- An edit that is stored is an edit of the committed tables. -/
theorem PermissionEdit.editedTo {r : RoleID} {n : String} {present : Bool} {out : Role}
    {s' : RbacSolo} (h : PermissionEdit d s r n present out s') (he : s.events = []) :
    s.current.EditedTo { s'.current with events := s'.current.events ++ s'.events } r.value n
      present := by
  obtain ⟨role, hload, hedit, -, hev, hdb⟩ := h
  have hid : role.roleId.value = r.value := congrArg RoleID.value hload.roleId
  refine ⟨s'.current, out.events, hdb, ⟨fun hsame => ?_, fun hne => ?_⟩, ?_⟩
  · rw [hedit.silent ((hload.names n).trans hsame), hload.events]
  · rw [hedit.event fun hsame => hne ((hload.names n).symm.trans hsame), hload.events, hid]
    rfl
  · rw [hdb.events, hev, he]
    rfl

/-- Creating a role returns it, without permissions. -/
theorem ensures_createRole_useCase (st : RoleStore) (name : String) (description : Option String) :
    SoloEnsures env commitFails st.db (RbacRequest.createRole name description).useCase st.begin
      fun x s' => ∃ r, x = some ⟨r, name, description, []⟩ ∧
        (∀ row ∈ st.db.roles, row.id ≠ r ∧ row.name ≠ name) ∧
        s'.committed = { st.db with
          roles := st.db.roles ++ [⟨r, name, description⟩]
          events := st.db.events ++ [.roleCreated r name] } := by
  have hd : st.begin.committed = st.db := rfl
  refine (ensures_bind _ _).mpr (ensures_ofExcept (fun name' hname => ?_) fun _ _ => hd)
  obtain rfl := RoleName.make_ok hname
  refine (ensures_createRole hd name' description).bind ?_
  rintro out s' ⟨r, rfl, hd', hev, hnew, hcur⟩
  refine (ensures_commit hd' _).mono fun x s'' ⟨hx, hs⟩ => ?_
  refine ⟨r.value, hx, hnew, hs.trans ?_⟩
  rw [hcur, hev]
  rfl

/-- **Everything a request can do to the store**: a request that succeeds has its effect, one that
fails has none. -/
theorem ensures_useCase (st : RoleStore) (hw : st.db.WellFormed) (req : RbacRequest) :
    SoloEnsures env commitFails st.db req.useCase st.begin fun _ s' =>
      req.Effect st.db s'.committed := by
  have hv : st.begin.Valid := ⟨hw, hw⟩
  have hd : st.begin.committed = st.db := rfl
  cases req with
  | createRole name description =>
      refine (ensures_createRole_useCase st name description).mono ?_
      rintro x s' ⟨r, -, hnew, hs⟩
      exact ⟨r, hnew, hs⟩
  | deleteRole roleId =>
      refine (ensures_bind _ _).mpr (ensures_ofExcept (fun r hr => ?_) fun _ _ => hd)
      obtain rfl := RoleID.make_ok hr
      refine (ensures_deleteRole hd hv r).bind ?_
      rintro out s' ⟨hrow, hd', hev, hcur⟩
      refine (ensures_commit hd' _).mono fun _ s'' ⟨_, hs⟩ => ⟨hrow, hs.trans ?_⟩
      rw [hcur, hev]
      rfl
  | assignRole userId roleId assignedBy =>
      refine (ensures_bind _ _).mpr (ensures_ofExcept (fun u hu => ?_) fun _ _ => hd)
      refine (ensures_bind _ _).mpr (ensures_ofExcept (fun r hr => ?_) fun _ _ => hd)
      refine (ensures_bind _ _).mpr (ensures_ofExcept (fun by_ _ => ?_) fun _ _ => hd)
      obtain rfl := RoleID.make_ok hr
      obtain rfl := rbacUserID_ok hu
      refine (ensures_assignRole hd u r by_).bind ?_
      rintro user s' ⟨hd', hrole, ⟨hev, hcur⟩ | ⟨row, hru, hrr, hev, hcur⟩⟩
      · refine (ensures_commit hd' _).mono fun _ s'' ⟨_, hs⟩ => ⟨hrole, Or.inl (hs.trans ?_)⟩
        rw [hcur, hev]
        simp [RoleStore.begin]
      · refine (ensures_commit hd' _).mono fun _ s'' ⟨_, hs⟩ =>
          ⟨hrole, Or.inr ⟨row, user.assignRole r by_, hru, hrr, hs.trans ?_⟩⟩
        rw [hcur, hev]
        rfl
  | revokeRole userId roleId =>
      refine (ensures_bind _ _).mpr (ensures_ofExcept (fun u hu => ?_) fun _ _ => hd)
      refine (ensures_bind _ _).mpr (ensures_ofExcept (fun r hr => ?_) fun _ _ => hd)
      obtain rfl := RoleID.make_ok hr
      obtain rfl := rbacUserID_ok hu
      refine (ensures_revokeRole hd u r).bind ?_
      rintro user s' ⟨hrow, hd', hev, hcur⟩
      refine (ensures_commit hd' _).mono fun _ s'' ⟨_, hs⟩ => ⟨hrow, user.revokeRole r, hs.trans ?_⟩
      rw [hcur, hev]
      rfl
  | addPermissionToRole roleId n =>
      refine (ensures_bind _ _).mpr (ensures_ofExcept (fun r hr => ?_) fun _ _ => hd)
      obtain rfl := RoleID.make_ok hr
      refine (ensures_addPermissionToRole hd hv r n).bind fun out s' hedit => ?_
      obtain ⟨-, -, -, hd', -⟩ := id hedit
      exact (ensures_commit hd' _).mono fun _ s'' ⟨_, hs⟩ => hs ▸ hedit.editedTo rfl
  | removePermissionFromRole roleId n =>
      refine (ensures_bind _ _).mpr (ensures_ofExcept (fun r hr => ?_) fun _ _ => hd)
      obtain rfl := RoleID.make_ok hr
      refine (ensures_removePermissionFromRole hd hv r n).bind fun out s' hedit => ?_
      obtain ⟨-, -, -, hd', -⟩ := id hedit
      exact (ensures_commit hd' _).mono fun _ s'' ⟨_, hs⟩ => hs ▸ hedit.editedTo rfl

/-- **Everything a request can do to the store**, as a step of the store. -/
theorem handle_cases (env : Env) (commitFails : Bool) {st : RoleStore} (hw : st.db.WellFormed)
    (req : RbacRequest) :
    let out := st.handle env commitFails req
    (∃ e, out.1 = .error e ∧ out.2.db = st.db) ∨
      ∃ x, out.1 = .ok x ∧ req.Effect st.db out.2.db := by
  have h := @ensures_useCase env commitFails st hw req
  simp only [RoleStore.handle, RbacSolo.close]
  unfold SoloEnsures Ensures at h
  split at h
  · rename_i x s' hrun
    rw [hrun]
    exact Or.inr ⟨x, rfl, h⟩
  · rename_i e s' hrun
    rw [hrun]
    exact Or.inl ⟨e, rfl, h⟩

/-- A request keeps the constraints of the tables. -/
theorem handle_wellFormed (env : Env) (commitFails : Bool) {st : RoleStore}
    (hw : st.db.WellFormed) (req : RbacRequest) :
    (st.handle env commitFails req).2.db.WellFormed := by
  have hv : st.begin.Valid := ⟨hw, hw⟩
  exact (run_invariant RbacSolo.Valid.answer req.useCase hv).1

end Requests

/-! ### Administrators -/

/-- `ADMIN_PERMISSION`. -/
def adminPermission : String := "admin"

/-- User `u` is assigned the role named `admin`, and that role carries the permission `admin`. -/
def RbacDb.Administers (db : RbacDb) (u : Uuid) : Prop :=
  ∃ role ∈ db.roles, role.name = RBACService.defaultRoleAdmin ∧
    (∃ a ∈ db.userRoles, a.userId = u ∧ a.roleId = role.id) ∧
    db.Carries role.id adminPermission

/-- The request takes the permission `admin` from the role named `admin`. -/
def RbacRequest.Strips (db : RbacDb) (req : RbacRequest) : Prop :=
  ∃ row ∈ db.roles, row.name = RBACService.defaultRoleAdmin ∧
    req = .removePermissionFromRole row.id adminPermission

instance (db : RbacDb) (req : RbacRequest) : Decidable (req.Strips db) := by
  unfold RbacRequest.Strips
  infer_instance

/-- Two rows of one id are one row. -/
theorem RbacDb.WellFormed.role_eq {db : RbacDb} (h : db.WellFormed) {row row' : RoleRow}
    (hrow : row ∈ db.roles) (hrow' : row' ∈ db.roles) (hid : row.id = row'.id) : row = row' :=
  List.inj_on_of_nodup_map h.roleIds hrow hrow' hid

/-- An edit keeps what a role carries, unless it takes that name from that role. -/
theorem RbacDb.EditedTo.carries {db db' : RbacDb} {r : Uuid} {n : String} {present : Bool}
    (h : db.EditedTo db' r n present) {r' : Uuid} {m : String} (hm : db.Carries r' m)
    (hkeep : present = false → ¬ (r' = r ∧ m = n)) : db'.Carries r' m := by
  obtain ⟨edited, events, hedit, -, rfl⟩ := h
  change edited.Carries r' m
  by_cases hr : r' = r
  · subst hr
    rw [hedit.carries m, withName]
    split
    · rename_i hmn
      cases present with
      | true => rfl
      | false => exact absurd ⟨rfl, hmn⟩ (hkeep rfl)
    · exact hm
  · exact (hedit.others r' hr m).mpr hm

/-- **A request leaves an administrator one**, unless it takes the permission `admin` from the
role named `admin`. -/
theorem RbacRequest.Effect.administers {db db' : RbacDb} {req : RbacRequest}
    (h : req.Effect db db') (hw : db.WellFormed) (hkeep : ¬ req.Strips db) {u : Uuid}
    (hadm : db.Administers u) : db'.Administers u := by
  obtain ⟨role, hrole, hname, ⟨a, ha, hau, har⟩, hcarries⟩ := hadm
  -- a role that a guard lets through is not the one named `admin`
  have hother : ∀ r, (∃ row ∈ db.roles, row.id = r ∧ row.name ≠ RBACService.defaultRoleAdmin) →
      role.id ≠ r := by
    rintro r ⟨row, hrow, hid, hne⟩ heq
    obtain rfl := hw.role_eq hrole hrow (heq.trans hid.symm)
    exact hne hname
  cases req with
  | createRole name description =>
      obtain ⟨r, -, rfl⟩ := h
      exact ⟨role, List.mem_append_left _ hrole, hname, ⟨a, ha, hau, har⟩, hcarries⟩
  | deleteRole r =>
      obtain ⟨hguard, rfl⟩ := h
      have hne := hother r hguard
      obtain ⟨p, hp, hl, hn⟩ := hcarries
      refine ⟨role, List.mem_filter.mpr ⟨hrole, decide_eq_true hne⟩, hname, ⟨a, ?_, hau, har⟩,
        p, hp, List.mem_filter.mpr ⟨hl, decide_eq_true hne⟩, hn⟩
      exact List.mem_filter.mpr ⟨ha, decide_eq_true (har ▸ hne)⟩
  | assignRole u' r assignedBy =>
      obtain ⟨-, rfl | ⟨row, e, -, -, rfl⟩⟩ := h
      · exact ⟨role, hrole, hname, ⟨a, ha, hau, har⟩, hcarries⟩
      · exact ⟨role, hrole, hname, ⟨a, List.mem_append_left _ ha, hau, har⟩, hcarries⟩
  | revokeRole u' r =>
      obtain ⟨hguard, e, rfl⟩ := h
      refine ⟨role, hrole, hname, ⟨a, List.mem_filter.mpr ⟨ha, decide_eq_true ?_⟩, hau, har⟩,
        hcarries⟩
      rintro ⟨-, hr⟩
      exact hother r hguard (har.symm.trans hr)
  | addPermissionToRole r n =>
      have hc := RbacDb.EditedTo.carries h hcarries fun hp => absurd hp (by simp)
      obtain ⟨edited, events, hedit, -, rfl⟩ := h
      exact ⟨role, hedit.roles.symm ▸ hrole, hname, ⟨a, hedit.userRoles.symm ▸ ha, hau, har⟩, hc⟩
  | removePermissionFromRole r n =>
      have hc := RbacDb.EditedTo.carries h hcarries fun _ heq =>
        hkeep ⟨role, hrole, hname, by rw [heq.1, heq.2]⟩
      obtain ⟨edited, events, hedit, -, rfl⟩ := h
      exact ⟨role, hedit.roles.symm ▸ hrole, hname, ⟨a, hedit.userRoles.symm ▸ ha, hau, har⟩, hc⟩

/-- An administrator passes `require_admin`. -/
theorem RbacDb.Administers.check {db : RbacDb} {u : UserID} (h : db.Administers u.value) :
    db.checkPermission u.value adminPermission = .ok true := by
  obtain ⟨role, hrole, -, hassigned, hcarries⟩ := h
  exact (RbacDb.checkPermission_iff u.ne_nil).mpr ⟨role, hrole, hassigned, hcarries⟩

/-- One request on the store: whether the database accepts its commit, and the request. -/
def RoleStore.step (env : Env) (st : RoleStore) (l : Bool × RbacRequest) : Option RoleStore :=
  some (st.handle env l.1 l.2).2

/-- The request does not take the permission `admin` from the role named `admin`. -/
def RoleStore.sparesAdmin (st : RoleStore) (l : Bool × RbacRequest) : Prop := ¬ l.2.Strips st.db

instance (st : RoleStore) (l : Bool × RbacRequest) : Decidable (st.sparesAdmin l) :=
  inferInstanceAs (Decidable (¬ _))

/-- **An administrator stays one** as long as nobody takes the permission `admin` from the role
named `admin`: whatever other requests come, in any number and with any arguments, the permission
check of `require_admin` still answers yes. -/
theorem administrators_keep_access (env : Env) {st st' : RoleStore} (hw : st.db.WellFormed)
    {u : UserID} (hadm : st.db.Administers u.value)
    (h : Runs.Reach (RoleStore.step env) RoleStore.sparesAdmin st st') :
    st'.db.checkPermission u.value adminPermission = .ok true := by
  have hinv : st'.db.WellFormed ∧ st'.db.Administers u.value := by
    refine h.invariant (I := fun st => st.db.WellFormed ∧ st.db.Administers u.value) ⟨hw, hadm⟩ ?_
    rintro st ⟨commitFails, req⟩ st' ⟨hw, hadm⟩ hspares hstep
    obtain rfl := Option.some.inj hstep
    refine ⟨handle_wellFormed env commitFails hw req, ?_⟩
    rcases handle_cases env commitFails hw req with ⟨e, -, hdb⟩ | ⟨x, -, heffect⟩
    · rw [hdb]
      exact hadm
    · exact heffect.administers hw hspares hadm
  exact hinv.2.check

/-! ### A store with one administrator -/

namespace Reference

/-- The role named `admin`. -/
def adminRole : RoleRow := ⟨0x2c9e1f705b3d4e88a1c40000000000e1, "admin", none⟩

/-- The permission named `admin`. -/
def adminRow : PermissionRow := ⟨0x2c9e1f705b3d4e88a1c40000000000f1, "admin", none⟩

/-- A store whose only administrator is the account. -/
def adminStore : RoleStore where
  db :=
    { users := [alice false]
      permissions := [adminRow]
      roles := [adminRole]
      rolePermissions := [(adminRole.id, adminRow.id)]
      userRoles := [⟨aliceId, adminRole.id, clock, none⟩] }
  clock := clock
  rng := 0

theorem adminStore_wellFormed : adminStore.db.WellFormed := by
  constructor <;> decide +kernel

/-- The account administers the store. -/
theorem adminStore_administers : adminStore.db.Administers aliceId :=
  ⟨adminRole, List.mem_cons_self, rfl, ⟨_, List.mem_cons_self, rfl, rfl⟩, adminRow,
    List.mem_cons_self, List.mem_cons_self, rfl⟩

end Reference

open Reference

/-- An administrator survives requests that edit the role named `admin` otherwise, and the attempt
to delete it. -/
theorem admin_keeps_access_here :
    ∃ st', Runs.Reach (RoleStore.step Reference.env) RoleStore.sparesAdmin adminStore st' ∧
      st'.db.Carries adminRole.id "users:write" ∧
      st'.db.checkPermission aliceId adminPermission = .ok true := by
  have hrun : Runs.run (RoleStore.step Reference.env) RoleStore.sparesAdmin adminStore
      [(false, .addPermissionToRole adminRole.id "users:write"),
        (false, .deleteRole adminRole.id)] =
      some ((adminStore.handle Reference.env false
        (.addPermissionToRole adminRole.id "users:write")).2.handle Reference.env false
          (.deleteRole adminRole.id)).2 := by
    rw [Runs.run, if_pos (by decide +kernel), RoleStore.step, Option.bind_some, Runs.run,
      if_pos (by decide +kernel), RoleStore.step, Option.bind_some, Runs.run]
  have hreach := Runs.reach_of_run hrun
  refine ⟨_, hreach, by decide +kernel, ?_⟩
  exact administrators_keep_access Reference.env (u := ⟨aliceId, by decide⟩) adminStore_wellFormed
    adminStore_administers hreach

/-- **An administrator can be locked out through role management**: `remove_permission_from_role`
takes the permission `admin` from the role named `admin`. -/
theorem admin_locked_out :
    adminStore.db.WellFormed ∧ adminStore.db.Administers aliceId ∧
      ∃ st', Runs.Reach (RoleStore.step Reference.env) Runs.always adminStore st' ∧
        st'.db.checkPermission aliceId adminPermission = .ok false := by
  refine ⟨adminStore_wellFormed, adminStore_administers, (adminStore.handle Reference.env false
    (.removePermissionFromRole adminRole.id adminPermission)).2, ?_, by decide +kernel⟩
  exact .single ⟨(false, .removePermissionFromRole adminRole.id adminPermission), trivial, rfl⟩

end BackendTemplate
