import BackendTemplate.RoleStore

/-!
# Reading Roles, Both Ways

The service reads the roles of a user in two ways. `RBACService.get_user_roles` asks the
repositories, one query for the assignments and two for each role; `SQLAlchemyRoleReader` flattens
everything into one outer join and groups the rows in memory. The first way goes through the value
objects and can be refused by them, the second one cannot.

## Main results

* `run_acquireById` — `acquire_by_id` on a transaction alone is `RbacDb.acquireById`.
* `acquireById_total` — it returns the entity of the tables when these hold accepted values.
* `collected_foldl` — what the grouping makes of rows in any order.
* `permission_checks_agree` — both ways return the same roles and give the same answer;
  `nil_role_id_tells_them_apart` is where they part without accepted ids.
-/

namespace BackendTemplate

open Atomic Atomic.Prog

/-! ### What the tables hold -/

/-- The names in the tables are ones `RoleName` and `Permission` accept. -/
structure RbacDb.NamesAccepted (db : RbacDb) : Prop where
  roles : ∀ row ∈ db.roles, RoleName.validate row.name = .ok ()
  permissions : ∀ row ∈ db.permissions, Permission.validate row.name = .ok ()

/-- The ids in the tables are ones `RoleID` and `UserID` accept. -/
structure RbacDb.IdsAccepted (db : RbacDb) : Prop where
  roles : ∀ row ∈ db.roles, row.id ≠ nilUuid
  assignedBy : ∀ a ∈ db.userRoles, ∀ b ∈ a.assignedBy, b ≠ nilUuid

theorem RoleName.make_of_validate {s : String} (h : RoleName.validate s = .ok ()) :
    RoleName.make s = .ok ⟨s, h⟩ := by
  unfold RoleName.make
  split
  · rfl
  · rename_i e he
    rw [h] at he
    cases he

theorem Permission.make_of_validate {s : String} (d : Option String)
    (h : Permission.validate s = .ok ()) : Permission.make s d = .ok ⟨s, d, h⟩ := by
  unfold Permission.make
  split
  · rfl
  · rename_i e he
    rw [h] at he
    cases he

/-! ### The repositories -/

/-- `SQLAlchemyRoleRepo.acquire_by_id`, as a function of the tables. -/
def RbacDb.acquireById (db : RbacDb) (r : RoleID) : Except RbacError (Option Role) :=
  match db.roleById r.value with
  | none => .ok none
  | some row => do
      let permissions ← (db.permissionsOf row.id).mapM PermissionRow.toPermission
      let role ← row.toRole permissions
      .ok (some role)

/-- **The repository method computes that function**, and changes nothing. -/
theorem run_acquireById (env : Env) (commitFails : Bool) (s : RbacSolo) (r : RoleID) :
    (RoleRepo.acquireById r).run (soloAnswer env commitFails) s = (s.current.acquireById r, s) := by
  rw [RoleRepo.acquireById, rbacAsk, perform_bind, run_call]
  simp only [soloAnswer, RbacDb.acquireById]
  cases s.current.roleById r.value with
  | none => rfl
  | some row =>
      rw [RoleRepo.load, RoleRepo.getRolePermissions, rbacAsk, perform_bind, call_bind, run_call,
        run_bind, run_ofExcept]
      simp only [soloAnswer]
      cases (s.current.permissionsOf row.id).mapM PermissionRow.toPermission with
      | error e => rfl
      | ok ps =>
          simp only [run_bind, run_ofExcept]
          change _ = (row.toRole ps >>= fun role => .ok (some role), s)
          cases row.toRole ps with
          | error e => rfl
          | ok role => rfl

/-- `UserRole`. -/
structure UserRole where
  userId : UserID
  roleId : RoleID
  assignedAt : Instant
  assignedBy : Option UserID
deriving DecidableEq

/-- An assignment from its row. -/
def UserRoleRow.toUserRole (row : UserRoleRow) : Except RbacError UserRole := do
  let userId ← rbacUserID row.userId
  let roleId ← RoleID.make row.roleId
  let assignedBy ← rbacOptUserID row.assignedBy
  .ok ⟨userId, roleId, row.assignedAt, assignedBy⟩

namespace RbacDb

/-- `SQLAlchemyUserRoleRepo.acquire_by_user_id`. -/
def acquireByUserId (db : RbacDb) (u : UserID) : Except RbacError (List UserRole) :=
  (db.userRoles.filter fun row => row.userId = u.value).mapM UserRoleRow.toUserRole

/-- `RBACService.get_user_roles`. -/
def serviceUserRoles (db : RbacDb) (u : UserID) : Except RbacError (List Role) := do
  let userRoles ← db.acquireByUserId u
  let found ← userRoles.mapM fun ur => db.acquireById ur.roleId
  .ok (found.filterMap id)

/-- `RBACService.has_permission`. -/
def hasPermission (db : RbacDb) (u : UserID) (permission : String) : Except RbacError Bool := do
  let roles ← db.serviceUserRoles u
  .ok (roles.any fun role => role.hasPermission permission)

variable {db : RbacDb}

/-- The names a role carries come without duplicates. -/
theorem WellFormed.nodup_permissionsOf (h : db.WellFormed) (r : Uuid) :
    ((db.permissionsOf r).map PermissionRow.name).Nodup := by
  have hrows : (db.permissionsOf r).Nodup := by
    refine List.nodup_flatMap.mpr ⟨fun l _ => (h.permissionIds.of_map).filter _, ?_⟩
    refine (h.links.filter _).imp_of_mem fun {l l'} hl hl' hne row hrow hrow' => ?_
    -- two links of one role to one permission are one link
    have h₁ := of_decide_eq_true (List.mem_filter.mp hl).2
    have h₂ := of_decide_eq_true (List.mem_filter.mp hl').2
    have h₃ := of_decide_eq_true (List.mem_filter.mp hrow).2
    have h₄ := of_decide_eq_true (List.mem_filter.mp hrow').2
    exact hne (Prod.ext (h₁.trans h₂.symm) (h₃.symm.trans h₄))
  refine (List.nodup_map_iff_inj_on hrows).mpr fun p hp q hq hn => ?_
  exact List.inj_on_of_nodup_map h.permissionNames (mem_permissionsOf.mp hp).1
    (mem_permissionsOf.mp hq).1 hn

/-- A row that is found is loaded as the entity of the tables. -/
theorem acquireById_some (h : db.WellFormed) (hn : db.NamesAccepted) {row : RoleRow}
    (hrow : row ∈ db.roles) (r : RoleID) (hr : row.id = r.value) :
    ∃ role, db.acquireById r = .ok (some role) ∧ db.Loads r role ∧ role.permissionNames.Nodup := by
  obtain ⟨ps, hps⟩ := mapM_ok (f := PermissionRow.toPermission) (l := db.permissionsOf row.id)
    fun p hp => ⟨_, Permission.make_of_validate _ (hn.permissions p (mem_permissionsOf.mp hp).1)⟩
  have hnames := mapM_toPermission hps
  have hid : RoleID.make row.id = .ok r := by
    rw [hr]
    exact dif_pos r.ne_nil
  refine ⟨⟨r, ⟨row.name, hn.roles row hrow⟩, row.description, ps, []⟩, ?_, ⟨rfl, ?_, fun n => ?_, rfl⟩, ?_⟩
  · rw [acquireById, h.roleById_eq_some.mpr ⟨hrow, hr⟩]
    simp only [hps, RoleRow.toRole, hid, RoleName.make_of_validate (hn.roles row hrow)]
    rfl
  · change (⟨r.value, row.name, row.description⟩ : RoleRow) ∈ db.roles
    rw [← hr]
    exact hrow
  · rw [Role.permissionNames, hnames, carries_iff, List.mem_map, hr]
  · rw [Role.permissionNames, hnames]
    exact h.nodup_permissionsOf row.id

/-- **`acquire_by_id` on tables that hold accepted names**: the entity they hold, or nothing. -/
theorem acquireById_total (h : db.WellFormed) (hn : db.NamesAccepted) (r : RoleID) :
    (db.acquireById r = .ok none ∧ ∀ row ∈ db.roles, row.id ≠ r.value) ∨
      ∃ role, db.acquireById r = .ok (some role) ∧ db.Loads r role ∧
        role.permissionNames.Nodup := by
  cases hrow : db.roleById r.value with
  | none =>
      refine Or.inl ⟨?_, fun row hmem hid => ?_⟩
      · rw [acquireById, hrow]
      · rw [h.roleById_eq_some.mpr ⟨hmem, hid⟩] at hrow
        cases hrow
  | some row =>
      obtain ⟨hmem, hid⟩ := h.roleById_eq_some.mp hrow
      exact Or.inr (acquireById_some h hn hmem r hid)

end RbacDb

/-! ### What the grouping collects -/

namespace RoleReadDTO

/-- **The entries are those of the rows**: one for each role, with its columns and the permission
names of its rows. -/
structure Collected (rows : List (RoleRow × Option String)) (ds : List RoleReadDTO) : Prop where
  roleIds : (ds.map RoleReadDTO.roleId).Nodup
  opened : ∀ row ∈ rows, ∃ d ∈ ds, d.roleId = row.1.id
  columns : ∀ d ∈ ds, ∃ row ∈ rows, row.1 = ⟨d.roleId, d.name, d.description⟩
  names : ∀ d ∈ ds, ∀ n, n ∈ d.permissions ↔ ∃ row ∈ rows, row.1.id = d.roleId ∧ row.2 = some n

/-- One turn of the loop that opens an entry, or finds it open. -/
theorem Collected.openEntry {rows : List (RoleRow × Option String)} {ds : List RoleReadDTO}
    (h : Collected rows ds) (role : RoleRow) :
    Collected (rows ++ [(role, none)])
      (if ds.any fun d => d.roleId = role.id then ds
        else ds ++ [⟨role.id, role.name, role.description, []⟩]) := by
  have hnames : ∀ d ∈ ds, ∀ n, n ∈ d.permissions ↔
      ∃ row ∈ rows ++ [(role, none)], row.1.id = d.roleId ∧ row.2 = some n := by
    intro d hd n
    rw [h.names d hd n]
    simp [or_and_right, exists_or]
  split
  · rename_i hany
    obtain ⟨d, hd, hid⟩ := List.any_eq_true.mp hany
    refine ⟨h.roleIds, fun row hrow => ?_, fun d hd => ?_, hnames⟩
    · rcases List.mem_append.mp hrow with hrow | hrow
      · exact h.opened row hrow
      · obtain rfl := List.mem_singleton.mp hrow
        exact ⟨d, hd, of_decide_eq_true hid⟩
    · obtain ⟨row, hrow, heq⟩ := h.columns d hd
      exact ⟨row, List.mem_append_left _ hrow, heq⟩
  · rename_i hany
    have hnew : ∀ d ∈ ds, d.roleId ≠ role.id := by simpa using hany
    refine ⟨Keyed.nodup_append h.roleIds ?_, fun row hrow => ?_, fun d hd => ?_,
      fun d hd n => ?_⟩
    · rintro hmem
      obtain ⟨d, hd, hid⟩ := List.mem_map.mp hmem
      exact hnew d hd hid
    · rcases List.mem_append.mp hrow with hrow | hrow
      · obtain ⟨d, hd, hid⟩ := h.opened row hrow
        exact ⟨d, List.mem_append_left _ hd, hid⟩
      · obtain rfl := List.mem_singleton.mp hrow
        exact ⟨_, List.mem_append_right _ List.mem_cons_self, rfl⟩
    · rcases List.mem_append.mp hd with hd | hd
      · obtain ⟨row, hrow, heq⟩ := h.columns d hd
        exact ⟨row, List.mem_append_left _ hrow, heq⟩
      · obtain rfl := List.mem_singleton.mp hd
        exact ⟨_, List.mem_append_right _ List.mem_cons_self, rfl⟩
    · rcases List.mem_append.mp hd with hd | hd
      · exact hnames d hd n
      · obtain rfl := List.mem_singleton.mp hd
        simp only [List.not_mem_nil, false_iff, not_exists, not_and]
        rintro row hrow hid heq
        rcases List.mem_append.mp hrow with hrow | hrow
        · -- a row of this role would have opened its entry
          obtain ⟨d, hd, hid'⟩ := h.opened row hrow
          exact hnew d hd (hid'.trans hid)
        · obtain rfl := List.mem_singleton.mp hrow
          cases heq

/-- Appending a name to the entry that is open for its role. -/
theorem Collected.append {rows : List (RoleRow × Option String)} {ds : List RoleReadDTO}
    {role : RoleRow} (h : Collected (rows ++ [(role, none)]) ds) (name : String) :
    Collected (rows ++ [(role, some name)]) (ds.map fun d =>
      if d.roleId = role.id then { d with permissions := d.permissions ++ [name] } else d) := by
  have hrows : ∀ row ∈ rows ++ [(role, some name)], ∃ row' ∈ rows ++ [(role, none)],
      row'.1 = row.1 := by
    intro row hrow
    rcases List.mem_append.mp hrow with hrow | hrow
    · exact ⟨row, List.mem_append_left _ hrow, rfl⟩
    · obtain rfl := List.mem_singleton.mp hrow
      exact ⟨_, List.mem_append_right _ List.mem_cons_self, rfl⟩
  have hrows' : ∀ row ∈ rows ++ [(role, none)], ∃ row' ∈ rows ++ [(role, some name)],
      row'.1 = row.1 := by
    intro row hrow
    rcases List.mem_append.mp hrow with hrow | hrow
    · exact ⟨row, List.mem_append_left _ hrow, rfl⟩
    · obtain rfl := List.mem_singleton.mp hrow
      exact ⟨_, List.mem_append_right _ List.mem_cons_self, rfl⟩
  have hkeep : ∀ d : RoleReadDTO, (if d.roleId = role.id then
      { d with permissions := d.permissions ++ [name] } else d).roleId = d.roleId := by
    intro d
    split <;> rfl
  refine ⟨?_, fun row hrow => ?_, fun d' hd' => ?_, fun d' hd' n => ?_⟩
  · rw [List.map_map]
    exact (List.map_congr_left (fun d _ => hkeep d)).symm ▸ h.roleIds
  · obtain ⟨row', hrow', heq⟩ := hrows row hrow
    obtain ⟨d, hd, hid⟩ := h.opened row' hrow'
    exact ⟨_, List.mem_map_of_mem hd, (hkeep d).trans (hid.trans (congrArg RoleRow.id heq))⟩
  · obtain ⟨d, hd, rfl⟩ := List.mem_map.mp hd'
    obtain ⟨row, hrow, heq⟩ := h.columns d hd
    obtain ⟨row', hrow', heq'⟩ := hrows' row hrow
    refine ⟨row', hrow', ?_⟩
    rw [heq', heq]
    split <;> rfl
  · obtain ⟨d, hd, rfl⟩ := List.mem_map.mp hd'
    have hold := h.names d hd n
    simp only [List.mem_append, List.mem_singleton, or_and_right, exists_or, exists_eq_left,
      reduceCtorEq, and_false, or_false, Option.some.injEq] at hold ⊢
    rw [hkeep d]
    split
    · rename_i hid
      simp only [List.mem_append, List.mem_singleton, hold, hid, true_and, eq_comm (a := n)]
    · rename_i hid
      simp only [hold, Ne.symm hid, false_and, or_false]

/-- **One turn of the loop** collects its row. -/
theorem Collected.collect {rows : List (RoleRow × Option String)} {ds : List RoleReadDTO}
    (h : Collected rows ds) (row : RoleRow × Option String) :
    Collected (rows ++ [row]) (collect ds row) := by
  obtain ⟨role, name⟩ := row
  cases name with
  | none => exact h.openEntry role
  | some name => exact (h.openEntry role).append name

/-- **The loop collects its rows**, in whatever order they come. -/
theorem collected_foldl (rows : List (RoleRow × Option String)) :
    Collected rows (rows.foldl RoleReadDTO.collect []) := by
  have h : ∀ seen ds, Collected seen ds →
      Collected (seen ++ rows) (rows.foldl RoleReadDTO.collect ds) := by
    induction rows with
    | nil =>
        intro seen ds hc
        rw [List.append_nil]
        exact hc
    | cons row rows ih =>
        intro seen ds hc
        have hrest := ih (seen ++ [row]) _ (hc.collect row)
        rw [List.append_assoc] at hrest
        exact hrest
  exact h [] [] ⟨List.nodup_nil, fun _ h => absurd h List.not_mem_nil,
    fun _ h => absurd h List.not_mem_nil, fun _ h => absurd h List.not_mem_nil⟩

end RoleReadDTO

/-! ### Both ways read the same roles -/

/-- What both ways of reading a role have in common: its columns and the set of its names. -/
abbrev RoleSummary := RoleRow × Finset String

/-- The columns and the names of an entry of the reader. -/
def RoleReadDTO.summary (d : RoleReadDTO) : RoleSummary :=
  (⟨d.roleId, d.name, d.description⟩, d.permissions.toFinset)

/-- The columns and the names of an entity. -/
def Role.summary (role : Role) : RoleSummary :=
  (⟨role.roleId.value, role.name.value, role.description⟩, role.permissionNames.toFinset)

namespace RbacDb

variable {db : RbacDb}

/-- The summary of a role that user `u` is assigned. -/
def Summarises (db : RbacDb) (u : Uuid) (s : RoleSummary) : Prop :=
  s.1 ∈ db.rolesOfUser u ∧ ∀ n, n ∈ s.2 ↔ db.Carries s.1.id n

/-- Every role of the source is in the selected rows, and no other. -/
theorem exists_mem_joinedRows {source : List RoleRow} {role : RoleRow} :
    (∃ n, (role, n) ∈ db.joinedRows source) ↔ role ∈ source := by
  have houter : ∀ {α β : Type} (l : List α) (r : List β) (on : α → β → Bool) (a : α),
      (∃ b, (a, b) ∈ outerJoin l r on) ↔ a ∈ l := by
    intro α β l r on a
    simp only [outerJoin, List.mem_flatMap]
    constructor
    · rintro ⟨b, a', ha', hb⟩
      split at hb
      · obtain ⟨rfl, -⟩ := Prod.mk.inj (List.mem_singleton.mp hb)
        exact ha'
      · obtain ⟨b', -, heq⟩ := List.mem_map.mp hb
        obtain ⟨rfl, -⟩ := Prod.mk.inj heq
        exact ha'
    · intro ha
      cases hr : r.filter (on a) with
      | nil => exact ⟨none, a, ha, by rw [hr]; exact List.mem_singleton_self _⟩
      | cons b bs => exact ⟨some b, a, ha, by rw [hr]; exact List.mem_cons_self⟩
  simp only [joinedRows, List.mem_map, Prod.mk.injEq]
  constructor
  · rintro ⟨n, ⟨⟨role', l⟩, p⟩, hmem, rfl, -⟩
    exact (houter _ _ _ _).mp ⟨l, (houter _ _ _ _).mp ⟨p, hmem⟩⟩
  · intro hrole
    obtain ⟨l, hl⟩ := (houter source db.rolePermissions (fun role l => l.1 = role.id) role).mpr hrole
    obtain ⟨p, hp⟩ := (houter _ db.permissions (fun row p => row.2.any fun l => p.id = l.2)
      (role, l)).mpr hl
    exact ⟨p.map PermissionRow.name, _, hp, rfl, rfl⟩

/-- **The reader**: the entries are the roles of the user with their names, once each, whatever
the order of the rows. -/
theorem mem_entries (h : db.WellFormed) {u : Uuid} {rows : List (RoleRow × Option String)}
    (hrows : rows.Perm (db.joinedRows (db.rolesOfUser u))) :
    ((rows.foldl RoleReadDTO.collect []).map RoleReadDTO.summary).Nodup ∧
      ∀ s, s ∈ (rows.foldl RoleReadDTO.collect []).map RoleReadDTO.summary ↔
        db.Summarises u s := by
  have hc := RoleReadDTO.collected_foldl rows
  have hrole : ∀ row ∈ rows, row.1 ∈ db.rolesOfUser u :=
    fun row hrow => exists_mem_joinedRows.mp ⟨row.2, hrows.mem_iff.mp hrow⟩
  have hentry : ∀ d ∈ rows.foldl RoleReadDTO.collect [], db.Summarises u d.summary := by
    intro d hd
    obtain ⟨row, hrow, hcols⟩ := hc.columns d hd
    have hmem := hcols ▸ hrole row hrow
    refine ⟨hmem, fun n => ?_⟩
    change n ∈ d.permissions.toFinset ↔ db.Carries d.roleId n
    rw [List.mem_toFinset, hc.names d hd n]
    constructor
    · rintro ⟨⟨role, n'⟩, hrow', hid, rfl⟩
      exact hid ▸ (mem_joinedRows.mp (hrows.mem_iff.mp hrow')).2
    · intro hn
      exact ⟨(⟨d.roleId, d.name, d.description⟩, some n),
        hrows.mem_iff.mpr (mem_joinedRows.mpr ⟨hmem, hn⟩), rfl, rfl⟩
  refine ⟨List.Nodup.of_map (fun s : RoleSummary => s.1.id) ?_, fun s => ⟨fun hs => ?_, fun hs => ?_⟩⟩
  · rw [List.map_map]
    exact hc.roleIds
  · obtain ⟨d, hd, rfl⟩ := List.mem_map.mp hs
    exact hentry d hd
  · obtain ⟨hs, hnames⟩ := hs
    obtain ⟨n, hn⟩ := exists_mem_joinedRows.mpr hs
    obtain ⟨d, hd, hid⟩ := hc.opened _ (hrows.mem_iff.mpr hn)
    obtain ⟨hmem, hnames'⟩ := hentry d hd
    have hrow : d.summary.1 = s.1 :=
      h.role_eq (mem_rolesOfUser.mp hmem).1 (mem_rolesOfUser.mp hs).1 hid
    refine List.mem_map.mpr ⟨d, hd, Prod.ext hrow (Finset.ext fun n => ?_)⟩
    rw [hnames', hnames, hrow]

/-- The loop of `get_user_roles` loads the role of every assignment. -/
theorem load_userRoles (h : db.WellFormed) (hn : db.NamesAccepted) (urs : List UserRole)
    (hall : ∀ ur ∈ urs, ∃ row ∈ db.roles, row.id = ur.roleId.value) :
    ∃ roles : List Role, (urs.mapM fun ur => db.acquireById ur.roleId) = .ok (roles.map some) ∧
      roles.map Role.roleId = urs.map UserRole.roleId ∧
      ∀ role ∈ roles, db.Loads role.roleId role := by
  induction urs with
  | nil => exact ⟨[], rfl, rfl, fun _ h => absurd h List.not_mem_nil⟩
  | cons ur urs ih =>
      obtain ⟨row, hrow, hid⟩ := hall ur List.mem_cons_self
      obtain ⟨role, hrole, hload, -⟩ := acquireById_some h hn hrow ur.roleId hid
      obtain ⟨roles, hroles, hids, hloads⟩ := ih fun ur' h' => hall ur' (List.mem_cons_of_mem _ h')
      refine ⟨role :: roles, ?_, ?_, ?_⟩
      · rw [List.mapM_cons, hrole, hroles]
        rfl
      · rw [List.map_cons, List.map_cons, hids, hload.roleId]
      · rintro role' hmem
        rcases List.mem_cons.mp hmem with rfl | hmem
        · rw [hload.roleId]
          exact hload
        · exact hloads role' hmem

/-- **The service**: it returns the roles of the user with their names, once each. -/
theorem serviceUserRoles_total (h : db.WellFormed) (hn : db.NamesAccepted) (hi : db.IdsAccepted)
    (u : UserID) : ∃ roles, db.serviceUserRoles u = .ok roles ∧
      (roles.map Role.summary).Nodup ∧
      ∀ s, s ∈ roles.map Role.summary ↔ db.Summarises u.value s := by
  -- the assignments
  have hmake : ∀ row ∈ db.userRoles.filter fun row => row.userId = u.value,
      ∃ ur, row.toUserRole = .ok ur := by
    intro row hrow
    obtain ⟨hrow, hu⟩ := List.mem_filter.mp hrow
    have hu : row.userId = u.value := of_decide_eq_true hu
    obtain ⟨role, hrole, hid⟩ := List.mem_map.mp (h.assignmentRole row hrow)
    have hr : row.roleId ≠ nilUuid := hid ▸ hi.roles role hrole
    have hmakeUser : rbacUserID row.userId = .ok ⟨row.userId, hu ▸ u.ne_nil⟩ := by
      rw [rbacUserID, UserID.make, dif_pos (hu ▸ u.ne_nil)]
      rfl
    have hmakeRole : RoleID.make row.roleId = .ok ⟨row.roleId, hr⟩ := dif_pos hr
    have hby : ∃ b, rbacOptUserID row.assignedBy = .ok b := by
      cases hb : row.assignedBy with
      | none => exact ⟨none, rfl⟩
      | some b =>
          have hne := hi.assignedBy row hrow b hb
          refine ⟨some ⟨b, hne⟩, ?_⟩
          rw [rbacOptUserID, rbacUserID, UserID.make, dif_pos hne]
          rfl
    obtain ⟨b, hb⟩ := hby
    exact ⟨⟨⟨row.userId, _⟩, ⟨row.roleId, hr⟩, row.assignedAt, b⟩,
      by rw [UserRoleRow.toUserRole, hmakeUser, hmakeRole, hb]; rfl⟩
  obtain ⟨urs, hurs⟩ := mapM_ok hmake
  have hids : urs.map (fun ur => ur.roleId.value) =
      (db.userRoles.filter fun row => row.userId = u.value).map UserRoleRow.roleId := by
    refine map_of_mapM_ok (fun row ur hrow => ?_) hurs
    obtain ⟨u', -, hrow⟩ := except_bind_eq_ok.mp hrow
    obtain ⟨r, hr, hrow⟩ := except_bind_eq_ok.mp hrow
    obtain ⟨b, -, hrow⟩ := except_bind_eq_ok.mp hrow
    obtain rfl := Except.ok.inj hrow
    exact RoleID.make_ok hr
  have hassigned : ∀ r : Uuid, r ∈ urs.map (fun ur => ur.roleId.value) ↔
      ∃ a ∈ db.userRoles, a.userId = u.value ∧ a.roleId = r := by
    intro r
    rw [hids, List.mem_map]
    simp only [List.mem_filter, decide_eq_true_eq, and_assoc]
  -- their roles
  obtain ⟨roles, hroles, hrids, hloads⟩ := load_userRoles h hn urs fun ur hur => by
    obtain ⟨a, ha, -, hr⟩ := (hassigned ur.roleId.value).mp (List.mem_map_of_mem hur)
    exact List.mem_map.mp (hr ▸ h.assignmentRole a ha)
  have hvalues : roles.map (fun role => role.roleId.value) =
      urs.map (fun ur => ur.roleId.value) := by
    have := congrArg (List.map RoleID.value) hrids
    rwa [List.map_map, List.map_map] at this
  have hrole : ∀ role ∈ roles, db.Summarises u.value role.summary := by
    intro role hmem
    have hload := hloads role hmem
    have hr := (hassigned role.roleId.value).mp (hvalues ▸ List.mem_map_of_mem hmem)
    refine ⟨mem_rolesOfUser.mpr ⟨hload.row, hr⟩, fun n => ?_⟩
    exact List.mem_toFinset.trans (hload.names n)
  refine ⟨roles, ?_, List.Nodup.of_map (fun s : RoleSummary => s.1.id) ?_,
    fun s => ⟨fun hs => ?_, fun hs => ?_⟩⟩
  · have hacquire : db.acquireByUserId u = .ok urs := hurs
    rw [serviceUserRoles, hacquire]
    change (urs.mapM fun ur => db.acquireById ur.roleId) >>= _ = _
    rw [hroles]
    change Except.ok ((roles.map some).filterMap id) = _
    rw [List.filterMap_map]
    simp
  · rw [List.map_map]
    change (roles.map fun role => role.roleId.value).Nodup
    rw [hvalues, hids]
    -- a user is assigned a role once
    refine (List.nodup_map_iff_inj_on ((h.assignments.of_map).filter _)).mpr fun a ha b hb heq => ?_
    obtain ⟨ha, hau⟩ := List.mem_filter.mp ha
    obtain ⟨hb, hbu⟩ := List.mem_filter.mp hb
    have hu := (of_decide_eq_true hau).trans (of_decide_eq_true hbu).symm
    exact List.inj_on_of_nodup_map h.assignments ha hb (Prod.ext hu heq)
  · obtain ⟨role, hmem, rfl⟩ := List.mem_map.mp hs
    exact hrole role hmem
  · obtain ⟨hs, hnames⟩ := hs
    have hr := (hassigned s.1.id).mpr (mem_rolesOfUser.mp hs).2
    rw [← hvalues] at hr
    obtain ⟨role, hmem, hid⟩ := List.mem_map.mp hr
    obtain ⟨hmem', hnames'⟩ := hrole role hmem
    have hrow : role.summary.1 = s.1 :=
      h.role_eq (mem_rolesOfUser.mp hmem').1 (mem_rolesOfUser.mp hs).1 hid
    refine List.mem_map.mpr ⟨role, hmem, Prod.ext hrow (Finset.ext fun n => ?_)⟩
    rw [hnames', hnames, hrow]

/-- **The one-query permission check agrees with the plain one**: on tables whose constraints hold
and whose names and ids the value objects accept, the reader and the service return the same
roles with the same permission names, for rows in any order, and give the same answer. -/
theorem permission_checks_agree (h : db.WellFormed) (hn : db.NamesAccepted) (hi : db.IdsAccepted)
    (u : UserID) (permission : String) {rows : List (RoleRow × Option String)}
    (hrows : rows.Perm (db.joinedRows (db.rolesOfUser u.value))) :
    db.checkPermission u.value permission = db.hasPermission u permission ∧
      ∃ roles, db.serviceUserRoles u = .ok roles ∧
        ((rows.foldl RoleReadDTO.collect []).map RoleReadDTO.summary).Perm
          (roles.map Role.summary) ∧
        db.hasPermission u permission = .ok ((rows.foldl RoleReadDTO.collect []).any
          fun r => r.permissions.contains permission) := by
  obtain ⟨roles, hroles, hnodup, hmem⟩ := serviceUserRoles_total h hn hi u
  have hperm : ∀ {rows : List (RoleRow × Option String)},
      rows.Perm (db.joinedRows (db.rolesOfUser u.value)) →
      ((rows.foldl RoleReadDTO.collect []).map RoleReadDTO.summary).Perm
        (roles.map Role.summary) := by
    intro rows hrows
    obtain ⟨hnodup', hmem'⟩ := mem_entries h hrows
    exact (List.perm_ext_iff_of_nodup hnodup' hnodup).mpr fun s => (hmem' s).trans (hmem s).symm
  have hanswer : ∀ {rows : List (RoleRow × Option String)},
      rows.Perm (db.joinedRows (db.rolesOfUser u.value)) →
      db.hasPermission u permission = .ok ((rows.foldl RoleReadDTO.collect []).any
        fun r => r.permissions.contains permission) := by
    intro rows hrows
    rw [hasPermission, hroles]
    refine congrArg Except.ok ?_
    have hsum : ∀ (l : List RoleSummary) (l' : List RoleSummary), l.Perm l' →
        l.any (fun s => decide (permission ∈ s.2)) = l'.any fun s => decide (permission ∈ s.2) :=
      fun _ _ hp => hp.any_eq
    have heq := hsum _ _ (hperm hrows)
    rw [List.any_map, List.any_map] at heq
    have hd : (fun s : RoleSummary => decide (permission ∈ s.2)) ∘ RoleReadDTO.summary =
        fun d => d.permissions.contains permission := by
      funext d
      simp [RoleReadDTO.summary]
    have hr : (fun s : RoleSummary => decide (permission ∈ s.2)) ∘ Role.summary =
        fun role => role.hasPermission permission := by
      funext role
      rw [Bool.eq_iff_iff, Role.hasPermission_iff]
      simp [Role.summary]
    rw [hd, hr] at heq
    exact heq.symm
  refine ⟨?_, roles, hroles, hperm hrows, hanswer hrows⟩
  have hmake : UserID.make u.value = .ok u := dif_pos u.ne_nil
  rw [checkPermission, hmake, hanswer (List.perm_insertionSort (fun a b => a.1.name ≤ b.1.name) _)]
  rfl

end RbacDb

namespace Reference

/-- The account, with a role under the nil UUID that carries the permission `admin`. -/
def nilRoleDb : RbacDb where
  users := [alice false]
  permissions := [adminRow]
  roles := [⟨nilUuid, "admin", none⟩]
  rolePermissions := [(nilUuid, adminRow.id)]
  userRoles := [⟨aliceId, nilUuid, clock, none⟩]

end Reference

open Reference

/-- On the store whose only administrator is the account, both checks say yes, with the rows in
reverse order as well. -/
theorem checks_agree_here :
    adminStore.db.hasPermission ⟨aliceId, by decide⟩ "admin" = .ok true ∧
      adminStore.db.checkPermission aliceId "admin" = .ok true := by
  have hn : adminStore.db.NamesAccepted := by constructor <;> decide +kernel
  have hi : adminStore.db.IdsAccepted := by constructor <;> decide +kernel
  obtain ⟨heq, roles, -, -, hanswer⟩ := RbacDb.permission_checks_agree adminStore_wellFormed hn hi
    ⟨aliceId, by decide⟩ "admin" (List.reverse_perm _)
  have htrue : adminStore.db.hasPermission ⟨aliceId, by decide⟩ "admin" = .ok true :=
    hanswer.trans (congrArg Except.ok (by decide +kernel))
  exact ⟨htrue, heq.trans htrue⟩

/-- **A role under the nil UUID tells the two ways apart**: the constraints of the tables allow it
and its name is accepted, the reader says yes, and `RoleID` refuses it on the plain way. -/
theorem nil_role_id_tells_them_apart :
    nilRoleDb.WellFormed ∧ nilRoleDb.NamesAccepted ∧
      nilRoleDb.checkPermission aliceId "admin" = .ok true ∧
      nilRoleDb.hasPermission ⟨aliceId, by decide⟩ "admin" = .error (.wrongRoleID nilUuid) := by
  refine ⟨?_, ?_, by decide +kernel, by decide +kernel⟩
  · constructor <;> decide +kernel
  · constructor <;> decide +kernel

end BackendTemplate
