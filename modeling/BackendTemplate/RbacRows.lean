import BackendTemplate.Keyed
import BackendTemplate.RowLocks
import BackendTemplate.Rbac

/-!
# The Role Tables, One Row at a Time

What each row write does to the tables of the role store. A write the constraints admit keeps
them (`WellFormed.apply`); the statements of the repositories are then read as functions on the
tables, and the synchronisation of `SQLAlchemyRoleRepo.update` as one on the permission names a
role carries (`carries_relink`).

## Main results

* `RbacDb.WellFormed.view` — admitted writes keep the constraints.
* `RbacDb.carries_relink` — the set difference of `update` leaves exactly the desired names.
-/

namespace BackendTemplate

namespace RbacDb

variable {db : RbacDb}

/-! ### The constraints -/

/-- The ids of a table after one of its rows was replaced by one with the same id. -/
theorem map_id_update {rows : List RoleRow} (row : RoleRow) :
    (rows.map fun r => if r.id = row.id then row else r).map RoleRow.id = rows.map RoleRow.id := by
  rw [List.map_map]
  refine List.map_congr_left fun r _ => ?_
  simp only [Function.comp_apply]
  split
  · rename_i h
    exact h.symm
  · rfl

theorem WellFormed.roleInsert (h : db.WellFormed) {row : RoleRow}
    (ha : db.admits (.roleInsert row) = true) : (db.apply (.roleInsert row)).WellFormed := by
  have hnew : ∀ r ∈ db.roles, r.id ≠ row.id ∧ r.name ≠ row.name := by
    simpa [admits, not_or] using ha
  have hgrow : ∀ x ∈ db.roles.map RoleRow.id, x ∈ (db.roles ++ [row]).map RoleRow.id := by
    intro x hx
    rw [List.map_append]
    exact List.mem_append_left _ hx
  refine { h with
    roleIds := Keyed.nodup_append h.roleIds ?_
    roleNames := Keyed.nodup_append h.roleNames ?_
    linkRole := fun l hl => hgrow _ (h.linkRole l hl)
    assignmentRole := fun a ha => hgrow _ (h.assignmentRole a ha) }
  · rintro hmem
    obtain ⟨r, hr, hid⟩ := List.mem_map.mp hmem
    exact (hnew r hr).1 hid
  · rintro hmem
    obtain ⟨r, hr, hname⟩ := List.mem_map.mp hmem
    exact (hnew r hr).2 hname

theorem WellFormed.roleUpdate (h : db.WellFormed) {row : RoleRow}
    (ha : db.admits (.roleUpdate row) = true) : (db.apply (.roleUpdate row)).WellFormed := by
  have hother : ∀ r ∈ db.roles, r.id ≠ row.id → r.name ≠ row.name := by
    simpa [admits] using ha
  have hids := @map_id_update db.roles row
  refine { h with
    roleIds := hids.symm ▸ h.roleIds
    roleNames := ?_
    linkRole := fun l hl => hids.symm ▸ h.linkRole l hl
    assignmentRole := fun a ha => hids.symm ▸ h.assignmentRole a ha }
  -- the new name is that of no other row, and one row at most has the id
  rw [apply, List.map_map]
  refine (List.nodup_map_iff_inj_on h.roleIds.of_map).mpr fun r hr r' hr' heq => ?_
  simp only [Function.comp_apply] at heq
  split at heq
  · rename_i hid
    split at heq
    · rename_i hid'
      exact List.inj_on_of_nodup_map h.roleIds hr hr' (hid.trans hid'.symm)
    · rename_i hid'
      exact absurd heq.symm (hother r' hr' hid')
  · rename_i hid
    split at heq
    · exact absurd heq (hother r hr hid)
    · exact List.inj_on_of_nodup_map h.roleNames hr hr' heq

/-- Deleting a role takes its links and assignments along. -/
theorem WellFormed.roleDelete (h : db.WellFormed) (row : RoleRow) :
    (db.apply (.roleDelete row)).WellFormed := by
  have hstay : ∀ x ∈ db.roles.map RoleRow.id, x ≠ row.id →
      x ∈ (db.roles.filter fun r => r.id ≠ row.id).map RoleRow.id := by
    intro x hx hne
    obtain ⟨r, hr, rfl⟩ := List.mem_map.mp hx
    exact List.mem_map_of_mem (List.mem_filter.mpr ⟨hr, decide_eq_true hne⟩)
  exact { h with
    roleIds := h.roleIds.sublist (List.filter_sublist.map _)
    roleNames := h.roleNames.sublist (List.filter_sublist.map _)
    links := h.links.filter _
    linkRole := fun l hl => by
      obtain ⟨hl, hne⟩ := List.mem_filter.mp hl
      exact hstay _ (h.linkRole l hl) (of_decide_eq_true hne)
    linkPermission := fun l hl => h.linkPermission l (List.mem_filter.mp hl).1
    assignments := h.assignments.sublist (List.filter_sublist.map _)
    assignmentUser := fun a ha => h.assignmentUser a (List.mem_filter.mp ha).1
    assignmentRole := fun a ha => by
      obtain ⟨ha, hne⟩ := List.mem_filter.mp ha
      exact hstay _ (h.assignmentRole a ha) (of_decide_eq_true hne)
    assignmentBy := fun a ha => h.assignmentBy a (List.mem_filter.mp ha).1 }

theorem WellFormed.permissionInsert (h : db.WellFormed) {row : PermissionRow}
    (ha : db.admits (.permissionInsert row) = true) :
    (db.apply (.permissionInsert row)).WellFormed := by
  have hnew : ∀ p ∈ db.permissions, p.id ≠ row.id ∧ p.name ≠ row.name := by
    simpa [admits, not_or] using ha
  refine { h with
    permissionIds := Keyed.nodup_append h.permissionIds ?_
    permissionNames := Keyed.nodup_append h.permissionNames ?_
    linkPermission := fun l hl => ?_ }
  · rintro hmem
    obtain ⟨p, hp, hid⟩ := List.mem_map.mp hmem
    exact (hnew p hp).1 hid
  · rintro hmem
    obtain ⟨p, hp, hname⟩ := List.mem_map.mp hmem
    exact (hnew p hp).2 hname
  · rw [apply, List.map_append]
    exact List.mem_append_left _ (h.linkPermission l hl)

theorem WellFormed.linkInsert (h : db.WellFormed) {r p : Uuid}
    (ha : db.admits (.linkInsert r p) = true) : (db.apply (.linkInsert r p)).WellFormed := by
  simp only [admits, Bool.and_eq_true, Bool.not_eq_true', List.contains_eq_mem,
    decide_eq_false_iff_not, List.any_eq_true, decide_eq_true_eq] at ha
  obtain ⟨⟨hnew, role, hrole, rfl⟩, perm, hperm, rfl⟩ := ha
  refine { h with
    links := List.nodup_append.mpr ⟨h.links, List.nodup_singleton _, ?_⟩
    linkRole := fun l hl => ?_
    linkPermission := fun l hl => ?_ }
  · rintro l hl l' hl' rfl
    exact hnew (List.mem_singleton.mp hl' ▸ hl)
  · rcases List.mem_append.mp hl with hl | hl
    · exact h.linkRole l hl
    · obtain rfl := List.mem_singleton.mp hl
      exact List.mem_map_of_mem hrole
  · rcases List.mem_append.mp hl with hl | hl
    · exact h.linkPermission l hl
    · obtain rfl := List.mem_singleton.mp hl
      exact List.mem_map_of_mem hperm

theorem WellFormed.userRoleInsert (h : db.WellFormed) {row : UserRoleRow}
    (ha : db.admits (.userRoleInsert row) = true) :
    (db.apply (.userRoleInsert row)).WellFormed := by
  simp only [admits, Bool.and_eq_true, Bool.not_eq_true', List.any_eq_false, List.any_eq_true,
    decide_eq_true_eq, not_and] at ha
  obtain ⟨⟨⟨hnew, user, huser, huid⟩, role, hrole, hrid⟩, hby⟩ := ha
  refine { h with
    assignments := Keyed.nodup_append h.assignments ?_
    assignmentUser := fun a ha => ?_
    assignmentRole := fun a ha => ?_
    assignmentBy := fun a ha b hb => ?_ }
  · rintro hmem
    obtain ⟨a, ha, heq⟩ := List.mem_map.mp hmem
    obtain ⟨hu, hr⟩ := Prod.mk.inj heq
    exact hnew a ha hu hr
  · rcases List.mem_append.mp ha with ha | ha
    · exact h.assignmentUser a ha
    · obtain rfl := List.mem_singleton.mp ha
      exact huid ▸ List.mem_map_of_mem huser
  · rcases List.mem_append.mp ha with ha | ha
    · exact h.assignmentRole a ha
    · obtain rfl := List.mem_singleton.mp ha
      exact hrid ▸ List.mem_map_of_mem hrole
  · rcases List.mem_append.mp ha with ha | ha
    · exact h.assignmentBy a ha b hb
    · obtain rfl := List.mem_singleton.mp ha
      rw [Option.mem_def.mp hb] at hby
      obtain ⟨u, hu, hub⟩ := List.any_eq_true.mp hby
      exact of_decide_eq_true hub ▸ List.mem_map_of_mem hu

/-- **A write the constraints admit keeps them.** -/
theorem WellFormed.apply (h : db.WellFormed) {w : RowWrite} (ha : db.admits w = true) :
    (db.apply w).WellFormed := by
  cases w with
  | roleInsert row => exact h.roleInsert ha
  | roleUpdate row => exact h.roleUpdate ha
  | roleDelete row => exact h.roleDelete row
  | permissionInsert row => exact h.permissionInsert ha
  | linkInsert r p => exact h.linkInsert ha
  | linkDelete r p =>
      exact { h with
        links := h.links.filter _
        linkRole := fun l hl => h.linkRole l (List.mem_filter.mp hl).1
        linkPermission := fun l hl => h.linkPermission l (List.mem_filter.mp hl).1 }
  | userRoleInsert row => exact h.userRoleInsert ha
  | userRoleDelete u r =>
      exact { h with
        assignments := h.assignments.sublist (List.filter_sublist.map _)
        assignmentUser := fun a ha => h.assignmentUser a (List.mem_filter.mp ha).1
        assignmentRole := fun a ha => h.assignmentRole a (List.mem_filter.mp ha).1
        assignmentBy := fun a ha => h.assignmentBy a (List.mem_filter.mp ha).1 }

/-- **Admitted writes keep the constraints.** -/
theorem WellFormed.view (h : db.WellFormed) {ws : List RowWrite} (ha : db.admitsAll ws = true) :
    (RowLocks.view RbacDb.apply db ws).WellFormed := by
  induction ws generalizing db with
  | nil => exact h
  | cons w ws ih =>
      rw [admitsAll, Bool.and_eq_true] at ha
      exact ih (h.apply ha.1) ha.2

/-! ### Lookups -/

theorem WellFormed.roleById_eq_some (h : db.WellFormed) {r : Uuid} {row : RoleRow} :
    db.roleById r = some row ↔ row ∈ db.roles ∧ row.id = r := by
  constructor
  · intro hr
    exact ⟨Keyed.mem_of_lookup hr, Keyed.key_of_lookup hr⟩
  · rintro ⟨hrow, rfl⟩
    exact (Keyed.mem_iff_lookup h.roleIds).mp hrow

theorem WellFormed.permissionByName_eq_some (h : db.WellFormed) {name : String}
    {row : PermissionRow} :
    db.permissionByName name = some row ↔ row ∈ db.permissions ∧ row.name = name := by
  constructor
  · intro hr
    exact ⟨Keyed.mem_of_lookup hr, Keyed.key_of_lookup hr⟩
  · rintro ⟨hrow, rfl⟩
    exact (Keyed.mem_iff_lookup h.permissionNames).mp hrow

theorem mem_permissionsOf {r : Uuid} {row : PermissionRow} :
    row ∈ db.permissionsOf r ↔ row ∈ db.permissions ∧ (r, row.id) ∈ db.rolePermissions := by
  simp only [permissionsOf, List.mem_flatMap, List.mem_filter, decide_eq_true_eq]
  constructor
  · rintro ⟨⟨r', p⟩, ⟨hl, rfl⟩, hrow, rfl⟩
    exact ⟨hrow, hl⟩
  · rintro ⟨hrow, hl⟩
    exact ⟨(r, row.id), ⟨hl, rfl⟩, hrow, rfl⟩

theorem mem_permissionIdsOf {r p : Uuid} :
    p ∈ db.permissionIdsOf r ↔ (r, p) ∈ db.rolePermissions := by
  simp only [permissionIdsOf, List.mem_map, List.mem_filter, decide_eq_true_eq]
  constructor
  · rintro ⟨⟨r', p'⟩, ⟨hl, rfl⟩, rfl⟩
    exact hl
  · exact fun hl => ⟨(r, p), ⟨hl, rfl⟩, rfl⟩

/-- The names of the joined rows are the stored names of the role. -/
theorem carries_iff {r : Uuid} {name : String} :
    db.Carries r name ↔ ∃ row ∈ db.permissionsOf r, row.name = name := by
  constructor
  · rintro ⟨p, hp, hl, hn⟩
    exact ⟨p, mem_permissionsOf.mpr ⟨hp, hl⟩, hn⟩
  · rintro ⟨p, hp, hn⟩
    exact ⟨p, (mem_permissionsOf.mp hp).1, (mem_permissionsOf.mp hp).2, hn⟩

/-! ### Statements -/

/-- The tables after a statement. -/
def after (db : RbacDb) (s : Statement) : RbacDb :=
  RowLocks.view RbacDb.apply db (db.rowWrites s)

/-- One row has the id. -/
theorem filter_roles (h : (db.roles.map RoleRow.id).Nodup) {row : RoleRow} (hrow : row ∈ db.roles) :
    db.roles.filter (fun r => r.id = row.id) = [row] := by
  have hmem : ∀ r ∈ db.roles.filter (fun r => r.id = row.id), r = row := by
    intro r hr
    obtain ⟨hr, hid⟩ := List.mem_filter.mp hr
    exact List.inj_on_of_nodup_map h hr hrow (of_decide_eq_true hid)
  have hlen : (db.roles.filter fun r => r.id = row.id).length = 1 := by
    refine le_antisymm ?_ (List.length_pos_of_mem (List.mem_filter.mpr ⟨hrow, by simp⟩))
    have hnodup := h.of_map.filter (fun r => decide (r.id = row.id))
    rw [List.eq_replicate_of_mem hmem] at hnodup
    exact List.nodup_replicate.mp hnodup
  rw [List.eq_replicate_of_mem hmem, hlen]
  rfl

/-- Writing a role back under its own name and description finds its row. -/
theorem rowWrites_updateRole (h : (db.roles.map RoleRow.id).Nodup) {row : RoleRow}
    (hrow : row ∈ db.roles) :
    db.rowWrites (.updateRole row.id row.name row.description) = [.roleUpdate row] := by
  rw [rowWrites, filter_roles h hrow]
  rfl

/-- A row that is there already changes nothing. -/
theorem apply_roleUpdate (h : (db.roles.map RoleRow.id).Nodup) {row : RoleRow}
    (hrow : row ∈ db.roles) : db.apply (.roleUpdate row) = db := by
  have hroles : (db.roles.map fun r => if r.id = row.id then row else r) = db.roles := by
    conv_rhs => rw [← List.map_id db.roles]
    refine List.map_congr_left fun r hr => ?_
    split
    · rename_i hid
      exact (List.inj_on_of_nodup_map h hr hrow hid).symm
    · rfl
  rw [RbacDb.apply, hroles]

/-- The name of a role is that of no other one. -/
theorem admits_roleUpdate (h : (db.roles.map RoleRow.name).Nodup) {row : RoleRow}
    (hrow : row ∈ db.roles) : db.admits (.roleUpdate row) = true := by
  simp only [admits, Bool.not_eq_true', List.any_eq_false, Bool.and_eq_true, decide_eq_true_eq,
    not_and]
  exact fun r hr hid hname => hid (congrArg RoleRow.id (List.inj_on_of_nodup_map h hr hrow hname))

/-- Writing a role back under its own name and description changes nothing. -/
theorem WellFormed.updateRole (h : db.WellFormed) {row : RoleRow} (hrow : row ∈ db.roles) :
    db.admitsAll (db.rowWrites (.updateRole row.id row.name row.description)) = true ∧
      RowLocks.view RbacDb.apply db
        (db.rowWrites (.updateRole row.id row.name row.description)) = db := by
  rw [rowWrites_updateRole h.roleIds hrow]
  refine ⟨?_, apply_roleUpdate h.roleIds hrow⟩
  rw [admitsAll, admits_roleUpdate h.roleNames hrow]
  rfl

/-- The tables without a role, its links and its assignments. -/
def withoutRole (db : RbacDb) (r : Uuid) : RbacDb :=
  { db with
    roles := db.roles.filter fun row => row.id ≠ r
    rolePermissions := db.rolePermissions.filter fun l => l.1 ≠ r
    userRoles := db.userRoles.filter fun a => a.roleId ≠ r }

/-- What deleting some assignments leaves. -/
theorem view_userRoleDeletes (as : List UserRoleRow) :
    RowLocks.view RbacDb.apply db (as.map fun a => .userRoleDelete a.userId a.roleId) =
      { db with userRoles := db.userRoles.filter fun a =>
          ∀ a' ∈ as, ¬ (a.userId = a'.userId ∧ a.roleId = a'.roleId) } := by
  induction as generalizing db with
  | nil => simp
  | cons a as ih =>
      change RowLocks.view RbacDb.apply (db.apply (.userRoleDelete a.userId a.roleId)) _ = _
      rw [ih]
      simp only [RbacDb.apply, List.filter_filter, List.forall_mem_cons, Bool.decide_and]
      congr 1
      refine List.filter_congr fun x _ => ?_
      rw [Bool.and_comm]

/-- `DELETE FROM user_roles` takes the rows its condition finds. -/
theorem view_deleteUserRoles {p : UserRoleRow → Bool}
    (hp : ∀ a a' : UserRoleRow, a.userId = a'.userId → a.roleId = a'.roleId → p a = p a') :
    RowLocks.view RbacDb.apply db
        ((db.userRoles.filter p).map fun a => .userRoleDelete a.userId a.roleId) =
      { db with userRoles := db.userRoles.filter fun a => !p a } := by
  rw [view_userRoleDeletes]
  congr 1
  refine List.filter_congr fun a ha => ?_
  rw [Bool.eq_iff_iff, decide_eq_true_eq, Bool.not_eq_true']
  constructor
  · intro h
    by_contra hpa
    exact h a (List.mem_filter.mpr ⟨ha, by simpa using hpa⟩) ⟨rfl, rfl⟩
  · rintro hpa a' ha' ⟨hu, hr⟩
    rw [hp a a' hu hr, (List.mem_filter.mp ha').2] at hpa
    exact absurd hpa (by simp)

/-- Deletions are always admitted. -/
theorem admitsAll_linkDeletes (ls : List (Uuid × Uuid)) :
    db.admitsAll (ls.map fun l => .linkDelete l.1 l.2) = true := by
  induction ls generalizing db with
  | nil => rfl
  | cons l ls ih =>
      rw [List.map_cons, admitsAll, Bool.and_eq_true]
      exact ⟨rfl, ih⟩

/-- What deleting some links leaves. -/
theorem view_linkDeletes (ls : List (Uuid × Uuid)) :
    RowLocks.view RbacDb.apply db (ls.map fun l => .linkDelete l.1 l.2) =
      { db with rolePermissions := db.rolePermissions.filter fun l => l ∉ ls } := by
  induction ls generalizing db with
  | nil => simp
  | cons l ls ih =>
      change RowLocks.view RbacDb.apply (db.apply (.linkDelete l.1 l.2)) _ = _
      rw [ih]
      simp only [RbacDb.apply, List.filter_filter, List.mem_cons, not_or, Bool.decide_and]
      congr 1
      refine List.filter_congr fun x _ => ?_
      rw [Bool.and_comm]

/-- `DELETE FROM role_permissions WHERE role_id = r AND permission_id IN ids`. -/
theorem view_deleteRolePermissions (r : Uuid) (ids : List Uuid) :
    RowLocks.view RbacDb.apply db (db.rowWrites (.deleteRolePermissions r ids)) =
      { db with
        rolePermissions := db.rolePermissions.filter fun l => ¬ (l.1 = r ∧ l.2 ∈ ids) } := by
  rw [rowWrites, view_linkDeletes]
  congr 1
  refine List.filter_congr fun l hl => ?_
  simp only [List.mem_filter, hl, decide_eq_true_eq, true_and]

/-- **Deleting a role takes its links and its assignments along.** -/
theorem WellFormed.after_delete (h : db.WellFormed) {row : RoleRow} (hrow : row ∈ db.roles) :
    ((db.after (.deleteRolePermissionsOf row.id)).after (.deleteUserRolesOf row.id)).after
      (.deleteRole row.id) = db.withoutRole row.id := by
  have hlinks : db.after (.deleteRolePermissionsOf row.id) =
      { db with rolePermissions := db.rolePermissions.filter fun l => l.1 ≠ row.id } := by
    rw [after, rowWrites, view_linkDeletes]
    congr 1
    refine List.filter_congr fun l hl => ?_
    simp [List.mem_filter, hl]
  have hassigned : (db.after (.deleteRolePermissionsOf row.id)).after
      (.deleteUserRolesOf row.id) =
      { db with
        rolePermissions := db.rolePermissions.filter fun l => l.1 ≠ row.id
        userRoles := db.userRoles.filter fun a => a.roleId ≠ row.id } := by
    rw [after, rowWrites, view_deleteUserRoles fun a a' _ h => by rw [h], hlinks]
    simp
  rw [hassigned, after, rowWrites]
  simp only [filter_roles h.roleIds hrow]
  simp [RowLocks.view, RbacDb.apply, withoutRole]

/-! ### The synchronisation of `update` -/

/-- The links after `update` has synchronised role `r` with the permissions `ids`. -/
def relink (db : RbacDb) (r : Uuid) (ids : List Uuid) : RbacDb :=
  { db with rolePermissions := (db.rolePermissions.filter fun l => l.1 = r → l.2 ∈ ids) ++
      (ids.filter fun p => p ∉ db.permissionIdsOf r).map fun p => (r, p) }

/-- `relink` as `update` computes it: the links that are no longer desired go, the missing ones
come. -/
theorem relink_eq (r : Uuid) (ids : List Uuid) :
    { db with rolePermissions :=
      (db.rolePermissions.filter fun l =>
          ¬ (l.1 = r ∧ l.2 ∈ (db.permissionIdsOf r).filter fun p => p ∉ ids)) ++
        (ids.filter fun p => p ∉ db.permissionIdsOf r).map fun p => (r, p) } = db.relink r ids := by
  rw [relink]
  congr 2
  refine List.filter_congr fun l hl => ?_
  have hcur : l.1 = r → l.2 ∈ db.permissionIdsOf r :=
    fun h => mem_permissionIdsOf.mpr (h ▸ hl)
  simp only [List.mem_filter, decide_eq_true_eq, decide_eq_decide]
  constructor
  · intro h hr
    by_contra hp
    exact h ⟨hr, hcur hr, hp⟩
  · rintro h ⟨hr, -, hp⟩
    exact hp (h hr)

@[simp] theorem relink_permissions (r : Uuid) (ids : List Uuid) :
    (db.relink r ids).permissions = db.permissions := rfl

@[simp] theorem relink_roles (r : Uuid) (ids : List Uuid) :
    (db.relink r ids).roles = db.roles := rfl

@[simp] theorem relink_userRoles (r : Uuid) (ids : List Uuid) :
    (db.relink r ids).userRoles = db.userRoles := rfl

/-- The role is linked to the desired permissions, and no other role is touched. -/
theorem mem_relink {r : Uuid} {ids : List Uuid} {r' p : Uuid} :
    (r', p) ∈ (db.relink r ids).rolePermissions ↔
      if r' = r then p ∈ ids else (r', p) ∈ db.rolePermissions := by
  simp only [relink, List.mem_append, List.mem_filter, List.mem_map, decide_eq_true_eq,
    Prod.mk.injEq, mem_permissionIdsOf]
  split
  · rename_i hr
    subst hr
    constructor
    · rintro (⟨-, hp⟩ | ⟨q, ⟨hq, -⟩, -, rfl⟩)
      · exact hp rfl
      · exact hq
    · intro hp
      by_cases hl : (r', p) ∈ db.rolePermissions
      · exact Or.inl ⟨hl, fun _ => hp⟩
      · exact Or.inr ⟨p, ⟨hp, hl⟩, rfl, rfl⟩
  · rename_i hr
    constructor
    · rintro (⟨hl, -⟩ | ⟨q, -, hrr, -⟩)
      · exact hl
      · exact absurd hrr.symm hr
    · exact fun hl => Or.inl ⟨hl, fun h => absurd h hr⟩

/-- **What the set difference of `update` leaves**: role `r` carries exactly the names whose
permissions were desired, and every other role what it carried. -/
theorem carries_relink {r : Uuid} {ids : List Uuid} {r' : Uuid} {name : String} :
    (db.relink r ids).Carries r' name ↔
      if r' = r then ∃ p ∈ db.permissions, p.id ∈ ids ∧ p.name = name
      else db.Carries r' name := by
  simp only [Carries, mem_relink, relink_permissions]
  split
  · rfl
  · rfl

end RbacDb

end BackendTemplate
