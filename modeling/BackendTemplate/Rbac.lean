import BackendTemplate.Events

/-!
# Roles and Permissions: Entities, Tables and the Reader

The role side of the service: the value objects and entities of `domain/user/entities/rbac.py`,
the `permissions`, `roles`, `role_permissions` and `user_roles` tables with their constraints,
the statements the repositories execute on them, and the one-query reader that every
administrative request goes through.

A list order stands for whatever order the database returns rows in. A statement acts on the
rows it finds (`RbacDb.rowWrites`); each row write locks its row, a foreign key holds the row it
points at, and deleting a role cascades to its links and assignments.

## Main results

* `RbacDb.WellFormed` — the keys and foreign keys of the tables.
* `RbacDb.checkPermission_iff` — what the join and the grouping of the reader come to.
-/

namespace BackendTemplate

/-! ### Errors and value objects -/

/-- How a request on roles can fail. -/
inductive RbacError
  | app (e : AppError)
  | roleAlreadyExists (name : String)
  | roleNotFound (roleId : Uuid)
  | permissionDenied (permission : String)
  | wrongRoleName (name : String)
  | wrongRoleID (roleId : Uuid)
  | wrongPermissionName (name : String)
deriving DecidableEq

/-- `[a-zA-Z0-9_-]`. -/
def isRoleNameChar (c : Char) : Bool := isAsciiLetter c || isAsciiDigit c || c = '_' || c = '-'

/-- `[a-zA-Z0-9_:.-]`. -/
def isPermissionNameChar (c : Char) : Bool :=
  isAsciiLetter c || isAsciiDigit c || c = '_' || c = ':' || c = '.' || c = '-'

/-- `^[a-zA-Z]C{least,most}$` for a class `C` of characters. No character of the class is a line
break, so the repetition is taken greedily. -/
def namePattern (cls : Char → Bool) (least most : ℕ) : List Char → Bool
  | [] => false
  | c :: cs =>
      isAsciiLetter c && decide (least ≤ (cs.takeWhile cls).length) &&
        decide ((cs.takeWhile cls).length ≤ most) && atDollar (cs.dropWhile cls)

/-- `ROLE_NAME_PATTERN.match`: `^[a-zA-Z][a-zA-Z0-9_-]{2,31}$`. -/
def roleNamePattern : List Char → Bool := namePattern isRoleNameChar 2 31

/-- `PERMISSION_NAME_PATTERN.match`: `^[a-zA-Z][a-zA-Z0-9_:.-]{1,63}$`. -/
def permissionNamePattern : List Char → Bool := namePattern isPermissionNameChar 1 63

/-- `RoleName._validate`. -/
def RoleName.validate (s : String) : Except RbacError Unit :=
  if s = "" then .error (.wrongRoleName s)
  else if !roleNamePattern s.toList then .error (.wrongRoleName s)
  else .ok ()

/-- A role name, with the validation it passed. -/
structure RoleName where
  value : String
  valid : RoleName.validate value = .ok ()
deriving DecidableEq

/-- `RoleName(value)`. -/
def RoleName.make (s : String) : Except RbacError RoleName :=
  match h : RoleName.validate s with
  | .ok () => .ok ⟨s, h⟩
  | .error e => .error e

/-- The id of a role: not the nil UUID. -/
structure RoleID where
  value : Uuid
  ne_nil : value ≠ nilUuid

theorem RoleID.value_inj {a b : RoleID} : a.value = b.value ↔ a = b := by
  cases a
  cases b
  simp

instance : DecidableEq RoleID := fun _ _ => decidable_of_iff _ RoleID.value_inj

/-- `RoleID(value)`. -/
def RoleID.make (r : Uuid) : Except RbacError RoleID :=
  if h : r ≠ nilUuid then .ok ⟨r, h⟩ else .error (.wrongRoleID r)

/-- `Permission._validate`. -/
def Permission.validate (name : String) : Except RbacError Unit :=
  if !permissionNamePattern name.toList then .error (.wrongPermissionName name) else .ok ()

/-- `Permission`, with the validation its name passed. -/
structure Permission where
  name : String
  description : Option String
  valid : Permission.validate name = .ok ()
deriving DecidableEq

/-- `Permission(name, description)`. -/
def Permission.make (name : String) (description : Option String) : Except RbacError Permission :=
  match h : Permission.validate name with
  | .ok () => .ok ⟨name, description, h⟩
  | .error e => .error e

theorem RoleName.make_ok {s : String} {n : RoleName} (h : RoleName.make s = .ok n) :
    n.value = s := by
  unfold RoleName.make at h
  split at h
  · obtain rfl := Except.ok.inj h
    rfl
  · cases h

theorem RoleID.make_ok {r : Uuid} {i : RoleID} (h : RoleID.make r = .ok i) : i.value = r := by
  unfold RoleID.make at h
  split at h
  · obtain rfl := Except.ok.inj h
    rfl
  · cases h

theorem Permission.make_ok {s : String} {d : Option String} {p : Permission}
    (h : Permission.make s d = .ok p) : p.name = s ∧ p.description = d := by
  unfold Permission.make at h
  split at h
  · obtain rfl := Except.ok.inj h
    exact ⟨rfl, rfl⟩
  · cases h

/-! ### The role entity -/

/-- `Role`. The events are those recorded and not yet pulled. -/
structure Role where
  roleId : RoleID
  name : RoleName
  description : Option String := none
  permissions : List Permission := []
  events : List DomainEvent := []
deriving DecidableEq

namespace Role

/-- `_record_event`. -/
def recordEvent (role : Role) (e : DomainEvent) : Role :=
  { role with events := role.events ++ [e] }

/-- `Role.create`, with the id it draws. -/
def create (roleId : RoleID) (name : RoleName) (description : Option String) : Role :=
  { roleId := roleId, name := name, description := description : Role }.recordEvent
    (.roleCreated roleId.value name.value)

/-- The names of the permissions a role carries. -/
def permissionNames (role : Role) : List String := role.permissions.map Permission.name

/-- `Role.has_permission`. -/
def hasPermission (role : Role) (permissionName : String) : Bool :=
  role.permissions.any fun p => p.name = permissionName

/-- `Role.add_permission`: a role that has the permission is returned as it is. -/
def addPermission (role : Role) (permission : Permission) : Role :=
  if role.hasPermission permission.name then role
  else { role with permissions := role.permissions ++ [permission] }.recordEvent
    (.roleUpdated role.roleId.value ["permissions"])

/-- `Role.remove_permission`: a copy in any case, an event only if something went. -/
def removePermission (role : Role) (permissionName : String) : Role :=
  let newPermissions := role.permissions.filter fun p => p.name ≠ permissionName
  let role' := { role with permissions := newPermissions }
  if newPermissions.length ≠ role.permissions.length then
    role'.recordEvent (.roleUpdated role.roleId.value ["permissions"])
  else role'

/-- `Role.delete`. -/
def delete (role : Role) : Role := role.recordEvent (.roleDeleted role.roleId.value)

end Role

/-- `User.assign_role`: the event recorded on the copy. -/
def User.assignRole (u : User) (roleId : RoleID) (assignedBy : Option UserID) : DomainEvent :=
  .userRoleAssigned u.id.value roleId.value (assignedBy.map UserID.value)

/-- `User.revoke_role`: the event recorded on the copy. -/
def User.revokeRole (u : User) (roleId : RoleID) : DomainEvent :=
  .userRoleRevoked u.id.value roleId.value none

/-! ### Tables -/

/-- `_PermissionRow`. -/
structure PermissionRow where
  id : Uuid
  name : String
  description : Option String
deriving DecidableEq

/-- `_RoleRow`. -/
structure RoleRow where
  id : Uuid
  name : String
  description : Option String
deriving DecidableEq

/-- `_UserRoleRow`. -/
structure UserRoleRow where
  userId : Uuid
  roleId : Uuid
  assignedAt : Instant
  assignedBy : Option Uuid
deriving DecidableEq

/-- The committed tables of the role store, with the `users` they refer to and the events
stored with the commits. -/
structure RbacDb where
  users : List UserRow := []
  permissions : List PermissionRow := []
  roles : List RoleRow := []
  /-- `role_permissions`, as pairs of a role id and a permission id. -/
  rolePermissions : List (Uuid × Uuid) := []
  userRoles : List UserRoleRow := []
  events : List DomainEvent := []
deriving DecidableEq

/-- The statements of the repositories. -/
inductive Statement
  | insertRole (row : RoleRow)
  | updateRole (roleId : Uuid) (name : String) (description : Option String)
  | deleteRole (roleId : Uuid)
  | insertPermission (row : PermissionRow)
  | insertRolePermission (roleId permissionId : Uuid)
  | deleteRolePermissions (roleId : Uuid) (permissionIds : List Uuid)
  | deleteRolePermissionsOf (roleId : Uuid)
  | insertUserRole (row : UserRoleRow)
  | deleteUserRole (userId roleId : Uuid)
  | deleteUserRolesOf (roleId : Uuid)
deriving DecidableEq

/-- The effect of a statement on one row. -/
inductive RowWrite
  | roleInsert (row : RoleRow)
  | roleUpdate (row : RoleRow)
  | roleDelete (row : RoleRow)
  | permissionInsert (row : PermissionRow)
  | linkInsert (roleId permissionId : Uuid)
  | linkDelete (roleId permissionId : Uuid)
  | userRoleInsert (row : UserRoleRow)
  | userRoleDelete (userId roleId : Uuid)
deriving DecidableEq

/-- What a row lock is held on: a primary key, or a value of a unique index. -/
inductive RbacKey
  | role (id : Uuid)
  | roleName (name : String)
  | permission (id : Uuid)
  | permissionName (name : String)
  | link (roleId permissionId : Uuid)
  | assignment (userId roleId : Uuid)
deriving DecidableEq

/-- The keys a row write locks. -/
def RowWrite.keys : RowWrite → List RbacKey
  | .roleInsert row | .roleUpdate row | .roleDelete row => [.role row.id, .roleName row.name]
  | .permissionInsert row => [.permission row.id, .permissionName row.name]
  | .linkInsert r p | .linkDelete r p => [.link r p]
  | .userRoleInsert row => [.assignment row.userId row.roleId]
  | .userRoleDelete u r => [.assignment u r]

/-- The role a row write points at, which it holds against deletion. -/
def RowWrite.refersTo : RowWrite → Option Uuid
  | .linkInsert r _ => some r
  | .userRoleInsert row => some row.roleId
  | _ => none

/-- The role a row write deletes. -/
def RowWrite.deletes : RowWrite → Option Uuid
  | .roleDelete row => some row.id
  | _ => none

/-- One row write deletes the role the other one points at. -/
def RowWrite.Clash (w w' : RowWrite) : Prop :=
  (∃ r ∈ w.refersTo, w'.deletes = some r) ∨ ∃ r ∈ w'.refersTo, w.deletes = some r

instance : DecidableRel RowWrite.Clash := fun w w' => by
  unfold RowWrite.Clash
  infer_instance

namespace RbacDb

/-- The rows a statement finds, and what it does to each of them. -/
def rowWrites (db : RbacDb) : Statement → List RowWrite
  | .insertRole row => [.roleInsert row]
  | .updateRole r name description =>
      (db.roles.filter fun row => row.id = r).map fun row => .roleUpdate ⟨row.id, name, description⟩
  | .deleteRole r => (db.roles.filter fun row => row.id = r).map .roleDelete
  | .insertPermission row => [.permissionInsert row]
  | .insertRolePermission r p => [.linkInsert r p]
  | .deleteRolePermissions r ids =>
      (db.rolePermissions.filter fun l => l.1 = r ∧ l.2 ∈ ids).map fun l => .linkDelete l.1 l.2
  | .deleteRolePermissionsOf r =>
      (db.rolePermissions.filter fun l => l.1 = r).map fun l => .linkDelete l.1 l.2
  | .insertUserRole row => [.userRoleInsert row]
  | .deleteUserRole u r =>
      (db.userRoles.filter fun row => row.userId = u ∧ row.roleId = r).map
        fun row => .userRoleDelete row.userId row.roleId
  | .deleteUserRolesOf r =>
      (db.userRoles.filter fun row => row.roleId = r).map
        fun row => .userRoleDelete row.userId row.roleId

/-- The tables after a row write. -/
def apply (db : RbacDb) : RowWrite → RbacDb
  | .roleInsert row => { db with roles := db.roles ++ [row] }
  | .roleUpdate row =>
      { db with roles := db.roles.map fun r => if r.id = row.id then row else r }
  | .roleDelete row =>
      { db with
        roles := db.roles.filter fun r => r.id ≠ row.id
        rolePermissions := db.rolePermissions.filter fun l => l.1 ≠ row.id
        userRoles := db.userRoles.filter fun a => a.roleId ≠ row.id }
  | .permissionInsert row => { db with permissions := db.permissions ++ [row] }
  | .linkInsert r p => { db with rolePermissions := db.rolePermissions ++ [(r, p)] }
  | .linkDelete r p =>
      { db with rolePermissions := db.rolePermissions.filter fun l => l ≠ (r, p) }
  | .userRoleInsert row => { db with userRoles := db.userRoles ++ [row] }
  | .userRoleDelete u r =>
      { db with userRoles := db.userRoles.filter fun a => ¬ (a.userId = u ∧ a.roleId = r) }

/-- Whether a row write passes the key and foreign-key constraints of its table. -/
def admits (db : RbacDb) : RowWrite → Bool
  | .roleInsert row => !db.roles.any fun r => r.id = row.id || r.name = row.name
  | .roleUpdate row => !db.roles.any fun r => r.id ≠ row.id && r.name = row.name
  | .permissionInsert row => !db.permissions.any fun p => p.id = row.id || p.name = row.name
  | .linkInsert r p =>
      (!db.rolePermissions.contains (r, p)) && (db.roles.any fun row => row.id = r) &&
        db.permissions.any fun row => row.id = p
  | .userRoleInsert row =>
      (!db.userRoles.any fun a => a.userId = row.userId && a.roleId = row.roleId) &&
        (db.users.any fun u => u.id = row.userId) && (db.roles.any fun r => r.id = row.roleId) &&
        match row.assignedBy with
        | none => true
        | some b => db.users.any fun u => u.id = b
  | .roleDelete _ | .linkDelete _ _ | .userRoleDelete _ _ => true

/-- Whether a sequence of row writes passes the constraints, each on the tables the ones before
it leave. -/
def admitsAll : RbacDb → List RowWrite → Bool
  | _, [] => true
  | db, w :: ws => db.admits w && (db.apply w).admitsAll ws

/-- **The constraints of the tables**: primary keys, unique names, foreign keys. -/
structure WellFormed (db : RbacDb) : Prop where
  userIds : (db.users.map UserRow.id).Nodup
  permissionIds : (db.permissions.map PermissionRow.id).Nodup
  permissionNames : (db.permissions.map PermissionRow.name).Nodup
  roleIds : (db.roles.map RoleRow.id).Nodup
  roleNames : (db.roles.map RoleRow.name).Nodup
  links : db.rolePermissions.Nodup
  linkRole : ∀ l ∈ db.rolePermissions, l.1 ∈ db.roles.map RoleRow.id
  linkPermission : ∀ l ∈ db.rolePermissions, l.2 ∈ db.permissions.map PermissionRow.id
  assignments : (db.userRoles.map fun a => (a.userId, a.roleId)).Nodup
  assignmentUser : ∀ a ∈ db.userRoles, a.userId ∈ db.users.map UserRow.id
  assignmentRole : ∀ a ∈ db.userRoles, a.roleId ∈ db.roles.map RoleRow.id
  assignmentBy : ∀ a ∈ db.userRoles, ∀ b ∈ a.assignedBy, b ∈ db.users.map UserRow.id

/-! ### Repository reads -/

/-- The row `acquire_by_id` starts from. -/
def roleById (db : RbacDb) (r : Uuid) : Option RoleRow := db.roles.find? fun row => row.id = r

/-- The row `acquire_by_name` starts from. -/
def roleByName (db : RbacDb) (name : String) : Option RoleRow :=
  db.roles.find? fun row => row.name = name

/-- The join of `_get_role_permissions`. -/
def permissionsOf (db : RbacDb) (r : Uuid) : List PermissionRow :=
  (db.rolePermissions.filter fun l => l.1 = r).flatMap fun l =>
    db.permissions.filter fun row => row.id = l.2

/-- The row of a permission name. -/
def permissionByName (db : RbacDb) (name : String) : Option PermissionRow :=
  db.permissions.find? fun row => row.name = name

/-- `SELECT permission_id FROM role_permissions WHERE role_id = r`. -/
def permissionIdsOf (db : RbacDb) (r : Uuid) : List Uuid :=
  (db.rolePermissions.filter fun l => l.1 = r).map Prod.snd

/-- The row of `acquire_by_user_and_role`. -/
def userRole (db : RbacDb) (u r : Uuid) : Option UserRoleRow :=
  db.userRoles.find? fun row => row.userId = u ∧ row.roleId = r

/-- `SQLAlchemyUserRepo.acquire_by_id`. -/
def acquireUser (db : RbacDb) (env : Env) (u : Uuid) : Except RbacError (Option User) :=
  (({ users := db.users } : Db).acquireUser env (.id u)).mapError .app

end RbacDb

/-! ### The one-query reader -/

/-- `RoleReadDTO`. -/
structure RoleReadDTO where
  roleId : Uuid
  name : String
  description : Option String
  permissions : List String
deriving DecidableEq

/-- An outer join: a row on the left that finds no partner stays, alone. -/
def outerJoin {α β : Type} (l : List α) (r : List β) (on : α → β → Bool) :
    List (α × Option β) :=
  l.flatMap fun a =>
    match r.filter (on a) with
    | [] => [(a, none)]
    | bs => bs.map fun b => (a, some b)

/-- One turn of the loop of `_roles_with_permissions`: the first row of a role opens its entry,
and a row with a permission name appends it. The two dictionaries of the source have the same
keys in the same order. -/
def RoleReadDTO.collect (roles : List RoleReadDTO) (row : RoleRow × Option String) :
    List RoleReadDTO :=
  let roles := if roles.any fun d => d.roleId = row.1.id then roles
    else roles ++ [⟨row.1.id, row.1.name, row.1.description, []⟩]
  match row.2 with
  | none => roles
  | some name => roles.map fun d =>
      if d.roleId = row.1.id then { d with permissions := d.permissions ++ [name] } else d

namespace RbacDb

/-- The rows `_roles_with_permissions` selects from a source of role rows. -/
def joinedRows (db : RbacDb) (source : List RoleRow) : List (RoleRow × Option String) :=
  (outerJoin (outerJoin source db.rolePermissions fun role l => l.1 = role.id) db.permissions
    fun row p => row.2.any fun l => p.id = l.2).map fun row =>
      (row.1.1, row.2.map PermissionRow.name)

/-- `roles JOIN user_roles … WHERE user_id = u`. -/
def rolesOfUser (db : RbacDb) (u : Uuid) : List RoleRow :=
  db.roles.flatMap fun role =>
    (db.userRoles.filter fun a => a.roleId = role.id ∧ a.userId = u).map fun _ => role

/-- `_roles_with_permissions`, with its `ORDER BY roles.name`. -/
def rolesWithPermissions (db : RbacDb) (source : List RoleRow) : List RoleReadDTO :=
  ((db.joinedRows source).insertionSort fun a b => a.1.name ≤ b.1.name).foldl
    RoleReadDTO.collect []

/-- `SQLAlchemyRoleReader.get_user_roles`. -/
def getUserRoles (db : RbacDb) (u : Uuid) : List RoleReadDTO :=
  db.rolesWithPermissions (db.rolesOfUser u)

/-- `CheckPermissionUseCase`. -/
def checkPermission (db : RbacDb) (u : Uuid) (permission : String) : Except RbacError Bool :=
  match UserID.make u with
  | .error e => .error (.app e)
  | .ok userId => .ok ((db.getUserRoles userId.value).any fun r => r.permissions.contains permission)

/-! ### What the reader comes to -/

theorem mem_outerJoin_some {α β : Type} {l : List α} {r : List β} {on : α → β → Bool} {a : α}
    {b : β} : (a, some b) ∈ outerJoin l r on ↔ a ∈ l ∧ b ∈ r ∧ on a b = true := by
  simp only [outerJoin, List.mem_flatMap]
  constructor
  · rintro ⟨a', ha', hb⟩
    split at hb
    · simp at hb
    · obtain ⟨b', hb', heq⟩ := List.mem_map.mp hb
      obtain ⟨rfl, rfl⟩ : a' = a ∧ b' = b := by simpa using heq
      exact ⟨ha', List.mem_filter.mp hb'⟩
  · rintro ⟨ha, hb, hon⟩
    refine ⟨a, ha, ?_⟩
    have hmem : b ∈ r.filter (on a) := List.mem_filter.mpr ⟨hb, hon⟩
    split
    · rename_i hnil
      exact absurd (hnil ▸ hmem) List.not_mem_nil
    · exact List.mem_map.mpr ⟨b, hmem, rfl⟩

/-- **The stored permission names of a role.** -/
def Carries (db : RbacDb) (r : Uuid) (name : String) : Prop :=
  ∃ p ∈ db.permissions, (r, p.id) ∈ db.rolePermissions ∧ p.name = name

instance (db : RbacDb) (r : Uuid) (name : String) : Decidable (db.Carries r name) := by
  unfold Carries
  infer_instance

/-- A permission name in the selected rows: one that a role of the source carries. -/
theorem mem_joinedRows {db : RbacDb} {source : List RoleRow} {role : RoleRow} {name : String} :
    (role, some name) ∈ db.joinedRows source ↔ role ∈ source ∧ db.Carries role.id name := by
  simp only [joinedRows, List.mem_map, Prod.mk.injEq, Option.map_eq_some_iff]
  constructor
  · rintro ⟨⟨⟨role', l⟩, p⟩, hmem, rfl, p', rfl, rfl⟩
    obtain ⟨hrow, hp, hon⟩ := mem_outerJoin_some.mp hmem
    obtain ⟨⟨r, q⟩, rfl, hl⟩ := (Option.any_eq_true _ _).mp hon
    obtain ⟨hrole, hl', hon'⟩ := mem_outerJoin_some.mp hrow
    obtain rfl : p'.id = q := of_decide_eq_true hl
    obtain rfl : r = role'.id := of_decide_eq_true hon'
    exact ⟨hrole, p', hp, hl', rfl⟩
  · rintro ⟨hrole, p, hp, hl, rfl⟩
    refine ⟨((role, some (role.id, p.id)), some p), ?_, rfl, p, rfl, rfl⟩
    exact mem_outerJoin_some.mpr ⟨mem_outerJoin_some.mpr ⟨hrole, hl, decide_eq_true rfl⟩, hp,
      decide_eq_true rfl⟩

end RbacDb

/-- Some entry carries the permission name. -/
def RoleReadDTO.Carry (roles : List RoleReadDTO) (name : String) : Prop :=
  ∃ d ∈ roles, name ∈ d.permissions

theorem RoleReadDTO.carry_open {roles : List RoleReadDTO} {d : RoleReadDTO} {name : String}
    (hd : d.permissions = []) : Carry (roles ++ [d]) name ↔ Carry roles name := by
  constructor
  · rintro ⟨d', hd', hn⟩
    rcases List.mem_append.mp hd' with hold | hnew
    · exact ⟨d', hold, hn⟩
    · obtain rfl := List.mem_singleton.mp hnew
      exact absurd (hd ▸ hn) List.not_mem_nil
  · rintro ⟨d', hd', hn⟩
    exact ⟨d', List.mem_append_left _ hd', hn⟩

/-- Appending a name to the entry of a role that has one adds that name and no other. -/
theorem RoleReadDTO.carry_append {roles : List RoleReadDTO} {r : Uuid} {n name : String}
    (h : ∃ d ∈ roles, d.roleId = r) :
    Carry (roles.map fun d => if d.roleId = r then { d with permissions := d.permissions ++ [n] }
      else d) name ↔ Carry roles name ∨ n = name := by
  constructor
  · rintro ⟨d', hd', hn⟩
    obtain ⟨d, hd, rfl⟩ := List.mem_map.mp hd'
    split at hn
    · rcases List.mem_append.mp hn with hold | hnew
      · exact Or.inl ⟨d, hd, hold⟩
      · exact Or.inr (List.mem_singleton.mp hnew).symm
    · exact Or.inl ⟨d, hd, hn⟩
  · rintro (⟨d, hd, hn⟩ | rfl)
    · refine ⟨_, List.mem_map_of_mem hd, ?_⟩
      split
      · exact List.mem_append_left _ hn
      · exact hn
    · obtain ⟨d, hd, hr⟩ := h
      refine ⟨_, List.mem_map_of_mem hd, ?_⟩
      rw [if_pos hr]
      exact List.mem_append_right _ List.mem_cons_self

/-- One turn of the loop adds the permission name of its row. -/
theorem RoleReadDTO.carry_collect (roles : List RoleReadDTO) (row : RoleRow × Option String)
    (name : String) :
    Carry (collect roles row) name ↔ Carry roles name ∨ row.2 = some name := by
  obtain ⟨role, n⟩ := row
  let opened := if roles.any fun d => d.roleId = role.id then roles
    else roles ++ [⟨role.id, role.name, role.description, []⟩]
  have hcarry : Carry opened name ↔ Carry roles name := by
    unfold opened
    split
    · rfl
    · exact carry_open rfl
  have hmem : ∃ d ∈ opened, d.roleId = role.id := by
    unfold opened
    split
    · rename_i h
      obtain ⟨d, hd, hr⟩ := List.any_eq_true.mp h
      exact ⟨d, hd, of_decide_eq_true hr⟩
    · exact ⟨_, List.mem_append_right _ List.mem_cons_self, rfl⟩
  cases n with
  | none =>
      change Carry opened name ↔ _
      simp [hcarry]
  | some n =>
      change Carry (opened.map _) name ↔ _
      rw [carry_append hmem, hcarry, Option.some.injEq]

/-- The loop collects the permission names of its rows. -/
theorem RoleReadDTO.carry_foldl (rows : List (RoleRow × Option String)) (roles : List RoleReadDTO)
    (name : String) :
    Carry (rows.foldl collect roles) name ↔
      Carry roles name ∨ ∃ row ∈ rows, row.2 = some name := by
  induction rows generalizing roles with
  | nil => simp
  | cons row rows ih =>
      rw [List.foldl_cons, ih, carry_collect]
      simp only [List.mem_cons, exists_eq_or_imp, or_assoc]

namespace RbacDb

/-- User `u` holds the permission through one of the roles assigned to it. -/
def Holds (db : RbacDb) (u : Uuid) (permission : String) : Prop :=
  ∃ role ∈ db.roles, (∃ a ∈ db.userRoles, a.userId = u ∧ a.roleId = role.id) ∧
    db.Carries role.id permission

theorem mem_rolesOfUser {db : RbacDb} {u : Uuid} {role : RoleRow} :
    role ∈ db.rolesOfUser u ↔
      role ∈ db.roles ∧ ∃ a ∈ db.userRoles, a.userId = u ∧ a.roleId = role.id := by
  simp only [rolesOfUser, List.mem_flatMap, List.mem_map, List.mem_filter, decide_eq_true_eq]
  constructor
  · rintro ⟨role', hrole, a, ⟨ha, har, hau⟩, rfl⟩
    exact ⟨hrole, a, ha, hau, har⟩
  · rintro ⟨hrole, a, ha, hau, har⟩
    exact ⟨role, hrole, a, ⟨ha, har, hau⟩, rfl⟩

/-- **The permission check answers whether the user holds the permission**, whatever the order
of the rows. -/
theorem checkPermission_iff {db : RbacDb} {u : Uuid} {permission : String} (hu : u ≠ nilUuid) :
    db.checkPermission u permission = .ok true ↔ db.Holds u permission := by
  have hmake : UserID.make u = .ok ⟨u, hu⟩ := dif_pos hu
  rw [checkPermission, hmake]
  have hcarry : ((db.getUserRoles u).any fun r => r.permissions.contains permission) = true ↔
      RoleReadDTO.Carry (db.getUserRoles u) permission := by
    simp [RoleReadDTO.Carry]
  simp only [Except.ok.injEq]
  rw [hcarry, getUserRoles, rolesWithPermissions, RoleReadDTO.carry_foldl]
  constructor
  · rintro (⟨d, hd, -⟩ | ⟨⟨role, n⟩, hrow, rfl⟩)
    · exact absurd hd List.not_mem_nil
    · obtain ⟨hrole, hlink⟩ := mem_joinedRows.mp ((List.mem_insertionSort _).mp hrow)
      obtain ⟨hrole, hassigned⟩ := mem_rolesOfUser.mp hrole
      exact ⟨role, hrole, hassigned, hlink⟩
  · rintro ⟨role, hrole, hassigned, hlink⟩
    refine Or.inr ⟨(role, some permission), (List.mem_insertionSort _).mpr ?_, rfl⟩
    exact mem_joinedRows.mpr ⟨mem_rolesOfUser.mpr ⟨hrole, hassigned⟩, hlink⟩

end RbacDb

end BackendTemplate
