import BackendTemplate.Interleave
import BackendTemplate.RowLocks
import BackendTemplate.Rbac

/-!
# The RBAC Service

`RBACService` and its repositories as programs over the calls they make, and the machine that
answers these calls: one atomic step for each SQL statement, under READ COMMITTED with row
locks, as in `BackendTemplate.World`. Each definition follows its source line by line.
-/

namespace BackendTemplate

open Atomic Atomic.Prog

/-! ### Calls -/

/-- The calls of a request on roles. -/
inductive RbacOp
  | now
  | uuid4
  | acquireUser (userId : Uuid)
  | roleById (roleId : Uuid)
  | roleByName (name : String)
  | permissionsOf (roleId : Uuid)
  | permissionByName (name : String)
  | permissionIdsOf (roleId : Uuid)
  | userRole (userId roleId : Uuid)
  | execute (statement : Statement)
  | register (events : List DomainEvent)
  | commit

/-- The type of the answer of a call. A call that can raise returns its error. -/
@[reducible] def RbacOp.Res : RbacOp → Type
  | .now => Instant
  | .uuid4 => Uuid
  | .acquireUser _ => Except RbacError (Option User)
  | .roleById _ | .roleByName _ => Option RoleRow
  | .permissionsOf _ => List PermissionRow
  | .permissionByName _ => Option PermissionRow
  | .permissionIdsOf _ => List Uuid
  | .userRole _ _ => Option UserRoleRow
  | .execute _ | .commit => Except RbacError Unit
  | .register _ => Unit

/-- The signature of the calls of a request on roles. -/
@[reducible] def rbacCalls : Sig := ⟨RbacOp, RbacOp.Res⟩

/-- An open transaction: the rows it has written, and the events registered with its unit of
work. -/
structure RbacTx where
  writes : List RowWrite := []
  events : List DomainEvent := []

/-- The **world** of the role store: the committed tables, the open transaction of each request,
the clock, and the number of random draws made. -/
structure RbacWorld (ι : Type) where
  db : RbacDb
  txs : ι → RbacTx
  clock : Instant
  rng : ℕ

namespace RbacWorld

variable {ι : Type}

/-- The tables as request `i` sees them. -/
def view (w : RbacWorld ι) (i : ι) : RbacDb := RowLocks.view RbacDb.apply w.db (w.txs i).writes

/-- The rows each open transaction has written. -/
def pending (w : RbacWorld ι) (i : ι) : List RowWrite := (w.txs i).writes

/-- Draw `n` random values. -/
def draw (w : RbacWorld ι) (n : ℕ) : RbacWorld ι := { w with rng := w.rng + n }

variable [DecidableEq ι]

/-- Add row writes to the transaction of request `i`. -/
def issue (w : RbacWorld ι) (i : ι) (ws : List RowWrite) : RbacWorld ι :=
  { w with txs := Function.update w.txs i { w.txs i with writes := (w.txs i).writes ++ ws } }

/-- Track events in the unit of work of request `i`. -/
def track (w : RbacWorld ι) (i : ι) (events : List DomainEvent) : RbacWorld ι :=
  { w with txs := Function.update w.txs i { w.txs i with events := (w.txs i).events ++ events } }

/-- End the transaction of request `i` without a trace. -/
def rollback (w : RbacWorld ι) (i : ι) : RbacWorld ι :=
  { w with txs := Function.update w.txs i {} }

/-- `SQLAlchemyUoW.commit`: the registered events are stored with the rows. -/
def commit (w : RbacWorld ι) (i : ι) : RbacWorld ι where
  db := { w.view i with events := (w.view i).events ++ (w.txs i).events }
  txs := Function.update w.txs i {}
  clock := w.clock
  rng := w.rng + 2 * (w.txs i).events.length

end RbacWorld

section Machine

variable {ι : Type} [DecidableEq ι]

/-- What the world answers to a call that need not wait. A statement that a constraint refuses
raises `IntegrityError`. -/
def answer (env : Env) (commitFails : Bool) (i : ι) :
    (o : RbacOp) → RbacWorld ι → o.Res × RbacWorld ι
  | .now, w => (w.clock, w)
  | .uuid4, w => (env.uuid4 w.rng, w.draw 1)
  | .acquireUser u, w => ((w.view i).acquireUser env u, w)
  | .roleById r, w => ((w.view i).roleById r, w)
  | .roleByName name, w => ((w.view i).roleByName name, w)
  | .permissionsOf r, w => ((w.view i).permissionsOf r, w)
  | .permissionByName name, w => ((w.view i).permissionByName name, w)
  | .permissionIdsOf r, w => ((w.view i).permissionIdsOf r, w)
  | .userRole u r, w => ((w.view i).userRole u r, w)
  | .execute s, w =>
      if (w.view i).admitsAll ((w.view i).rowWrites s) then
        (.ok (), w.issue i ((w.view i).rowWrites s))
      else (.error (.app .integrityError), w)
  | .register events, w => ((), w.track i events)
  | .commit, w =>
      if commitFails then (.error (.app .databaseError), w.rollback i) else (.ok (), w.commit i)

variable [Fintype ι]

/-- A statement waits while another open transaction has written one of its rows, or deletes a
role it points at, or points at a role it deletes. -/
def RbacWorld.Waits (w : RbacWorld ι) (i : ι) : RbacOp → Prop
  | .execute s =>
      ¬ (RowLocks.Free RowWrite.keys w.pending i ((w.view i).rowWrites s) ∧
        ∀ j, j ≠ i → ∀ w' ∈ w.pending j, ∀ w₀ ∈ (w.view i).rowWrites s, ¬ w₀.Clash w')
  | _ => False

instance (w : RbacWorld ι) (i : ι) : DecidablePred (w.Waits i) := fun o => by
  unfold RbacWorld.Waits
  split <;> infer_instance

/-- The machine of the role store: requests make calls, a request that ends closes its database
session, and the clock advances by any number of microseconds. The choice is whether the
database accepts the commit. -/
def rbacMachine (env : Env) (ι : Type) [Fintype ι] [DecidableEq ι] :
    Machine rbacCalls ι (RbacWorld ι) Bool ℕ where
  exec commitFails i o w := if w.Waits i o then none else some (answer env commitFails i o w)
  finish i w := w.rollback i
  env d w := { w with clock := w.clock + d }

end Machine

/-! ### Repositories -/

/-- A program of the role store. -/
abbrev RbacAct (α : Type) := Prog rbacCalls RbacError α

/-- A call of the role store. -/
def rbacAsk (o : RbacOp) : RbacAct o.Res := perform (S := rbacCalls) o

/-- Execute a statement. -/
def runStatement (s : Statement) : RbacAct Unit := rbacAsk (.execute s) >>= ofExcept

/-- A permission from its row. -/
def PermissionRow.toPermission (row : PermissionRow) : Except RbacError Permission :=
  Permission.make row.name row.description

/-- A role from its row and its permissions. -/
def RoleRow.toRole (row : RoleRow) (permissions : List Permission) : Except RbacError Role := do
  let roleId ← RoleID.make row.id
  let name ← RoleName.make row.name
  .ok { roleId := roleId, name := name, description := row.description, permissions := permissions }

namespace RoleRepo

/-- `_get_role_permissions`. -/
def getRolePermissions (r : Uuid) : RbacAct (List Permission) := do
  let rows ← rbacAsk (.permissionsOf r)
  ofExcept (rows.mapM PermissionRow.toPermission)

/-- What `acquire_by_id` and `acquire_by_name` do with the row they find. -/
def load : Option RoleRow → RbacAct (Option Role)
  | none => pure none
  | some row => do
      let permissions ← getRolePermissions row.id
      let role ← ofExcept (row.toRole permissions)
      pure (some role)

/-- `SQLAlchemyRoleRepo.acquire_by_id`. -/
def acquireById (r : RoleID) : RbacAct (Option Role) := do
  let row ← rbacAsk (.roleById r.value)
  load row

/-- `SQLAlchemyRoleRepo.acquire_by_name`. -/
def acquireByName (name : RoleName) : RbacAct (Option Role) := do
  let row ← rbacAsk (.roleByName name.value)
  load row

/-- The loop of `add` over the permissions of the role. -/
def addPermissions (r : Uuid) : List Permission → RbacAct Unit
  | [] => pure ()
  | p :: ps => do
      let known ← rbacAsk (.permissionByName p.name)
      match known with
      | some _ => pure ()
      | none => do
          let id ← rbacAsk .uuid4
          runStatement (.insertPermission ⟨id, p.name, p.description⟩)
      let row ← rbacAsk (.permissionByName p.name)
      match row with
      | some row => runStatement (.insertRolePermission r row.id)
      | none => pure ()
      addPermissions r ps

/-- `SQLAlchemyRoleRepo.add`. -/
def add (role : Role) : RbacAct Unit := do
  runStatement (.insertRole ⟨role.roleId.value, role.name.value, role.description⟩)
  addPermissions role.roleId.value role.permissions

/-- The id of a permission name, drawn and inserted if the name has none yet. -/
def resolve (p : Permission) : RbacAct Uuid := do
  let known ← rbacAsk (.permissionByName p.name)
  match known with
  | some row => pure row.id
  | none => do
      let id ← rbacAsk .uuid4
      runStatement (.insertPermission ⟨id, p.name, p.description⟩)
      pure id

/-- The loop of `update` that collects `desired_ids`, a set. -/
def resolveAll : List Permission → List Uuid → RbacAct (List Uuid)
  | [], ids => pure ids
  | p :: ps, ids => do
      let id ← resolve p
      resolveAll ps (ids.insert id)

/-- The loop of `update` over `desired_ids - current_ids`. -/
def linkAll (r : Uuid) : List Uuid → RbacAct Unit
  | [] => pure ()
  | p :: ps => do
      runStatement (.insertRolePermission r p)
      linkAll r ps

/-- `if to_remove: DELETE … IN (to_remove)`. -/
def unlinkAll (r : Uuid) (toRemove : List Uuid) : RbacAct Unit :=
  if toRemove.isEmpty then pure () else runStatement (.deleteRolePermissions r toRemove)

/-- `SQLAlchemyRoleRepo.update`. -/
def update (role : Role) : RbacAct Unit := do
  runStatement (.updateRole role.roleId.value role.name.value role.description)
  let currentIds ← rbacAsk (.permissionIdsOf role.roleId.value)
  let desiredIds ← resolveAll role.permissions []
  unlinkAll role.roleId.value (currentIds.filter fun p => p ∉ desiredIds)
  linkAll role.roleId.value (desiredIds.filter fun p => p ∉ currentIds)

/-- `SQLAlchemyRoleRepo.delete`. -/
def delete (r : RoleID) : RbacAct Unit := do
  runStatement (.deleteRolePermissionsOf r.value)
  runStatement (.deleteUserRolesOf r.value)
  runStatement (.deleteRole r.value)

end RoleRepo

namespace PermissionRepo

/-- `SQLAlchemyPermissionRepo.acquire_by_name`. -/
def acquireByName (name : String) : RbacAct (Option Permission) := do
  let row ← rbacAsk (.permissionByName name)
  match row with
  | none => pure none
  | some row => do
      let permission ← ofExcept row.toPermission
      pure (some permission)

/-- `SQLAlchemyPermissionRepo.add`. -/
def add (permission : Permission) : RbacAct Unit := do
  let id ← rbacAsk .uuid4
  runStatement (.insertPermission ⟨id, permission.name, permission.description⟩)

end PermissionRepo

/-! ### The service -/

namespace RBACService

/-- `DEFAULT_ROLE_ADMIN`. -/
def defaultRoleAdmin : String := "admin"

/-- `role_repo.acquire_by_id`, and `RoleNotFoundError` if there is none. -/
def acquireRole (r : RoleID) : RbacAct Role := do
  let role ← RoleRepo.acquireById r
  match role with
  | none => raise (.roleNotFound r.value)
  | some role => pure role

/-- `user_repo.acquire_by_id`, and `UserNotFoundError` if there is none. -/
def acquireUser (u : UserID) : RbacAct User := do
  let answer ← rbacAsk (.acquireUser u.value)
  let user ← ofExcept answer
  match user with
  | none => raise (.app (.userNotFound (some u.value)))
  | some user => pure user

/-- `create_role`. -/
def createRole (name : RoleName) (description : Option String) : RbacAct Role := do
  let existing ← RoleRepo.acquireByName name
  match existing with
  | some _ => raise (.roleAlreadyExists name.value)
  | none => do
      let id ← rbacAsk .uuid4
      let roleId ← ofExcept (RoleID.make id)
      let role := Role.create roleId name description
      RoleRepo.add role
      rbacAsk (.register role.events)
      pure role

/-- `delete_role`. -/
def deleteRole (r : RoleID) : RbacAct Role := do
  let role ← acquireRole r
  raiseIf (role.name.value = defaultRoleAdmin) (.permissionDenied "Cannot delete admin role")
  let deletedRole := role.delete
  RoleRepo.delete r
  rbacAsk (.register deletedRole.events)
  pure deletedRole

/-- `assign_role`. -/
def assignRole (u : UserID) (r : RoleID) (assignedBy : Option UserID) : RbacAct User := do
  let user ← acquireUser u
  let _ ← acquireRole r
  let existing ← rbacAsk (.userRole u.value r.value)
  match existing with
  | some _ => pure user
  | none => do
      let now ← rbacAsk .now
      runStatement (.insertUserRole ⟨u.value, r.value, now, assignedBy.map UserID.value⟩)
      rbacAsk (.register [user.assignRole r assignedBy])
      pure user

/-- `revoke_role`. -/
def revokeRole (u : UserID) (r : RoleID) : RbacAct User := do
  let user ← acquireUser u
  let role ← acquireRole r
  raiseIf (role.name.value = defaultRoleAdmin)
    (.permissionDenied "Cannot revoke admin role from user")
  runStatement (.deleteUserRole u.value r.value)
  rbacAsk (.register [user.revokeRole r])
  pure user

/-- The permission of a name, added to the store if there is none. -/
def acquirePermission (permissionName : String) : RbacAct Permission := do
  let permission ← PermissionRepo.acquireByName permissionName
  match permission with
  | some permission => pure permission
  | none => do
      let permission ← ofExcept (Permission.make permissionName none)
      PermissionRepo.add permission
      pure permission

/-- Store an edited role: `role_repo.update`, then `uow.register`. -/
def store (role : Role) : RbacAct Role := do
  RoleRepo.update role
  rbacAsk (.register role.events)
  pure role

/-- `add_permission_to_role`. -/
def addPermissionToRole (r : RoleID) (permissionName : String) : RbacAct Role := do
  let role ← acquireRole r
  let permission ← acquirePermission permissionName
  store (role.addPermission permission)

/-- `remove_permission_from_role`. -/
def removePermissionFromRole (r : RoleID) (permissionName : String) : RbacAct Role := do
  let role ← acquireRole r
  store (role.removePermission permissionName)

end RBACService

/-! ### Use cases -/

/-- The requests of the role store. -/
inductive RbacRequest
  | createRole (name : String) (description : Option String)
  | deleteRole (roleId : Uuid)
  | assignRole (userId roleId : Uuid) (assignedBy : Option Uuid)
  | revokeRole (userId roleId : Uuid)
  | addPermissionToRole (roleId : Uuid) (permissionName : String)
  | removePermissionFromRole (roleId : Uuid) (permissionName : String)
deriving DecidableEq

/-- `RoleOutput`. -/
structure RoleOutput where
  roleId : Uuid
  name : String
  description : Option String
  permissions : List String
deriving DecidableEq

/-- `RoleOutput.from_role`. -/
def RoleOutput.fromRole (role : Role) : RoleOutput where
  roleId := role.roleId.value
  name := role.name.value
  description := role.description
  permissions := role.permissionNames

/-- `uow.commit`. -/
def rbacCommit : RbacAct Unit := rbacAsk .commit >>= ofExcept

/-- `UserID(value)` among the errors of the role store. -/
def rbacUserID (u : Uuid) : Except RbacError UserID := (UserID.make u).mapError .app

/-- `UserID(value) if value else None`. -/
def rbacOptUserID : Option Uuid → Except RbacError (Option UserID)
  | none => .ok none
  | some u => (rbacUserID u).map some

/-- The use case of a request: the operation of the service, then the commit. -/
def RbacRequest.useCase : RbacRequest → RbacAct (Option RoleOutput)
  | .createRole name description => do
      let name ← ofExcept (RoleName.make name)
      let role ← RBACService.createRole name description
      rbacCommit
      pure (some (.fromRole role))
  | .deleteRole roleId => do
      let r ← ofExcept (RoleID.make roleId)
      let _ ← RBACService.deleteRole r
      rbacCommit
      pure none
  | .assignRole userId roleId assignedBy => do
      let u ← ofExcept (rbacUserID userId)
      let r ← ofExcept (RoleID.make roleId)
      let by_ ← ofExcept (rbacOptUserID assignedBy)
      let _ ← RBACService.assignRole u r by_
      rbacCommit
      pure none
  | .revokeRole userId roleId => do
      let u ← ofExcept (rbacUserID userId)
      let r ← ofExcept (RoleID.make roleId)
      let _ ← RBACService.revokeRole u r
      rbacCommit
      pure none
  | .addPermissionToRole roleId permissionName => do
      let r ← ofExcept (RoleID.make roleId)
      let role ← RBACService.addPermissionToRole r permissionName
      rbacCommit
      pure (some (.fromRole role))
  | .removePermissionFromRole roleId permissionName => do
      let r ← ofExcept (RoleID.make roleId)
      let role ← RBACService.removePermissionFromRole r permissionName
      rbacCommit
      pure (some (.fromRole role))

end BackendTemplate
