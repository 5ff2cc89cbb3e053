import BackendTemplate.Deployments
import BackendTemplate.Rows
import BackendTemplate.Rbac

/-!
# The Rows in the Migrated Tables

The tables of the model (`Db`, `RbacDb`) say in Lean which keys a write is checked against. Here
their rows are rows of the database the migrations build, and the two agree: at the head, Postgres
lets a write through exactly if the model does.

`jsonb` text of a list of texts is a parameter.
-/

namespace BackendTemplate.Migrations

open Relational

/-! ### Rows as cells -/

section Cells

variable (render : List String → String)

/-- A row of `users`. -/
def userCells (r : UserRow) : Row ColumnName Cell
  | .id => some (.uuid r.id)
  | .version => some (.integer r.version)
  | .username => some (.text r.username)
  | .email => r.email.map Cell.text
  | .hashedPassword => some (.bytes r.hashedPassword)
  | .deletedAt => r.deletedAt.map Cell.datetime
  | .isLocked => some (.boolean r.isLocked)
  | .lockedAt => r.lockedAt.map Cell.datetime
  | .lockReason => r.lockReason.map Cell.text
  | .failedAttempts => some (.integer r.failedAttempts)
  | .lockUntil => r.lockUntil.map Cell.datetime
  | .isEmailVerified => some (.boolean r.isEmailVerified)
  | .emailVerificationTokenHash => r.emailVerificationTokenHash.map Cell.bytes
  | .emailVerifiedAt => r.emailVerifiedAt.map Cell.datetime
  | .emailVerificationExpiresAt => r.emailVerificationExpiresAt.map Cell.datetime
  | .passwordResetTokenHash => r.passwordResetTokenHash.map Cell.bytes
  | .passwordResetCreatedAt => r.passwordResetCreatedAt.map Cell.datetime
  | .passwordResetExpiresAt => r.passwordResetExpiresAt.map Cell.datetime
  | .passwordResetUsed => some (.boolean r.passwordResetUsed)
  | .twoFactorSecret => r.twoFactorSecret.map Cell.bytes
  | .twoFactorEnabledAt => r.twoFactorEnabledAt.map Cell.datetime
  | .twoFactorBackupCodes => r.twoFactorBackupCodes.map fun codes => .jsonb (render codes)
  | _ => none

/-- A row of `sessions`. -/
def sessionCells (r : SessionRow) : Row ColumnName Cell
  | .sessionId => some (.uuid r.sessionId)
  | .userId => some (.uuid r.userId)
  | .userAgent => r.userAgent.map Cell.text
  | .ipAddress => r.ipAddress.map Cell.text
  | .deviceName => r.deviceName.map Cell.text
  | .browser => r.browser.map Cell.text
  | .os => r.os.map Cell.text
  | .isMobile => some (.boolean r.isMobile)
  | .createdAt => some (.datetime r.createdAt)
  | .expiresAt => some (.datetime r.expiresAt)
  | .isRevoked => some (.boolean r.isRevoked)
  | _ => none

/-- A row of `refresh_tokens`. -/
def refreshTokenCells (r : RefreshTokenRow) : Row ColumnName Cell
  | .id => some (.uuid r.id)
  | .sessionId => some (.uuid r.sessionId)
  | .tokenHash => some (.bytes r.tokenHash)
  | .expiresAt => some (.datetime r.expiresAt)
  | .isRevoked => some (.boolean r.isRevoked)
  | .createdAt => some (.datetime r.createdAt)
  | _ => none

/-- A row of `permissions`. -/
def permissionCells (r : PermissionRow) : Row ColumnName Cell
  | .id => some (.uuid r.id)
  | .name => some (.text r.name)
  | .description => r.description.map Cell.text
  | _ => none

/-- A row of `roles`. -/
def roleCells (r : RoleRow) : Row ColumnName Cell
  | .id => some (.uuid r.id)
  | .name => some (.text r.name)
  | .description => r.description.map Cell.text
  | _ => none

/-- A row of `role_permissions`. -/
def rolePermissionCells (l : Uuid × Uuid) : Row ColumnName Cell
  | .roleId => some (.uuid l.1)
  | .permissionId => some (.uuid l.2)
  | _ => none

/-- A row of `user_roles`. -/
def userRoleCells (r : UserRoleRow) : Row ColumnName Cell
  | .userId => some (.uuid r.userId)
  | .roleId => some (.uuid r.roleId)
  | .assignedAt => some (.datetime r.assignedAt)
  | .assignedBy => r.assignedBy.map Cell.uuid
  | _ => none

/-- The rows of the database: those of the two models, and whatever there is in the outbox and in the
audit log. -/
def stored (db : Db) (rbac : RbacDb) (others : SqlData) : SqlData
  | .users => db.users.map (userCells render)
  | .sessions => db.sessions.map sessionCells
  | .refreshTokens => db.refreshTokens.map refreshTokenCells
  | .permissions => rbac.permissions.map permissionCells
  | .roles => rbac.roles.map roleCells
  | .rolePermissions => rbac.rolePermissions.map rolePermissionCells
  | .userRoles => rbac.userRoles.map userRoleCells
  | t => others t

end Cells

/-! ### Keys and foreign keys of encoded rows -/

section Encoded

variable {α β γ : Type} {cells : α → Row ColumnName Cell} {rows : List α} {k k' : ColumnName}
  {f : γ → Cell}

/-- A key on a column that is never empty. -/
theorem uniqueOn_map {key : α → γ} (hf : Function.Injective f)
    (hcells : ∀ r, cells r k = some (f (key r))) :
    UniqueOn [k] (rows.map cells) ↔ (rows.map key).Nodup := by
  rw [UniqueOn, List.pairwise_map, List.Nodup, List.pairwise_map]
  simp only [List.forall_mem_singleton, hcells, ne_eq, reduceCtorEq, not_false_eq_true, true_and,
    Option.some.injEq, hf.eq_iff]

/-- A key on a column that may be empty. -/
theorem uniqueOn_optional {key : α → Option γ} (hf : Function.Injective f)
    (hcells : ∀ r, cells r k = (key r).map f) :
    UniqueOn [k] (rows.map cells) ↔
      rows.Pairwise fun r r' => (key r).isSome = true → key r ≠ key r' := by
  rw [UniqueOn, List.pairwise_map]
  simp only [List.forall_mem_singleton, hcells, ne_eq, not_and, (Option.map_injective hf).eq_iff,
    ← Option.not_isSome_iff_eq_none, not_not, Option.isSome_map]

/-- A key on two columns. -/
theorem uniqueOn_pair {key key' : α → γ} (hf : Function.Injective f)
    (hcells : ∀ r, cells r k = some (f (key r))) (hcells' : ∀ r, cells r k' = some (f (key' r))) :
    UniqueOn [k, k'] (rows.map cells) ↔ (rows.map fun r => (key r, key' r)).Nodup := by
  rw [UniqueOn, List.pairwise_map, List.Nodup, List.pairwise_map]
  simp only [List.forall_mem_cons, hcells, hcells', ne_eq, reduceCtorEq,
    not_false_eq_true, true_and, Option.some.injEq, hf.eq_iff, List.not_mem_nil, false_implies,
    implies_true, and_true, Prod.mk.injEq]

variable {cells' : β → Row ColumnName Cell} {rows' : List β} {t t' : TableName} {od : OnDelete}
  {data : SqlData}

theorem holds_foreignKey :
    (foreignKey t k t' k' od).Holds data ↔
      ∀ r ∈ data t, r k ≠ none → ∃ r' ∈ data t', r k = r' k' := by
  simp [ForeignKey.Holds, foreignKey]

/-- A foreign key on a column that may be empty. -/
theorem holds_optional {key : α → Option γ} {key' : β → γ} (hf : Function.Injective f)
    (hrows : data t = rows.map cells) (hrows' : data t' = rows'.map cells')
    (hcells : ∀ r, cells r k = (key r).map f) (hcells' : ∀ r, cells' r k' = some (f (key' r))) :
    (foreignKey t k t' k' od).Holds data ↔ ∀ r ∈ rows, ∀ b ∈ key r, b ∈ rows'.map key' := by
  rw [holds_foreignKey, hrows, hrows', List.forall_mem_map]
  refine forall₂_congr fun r _ => ?_
  cases hkey : key r with
  | none => simp [hcells, hkey]
  | some b => simp [hcells, hcells', hkey, hf.eq_iff, @eq_comm _ b]

/-- A foreign key on a column that is never empty. -/
theorem holds_map {key : α → γ} {key' : β → γ} (hf : Function.Injective f)
    (hrows : data t = rows.map cells) (hrows' : data t' = rows'.map cells')
    (hcells : ∀ r, cells r k = some (f (key r))) (hcells' : ∀ r, cells' r k' = some (f (key' r))) :
    (foreignKey t k t' k' od).Holds data ↔ ∀ r ∈ rows, key r ∈ rows'.map key' := by
  have hcells : ∀ r, cells r k = ((some ∘ key) r).map f := hcells
  rw [holds_optional hf hrows hrows' hcells hcells']
  simp only [Function.comp_apply, Option.mem_some_iff, forall_eq']

end Encoded

/-! ### The shape of encoded rows -/

/-- The rows of a table are what its columns say. -/
structure Encodes {α : Type} (t : TableName) (columns : List SqlColumn)
    (cells : α → Row ColumnName Cell) : Prop where
  table : ∀ c ∈ columns, c.table = t
  typed : ∀ r, ∀ c ∈ columns, (∀ v ∈ cells r c.name, c.type.Holds v) ∧
    (c.nullable = false → cells r c.name ≠ none)
  only : ∀ k, k ∈ columns.map Column.name ∨ ∀ r, cells r k = none

theorem users_encodes (render : List String → String) :
    Encodes .users usersColumns (userCells render) where
  table := by decide
  typed r := by simp [usersColumns, required, optional, defaulted, userCells, SqlType.Holds]
  only k := by cases k <;> first | exact Or.inl (by decide) | exact Or.inr fun _ => rfl

theorem sessions_encodes : Encodes .sessions sessionsColumns sessionCells where
  table := by decide
  typed r := by simp [sessionsColumns, required, optional, sessionCells, SqlType.Holds]
  only k := by cases k <;> first | exact Or.inl (by decide) | exact Or.inr fun _ => rfl

theorem refreshTokens_encodes : Encodes .refreshTokens refreshTokensColumns refreshTokenCells where
  table := by decide
  typed r := by simp [refreshTokensColumns, required, refreshTokenCells, SqlType.Holds]
  only k := by cases k <;> first | exact Or.inl (by decide) | exact Or.inr fun _ => rfl

theorem permissions_encodes : Encodes .permissions permissionsColumns permissionCells where
  table := by decide
  typed r := by simp [permissionsColumns, required, optional, permissionCells, SqlType.Holds]
  only k := by cases k <;> first | exact Or.inl (by decide) | exact Or.inr fun _ => rfl

theorem roles_encodes : Encodes .roles rolesColumns roleCells where
  table := by decide
  typed r := by simp [rolesColumns, required, optional, roleCells, SqlType.Holds]
  only k := by cases k <;> first | exact Or.inl (by decide) | exact Or.inr fun _ => rfl

theorem rolePermissions_encodes :
    Encodes .rolePermissions rolePermissionsColumns rolePermissionCells where
  table := by decide
  typed r := by simp [rolePermissionsColumns, required, rolePermissionCells, SqlType.Holds]
  only k := by cases k <;> first | exact Or.inl (by decide) | exact Or.inr fun _ => rfl

theorem userRoles_encodes : Encodes .userRoles userRolesColumns userRoleCells where
  table := by decide
  typed r := by simp [userRolesColumns, required, optional, userRoleCells, SqlType.Holds]
  only k := by cases k <;> first | exact Or.inl (by decide) | exact Or.inr fun _ => rfl

end BackendTemplate.Migrations
