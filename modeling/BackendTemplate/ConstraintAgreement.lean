import BackendTemplate.StoredRows
import BackendTemplate.Upgrades
import BackendTemplate.RbacRows
import BackendTemplate.Identities
import BackendTemplate.Lockout

/-!
# The Constraints of the Migrated Schema

The model decides by `Db.admits` and `RbacDb.admits` whether a write passes the constraints. At the
head of the migrations Postgres decides the same: the rows after the write fit the schema exactly if
the model admits it.
-/

namespace BackendTemplate.Migrations

open Relational

variable {jsonb : String → Option String} {render : List String → String} {S : SqlSchema}
  {db db₀ : Db} {rbac rbac₀ : RbacDb} {others : SqlData}

/-! ### The schema of the models -/

theorem mem_columns_of_withoutDefaults {S S' : SqlSchema} (h : withoutDefaults S = withoutDefaults S')
    {c : SqlColumn} (hc : c ∈ S.columns) :
    ∃ c' ∈ S'.columns, c'.table = c.table ∧ c'.name = c.name ∧ c'.type = c.type ∧
      c'.nullable = c.nullable := by
  have hmem : { c with default := none } ∈ (withoutDefaults S).columns := Finset.mem_image_of_mem _ hc
  rw [h] at hmem
  obtain ⟨c', hc', heq⟩ := Finset.mem_image.mp hmem
  obtain ⟨htable, hname, htype, hnullable, -⟩ := Column.mk.inj heq
  exact ⟨c', hc', htable, hname, htype, hnullable⟩

/-- A table has the rows of a model, or those it had. -/
theorem stored_cases (t : TableName) :
    (∃ (α : Type) (columns : List SqlColumn) (cells : α → Row ColumnName Cell) (rows : List α),
      stored render db rbac others t = rows.map cells ∧ Encodes t columns cells ∧
        t ∈ metadata.tables ∧ (∀ c ∈ columns, c ∈ metadataColumns) ∧
        ∀ c ∈ metadataColumns, c.table = t → c ∈ columns) ∨
      stored render db rbac others t = stored render db₀ rbac₀ others t := by
  cases t with
  | users =>
      exact Or.inl ⟨_, _, _, _, rfl, users_encodes render, by decide, by decide +kernel,
        by decide +kernel⟩
  | sessions =>
      exact Or.inl ⟨_, _, _, _, rfl, sessions_encodes, by decide, by decide +kernel,
        by decide +kernel⟩
  | refreshTokens =>
      exact Or.inl ⟨_, _, _, _, rfl, refreshTokens_encodes, by decide, by decide +kernel,
        by decide +kernel⟩
  | permissions =>
      exact Or.inl ⟨_, _, _, _, rfl, permissions_encodes, by decide, by decide +kernel,
        by decide +kernel⟩
  | roles =>
      exact Or.inl ⟨_, _, _, _, rfl, roles_encodes, by decide, by decide +kernel,
        by decide +kernel⟩
  | rolePermissions =>
      exact Or.inl ⟨_, _, _, _, rfl, rolePermissions_encodes, by decide, by decide +kernel,
        by decide +kernel⟩
  | userRoles =>
      exact Or.inl ⟨_, _, _, _, rfl, userRoles_encodes, by decide, by decide +kernel,
        by decide +kernel⟩
  | _ => exact Or.inr rfl

/-! ### What the schema asks of the rows -/

/-- **The constraints of the account tables**. -/
structure Constrained (db : Db) : Prop where
  keyed : db.Keyed
  usernames : (db.users.map UserRow.username).Nodup
  emails : db.users.Pairwise fun r r' => r.email.isSome = true → r.email ≠ r'.email
  hashes : (db.refreshTokens.map RefreshTokenRow.tokenHash).Nodup
  sessionUser : ∀ s ∈ db.sessions, s.userId ∈ db.users.map UserRow.id
  tokenSession : ∀ t ∈ db.refreshTokens, t.sessionId ∈ db.sessions.map SessionRow.sessionId

theorem uuid_injective : Function.Injective Cell.uuid := fun _ _ h => Cell.uuid.inj h

theorem text_injective : Function.Injective Cell.text := fun _ _ h => Cell.text.inj h

theorem bytes_injective : Function.Injective Cell.bytes := fun _ _ h => Cell.bytes.inj h

/-- The primary keys and unique columns. -/
theorem keys_iff :
    (∀ key ∈ metadata.keys, UniqueOn key.columns (stored render db rbac others key.table)) ↔
      (db.Keyed ∧ (db.users.map UserRow.username).Nodup ∧
        db.users.Pairwise fun r r' => r.email.isSome = true → r.email ≠ r'.email) ∧
      ((rbac.permissions.map PermissionRow.id).Nodup ∧
        (rbac.permissions.map PermissionRow.name).Nodup ∧ (rbac.roles.map RoleRow.id).Nodup ∧
        (rbac.roles.map RoleRow.name).Nodup ∧ rbac.rolePermissions.Nodup ∧
        (rbac.userRoles.map fun a => (a.userId, a.roleId)).Nodup) ∧
      UniqueOn [.id] (others .outboxEvents) ∧ UniqueOn [.id] (others .auditLogs) := by
  have huserId : UniqueOn [.id] (db.users.map (userCells render)) ↔ (db.users.map UserRow.id).Nodup :=
    uniqueOn_map uuid_injective fun _ => rfl
  have husername : UniqueOn [.username] (db.users.map (userCells render)) ↔
      (db.users.map UserRow.username).Nodup :=
    uniqueOn_map text_injective fun _ => rfl
  have hemail : UniqueOn [.email] (db.users.map (userCells render)) ↔
      db.users.Pairwise fun r r' => r.email.isSome = true → r.email ≠ r'.email :=
    uniqueOn_optional text_injective fun _ => rfl
  have hsession : UniqueOn [.sessionId] (db.sessions.map sessionCells) ↔
      (db.sessions.map SessionRow.sessionId).Nodup :=
    uniqueOn_map uuid_injective fun _ => rfl
  have htoken : UniqueOn [.id] (db.refreshTokens.map refreshTokenCells) ↔
      (db.refreshTokens.map RefreshTokenRow.id).Nodup :=
    uniqueOn_map uuid_injective fun _ => rfl
  have hpermission : UniqueOn [.id] (rbac.permissions.map permissionCells) ↔
      (rbac.permissions.map PermissionRow.id).Nodup :=
    uniqueOn_map uuid_injective fun _ => rfl
  have hpermissionName : UniqueOn [.name] (rbac.permissions.map permissionCells) ↔
      (rbac.permissions.map PermissionRow.name).Nodup :=
    uniqueOn_map text_injective fun _ => rfl
  have hrole : UniqueOn [.id] (rbac.roles.map roleCells) ↔ (rbac.roles.map RoleRow.id).Nodup :=
    uniqueOn_map uuid_injective fun _ => rfl
  have hroleName : UniqueOn [.name] (rbac.roles.map roleCells) ↔
      (rbac.roles.map RoleRow.name).Nodup :=
    uniqueOn_map text_injective fun _ => rfl
  have hlink : UniqueOn [.roleId, .permissionId] (rbac.rolePermissions.map rolePermissionCells) ↔
      rbac.rolePermissions.Nodup := by
    rw [uniqueOn_pair uuid_injective (fun _ => rfl) fun _ => rfl, List.map_id']
  have hassignment : UniqueOn [.userId, .roleId] (rbac.userRoles.map userRoleCells) ↔
      (rbac.userRoles.map fun a => (a.userId, a.roleId)).Nodup :=
    uniqueOn_pair uuid_injective (fun _ => rfl) fun _ => rfl
  have hkeyed : db.Keyed ↔ (db.users.map UserRow.id).Nodup ∧
      (db.sessions.map SessionRow.sessionId).Nodup ∧
        (db.refreshTokens.map RefreshTokenRow.id).Nodup :=
    ⟨fun h => ⟨h.users, h.sessions, h.tokens⟩, fun h => ⟨h.1, h.2.1, h.2.2⟩⟩
  simp only [metadata, Finset.mem_insert, Finset.mem_singleton, forall_eq_or_imp, forall_eq,
    primaryKey, uniqueKey, stored, huserId, husername, hemail, hsession, htoken, hpermission,
    hpermissionName, hrole, hroleName, hlink, hassignment, hkeyed]
  constructor
  · rintro ⟨hu, hn, he, hs, ht, ho, hp, hpn, hr, hrn, hl, ha, hlog⟩
    exact ⟨⟨⟨hu, hs, ht⟩, hn, he⟩, ⟨hp, hpn, hr, hrn, hl, ha⟩, ho, hlog⟩
  · rintro ⟨⟨⟨hu, hs, ht⟩, hn, he⟩, ⟨hp, hpn, hr, hrn, hl, ha⟩, ho, hlog⟩
    exact ⟨hu, hn, he, hs, ht, ho, hp, hpn, hr, hrn, hl, ha, hlog⟩

/-- The foreign keys. -/
theorem foreignKeys_iff (husers : rbac.users = db.users) :
    (∀ fk ∈ metadata.foreignKeys, fk.Holds (stored render db rbac others)) ↔
      ((∀ s ∈ db.sessions, s.userId ∈ db.users.map UserRow.id) ∧
        ∀ t ∈ db.refreshTokens, t.sessionId ∈ db.sessions.map SessionRow.sessionId) ∧
      ((∀ l ∈ rbac.rolePermissions, l.1 ∈ rbac.roles.map RoleRow.id) ∧
        (∀ l ∈ rbac.rolePermissions, l.2 ∈ rbac.permissions.map PermissionRow.id) ∧
        (∀ a ∈ rbac.userRoles, a.userId ∈ rbac.users.map UserRow.id) ∧
        (∀ a ∈ rbac.userRoles, a.roleId ∈ rbac.roles.map RoleRow.id) ∧
        ∀ a ∈ rbac.userRoles, ∀ b ∈ a.assignedBy, b ∈ rbac.users.map UserRow.id) ∧
      (foreignKey .auditLogs .userId .users .id .setNull).Holds (stored render db rbac others) := by
  have hsession : (foreignKey .sessions .userId .users .id .cascade).Holds
      (stored render db rbac others) ↔ ∀ s ∈ db.sessions, s.userId ∈ db.users.map UserRow.id :=
    holds_map uuid_injective rfl rfl (fun _ => rfl) fun _ => rfl
  have htoken : (foreignKey .refreshTokens .sessionId .sessions .sessionId .cascade).Holds
      (stored render db rbac others) ↔
      ∀ t ∈ db.refreshTokens, t.sessionId ∈ db.sessions.map SessionRow.sessionId :=
    holds_map uuid_injective rfl rfl (fun _ => rfl) fun _ => rfl
  have hlinkRole : (foreignKey .rolePermissions .roleId .roles .id .cascade).Holds
      (stored render db rbac others) ↔
      ∀ l ∈ rbac.rolePermissions, l.1 ∈ rbac.roles.map RoleRow.id :=
    holds_map uuid_injective rfl rfl (fun _ => rfl) fun _ => rfl
  have hlinkPermission : (foreignKey .rolePermissions .permissionId .permissions .id .cascade).Holds
      (stored render db rbac others) ↔
      ∀ l ∈ rbac.rolePermissions, l.2 ∈ rbac.permissions.map PermissionRow.id :=
    holds_map uuid_injective rfl rfl (fun _ => rfl) fun _ => rfl
  have hassignee : (foreignKey .userRoles .userId .users .id .cascade).Holds
      (stored render db rbac others) ↔ ∀ a ∈ rbac.userRoles, a.userId ∈ db.users.map UserRow.id :=
    holds_map uuid_injective rfl rfl (fun _ => rfl) fun _ => rfl
  have hassigned : (foreignKey .userRoles .roleId .roles .id .cascade).Holds
      (stored render db rbac others) ↔ ∀ a ∈ rbac.userRoles, a.roleId ∈ rbac.roles.map RoleRow.id :=
    holds_map uuid_injective rfl rfl (fun _ => rfl) fun _ => rfl
  have hassigner : (foreignKey .userRoles .assignedBy .users .id .setNull).Holds
      (stored render db rbac others) ↔
      ∀ a ∈ rbac.userRoles, ∀ b ∈ a.assignedBy, b ∈ db.users.map UserRow.id :=
    holds_optional uuid_injective rfl rfl (fun _ => rfl) fun _ => rfl
  simp only [metadata, Finset.mem_insert, Finset.mem_singleton, forall_eq_or_imp, forall_eq,
    hsession, htoken, hlinkRole, hlinkPermission, hassignee, hassigned, hassigner, husers]
  constructor
  · rintro ⟨hs, ht, hlr, hlp, hau, har, hab, hlog⟩
    exact ⟨⟨hs, ht⟩, ⟨hlr, hlp, hau, har, hab⟩, hlog⟩
  · rintro ⟨⟨hs, ht⟩, ⟨hlr, hlp, hau, har, hab⟩, hlog⟩
    exact ⟨hs, ht, hlr, hlp, hau, har, hab, hlog⟩

/-- The one unique index. -/
theorem indexes_iff :
    (∀ ix ∈ metadata.indexes, ix.unique = true → ix.condition = none →
      UniqueOn ix.columns (stored render db rbac others ix.table)) ↔
      (db.refreshTokens.map RefreshTokenRow.tokenHash).Nodup := by
  have hhash : UniqueOn [.tokenHash] (db.refreshTokens.map refreshTokenCells) ↔
      (db.refreshTokens.map RefreshTokenRow.tokenHash).Nodup :=
    uniqueOn_map bytes_injective fun _ => rfl
  simp [metadata, index, refreshTokensTokenHash, outboxEventsUnprocessed, auditLogsEntity, stored,
    hhash]

/-- Every row has the columns of its table, with values of their types. -/
theorem stored_shape (hS : withoutDefaults S = withoutDefaults metadata)
    (h₀ : Fits (postgres jsonb) S (stored render db₀ rbac₀ others)) :
    (∀ t ∉ S.tables, stored render db rbac others t = []) ∧
      (∀ t, ∀ r ∈ stored render db rbac others t, ∀ k, ¬ S.Has t k → r k = none) ∧
      ∀ c ∈ S.columns, ∀ r ∈ stored render db rbac others c.table,
        (∀ v ∈ r c.name, c.type.Holds v) ∧ (c.nullable = false → r c.name ≠ none) := by
  have htables : S.tables = metadata.tables := by
    rw [← withoutDefaults_tables, hS, withoutDefaults_tables]
  refine ⟨fun t ht => ?_, fun t r hr k hk => ?_, fun c hc r hr => ?_⟩
  · rcases stored_cases t with ⟨_, _, _, _, -, -, hmem, -⟩ | hsame
    · exact absurd (htables ▸ hmem) ht
    · rw [hsame]
      exact h₀.tables t ht
  · rcases stored_cases t with ⟨α, columns, cells, rows, hrows, hcells, -, hmem, -⟩ | hsame
    · rw [hrows] at hr
      obtain ⟨a, -, rfl⟩ := List.mem_map.mp hr
      rcases hcells.only k with hin | hno
      · obtain ⟨c, hc, rfl⟩ := List.mem_map.mp hin
        obtain ⟨c', hc', htable, hname, -⟩ :=
          mem_columns_of_withoutDefaults hS.symm (List.mem_toFinset.mpr (hmem c hc))
        exact absurd ⟨c', hc', htable.trans (hcells.table c hc), hname⟩ hk
      · exact hno a
    · rw [hsame] at hr
      exact h₀.columns t r hr k hk
  · rcases stored_cases c.table with ⟨α, columns, cells, rows, hrows, hcells, -, -, hmem⟩ | hsame
    · rw [hrows] at hr
      obtain ⟨a, -, rfl⟩ := List.mem_map.mp hr
      obtain ⟨c', hc', htable, hname, htype, hnullable⟩ := mem_columns_of_withoutDefaults hS hc
      have htyped := hcells.typed a c' (hmem c' (List.mem_toFinset.mp hc') htable)
      rwa [hname, htype, hnullable] at htyped
    · rw [hsame] at hr
      exact ⟨h₀.types c hc r hr, fun hnull => h₀.notNull c hc hnull r hr⟩

/-- The audit log still refers to users that are there, if no user went. -/
theorem auditLogs_refer (hids : ∀ x ∈ db₀.users.map UserRow.id, x ∈ db.users.map UserRow.id)
    (h : (foreignKey .auditLogs .userId .users .id .setNull).Holds
      (stored render db₀ rbac₀ others)) :
    (foreignKey .auditLogs .userId .users .id .setNull).Holds (stored render db rbac others) := by
  rw [holds_foreignKey] at h ⊢
  intro r hr hset
  obtain ⟨r', hr', heq⟩ := h r hr hset
  obtain ⟨u₀, hu₀, rfl⟩ := List.mem_map.mp hr'
  obtain ⟨u, hu, hid⟩ := List.mem_map.mp (hids _ (List.mem_map_of_mem hu₀))
  refine ⟨_, List.mem_map_of_mem hu, heq.trans ?_⟩
  rw [userCells, userCells, hid]

/-- **The rows of the models fit the schema of the head exactly if they satisfy the constraints the
models know of.** -/
theorem fits_stored_iff (hS : withoutDefaults S = withoutDefaults metadata)
    (h₀ : Fits (postgres jsonb) S (stored render db₀ rbac₀ others))
    (hids : ∀ x ∈ db₀.users.map UserRow.id, x ∈ db.users.map UserRow.id) (husers : rbac.users = db.users) :
    Fits (postgres jsonb) S (stored render db rbac others) ↔ Constrained db ∧ rbac.WellFormed := by
  have hkeys : S.keys = metadata.keys := by
    rw [← withoutDefaults_keys, hS, withoutDefaults_keys]
  have hfks : S.foreignKeys = metadata.foreignKeys := by
    rw [← withoutDefaults_foreignKeys, hS, withoutDefaults_foreignKeys]
  have hixs : S.indexes = metadata.indexes := by
    rw [← withoutDefaults_indexes, hS, withoutDefaults_indexes]
  constructor
  · intro h
    obtain ⟨⟨hkeyed, hnames, hemails⟩, ⟨hp, hpn, hr, hrn, hl, ha⟩, -⟩ := keys_iff.mp (hkeys ▸ h.keys)
    obtain ⟨⟨hs, ht⟩, ⟨hlr, hlp, hau, har, hab⟩, -⟩ :=
      (foreignKeys_iff husers).mp (hfks ▸ h.foreignKeys)
    exact ⟨⟨hkeyed, hnames, hemails, indexes_iff.mp (hixs ▸ h.indexes), hs, ht⟩,
      ⟨husers ▸ hkeyed.users, hp, hpn, hr, hrn, hl, hlr, hlp, ha, hau, har, hab⟩⟩
  · rintro ⟨hdb, hrbac⟩
    obtain ⟨htables, hcolumns, htyped⟩ :=
      @stored_shape jsonb render S db db₀ rbac rbac₀ others hS h₀
    obtain ⟨-, -, houtbox, hlog⟩ := keys_iff.mp (hkeys ▸ h₀.keys)
    refine ⟨h₀.involved, htables, hcolumns, fun c hc r hr => (htyped c hc r hr).1,
      fun c hc hnull r hr => (htyped c hc r hr).2 hnull, ?_, ?_, ?_⟩
    · rw [hkeys]
      exact keys_iff.mpr ⟨⟨hdb.keyed, hdb.usernames, hdb.emails⟩, ⟨hrbac.permissionIds,
        hrbac.permissionNames, hrbac.roleIds, hrbac.roleNames, hrbac.links, hrbac.assignments⟩,
        houtbox, hlog⟩
    · rw [hixs]
      exact indexes_iff.mpr hdb.hashes
    · rw [hfks]
      refine (foreignKeys_iff husers).mpr ⟨⟨hdb.sessionUser, hdb.tokenSession⟩, ⟨hrbac.linkRole,
        hrbac.linkPermission, hrbac.assignmentUser, hrbac.assignmentRole, hrbac.assignmentBy⟩, ?_⟩
      exact auditLogs_refer hids (h₀.foreignKeys _ (hfks ▸ by decide))

/-! ### One more row, one other row -/

section Rows

variable {ρ κ : Type} {f : ρ → κ} {rows : List ρ} {row : ρ}

theorem nodup_map_concat :
    ((rows ++ [row]).map f).Nodup ↔ (rows.map f).Nodup ∧ ∀ r ∈ rows, f r ≠ f row := by
  rw [List.map_append, List.nodup_append]
  simp

variable [DecidableEq κ]

/-- When a relation between the rows of a table still holds after one of them was replaced. -/
theorem pairwise_update {R : ρ → ρ → Prop} (hsymm : ∀ r r', R r r' → R r' r)
    (hkeys : (rows.map f).Nodup) (hrow : f row ∈ rows.map f) (hR : rows.Pairwise R) :
    (rows.map fun r => if f r = f row then row else r).Pairwise R ↔
      ∀ r ∈ rows, f r ≠ f row → R r row := by
  have hapart : ∀ r ∈ rows, ∀ r' ∈ rows, r ≠ r' → f r ≠ f r' := fun r hr r' hr' hne heq =>
    hne (List.inj_on_of_nodup_map hkeys hr hr' heq)
  rw [List.pairwise_map]
  constructor
  · intro h r hr hne
    obtain ⟨r₀, hr₀, hid⟩ := List.mem_map.mp hrow
    have hsymm' : Std.Symm fun r r' =>
        R (if f r = f row then row else r) (if f r' = f row then row else r') :=
      ⟨fun _ _ => hsymm _ _⟩
    have hdiff : r ≠ r₀ := fun heq => hne (heq ▸ hid)
    simpa only [if_neg hne, if_pos hid] using h.forall hr hr₀ hdiff
  · intro h
    refine (hR.and (List.pairwise_map.mp hkeys)).imp_of_mem fun {r r'} hr hr' ⟨hrel, hne⟩ => ?_
    by_cases hid : f r = f row
    · have hid' : f r' ≠ f row := fun heq => hne (hid.trans heq.symm)
      rw [if_pos hid, if_neg hid']
      exact hsymm _ _ (h r' hr' hid')
    · rw [if_neg hid]
      by_cases hid' : f r' = f row
      · rw [if_pos hid']
        exact h r hr hid
      · rwa [if_neg hid']

end Rows

/-! ### Roles and permissions -/

/-- An update finds its row, as `updateRole` sees to. -/
def RowFound (rbac : RbacDb) : RowWrite → Prop
  | .roleUpdate row => row.id ∈ rbac.roles.map RoleRow.id
  | _ => True

/-- What satisfies the constraints after a write was admitted. -/
theorem admits_of_wellFormed (h : rbac.WellFormed) {w : RowWrite} (hw : RowFound rbac w)
    (h' : (rbac.apply w).WellFormed) : rbac.admits w = true := by
  cases w with
  | roleInsert row =>
      have hids := (nodup_map_concat.mp h'.roleIds).2
      have hnames := (nodup_map_concat.mp h'.roleNames).2
      simpa [RbacDb.admits, not_or] using fun r hr => ⟨hids r hr, hnames r hr⟩
  | roleUpdate row =>
      have hnames : (rbac.roles.map fun r => if r.id = row.id then row else r).Pairwise
          fun r r' => r.name ≠ r'.name := List.pairwise_map.mp h'.roleNames
      rw [pairwise_update (fun _ _ hne => hne.symm) h.roleIds hw
        (List.pairwise_map.mp h.roleNames)] at hnames
      simpa [RbacDb.admits] using hnames
  | permissionInsert row =>
      have hids := (nodup_map_concat.mp h'.permissionIds).2
      have hnames := (nodup_map_concat.mp h'.permissionNames).2
      simpa [RbacDb.admits, not_or] using fun r hr => ⟨hids r hr, hnames r hr⟩
  | linkInsert r p =>
      have hmem : (r, p) ∈ (rbac.apply (.linkInsert r p)).rolePermissions :=
        List.mem_append_right _ (List.mem_singleton_self _)
      have hnew : (r, p) ∉ rbac.rolePermissions := fun hold =>
        (List.nodup_append.mp h'.links).2.2 _ hold _ (List.mem_singleton_self _) rfl
      obtain ⟨role, hrole, hr⟩ := List.mem_map.mp (h'.linkRole _ hmem)
      obtain ⟨perm, hperm, hp⟩ := List.mem_map.mp (h'.linkPermission _ hmem)
      simp only [RbacDb.admits, Bool.and_eq_true, Bool.not_eq_true', List.contains_eq_mem,
        decide_eq_false_iff_not, List.any_eq_true, decide_eq_true_eq]
      exact ⟨⟨hnew, role, hrole, hr⟩, perm, hperm, hp⟩
  | userRoleInsert row =>
      have hmem : row ∈ (rbac.apply (.userRoleInsert row)).userRoles :=
        List.mem_append_right _ (List.mem_singleton_self _)
      have hnew := (nodup_map_concat.mp h'.assignments).2
      obtain ⟨user, huser, hu⟩ := List.mem_map.mp (h'.assignmentUser _ hmem)
      obtain ⟨role, hrole, hr⟩ := List.mem_map.mp (h'.assignmentRole _ hmem)
      simp only [RbacDb.admits, Bool.and_eq_true, Bool.not_eq_true', List.any_eq_false,
        List.any_eq_true, decide_eq_true_eq]
      refine ⟨⟨⟨fun a ha heq => hnew a ha (Prod.ext heq.1 heq.2), user, huser, hu⟩, role, hrole, hr⟩,
        ?_⟩
      cases hby : row.assignedBy with
      | none => rfl
      | some b =>
          obtain ⟨u, hu, hub⟩ := List.mem_map.mp (h'.assignmentBy _ hmem b hby)
          exact List.any_eq_true.mpr ⟨u, hu, decide_eq_true hub⟩
  | roleDelete row | linkDelete r p | userRoleDelete u r => rfl

/-- **Postgres and the model admit the same writes** to the tables of roles and permissions. -/
theorem fits_rbac_iff {d : Deployment} (h : d.Reachable jsonb) (hhead : d.revision = some head)
    (hdata : d.db.data = stored render db rbac others) (husers : rbac.users = db.users)
    {w : RowWrite} (hw : RowFound rbac w) :
    Fits (postgres jsonb) d.db.schema (stored render db (rbac.apply w) others) ↔
      rbac.admits w = true := by
  have hd := h.sound
  have hS := hd.models hhead
  have hfits := hdata ▸ hd.fits
  have hkeep : (rbac.apply w).users = db.users := by
    rw [← husers]
    cases w <;> rfl
  have hnow := (fits_stored_iff hS hfits (fun _ hx => hx) husers).mp hfits
  rw [fits_stored_iff hS hfits (fun _ hx => hx) hkeep]
  constructor
  · exact fun h' => admits_of_wellFormed hnow.2 hw h'.2
  · exact fun ha => ⟨hnow.1, hnow.2.apply ha⟩

/-- No rows are the rows of empty tables. -/
theorem stored_empty : stored render {} {} (fun _ => []) = fun _ => [] := by
  funext t
  cases t <;> rfl

theorem fits_rbac_iff_empty :
    ∃ d : Deployment, ¬ Fits (postgres some) d.db.schema
      (stored toString {} (({} : RbacDb).apply (.linkInsert 1 2)) fun _ => []) := by
  obtain ⟨d, h, hhead, hdata⟩ := exists_at_head some
  refine ⟨d, fun hfits => ?_⟩
  have hadmits := (fits_rbac_iff h hhead (hdata.trans stored_empty.symm) rfl
    (w := .linkInsert 1 2) trivial).mp hfits
  exact absurd hadmits (by decide)

/-! ### Accounts and sessions -/

/-- A statement on the account tables. An update of a user finds its row: the repository raises when
it does not. -/
def OnAccounts (db : Db) : Write → Prop
  | .userUpdate row => row.id ∈ db.users.map UserRow.id
  | .outboxInsert _ | .auditInsert _ => False
  | _ => True

/-- Two rows do not share an email. -/
def EmailsApart (r r' : UserRow) : Prop := r.email.isSome = true → r.email ≠ r'.email

theorem EmailsApart.symm {r r' : UserRow} (h : EmailsApart r r') : EmailsApart r' r := by
  intro hset heq
  exact h (heq ▸ hset) heq.symm

/-- A new user. -/
theorem constrained_userInsert (h : Constrained db) (row : UserRow) :
    Constrained (db.apply (.userInsert row)) ↔ db.admits (.userInsert row) = true := by
  have hadmits : db.admits (.userInsert row) = true ↔ (∀ r ∈ db.users, r.id ≠ row.id) ∧
      (∀ r ∈ db.users, r.username ≠ row.username) ∧ ∀ r ∈ db.users, EmailsApart r row := by
    simp only [Db.admits, Bool.not_eq_true', List.any_eq_false, Bool.or_eq_true, decide_eq_true_eq,
      Bool.and_eq_true, not_or, not_and, EmailsApart, ne_eq, ← forall_and, and_assoc]
  have hemails : (db.users ++ [row]).Pairwise EmailsApart ↔
      db.users.Pairwise EmailsApart ∧ ∀ r ∈ db.users, EmailsApart r row := by
    rw [List.pairwise_append]
    simp
  have hgrow : ∀ x ∈ db.users.map UserRow.id, x ∈ (db.users ++ [row]).map UserRow.id := by
    intro x hx
    rw [List.map_append]
    exact List.mem_append_left _ hx
  rw [hadmits]
  constructor
  · intro h'
    exact ⟨(nodup_map_concat.mp h'.keyed.users).2, (nodup_map_concat.mp h'.usernames).2,
      (hemails.mp h'.emails).2⟩
  · rintro ⟨hids, hnames, hmails⟩
    exact ⟨⟨nodup_map_concat.mpr ⟨h.keyed.users, hids⟩, h.keyed.sessions, h.keyed.tokens⟩,
      nodup_map_concat.mpr ⟨h.usernames, hnames⟩, hemails.mpr ⟨h.emails, hmails⟩, h.hashes,
      fun s hs => hgrow _ (h.sessionUser s hs), h.tokenSession⟩

/-- Another state of a user. -/
theorem constrained_userUpdate (h : Constrained db) {row : UserRow}
    (hrow : row.id ∈ db.users.map UserRow.id) :
    Constrained (db.apply (.userUpdate row)) ↔ db.admits (.userUpdate row) = true := by
  have hadmits : db.admits (.userUpdate row) = true ↔
      (∀ r ∈ db.users, r.id ≠ row.id → r.username ≠ row.username) ∧
        ∀ r ∈ db.users, r.id ≠ row.id → EmailsApart r row := by
    simp only [Db.admits, Bool.not_eq_true', List.any_eq_false, Bool.and_eq_true, decide_eq_true_eq,
      Bool.or_eq_true, not_and, not_or, EmailsApart, ne_eq]
    exact ⟨fun h => ⟨fun r hr hne => (h r hr hne).1, fun r hr hne => (h r hr hne).2⟩,
      fun h r hr hne => ⟨h.1 r hr hne, h.2 r hr hne⟩⟩
  have hnames := pairwise_update (R := fun r r' : UserRow => r.username ≠ r'.username)
    (fun _ _ hne => hne.symm) h.keyed.users hrow (List.pairwise_map.mp h.usernames)
  have hmails := pairwise_update (fun _ _ happart => EmailsApart.symm happart) h.keyed.users hrow
    h.emails
  have hids : ((db.apply (.userUpdate row)).users).map UserRow.id = db.users.map UserRow.id :=
    Keyed.map_key_modify (f := fun _ => row) fun _ _ => rfl
  rw [hadmits, ← hnames, ← hmails]
  constructor
  · exact fun h' => ⟨List.pairwise_map.mp h'.usernames, h'.emails⟩
  · rintro ⟨hnames', hmails'⟩
    exact ⟨⟨hids.symm ▸ h.keyed.users, h.keyed.sessions, h.keyed.tokens⟩,
      List.pairwise_map.mpr hnames', hmails', h.hashes,
      fun s hs => hids.symm ▸ h.sessionUser s hs, h.tokenSession⟩

/-- A new session. -/
theorem constrained_sessionInsert (h : Constrained db) (row : SessionRow) :
    Constrained (db.apply (.sessionInsert row)) ↔ db.admits (.sessionInsert row) = true := by
  have hadmits : db.admits (.sessionInsert row) = true ↔
      (∀ s ∈ db.sessions, s.sessionId ≠ row.sessionId) ∧ row.userId ∈ db.users.map UserRow.id := by
    simp only [Db.admits, Bool.and_eq_true, Bool.not_eq_true', List.any_eq_false, List.any_eq_true,
      decide_eq_true_eq, List.mem_map, ne_eq]
  rw [hadmits]
  constructor
  · intro h'
    exact ⟨(nodup_map_concat.mp h'.keyed.sessions).2,
      h'.sessionUser row (List.mem_append_right _ (List.mem_singleton_self _))⟩
  · rintro ⟨hids, huser⟩
    refine ⟨⟨h.keyed.users, nodup_map_concat.mpr ⟨h.keyed.sessions, hids⟩, h.keyed.tokens⟩,
      h.usernames, h.emails, h.hashes, fun s hs => ?_, fun t ht => ?_⟩
    · rcases List.mem_append.mp hs with hs | hs
      · exact h.sessionUser s hs
      · exact List.mem_singleton.mp hs ▸ huser
    · rw [Db.apply, List.map_append]
      exact List.mem_append_left _ (h.tokenSession t ht)

/-- Another state of a session. -/
theorem constrained_sessionUpdate (h : Constrained db) (sid : Uuid) (isRevoked : Bool)
    (expiresAt : Instant) : Constrained (db.apply (.sessionUpdate sid isRevoked expiresAt)) := by
  have hids : ((db.apply (.sessionUpdate sid isRevoked expiresAt)).sessions).map
      SessionRow.sessionId = db.sessions.map SessionRow.sessionId :=
    Keyed.map_key_modify (f := fun r : SessionRow => r.set isRevoked expiresAt) fun _ hr => hr
  refine ⟨⟨h.keyed.users, hids.symm ▸ h.keyed.sessions, h.keyed.tokens⟩, h.usernames, h.emails,
    h.hashes, fun s hs => ?_, fun t ht => hids.symm ▸ h.tokenSession t ht⟩
  obtain ⟨s₀, hs₀, rfl⟩ := List.mem_map.mp hs
  split
  · exact h.sessionUser s₀ hs₀
  · exact h.sessionUser s₀ hs₀

/-- A refresh token that was not there. -/
theorem constrained_tokens (h : Constrained db) (row : RefreshTokenRow) :
    Constrained { db with refreshTokens := db.refreshTokens ++ [row] } ↔
      (∀ t ∈ db.refreshTokens, t.id ≠ row.id) ∧
        (∀ t ∈ db.refreshTokens, t.tokenHash ≠ row.tokenHash) ∧
        row.sessionId ∈ db.sessions.map SessionRow.sessionId := by
  constructor
  · intro h'
    exact ⟨(nodup_map_concat.mp h'.keyed.tokens).2, (nodup_map_concat.mp h'.hashes).2,
      h'.tokenSession row (List.mem_append_right _ (List.mem_singleton_self _))⟩
  · rintro ⟨hids, hhashes, hsession⟩
    refine ⟨⟨h.keyed.users, h.keyed.sessions, nodup_map_concat.mpr ⟨h.keyed.tokens, hids⟩⟩,
      h.usernames, h.emails, nodup_map_concat.mpr ⟨h.hashes, hhashes⟩, h.sessionUser, fun t ht => ?_⟩
    rcases List.mem_append.mp ht with ht | ht
    · exact h.tokenSession t ht
    · exact List.mem_singleton.mp ht ▸ hsession

theorem constrained_tokenInsert (h : Constrained db) (row : RefreshTokenRow) :
    Constrained (db.apply (.tokenInsert row)) ↔ db.admits (.tokenInsert row) = true := by
  rw [Db.apply, constrained_tokens h]
  simp only [Db.admits, Bool.and_eq_true, Bool.not_eq_true', List.any_eq_false, List.any_eq_true,
    decide_eq_true_eq, List.mem_map, ne_eq, Bool.or_eq_true, not_or, forall_and, and_assoc]

theorem constrained_tokenUpsert (h : Constrained db) (row : RefreshTokenRow) :
    Constrained (db.apply (.tokenUpsert row)) ↔ db.admits (.tokenUpsert row) = true := by
  rw [Db.apply, upsertToken]
  by_cases hany : (db.refreshTokens.any fun r => r.id = row.id) = true
  · -- The row is there: its hash and its session stay what they are.
    have hset : ∀ {β : Type} (f : RefreshTokenRow → β),
        (∀ r : RefreshTokenRow, f (r.set row.isRevoked row.expiresAt) = f r) →
        (db.refreshTokens.map fun r =>
          if r.id = row.id then r.set row.isRevoked row.expiresAt else r).map f =
            db.refreshTokens.map f := by
      intro β f hf
      rw [List.map_map]
      refine List.map_congr_left fun r _ => ?_
      rw [Function.comp_apply]
      split
      · exact hf r
      · rfl
    rw [if_pos hany]
    refine iff_of_true ⟨⟨h.keyed.users, h.keyed.sessions, ?_⟩, h.usernames, h.emails, ?_,
      h.sessionUser, fun t ht => ?_⟩ (by rw [Db.admits, hany, Bool.true_or])
    · exact (hset RefreshTokenRow.id fun _ => rfl).symm ▸ h.keyed.tokens
    · exact (hset RefreshTokenRow.tokenHash fun _ => rfl).symm ▸ h.hashes
    · have hmem := List.mem_map_of_mem (f := RefreshTokenRow.sessionId) ht
      rw [hset RefreshTokenRow.sessionId fun _ => rfl] at hmem
      obtain ⟨t₀, ht₀, heq⟩ := List.mem_map.mp hmem
      exact heq ▸ h.tokenSession t₀ ht₀
  · have hnew : ∀ t ∈ db.refreshTokens, t.id ≠ row.id := by
      simpa using hany
    rw [if_neg hany, constrained_tokens h, Db.admits, Bool.eq_false_iff.mpr hany, Bool.false_or]
    simp only [Bool.and_eq_true, Bool.not_eq_true', List.any_eq_false, List.any_eq_true,
      decide_eq_true_eq, List.mem_map, ne_eq]
    exact and_iff_right hnew

theorem constrained_apply (h : Constrained db) {w : Write} (hw : OnAccounts db w) :
    Constrained (db.apply w) ↔ db.admits w = true := by
  cases w with
  | userInsert row => exact constrained_userInsert h row
  | userUpdate row => exact constrained_userUpdate h hw
  | sessionInsert row => exact constrained_sessionInsert h row
  | sessionUpdate sid isRevoked expiresAt =>
      exact iff_of_true (constrained_sessionUpdate h sid isRevoked expiresAt) rfl
  | tokenInsert row => exact constrained_tokenInsert h row
  | tokenUpsert row => exact constrained_tokenUpsert h row
  | outboxInsert row | auditInsert row => exact absurd hw id

/-- **Postgres and the model admit the same writes** to the account tables. -/
theorem fits_accounts_iff {d : Deployment} (h : d.Reachable jsonb) (hhead : d.revision = some head)
    (hdata : d.db.data = stored render db rbac others) (husers : rbac.users = db.users)
    {w : Write} (hw : OnAccounts db w) :
    Fits (postgres jsonb) d.db.schema
        (stored render (db.apply w) { rbac with users := (db.apply w).users } others) ↔
      db.admits w = true := by
  have hd := h.sound
  have hS := hd.models hhead
  have hfits := hdata ▸ hd.fits
  have hnow := (fits_stored_iff hS hfits (fun _ hx => hx) husers).mp hfits
  have hids : ∀ x ∈ db.users.map UserRow.id, x ∈ (db.apply w).users.map UserRow.id := by
    cases w with
    | userInsert row =>
        intro x hx
        rw [Db.apply, List.map_append]
        exact List.mem_append_left _ hx
    | userUpdate row =>
        have hsame : (db.apply (.userUpdate row)).users.map UserRow.id = db.users.map UserRow.id :=
          Keyed.map_key_modify (f := fun _ => row) fun _ _ => rfl
        exact fun x hx => hsame.symm ▸ hx
    | _ => exact fun x hx => hx
  rw [fits_stored_iff hS hfits hids rfl]
  constructor
  · exact fun h' => (constrained_apply hnow.1 hw).mp h'.1
  · intro ha
    have hdb := (constrained_apply hnow.1 hw).mpr ha
    have hgrow : ∀ x ∈ rbac.users.map UserRow.id, x ∈ (db.apply w).users.map UserRow.id :=
      husers ▸ hids
    exact ⟨hdb, { hnow.2 with
      userIds := hdb.keyed.users
      assignmentUser := fun a ha => hgrow _ (hnow.2.assignmentUser a ha)
      assignmentBy := fun a ha b hb => hgrow _ (hnow.2.assignmentBy a ha b hb) }⟩

theorem fits_accounts_iff_empty :
    ∃ d : Deployment, ¬ Fits (postgres some) d.db.schema
      (stored toString (({} : Db).apply (.tokenInsert ⟨1, 2, [], 0, false, 0⟩)) {} fun _ => []) := by
  obtain ⟨d, h, hhead, hdata⟩ := exists_at_head some
  refine ⟨d, fun hfits => ?_⟩
  have hadmits := (fits_accounts_iff h hhead (hdata.trans stored_empty.symm) rfl
    (w := .tokenInsert ⟨1, 2, [], 0, false, 0⟩) trivial).mp hfits
  exact absurd hadmits (by decide)

end BackendTemplate.Migrations
