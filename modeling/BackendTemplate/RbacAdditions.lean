import BackendTemplate.RbacInserts

/-!
# The Open Transaction of a Request That Adds to the Role Store

`Additions` says what the log of such a request is worth while other transactions commit: its writes
meet no key of the tables, the rows it found are still there, and a role it has updated is its own.
The one fact that another commit can undo is that a key was missing. So a request whose missing keys
stay missing is never refused.

## Main results

* `RbacDb.view_keys` — the keys a transaction sees are those of the tables and those it inserted.
* `Additions.admits` — the statements of such a request pass the constraints.
* `Additions.executed` — a statement leaves an open transaction one.
* `Additions.other` — so does the commit of another request, unless it takes a missing key.
-/

namespace BackendTemplate

open Atomic Atomic.Prog

/-! ### The unique keys of the tables -/

/-- The unique values the tables hold, those of `role_permissions` apart. -/
def RbacDb.keys (db : RbacDb) : List RbacKey :=
  (db.roles.map RoleRow.id).map .role ++ (db.roles.map RoleRow.name).map .roleName ++
    (db.permissions.map PermissionRow.id).map .permission ++
    (db.permissions.map PermissionRow.name).map .permissionName ++
    (db.userRoles.map fun row => (row.userId, row.roleId)).map fun a => .assignment a.1 a.2

/-- The unique values a row write puts into the tables. -/
def RowWrite.inserts : RowWrite → List RbacKey
  | .roleInsert row => [.role row.id, .roleName row.name]
  | .permissionInsert row => [.permission row.id, .permissionName row.name]
  | .userRoleInsert row => [.assignment row.userId row.roleId]
  | _ => []

/-- A row write of a transaction that deletes nothing but links, and writes roles back as the tables
hold them. -/
def RowWrite.Adds (db : RbacDb) : RowWrite → Prop
  | .roleUpdate row => row ∈ db.roles
  | .roleDelete _ | .userRoleDelete _ _ => False
  | _ => True

/-- What is inserted is locked. -/
theorem RowWrite.inserts_subset_keys (w : RowWrite) : w.inserts ⊆ w.keys := by
  cases w with
  | roleInsert row => exact List.Subset.refl _
  | permissionInsert row => exact List.Subset.refl _
  | userRoleInsert row => exact List.Subset.refl _
  | _ => exact List.nil_subset _

theorem holds_of_inserts {ws : List RowWrite} {k : RbacKey} (h : k ∈ ws.flatMap RowWrite.inserts) :
    RowLocks.Holds RowWrite.keys ws k := by
  obtain ⟨w, hw, hk⟩ := List.mem_flatMap.mp h
  exact ⟨w, hw, w.inserts_subset_keys hk⟩

theorem RowWrite.Adds.mono {db db' : RbacDb} {w : RowWrite} (h : w.Adds db)
    (hroles : db.roles ⊆ db'.roles) : w.Adds db' := by
  cases w with
  | roleUpdate row => exact hroles h
  | _ => exact h

namespace RbacDb

variable {db : RbacDb} {w : RowWrite} {ws : List RowWrite}

@[simp] theorem role_mem_keys {x : Uuid} : .role x ∈ db.keys ↔ x ∈ db.roles.map RoleRow.id := by
  simp [keys]

@[simp] theorem roleName_mem_keys {n : String} :
    .roleName n ∈ db.keys ↔ n ∈ db.roles.map RoleRow.name := by
  simp [keys]

@[simp] theorem permission_mem_keys {x : Uuid} :
    .permission x ∈ db.keys ↔ x ∈ db.permissions.map PermissionRow.id := by
  simp [keys]

@[simp] theorem permissionName_mem_keys {n : String} :
    .permissionName n ∈ db.keys ↔ n ∈ db.permissions.map PermissionRow.name := by
  simp [keys]

@[simp] theorem assignment_mem_keys {u r : Uuid} :
    .assignment u r ∈ db.keys ↔ ∃ row ∈ db.userRoles, row.userId = u ∧ row.roleId = r := by
  simp [keys]

/-- Tables that meet their constraints hold every unique value once. -/
theorem WellFormed.nodup_keys (h : db.WellFormed) : db.keys.Nodup := by
  have h₁ := h.roleIds.map (f := RbacKey.role) fun _ _ h => RbacKey.role.inj h
  have h₂ := h.roleNames.map (f := RbacKey.roleName) fun _ _ h => RbacKey.roleName.inj h
  have h₃ := h.permissionIds.map (f := RbacKey.permission) fun _ _ h => RbacKey.permission.inj h
  have h₄ := h.permissionNames.map (f := RbacKey.permissionName)
    fun _ _ h => RbacKey.permissionName.inj h
  have h₅ := h.assignments.map (f := fun a => RbacKey.assignment a.1 a.2) fun a b h => by
    obtain ⟨hu, hr⟩ := RbacKey.assignment.inj h
    exact Prod.ext hu hr
  simp only [keys, List.nodup_append, h₁, h₂, h₃, h₄, h₅, true_and]
  -- values of different columns are different keys
  grind

theorem nodup_roleIds (h : db.keys.Nodup) : (db.roles.map RoleRow.id).Nodup := by
  simp only [keys, List.nodup_append] at h
  exact h.1.1.1.1.of_map

theorem nodup_roleNames (h : db.keys.Nodup) : (db.roles.map RoleRow.name).Nodup := by
  simp only [keys, List.nodup_append] at h
  exact h.1.1.1.2.1.of_map

/-- One row write adds its keys. -/
theorem perm_keys_apply (hn : db.keys.Nodup) (hw : w.Adds db) :
    (db.apply w).keys.Perm (db.keys ++ w.inserts) := by
  refine List.perm_iff_count.mpr fun k => ?_
  cases w with
  | roleUpdate row =>
      have hnone : (RowWrite.roleUpdate row).inserts = [] := rfl
      rw [apply_roleUpdate (nodup_roleIds hn) hw, hnone, List.append_nil]
  | roleDelete row => exact absurd hw id
  | userRoleDelete u r => exact absurd hw id
  | _ =>
      simp only [apply, keys, RowWrite.inserts, List.map_append, List.map_cons, List.map_nil,
        List.count_append, List.count_cons, List.count_nil]
      omega

/-- What a row write leaves of users and roles. -/
theorem apply_extends (hn : db.keys.Nodup) (hw : w.Adds db) :
    (db.apply w).users = db.users ∧ db.roles ⊆ (db.apply w).roles := by
  cases w with
  | roleInsert row => exact ⟨rfl, List.subset_append_left _ _⟩
  | roleUpdate row =>
      rw [apply_roleUpdate (nodup_roleIds hn) hw]
      exact ⟨rfl, List.Subset.refl _⟩
  | roleDelete row => exact absurd hw id
  | userRoleDelete u r => exact absurd hw id
  | _ => exact ⟨rfl, List.Subset.refl _⟩

/-- **What a transaction sees**: the keys of the tables and those it has inserted, the same users,
and the roles of the tables at least. -/
theorem view_keys (hn : (db.keys ++ ws.flatMap RowWrite.inserts).Nodup)
    (hw : ∀ w ∈ ws, w.Adds db) :
    (RowLocks.view RbacDb.apply db ws).keys.Perm (db.keys ++ ws.flatMap RowWrite.inserts) ∧
      (RowLocks.view RbacDb.apply db ws).users = db.users ∧
      db.roles ⊆ (RowLocks.view RbacDb.apply db ws).roles := by
  induction ws generalizing db with
  | nil => exact ⟨by simp, rfl, List.Subset.refl _⟩
  | cons w ws ih =>
      have hdb : db.keys.Nodup := (List.nodup_append.mp hn).1
      have hadds := hw w List.mem_cons_self
      have hperm := perm_keys_apply hdb hadds
      obtain ⟨husers, hroles⟩ := apply_extends hdb hadds
      have hsplit : db.keys ++ (w :: ws).flatMap RowWrite.inserts =
          (db.keys ++ w.inserts) ++ ws.flatMap RowWrite.inserts := by
        rw [List.flatMap_cons, List.append_assoc]
      rw [hsplit] at hn ⊢
      have hperm' := hperm.append_right (ws.flatMap RowWrite.inserts)
      obtain ⟨hkeys, husers', hroles'⟩ := ih (hperm'.nodup_iff.mpr hn) fun w' hw' =>
        (hw w' (List.mem_cons_of_mem _ hw')).mono hroles
      exact ⟨hkeys.trans hperm', husers'.trans husers, List.Subset.trans hroles hroles'⟩

/-- The links of a role are a function of its links before. -/
theorem view_links_mono {db' : RbacDb} {r : Uuid} (ws : List RowWrite)
    (h : ∀ p, (r, p) ∈ db'.rolePermissions → (r, p) ∈ db.rolePermissions) (p : Uuid)
    (hp : (r, p) ∈ (RowLocks.view RbacDb.apply db' ws).rolePermissions) :
    (r, p) ∈ (RowLocks.view RbacDb.apply db ws).rolePermissions := by
  induction ws generalizing db db' with
  | nil => exact h p hp
  | cons w ws ih =>
      refine ih (fun q hq => ?_) hp
      cases w with
      | roleDelete row =>
          obtain ⟨hq, hne⟩ := List.mem_filter.mp hq
          exact List.mem_filter.mpr ⟨h q hq, hne⟩
      | linkInsert r' p' =>
          rcases List.mem_append.mp hq with hq | hq
          · exact List.mem_append_left _ (h q hq)
          · exact List.mem_append_right _ hq
      | linkDelete r' p' =>
          obtain ⟨hq, hne⟩ := List.mem_filter.mp hq
          exact List.mem_filter.mpr ⟨h q hq, hne⟩
      | _ => exact h q hq

/-- A link that is there was there, or was inserted. -/
theorem link_of_view {r p : Uuid}
    (hp : (r, p) ∈ (RowLocks.view RbacDb.apply db ws).rolePermissions) :
    (r, p) ∈ db.rolePermissions ∨ .linkInsert r p ∈ ws := by
  induction ws generalizing db with
  | nil => exact Or.inl hp
  | cons w ws ih =>
      rcases ih hp with hp | hp
      · cases w with
        | roleDelete row => exact Or.inl (List.mem_filter.mp hp).1
        | linkDelete r' p' => exact Or.inl (List.mem_filter.mp hp).1
        | linkInsert r' p' =>
            rcases List.mem_append.mp hp with hp | hp
            · exact Or.inl hp
            · obtain ⟨rfl, rfl⟩ := Prod.mk.inj (List.mem_singleton.mp hp)
              exact Or.inr List.mem_cons_self
        | _ => exact Or.inl hp
      · exact Or.inr (List.mem_cons_of_mem _ hp)

end RbacDb

/-! ### Open transactions -/

/-- The keys of a row whose id is `x`. -/
def minted (x : Uuid) : List RbacKey := [.role x, .permission x]

/-- **The open transaction of a request that adds to the store**: what its log says of the committed
tables `db` and of the rows `ws` it has written. -/
structure Additions (db : RbacDb) (ws : List RowWrite) (t : InsertLog) : Prop where
  adds : ∀ w ∈ ws, w.Adds db
  distinct : (db.keys ++ ws.flatMap RowWrite.inserts).Nodup
  missing : ∀ k ∈ t.missing, k ∉ db.keys ++ ws.flatMap RowWrite.inserts
  drawn : ∀ x ∈ t.drawn, ∀ k ∈ minted x, k ∉ db.keys ++ ws.flatMap RowWrite.inserts
  users : ∀ u ∈ t.users, u ∈ db.users.map UserRow.id
  roles : t.roles ⊆ db.roles
  ids : ∀ x ∈ t.ids, x ∈ (RowLocks.view RbacDb.apply db ws).permissions.map PermissionRow.id
  untouched : t.touched = false → ws = []
  held : ∀ r ∈ t.held, RowLocks.Holds RowWrite.keys ws (.role r)
  links : ∀ r p, .linkInsert r p ∈ ws → RowLocks.Holds RowWrite.keys ws (.role r)
  current : ∀ r ∈ t.held, ∀ cur ∈ t.current, ∀ p,
    (r, p) ∈ (RowLocks.view RbacDb.apply db ws).rolePermissions → p ∈ cur ∨ p ∈ t.linked

namespace Additions

variable {db : RbacDb} {ws : List RowWrite} {t : InsertLog}

/-- A transaction that has done nothing. -/
theorem start (h : db.keys.Nodup) : Additions db [] {} where
  adds w hw := absurd hw List.not_mem_nil
  distinct := by simpa using h
  missing k hk := absurd hk (by simp)
  drawn x hx := absurd hx (by simp)
  users u hu := absurd hu List.not_mem_nil
  roles := List.nil_subset _
  ids x hx := absurd hx List.not_mem_nil
  untouched _ := rfl
  held r hr := absurd hr (by simp)
  links r p hw := absurd hw List.not_mem_nil
  current r hr := absurd hr (by simp)

/-- The keys the transaction sees. -/
theorem mem_keys (h : Additions db ws t) (k : RbacKey) :
    k ∈ (RowLocks.view RbacDb.apply db ws).keys ↔ k ∈ db.keys ++ ws.flatMap RowWrite.inserts :=
  (RbacDb.view_keys h.distinct h.adds).1.mem_iff

theorem nodup_keys (h : Additions db ws t) : (RowLocks.view RbacDb.apply db ws).keys.Nodup :=
  (RbacDb.view_keys h.distinct h.adds).1.nodup_iff.mpr h.distinct

/-- A role the transaction has found is one it sees. -/
theorem mem_roles (h : Additions db ws t) {row : RoleRow} (hrow : row ∈ t.roles) :
    row ∈ (RowLocks.view RbacDb.apply db ws).roles :=
  (RbacDb.view_keys h.distinct h.adds).2.2 (h.roles hrow)

/-- **What it is never refused**: the statements of such a request pass the constraints, if the
account it names is there. -/
theorem admits (h : Additions db ws t) {given : Option Uuid}
    (hgiven : ∀ b ∈ given, b ∈ db.users.map UserRow.id) {st : Statement}
    (hst : t.Executes given st) :
    (RowLocks.view RbacDb.apply db ws).admitsAll
      ((RowLocks.view RbacDb.apply db ws).rowWrites st) = true := by
  have husers := (RbacDb.view_keys h.distinct h.adds).2.1
  have habsent : ∀ k, t.missing = some k → k ∉ (RowLocks.view RbacDb.apply db ws).keys :=
    fun k hk hmem => h.missing k hk ((h.mem_keys k).mp hmem)
  have hfresh : ∀ x, t.drawn = some x → ∀ k ∈ minted x,
      k ∉ (RowLocks.view RbacDb.apply db ws).keys :=
    fun x hx k hk hmem => h.drawn x hx k hk ((h.mem_keys k).mp hmem)
  set d := RowLocks.view RbacDb.apply db ws
  cases st with
  | insertRole row =>
      obtain ⟨hname, hid⟩ := hst
      have hname := habsent _ hname
      have hid := hfresh _ hid (.role row.id) List.mem_cons_self
      rw [RbacDb.roleName_mem_keys, List.mem_map, not_exists] at hname
      rw [RbacDb.role_mem_keys, List.mem_map, not_exists] at hid
      simp only [RbacDb.rowWrites, RbacDb.admitsAll, RbacDb.admits, Bool.and_true,
        Bool.not_eq_true', List.any_eq_false, Bool.or_eq_true, decide_eq_true_eq, not_or]
      exact fun r hr => ⟨fun he => hid r ⟨hr, he⟩, fun he => hname r ⟨hr, he⟩⟩
  | insertPermission row =>
      obtain ⟨hname, hid⟩ := hst
      have hname := habsent _ hname
      have hid := hfresh _ hid (.permission row.id) (List.mem_cons_of_mem _ List.mem_cons_self)
      rw [RbacDb.permissionName_mem_keys, List.mem_map, not_exists] at hname
      rw [RbacDb.permission_mem_keys, List.mem_map, not_exists] at hid
      simp only [RbacDb.rowWrites, RbacDb.admitsAll, RbacDb.admits, Bool.and_true,
        Bool.not_eq_true', List.any_eq_false, Bool.or_eq_true, decide_eq_true_eq, not_or]
      exact fun p hp => ⟨fun he => hid p ⟨hp, he⟩, fun he => hname p ⟨hp, he⟩⟩
  | insertUserRole row =>
      obtain ⟨hkey, huser, ⟨role, hrole, hid⟩, hby⟩ := hst
      have hkey := habsent _ hkey
      rw [RbacDb.assignment_mem_keys, not_exists] at hkey
      obtain ⟨u, hu, huid⟩ := List.mem_map.mp (h.users _ huser)
      simp only [RbacDb.rowWrites, RbacDb.admitsAll, RbacDb.admits, Bool.and_true, Bool.and_eq_true,
        Bool.not_eq_true', List.any_eq_false, List.any_eq_true, decide_eq_true_eq, not_and]
      refine ⟨⟨⟨fun a ha hau har => hkey a ⟨ha, hau, har⟩, u, husers ▸ hu, huid⟩, role,
        h.mem_roles hrole, hid⟩, ?_⟩
      split
      · rfl
      · rename_i b hb
        obtain ⟨v, hv, hvb⟩ := List.mem_map.mp (hgiven b (hby ▸ hb))
        exact List.any_eq_true.mpr ⟨v, husers ▸ hv, decide_eq_true hvb⟩
  | updateRole r name description =>
      obtain ⟨hrow, -, -⟩ := hst
      have hrow := h.mem_roles hrow
      have hwrites := RbacDb.rowWrites_updateRole (RbacDb.nodup_roleIds h.nodup_keys) hrow
      have hadm := RbacDb.admits_roleUpdate (RbacDb.nodup_roleNames h.nodup_keys) hrow
      rw [hwrites, RbacDb.admitsAll, hadm]
      rfl
  | deleteRolePermissions r ids => exact RbacDb.admitsAll_linkDeletes _
  | insertRolePermission r p =>
      obtain ⟨hheld, ⟨role, hrole, hid⟩, hp, hlinked, cur, hcur, hpcur⟩ := hst
      obtain ⟨q, hq, hqid⟩ := List.mem_map.mp (h.ids p hp)
      have hnew : (r, p) ∉ d.rolePermissions := fun hmem =>
        (h.current r hheld cur hcur p hmem).elim hpcur hlinked
      simp only [RbacDb.rowWrites, RbacDb.admitsAll, RbacDb.admits, Bool.and_true, Bool.and_eq_true,
        Bool.not_eq_true', List.any_eq_true, decide_eq_true_eq]
      exact ⟨⟨by simpa using hnew, role, h.mem_roles hrole, hid⟩, q, hq, hqid⟩
  | _ => exact absurd hst id

/-- Learning something. -/
theorem learn (h : Additions db ws t) {t' : InsertLog}
    (hmissing : ∀ k ∈ t'.missing, k ∉ db.keys ++ ws.flatMap RowWrite.inserts)
    (hdrawn : ∀ x ∈ t'.drawn, ∀ k ∈ minted x, k ∉ db.keys ++ ws.flatMap RowWrite.inserts)
    (husers : ∀ u ∈ t'.users, u ∈ db.users.map UserRow.id) (hroles : t'.roles ⊆ db.roles)
    (hids : ∀ x ∈ t'.ids,
      x ∈ (RowLocks.view RbacDb.apply db ws).permissions.map PermissionRow.id)
    (htouched : t'.touched = t.touched) (hheld : t'.held = t.held)
    (hcurrent : ∀ r ∈ t'.held, ∀ cur ∈ t'.current, ∀ p,
      (r, p) ∈ (RowLocks.view RbacDb.apply db ws).rolePermissions → p ∈ cur ∨ p ∈ t'.linked) :
    Additions db ws t' :=
  { h with
    missing := hmissing
    drawn := hdrawn
    users := husers
    roles := hroles
    ids := hids
    untouched := fun ht => h.untouched (htouched ▸ ht)
    held := fun r hr => h.held r (hheld ▸ hr)
    current := hcurrent }

/-- Writing rows whose keys are new. -/
theorem write (h : Additions db ws t) {ws' : List RowWrite} {t' : InsertLog}
    (hadds : ∀ w ∈ ws', w.Adds db) (hnodup : (ws'.flatMap RowWrite.inserts).Nodup)
    (hnew : ∀ k ∈ ws'.flatMap RowWrite.inserts, k ∉ db.keys ++ ws.flatMap RowWrite.inserts)
    (hspent : t'.missing = none ∧ t'.drawn = none ∨
      ws'.flatMap RowWrite.inserts = [] ∧ t'.missing = t.missing ∧ t'.drawn = t.drawn)
    (husers : t'.users = t.users) (hroles : t'.roles = t.roles) (htouched : t'.touched = true)
    (hids : ∀ x ∈ t'.ids, x ∈ t.ids ∨ x ∈ (ws'.filterMap RowWrite.inserted).map PermissionRow.id)
    (hheld : ∀ r ∈ t'.held, r ∈ t.held ∨ RowLocks.Holds RowWrite.keys ws' (.role r))
    (hlinks : ∀ r p, .linkInsert r p ∈ ws' → r ∈ t.held)
    (hcurrent : ∀ r ∈ t'.held, ∀ cur ∈ t'.current, ∀ p,
      (r, p) ∈ (RowLocks.view RbacDb.apply db (ws ++ ws')).rolePermissions →
        p ∈ cur ∨ p ∈ t'.linked) :
    Additions db (ws ++ ws') t' := by
  have hkeys : db.keys ++ (ws ++ ws').flatMap RowWrite.inserts =
      (db.keys ++ ws.flatMap RowWrite.inserts) ++ ws'.flatMap RowWrite.inserts := by
    rw [List.flatMap_append, List.append_assoc]
  refine ⟨fun w hw => ?_, ?_, fun k hk => ?_, fun x hx k hk => ?_, ?_, ?_, fun x hx => ?_,
    fun ht => absurd (htouched.symm.trans ht) (by simp), fun r hr => ?_, fun r p hw => ?_, hcurrent⟩
  · exact (List.mem_append.mp hw).elim (h.adds w) (hadds w)
  · rw [hkeys, List.nodup_append]
    refine ⟨h.distinct, hnodup, ?_⟩
    rintro k hk _ hk' rfl
    exact hnew k hk' hk
  · rcases hspent with ⟨hnone, -⟩ | ⟨hnil, hsame, -⟩
    · rw [hnone] at hk
      exact absurd hk (by simp)
    · rw [hkeys, hnil, List.append_nil]
      exact h.missing k (hsame ▸ hk)
  · rcases hspent with ⟨-, hnone⟩ | ⟨hnil, -, hsame⟩
    · rw [hnone] at hx
      exact absurd hx (by simp)
    · rw [hkeys, hnil, List.append_nil]
      exact h.drawn x (hsame ▸ hx) k hk
  · rw [husers]
    exact h.users
  · rw [hroles]
    exact h.roles
  · rw [RowLocks.view_append, RbacDb.view_permissions, List.map_append, List.mem_append]
    exact (hids x hx).imp_left (h.ids x)
  · exact RowLocks.holds_append.mpr ((hheld r hr).imp_left (h.held r))
  · refine RowLocks.holds_append.mpr (Or.inl ?_)
    rcases List.mem_append.mp hw with hw | hw
    · exact h.links r p hw
    · exact h.held r (hlinks r p hw)

/-- Inserting a row whose keys are new. -/
theorem insertRow (h : Additions db ws t) {w : RowWrite} {ids : List Uuid} (hw : w.Adds db)
    (hnodup : w.inserts.Nodup) (hnew : ∀ k ∈ w.inserts, k ∉ db.keys ++ ws.flatMap RowWrite.inserts)
    (hids : ∀ x ∈ ids, x ∈ t.ids ∨ ∃ p ∈ w.inserted, p.id = x)
    (hlinks : ∀ d : RbacDb, (d.apply w).rolePermissions = d.rolePermissions) :
    Additions db (ws ++ [w])
      { t with missing := none, drawn := none, touched := true, ids := ids } := by
  have hone : [w].flatMap RowWrite.inserts = w.inserts := by simp
  refine h.write (fun w' hw' => ?_) (hone ▸ hnodup) (hone ▸ hnew) (Or.inl ⟨rfl, rfl⟩) rfl rfl rfl
    (fun x hx => ?_) (fun r hr => Or.inl hr) (fun r p hw' => ?_) (fun r hr cur hc p hp => ?_)
  · exact List.mem_singleton.mp hw' ▸ hw
  · refine (hids x hx).imp_right ?_
    rintro ⟨p, hp, hpx⟩
    have hfilter : [w].filterMap RowWrite.inserted = [p] := by
      rw [List.filterMap_cons, Option.mem_def.mp hp, List.filterMap_nil]
    rw [hfilter]
    exact hpx ▸ List.mem_cons_self
  · -- a link is not a row of its own
    obtain rfl := List.mem_singleton.mp hw'
    have := congrArg List.length (hlinks { })
    exact absurd this (by simp [RbacDb.apply])
  · rw [RowLocks.view_append] at hp
    exact h.current r hr cur hc p (hlinks _ ▸ hp)

/-- **A statement of such a request** leaves an open transaction one. -/
theorem executed (h : Additions db ws t) {given : Option Uuid} {st : Statement}
    (hst : t.Executes given st) :
    Additions db (ws ++ (RowLocks.view RbacDb.apply db ws).rowWrites st) (t.executed st) := by
  cases st with
  | insertRole row =>
      obtain ⟨hname, hid⟩ := hst
      refine h.insertRow (w := .roleInsert row) trivial (by simp [RowWrite.inserts])
        (fun k hk => ?_) (fun x hx => Or.inl hx) fun _ => rfl
      rcases List.mem_cons.mp hk with rfl | hk
      · exact h.drawn _ hid _ List.mem_cons_self
      · exact List.mem_singleton.mp hk ▸ h.missing _ hname
  | insertPermission row =>
      obtain ⟨hname, hid⟩ := hst
      refine h.insertRow (w := .permissionInsert row) trivial (by simp [RowWrite.inserts])
        (fun k hk => ?_) (fun x hx => ?_) fun _ => rfl
      · rcases List.mem_cons.mp hk with rfl | hk
        · exact h.drawn _ hid _ (List.mem_cons_of_mem _ List.mem_cons_self)
        · exact List.mem_singleton.mp hk ▸ h.missing _ hname
      · rcases List.mem_cons.mp hx with rfl | hx
        · exact Or.inr ⟨row, rfl, rfl⟩
        · exact Or.inl hx
  | insertUserRole row =>
      obtain ⟨hkey, -⟩ := hst
      refine h.insertRow (w := .userRoleInsert row) trivial (List.nodup_singleton _)
        (fun k hk => ?_) (fun x hx => Or.inl hx) fun _ => rfl
      exact List.mem_singleton.mp hk ▸ h.missing _ hkey
  | updateRole r name description =>
      obtain ⟨hrow, -, hcur⟩ := hst
      have hwrites := RbacDb.rowWrites_updateRole (RbacDb.nodup_roleIds h.nodup_keys)
        (h.mem_roles hrow)
      rw [hwrites]
      refine h.write (fun w hw => ?_) List.nodup_nil (fun k hk => absurd hk List.not_mem_nil)
        (Or.inr ⟨rfl, rfl, rfl⟩) rfl rfl rfl (fun x hx => Or.inl hx) (fun r' hr => Or.inr ?_)
        (fun r' p hw => absurd (List.mem_singleton.mp hw) (by simp)) (fun r' _ cur hc => ?_)
      · exact List.mem_singleton.mp hw ▸ h.roles hrow
      · obtain rfl := Option.some.inj hr
        exact ⟨_, List.mem_cons_self, List.mem_cons_self⟩
      · exact absurd (hcur.symm.trans hc) (by simp)
  | deleteRolePermissions r ids =>
      have hview := (RowLocks.view_append RbacDb.apply db ws _).trans
        (RbacDb.view_deleteRolePermissions r ids)
      have hwrites : ∀ w ∈ (RowLocks.view RbacDb.apply db ws).rowWrites
          (.deleteRolePermissions r ids), ∃ r' p, w = .linkDelete r' p := by
        intro w hw
        obtain ⟨l, -, rfl⟩ := List.mem_map.mp hw
        exact ⟨l.1, l.2, rfl⟩
      have hnone : ((RowLocks.view RbacDb.apply db ws).rowWrites
          (.deleteRolePermissions r ids)).flatMap RowWrite.inserts = [] := by
        rw [List.flatMap_eq_nil_iff]
        intro w hw
        obtain ⟨r', p, rfl⟩ := hwrites w hw
        rfl
      refine h.write (fun w hw => ?_) (hnone ▸ List.nodup_nil) (hnone ▸ fun k hk => absurd hk
        List.not_mem_nil) (Or.inr ⟨hnone, rfl, rfl⟩) rfl rfl rfl (fun x hx => Or.inl hx)
        (fun r' hr => Or.inl hr) (fun r' p hw => ?_) (fun r' hr cur hc p hp => ?_)
      · obtain ⟨r', p, rfl⟩ := hwrites w hw
        trivial
      · obtain ⟨r', p, hne⟩ := hwrites _ hw
        exact absurd hne (by simp)
      · rw [hview] at hp
        exact h.current r' hr cur hc p (List.mem_filter.mp hp).1
  | insertRolePermission r p =>
      obtain ⟨hheld, -⟩ := hst
      refine h.write (fun w hw => ?_) List.nodup_nil (fun k hk => absurd hk List.not_mem_nil)
        (Or.inr ⟨rfl, rfl, rfl⟩) rfl rfl rfl (fun x hx => Or.inl hx) (fun r' hr => Or.inl hr)
        (fun r' p' hw => ?_) (fun r' hr cur hc p' hp => ?_)
      · obtain rfl := List.mem_singleton.mp hw
        trivial
      · obtain ⟨rfl, rfl⟩ := RowWrite.linkInsert.inj (List.mem_singleton.mp hw)
        exact hheld
      · rw [RowLocks.view_append] at hp
        rcases List.mem_append.mp hp with hp | hp
        · exact (h.current r' hr cur hc p' hp).imp_right (List.mem_cons_of_mem _)
        · obtain ⟨-, rfl⟩ := Prod.mk.inj (List.mem_singleton.mp hp)
          exact Or.inr List.mem_cons_self
  | _ => exact absurd hst id

/-- **The commit of another request** leaves an open transaction what it was, unless it takes a key
that was found missing. -/
theorem other (h : Additions db ws t) {ws' : List RowWrite} {t' : InsertLog}
    (h' : Additions db ws' t')
    (hdisj : ∀ k, RowLocks.Holds RowWrite.keys ws k → ¬ RowLocks.Holds RowWrite.keys ws' k)
    (hmissing : ∀ k ∈ t.missing, ¬ RowLocks.Holds RowWrite.keys ws' k)
    (hdrawn : ∀ x ∈ t.drawn, ∀ k ∈ minted x, k ∉ ws'.flatMap RowWrite.inserts)
    (events : List DomainEvent) :
    Additions { RowLocks.view RbacDb.apply db ws' with events := events } ws t := by
  obtain ⟨-, husers, hroles⟩ := RbacDb.view_keys h'.distinct h'.adds
  set db' : RbacDb := { RowLocks.view RbacDb.apply db ws' with events := events }
  have hkeys : ∀ k, k ∈ db'.keys → k ∈ db.keys ∨ k ∈ ws'.flatMap RowWrite.inserts :=
    fun k hk => List.mem_append.mp ((h'.mem_keys k).mp hk)
  -- a key that neither transaction has put there is still absent
  have habsent : ∀ k, k ∉ db.keys ++ ws.flatMap RowWrite.inserts →
      k ∉ ws'.flatMap RowWrite.inserts → k ∉ db'.keys ++ ws.flatMap RowWrite.inserts := by
    intro k hk hk' hmem
    rcases List.mem_append.mp hmem with hmem | hmem
    · rcases hkeys k hmem with hmem | hmem
      · exact hk (List.mem_append_left _ hmem)
      · exact hk' hmem
    · exact hk (List.mem_append_right _ hmem)
  obtain ⟨-, hown, happart⟩ := List.nodup_append.mp h.distinct
  refine ⟨fun w hw => (h.adds w hw).mono hroles, ?_, fun k hk => ?_, fun x hx k hk => ?_,
    fun u hu => ?_, List.Subset.trans h.roles hroles, fun x hx => ?_, h.untouched, h.held, h.links,
    fun r hr cur hc p hp => ?_⟩
  · refine List.nodup_append.mpr ⟨h'.nodup_keys, hown, ?_⟩
    rintro k hk _ hk' rfl
    rcases hkeys k hk with hk | hk
    · exact happart k hk k hk' rfl
    · exact hdisj k (holds_of_inserts hk') (holds_of_inserts hk)
  · exact habsent k (h.missing k hk) fun hk' => hmissing k hk (holds_of_inserts hk')
  · exact habsent k (h.drawn x hx k hk) (hdrawn x hx k hk)
  · change u ∈ (RowLocks.view RbacDb.apply db ws').users.map UserRow.id
    rw [husers]
    exact h.users u hu
  · have hx := h.ids x hx
    rw [RbacDb.view_permissions, List.map_append, List.mem_append] at hx ⊢
    refine hx.imp_left fun hx => ?_
    change x ∈ (RowLocks.view RbacDb.apply db ws').permissions.map PermissionRow.id
    rw [RbacDb.view_permissions, List.map_append]
    exact List.mem_append_left _ hx
  · refine h.current r hr cur hc p (RbacDb.view_links_mono ws (fun q hq => ?_) p hp)
    rcases RbacDb.link_of_view hq with hq | hq
    · exact hq
    · exact absurd (h'.links r q hq) (hdisj _ (h.held r hr))

end Additions

end BackendTemplate
