import BackendTemplate.RoleReads
import BackendTemplate.SetMap

/-!
# The Role Store Is a Map From Roles to Permission Names

What `create_role`, `delete_role`, `add_permission_to_role` and `remove_permission_from_role` are
for: a finite set of permission names under each role there is. Permissions are shared rows,
linked to roles through a join table that `update` synchronises; none of this shows. A sequence of
requests, executed one at a time, leaves tables that store the map its successful operations
make of the empty one.

## Main results

* `useCase_accepted` — no request stores a name its value object refuses.
* `stores_step` — one request on the tables is one operation on the map.
* `role_store_refines_map` — what `acquire_by_id` returns after any sequence of requests, and how
  many updates of each role were announced.
-/

namespace BackendTemplate

open Atomic Atomic.Prog

/-! ### Only accepted names are stored -/

/-- The statement writes names their value objects accept. -/
def Statement.Accepted : Statement → Prop
  | .insertRole row => RoleName.validate row.name = .ok ()
  | .updateRole _ name _ => RoleName.validate name = .ok ()
  | .insertPermission row => Permission.validate row.name = .ok ()
  | _ => True

/-- The call writes names their value objects accept. -/
def RbacOp.Accepted : RbacOp → Prop
  | .execute st => st.Accepted
  | _ => True

/-- The row write leaves a name its value object accepts. -/
def RowWrite.Accepted : RowWrite → Prop
  | .roleInsert row | .roleUpdate row => RoleName.validate row.name = .ok ()
  | .permissionInsert row => Permission.validate row.name = .ok ()
  | _ => True

section Calls

variable {α : Type}

theorem accepted_ask (o : RbacOp) (h : o.Accepted) : (rbacAsk o).Calls RbacOp.Accepted :=
  ⟨h, fun _ => trivial⟩

theorem accepted_statement (st : Statement) (h : st.Accepted) :
    (runStatement st).Calls RbacOp.Accepted :=
  ⟨h, fun x => calls_ofExcept x⟩

theorem accepted_load (row : Option RoleRow) : (RoleRepo.load row).Calls RbacOp.Accepted := by
  cases row with
  | none => trivial
  | some row =>
      exact Calls.bind (p := RoleRepo.getRolePermissions row.id)
        ⟨trivial, fun _ => calls_ofExcept _⟩ fun _ => (calls_ofExcept _).bind fun _ => trivial

theorem accepted_acquireRole (r : RoleID) :
    (RBACService.acquireRole r).Calls RbacOp.Accepted := by
  refine Calls.bind (p := RoleRepo.acquireById r) ⟨trivial, fun row => accepted_load row⟩ fun role => ?_
  cases role <;> trivial

theorem accepted_acquireUser (u : UserID) :
    (RBACService.acquireUser u).Calls RbacOp.Accepted := by
  refine ⟨trivial, fun x => (calls_ofExcept x).bind fun user => ?_⟩
  cases user <;> trivial

/-- `RoleRepo.update` writes the name of the entity and those of its permissions. -/
theorem accepted_update (role : Role) : (RoleRepo.update role).Calls RbacOp.Accepted := by
  have hresolve : ∀ p : Permission, (RoleRepo.resolve p).Calls RbacOp.Accepted := by
    refine fun p => Calls.bind (accepted_ask _ trivial) fun row => ?_
    cases row with
    | some row => trivial
    | none =>
        exact Calls.bind (accepted_ask _ trivial) fun _ =>
          Calls.bind (accepted_statement _ p.valid) fun _ => trivial
  have hall : ∀ ps ids, (RoleRepo.resolveAll ps ids).Calls RbacOp.Accepted := by
    intro ps
    induction ps with
    | nil => exact fun _ => trivial
    | cons p ps ih => exact fun ids => (hresolve p).bind fun id => ih _
  have hlink : ∀ r ids, (RoleRepo.linkAll r ids).Calls RbacOp.Accepted := by
    intro r ids
    induction ids with
    | nil => trivial
    | cons p ids ih => exact Calls.bind (accepted_statement _ trivial) fun _ => ih
  refine Calls.bind (accepted_statement _ role.name.valid) fun _ => ⟨trivial, fun cur => ?_⟩
  refine (hall _ _).bind fun ids => Calls.bind ?_ fun _ => hlink _ _
  rw [RoleRepo.unlinkAll]
  split
  · trivial
  · exact accepted_statement _ trivial

theorem accepted_store (role : Role) : (RBACService.store role).Calls RbacOp.Accepted :=
  (accepted_update role).bind fun _ => ⟨trivial, fun _ => trivial⟩

theorem accepted_acquirePermission (n : String) :
    (RBACService.acquirePermission n).Calls RbacOp.Accepted := by
  refine Calls.bind ⟨trivial, fun row => ?_⟩ fun p => ?_
  · cases row with
    | none => trivial
    | some row => exact (calls_ofExcept _).bind fun _ => trivial
  · cases p with
    | some p => trivial
    | none =>
        refine (calls_ofExcept _).bind fun p => Calls.bind ?_ fun _ => trivial
        exact ⟨trivial, fun _ => accepted_statement _ p.valid⟩

theorem accepted_createRole (name : RoleName) (description : Option String) :
    (RBACService.createRole name description).Calls RbacOp.Accepted := by
  refine Calls.bind (p := RoleRepo.acquireByName name) ⟨trivial, fun row => accepted_load row⟩
    fun existing => ?_
  cases existing with
  | some role => trivial
  | none =>
      refine ⟨trivial, fun id => (calls_ofExcept _).bind fun roleId => ?_⟩
      refine Calls.bind ?_ fun _ => ⟨trivial, fun _ => trivial⟩
      exact Calls.bind (accepted_statement _ name.valid) fun _ => trivial

theorem accepted_commit (a : α) : (rbacCommit >>= fun _ => pure a).Calls RbacOp.Accepted :=
  Calls.bind ⟨trivial, fun x => calls_ofExcept x⟩ fun _ => trivial

/-- **No request stores a name its value object refuses.** -/
theorem useCase_accepted (req : RbacRequest) : req.useCase.Calls RbacOp.Accepted := by
  cases req with
  | createRole name description =>
      exact (calls_ofExcept _).bind fun n =>
        (accepted_createRole n description).bind fun _ => accepted_commit _
  | deleteRole roleId =>
      refine (calls_ofExcept _).bind fun r => Calls.bind ?_ fun _ => accepted_commit _
      refine (accepted_acquireRole r).bind fun role => (calls_raiseIf _ _).bind fun _ => ?_
      refine Calls.bind ?_ fun _ => ⟨trivial, fun _ => trivial⟩
      exact Calls.bind (accepted_statement _ trivial) fun _ =>
        Calls.bind (accepted_statement _ trivial) fun _ => accepted_statement _ trivial
  | assignRole userId roleId assignedBy =>
      refine (calls_ofExcept _).bind fun u => (calls_ofExcept _).bind fun r =>
        (calls_ofExcept _).bind fun b => Calls.bind ?_ fun _ => accepted_commit _
      refine (accepted_acquireUser u).bind fun user => (accepted_acquireRole r).bind fun _ => ?_
      refine Calls.bind (accepted_ask _ trivial) fun existing => ?_
      cases existing with
      | some row => trivial
      | none =>
          exact Calls.bind (accepted_ask _ trivial) fun now =>
            Calls.bind (accepted_statement _ trivial) fun _ => ⟨trivial, fun _ => trivial⟩
  | revokeRole userId roleId =>
      refine (calls_ofExcept _).bind fun u => (calls_ofExcept _).bind fun r =>
        Calls.bind ?_ fun _ => accepted_commit _
      refine (accepted_acquireUser u).bind fun user => (accepted_acquireRole r).bind fun role => ?_
      exact (calls_raiseIf _ _).bind fun _ =>
        Calls.bind (accepted_statement _ trivial) fun _ => ⟨trivial, fun _ => trivial⟩
  | addPermissionToRole roleId n =>
      refine (calls_ofExcept _).bind fun r => Calls.bind ?_ fun _ => accepted_commit _
      exact (accepted_acquireRole r).bind fun role =>
        (accepted_acquirePermission n).bind fun p => accepted_store _
  | removePermissionFromRole roleId n =>
      refine (calls_ofExcept _).bind fun r => Calls.bind ?_ fun _ => accepted_commit _
      exact (accepted_acquireRole r).bind fun role => accepted_store _

end Calls

namespace RbacDb

variable {db : RbacDb}

theorem rowWrites_accepted {st : Statement} (h : st.Accepted) :
    ∀ w ∈ db.rowWrites st, w.Accepted := by
  intro w hw
  cases st with
  | insertRole row | insertPermission row =>
      obtain rfl := List.mem_singleton.mp hw
      exact h
  | insertRolePermission r p | insertUserRole row =>
      obtain rfl := List.mem_singleton.mp hw
      trivial
  | updateRole r name description =>
      obtain ⟨row, -, rfl⟩ := List.mem_map.mp hw
      exact h
  | _ =>
      obtain ⟨row, -, rfl⟩ := List.mem_map.mp hw
      trivial

theorem NamesAccepted.apply (h : db.NamesAccepted) {w : RowWrite} (hw : w.Accepted) :
    (db.apply w).NamesAccepted := by
  cases w with
  | roleInsert row =>
      refine { h with roles := fun row' hrow => ?_ }
      rcases List.mem_append.mp hrow with hrow | hrow
      · exact h.roles row' hrow
      · exact List.mem_singleton.mp hrow ▸ hw
  | roleUpdate row =>
      refine { h with roles := fun row' hrow => ?_ }
      obtain ⟨r, hr, rfl⟩ := List.mem_map.mp hrow
      split
      · exact hw
      · exact h.roles r hr
  | roleDelete row =>
      exact { h with roles := fun row' hrow => h.roles row' (List.mem_filter.mp hrow).1 }
  | permissionInsert row =>
      refine { h with permissions := fun row' hrow => ?_ }
      rcases List.mem_append.mp hrow with hrow | hrow
      · exact h.permissions row' hrow
      · exact List.mem_singleton.mp hrow ▸ hw
  | _ => exact { h with }

theorem NamesAccepted.view (h : db.NamesAccepted) {ws : List RowWrite}
    (hws : ∀ w ∈ ws, w.Accepted) : (RowLocks.view RbacDb.apply db ws).NamesAccepted := by
  induction ws generalizing db with
  | nil => exact h
  | cons w ws ih =>
      exact ih (h.apply (hws w List.mem_cons_self)) fun w' hw' => hws w' (List.mem_cons_of_mem _ hw')

end RbacDb

/-- A request keeps the names in the tables accepted. -/
theorem handle_namesAccepted (env : Env) (commitFails : Bool) {st : RoleStore}
    (h : st.db.NamesAccepted) (req : RbacRequest) :
    (st.handle env commitFails req).2.db.NamesAccepted := by
  have hJ : ∀ o (s : RbacSolo), o.Accepted →
      s.committed.NamesAccepted ∧ s.current.NamesAccepted →
      (soloAnswer env commitFails o s).2.committed.NamesAccepted ∧
        (soloAnswer env commitFails o s).2.current.NamesAccepted := by
    intro o s ho hs
    cases o with
    | execute st =>
        rw [soloAnswer]
        split
        · exact ⟨hs.1, hs.2.view (RbacDb.rowWrites_accepted ho)⟩
        · exact hs
    | commit =>
        rw [soloAnswer]
        split
        · exact ⟨hs.1, hs.1⟩
        · exact ⟨{ hs.2 with }, { hs.2 with }⟩
    | _ => exact hs
  have hstart : st.begin.committed.NamesAccepted ∧ st.begin.current.NamesAccepted := ⟨h, h⟩
  exact ((useCase_accepted req).run_invariant
    (J := fun s : RbacSolo => s.committed.NamesAccepted ∧ s.current.NamesAccepted) hJ hstart).1

/-! ### The map the tables store -/

/-- **The tables store the map**: its keys are the roles, its sets the names they carry. -/
structure RbacDb.Stores (db : RbacDb) (m : SetMap.Map Uuid String) : Prop where
  keys : ∀ r, (m r).isSome = true ↔ ∃ row ∈ db.roles, row.id = r
  names : ∀ r s, m r = some s → ∀ n, n ∈ s ↔ db.Carries r n

/-- The event announces an update of role `r`. -/
def DomainEvent.updatesRole (r : Uuid) : DomainEvent → Bool
  | .roleUpdated r' _ => r' = r
  | _ => false

/-- How many updates of role `r` were committed. -/
def RbacDb.roleUpdates (db : RbacDb) (r : Uuid) : ℕ :=
  db.events.countP (DomainEvent.updatesRole r)

/-- The request is about roles and their permissions, and not about who has them. -/
def RbacRequest.OnRoles : RbacRequest → Prop
  | .assignRole _ _ _ | .revokeRole _ _ => False
  | _ => True

instance : DecidablePred RbacRequest.OnRoles := fun req => by
  cases req <;> unfold RbacRequest.OnRoles <;> infer_instance

/-- The operation a request has performed, by what it returned. -/
def RbacRequest.op :
    RbacRequest → Except RbacError (Option RoleOutput) → Option (SetMap.Op Uuid String)
  | .createRole _ _, .ok (some out) => some (.create out.roleId)
  | .deleteRole r, .ok _ => some (.drop r)
  | .addPermissionToRole r n, .ok _ => some (.insert r n)
  | .removePermissionFromRole r n, .ok _ => some (.erase r n)
  | _, _ => none

/-- One step of the store is what the operation says: on the map, and in the updates announced. -/
structure RbacDb.StepsTo (db db' : RbacDb) (m : SetMap.Map Uuid String)
    (op : SetMap.Op Uuid String) : Prop where
  stores : db'.Stores (SetMap.apply m op)
  updates : ∀ r, db'.roleUpdates r =
    db.roleUpdates r + if SetMap.Changed (m r) (SetMap.apply m op r) then 1 else 0

namespace RbacDb

variable {db db' : RbacDb} {m : SetMap.Map Uuid String}

/-- An operation whose event announces no update and that changes no set. -/
theorem StepsTo.silent {op : SetMap.Op Uuid String} {e : DomainEvent}
    (hs : db'.Stores (SetMap.apply m op)) (hevents : db'.events = db.events ++ [e])
    (he : ∀ r, e.updatesRole r = false)
    (hchange : ¬ SetMap.Changed (m op.key) (op.change (m op.key))) : db.StepsTo db' m op := by
  refine ⟨hs, fun r => ?_⟩
  have hcount : db'.roleUpdates r = db.roleUpdates r := by
    rw [roleUpdates, hevents, List.countP_append, List.countP_cons, he r]
    rfl
  have hsame : ¬ SetMap.Changed (m r) (SetMap.apply m op r) := by
    by_cases hr : r = op.key
    · rw [hr, SetMap.apply_key m rfl]
      exact hchange
    · rw [SetMap.apply_ne m hr]
      exact SetMap.not_changed_self _
  rw [hcount, if_neg hsame]
  rfl

/-- Creating a role adds its key, with no names. -/
theorem Stores.createRole (hw : db.WellFormed) (h : db.Stores m) {r : Uuid} {name : String}
    {description : Option String} (hnew : ∀ row ∈ db.roles, row.id ≠ r ∧ row.name ≠ name)
    (hdb : db' = { db with
      roles := db.roles ++ [⟨r, name, description⟩]
      events := db.events ++ [.roleCreated r name] }) : db.StepsTo db' m (.create r) := by
  subst hdb
  have hnone : m r = none := by
    rw [← Option.not_isSome_iff_eq_none, h.keys r]
    rintro ⟨row, hrow, hid⟩
    exact (hnew row hrow).1 hid
  have hself : SetMap.apply m (.create r) r = some ∅ := SetMap.apply_key m rfl
  have hother : ∀ r', r' ≠ r → SetMap.apply m (.create r) r' = m r' :=
    fun _ hr => SetMap.apply_ne m hr
  refine StepsTo.silent ⟨fun r' => ?_, fun r' s hs n => ?_⟩ rfl (fun _ => rfl) ?_
  · by_cases hr : r' = r
    · subst hr
      rw [hself]
      simp
    · rw [hother r' hr, h.keys r']
      simp [or_and_right, exists_or, Ne.symm hr]
  · by_cases hr : r' = r
    · subst hr
      rw [hself] at hs
      obtain rfl := Option.some.inj hs
      simp only [Finset.notMem_empty, false_iff]
      -- the id was free, so no link is left under it
      rintro ⟨p, -, hl, -⟩
      obtain ⟨row, hrow, hid⟩ := List.mem_map.mp (hw.linkRole _ hl)
      exact (hnew row hrow).1 hid
    · rw [hother r' hr] at hs
      exact h.names r' s hs n
  · change ¬ SetMap.Changed (m r) _
    rw [hnone]
    exact id

/-- Deleting a role drops its key. -/
theorem Stores.deleteRole (h : db.Stores m) {r : Uuid}
    (hdb : db' = { db.withoutRole r with events := db.events ++ [.roleDeleted r] }) :
    db.StepsTo db' m (.drop r) := by
  subst hdb
  have hself : SetMap.apply m (.drop r) r = none := SetMap.apply_key m rfl
  have hother : ∀ r', r' ≠ r → SetMap.apply m (.drop r) r' = m r' :=
    fun _ hr => SetMap.apply_ne m hr
  refine StepsTo.silent ⟨fun r' => ?_, fun r' s hs n => ?_⟩ rfl (fun _ => rfl) ?_
  · by_cases hr : r' = r
    · subst hr
      rw [hself]
      simp [withoutRole]
    · rw [hother r' hr, h.keys r']
      simp only [withoutRole, List.mem_filter, decide_eq_true_eq]
      constructor
      · rintro ⟨row, hrow, rfl⟩
        exact ⟨row, ⟨hrow, hr⟩, rfl⟩
      · rintro ⟨row, ⟨hrow, -⟩, rfl⟩
        exact ⟨row, hrow, rfl⟩
  · by_cases hr : r' = r
    · subst hr
      rw [hself] at hs
      cases hs
    · rw [hother r' hr] at hs
      rw [h.names r' s hs n]
      constructor
      · rintro ⟨p, hp, hl, hn⟩
        exact ⟨p, hp, List.mem_filter.mpr ⟨hl, decide_eq_true hr⟩, hn⟩
      · rintro ⟨p, hp, hl, hn⟩
        exact ⟨p, hp, (List.mem_filter.mp hl).1, hn⟩
  · change ¬ SetMap.Changed (m r) none
    cases m r <;> exact id

/-- The operation that puts a name under a role, or takes it out. -/
def editOp (r : Uuid) (n : String) (present : Bool) : SetMap.Op Uuid String :=
  if present then .insert r n else .erase r n

/-- Editing the permissions of a role edits the set under its key. -/
theorem Stores.edit (hw : db.WellFormed) (h : db.Stores m) {r : Uuid} {n : String} {present : Bool}
    (hedit : db.EditedTo db' r n present)
    (hthere : present = true → ∃ row ∈ db.roles, row.id = r) :
    db.StepsTo db' m (editOp r n present) := by
  obtain ⟨edited, events, hed, ⟨hsilent, hevent⟩, rfl⟩ := hedit
  have hkey : (editOp r n present).key = r := by cases present <;> rfl
  have hchange : ∀ s, m r = some s → ∃ t, (editOp r n present).change (m r) = some t ∧
      (∀ n', n' ∈ t ↔ withName present n (· ∈ s) n') := by
    intro s hs
    cases present with
    | true =>
        refine ⟨insert n s, by rw [hs]; rfl, fun n' => ?_⟩
        by_cases hn : n' = n <;> simp [withName, hn]
    | false =>
        refine ⟨s.erase n, by rw [hs]; rfl, fun n' => ?_⟩
        by_cases hn : n' = n <;> simp [withName, hn]
  have hnone : m r = none → (editOp r n present).change (m r) = none := by
    intro hm
    rw [hm]
    cases present <;> rfl
  have happly := SetMap.apply_key m hkey
  have hother : ∀ r', r' ≠ r → SetMap.apply m (editOp r n present) r' = m r' :=
    fun r' hr => SetMap.apply_ne m (hkey.symm ▸ hr)
  refine ⟨⟨fun r' => ?_, fun r' s hs n' => ?_⟩, fun r' => ?_⟩
  · change _ ↔ ∃ row ∈ edited.roles, row.id = r'
    rw [hed.roles, ← h.keys r']
    by_cases hr : r' = r
    · subst hr
      rw [happly]
      cases hm : m r' with
      | none => rw [← hm, hnone hm, hm]
      | some s =>
          obtain ⟨t, ht, -⟩ := hchange s hm
          rw [← hm, ht, hm]
          simp
    · rw [hother r' hr]
  · change _ ↔ edited.Carries r' n'
    by_cases hr : r' = r
    · subst hr
      rw [happly] at hs
      cases hm : m r' with
      | none => rw [hnone hm] at hs; cases hs
      | some s₀ =>
          obtain ⟨t, ht, hmem⟩ := hchange s₀ hm
          obtain rfl := Option.some.inj (ht.symm.trans hs)
          rw [hmem n', hed.carries n', withName, withName, h.names r' s₀ hm n']
    · rw [hother r' hr] at hs
      rw [hed.others r' hr n']
      exact h.names r' s hs n'
  · have hcount : ({ edited with events := db.events ++ events } : RbacDb).roleUpdates r' =
        db.roleUpdates r' + events.countP (DomainEvent.updatesRole r') := List.countP_append ..
    rw [hcount]
    congr 1
    by_cases hr : r' = r
    · subst hr
      rw [happly]
      cases hm : m r' with
      | none =>
          -- no such role: nothing is taken out of it
          have hno : ¬ ∃ row ∈ db.roles, row.id = r' := by
            rw [← h.keys r', hm]
            exact Bool.false_ne_true
          have hlost : ¬ db.Carries r' n := by
            rintro ⟨p, -, hl, -⟩
            exact hno (List.mem_map.mp (hw.linkRole _ hl))
          rw [hsilent ⟨fun hc => absurd hc hlost, fun hp => absurd (hthere hp) hno⟩]
          exact (if_neg id).symm
      | some s =>
          obtain ⟨t, ht, hmem⟩ := hchange s hm
          rw [← hm, ht, hm]
          have hsame : s = t ↔ (db.Carries r' n ↔ present = true) := by
            rw [← h.names r' s hm n]
            constructor
            · rintro rfl
              have := hmem n
              rwa [withName, if_pos rfl] at this
            · intro hiff
              refine Finset.ext fun n' => ?_
              rw [hmem n', withName]
              split
              · rename_i hn
                rw [hn, hiff]
              · rfl
          by_cases hst : s = t
          · rw [if_neg (show ¬ SetMap.Changed (some s) (some t) from fun hne => hne hst), hsilent (hsame.mp hst)]
            rfl
          · rw [if_pos (show SetMap.Changed (some s) (some t) from hst), hevent fun hiff => hst (hsame.mpr hiff)]
            simp [DomainEvent.updatesRole]
    · rw [hother r' hr, if_neg (SetMap.not_changed_self _)]
      refine List.countP_eq_zero.mpr fun e he => ?_
      by_cases hiff : db.Carries r n ↔ present = true
      · rw [hsilent hiff] at he
        exact absurd he List.not_mem_nil
      · rw [hevent hiff] at he
        obtain rfl := List.mem_singleton.mp he
        simp [DomainEvent.updatesRole, Ne.symm hr]

end RbacDb

/-! ### Sequences of requests -/

/-- **One request on the tables is one operation on the map**, or none if it fails. -/
theorem stores_step (env : Env) (commitFails : Bool) {st : RoleStore} {m : SetMap.Map Uuid String}
    (hw : st.db.WellFormed) (hm : st.db.Stores m) {req : RbacRequest} (hreq : req.OnRoles) :
    let out := st.handle env commitFails req
    match req.op out.1 with
    | none => out.2.db = st.db
    | some op => st.db.StepsTo out.2.db m op := by
  intro out
  rcases handle_cases env commitFails hw req with ⟨e, he, hdb⟩ | ⟨x, hx, heffect⟩
  · have hop : req.op out.1 = none := by
      rw [show out.1 = .error e from he]
      cases req <;> rfl
    rw [hop]
    exact hdb
  · rw [show out.1 = .ok x from hx]
    cases req with
    | createRole name description =>
        obtain ⟨r, rfl, hnew, hdb⟩ := (@ensures_createRole_useCase env commitFails
          st name description).of_ok (a := x) (Prod.ext hx rfl)
        exact hm.createRole hw hnew hdb
    | deleteRole r => exact hm.deleteRole heffect.2
    | assignRole u r b => exact hreq.elim
    | revokeRole u r => exact hreq.elim
    | addPermissionToRole r n =>
        refine @RbacDb.Stores.edit _ _ _ hw hm _ _ true heffect fun _ => ?_
        -- a role that carries a name is there
        obtain ⟨edited, events, hed, -, hdb⟩ := id heffect
        have hcarries : edited.Carries r n := (hed.carries n).mpr (by simp [withName])
        obtain ⟨p, -, hl, -⟩ := hcarries
        have hw' := handle_wellFormed env commitFails hw (.addPermissionToRole r n)
        have hmem := hw'.linkRole (r, p.id) (hdb ▸ hl)
        rw [hdb] at hmem
        exact List.mem_map.mp (hed.roles ▸ hmem)
    | removePermissionFromRole r n =>
        exact @RbacDb.Stores.edit _ _ _ hw hm _ _ false heffect fun h => absurd h Bool.false_ne_true

namespace RoleStore

/-- The store after a sequence of requests, each with whether its commit fails. -/
def after (env : Env) (st : RoleStore) (ls : List (Bool × RbacRequest)) : RoleStore :=
  ls.foldl (fun st l => (st.handle env l.1 l.2).2) st

/-- The operations the requests of a sequence have performed. -/
def ops (env : Env) : RoleStore → List (Bool × RbacRequest) → List (SetMap.Op Uuid String)
  | _, [] => []
  | st, l :: ls =>
      let out := st.handle env l.1 l.2
      (l.2.op out.1).toList ++ ops env out.2 ls

/-- `acquire_by_id` on the store. -/
def acquireById (env : Env) (st : RoleStore) (r : RoleID) : Except RbacError (Option Role) :=
  ((RoleRepo.acquireById r).run (soloAnswer env false) st.begin).1

end RoleStore

/-- **A sequence of requests is a sequence of operations.** -/
theorem stores_after (env : Env) (ls : List (Bool × RbacRequest)) (hls : ∀ l ∈ ls, l.2.OnRoles)
    {st : RoleStore} {m : SetMap.Map Uuid String} (hw : st.db.WellFormed)
    (hn : st.db.NamesAccepted) (hm : st.db.Stores m) :
    (st.after env ls).db.WellFormed ∧ (st.after env ls).db.NamesAccepted ∧
      (st.after env ls).db.Stores (SetMap.run m (st.ops env ls)) ∧
      ∀ r, (st.after env ls).db.roleUpdates r =
        st.db.roleUpdates r + SetMap.updates r m (st.ops env ls) := by
  induction ls generalizing st m with
  | nil => exact ⟨hw, hn, hm, fun _ => rfl⟩
  | cons l ls ih =>
      have hstep := stores_step env l.1 hw hm (hls l List.mem_cons_self)
      have hw' := handle_wellFormed env l.1 hw l.2
      have hn' := handle_namesAccepted env l.1 hn l.2
      have hls' : ∀ l' ∈ ls, l'.2.OnRoles := fun l' h => hls l' (List.mem_cons_of_mem _ h)
      have hafter : st.after env (l :: ls) = (st.handle env l.1 l.2).2.after env ls := rfl
      rw [hafter, RoleStore.ops]
      cases hop : l.2.op (st.handle env l.1 l.2).1 with
      | none =>
          simp only [hop] at hstep
          obtain ⟨h₁, h₂, h₃, h₄⟩ := ih hls' hw' hn' (hstep ▸ hm)
          refine ⟨h₁, h₂, h₃, fun r => (h₄ r).trans ?_⟩
          rw [hstep]
          rfl
      | some op =>
          simp only [hop] at hstep
          obtain ⟨h₁, h₂, h₃, h₄⟩ := ih hls' hw' hn' hstep.stores
          refine ⟨h₁, h₂, h₃, fun r => (h₄ r).trans ?_⟩
          rw [hstep.updates r, Nat.add_assoc]
          rfl

/-- What `acquire_by_id` returns on tables that store a map. -/
theorem RbacDb.Stores.acquireById {db : RbacDb} {m : SetMap.Map Uuid String} (h : db.Stores m)
    (hw : db.WellFormed) (hn : db.NamesAccepted) (r : RoleID) :
    ∃ found, db.acquireById r = .ok found ∧
      (found.map fun role => role.permissionNames.toFinset) = m r.value ∧
      ∀ role ∈ found, role.permissionNames.Nodup := by
  rcases db.acquireById_total hw hn r with ⟨hnone, hno⟩ | ⟨role, hrole, hload, hnodup⟩
  · refine ⟨none, hnone, ?_, fun _ h => absurd h (by simp)⟩
    have hkey : ¬ (m r.value).isSome = true := by
      rw [h.keys r.value]
      rintro ⟨row, hrow, hid⟩
      exact hno row hrow hid
    exact (Option.not_isSome_iff_eq_none.mp hkey).symm
  · refine ⟨some role, hrole, ?_, fun role' h => Option.some.inj h ▸ hnodup⟩
    have hkey : (m r.value).isSome = true := (h.keys r.value).mpr ⟨_, hload.row, rfl⟩
    obtain ⟨s, hs⟩ := Option.isSome_iff_exists.mp hkey
    rw [hs]
    refine congrArg some (Finset.ext fun n => ?_)
    rw [List.mem_toFinset, hload.names n, h.names r.value s hs n]

/-- **The role store refines a map from roles to permission sets.** After any sequence of
`create_role`, `add_permission_to_role`, `remove_permission_from_role` and `delete_role` on a store
without roles, `acquire_by_id` returns a role with the permission names, without duplicates, that
the successful operations make of the empty map, or nothing if that has no such role; the updates
announced for a role are those that changed its set; and one more request leaves every role it was
not about as it is. -/
theorem role_store_refines_map (env : Env) {st : RoleStore} (hw : st.db.WellFormed)
    (hn : st.db.NamesAccepted) (hempty : st.db.roles = []) (ls : List (Bool × RbacRequest))
    (hls : ∀ l ∈ ls, l.2.OnRoles) :
    let st' := st.after env ls
    let m := SetMap.run SetMap.empty (st.ops env ls)
    (∀ r : RoleID, ∃ found, st'.acquireById env r = .ok found ∧
      (found.map fun role => role.permissionNames.toFinset) = m r.value ∧
      ∀ role ∈ found, role.permissionNames.Nodup) ∧
    (∀ r, st'.db.roleUpdates r =
      st.db.roleUpdates r + SetMap.updates r SetMap.empty (st.ops env ls)) ∧
    ∀ commitFails req, req.OnRoles → ∀ r : RoleID,
      (∀ op ∈ req.op (st'.handle env commitFails req).1, op.key ≠ r.value) →
      ∃ found found', st'.acquireById env r = .ok found ∧
        (st'.handle env commitFails req).2.acquireById env r = .ok found' ∧
        (found'.map fun role => role.permissionNames.toFinset) =
          found.map fun role => role.permissionNames.toFinset := by
  intro st' m
  have hstart : st.db.Stores SetMap.empty := by
    refine ⟨fun r => ?_, fun r s h => ?_⟩
    · rw [hempty]
      simp [SetMap.empty]
    · cases h
  obtain ⟨hw', hn', hm, hupdates⟩ := stores_after env ls hls hw hn hstart
  have hacquire : ∀ (st : RoleStore) (r : RoleID), st.acquireById env r = st.db.acquireById r :=
    fun st r => congrArg Prod.fst (run_acquireById env false st.begin r)
  refine ⟨fun r => ?_, hupdates, fun commitFails req hreq r hkey => ?_⟩
  · rw [hacquire]
    exact hm.acquireById hw' hn' r
  · obtain ⟨found, hfound, hset, -⟩ := hm.acquireById hw' hn' r
    have hwnext := handle_wellFormed env commitFails hw' req
    have hnnext := handle_namesAccepted env commitFails hn' req
    have hstep := stores_step env commitFails hw' hm hreq
    rw [hacquire, hacquire]
    cases hop : req.op (st'.handle env commitFails req).1 with
    | none =>
        simp only [hop, st'] at hstep hfound ⊢
        exact ⟨found, found, hfound, hstep ▸ hfound, rfl⟩
    | some op =>
        simp only [hop, st'] at hstep
        obtain ⟨found', hfound', hset', -⟩ := hstep.stores.acquireById hwnext hnnext r
        refine ⟨found, found', hfound, hfound', ?_⟩
        rw [hset', hset, SetMap.apply_ne _ (Ne.symm (hkey op hop))]

namespace Reference

/-- A store with one permission and no roles. -/
def bareStore : RoleStore where
  db := { permissions := [adminRow] }
  clock := clock
  rng := 0

/-- Two roles share a permission; one of them loses it again and is then given another one. -/
def roleRequests : List (Bool × RbacRequest) :=
  [(false, .createRole "editor" none), (false, .createRole "reader" none),
    (false, .addPermissionToRole (env.uuid4 0) "users:read"),
    (false, .addPermissionToRole (env.uuid4 3) "users:read"),
    (false, .removePermissionFromRole (env.uuid4 0) "users:read"),
    (false, .addPermissionToRole (env.uuid4 0) "users:write")]

end Reference

open Reference

/-- The role that lost the shared permission carries the other one, the second role still carries
the shared one, and the three changes of the first role were announced. -/
theorem roles_stored_here :
    (∃ found, (bareStore.after Reference.env roleRequests).acquireById Reference.env
        ⟨Reference.env.uuid4 0, Reference.env.uuid4_ne_nil 0⟩ = .ok found ∧
      (found.map fun role => role.permissionNames.toFinset) = some {"users:write"}) ∧
    (∃ found, (bareStore.after Reference.env roleRequests).acquireById Reference.env
        ⟨Reference.env.uuid4 3, Reference.env.uuid4_ne_nil 3⟩ = .ok found ∧
      (found.map fun role => role.permissionNames.toFinset) = some {"users:read"}) ∧
    (bareStore.after Reference.env roleRequests).db.roleUpdates (Reference.env.uuid4 0) = 3 := by
  have hw : bareStore.db.WellFormed := by constructor <;> decide +kernel
  have hn : bareStore.db.NamesAccepted := by constructor <;> decide +kernel
  obtain ⟨hroles, hupdates, -⟩ := role_store_refines_map Reference.env hw hn rfl roleRequests
    (by decide +kernel)
  have hops : bareStore.ops Reference.env roleRequests =
      [.create (Reference.env.uuid4 0), .create (Reference.env.uuid4 3),
        .insert (Reference.env.uuid4 0) "users:read", .insert (Reference.env.uuid4 3) "users:read",
        .erase (Reference.env.uuid4 0) "users:read", .insert (Reference.env.uuid4 0) "users:write"] := by
    decide +kernel
  rw [hops] at hroles hupdates
  refine ⟨?_, ?_, (hupdates _).trans (by decide +kernel)⟩
  · obtain ⟨found, hfound, hset, -⟩ := hroles ⟨Reference.env.uuid4 0, Reference.env.uuid4_ne_nil 0⟩
    exact ⟨found, hfound, hset.trans (by decide +kernel)⟩
  · obtain ⟨found, hfound, hset, -⟩ := hroles ⟨Reference.env.uuid4 3, Reference.env.uuid4_ne_nil 3⟩
    exact ⟨found, hfound, hset.trans (by decide +kernel)⟩

end BackendTemplate
