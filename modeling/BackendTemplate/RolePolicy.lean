import BackendTemplate.AccessPolicy
import BackendTemplate.RoleMap

/-!
# The Role Store Is an Access Policy

What the six requests of `RBACService` are for, together: a policy that says what each role allows
and who has which role. Each request that succeeds is one operation on the policy, and it makes
sense where it is made; one that fails is none. So what `CheckPermissionUseCase` answers can be
traced: to a request that gave the user a role, and one that gave the role the permission.

## Main results

* `models_step` — one request on the tables is one operation on the policy.
* `permission_traced` — the permission check answers yes if and only if the history says so.
-/

namespace BackendTemplate

open Atomic Atomic.Prog

/-- **The tables hold the policy.** -/
structure RbacDb.Models (db : RbacDb) (P : AccessPolicy Uuid Uuid String) : Prop where
  stores : db.Stores P.roles
  members : ∀ u r, (u, r) ∈ P.members ↔ ∃ a ∈ db.userRoles, a.userId = u ∧ a.roleId = r

/-- The operation a request has performed, by what it returned. -/
def RbacRequest.policyOp :
    RbacRequest → Except RbacError (Option RoleOutput) → Option (AccessPolicy.Op Uuid Uuid String)
  | .assignRole u r _, .ok _ => some (.assign u r)
  | .revokeRole u r, .ok _ => some (.revoke u r)
  | req, out => (req.op out).map .role

section Requests

variable {env : Env} {commitFails : Bool} {db db' : RbacDb} {P : AccessPolicy Uuid Uuid String}
  {u r : Uuid} {n : String}

/-- What a role carries in the policy is what it carries in the tables. -/
theorem RbacDb.Models.carries (h : db.Models P) (hrole : ∃ row ∈ db.roles, row.id = r) :
    P.Carries r n ↔ db.Carries r n := by
  obtain ⟨s, hs⟩ := Option.isSome_iff_exists.mp ((h.stores.keys r).mpr hrole)
  rw [AccessPolicy.Carries, ← h.stores.names r s hs n]
  constructor
  · rintro ⟨s', hs', hn⟩
    exact Option.some.inj (hs.symm.trans hs') ▸ hn
  · exact fun hn => ⟨s, hs, hn⟩

/-- **The policy grants what the tables hold.** -/
theorem RbacDb.Models.grants (h : db.Models P) : P.Grants u n ↔ db.Holds u n := by
  constructor
  · rintro ⟨r, hmember, hcarries⟩
    obtain ⟨s, hs, -⟩ := id hcarries
    have hrole := (h.stores.keys r).mp (Option.isSome_iff_exists.mpr ⟨s, hs⟩)
    obtain ⟨role, hmem, rfl⟩ := id hrole
    exact ⟨role, hmem, (h.members _ _).mp hmember, (h.carries hrole).mp hcarries⟩
  · rintro ⟨role, hrole, hassigned, hcarries⟩
    exact ⟨role.id, (h.members _ _).mpr hassigned, (h.carries ⟨role, hrole, rfl⟩).mpr hcarries⟩

/-- Tables that store the roles and have the same assignments still hold the policy. -/
theorem RbacDb.Models.with_roles (h : db.Models P) (op : SetMap.Op Uuid String)
    (hstores : db'.Stores (SetMap.apply P.roles op))
    (hsame : db'.userRoles = db.userRoles) (hop : ∀ r, op ≠ .drop r) :
    db'.Models (P.apply (.role op)) := by
  refine ⟨(P.roles_apply_role op).symm ▸ hstores, fun u r => ?_⟩
  rw [AccessPolicy.mem_apply, hsame, ← h.members u r]
  have hkeep : ¬ AccessPolicy.Op.Unassigns u r (.role op) := by
    rintro (h | h)
    · cases h
    · exact hop r (AccessPolicy.Op.role.inj h)
  exact ⟨fun hm => (hm.resolve_left (by simp)).1, fun hm => Or.inr ⟨hm, hkeep⟩⟩

/-- Tables with the same roles and other assignments hold the policy with other members. -/
theorem RbacDb.Models.with_members {P' : AccessPolicy Uuid Uuid String} (h : db.Models P)
    (hroles : db'.roles = db.roles) (hpermissions : db'.permissions = db.permissions)
    (hlinks : db'.rolePermissions = db.rolePermissions) (hP : P'.roles = P.roles)
    (hmembers : ∀ u r, (u, r) ∈ P'.members ↔ ∃ a ∈ db'.userRoles, a.userId = u ∧ a.roleId = r) :
    db'.Models P' := by
  refine ⟨⟨fun r => ?_, fun r s hs n => ?_⟩, hmembers⟩
  · rw [hP, hroles]
    exact h.stores.keys r
  · rw [hP] at hs
    rw [RbacDb.Carries, hpermissions, hlinks]
    exact h.stores.names r s hs n

/-- **A user has the role** when an assignment has succeeded, whether or not they had it before. -/
theorem ensures_assigned (st : RoleStore) (u r : Uuid) (assignedBy : Option Uuid) :
    SoloEnsures env commitFails st.db (RbacRequest.assignRole u r assignedBy).useCase st.begin
      fun _ s' => u ≠ nilUuid ∧ ∃ a ∈ s'.committed.userRoles, a.userId = u ∧ a.roleId = r := by
  have hd : st.begin.committed = st.db := rfl
  refine (ensures_bind _ _).mpr (ensures_ofExcept (fun u' hu => ?_) fun _ _ => hd)
  refine (ensures_bind _ _).mpr (ensures_ofExcept (fun r' hr => ?_) fun _ _ => hd)
  refine (ensures_bind _ _).mpr (ensures_ofExcept (fun by_ _ => ?_) fun _ _ => hd)
  obtain rfl := RoleID.make_ok hr
  obtain rfl := rbacUserID_ok hu
  have hassigned : SoloEnsures env commitFails st.db (RBACService.assignRole u' r' by_) st.begin
      fun _ s' => s'.committed = st.db ∧
        ∃ a ∈ s'.current.userRoles, a.userId = u'.value ∧ a.roleId = r'.value := by
    refine (ensures_acquireUser hd u').bind ?_
    rintro user s₁ rfl
    refine (ensures_acquireRole hd r').bind ?_
    rintro role s₂ ⟨rfl, -⟩
    rw [rbacAsk, perform_bind, ensures_call]
    cases hrow : (soloAnswer env commitFails (.userRole u'.value r'.value) st.begin).1 with
    | some row =>
        have hfound := List.find?_some hrow
        exact ⟨hd, row, List.mem_of_find?_eq_some hrow, by simpa using hfound⟩
    | none =>
        refine (ensures_bind _ _).mpr ?_
        refine (ensures_bind _ _).mpr (ensures_statement ?_ _ fun _ => ?_)
        · exact hd
        · exact ⟨hd, _, List.mem_append_right _ List.mem_cons_self, rfl, rfl⟩
  refine hassigned.bind ?_
  rintro user s' ⟨hd', hrow⟩
  refine (ensures_commit hd' _).mono fun _ s'' hs => ?_
  rw [hs.2]
  exact ⟨u'.ne_nil, hrow⟩

/-- A user who has the role may be given it again. -/
theorem RbacDb.Models.assign_again (h : db.Models P)
    (hassigned : ∃ a ∈ db.userRoles, a.userId = u ∧ a.roleId = r) :
    db.Models (P.apply (.assign u r)) := by
  refine h.with_members rfl rfl rfl rfl fun u' r' => ?_
  change (u', r') ∈ insert (u, r) P.members ↔ _
  rw [Finset.mem_insert, h.members, Prod.mk.injEq]
  refine ⟨fun hm => hm.elim ?_ id, Or.inr⟩
  rintro ⟨rfl, rfl⟩
  exact hassigned

/-- A row that assigns a role. -/
theorem RbacDb.Models.assign_row (h : db.Models P) (row : UserRoleRow) (e : DomainEvent) :
    RbacDb.Models { db with userRoles := db.userRoles ++ [row], events := db.events ++ [e] }
      (P.apply (.assign row.userId row.roleId)) := by
  refine h.with_members rfl rfl rfl rfl fun u' r' => ?_
  change (u', r') ∈ insert (row.userId, row.roleId) P.members ↔ _
  rw [Finset.mem_insert, h.members, Prod.mk.injEq]
  simp only [List.mem_append, List.mem_singleton]
  constructor
  · rintro (⟨rfl, rfl⟩ | ⟨a, ha, hrest⟩)
    · exact ⟨row, Or.inr rfl, rfl, rfl⟩
    · exact ⟨a, Or.inl ha, hrest⟩
  · rintro ⟨a, ha | rfl, hu, hr⟩
    · exact Or.inr ⟨a, ha, hu, hr⟩
    · exact Or.inl ⟨hu.symm, hr.symm⟩

/-- The assignments of a role to a user are gone. -/
theorem RbacDb.Models.revoke (h : db.Models P) (u r : Uuid) (e : DomainEvent) :
    RbacDb.Models
      { db with
        userRoles := db.userRoles.filter fun a => ¬ (a.userId = u ∧ a.roleId = r)
        events := db.events ++ [e] }
      (P.apply (.revoke u r)) := by
  refine h.with_members rfl rfl rfl rfl fun u' r' => ?_
  change (u', r') ∈ P.members.erase (u, r) ↔ _
  rw [Finset.mem_erase, h.members, Ne, Prod.mk.injEq]
  simp only [List.mem_filter, decide_eq_true_eq]
  constructor
  · rintro ⟨hne, a, ha, rfl, rfl⟩
    exact ⟨a, ⟨ha, hne⟩, rfl, rfl⟩
  · rintro ⟨a, ⟨ha, hne⟩, rfl, rfl⟩
    exact ⟨hne, a, ha, rfl, rfl⟩

/-- A role is gone, with its assignments. -/
theorem RbacDb.Models.drop (h : db.Models P) (r : Uuid)
    (hstores : db'.Stores (SetMap.apply P.roles (.drop r)))
    (hassigned : db'.userRoles = db.userRoles.filter fun a => a.roleId ≠ r) :
    db'.Models (P.apply (.role (.drop r))) := by
  refine ⟨hstores, fun u r' => ?_⟩
  change (u, r') ∈ P.members.filter (fun m => m.2 ≠ r) ↔ _
  rw [Finset.mem_filter, h.members, hassigned]
  simp only [List.mem_filter, decide_eq_true_eq]
  constructor
  · rintro ⟨⟨a, ha, hu, rfl⟩, hne⟩
    exact ⟨a, ⟨ha, hne⟩, hu, rfl⟩
  · rintro ⟨a, ⟨ha, hne⟩, hu, rfl⟩
    exact ⟨⟨a, ha, hu, rfl⟩, hne⟩

/-- A role that an edit has given a permission is there. -/
theorem RbacDb.EditedTo.role_exists (h : db.EditedTo db' r n true) (hw : db'.WellFormed) :
    ∃ row ∈ db.roles, row.id = r := by
  obtain ⟨edited, events, hed, -, hdb⟩ := h
  have hcarries : edited.Carries r n := (hed.carries n).mpr (by simp [withName])
  obtain ⟨p, -, hl, -⟩ := hcarries
  have hmem := hw.linkRole (r, p.id) (hdb ▸ hl)
  rw [hdb] at hmem
  exact List.mem_map.mp (hed.roles ▸ hmem)

/-- An edit leaves the assignments alone. -/
theorem RbacDb.EditedTo.userRoles {present : Bool} (h : db.EditedTo db' r n present) :
    db'.userRoles = db.userRoles := by
  obtain ⟨edited, events, hed, -, rfl⟩ := h
  exact hed.userRoles

/-- **One request on the tables is one operation on the policy**, which makes sense there, or none
if it fails. -/
theorem models_step (env : Env) (commitFails : Bool) {st : RoleStore} (hw : st.db.WellFormed)
    (hm : st.db.Models P) (req : RbacRequest) :
    let out := st.handle env commitFails req
    match req.policyOp out.1 with
    | none => out.2.db = st.db
    | some op => P.Admits op ∧ out.2.db.Models (P.apply op) := by
  intro out
  rcases handle_cases env commitFails hw req with ⟨e, he, hdb⟩ | ⟨x, hx, heffect⟩
  · have hop : req.policyOp out.1 = none := by
      rw [show out.1 = .error e from he]
      cases req <;> rfl
    rw [hop]
    exact hdb
  · have hw' : out.2.db.WellFormed := handle_wellFormed env commitFails hw req
    rw [show out.1 = .ok x from hx]
    cases req with
    | createRole name description =>
        have hstores := @stores_step env commitFails st _ hw hm.stores
          (.createRole name description) trivial
        obtain ⟨r, rfl, hnew, hdb⟩ := (@ensures_createRole_useCase env commitFails
          st name description).of_ok (a := x) (Prod.ext hx rfl)
        simp only [hx, RbacRequest.op] at hstores
        refine ⟨?_, hm.with_roles _ hstores.stores ?_ (by simp)⟩
        · refine Option.not_isSome_iff_eq_none.mp fun hsome => ?_
          obtain ⟨row, hrow, hid⟩ := (hm.stores.keys r).mp hsome
          exact (hnew row hrow).1 hid
        · obtain ⟨_, -, hsame⟩ := heffect
          exact (congrArg RbacDb.userRoles hsame).trans rfl
    | deleteRole r =>
        have hstores := @stores_step env commitFails st _ hw hm.stores (.deleteRole r) trivial
        simp only [hx, RbacRequest.op] at hstores
        exact ⟨trivial, hm.drop r hstores.stores (congrArg RbacDb.userRoles heffect.2)⟩
    | assignRole u r b =>
        obtain ⟨-, hassigned⟩ := (@ensures_assigned env commitFails st u r b).of_ok (a := x)
          (Prod.ext hx rfl)
        obtain ⟨hrole, heffect⟩ := heffect
        refine ⟨(hm.stores.keys r).mpr hrole, ?_⟩
        rcases heffect with hsame | ⟨row, e, rfl, rfl, hdb⟩
        · have hsame : out.2.db = st.db := hsame
          rw [hsame]
          exact hm.assign_again (congrArg RbacDb.userRoles hsame ▸ hassigned)
        · exact (show out.2.db = _ from hdb) ▸ hm.assign_row row e
    | revokeRole u r =>
        obtain ⟨-, e, hdb⟩ := heffect
        exact ⟨trivial, (show out.2.db = _ from hdb) ▸ hm.revoke u r e⟩
    | addPermissionToRole r n =>
        have hstores := @stores_step env commitFails st _ hw hm.stores
          (.addPermissionToRole r n) trivial
        simp only [hx, RbacRequest.op] at hstores
        exact ⟨(hm.stores.keys r).mpr (RbacDb.EditedTo.role_exists heffect hw'),
          hm.with_roles _ hstores.stores (RbacDb.EditedTo.userRoles heffect) (by simp)⟩
    | removePermissionFromRole r n =>
        have hstores := @stores_step env commitFails st _ hw hm.stores
          (.removePermissionFromRole r n) trivial
        simp only [hx, RbacRequest.op] at hstores
        exact ⟨trivial,
          hm.with_roles _ hstores.stores (RbacDb.EditedTo.userRoles heffect) (by simp)⟩

/-! ### Sequences of requests -/

namespace RoleStore

/-- The operations the requests of a sequence have performed on the policy. -/
def policyOps (env : Env) :
    RoleStore → List (Bool × RbacRequest) → List (AccessPolicy.Op Uuid Uuid String)
  | _, [] => []
  | st, l :: ls =>
      let out := st.handle env l.1 l.2
      (l.2.policyOp out.1).toList ++ policyOps env out.2 ls

end RoleStore

/-- **A sequence of requests is a legal history of the policy.** -/
theorem models_after (env : Env) (ls : List (Bool × RbacRequest)) {st : RoleStore}
    (hw : st.db.WellFormed) (hm : st.db.Models P) :
    P.Legal (st.policyOps env ls) ∧ (st.after env ls).db.Models (P.run (st.policyOps env ls)) := by
  induction ls generalizing st P with
  | nil => exact ⟨trivial, hm⟩
  | cons l ls ih =>
      have hstep := models_step env l.1 hw hm l.2
      have hw' := handle_wellFormed env l.1 hw l.2
      have hafter : st.after env (l :: ls) = (st.handle env l.1 l.2).2.after env ls := rfl
      rw [hafter, RoleStore.policyOps]
      cases hop : l.2.policyOp (st.handle env l.1 l.2).1 with
      | none =>
          simp only [hop] at hstep
          exact ih hw' (hstep ▸ hm)
      | some op =>
          simp only [hop] at hstep
          obtain ⟨hlegal, hmodels⟩ := ih hw' hstep.2
          exact ⟨⟨hstep.1, hlegal⟩, hmodels⟩

/-- Tables without roles hold the policy without roles. -/
theorem RbacDb.models_empty (hw : db.WellFormed) (hempty : db.roles = []) :
    db.Models AccessPolicy.empty := by
  refine ⟨⟨fun r => ?_, fun r s hs => ?_⟩, fun u r => ?_⟩
  · rw [hempty]
    simp [AccessPolicy.empty, SetMap.empty]
  · cases hs
  · refine iff_of_false (Finset.notMem_empty _) ?_
    rintro ⟨a, ha, -⟩
    have hrole := hw.assignmentRole a ha
    rw [hempty] at hrole
    exact absurd hrole List.not_mem_nil

/-- **Every permission can be traced.** After any sequence of the six requests on a store without
roles, whatever their arguments and whether or not their commits succeed: the permission check
answers yes if and only if some role was given to the user and the permission to that role, by
requests that succeeded, and since then no request that succeeded has revoked the role, removed the
permission from it or deleted it. -/
theorem permission_traced (env : Env) {st : RoleStore} (hw : st.db.WellFormed)
    (hempty : st.db.roles = []) (ls : List (Bool × RbacRequest)) (hu : u ≠ nilUuid) :
    (st.after env ls).db.checkPermission u n = .ok true ↔
      ∃ r, Since (· = .assign u r) (AccessPolicy.Op.Unassigns u r) (st.policyOps env ls) ∧
        Since (· = .role (.insert r n)) (AccessPolicy.Op.Removes r n) (st.policyOps env ls) := by
  obtain ⟨hlegal, hmodels⟩ := models_after env ls hw (RbacDb.models_empty hw hempty)
  rw [RbacDb.checkPermission_iff hu, ← hmodels.grants]
  exact AccessPolicy.grants_run_iff hlegal

end Requests

namespace Reference

/-- A store with one user and no roles. -/
def staffStore : RoleStore where
  db := { users := [alice false] }
  clock := clock
  rng := 0

/-- A role is created and given a permission and to the user; the request that would take it away
again fails at its commit. -/
def staffRequests : List (Bool × RbacRequest) :=
  [(false, .createRole "editor" none),
    (false, .addPermissionToRole (env.uuid4 0) "users:read"),
    (false, .assignRole aliceId (env.uuid4 0) none),
    (true, .revokeRole aliceId (env.uuid4 0))]

end Reference

open Reference

/-- The user has the permission, since the failed request is not one of the history. -/
theorem permission_traced_here :
    (staffStore.after Reference.env staffRequests).db.checkPermission aliceId "users:read" =
      .ok true := by
  have hw : staffStore.db.WellFormed := by constructor <;> decide +kernel
  have hops : staffStore.policyOps Reference.env staffRequests =
      [.role (.create (Reference.env.uuid4 0)),
        .role (.insert (Reference.env.uuid4 0) "users:read"),
        .assign aliceId (Reference.env.uuid4 0)] := by
    decide +kernel
  refine (permission_traced Reference.env hw rfl staffRequests (by decide)).mpr
    ⟨Reference.env.uuid4 0, ?_, ?_⟩
  · rw [hops]
    exact ⟨_ :: _ :: [], _, [], rfl, rfl, fun b hb => absurd hb List.not_mem_nil⟩
  · rw [hops]
    refine ⟨[_], _, [_], rfl, rfl, fun b hb => ?_⟩
    obtain rfl := List.mem_singleton.mp hb
    simp [AccessPolicy.Op.Removes]

end BackendTemplate
