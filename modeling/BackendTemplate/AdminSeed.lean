import BackendTemplate.RolePolicy

/-!
# Seeding the Administrator

`seed_admin_role` runs at every boot. It makes sure that there is a role named `admin` that
carries the permission `admin`, and gives that role to the user the environment names. A boot may
come at any time, on whatever role management has made of the tables.

## Main results

* `seeded_admin_stays` — the user of a boot that succeeds stays an administrator, over requests
  and further boots; booting again then changes nothing.
* `seed_grants_no_more` — whom a boot grants what.
-/

namespace BackendTemplate

open Atomic Atomic.Prog

/-- What stops the seeding: a use case that raises; a role that is `None`, which has no
`permissions`; and a text that is not a UUID. -/
inductive SeedError
  | rbac (e : RbacError)
  | noRole
  | notUuid (s : String)
deriving DecidableEq

/-- Which of the commits of the seeding the database refuses. -/
structure SeedCommits where
  createFails : Bool := false
  addFails : Bool := false
  assignFails : Bool := false

/-- What the seeding reads of a role, whether a reader or a use case returned it. -/
structure SeededRole where
  roleId : Uuid
  permissions : List String

/-- The role a use case returned. -/
def SeededRole.ofOutput : Except RbacError (Option RoleOutput) → Except SeedError SeededRole
  | .error e => .error (.rbac e)
  | .ok none => .error .noRole
  | .ok (some role) => .ok ⟨role.roleId, role.permissions⟩

section Seeding

variable (env : Env)

/-- The role named `admin`, created if there is none. -/
def findAdminRole (createFails : Bool) (st : RoleStore) : Except SeedError SeededRole × RoleStore :=
  let roles := st.db.rolesWithPermissions st.db.roles
  match roles.find? fun r => r.name = RBACService.defaultRoleAdmin with
  | some r => (.ok ⟨r.roleId, r.permissions⟩, st)
  | none =>
      let out := st.handle env createFails
        (.createRole RBACService.defaultRoleAdmin (some "Administrator"))
      (SeededRole.ofOutput out.1, out.2)

/-- The role, given the permission `admin` if it lacks it. -/
def grantAdminPermission (addFails : Bool) (role : SeededRole) (st : RoleStore) :
    Except SeedError SeededRole × RoleStore :=
  if adminPermission ∈ role.permissions then (.ok role, st)
  else
    let out := st.handle env addFails (.addPermissionToRole role.roleId adminPermission)
    (SeededRole.ofOutput out.1, out.2)

/-- The role, assigned to the user that `INITIAL_ADMIN_USER_ID` names, if it is set. -/
def assignInitialAdmin (assignFails : Bool) (initialAdminUserId : Option String)
    (role : SeededRole) (st : RoleStore) : Except SeedError Unit × RoleStore :=
  match initialAdminUserId with
  | none => (.ok (), st)
  | some s =>
      if s = "" then (.ok (), st)
      else
        match env.parseUuid s with
        | none => (.error (.notUuid s), st)
        | some u =>
            let out := st.handle env assignFails (.assignRole u role.roleId none)
            (match out.1 with
              | .error e => .error (.rbac e)
              | .ok _ => .ok (), out.2)

/-- `seed_admin_role`. -/
def seedAdminRole (commits : SeedCommits) (initialAdminUserId : Option String) (st : RoleStore) :
    Except SeedError Unit × RoleStore :=
  match findAdminRole env commits.createFails st with
  | (.error e, st) => (.error e, st)
  | (.ok role, st) =>
      match grantAdminPermission env commits.addFails role st with
      | (.error e, st) => (.error e, st)
      | (.ok role, st) => assignInitialAdmin env commits.assignFails initialAdminUserId role st

/-- The user that `INITIAL_ADMIN_USER_ID` names. -/
def initialAdmin : Option String → Option Uuid
  | none => none
  | some s => if s = "" then none else env.parseUuid s

end Seeding

/-! ### What the reader returns -/

namespace RbacDb

variable {db db' : RbacDb} {source : List RoleRow}

/-- Role `r` is the one named `admin`. -/
def IsAdminRole (db : RbacDb) (r : Uuid) : Prop :=
  ∃ role ∈ db.roles, role.name = RBACService.defaultRoleAdmin ∧ role.id = r

/-- An entry of the reader is a role of the source, with the names it carries. -/
theorem mem_rolesWithPermissions {d : RoleReadDTO} (h : d ∈ db.rolesWithPermissions source) :
    ⟨d.roleId, d.name, d.description⟩ ∈ source ∧
      ∀ n, n ∈ d.permissions ↔ db.Carries d.roleId n := by
  have hc := RoleReadDTO.collected_foldl
    ((db.joinedRows source).insertionSort fun a b => a.1.name ≤ b.1.name)
  obtain ⟨row, hrow, hcols⟩ := hc.columns d h
  have hmem : row.1 ∈ source :=
    exists_mem_joinedRows.mp ⟨row.2, (List.mem_insertionSort _).mp hrow⟩
  rw [hcols] at hmem
  refine ⟨hmem, fun n => (hc.names d h n).trans ⟨?_, fun hn => ?_⟩⟩
  · rintro ⟨⟨role, n'⟩, hrow', hid, rfl⟩
    exact hid ▸ (mem_joinedRows.mp ((List.mem_insertionSort _).mp hrow')).2
  · exact ⟨(⟨d.roleId, d.name, d.description⟩, some n),
      (List.mem_insertionSort _).mpr (mem_joinedRows.mpr ⟨hmem, hn⟩), rfl, rfl⟩

/-- Every role of the source has its entry. -/
theorem exists_entry {role : RoleRow} (h : role ∈ source) :
    ∃ d ∈ db.rolesWithPermissions source, d.roleId = role.id := by
  obtain ⟨n, hn⟩ := exists_mem_joinedRows.mpr h
  exact (RoleReadDTO.collected_foldl _).opened (role, n) ((List.mem_insertionSort _).mpr hn)

end RbacDb

/-! ### The requests of a boot -/

/-- **A request that the seeding makes** of the tables. -/
inductive SeedRequest (initial : Option Uuid) (db : RbacDb) : RbacRequest → Prop
  | create (h : ∀ r, ¬ db.IsAdminRole r) :
      SeedRequest initial db (.createRole RBACService.defaultRoleAdmin (some "Administrator"))
  | grant {r : Uuid} (h : db.IsAdminRole r) (hlacks : ¬ db.Carries r adminPermission) :
      SeedRequest initial db (.addPermissionToRole r adminPermission)
  | assign {r u : Uuid} (h : db.IsAdminRole r) (hu : u ∈ initial) :
      SeedRequest initial db (.assignRole u r none)

/-- What a store becomes by requests of the seeding. -/
inductive SeedRun (env : Env) (initial : Option Uuid) : RoleStore → RoleStore → Prop
  | done (st : RoleStore) : SeedRun env initial st st
  | step {st st' : RoleStore} {req : RbacRequest} (commitFails : Bool)
      (h : SeedRequest initial st.db req)
      (hrest : SeedRun env initial (st.handle env commitFails req).2 st') :
      SeedRun env initial st st'

section Runs

variable {env : Env} {initial : Option Uuid} {st st' : RoleStore} {initialAdminUserId : Option String}

theorem SeedRun.trans {st'' : RoleStore} (h : SeedRun env initial st st')
    (h' : SeedRun env initial st' st'') : SeedRun env initial st st'' := by
  induction h with
  | done => exact h'
  | step commitFails hreq _ ih => exact .step commitFails hreq (ih h')

/-- What every request of the seeding keeps, a boot keeps. -/
theorem SeedRun.invariant {I : RbacDb → Prop} (h : SeedRun env initial st st')
    (hw : st.db.WellFormed) (hstart : I st.db)
    (hstep : ∀ db db' req, db.WellFormed → db'.WellFormed → I db → SeedRequest initial db req →
      req.Effect db db' → I db') : st'.db.WellFormed ∧ I st'.db := by
  induction h with
  | done => exact ⟨hw, hstart⟩
  | @step st _ req commitFails hreq _ ih =>
      have hw' := handle_wellFormed env commitFails hw req
      refine ih hw' ?_
      rcases handle_cases env commitFails hw req with ⟨e, -, hdb⟩ | ⟨x, -, heffect⟩
      · exact hdb ▸ hstart
      · exact hstep _ _ _ hw hw' hstart hreq heffect

theorem SeedRun.wellFormed (h : SeedRun env initial st st') (hw : st.db.WellFormed) :
    st'.db.WellFormed :=
  (h.invariant (I := fun _ => True) hw trivial fun _ _ _ _ _ _ _ _ => trivial).1

/-- What the seeding has read of the role it goes on with. -/
structure SeededRole.Reads (role : SeededRole) (db : RbacDb) : Prop where
  admin : db.IsAdminRole role.roleId
  names : ∀ n, n ∈ role.permissions ↔ db.Carries role.roleId n

/-- **Finding the role named `admin`.** -/
theorem findAdminRole_run (hw : st.db.WellFormed) (createFails : Bool) :
    let out := findAdminRole env createFails st
    SeedRun env initial st out.2 ∧ ∀ role, out.1 = .ok role → role.Reads out.2.db := by
  intro out
  simp only [out, findAdminRole]
  split
  · rename_i r hr
    refine ⟨.done st, ?_⟩
    rintro _ ⟨⟩
    obtain ⟨hrow, hnames⟩ := RbacDb.mem_rolesWithPermissions (List.mem_of_find?_eq_some hr)
    exact ⟨⟨_, hrow, by simpa using List.find?_some hr, rfl⟩, hnames⟩
  · rename_i hnone
    refine ⟨.step createFails (.create ?_) (.done _), fun role hrole => ?_⟩
    · rintro _ ⟨role, hrole, hname, rfl⟩
      obtain ⟨d, hd, hid⟩ := @RbacDb.exists_entry st.db _ _ hrole
      have hrow := (RbacDb.mem_rolesWithPermissions hd).1
      have hsame := congrArg RoleRow.name (hw.role_eq hrow hrole hid)
      exact absurd (hsame.trans hname) (by simpa using List.find?_eq_none.mp hnone d hd)
    · have hw' := handle_wellFormed env createFails hw
        (.createRole RBACService.defaultRoleAdmin (some "Administrator"))
      cases hout : (st.handle env createFails
          (.createRole RBACService.defaultRoleAdmin (some "Administrator"))).1 with
      | error e =>
          rw [hout] at hrole
          cases hrole
      | ok x =>
          obtain ⟨r, rfl, hnew, hdb⟩ := (@ensures_createRole_useCase env createFails
            st RBACService.defaultRoleAdmin (some "Administrator")).of_ok (a := x)
              (Prod.ext hout rfl)
          rw [hout] at hrole
          obtain rfl := Except.ok.inj hrole
          refine ⟨⟨⟨r, _, some "Administrator"⟩, ?_, rfl, rfl⟩, fun n => ?_⟩
          · exact (congrArg RbacDb.roles hdb).symm ▸ List.mem_append_right _ List.mem_cons_self
          · -- a role that has just been created carries nothing
            refine iff_of_false List.not_mem_nil ?_
            rintro ⟨p, -, hl, -⟩
            have hl' : (r, p.id) ∈ st.db.rolePermissions :=
              (congrArg RbacDb.rolePermissions hdb) ▸ hl
            obtain ⟨row, hrow, hid⟩ := List.mem_map.mp (hw.linkRole _ hl')
            exact (hnew row hrow).1 hid

/-- Adding a permission returns the role it was added to. -/
theorem ensures_granted (hw : st.db.WellFormed) {addFails : Bool} (r : Uuid) (n : String) :
    SoloEnsures env addFails st.db (RbacRequest.addPermissionToRole r n).useCase st.begin
      fun x _ => ∃ role, x = some role ∧ role.roleId = r := by
  have hd : st.begin.committed = st.db := rfl
  refine (ensures_bind _ _).mpr (ensures_ofExcept (fun r' hr => ?_) fun _ _ => hd)
  obtain rfl := RoleID.make_ok hr
  refine (ensures_addPermissionToRole hd ⟨hw, hw⟩ r' n).bind fun out s' hedit => ?_
  obtain ⟨role, hload, hedited, hd', -⟩ := hedit
  refine (ensures_commit hd' _).mono fun x s'' hx => ⟨_, hx.1, ?_⟩
  exact congrArg RoleID.value (hedited.roleId.trans hload.roleId)

/-- **Giving the role the permission.** -/
theorem grantAdminPermission_run (hw : st.db.WellFormed) (addFails : Bool) {role : SeededRole}
    (hrole : role.Reads st.db) :
    let out := grantAdminPermission env addFails role st
    SeedRun env initial st out.2 ∧ ∀ role', out.1 = .ok role' →
      out.2.db.IsAdminRole role'.roleId ∧ out.2.db.Carries role'.roleId adminPermission := by
  intro out
  simp only [out, grantAdminPermission]
  split
  · rename_i hmem
    refine ⟨.done st, ?_⟩
    rintro _ ⟨⟩
    exact ⟨hrole.admin, (hrole.names _).mp hmem⟩
  · rename_i hmem
    refine ⟨.step addFails (.grant hrole.admin (mt (hrole.names _).mpr hmem)) (.done _),
      fun role' hrole' => ?_⟩
    cases hout : (st.handle env addFails
        (.addPermissionToRole role.roleId adminPermission)).1 with
    | error e =>
        rw [hout] at hrole'
        cases hrole'
    | ok x =>
        obtain ⟨_, rfl, hid⟩ := (@ensures_granted env st hw addFails role.roleId
          adminPermission).of_ok (a := x) (Prod.ext hout rfl)
        rcases handle_cases env addFails hw
          (.addPermissionToRole role.roleId adminPermission) with ⟨e, he, -⟩ | ⟨-, -, heffect⟩
        · cases he.symm.trans hout
        · rw [hout] at hrole'
          obtain rfl := Except.ok.inj hrole'
          obtain ⟨edited, events, hed, -, hdb⟩ := heffect
          obtain ⟨row, hrow, hname, hrowid⟩ := hrole.admin
          rw [hdb]
          simp only [hid]
          refine ⟨⟨row, ?_, hname, hrowid⟩, (hed.carries _).mpr (by simp [withName])⟩
          exact hed.roles.symm ▸ hrow

/-- **Assigning the role.** -/
theorem assignInitialAdmin_run (assignFails : Bool) {role : SeededRole}
    (hrole : st.db.IsAdminRole role.roleId) :
    let out := assignInitialAdmin env assignFails initialAdminUserId role st
    SeedRun env (initialAdmin env initialAdminUserId) st out.2 ∧
      (out.1 = .ok () → ∀ u ∈ initialAdmin env initialAdminUserId, u ≠ nilUuid ∧
        ∃ a ∈ out.2.db.userRoles, a.userId = u ∧ a.roleId = role.roleId) := by
  intro out
  simp only [out, assignInitialAdmin]
  cases initialAdminUserId with
  | none => exact ⟨.done st, fun _ u hu => by cases hu⟩
  | some s =>
      by_cases hs : s = ""
      · subst hs
        exact ⟨.done st, fun _ u hu => by cases hu⟩
      · simp only [if_neg hs]
        rw [initialAdmin, if_neg hs]
        cases hu : env.parseUuid s with
        | none => exact ⟨.done st, fun _ u hu => by cases hu⟩
        | some u =>
            dsimp only
            refine ⟨.step assignFails (.assign hrole rfl) (.done _), fun hok u' hu' => ?_⟩
            obtain rfl := Option.some.inj hu'
            cases hout : (st.handle env assignFails (.assignRole u role.roleId none)).1 with
            | error e =>
                rw [hout] at hok
                cases hok
            | ok x =>
                exact (@ensures_assigned env assignFails st u role.roleId none).of_ok (a := x)
                  (Prod.ext hout rfl)

/-- The requests of the seeding are not ones that take the permission from the role. -/
theorem SeedRequest.spares {db : RbacDb} {req : RbacRequest} (h : SeedRequest initial db req) :
    ¬ req.Strips db := by
  rintro ⟨row, -, -, rfl⟩
  cases h

/-- **A boot leaves an administrator one.** -/
theorem SeedRun.administers (h : SeedRun env initial st st') (hw : st.db.WellFormed) {u : Uuid}
    (hadm : st.db.Administers u) : st'.db.Administers u :=
  (h.invariant (I := fun db => db.Administers u) hw hadm fun _ _ _ hw _ hadm hreq heffect =>
    heffect.administers hw hreq.spares hadm).2

/-- There is one role named `admin`. -/
theorem RbacDb.WellFormed.adminRole_eq {db : RbacDb} (hw : db.WellFormed) {r r' : Uuid}
    (h : db.IsAdminRole r) (h' : db.IsAdminRole r') : r = r' := by
  obtain ⟨row, hrow, hname, rfl⟩ := h
  obtain ⟨row', hrow', hname', rfl⟩ := h'
  exact congrArg RoleRow.id
    (List.inj_on_of_nodup_map hw.roleNames hrow hrow' (hname.trans hname'.symm))

/-- Where the role is as it should be, all that is left to do is assign it. -/
theorem SeedRequest.of_settled {db : RbacDb} {req : RbacRequest} (hw : db.WellFormed) {r : Uuid}
    (hr : db.IsAdminRole r) (hcarries : db.Carries r adminPermission)
    (h : SeedRequest initial db req) : ∃ u ∈ initial, req = .assignRole u r none := by
  cases h with
  | create hnone => exact absurd hr (hnone r)
  | grant hr' hlacks => exact absurd (hw.adminRole_eq hr hr' ▸ hcarries) hlacks
  | assign hr' hu =>
      obtain rfl := hw.adminRole_eq hr hr'
      exact ⟨_, hu, rfl⟩

/-- Assigning the role leaves it what it is. -/
theorem SeedRun.settled (h : SeedRun env initial st st') (hw : st.db.WellFormed) {r : Uuid}
    (hr : st.db.IsAdminRole r) (hcarries : st.db.Carries r adminPermission) :
    st'.db.IsAdminRole r ∧ st'.db.Carries r adminPermission := by
  refine (h.invariant (I := fun db => db.IsAdminRole r ∧ db.Carries r adminPermission) hw
    ⟨hr, hcarries⟩ fun db db' req hw _ hI hreq heffect => ?_).2
  obtain ⟨u, -, rfl⟩ := hreq.of_settled hw hI.1 hI.2
  obtain ⟨-, rfl | ⟨row, e, -, -, rfl⟩⟩ := heffect
  · exact hI
  · exact hI

/-- **A boot changes nothing** where the user it names is an administrator. -/
theorem SeedRun.unchanged {u : Uuid} (h : SeedRun env (some u) st st') (hw : st.db.WellFormed)
    (hadm : st.db.Administers u) : st'.db = st.db := by
  refine (h.invariant (I := fun db => db = st.db) hw rfl
    fun db db' req _ hw' hI hreq heffect => ?_).2
  subst hI
  obtain ⟨role, hrole, hname, ⟨a, ha, hau, har⟩, hcarries⟩ := hadm
  obtain ⟨_, ⟨⟩, rfl⟩ := hreq.of_settled hw ⟨role, hrole, hname, rfl⟩ hcarries
  obtain ⟨-, hsame | ⟨row, e, hru, hrr, rfl⟩⟩ := heffect
  · exact hsame
  · -- the assignment would be there twice
    have hnodup := hw'.assignments
    rw [List.map_append, List.nodup_append'] at hnodup
    refine absurd (List.mem_map_of_mem ha) (hnodup.2.2.symm ?_)
    rw [hau, har, ← hru, ← hrr]
    exact List.mem_singleton_self _

/-- **A boot is requests of the seeding**, and one that succeeds leaves the user it names an
administrator. -/
theorem seedAdminRole_run (hw : st.db.WellFormed) (commits : SeedCommits) :
    let out := seedAdminRole env commits initialAdminUserId st
    SeedRun env (initialAdmin env initialAdminUserId) st out.2 ∧
      (out.1 = .ok () → ∀ u ∈ initialAdmin env initialAdminUserId,
        u ≠ nilUuid ∧ out.2.db.Administers u) := by
  intro out
  obtain ⟨hfind, hread⟩ := @findAdminRole_run env (initialAdmin env initialAdminUserId) st hw
    commits.createFails
  simp only [out, seedAdminRole]
  rcases hf : findAdminRole env commits.createFails st with ⟨_ | role, st₁⟩
  · rw [hf] at hfind
    exact ⟨hfind, fun h => by cases h⟩
  rw [hf] at hfind hread
  have hw₁ := hfind.wellFormed hw
  obtain ⟨hgrant, hgranted⟩ := @grantAdminPermission_run env
    (initialAdmin env initialAdminUserId) st₁ hw₁ commits.addFails role (hread role rfl)
  dsimp only
  rcases hg : grantAdminPermission env commits.addFails role st₁ with ⟨_ | role', st₂⟩
  · rw [hg] at hgrant
    exact ⟨hfind.trans hgrant, fun h => by cases h⟩
  rw [hg] at hgrant hgranted
  have hw₂ := hgrant.wellFormed hw₁
  obtain ⟨hadmin, hcarries⟩ := hgranted role' rfl
  obtain ⟨hrun, hassigned⟩ := @assignInitialAdmin_run env st₂ initialAdminUserId
    commits.assignFails role' hadmin
  refine ⟨(hfind.trans hgrant).trans hrun, fun hok u hu => ?_⟩
  obtain ⟨hne, a, ha, hau, har⟩ := hassigned hok u hu
  obtain ⟨⟨row, hrow, hname, hid⟩, hcarries'⟩ := hrun.settled hw₂ hadmin hcarries
  exact ⟨hne, row, hrow, hname, ⟨a, ha, hau, har.trans hid.symm⟩, hid ▸ hcarries'⟩

end Runs

/-! ### Boots among the requests -/

/-- What happens to a store: a request, or a boot of the service. -/
inductive StoreEvent
  | request (commitFails : Bool) (req : RbacRequest)
  | boot (commits : SeedCommits) (initialAdminUserId : Option String)

/-- The store after an event. -/
def RoleStore.live (env : Env) (st : RoleStore) : StoreEvent → Option RoleStore
  | .request commitFails req => some (st.handle env commitFails req).2
  | .boot commits initialAdminUserId => some (seedAdminRole env commits initialAdminUserId st).2

/-- The event does not take the permission `admin` from the role named `admin`. -/
def RoleStore.spares (st : RoleStore) : StoreEvent → Prop
  | .request _ req => ¬ req.Strips st.db
  | .boot _ _ => True

instance (st : RoleStore) (e : StoreEvent) : Decidable (st.spares e) := by
  cases e <;> unfold RoleStore.spares <;> infer_instance

/-- An administrator stays one over requests and boots. -/
theorem live_administers {env : Env} {st st' : RoleStore} {u : Uuid} (hw : st.db.WellFormed)
    (hadm : st.db.Administers u)
    (h : Runs.Reach (RoleStore.live env) RoleStore.spares st st') :
    st'.db.WellFormed ∧ st'.db.Administers u := by
  refine h.invariant (I := fun st => st.db.WellFormed ∧ st.db.Administers u) ⟨hw, hadm⟩ ?_
  rintro st (⟨commitFails, req⟩ | ⟨commits, i⟩) st' ⟨hw, hadm⟩ hspares hstep
  · obtain rfl := Option.some.inj hstep
    refine ⟨handle_wellFormed env commitFails hw req, ?_⟩
    rcases handle_cases env commitFails hw req with ⟨e, -, hdb⟩ | ⟨x, -, heffect⟩
    · exact hdb.symm ▸ hadm
    · exact heffect.administers hw hspares hadm
  · obtain rfl := Option.some.inj hstep
    obtain ⟨hrun, -⟩ := @seedAdminRole_run env st i hw commits
    exact ⟨hrun.wellFormed hw, hrun.administers hw hadm⟩

/-- **The initial administrator stays one.** Whatever role management has made of the tables: once
a boot with `INITIAL_ADMIN_USER_ID` set has succeeded, the user it names passes the check of
`require_admin`, after any further requests and boots that do not take the permission `admin` from
the role named `admin`; and another boot then changes no table, whichever of its commits fail. -/
theorem seeded_admin_stays (env : Env) {st st' : RoleStore} (hw : st.db.WellFormed) {s : String}
    (hs : s ≠ "") {u : Uuid} (hu : env.parseUuid s = some u) {commits : SeedCommits}
    (hok : (seedAdminRole env commits (some s) st).1 = .ok ())
    (h : Runs.Reach (RoleStore.live env) RoleStore.spares
      (seedAdminRole env commits (some s) st).2 st') :
    st'.db.checkPermission u adminPermission = .ok true ∧
      ∀ commits', (seedAdminRole env commits' (some s) st').2.db = st'.db := by
  have hinitial : initialAdmin env (some s) = some u := by
    rw [initialAdmin, if_neg hs, hu]
  obtain ⟨hrun, hseeded⟩ := @seedAdminRole_run env st (some s) hw commits
  obtain ⟨hne, hadm⟩ := hseeded hok u hinitial
  obtain ⟨hw', hadm'⟩ := live_administers (hrun.wellFormed hw) hadm h
  refine ⟨RbacDb.Administers.check (u := ⟨u, hne⟩) hadm', fun commits' => ?_⟩
  have hagain := (@seedAdminRole_run env st' (some s) hw' commits').1
  rw [hinitial] at hagain
  exact hagain.unchanged hw' hadm'

namespace Reference

/-- The store after a boot that names its user. -/
def bootedStore : RoleStore := (seedAdminRole env {} (some (env.uuidStr aliceId)) staffStore).2

end Reference

open Reference

/-- The user stays an administrator over an attempt to revoke the role and a second boot. -/
theorem seeded_admin_here : ∃ st',
    Runs.Reach (RoleStore.live Reference.env) RoleStore.spares bootedStore st' ∧
      st'.db.checkPermission aliceId adminPermission = .ok true := by
  have hw : staffStore.db.WellFormed := by constructor <;> decide +kernel
  have hrun : Runs.run (RoleStore.live Reference.env) RoleStore.spares bootedStore
      [.request false (.revokeRole aliceId (Reference.env.uuid4 0)), .boot {} none] =
      some (seedAdminRole Reference.env {} none (bootedStore.handle Reference.env false
        (.revokeRole aliceId (Reference.env.uuid4 0))).2).2 := by
    rw [Runs.run, if_pos (by decide +kernel), RoleStore.live, Option.bind_some, Runs.run,
      if_pos (by decide +kernel), RoleStore.live, Option.bind_some, Runs.run]
  have hreach := Runs.reach_of_run hrun
  exact ⟨_, hreach, (seeded_admin_stays Reference.env hw (by decide +kernel)
    (Reference.env.parseUuid_uuidStr aliceId) (by decide +kernel) hreach).1⟩

/-! ### Whom a boot grants what -/

namespace RbacDb

variable {db db' : RbacDb} {initial : Option Uuid} {req : RbacRequest}

/-- The user has the role named `admin`. -/
def HasAdminRole (db : RbacDb) (u : Uuid) : Prop :=
  ∃ a ∈ db.userRoles, a.userId = u ∧ db.IsAdminRole a.roleId

/-- The role named `admin` carries the permission. -/
def AdminCarries (db : RbacDb) (n : String) : Prop := ∃ r, db.IsAdminRole r ∧ db.Carries r n

/-- What the tables grant after a boot, by what they granted before it. -/
structure Seeded (db₀ : RbacDb) (initial : Option Uuid) (db : RbacDb) : Prop where
  keeps : ∀ u n, db₀.Holds u n → db.Holds u n
  holds : ∀ u n, db.Holds u n → db₀.Holds u n ∨ n = adminPermission ∧ db₀.HasAdminRole u ∨
    u ∈ initial ∧ (n = adminPermission ∨ db₀.AdminCarries n)
  has : ∀ u, db.HasAdminRole u → db₀.HasAdminRole u ∨ u ∈ initial
  carries : ∀ n, db.AdminCarries n → db₀.AdminCarries n ∨ n = adminPermission

theorem Seeded.refl (db : RbacDb) : Seeded db initial db :=
  ⟨fun _ _ h => h, fun _ _ h => Or.inl h, fun _ h => Or.inl h, fun _ h => Or.inl h⟩

theorem Seeded.trans {db'' : RbacDb} (h : Seeded db initial db') (h' : Seeded db' initial db'') :
    Seeded db initial db'' := by
  refine ⟨fun u n hn => h'.keeps u n (h.keeps u n hn), fun u n hn => ?_, fun u hu => ?_,
    fun n hn => ?_⟩
  · rcases h'.holds u n hn with hn | ⟨rfl, hu⟩ | ⟨hu, hn⟩
    · exact h.holds u n hn
    · rcases h.has u hu with hu | hu
      · exact Or.inr (Or.inl ⟨rfl, hu⟩)
      · exact Or.inr (Or.inr ⟨hu, Or.inl rfl⟩)
    · refine Or.inr (Or.inr ⟨hu, ?_⟩)
      rcases hn with rfl | hn
      · exact Or.inl rfl
      · exact (h.carries n hn).symm
  · exact (h'.has u hu).elim (h.has u) Or.inr
  · exact (h'.carries n hn).elim (h.carries n) Or.inr

/-- A role that is created is nobody's, and carries nothing. -/
theorem Seeded.create (hw : db.WellFormed) (hnone : ∀ r, ¬ db.IsAdminRole r)
    (h : (RbacRequest.createRole RBACService.defaultRoleAdmin (some "Administrator")).Effect db db') :
    Seeded db initial db' := by
  obtain ⟨r, hnew, rfl⟩ := h
  have hnobody : ∀ a ∈ db.userRoles, a.roleId ≠ r := fun a ha hr => by
    obtain ⟨row, hrow, hid⟩ := List.mem_map.mp (hw.assignmentRole a ha)
    exact (hnew row hrow).1 (hid.trans hr)
  refine ⟨?_, ?_, ?_, ?_⟩
  · rintro u n ⟨role, hrole, hassigned, hn⟩
    exact ⟨role, List.mem_append_left _ hrole, hassigned, hn⟩
  · rintro u n ⟨role, hrole, ⟨a, ha, hau, har⟩, hn⟩
    rcases List.mem_append.mp hrole with hrole | hrole
    · exact Or.inl ⟨role, hrole, ⟨a, ha, hau, har⟩, hn⟩
    · obtain rfl := List.mem_singleton.mp hrole
      exact absurd har (hnobody a ha)
  · rintro u ⟨a, ha, hau, row, hrow, hname, hid⟩
    rcases List.mem_append.mp hrow with hrow | hrow
    · exact absurd ⟨row, hrow, hname, hid⟩ (hnone a.roleId)
    · obtain rfl := List.mem_singleton.mp hrow
      exact absurd hid.symm (hnobody a ha)
  · rintro n ⟨r', ⟨row, hrow, hname, hid⟩, p, -, hl, -⟩
    rcases List.mem_append.mp hrow with hrow | hrow
    · exact absurd ⟨row, hrow, hname, hid⟩ (hnone r')
    · obtain rfl := List.mem_singleton.mp hrow
      obtain rfl : r = r' := hid
      obtain ⟨row, hrow, hid⟩ := List.mem_map.mp (hw.linkRole _ hl)
      exact absurd hid (hnew row hrow).1

/-- The permission is for those who have the role. -/
theorem Seeded.grant {r : Uuid} (hr : db.IsAdminRole r)
    (h : (RbacRequest.addPermissionToRole r adminPermission).Effect db db') :
    Seeded db initial db' := by
  obtain ⟨edited, events, hed, -, rfl⟩ := id h
  have hcarries : ∀ r' n, edited.Carries r' n → db.Carries r' n ∨ r' = r ∧ n = adminPermission := by
    intro r' n hn
    by_cases hr' : r' = r
    · subst hr'
      have hn := (hed.carries n).mp hn
      rw [withName] at hn
      split at hn
      · rename_i heq
        exact Or.inr ⟨rfl, heq⟩
      · exact Or.inl hn
    · exact Or.inl ((hed.others r' hr' n).mp hn)
  have hadmin : ∀ r', RbacDb.IsAdminRole { edited with events := db.events ++ events } r' →
      db.IsAdminRole r' := by
    rintro r' ⟨row, hrow, hrest⟩
    exact ⟨row, hed.roles ▸ hrow, hrest⟩
  refine ⟨?_, ?_, ?_, ?_⟩
  · rintro u n ⟨role, hrole, ⟨a, ha, hau, har⟩, hn⟩
    refine ⟨role, hed.roles.symm ▸ hrole, ⟨a, hed.userRoles.symm ▸ ha, hau, har⟩, ?_⟩
    exact RbacDb.EditedTo.carries h hn fun hp => absurd hp (by simp)
  · rintro u n ⟨role, hrole, ⟨a, ha, hau, har⟩, hn⟩
    have ha : a ∈ db.userRoles := hed.userRoles ▸ ha
    rcases hcarries role.id n hn with hn | ⟨hid, rfl⟩
    · exact Or.inl ⟨role, hed.roles ▸ hrole, ⟨a, ha, hau, har⟩, hn⟩
    · exact Or.inr (Or.inl ⟨rfl, a, ha, hau, (har.trans hid).symm ▸ hr⟩)
  · rintro u ⟨a, ha, hau, hrole⟩
    exact Or.inl ⟨a, hed.userRoles ▸ ha, hau, hadmin _ hrole⟩
  · rintro n ⟨r', hr', hn⟩
    exact (hcarries r' n hn).imp (fun hn => ⟨r', hadmin r' hr', hn⟩) And.right

/-- Only the user the environment names is given the role. -/
theorem Seeded.assign {r u : Uuid} (hr : db.IsAdminRole r) (hu : u ∈ initial)
    (h : (RbacRequest.assignRole u r none).Effect db db') : Seeded db initial db' := by
  obtain ⟨-, rfl | ⟨row, e, rfl, rfl, rfl⟩⟩ := h
  · exact .refl _
  refine ⟨?_, ?_, ?_, ?_⟩
  · rintro u n ⟨role, hrole, ⟨a, ha, hau, har⟩, hn⟩
    exact ⟨role, hrole, ⟨a, List.mem_append_left _ ha, hau, har⟩, hn⟩
  · rintro u n ⟨role, hrole, ⟨a, ha, hau, har⟩, hn⟩
    rcases List.mem_append.mp ha with ha | ha
    · exact Or.inl ⟨role, hrole, ⟨a, ha, hau, har⟩, hn⟩
    · obtain rfl := List.mem_singleton.mp ha
      exact Or.inr (Or.inr ⟨hau ▸ hu, Or.inr ⟨a.roleId, hr, har.symm ▸ hn⟩⟩)
  · rintro u ⟨a, ha, hau, hrole⟩
    rcases List.mem_append.mp ha with ha | ha
    · exact Or.inl ⟨a, ha, hau, hrole⟩
    · obtain rfl := List.mem_singleton.mp ha
      exact Or.inr (hau ▸ hu)
  · rintro n hn
    exact Or.inl hn

/-- One request of the seeding. -/
theorem Seeded.of_request (hw : db.WellFormed) (hreq : SeedRequest initial db req)
    (h : req.Effect db db') : Seeded db initial db' := by
  cases hreq with
  | create hnone => exact .create hw hnone h
  | grant hr _ => exact .grant hr h
  | assign hr hu => exact .assign hr hu h

end RbacDb

/-- **A boot grants no more than it says.** Whatever the tables hold and whichever of its commits
fail: everybody is granted what they were granted before. Beyond that, those who have the role
named `admin` are granted the permission `admin`; and the user the environment names, that
permission and those of the role. Nobody else is granted anything. -/
theorem seed_grants_no_more (env : Env) {st : RoleStore} (hw : st.db.WellFormed)
    (commits : SeedCommits) (initialAdminUserId : Option String) (u : UserID) (n : String) :
    let db' := (seedAdminRole env commits initialAdminUserId st).2.db
    (st.db.checkPermission u.value n = .ok true → db'.checkPermission u.value n = .ok true) ∧
      (db'.checkPermission u.value n = .ok true → st.db.checkPermission u.value n = .ok true ∨
        n = adminPermission ∧ st.db.HasAdminRole u.value ∨
        u.value ∈ initialAdmin env initialAdminUserId ∧
          (n = adminPermission ∨ st.db.AdminCarries n)) := by
  intro db'
  have hseeded : RbacDb.Seeded st.db (initialAdmin env initialAdminUserId) db' :=
    ((@seedAdminRole_run env st initialAdminUserId hw commits).1.invariant hw (.refl st.db)
      fun _ _ _ hw _ hI hreq heffect => hI.trans (.of_request hw hreq heffect)).2
  simp only [RbacDb.checkPermission_iff u.ne_nil]
  exact ⟨hseeded.keeps u.value n, hseeded.holds u.value n⟩

/-- Another user is not an administrator after the boot. -/
theorem seed_grants_others_nothing :
    bootedStore.db.checkPermission (Reference.env.uuid4 7) adminPermission ≠ .ok true := by
  have hw : staffStore.db.WellFormed := by constructor <;> decide +kernel
  intro h
  have hinitial : initialAdmin Reference.env (some (Reference.env.uuidStr aliceId)) =
      some aliceId := by
    rw [initialAdmin, if_neg (by decide +kernel), Reference.env.parseUuid_uuidStr]
  rcases (seed_grants_no_more Reference.env hw {} _
      ⟨Reference.env.uuid4 7, Reference.env.uuid4_ne_nil 7⟩ _).2 h with
    hold | ⟨-, a, ha, -⟩ | ⟨hu, -⟩
  · exact absurd hold (by decide +kernel)
  · exact absurd ha List.not_mem_nil
  · rw [hinitial] at hu
    exact absurd (Option.some.inj hu) (by decide)

end BackendTemplate
