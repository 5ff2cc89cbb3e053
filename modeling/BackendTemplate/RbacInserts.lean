import BackendTemplate.RoleRaces

/-!
# Requests That Add to the Role Store

`create_role`, `assign_role` and `add_permission_to_role` each look a unique key up and, if nothing
is there, insert it: a role name, a user and a role, a permission name. What such a request knows
of the tables, and what it has done to them, is its `InsertLog`, computed from its history; the
discipline `InsertLog.Allowed` says which calls it makes. An insertion is preceded by a lookup of
its key that found nothing, and takes its id, if it needs one, from a fresh draw.

`UserRepo` translates a violated constraint into a domain error (`uniquenessError`); the three
repositories of roles do not, so a statement that is refused ends its request with the
`IntegrityError` of the database. The discipline says that this is one of only three ways in which
such a request fails with anything but a domain error (`InsertLog.Fault`).

## Main results

* `useCase_inserts` — the three use cases obey the discipline.
-/

namespace BackendTemplate

open Atomic Atomic.Prog

/-! ### Domain errors -/

/-- The subclasses of `BaseDomainError`. -/
def AppError.isDomain : AppError → Bool
  | .tooManyLoginAttempts _ | .twoFactorChallengeExpired | .secretDecryption | .valueError _
  | .integrityError | .databaseError => false
  | _ => true

/-- The subclasses of `BaseDomainError`. -/
def RbacError.isDomain : RbacError → Bool
  | .app e => e.isDomain
  | _ => true

theorem RoleID.make_error {r : Uuid} {e : RbacError} (h : RoleID.make r = .error e) :
    e.isDomain = true := by
  unfold RoleID.make at h
  split at h
  · cases h
  · obtain rfl := Except.error.inj h
    rfl

theorem RoleName.make_error {s : String} {e : RbacError} (h : RoleName.make s = .error e) :
    e.isDomain = true := by
  unfold RoleName.make at h
  split at h
  · cases h
  · rename_i e' hv
    obtain rfl := Except.error.inj h
    unfold RoleName.validate at hv
    split at hv
    · obtain rfl := Except.error.inj hv
      rfl
    · split at hv
      · obtain rfl := Except.error.inj hv
        rfl
      · cases hv

theorem Permission.make_error {s : String} {d : Option String} {e : RbacError}
    (h : Permission.make s d = .error e) : e.isDomain = true := by
  unfold Permission.make at h
  split at h
  · cases h
  · rename_i e' hv
    obtain rfl := Except.error.inj h
    unfold Permission.validate at hv
    split at hv
    · obtain rfl := Except.error.inj hv
      rfl
    · cases hv

theorem rbacUserID_error {u : Uuid} {e : RbacError} (h : rbacUserID u = .error e) :
    e.isDomain = true := by
  rw [rbacUserID, UserID.make] at h
  split at h
  · cases h
  · obtain rfl := Except.error.inj h
    rfl

/-- A sequence of fallible computations fails where one of its parts does. -/
theorem except_bind_eq_error {ε α β : Type} {x : Except ε α} {f : α → Except ε β} {e : ε}
    (h : x >>= f = .error e) : x = .error e ∨ ∃ a, x = .ok a ∧ f a = .error e := by
  cases x with
  | error e' =>
      obtain rfl : e' = e := Except.error.inj h
      exact Or.inl rfl
  | ok a => exact Or.inr ⟨a, rfl, h⟩

theorem mapM_toPermission_error {rows : List PermissionRow} {e : RbacError}
    (h : rows.mapM PermissionRow.toPermission = .error e) : e.isDomain = true := by
  induction rows with
  | nil => cases h
  | cons row rows ih =>
      rw [List.mapM_cons] at h
      rcases except_bind_eq_error h with h | ⟨p, -, h⟩
      · exact Permission.make_error h
      · rcases except_bind_eq_error h with h | ⟨ps, -, h⟩
        · exact ih h
        · cases h

theorem RoleRow.toRole_error {row : RoleRow} {ps : List Permission} {e : RbacError}
    (h : row.toRole ps = .error e) : e.isDomain = true := by
  rcases except_bind_eq_error h with h | ⟨_, -, h⟩
  · exact RoleID.make_error h
  · rcases except_bind_eq_error h with h | ⟨_, -, h⟩
    · exact RoleName.make_error h
    · cases h

/-! ### What such a request knows and has done -/

/-- **What a request that adds to the role store knows and has done.** -/
structure InsertLog where
  /-- The unique key it has looked up, not found, and not inserted. -/
  missing : Option RbacKey := none
  /-- The id it has drawn and not used. -/
  drawn : Option Uuid := none
  /-- The users it has found. -/
  users : List Uuid := []
  /-- The roles it has found. -/
  roles : List RoleRow := []
  /-- The permissions it has found or added. -/
  ids : List Uuid := []
  /-- It has executed a statement. -/
  touched : Bool := false
  /-- The role it has updated, and holds the row of. -/
  held : Option Uuid := none
  /-- The links of that role it has read since. -/
  current : Option (List Uuid) := none
  /-- The links it has inserted. -/
  linked : List Uuid := []
  /-- A constraint has refused one of its statements. -/
  refused : Bool := false
  /-- A stored account could not be decoded. -/
  undecoded : Bool := false
  /-- The database has refused its commit. -/
  unsaved : Bool := false
deriving DecidableEq

namespace InsertLog

/-- What a statement that was executed adds. -/
def executed (t : InsertLog) : Statement → InsertLog
  | .insertRole _ | .insertUserRole _ => { t with missing := none, drawn := none, touched := true }
  | .insertPermission row =>
      { t with missing := none, drawn := none, touched := true, ids := row.id :: t.ids }
  | .updateRole r _ _ => { t with touched := true, held := some r }
  | .insertRolePermission _ p => { t with touched := true, linked := p :: t.linked }
  | _ => { t with touched := true }

/-- What a call adds. A request that has asked for its commit starts over. -/
def note (t : InsertLog) : (o : RbacOp) → o.Res → InsertLog
  | .uuid4, id => { t with drawn := some id }
  | .acquireUser u, .ok (some _) => { t with users := u :: t.users }
  | .acquireUser _, .error _ => { t with undecoded := true }
  | .roleById _, some row => { t with roles := row :: t.roles }
  | .roleByName n, none => { t with missing := some (.roleName n) }
  | .userRole u r, none => { t with missing := some (.assignment u r) }
  | .permissionByName n, none => { t with missing := some (.permissionName n) }
  | .permissionByName _, some row => { t with ids := row.id :: t.ids }
  | .permissionIdsOf _, ids => { t with current := some ids }
  | .execute st, .ok _ => t.executed st
  | .execute _, .error _ => { t with refused := true }
  | .commit, .ok _ => {}
  | .commit, .error _ => { unsaved := true }
  | _, _ => t

/-- **The statements such a request executes**: an insertion of a key that was looked up and not
found, or what `update` does to the role whose row it holds. -/
def Executes (given : Option Uuid) (t : InsertLog) : Statement → Prop
  | .insertRole row => t.missing = some (.roleName row.name) ∧ t.drawn = some row.id
  | .insertPermission row => t.missing = some (.permissionName row.name) ∧ t.drawn = some row.id
  | .insertUserRole row =>
      t.missing = some (.assignment row.userId row.roleId) ∧ row.userId ∈ t.users ∧
        (∃ role ∈ t.roles, role.id = row.roleId) ∧ row.assignedBy = given
  | .updateRole r name description =>
      ⟨r, name, description⟩ ∈ t.roles ∧ t.held = none ∧ t.current = none
  | .deleteRolePermissions r _ => t.held = some r
  | .insertRolePermission r p =>
      t.held = some r ∧ (∃ role ∈ t.roles, role.id = r) ∧ p ∈ t.ids ∧ p ∉ t.linked ∧
        ∃ cur, t.current = some cur ∧ p ∉ cur
  | _ => False

/-- **The calls such a request makes**, where `given` is the account it names as the one that
assigns. It looks a role up before it writes. -/
def Allowed (given : Option Uuid) (t : InsertLog) : RbacOp → Prop
  | .roleById _ => t.touched = false
  | .permissionIdsOf r => t.held = some r ∧ t.linked = [] ∧ t.current = none
  | .execute st => t.Executes given st
  | _ => True

/-- A reason to fail with anything but a domain error. -/
def Fault (t : InsertLog) : Prop := t.refused = true ∨ t.undecoded = true ∨ t.unsaved = true

end InsertLog

/-! ### The use cases obey the discipline -/

/-- Along its path the program makes calls such a request may make; where it returns, `Q` holds;
and it raises domain errors, unless there was a fault. -/
def Inserts (given : Option Uuid) {α : Type} (p : RbacAct α) (t : InsertLog)
    (Q : InsertLog → α → Prop) : Prop :=
  p.Obeys InsertLog.note rbacPossible (InsertLog.Allowed given)
    (fun t' x => match x with
      | .ok a => Q t' a
      | .error e => e.isDomain = true ∨ t'.Fault) t

section Inserts

variable {given : Option Uuid} {α β : Type} {t : InsertLog}

theorem Inserts.bind {p : RbacAct α} {f : α → RbacAct β} {Q : InsertLog → α → Prop}
    {Q' : InsertLog → β → Prop} (h : Inserts given p t Q)
    (hf : ∀ t' a, Q t' a → Inserts given (f a) t' Q') : Inserts given (p >>= f) t Q' := by
  refine (obeys_bind _ _ _).mpr (Obeys.mono h (fun _ _ h => h) ?_)
  rintro t' (e | a) hx
  · exact hx
  · exact hf t' a hx

theorem inserts_pure {a : α} {Q : InsertLog → α → Prop} (h : Q t a) :
    Inserts given (pure a) t Q := h

theorem inserts_raise {e : RbacError} {Q : InsertLog → α → Prop} (h : e.isDomain = true) :
    Inserts given (raise e) t Q := Or.inl h

theorem inserts_ask (o : RbacOp) {Q : InsertLog → o.Res → Prop} (ho : t.Allowed given o)
    (h : ∀ x, rbacPossible o x → Q (t.note o x) x) : Inserts given (rbacAsk o) t Q :=
  ⟨ho, h⟩

theorem inserts_ofExcept {x : Except RbacError α} {Q : InsertLog → α → Prop}
    (herr : ∀ e, x = .error e → e.isDomain = true) (h : ∀ a, x = .ok a → Q t a) :
    Inserts given (ofExcept x) t Q := by
  cases x with
  | ok a => exact inserts_pure (h a rfl)
  | error e => exact inserts_raise (herr e rfl)

/-- A statement that is refused is a fault. -/
theorem inserts_statement (st : Statement) {Q : InsertLog → Unit → Prop}
    (ho : t.Executes given st) (h : Q (t.executed st) ()) :
    Inserts given (runStatement st) t Q := by
  refine (obeys_bind _ _ _).mpr ⟨ho, ?_⟩
  rintro (e | u) -
  · exact Or.inr (Or.inl rfl)
  · exact h

/-- Reading a role reads no more than its permissions. -/
theorem inserts_load (row : Option RoleRow) :
    Inserts given (RoleRepo.load row) t fun t' role => t' = t ∧ (role = none ↔ row = none) ∧
      ∀ role' ∈ role, ∀ row' ∈ row, role'.roleId.value = row'.id ∧ role'.name.value = row'.name ∧
        role'.description = row'.description := by
  cases row with
  | none => exact inserts_pure ⟨rfl, iff_of_true rfl rfl, fun _ h => absurd h (by simp)⟩
  | some row =>
      refine Inserts.bind (Q := fun t' _ => t' = t) ?_ ?_
      · refine (inserts_ask (.permissionsOf row.id) (Q := fun t' _ => t' = t) trivial
          fun _ _ => rfl).bind ?_
        rintro t' rows rfl
        exact inserts_ofExcept (fun _ h => mapM_toPermission_error h) fun _ _ => rfl
      · rintro t' ps rfl
        refine (inserts_ofExcept (Q := fun t'' role => t'' = t' ∧ row.toRole ps = .ok role)
          (fun _ h => RoleRow.toRole_error h) fun _ h => ⟨rfl, h⟩).bind ?_
        rintro t'' role ⟨rfl, hrole⟩
        obtain ⟨hid, hname, hdesc, -⟩ := RoleRow.toRole_ok hrole
        refine inserts_pure ⟨rfl, by simp, fun role' h row' h' => ?_⟩
        obtain rfl : role = role' := Option.some.inj h
        obtain rfl : row = row' := Option.some.inj h'
        exact ⟨hid, hname, hdesc⟩

/-- A role that is found is one that the request knows. -/
theorem inserts_acquireRole (r : RoleID) (ht : t.touched = false) :
    Inserts given (RBACService.acquireRole r) t fun t' role =>
      ⟨role.roleId.value, role.name.value, role.description⟩ ∈ t'.roles ∧ role.roleId = r ∧
        ∃ roles, t' = { t with roles := roles } := by
  refine Inserts.bind (Q := fun t' (role : Option Role) => ∀ role' ∈ role,
    ⟨role'.roleId.value, role'.name.value, role'.description⟩ ∈ t'.roles ∧ role'.roleId = r ∧
      ∃ roles, t' = { t with roles := roles }) ?_ ?_
  · refine (inserts_ask (.roleById r.value) (Q := fun t' row => (∀ x ∈ row, x.id = r.value) ∧
      t' = { t with roles := row.toList ++ t.roles }) ht fun row hrow => ⟨hrow, ?_⟩).bind ?_
    · cases row <;> rfl
    · rintro t' row ⟨hrow, rfl⟩
      refine Obeys.mono (inserts_load row) (fun _ _ h => h) ?_
      rintro t' (e | role) h
      · exact h
      · obtain ⟨rfl, hnone, hread⟩ := h
        intro role' hrole
        cases row with
        | none => exact absurd (hnone.mpr rfl) (Option.ne_none_iff_exists'.mpr ⟨role', hrole⟩)
        | some row =>
            obtain ⟨hid, hname, hdesc⟩ := hread role' hrole row rfl
            refine ⟨?_, RoleID.ext (hid.trans (hrow row rfl)), _, rfl⟩
            rw [hid, hname, hdesc]
            exact List.mem_cons_self
  · intro t' role h
    cases role with
    | none => exact inserts_raise rfl
    | some role => exact inserts_pure (h role rfl)

/-- A log that differs in what is known of keys and permissions only. -/
structure InsertLog.SameRole (t t' : InsertLog) : Prop where
  roles : t'.roles = t.roles
  held : t'.held = t.held
  current : t'.current = t.current
  linked : t'.linked = t.linked
  ids : t.ids ⊆ t'.ids

theorem InsertLog.SameRole.refl (t : InsertLog) : t.SameRole t := ⟨rfl, rfl, rfl, rfl, fun _ h => h⟩

theorem InsertLog.SameRole.trans {t t' t'' : InsertLog} (h : t.SameRole t') (h' : t'.SameRole t'') :
    t.SameRole t'' where
  roles := h'.roles.trans h.roles
  held := h'.held.trans h.held
  current := h'.current.trans h.current
  linked := h'.linked.trans h.linked
  ids := fun _ hx => h'.ids (h.ids hx)

/-- Drawing an id. -/
theorem inserts_uuid4 :
    Inserts given (rbacAsk .uuid4) t fun t' id => t' = { t with drawn := some id } :=
  inserts_ask .uuid4 trivial fun _ _ => rfl

/-- Adding a permission under a drawn id, after a lookup of its name that found nothing. -/
theorem inserts_insertPermission (row : PermissionRow)
    (hm : t.missing = some (.permissionName row.name)) (hd : t.drawn = some row.id) :
    Inserts given (runStatement (.insertPermission row)) t fun t' _ =>
      t.SameRole t' ∧ row.id ∈ t'.ids :=
  inserts_statement _ ⟨hm, hd⟩
    ⟨⟨rfl, rfl, rfl, rfl, fun _ h => List.mem_cons_of_mem _ h⟩, List.mem_cons_self⟩

/-- What a lookup of a permission name leaves. -/
theorem inserts_permissionByName (n : String) :
    Inserts given (rbacAsk (.permissionByName n)) t fun t' row => t.SameRole t' ∧
      (∀ x ∈ row, x.id ∈ t'.ids) ∧ (row = none → t'.missing = some (.permissionName n)) := by
  refine inserts_ask (.permissionByName n) trivial fun row _ => ?_
  cases row with
  | none =>
      exact ⟨⟨rfl, rfl, rfl, rfl, fun _ h => h⟩, fun _ h => absurd h (by simp), fun _ => rfl⟩
  | some row =>
      refine ⟨⟨rfl, rfl, rfl, rfl, fun _ h => List.mem_cons_of_mem _ h⟩, fun x hx => ?_,
        fun h => absurd h (by simp)⟩
      obtain rfl : row = x := Option.some.inj hx
      exact List.mem_cons_self

theorem inserts_acquirePermission (n : String) :
    Inserts given (RBACService.acquirePermission n) t fun t' _ => t.SameRole t' := by
  refine Inserts.bind (Q := fun t' p => t.SameRole t' ∧
    (p = none → t'.missing = some (.permissionName n))) ?_ ?_
  · refine (inserts_permissionByName n).bind ?_
    rintro t' row ⟨hsame, -, hmissing⟩
    cases row with
    | none => exact inserts_pure ⟨hsame, fun _ => hmissing rfl⟩
    | some row =>
        refine (inserts_ofExcept (Q := fun t' _ => t.SameRole t')
          (fun _ h => Permission.make_error h) fun _ _ => hsame).bind ?_
        rintro t'' p hsame
        exact inserts_pure ⟨hsame, fun h => absurd h (by simp)⟩
  · rintro t' p ⟨hsame, hmissing⟩
    cases p with
    | some p => exact inserts_pure hsame
    | none =>
        refine (inserts_ofExcept (Q := fun t'' p => t'' = t' ∧ p.name = n)
          (fun _ h => Permission.make_error h) fun p h => ⟨rfl, (Permission.make_ok h).1⟩).bind ?_
        rintro t'' p ⟨rfl, hname⟩
        refine Inserts.bind (Q := fun t' _ => t.SameRole t') ?_ fun t' _ h => inserts_pure h
        refine inserts_uuid4.bind ?_
        rintro _ id rfl
        refine Obeys.mono (inserts_insertPermission (t := { t'' with drawn := some id })
          ⟨id, p.name, p.description⟩ ?_ rfl) (fun _ _ h => h) ?_
        · exact (hmissing rfl).trans (congrArg _ (congrArg _ hname.symm))
        · rintro t' (e | u) h
          · exact h
          · refine hsame.trans (InsertLog.SameRole.trans ?_ h.1)
            exact ⟨rfl, rfl, rfl, rfl, fun _ h => h⟩

/-- Resolving a name finds its id, or adds one. -/
theorem inserts_resolve (p : Permission) :
    Inserts given (RoleRepo.resolve p) t fun t' id => t.SameRole t' ∧ id ∈ t'.ids := by
  refine (inserts_permissionByName p.name).bind ?_
  rintro t' row ⟨hsame, hfound, hmissing⟩
  cases row with
  | some row => exact inserts_pure ⟨hsame, hfound row rfl⟩
  | none =>
      refine inserts_uuid4.bind ?_
      rintro t'' id rfl
      refine (inserts_insertPermission (t := { t' with drawn := some id })
        ⟨id, p.name, p.description⟩ (hmissing rfl) rfl).bind ?_
      rintro t'' - ⟨hsame', hid⟩
      refine inserts_pure ⟨hsame.trans (InsertLog.SameRole.trans ?_ hsame'), hid⟩
      exact ⟨rfl, rfl, rfl, rfl, fun _ h => h⟩

/-- The loop collects a set of ids, all of which are known. -/
theorem inserts_resolveAll (ps : List Permission) (ids : List Uuid) (hn : ids.Nodup)
    (hids : ids ⊆ t.ids) :
    Inserts given (RoleRepo.resolveAll ps ids) t fun t' ids' =>
      t.SameRole t' ∧ ids'.Nodup ∧ ids' ⊆ t'.ids := by
  induction ps generalizing ids t with
  | nil => exact inserts_pure ⟨.refl t, hn, hids⟩
  | cons p ps ih =>
      refine (inserts_resolve p).bind ?_
      rintro t' id ⟨hsame, hid⟩
      refine Obeys.mono (ih (ids.insert id) hn.insert fun x hx => ?_) (fun _ _ h => h) ?_
      · rcases List.mem_insert_iff.mp hx with rfl | hx
        · exact hid
        · exact hsame.ids (hids hx)
      · rintro t'' (e | ids') h
        · exact h
        · exact ⟨hsame.trans h.1, h.2⟩

/-- Deleting links of the role it holds. -/
theorem inserts_unlinkAll {r : Uuid} (ids : List Uuid) (hh : t.held = some r) :
    Inserts given (RoleRepo.unlinkAll r ids) t fun t' _ => t.SameRole t' := by
  rw [RoleRepo.unlinkAll]
  split
  · exact inserts_pure (.refl t)
  · exact inserts_statement _ hh ⟨rfl, rfl, rfl, rfl, fun _ h => h⟩

/-- Inserting links that are not there. -/
theorem inserts_linkAll {r : Uuid} (ps : List Uuid) (hn : ps.Nodup) (hh : t.held = some r)
    (hr : ∃ role ∈ t.roles, role.id = r) {cur : List Uuid} (hc : t.current = some cur)
    (hps : ∀ p ∈ ps, p ∈ t.ids ∧ p ∉ t.linked ∧ p ∉ cur) :
    Inserts given (RoleRepo.linkAll r ps) t fun _ _ => True := by
  induction ps generalizing t with
  | nil => exact inserts_pure trivial
  | cons p ps ih =>
      obtain ⟨hp, hrest⟩ := List.nodup_cons.mp hn
      obtain ⟨hid, hlinked, hcur⟩ := hps p List.mem_cons_self
      refine (inserts_statement (.insertRolePermission r p)
        (Q := fun t' _ => t' = t.executed (.insertRolePermission r p))
        ⟨hh, hr, hid, hlinked, cur, hc, hcur⟩ rfl).bind ?_
      rintro t' - rfl
      refine ih hrest hh hr hc fun q hq => ?_
      obtain ⟨hid', hlinked', hcur'⟩ := hps q (List.mem_cons_of_mem _ hq)
      refine ⟨hid', fun hmem => ?_, hcur'⟩
      rcases List.mem_cons.mp hmem with rfl | hmem
      · exact hp hq
      · exact hlinked' hmem

/-- Storing a role that was read, with other permissions. -/
theorem inserts_store {role : Role}
    (hr : ⟨role.roleId.value, role.name.value, role.description⟩ ∈ t.roles) (hh : t.held = none)
    (hl : t.linked = []) (hc : t.current = none) :
    Inserts given (RBACService.store role) t fun _ _ => True := by
  have hrole : ∃ row ∈ t.roles, row.id = role.roleId.value := ⟨_, hr, rfl⟩
  refine Inserts.bind (Q := fun _ _ => True) ?_ fun t' _ _ =>
    (inserts_ask (.register role.events) (Q := fun _ _ => True) trivial fun _ _ => trivial).bind
      fun _ _ _ => inserts_pure trivial
  refine (inserts_statement (.updateRole role.roleId.value role.name.value role.description)
    (Q := fun t' _ => t' = { t with touched := true, held := some role.roleId.value })
    ⟨hr, hh, hc⟩ rfl).bind ?_
  rintro t' - rfl
  refine (inserts_ask (.permissionIdsOf role.roleId.value)
    (t := { t with touched := true, held := some role.roleId.value })
    (Q := fun t' cur => t' = { t with
      touched := true, held := some role.roleId.value, current := some cur })
    ⟨rfl, hl, hc⟩ fun _ _ => rfl).bind ?_
  rintro t' cur rfl
  refine (inserts_resolveAll role.permissions [] List.nodup_nil (List.nil_subset _)).bind ?_
  rintro t' ids ⟨hsame, hn, hids⟩
  refine (inserts_unlinkAll _ hsame.held).bind ?_
  rintro t'' - hsame'
  have hsame := hsame.trans hsame'
  refine inserts_linkAll _ (hn.filter _) hsame.held ?_ hsame.current fun p hp => ?_
  · rw [hsame.roles]
    exact hrole
  · obtain ⟨hp, hcur⟩ := List.mem_filter.mp hp
    refine ⟨hsame'.ids (hids hp), ?_, by simpa using hcur⟩
    rw [hsame.linked]
    exact hl ▸ List.not_mem_nil

/-- Committing. -/
theorem inserts_commit {a : α} :
    Inserts given (rbacCommit >>= fun _ => pure a) t fun _ _ => True := by
  refine Inserts.bind (Q := fun _ _ => True) ?_ fun _ _ _ => inserts_pure trivial
  refine (obeys_bind _ _ _).mpr ⟨trivial, ?_⟩
  rintro (e | u) -
  · exact Or.inr (Or.inr (Or.inr rfl))
  · trivial

theorem inserts_createRole (name : RoleName) (description : Option String) :
    Inserts given (RBACService.createRole name description) {} fun _ _ => True := by
  refine Inserts.bind (Q := fun t' (role : Option Role) => role = none →
    t' = { missing := some (.roleName name.value) }) ?_ ?_
  · refine (inserts_ask (.roleByName name.value) (t := {}) (Q := fun t' row => row = none →
      t' = { missing := some (.roleName name.value) }) trivial
        fun row _ h => by rw [h]; rfl).bind ?_
    intro t' row hmissing
    refine Obeys.mono (inserts_load row) (fun _ _ h => h) ?_
    rintro t' (e | role) h
    · exact h
    · obtain ⟨rfl, hnone, -⟩ := h
      exact fun hrole => hmissing (hnone.mp hrole)
  · intro t' role hmissing
    cases role with
    | some role => exact inserts_raise rfl
    | none =>
        obtain rfl := hmissing rfl
        refine inserts_uuid4.bind ?_
        rintro _ id rfl
        refine (inserts_ofExcept
          (t := { missing := some (.roleName name.value), drawn := some id })
          (Q := fun t' roleId => t' = { missing := some (.roleName name.value), drawn := some id } ∧
            roleId.value = id)
          (fun _ h => RoleID.make_error h) fun _ h => ⟨rfl, RoleID.make_ok h⟩).bind ?_
        rintro _ roleId ⟨rfl, hid⟩
        refine Inserts.bind (Q := fun _ _ => True) ?_ fun _ _ _ =>
          (inserts_ask (.register _) (Q := fun _ _ => True) trivial fun _ _ => trivial).bind
            fun _ _ _ => inserts_pure trivial
        -- a new role carries no permission, so its row is all that is inserted
        refine (inserts_statement
          (t := { missing := some (.roleName name.value), drawn := some id })
          (Q := fun _ _ => True) (.insertRole ⟨roleId.value, name.value, description⟩)
          ⟨rfl, congrArg some hid.symm⟩ trivial).bind ?_
        exact fun _ _ _ => inserts_pure trivial

/-- A user that is found is one that the request knows. -/
theorem inserts_acquireUser (u : UserID) :
    Inserts given (RBACService.acquireUser u) t fun t' _ =>
      t' = { t with users := u.value :: t.users } := by
  refine (obeys_bind _ _ _).mpr ⟨trivial, ?_⟩
  rintro (e | user) -
  · exact Or.inr (Or.inr (Or.inl rfl))
  · cases user with
    | none => exact Or.inl rfl
    | some user => exact rfl

theorem inserts_assignRole (u : UserID) (r : RoleID) (assignedBy : Option UserID) :
    Inserts (assignedBy.map UserID.value) (RBACService.assignRole u r assignedBy) {}
      fun _ _ => True := by
  refine (inserts_acquireUser u).bind ?_
  rintro _ user rfl
  refine (inserts_acquireRole r rfl).bind ?_
  rintro _ role ⟨hrole, hid, roles, rfl⟩
  have hrole : ∃ row ∈ roles, row.id = r.value := ⟨_, hrole, congrArg RoleID.value hid⟩
  refine (inserts_ask (.userRole u.value r.value) (t := { users := [u.value], roles := roles })
    (Q := fun t' row => row = none → t' =
      { missing := some (.assignment u.value r.value), users := [u.value], roles := roles })
    trivial fun row _ h => by rw [h]; rfl).bind ?_
  intro t' existing hmissing
  cases existing with
  | some row => exact inserts_pure trivial
  | none =>
      obtain rfl := hmissing rfl
      refine (inserts_ask .now (Q := fun t' _ => t' =
        { missing := some (.assignment u.value r.value), users := [u.value], roles := roles })
        trivial fun _ _ => rfl).bind ?_
      rintro _ now rfl
      refine (inserts_statement (Q := fun _ _ => True)
        (t := { missing := some (.assignment u.value r.value), users := [u.value], roles := roles })
        (.insertUserRole ⟨u.value, r.value, now, assignedBy.map UserID.value⟩)
        ⟨rfl, List.mem_cons_self, hrole, rfl⟩ trivial).bind ?_
      exact fun _ _ _ =>
        (inserts_ask (.register _) (Q := fun _ _ => True) trivial fun _ _ => trivial).bind
          fun _ _ _ => inserts_pure trivial

theorem inserts_addPermissionToRole (r : RoleID) (n : String) :
    Inserts given (RBACService.addPermissionToRole r n) {} fun _ _ => True := by
  refine (inserts_acquireRole r rfl).bind ?_
  rintro _ role ⟨hrole, -, roles, rfl⟩
  refine (inserts_acquirePermission n).bind ?_
  intro t' p hsame
  have hedit := role.addPermission_edited p
  refine inserts_store ?_ hsame.held hsame.linked hsame.current
  rw [hedit.roleId, hedit.name, hedit.description, hsame.roles]
  exact hrole

end Inserts

/-! ### Requests -/

/-- A request that adds to the role store: a role, an assignment, a permission of a role. -/
def RbacRequest.Adds : RbacRequest → Prop
  | .createRole _ _ | .assignRole _ _ _ | .addPermissionToRole _ _ => True
  | _ => False

/-- The account a request names as the one that assigns. -/
def RbacRequest.assigner : RbacRequest → Option Uuid
  | .assignRole _ _ assignedBy => assignedBy
  | _ => none

theorem rbacOptUserID_error {u : Option Uuid} {e : RbacError} (h : rbacOptUserID u = .error e) :
    e.isDomain = true := by
  cases u with
  | none => cases h
  | some u =>
      rw [rbacOptUserID] at h
      cases hu : rbacUserID u with
      | ok x =>
          rw [hu] at h
          cases h
      | error e' =>
          rw [hu] at h
          obtain rfl := Except.error.inj h
          exact rbacUserID_error hu

theorem rbacOptUserID_ok {u : Option Uuid} {x : Option UserID} (h : rbacOptUserID u = .ok x) :
    x.map UserID.value = u := by
  cases u with
  | none =>
      obtain rfl := Except.ok.inj h
      rfl
  | some u =>
      rw [rbacOptUserID] at h
      cases hu : rbacUserID u with
      | ok y =>
          rw [hu] at h
          obtain rfl := Except.ok.inj h
          exact congrArg some (rbacUserID_ok hu)
      | error e =>
          rw [hu] at h
          cases h

/-- **The requests that add to the role store obey the discipline.** -/
theorem useCase_inserts {req : RbacRequest} (hreq : req.Adds) :
    Inserts req.assigner req.useCase {} fun _ _ => True := by
  cases req with
  | createRole name description =>
      refine (inserts_ofExcept (t := {}) (Q := fun t' _ => t' = {})
        (fun _ h => RoleName.make_error h) fun _ _ => rfl).bind ?_
      rintro _ name' rfl
      exact (inserts_createRole name' description).bind fun _ _ _ => inserts_commit
  | assignRole userId roleId assignedBy =>
      refine (inserts_ofExcept (t := {}) (Q := fun t' _ => t' = {})
        (fun _ h => rbacUserID_error h) fun _ _ => rfl).bind ?_
      rintro _ u rfl
      refine (inserts_ofExcept (t := {}) (Q := fun t' _ => t' = {})
        (fun _ h => RoleID.make_error h) fun _ _ => rfl).bind ?_
      rintro _ r rfl
      refine (inserts_ofExcept (t := {})
        (Q := fun t' by_ => t' = {} ∧ by_.map UserID.value = assignedBy)
        (fun _ h => rbacOptUserID_error h) fun _ h => ⟨rfl, rbacOptUserID_ok h⟩).bind ?_
      rintro _ by_ ⟨rfl, rfl⟩
      exact (inserts_assignRole u r by_).bind fun _ _ _ => inserts_commit
  | addPermissionToRole roleId n =>
      refine (inserts_ofExcept (t := {}) (Q := fun t' _ => t' = {})
        (fun _ h => RoleID.make_error h) fun _ _ => rfl).bind ?_
      rintro _ r rfl
      exact (inserts_addPermissionToRole r n).bind fun _ _ _ => inserts_commit
  | deleteRole roleId => exact absurd hreq id
  | revokeRole userId roleId => exact absurd hreq id
  | removePermissionFromRole roleId n => exact absurd hreq id

end BackendTemplate
