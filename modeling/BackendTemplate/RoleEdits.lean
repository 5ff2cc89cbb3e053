import BackendTemplate.RoleStore

/-!
# What an Edit of a Role Does

`add_permission_to_role` and `remove_permission_from_role` read the permissions of a role, edit
them in memory, and let `update` synchronise the tables with the result. What such a request does
along its own path is its `EditLog`, computed from its history; the discipline `EditLog.Allowed`
says which calls it makes, `EditLog.Ready` what it has done to the links when it commits. None of
this depends on what other requests do meanwhile.

## Main results

* `useCase_edits` — both use cases obey the discipline.
-/

namespace BackendTemplate

open Atomic Atomic.Prog

/-! ### What an edit has done -/

/-- A request that puts one permission name into a role or takes it out. -/
structure RoleEdit where
  permissionName : String
  present : Bool
deriving DecidableEq

/-- `add_permission_to_role` or `remove_permission_from_role` on role `r`. -/
def RoleEdit.request (e : RoleEdit) (r : Uuid) : RbacRequest :=
  if e.present then .addPermissionToRole r e.permissionName
  else .removePermissionFromRole r e.permissionName

/-- A set of names with the change of the request. -/
def RoleEdit.change (e : RoleEdit) (names : String → Prop) : String → Prop :=
  withName e.present e.permissionName names

/-- What an edit of a role has done so far. -/
structure EditLog where
  /-- It has found the role. -/
  found : Bool := false
  /-- The permission names it has read. -/
  read : Option (List String) := none
  /-- The ids it knows for permission names. -/
  known : List (String × Uuid) := []
  /-- It has updated the role, and holds its row. -/
  locked : Bool := false
  /-- The ids of the links it has read since. -/
  current : Option (List Uuid) := none
  /-- The links it has deleted. -/
  removed : List Uuid := []
  /-- The links it has inserted. -/
  linked : List Uuid := []
  /-- It has asked for its commit. -/
  ended : Bool := false
  /-- It has committed. -/
  committed : Bool := false
deriving DecidableEq

/-- What a call adds. -/
def EditLog.note (t : EditLog) : (o : RbacOp) → o.Res → EditLog
  | .roleById _, row => { t with found := row.isSome }
  | .permissionsOf _, rows => { t with read := some (rows.map PermissionRow.name) }
  | .permissionByName n, some row => { t with known := (n, row.id) :: t.known }
  | .permissionIdsOf _, ids => { t with current := some ids }
  | .execute (.insertPermission row), .ok _ => { t with known := (row.name, row.id) :: t.known }
  | .execute (.updateRole _ _ _), .ok _ => { t with locked := true }
  | .execute (.deleteRolePermissions _ ids), .ok _ => { t with removed := ids }
  | .execute (.insertRolePermission _ p), .ok _ => { t with linked := p :: t.linked }
  | .commit, .ok _ => { t with ended := true, committed := true }
  | .commit, .error _ => { t with ended := true }
  | _, _ => t

/-- What a history amounts to. -/
def editLog (h : Hist rbacCalls) : EditLog := h.foldr (fun e t => t.note e.1 e.2) {}

/-- **Ready to commit**: the links are those of the names it read, with its change. -/
structure EditLog.Ready (e : RoleEdit) (t : EditLog) : Prop where
  found : t.found = true
  locked : t.locked = true
  links : ∃ (names : List String) (cur ids : List Uuid), t.read = some names ∧ t.current = some cur ∧
    (∀ x, x ∈ ids ↔ (x ∈ cur ∧ x ∉ t.removed) ∨ x ∈ t.linked) ∧
    (∀ x ∈ ids, ∃ m, e.change (· ∈ names) m ∧ (m, x) ∈ t.known) ∧
    ∀ m, e.change (· ∈ names) m → ∃ x ∈ ids, (m, x) ∈ t.known

/-- **The calls an edit of role `r` makes**: it reads before it writes, it holds the role when it
touches the links, and it commits once, when the links are synchronised. -/
def EditLog.Allowed (r : Uuid) (e : RoleEdit) (t : EditLog) (o : RbacOp) : Prop :=
  t.ended = false ∧ match o with
    | .roleById r' => r' = r ∧ t.found = false
    | .permissionsOf r' =>
        r' = r ∧ t.found = true ∧ t.read = none ∧ t.known = [] ∧ t.locked = false
    | .permissionByName _ | .uuid4 | .register _ | .execute (.insertPermission _) => True
    | .execute (.updateRole r' _ _) => r' = r ∧ t.found = true ∧ t.locked = false
    | .permissionIdsOf r' =>
        r' = r ∧ t.locked = true ∧ t.current = none ∧ t.removed = [] ∧ t.linked = []
    | .execute (.deleteRolePermissions r' _) =>
        r' = r ∧ t.locked = true ∧ t.removed = [] ∧ t.linked = []
    | .execute (.insertRolePermission r' _) => r' = r ∧ t.locked = true
    | .commit => t.Ready e
    | _ => False

/-- A row that is found is the one that was asked for. -/
def rbacPossible : (o : RbacOp) → o.Res → Prop
  | .roleById r, row => ∀ x ∈ row, x.id = r
  | .permissionByName n, row => ∀ x ∈ row, x.name = n
  | _, _ => True

/-! ### What a call adds to the log -/

section Note

variable {t : EditLog}

/-- A statement that fails is not in the log. -/
theorem EditLog.note_error (t : EditLog) (st : Statement) (err : RbacError) :
    t.note (.execute st) (.error err) = t := by
  cases st <;> rfl

/-- The calls before the commit do not end a request. -/
theorem EditLog.note_ended {o : RbacOp} (ho : o ≠ .commit) (x : o.Res) :
    (t.note o x).ended = t.ended ∧ (t.note o x).committed = t.committed := by
  cases o with
  | commit => exact absurd rfl ho
  | permissionByName n => cases x <;> exact ⟨rfl, rfl⟩
  | execute st => cases st <;> cases x <;> exact ⟨rfl, rfl⟩
  | _ => exact ⟨rfl, rfl⟩

/-- Only reading the permissions is noted as that. -/
theorem EditLog.note_read {o : RbacOp} (ho : ∀ r, o ≠ .permissionsOf r) (x : o.Res) :
    (t.note o x).read = t.read := by
  cases o with
  | permissionsOf r => exact absurd rfl (ho r)
  | permissionByName n => cases x <;> rfl
  | execute st => cases st <;> cases x <;> rfl
  | commit => cases x <;> rfl
  | _ => rfl

/-- Who has committed has ended. -/
theorem editLog_ended (h : Hist rbacCalls) (hc : (editLog h).committed = true) :
    (editLog h).ended = true := by
  induction h with
  | nil => exact absurd hc (by simp [editLog])
  | cons e h ih =>
      obtain ⟨o, x⟩ := e
      change ((editLog h).note o x).committed = true at hc
      change ((editLog h).note o x).ended = true
      by_cases ho : o = .commit
      · subst ho
        cases x <;> rfl
      · rw [(EditLog.note_ended ho x).1]
        rw [(EditLog.note_ended ho x).2] at hc
        exact ih hc

end Note

/-! ### The use cases obey the discipline -/

/-- Along its path the program makes calls an edit may make, and where it returns, `Q` holds. -/
def Edits (r : Uuid) (e : RoleEdit) {α : Type} (p : RbacAct α) (t : EditLog)
    (Q : EditLog → α → Prop) : Prop :=
  p.Obeys EditLog.note rbacPossible (EditLog.Allowed r e) (fun t' x => ∀ a, x = .ok a → Q t' a) t

section Edits

variable {r : Uuid} {e : RoleEdit} {α β : Type} {t : EditLog}

theorem Edits.bind {p : RbacAct α} {f : α → RbacAct β} {Q : EditLog → α → Prop}
    {Q' : EditLog → β → Prop} (h : Edits r e p t Q) (hf : ∀ t' a, Q t' a → Edits r e (f a) t' Q') :
    Edits r e (p >>= f) t Q' := by
  refine (obeys_bind _ _ _).mpr (Obeys.mono h (fun _ _ h => h) ?_)
  rintro t' (err | a) hx
  · exact fun _ hb => absurd hb (by simp)
  · exact hf t' a (hx a rfl)

theorem edits_pure {a : α} {Q : EditLog → α → Prop} (h : Q t a) : Edits r e (pure a) t Q := by
  rintro _ hb
  exact Except.ok.inj hb ▸ h

theorem edits_raise {err : RbacError} {Q : EditLog → α → Prop} : Edits r e (raise err) t Q :=
  fun _ hb => absurd hb (by simp)

theorem edits_ask (o : RbacOp) {Q : EditLog → o.Res → Prop} (ho : t.Allowed r e o)
    (h : ∀ x, rbacPossible o x → Q (t.note o x) x) : Edits r e (rbacAsk o) t Q :=
  ⟨ho, fun x hx _ hb => Except.ok.inj hb ▸ h x hx⟩

theorem edits_ofExcept {x : Except RbacError α} {Q : EditLog → α → Prop}
    (h : ∀ a, x = .ok a → Q t a) : Edits r e (ofExcept x) t Q := by
  cases x with
  | ok a => exact edits_pure (h a rfl)
  | error err => exact edits_raise

theorem edits_statement (st : Statement) {Q : EditLog → Unit → Prop}
    (ho : t.Allowed r e (.execute st)) (h : Q (t.note (.execute st) (.ok ())) ()) :
    Edits r e (runStatement st) t Q := by
  refine (edits_ask (.execute st) (Q := fun t' x => ∀ u, x = .ok u → Q t' u) ho
    fun x _ u hx => ?_).bind fun t' x hQ => edits_ofExcept hQ
  obtain rfl : x = .ok u := hx
  exact h

/-- The role is read once, at the start. -/
theorem edits_acquireRole {r : RoleID} :
    Edits r.value e (RBACService.acquireRole r) {} fun t' role =>
      t' = { found := true, read := some role.permissionNames } ∧ role.roleId = r := by
  refine Edits.bind (Q := fun t' role => ∀ role' ∈ role,
    t' = { found := true, read := some role'.permissionNames } ∧ role'.roleId = r) ?_ ?_
  · refine (edits_ask (.roleById r.value) (Q := fun t' row => t' = { found := row.isSome } ∧
      ∀ x ∈ row, x.id = r.value) ⟨rfl, rfl, rfl⟩ fun row hrow => ⟨rfl, hrow⟩).bind ?_
    rintro t' row ⟨rfl, hid⟩
    cases row with
    | none => exact edits_pure fun _ h => absurd h (by simp)
    | some row =>
        have hid : row.id = r.value := hid row rfl
        refine Edits.bind (Q := fun t' ps =>
          t' = { found := true, read := some (ps.map Permission.name) }) ?_ ?_
        · refine (edits_ask (.permissionsOf row.id) (Q := fun t' rows =>
            t' = { found := true, read := some (rows.map PermissionRow.name) })
            ⟨rfl, hid, rfl, rfl, rfl, rfl⟩ fun rows _ => rfl).bind ?_
          rintro t' rows rfl
          refine edits_ofExcept fun ps hps => ?_
          rw [mapM_toPermission hps]
        · rintro t' ps rfl
          refine (edits_ofExcept (Q := fun t' role =>
            t' = { found := true, read := some (ps.map Permission.name) } ∧
              row.toRole ps = .ok role) fun role hrole => ⟨rfl, hrole⟩).bind ?_
          rintro t' role ⟨rfl, hrole⟩
          obtain ⟨hid', -, -, hperms, -⟩ := RoleRow.toRole_ok hrole
          refine edits_pure fun role' h => ?_
          obtain rfl : role = role' := Option.some.inj h
          exact ⟨by rw [Role.permissionNames, hperms], RoleID.ext (hid'.trans hid)⟩
  · intro t' role h
    cases role with
    | none => exact edits_raise
    | some role => exact edits_pure (h role rfl)

/-- Looking a permission up, or adding it, is to know more ids. -/
theorem edits_acquirePermission {n : String} (ht : t.ended = false) :
    Edits r e (RBACService.acquirePermission n) t fun t' p =>
      (∃ known, t' = { t with known := known }) ∧ p.name = n := by
  refine Edits.bind (Q := fun t' p => (∃ known, t' = { t with known := known }) ∧
    ∀ p' ∈ p, p'.name = n) ?_ ?_
  · refine (edits_ask (.permissionByName n) (Q := fun t' row => (∃ known, t' = { t with known := known }) ∧
      ∀ x ∈ row, x.name = n) ⟨ht, trivial⟩ fun row hrow => ⟨?_, hrow⟩).bind ?_
    · cases row with
      | none => exact ⟨t.known, rfl⟩
      | some row => exact ⟨_, rfl⟩
    · rintro t' row ⟨⟨known, rfl⟩, hname⟩
      cases row with
      | none => exact edits_pure ⟨⟨known, rfl⟩, fun _ h => absurd h (by simp)⟩
      | some row =>
          have hname : row.name = n := hname row rfl
          refine (edits_ofExcept (Q := fun t' p => (∃ known, t' = { t with known := known }) ∧
            p.name = n) fun p hp => ⟨⟨known, rfl⟩, (Permission.make_ok hp).1.trans hname⟩).bind ?_
          rintro t' p ⟨hknown, hp⟩
          refine edits_pure ⟨hknown, fun p' h => ?_⟩
          obtain rfl : p = p' := Option.some.inj h
          exact hp
  · rintro t' p ⟨⟨known, rfl⟩, hname⟩
    cases p with
    | some p => exact edits_pure ⟨⟨known, rfl⟩, hname p rfl⟩
    | none =>
        refine (edits_ofExcept (Q := fun t' p => t' = { t with known := known } ∧ p.name = n)
          fun p hp => ⟨rfl, (Permission.make_ok hp).1⟩).bind ?_
        rintro t' p ⟨rfl, hp⟩
        refine Edits.bind (Q := fun t' _ => ∃ known, t' = { t with known := known }) ?_
          fun t' _ hknown => edits_pure ⟨hknown, hp⟩
        refine Edits.bind (edits_ask .uuid4 (Q := fun t' _ => t' = { t with known := known }) ?_
          fun _ _ => rfl) ?_
        · exact ⟨ht, trivial⟩
        · rintro t' id rfl
          exact edits_statement _ ⟨ht, trivial⟩ ⟨_, rfl⟩

/-- Resolving a name is to know its id. -/
theorem edits_resolve {p : Permission} (ht : t.ended = false) :
    Edits r e (RoleRepo.resolve p) t fun t' id =>
      t' = { t with known := (p.name, id) :: t.known } := by
  refine (edits_ask (.permissionByName p.name) (Q := fun t' row => t' = match row with
    | none => t
    | some row => { t with known := (p.name, row.id) :: t.known }) ⟨ht, trivial⟩
    fun row _ => ?_).bind ?_
  · cases row with
    | none => rfl
    | some row => rfl
  · rintro t' row rfl
    cases row with
    | some row => exact edits_pure rfl
    | none =>
        refine (edits_ask .uuid4 (Q := fun t' _ => t' = t) ⟨ht, trivial⟩ fun _ _ => rfl).bind ?_
        rintro t' id rfl
        refine (edits_statement _ (Q := fun t'' _ => t'' = { t' with
          known := (p.name, id) :: t'.known }) ⟨ht, trivial⟩ rfl).bind ?_
        rintro t'' - rfl
        exact edits_pure rfl

/-- The loop resolves every name, and nothing else. -/
theorem edits_resolveAll (ps : List Permission) (ids : List Uuid) (ht : t.ended = false) :
    Edits r e (RoleRepo.resolveAll ps ids) t fun t' ids' =>
      ∃ known, t' = { t with known := known } ∧ t.known ⊆ known ∧ ids ⊆ ids' ∧
        (∀ x ∈ ids', x ∈ ids ∨ ∃ p ∈ ps, (p.name, x) ∈ known) ∧
        ∀ p ∈ ps, ∃ x ∈ ids', (p.name, x) ∈ known := by
  induction ps generalizing ids t with
  | nil =>
      exact edits_pure ⟨t.known, rfl, fun _ h => h, fun _ h => h, fun x hx => Or.inl hx,
        fun p hp => absurd hp List.not_mem_nil⟩
  | cons p ps ih =>
      refine (edits_resolve ht).bind ?_
      rintro t' id rfl
      refine Obeys.mono (ih (ids.insert id) ht) (fun _ _ h => h) ?_
      rintro t' x h ids' rfl
      obtain ⟨known, rfl, hknown, hids, hback, hforth⟩ := h ids' rfl
      refine ⟨known, rfl, fun k hk => hknown (List.mem_cons_of_mem _ hk),
        fun x hx => hids (List.mem_insert_of_mem hx), fun x hx => ?_, fun p' hp' => ?_⟩
      · rcases hback x hx with hx | ⟨p', hp', hk⟩
        · rcases List.mem_insert_iff.mp hx with rfl | hx
          · exact Or.inr ⟨p, List.mem_cons_self, hknown List.mem_cons_self⟩
          · exact Or.inl hx
        · exact Or.inr ⟨p', List.mem_cons_of_mem _ hp', hk⟩
      · rcases List.mem_cons.mp hp' with rfl | hp'
        · exact ⟨id, hids List.mem_insert_self, hknown List.mem_cons_self⟩
        · exact hforth p' hp'

/-- Deleting the links that are no longer desired. -/
theorem edits_unlinkAll (ids : List Uuid) (ht : t.ended = false) (hl : t.locked = true)
    (hr : t.removed = []) (hi : t.linked = []) :
    Edits r e (RoleRepo.unlinkAll r ids) t fun t' _ => t' = { t with removed := ids } := by
  rw [RoleRepo.unlinkAll]
  split
  · rename_i hnil
    obtain rfl := List.isEmpty_iff.mp hnil
    refine edits_pure ?_
    rw [← hr]
  · exact edits_statement _ ⟨ht, rfl, hl, hr, hi⟩ rfl

/-- Inserting the links that are missing. -/
theorem edits_linkAll (ids : List Uuid) (ht : t.ended = false) (hl : t.locked = true) :
    Edits r e (RoleRepo.linkAll r ids) t fun t' _ =>
      ∃ linked, t' = { t with linked := linked } ∧ ∀ x, x ∈ linked ↔ x ∈ ids ∨ x ∈ t.linked := by
  induction ids generalizing t with
  | nil => exact edits_pure ⟨t.linked, rfl, fun x => by simp⟩
  | cons p ids ih =>
      refine (edits_statement (.insertRolePermission r p)
        (Q := fun t' _ => t' = { t with linked := p :: t.linked }) ⟨ht, rfl, hl⟩ rfl).bind ?_
      rintro t' - rfl
      refine Obeys.mono (ih ht hl) (fun _ _ h => h) ?_
      rintro t' x h u rfl
      obtain ⟨linked, rfl, hmem⟩ := h u rfl
      refine ⟨linked, rfl, fun x => ?_⟩
      rw [hmem, List.mem_cons, List.mem_cons, or_left_comm, or_assoc]

/-- **Storing the edited entity synchronises the links** with the names it was read with. -/
theorem edits_store {r : RoleID} {names : List String} {role : Role}
    (hrole : role.roleId = r) (hnames : ∀ m, m ∈ role.permissionNames ↔ e.change (· ∈ names) m)
    (known : List (String × Uuid)) :
    Edits r.value e (RBACService.store role) { found := true, read := some names, known := known }
      fun t' _ => t'.ended = false ∧ t'.Ready e := by
  have hid : role.roleId.value = r.value := congrArg RoleID.value hrole
  let t₀ : EditLog := { found := true, read := some names, known := known, locked := true }
  refine Edits.bind (Q := fun t' _ => t'.ended = false ∧ t'.Ready e) ?_ ?_
  · refine (edits_statement (.updateRole role.roleId.value role.name.value role.description)
      (Q := fun t' _ => t' = t₀) ⟨rfl, hid, rfl, rfl⟩ rfl).bind ?_
    rintro t' - rfl
    refine (edits_ask (.permissionIdsOf role.roleId.value)
      (Q := fun t' cur => t' = { t₀ with current := some cur })
      ⟨rfl, hid, rfl, rfl, rfl, rfl⟩ fun cur _ => rfl).bind ?_
    rintro t' cur rfl
    refine (edits_resolveAll role.permissions [] rfl).bind ?_
    rintro t' ids ⟨known', rfl, -, -, hback, hforth⟩
    rw [hid]
    refine (edits_unlinkAll _ rfl rfl rfl rfl).bind ?_
    rintro t' - rfl
    refine Obeys.mono (edits_linkAll _ rfl rfl) (fun _ _ h => h) ?_
    rintro t' x h u rfl
    obtain ⟨linked, rfl, hlinked⟩ := h u rfl
    refine ⟨rfl, rfl, rfl, names, cur, ids, rfl, rfl, fun x => ?_, fun x hx => ?_, fun m hm => ?_⟩
    · have hnone : t₀.linked = [] := rfl
      rw [hlinked, hnone]
      simp only [List.mem_filter, decide_eq_true_eq, not_and, not_not, List.not_mem_nil, or_false]
      constructor
      · intro hx
        by_cases hc : x ∈ cur
        · exact Or.inl ⟨hc, fun _ => hx⟩
        · exact Or.inr ⟨hx, hc⟩
      · rintro (⟨hc, hx⟩ | ⟨hx, -⟩)
        · exact hx hc
        · exact hx
    · obtain ⟨p, hp, hk⟩ := (hback x hx).resolve_left List.not_mem_nil
      exact ⟨p.name, (hnames _).mp (List.mem_map_of_mem hp), hk⟩
    · obtain ⟨p, hp, rfl⟩ := List.mem_map.mp ((hnames m).mpr hm)
      exact hforth p hp
  · rintro t' - ⟨ht, hready⟩
    refine (edits_ask (.register role.events)
      (Q := fun t' _ => t'.ended = false ∧ t'.Ready e) ⟨ht, trivial⟩ fun _ _ => ⟨ht, hready⟩).bind ?_
    rintro t' - h
    exact edits_pure h

/-- Committing when the links are synchronised. -/
theorem edits_commit {a : α} (h : t.ended = false ∧ t.Ready e) :
    Edits r e (rbacCommit >>= fun _ => pure a) t fun _ _ => True := by
  refine Edits.bind (Q := fun _ _ => True) ?_ fun _ _ _ => edits_pure trivial
  refine (edits_ask .commit (Q := fun _ _ => True) h fun _ _ => trivial).bind ?_
  exact fun _ _ _ => edits_ofExcept fun _ _ => trivial

/-- **Both use cases make the calls of an edit.** -/
theorem useCase_edits (e : RoleEdit) (r : Uuid) :
    Edits r e (e.request r).useCase {} fun _ _ => True := by
  obtain ⟨n, present⟩ := e
  cases present with
  | true =>
      refine Edits.bind (Q := fun t' (roleId : RoleID) => t' = {} ∧ roleId.value = r)
        (edits_ofExcept fun roleId h => ⟨rfl, RoleID.make_ok h⟩) ?_
      rintro t' roleId ⟨rfl, rfl⟩
      refine Edits.bind (Q := fun t' _ => t'.ended = false ∧ t'.Ready ⟨n, true⟩) ?_
        fun _ _ h => edits_commit h
      refine edits_acquireRole.bind ?_
      rintro t' role ⟨rfl, hid⟩
      refine (edits_acquirePermission rfl).bind ?_
      rintro t' p ⟨⟨known, rfl⟩, hname⟩
      have hedit := role.addPermission_edited p
      rw [hname] at hedit
      exact edits_store (hedit.roleId.trans hid) hedit.names known
  | false =>
      refine Edits.bind (Q := fun t' (roleId : RoleID) => t' = {} ∧ roleId.value = r)
        (edits_ofExcept fun roleId h => ⟨rfl, RoleID.make_ok h⟩) ?_
      rintro t' roleId ⟨rfl, rfl⟩
      refine Edits.bind (Q := fun t' _ => t'.ended = false ∧ t'.Ready ⟨n, false⟩) ?_
        fun _ _ h => edits_commit h
      refine edits_acquireRole.bind ?_
      rintro t' role ⟨rfl, hid⟩
      have hedit := role.removePermission_edited n
      exact edits_store (e := ⟨n, false⟩) (hedit.roleId.trans hid) hedit.names []

end Edits

end BackendTemplate
