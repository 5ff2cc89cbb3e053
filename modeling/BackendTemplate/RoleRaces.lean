import BackendTemplate.RoleEdits

/-!
# Two Edits of One Role at Once

Nothing in `SQLAlchemyRoleRepo.update` compares the tables with what the request has read: the
statement on the role takes its row lock, the links are read again, and they are made those of the
edited entity. So of two requests that run at once the one that commits last decides, and the
change of the other survives only if it was there to be read.

A request that holds the row of the role has read the links the tables hold until it ends
(`OpenEdit`), so its commit leaves the names it read before, with its change.

## Main results

* `OpenEdit.commit` — the commit leaves the names the request read, with its change.
* `edits_step` — everything a step of concurrent edits can do.
* `both_changes_kept_iff` — when the changes of two requests both survive.
-/

namespace BackendTemplate

open Atomic Atomic.Prog

/-! ### What the row writes of an edit leave alone -/

/-- The permission a row write inserts. -/
def RowWrite.inserted : RowWrite → Option PermissionRow
  | .permissionInsert row => some row
  | _ => none

/-- A row write that an edit makes. -/
def RowWrite.Modest : RowWrite → Prop
  | .roleUpdate _ | .permissionInsert _ | .linkInsert _ _ | .linkDelete _ _ => True
  | _ => False

/-- A row write that inserts a permission or updates a role touches no link. -/
def RowWrite.SparesLinks : RowWrite → Prop
  | .roleUpdate _ | .permissionInsert _ => True
  | _ => False

namespace RbacDb

variable {db : RbacDb}

/-- Permissions are only ever added. -/
theorem view_permissions (db : RbacDb) (ws : List RowWrite) :
    (RowLocks.view RbacDb.apply db ws).permissions =
      db.permissions ++ ws.filterMap RowWrite.inserted := by
  induction ws generalizing db with
  | nil => simp
  | cons w ws ih =>
      change (RowLocks.view RbacDb.apply (db.apply w) ws).permissions = _
      rw [ih, List.filterMap_cons]
      cases w <;> simp [RbacDb.apply, RowWrite.inserted]

/-- An edit changes no role id. -/
theorem view_roleIds {ws : List RowWrite} (h : ∀ w ∈ ws, w.Modest) :
    (RowLocks.view RbacDb.apply db ws).roles.map RoleRow.id = db.roles.map RoleRow.id := by
  induction ws generalizing db with
  | nil => rfl
  | cons w ws ih =>
      change (RowLocks.view RbacDb.apply (db.apply w) ws).roles.map RoleRow.id = _
      rw [ih fun w hw => h w (List.mem_cons_of_mem _ hw)]
      cases w with
      | roleUpdate row => exact map_id_update row
      | permissionInsert row => rfl
      | linkInsert r p => rfl
      | linkDelete r p => rfl
      | _ => exact absurd (h _ List.mem_cons_self) id

/-- The links stay as they are. -/
theorem view_links {ws : List RowWrite} (h : ∀ w ∈ ws, w.SparesLinks) :
    (RowLocks.view RbacDb.apply db ws).rolePermissions = db.rolePermissions := by
  induction ws generalizing db with
  | nil => rfl
  | cons w ws ih =>
      change (RowLocks.view RbacDb.apply (db.apply w) ws).rolePermissions = _
      rw [ih fun w hw => h w (List.mem_cons_of_mem _ hw)]
      cases w with
      | roleUpdate row => rfl
      | permissionInsert row => rfl
      | _ => exact absurd (h _ List.mem_cons_self) id

end RbacDb

/-- The id of an inserted permission is held. -/
theorem holds_inserted {ws : List RowWrite} {p : PermissionRow}
    (hp : p ∈ ws.filterMap RowWrite.inserted) :
    RowLocks.Holds RowWrite.keys ws (.permission p.id) := by
  obtain ⟨w, hw, hwp⟩ := List.mem_filterMap.mp hp
  cases w with
  | permissionInsert row =>
      obtain rfl : row = p := Option.some.inj hwp
      exact ⟨_, hw, List.mem_cons_self⟩
  | _ => cases hwp

/-! ### An open edit -/

/-- **The open transaction of an edit**: what its log says of the committed tables `db` and of the
rows `ws` it has written. The links it has read are the committed ones because it holds the
role. -/
structure OpenEdit (r : Uuid) (roleIds : List Uuid) (db : RbacDb) (ws : List RowWrite)
    (t : EditLog) : Prop where
  found : t.found = true → r ∈ roleIds
  modest : ∀ w ∈ ws, w.Modest
  fresh : t.locked = false → t.known = [] → ws = []
  unlocked : t.locked = false →
    (∀ w ∈ ws, w.SparesLinks) ∧ t.current = none ∧ t.removed = [] ∧ t.linked = []
  holds : t.locked = true → RowLocks.Holds RowWrite.keys ws (.role r)
  permissionIds : ((RowLocks.view RbacDb.apply db ws).permissions.map PermissionRow.id).Nodup
  known : ∀ k ∈ t.known, ∃ q ∈ (RowLocks.view RbacDb.apply db ws).permissions,
    q.id = k.2 ∧ q.name = k.1
  links : ∀ x, (r, x) ∈ (RowLocks.view RbacDb.apply db ws).rolePermissions ↔
    ((r, x) ∈ db.rolePermissions ∧ x ∉ t.removed) ∨ x ∈ t.linked
  current : ∀ cur ∈ t.current, ∀ x, (r, x) ∈ db.rolePermissions ↔ x ∈ cur

namespace OpenEdit

variable {r : Uuid} {roleIds : List Uuid} {db : RbacDb} {ws : List RowWrite} {t : EditLog}

/-- An edit that has done nothing. -/
theorem start (hp : (db.permissions.map PermissionRow.id).Nodup) :
    OpenEdit r roleIds db [] {} where
  found h := absurd h (by simp)
  modest w hw := absurd hw List.not_mem_nil
  fresh _ _ := rfl
  unlocked _ := ⟨fun w hw => absurd hw List.not_mem_nil, rfl, rfl, rfl⟩
  holds h := absurd h (by simp)
  permissionIds := hp
  known k hk := absurd hk List.not_mem_nil
  links x := by simp
  current cur h := absurd h (by simp)

/-- Reading about roles and permissions. -/
theorem learn (h : OpenEdit r roleIds db ws t) {t' : EditLog} (hlocked : t'.locked = t.locked)
    (hcurrent : t'.current = t.current) (hremoved : t'.removed = t.removed)
    (hlinked : t'.linked = t.linked) (hfound : t'.found = true → r ∈ roleIds)
    (hempty : t'.known = [] → t.known = [])
    (hknown : ∀ k ∈ t'.known, k ∈ t.known ∨
      ∃ q ∈ (RowLocks.view RbacDb.apply db ws).permissions, q.id = k.2 ∧ q.name = k.1) :
    OpenEdit r roleIds db ws t' where
  found := hfound
  modest := h.modest
  fresh hl hk := h.fresh (hlocked ▸ hl) (hempty hk)
  unlocked hl := by
    rw [hcurrent, hremoved, hlinked]
    exact h.unlocked (hlocked ▸ hl)
  holds hl := h.holds (hlocked ▸ hl)
  permissionIds := h.permissionIds
  known k hk := (hknown k hk).elim (h.known k) id
  links x := by
    rw [hremoved, hlinked]
    exact h.links x
  current cur hc := h.current cur (hcurrent ▸ hc)

/-- Reading the links while holding the role. -/
theorem readLinks (h : OpenEdit r roleIds db ws t) (hl : t.locked = true) (hr : t.removed = [])
    (hi : t.linked = []) :
    OpenEdit r roleIds db ws
      { t with current := some ((RowLocks.view RbacDb.apply db ws).permissionIdsOf r) } where
  found := h.found
  modest := h.modest
  fresh hl' _ := absurd (hl.symm.trans hl') (by simp)
  unlocked hl' := absurd (hl.symm.trans hl') (by simp)
  holds := h.holds
  permissionIds := h.permissionIds
  known := h.known
  links := h.links
  current cur hc x := by
    obtain rfl := Option.some.inj hc
    rw [RbacDb.mem_permissionIdsOf, h.links x, hr, hi]
    simp

/-- Adding a permission whose id is new. -/
theorem addPermission (h : OpenEdit r roleIds db ws t) {row : PermissionRow}
    (hnew : ∀ p ∈ (RowLocks.view RbacDb.apply db ws).permissions, p.id ≠ row.id) :
    OpenEdit r roleIds db (ws ++ [.permissionInsert row])
      { t with known := (row.name, row.id) :: t.known } := by
  have hview : RowLocks.view RbacDb.apply db (ws ++ [.permissionInsert row]) =
      (RowLocks.view RbacDb.apply db ws).apply (.permissionInsert row) := by
    rw [RowLocks.view_append]
    rfl
  refine ⟨h.found, fun w hw => ?_, fun _ hk => absurd hk (by simp), fun hl => ⟨fun w hw => ?_,
    (h.unlocked hl).2⟩, fun hl => RowLocks.holds_append.mpr (Or.inl (h.holds hl)), ?_,
    fun k hk => ?_, fun x => ?_, h.current⟩
  · rcases List.mem_append.mp hw with hw | hw
    · exact h.modest w hw
    · obtain rfl := List.mem_singleton.mp hw
      trivial
  · rcases List.mem_append.mp hw with hw | hw
    · exact (h.unlocked hl).1 w hw
    · obtain rfl := List.mem_singleton.mp hw
      trivial
  · rw [hview]
    refine Keyed.nodup_append h.permissionIds fun hmem => ?_
    obtain ⟨p, hp, hid⟩ := List.mem_map.mp hmem
    exact hnew p hp hid
  · rw [hview]
    rcases List.mem_cons.mp hk with rfl | hk
    · exact ⟨row, List.mem_append_right _ List.mem_cons_self, rfl, rfl⟩
    · obtain ⟨q, hq, hqk⟩ := h.known k hk
      exact ⟨q, List.mem_append_left _ hq, hqk⟩
  · rw [hview]
    exact h.links x

/-- Updating the role takes its row. -/
theorem lock (h : OpenEdit r roleIds db ws t) (hids : db.roles.map RoleRow.id = roleIds)
    (hf : t.found = true) (hl : t.locked = false) (name : String) (description : Option String) :
    OpenEdit r roleIds db
      (ws ++ (RowLocks.view RbacDb.apply db ws).rowWrites (.updateRole r name description))
      { t with locked := true } := by
  have hnew : ∀ w ∈ (RowLocks.view RbacDb.apply db ws).rowWrites (.updateRole r name description),
      ∃ row, w = .roleUpdate row := by
    intro w hw
    obtain ⟨row, -, rfl⟩ := List.mem_map.mp hw
    exact ⟨_, rfl⟩
  obtain ⟨hspare, hcur, hremoved, hlinked⟩ := h.unlocked hl
  have hview := RowLocks.view_append RbacDb.apply db ws
    ((RowLocks.view RbacDb.apply db ws).rowWrites (.updateRole r name description))
  have hperms : (RowLocks.view RbacDb.apply db (ws ++
      (RowLocks.view RbacDb.apply db ws).rowWrites (.updateRole r name description))).permissions =
      (RowLocks.view RbacDb.apply db ws).permissions := by
    rw [hview, RbacDb.view_permissions, List.filterMap_eq_nil_iff.mpr, List.append_nil]
    intro w hw
    obtain ⟨row, rfl⟩ := hnew w hw
    rfl
  refine ⟨h.found, fun w hw => ?_, fun h => absurd h (by simp), fun h => absurd h (by simp),
    fun _ => RowLocks.holds_append.mpr (Or.inr ?_), ?_, fun k hk => ?_, fun x => ?_, h.current⟩
  · rcases List.mem_append.mp hw with hw | hw
    · exact h.modest w hw
    · obtain ⟨row, rfl⟩ := hnew w hw
      trivial
  · -- the role is there, so the statement finds its row
    have hmem : r ∈ (RowLocks.view RbacDb.apply db ws).roles.map RoleRow.id := by
      rw [RbacDb.view_roleIds h.modest, hids]
      exact h.found hf
    obtain ⟨row, hrow, rfl⟩ := List.mem_map.mp hmem
    exact ⟨_, List.mem_map_of_mem (List.mem_filter.mpr ⟨hrow, by simp⟩), List.mem_cons_self⟩
  · rw [hperms]
    exact h.permissionIds
  · rw [hperms]
    exact h.known k hk
  · rw [hview, RbacDb.view_links]
    · exact h.links x
    · intro w hw
      obtain ⟨row, rfl⟩ := hnew w hw
      trivial

/-- Deleting links while holding the role. -/
theorem unlink (h : OpenEdit r roleIds db ws t) (hl : t.locked = true) (hr : t.removed = [])
    (hi : t.linked = []) (ids : List Uuid) :
    OpenEdit r roleIds db
      (ws ++ (RowLocks.view RbacDb.apply db ws).rowWrites (.deleteRolePermissions r ids))
      { t with removed := ids } := by
  have hview := (RowLocks.view_append RbacDb.apply db ws
    ((RowLocks.view RbacDb.apply db ws).rowWrites (.deleteRolePermissions r ids))).trans
    (RbacDb.view_deleteRolePermissions r ids)
  refine ⟨h.found, fun w hw => ?_, fun hl' _ => absurd (hl.symm.trans hl') (by simp),
    fun hl' => absurd (hl.symm.trans hl') (by simp),
    fun hl => RowLocks.holds_append.mpr (Or.inl (h.holds hl)), ?_, fun k hk => ?_, fun x => ?_,
    h.current⟩
  · rcases List.mem_append.mp hw with hw | hw
    · exact h.modest w hw
    · obtain ⟨l, -, rfl⟩ := List.mem_map.mp hw
      trivial
  · rw [hview]
    exact h.permissionIds
  · rw [hview]
    exact h.known k hk
  · rw [hview, List.mem_filter, h.links x, hr, hi]
    simp

/-- Inserting a link while holding the role. -/
theorem link (h : OpenEdit r roleIds db ws t) (hl : t.locked = true) (p : Uuid) :
    OpenEdit r roleIds db (ws ++ [.linkInsert r p]) { t with linked := p :: t.linked } := by
  have hview : RowLocks.view RbacDb.apply db (ws ++ [.linkInsert r p]) =
      (RowLocks.view RbacDb.apply db ws).apply (.linkInsert r p) := by
    rw [RowLocks.view_append]
    rfl
  refine ⟨h.found, fun w hw => ?_, fun hl' _ => absurd (hl.symm.trans hl') (by simp),
    fun hl' => absurd (hl.symm.trans hl') (by simp),
    fun hl => RowLocks.holds_append.mpr (Or.inl (h.holds hl)), ?_, fun k hk => ?_, fun x => ?_,
    h.current⟩
  · rcases List.mem_append.mp hw with hw | hw
    · exact h.modest w hw
    · obtain rfl := List.mem_singleton.mp hw
      trivial
  · rw [hview]
    exact h.permissionIds
  · rw [hview]
    exact h.known k hk
  · rw [hview]
    simp only [RbacDb.apply, List.mem_append, List.mem_cons, List.not_mem_nil, or_false,
      Prod.mk.injEq, true_and]
    rw [h.links x]
    constructor
    · rintro ((hx | hx) | hx)
      · exact Or.inl hx
      · exact Or.inr (Or.inr hx)
      · exact Or.inr (Or.inl hx)
    · rintro (hx | hx | hx)
      · exact Or.inl (Or.inl hx)
      · exact Or.inr hx
      · exact Or.inl (Or.inr hx)

/-- **The commit of another edit** is no news to one that does not hold the role: it has touched no
link, and the rows of the two are different ones. -/
theorem other (h : OpenEdit r roleIds db ws t) {ws' : List RowWrite} {t' : EditLog}
    (h' : OpenEdit r roleIds db ws' t') (hl : t'.locked = true)
    (hdisj : ∀ k, RowLocks.Holds RowWrite.keys ws' k → ¬ RowLocks.Holds RowWrite.keys ws k)
    {db' : RbacDb} (hperms : db'.permissions = (RowLocks.view RbacDb.apply db ws').permissions) :
    OpenEdit r roleIds db' ws t := by
  have hfree : t.locked = false := by
    by_contra hne
    rw [Bool.not_eq_false] at hne
    exact hdisj _ (h'.holds hl) (h.holds hne)
  obtain ⟨hspare, hcur, hremoved, hlinked⟩ := h.unlocked hfree
  have hperms' : (RowLocks.view RbacDb.apply db' ws).permissions =
      (RowLocks.view RbacDb.apply db ws').permissions ++ ws.filterMap RowWrite.inserted := by
    rw [RbacDb.view_permissions, hperms]
  refine ⟨h.found, h.modest, h.fresh, h.unlocked, h.holds, ?_, fun k hk => ?_, fun x => ?_,
    fun cur hc => ?_⟩
  · -- new ids of the two are held by different transactions
    have hown := h.permissionIds
    rw [RbacDb.view_permissions, List.map_append, List.nodup_append] at hown
    rw [hperms', List.map_append, List.nodup_append]
    refine ⟨h'.permissionIds, hown.2.1, ?_⟩
    rintro a ha b hb rfl
    rw [RbacDb.view_permissions, List.map_append] at ha
    rcases List.mem_append.mp ha with ha | ha
    · exact hown.2.2 a ha a hb rfl
    · obtain ⟨p, hp, rfl⟩ := List.mem_map.mp ha
      obtain ⟨q, hq, hid⟩ := List.mem_map.mp hb
      refine hdisj (.permission p.id) (holds_inserted hp) ?_
      rw [← hid]
      exact holds_inserted hq
  · obtain ⟨q, hq, hqk⟩ := h.known k hk
    refine ⟨q, ?_, hqk⟩
    rw [RbacDb.view_permissions] at hq
    rw [hperms', RbacDb.view_permissions]
    rcases List.mem_append.mp hq with hq | hq
    · exact List.mem_append_left _ (List.mem_append_left _ hq)
    · exact List.mem_append_right _ hq
  · rw [RbacDb.view_links hspare, hremoved, hlinked]
    simp
  · rw [hcur] at hc
    exact absurd hc (by simp)

/-- **What an edit leaves when it commits**: the names it read, with its change. -/
theorem commit {e : RoleEdit} (h : OpenEdit r roleIds db ws t) (hready : t.Ready e) :
    ∃ names, t.read = some names ∧ ∀ m,
      (RowLocks.view RbacDb.apply db ws).Carries r m ↔ e.change (· ∈ names) m := by
  obtain ⟨names, cur, ids, hread, hcur, hids, hback, hforth⟩ := hready.links
  refine ⟨names, hread, fun m => ?_⟩
  have hlink : ∀ x, (r, x) ∈ (RowLocks.view RbacDb.apply db ws).rolePermissions ↔ x ∈ ids := by
    intro x
    rw [h.links x, h.current cur hcur x, hids x]
  constructor
  · rintro ⟨p, hp, hl, rfl⟩
    obtain ⟨m, hm, hk⟩ := hback p.id ((hlink p.id).mp hl)
    obtain ⟨q, hq, hqid, hqn⟩ := h.known _ hk
    obtain rfl := List.inj_on_of_nodup_map h.permissionIds hq hp hqid
    exact hqn ▸ hm
  · intro hm
    obtain ⟨x, hx, hk⟩ := hforth m hm
    obtain ⟨q, hq, rfl, hqn⟩ := h.known _ hk
    exact ⟨q, hq, (hlink q.id).mpr hx, hqn⟩

end OpenEdit

/-! ### Edits in flight -/

/-- A configuration of requests on the role store. -/
abbrev RbacCfg (ι : Type) := Config rbacCalls ι (RbacWorld ι) RbacError (Option RoleOutput)

/-- Request `k` is about to ask for its commit. -/
def atCommit {ι : Type} (c : RbacCfg ι) (k : ι) : Bool :=
  match c.next k with
  | some .commit => true
  | _ => false

theorem atCommit_iff {ι : Type} {c : RbacCfg ι} {k : ι} :
    atCommit c k = true ↔ c.next k = some .commit := by
  rw [atCommit]
  split
  · exact iff_of_true rfl ‹_›
  · exact iff_of_false (by simp) ‹_›

section Flight

variable {ι : Type} [DecidableEq ι] {env : Env} {commitFails : Bool} {i : ι} {w : RbacWorld ι}
variable {r : Uuid} {roleIds : List Uuid} {e : RoleEdit} {t : EditLog}

/-- Only a commit changes the committed tables. -/
theorem answer_db {o : RbacOp} (ho : o ≠ .commit) :
    (answer env commitFails i o w).2.db = w.db := by
  cases o with
  | commit => exact absurd rfl ho
  | execute st =>
      rw [answer]
      split <;> rfl
  | _ => rfl

/-- A call writes no row for another request. -/
theorem answer_pending_ne {j : ι} (hj : j ≠ i) (o : RbacOp) :
    (answer env commitFails i o w).2.pending j = w.pending j := by
  cases o with
  | commit =>
      rw [answer]
      split
      · simp [RbacWorld.rollback, RbacWorld.pending, hj]
      · simp [RbacWorld.commit, RbacWorld.pending, hj]
  | execute st =>
      rw [answer]
      split
      · simp [RbacWorld.issue, RbacWorld.pending, hj]
      · rfl
  | register events => simp [answer, RbacWorld.track, RbacWorld.pending, hj]
  | _ => rfl

/-- A statement the constraints admit adds its row writes; one they refuse changes nothing. -/
theorem answer_execute (env : Env) (commitFails : Bool) (i : ι) (w : RbacWorld ι) (st : Statement) :
    ((answer env commitFails i (.execute st) w).1 = .ok () ∧
        (w.view i).admitsAll ((w.view i).rowWrites st) = true ∧
        (answer env commitFails i (.execute st) w).2.pending i =
          w.pending i ++ (w.view i).rowWrites st) ∨
      (∃ err, (answer env commitFails i (.execute st) w).1 = .error err ∧
        (answer env commitFails i (.execute st) w).2 = w) := by
  rw [answer]
  split
  · rename_i hadm
    exact Or.inl ⟨rfl, hadm, by simp [RbacWorld.issue, RbacWorld.pending]⟩
  · exact Or.inr ⟨_, rfl, rfl⟩

/-- **A call of an edit keeps what its log says.** -/
theorem OpenEdit.answer (h : OpenEdit r roleIds w.db (w.pending i) t)
    (hids : w.db.roles.map RoleRow.id = roleIds) {o : RbacOp} (hal : t.Allowed r e o)
    (ho : o ≠ .commit) :
    OpenEdit r roleIds w.db ((answer env commitFails i o w).2.pending i)
      (t.note o (answer env commitFails i o w).1) := by
  obtain ⟨-, hal⟩ := hal
  cases o with
  | now => exact h
  | uuid4 => exact h
  | register events =>
      have hsame : (BackendTemplate.answer env commitFails i (.register events) w).2.pending i =
          w.pending i := by simp [BackendTemplate.answer, RbacWorld.track, RbacWorld.pending]
      rw [hsame]
      exact h
  | roleById r' =>
      obtain ⟨rfl, -⟩ := hal
      refine h.learn rfl rfl rfl rfl (fun hf => ?_) id fun k hk => Or.inl hk
      obtain ⟨row, hrow⟩ := Option.isSome_iff_exists.mp hf
      have hmem := List.mem_map_of_mem (f := RoleRow.id) (Keyed.mem_of_lookup hrow)
      rw [Keyed.key_of_lookup hrow] at hmem
      rw [← hids, ← RbacDb.view_roleIds h.modest]
      exact hmem
  | permissionsOf r' => exact h.learn rfl rfl rfl rfl h.found id fun k hk => Or.inl hk
  | permissionByName n =>
      change OpenEdit r roleIds w.db (w.pending i)
        (t.note (.permissionByName n) ((w.view i).permissionByName n))
      cases hrow : (w.view i).permissionByName n with
      | none => exact h
      | some row =>
          refine h.learn rfl rfl rfl rfl h.found (fun hk => absurd hk (by simp [EditLog.note]))
            fun k hk => ?_
          rcases List.mem_cons.mp hk with rfl | hk
          · exact Or.inr ⟨row, Keyed.mem_of_lookup hrow, rfl, Keyed.key_of_lookup hrow⟩
          · exact Or.inl hk
  | permissionIdsOf r' =>
      obtain ⟨rfl, hl, -, hr, hi⟩ := hal
      exact h.readLinks hl hr hi
  | execute st =>
      rcases answer_execute env commitFails i w st with ⟨hok, hadm, hws⟩ | ⟨err, herr, hw⟩
      · rw [hok, hws]
        cases st with
        | insertPermission row =>
            refine h.addPermission fun p hp hid => ?_
            simp only [RbacDb.rowWrites, RbacDb.admitsAll, RbacDb.admits, Bool.and_true,
              Bool.not_eq_true', List.any_eq_false, Bool.or_eq_true, decide_eq_true_eq,
              not_or] at hadm
            exact (hadm p hp).1 hid
        | updateRole r' name description =>
            obtain ⟨rfl, hf, hl⟩ := hal
            exact h.lock hids hf hl name description
        | deleteRolePermissions r' ids =>
            obtain ⟨rfl, hl, hr, hi⟩ := hal
            exact h.unlink hl hr hi ids
        | insertRolePermission r' p =>
            obtain ⟨rfl, hl⟩ := hal
            exact h.link hl p
        | _ => exact absurd hal id
      · rw [herr, hw, EditLog.note_error]
        exact h
  | commit => exact absurd rfl ho
  | _ => exact absurd hal id

/-- What request `k` has done in configuration `c`. -/
def edited (c : RbacCfg ι) (k : ι) : EditLog := editLog (c.hist k)

@[simp] theorem edited_afterCall_self (c : RbacCfg ι) (i : ι) (o : RbacOp) (x : o.Res)
    (p : RbacAct (Option RoleOutput)) (w : RbacWorld ι) :
    edited (Machine.afterCall c i o x p w) i = (edited c i).note o x := by
  have : (Machine.afterCall c i o x p w).hist i = ⟨o, x⟩ :: c.hist i := Function.update_self _ _ _
  rw [edited, this]
  rfl

@[simp] theorem edited_afterCall_ne {k : ι} (hk : k ≠ i) (c : RbacCfg ι) (o : RbacOp) (x : o.Res)
    (p : RbacAct (Option RoleOutput)) (w : RbacWorld ι) :
    edited (Machine.afterCall c i o x p w) k = edited c k := by
  simp [edited, Machine.afterCall, hk]

/-- Request `k` has not ended: it still runs, and has not asked for its commit. -/
def Editing (c : RbacCfg ι) (k : ι) : Prop :=
  (∃ p, c.threads k = .running p) ∧ (edited c k).ended = false

/-- **The invariant of concurrent edits of role `r`**: no two of them hold the same row, and each
one that has not ended is an `OpenEdit`. -/
structure EditsInFlight (r : Uuid) (roleIds : List Uuid) (c : RbacCfg ι) : Prop where
  exclusive : RowLocks.Exclusive RowWrite.keys c.shared.pending
  ids : c.shared.db.roles.map RoleRow.id = roleIds
  closed : ∀ k, ¬ Editing c k → c.shared.pending k = []
  isOpen : ∀ k, Editing c k →
    OpenEdit r roleIds c.shared.db (c.shared.pending k) (edited c k)

/-- The row writes of a transaction that ends are gone. -/
theorem pending_rollback (w : RbacWorld ι) (i : ι) :
    (w.rollback i).pending = Function.update w.pending i [] := by
  funext k
  by_cases hk : k = i
  · subst hk
    simp [RbacWorld.rollback, RbacWorld.pending]
  · simp [RbacWorld.rollback, RbacWorld.pending, hk]

/-- Open transactions hold different rows. -/
theorem exclusive_answer (h : RowLocks.Exclusive RowWrite.keys w.pending) {o : RbacOp}
    (hw : ¬ w.Waits i o) :
    RowLocks.Exclusive RowWrite.keys (answer env commitFails i o w).2.pending := by
  cases o with
  | execute st =>
      rw [answer]
      split
      · have hissue : (w.issue i ((w.view i).rowWrites st)).pending =
            Function.update w.pending i (w.pending i ++ (w.view i).rowWrites st) := by
          funext k
          by_cases hk : k = i
          · subst hk
            simp [RbacWorld.issue, RbacWorld.pending]
          · simp [RbacWorld.issue, RbacWorld.pending, hk]
        rw [RbacWorld.Waits, not_not] at hw
        rw [hissue]
        exact h.extend hw.1
      · exact h
  | register events =>
      have hsame : (w.track i events).pending = w.pending := by
        funext k
        by_cases hk : k = i
        · subst hk
          simp [RbacWorld.track, RbacWorld.pending]
        · simp [RbacWorld.track, RbacWorld.pending, hk]
      change RowLocks.Exclusive RowWrite.keys (w.track i events).pending
      rw [hsame]
      exact h
  | commit =>
      rw [answer]
      split
      · rw [pending_rollback]
        exact h.clear
      · have hcommit : (w.commit i).pending = Function.update w.pending i [] := pending_rollback w i
        rw [hcommit]
        exact h.clear
  | _ => exact h

variable {c : RbacCfg ι} {edits : ι → RoleEdit}

/-- A call before the commit. -/
theorem EditsInFlight.call (h : EditsInFlight r roleIds c) {o : RbacOp}
    {k : o.Res → RbacAct (Option RoleOutput)} (ht : c.threads i = .running (.call o k))
    (hal : (edited c i).Allowed r (edits i) o) (ho : o ≠ .commit)
    (hwait : ¬ c.shared.Waits i o) :
    EditsInFlight r roleIds (Machine.afterCall c i o (answer env commitFails i o c.shared).1
      (k (answer env commitFails i o c.shared).1) (answer env commitFails i o c.shared).2) := by
  set x := (answer env commitFails i o c.shared).1
  set w' := (answer env commitFails i o c.shared).2
  have hthread : ∀ j, j ≠ i → (Machine.afterCall c i o x (k x) w').threads j = c.threads j :=
    fun j hj => by simp [Machine.afterCall, hj]
  have hediting : ∀ j, j ≠ i → (Editing (Machine.afterCall c i o x (k x) w') j ↔ Editing c j) := by
    intro j hj
    rw [Editing, Editing, hthread j hj, edited_afterCall_ne hj]
  have hself : Editing (Machine.afterCall c i o x (k x) w') i := by
    refine ⟨⟨k x, by simp [Machine.afterCall]⟩, ?_⟩
    rw [edited_afterCall_self, (EditLog.note_ended ho x).1]
    exact hal.1
  refine ⟨exclusive_answer h.exclusive hwait, ?_, fun j hj => ?_, fun j hj => ?_⟩
  · exact (congrArg (fun db => db.roles.map RoleRow.id) (answer_db ho)).trans h.ids
  · by_cases hji : j = i
    · exact absurd (hji ▸ hself) hj
    · exact (answer_pending_ne hji o).trans (h.closed j fun hed => hj ((hediting j hji).mpr hed))
  · change OpenEdit r roleIds w'.db (w'.pending j) _
    rw [answer_db ho]
    by_cases hji : j = i
    · subst hji
      rw [edited_afterCall_self]
      exact (h.isOpen j ⟨⟨_, ht⟩, hal.1⟩).answer h.ids hal ho
    · rw [edited_afterCall_ne hji, answer_pending_ne hji]
      exact h.isOpen j ((hediting j hji).mp hj)

/-- A request whose transaction ends without a trace. -/
theorem EditsInFlight.abandon (h : EditsInFlight r roleIds c) {c' : RbacCfg ι}
    (hshared : c'.shared = c.shared.rollback i) (hself : ¬ Editing c' i)
    (hothers : ∀ j, j ≠ i → (Editing c' j ↔ Editing c j) ∧ edited c' j = edited c j) :
    EditsInFlight r roleIds c' := by
  have hpending : c'.shared.pending = Function.update c.shared.pending i [] := by
    rw [hshared, pending_rollback]
  have hdb : c'.shared.db = c.shared.db := by
    rw [hshared]
    rfl
  refine ⟨?_, ?_, fun j hj => ?_, fun j hj => ?_⟩
  · rw [hpending]
    exact h.exclusive.clear
  · rw [hdb]
    exact h.ids
  · rw [hpending]
    by_cases hji : j = i
    · rw [hji, Function.update_self]
    · rw [Function.update_of_ne hji]
      exact h.closed j fun hed => hj ((hothers j hji).1.mpr hed)
  · have hji : j ≠ i := fun hji => hself (hji ▸ hj)
    rw [hdb, hpending, Function.update_of_ne hji, (hothers j hji).2]
    exact h.isOpen j ((hothers j hji).1.mp hj)

/-- A commit that the database accepts. -/
theorem EditsInFlight.commit (h : EditsInFlight r roleIds c) (hed : Editing c i)
    (hready : (edited c i).Ready e) {c' : RbacCfg ι} (hshared : c'.shared = c.shared.commit i)
    (hself : ¬ Editing c' i)
    (hothers : ∀ j, j ≠ i → (Editing c' j ↔ Editing c j) ∧ edited c' j = edited c j) :
    EditsInFlight r roleIds c' := by
  have hown := h.isOpen i hed
  have hpending : c'.shared.pending = Function.update c.shared.pending i [] := by
    rw [hshared]
    exact pending_rollback c.shared i
  have hdb : c'.shared.db = (c.shared.commit i).db := congrArg RbacWorld.db hshared
  refine ⟨?_, ?_, fun j hj => ?_, fun j hj => ?_⟩
  · rw [hpending]
    exact h.exclusive.clear
  · rw [hdb]
    exact (RbacDb.view_roleIds hown.modest).trans h.ids
  · rw [hpending]
    by_cases hji : j = i
    · rw [hji, Function.update_self]
    · rw [Function.update_of_ne hji]
      exact h.closed j fun hed => hj ((hothers j hji).1.mpr hed)
  · have hji : j ≠ i := fun hji => hself (hji ▸ hj)
    rw [hdb, hpending, Function.update_of_ne hji, (hothers j hji).2]
    exact (h.isOpen j ((hothers j hji).1.mp hj)).other hown hready.locked
      (fun key => h.exclusive i j (Ne.symm hji) key) rfl

end Flight

/-! ### Runs -/

section Runs

variable {ι : Type} [DecidableEq ι] {env : Env} {r : Uuid} {roleIds : List Uuid}
variable {edits : ι → RoleEdit} {c c' : RbacCfg ι} {w : RbacWorld ι}

/-- Edits of role `r`, about to start in world `w`. -/
def startEdits (r : Uuid) (edits : ι → RoleEdit) (w : RbacWorld ι) : RbacCfg ι :=
  Config.start w fun k => ((edits k).request r).useCase

/-- Every request makes the calls of its edit. -/
def EditsObey (r : Uuid) (edits : ι → RoleEdit) (c : RbacCfg ι) : Prop :=
  Machine.Obeys rbacPossible (fun i h o => (editLog h).Allowed r (edits i) o)
    (fun _ _ _ => True) c

omit [DecidableEq ι] in
theorem startEdits_obey (r : Uuid) (edits : ι → RoleEdit) (w : RbacWorld ι) :
    EditsObey r edits (startEdits r edits w) := by
  intro i
  change (((edits i).request r).useCase).Obeys _ _ _ _ []
  have h : (((edits i).request r).useCase).Obeys EditLog.note rbacPossible
      (EditLog.Allowed r (edits i)) (fun _ _ => True) (editLog []) :=
    Obeys.mono (useCase_edits (edits i) r) (fun _ _ h => h) fun _ _ _ => trivial
  exact Obeys.pull (f := editLog) (fun _ _ _ => rfl) h

/-- A step at which no edit commits: the committed tables stay, and a request may read what they
hold of the role. -/
structure Quiet (roleIds : List Uuid) (r : Uuid) (c c' : RbacCfg ι) : Prop where
  inFlight : EditsInFlight r roleIds c'
  editing : ∀ k, Editing c' k → Editing c k
  db : c'.shared.db = c.shared.db
  committed : ∀ k, (edited c' k).committed = (edited c k).committed
  read : ∀ k, (edited c' k).read = (edited c k).read ∨
    (edited c k).read = none ∧ ∃ names, (edited c' k).read = some names ∧
      ∀ m, m ∈ names ↔ c.shared.db.Carries r m

/-- A step at which edit `i` commits: the role carries the names it read, with its change. -/
structure Commits (roleIds : List Uuid) (r : Uuid) (edits : ι → RoleEdit) (i : ι) (c c' : RbacCfg ι) : Prop where
  inFlight : EditsInFlight r roleIds c'
  next : c.next i = some .commit
  before : Editing c i
  after : ∀ k, Editing c' k → Editing c k ∧ k ≠ i
  committed : (edited c' i).committed = true
  read : (edited c' i).read = (edited c i).read
  others : ∀ k, k ≠ i → edited c' k = edited c k
  tables : ∃ names, (edited c i).read = some names ∧
    ∀ m, c'.shared.db.Carries r m ↔ (edits i).change (· ∈ names) m

/-- A call before the commit is quiet. -/
theorem quiet_call (h : EditsInFlight r roleIds c) {i : ι} {commitFails : Bool} {o : RbacOp}
    {k : o.Res → RbacAct (Option RoleOutput)} (ht : c.threads i = .running (.call o k))
    (hal : (edited c i).Allowed r (edits i) o) (ho : o ≠ .commit) (hwait : ¬ c.shared.Waits i o) :
    Quiet roleIds r c (Machine.afterCall c i o (answer env commitFails i o c.shared).1
      (k (answer env commitFails i o c.shared).1) (answer env commitFails i o c.shared).2) := by
  have hed : Editing c i := ⟨⟨_, ht⟩, hal.1⟩
  have hown := h.isOpen i hed
  refine ⟨h.call ht hal ho hwait, fun j hj => ?_, answer_db ho, fun j => ?_, fun j => ?_⟩
  · by_cases hji : j = i
    · exact hji ▸ hed
    · obtain ⟨⟨p, hp⟩, hended⟩ := hj
      rw [edited_afterCall_ne hji] at hended
      exact ⟨⟨p, by simpa [Machine.afterCall, hji] using hp⟩, hended⟩
  · by_cases hji : j = i
    · subst hji
      rw [edited_afterCall_self]
      exact (EditLog.note_ended ho _).2
    · rw [edited_afterCall_ne hji]
  · by_cases hji : j = i
    · subst hji
      rw [edited_afterCall_self]
      by_cases hread : o = .permissionsOf r
      · subst hread
        obtain ⟨-, -, -, hnone, hknown, hlocked⟩ := hal
        refine Or.inr ⟨hnone, _, rfl, fun m => ?_⟩
        -- nothing written yet: the request sees the committed tables
        have hview : c.shared.view j = c.shared.db := by
          rw [RbacWorld.view]
          exact (congrArg (RowLocks.view RbacDb.apply c.shared.db)
            (hown.fresh hlocked hknown)).trans rfl
        rw [RbacDb.carries_iff, List.mem_map]
        change (∃ row ∈ (c.shared.view j).permissionsOf r, row.name = m) ↔ _
        rw [hview]
      · refine Or.inl (EditLog.note_read (fun r' hr' => ?_) _)
        subst hr'
        exact hread (congrArg RbacOp.permissionsOf hal.2.1)
    · exact Or.inl (by rw [edited_afterCall_ne hji])

/-- Asking for the commit ends a request, and no other one. -/
theorem afterCommit_editing {i : ι} (c : RbacCfg ι) (x : Except RbacError Unit)
    (p : RbacAct (Option RoleOutput)) (w : RbacWorld ι) :
    ¬ Editing (Machine.afterCall c i .commit x p w) i ∧ ∀ j, j ≠ i →
      (Editing (Machine.afterCall c i .commit x p w) j ↔ Editing c j) ∧
        edited (Machine.afterCall c i .commit x p w) j = edited c j := by
  refine ⟨?_, fun j hj => ?_⟩
  · rintro ⟨-, hended⟩
    rw [edited_afterCall_self] at hended
    cases x <;> exact absurd hended (by simp [EditLog.note])
  · have hthread : (Machine.afterCall c i .commit x p w).threads j = c.threads j := by
      simp [Machine.afterCall, hj]
    exact ⟨by rw [Editing, Editing, hthread, edited_afterCall_ne hj], edited_afterCall_ne hj ..⟩

/-- A commit the database refuses is quiet. -/
theorem quiet_commit (h : EditsInFlight r roleIds c) {i : ι} (p : RbacAct (Option RoleOutput))
    (hed : Editing c i) (err : RbacError) :
    Quiet roleIds r c (Machine.afterCall c i .commit (.error err) p (c.shared.rollback i)) := by
  obtain ⟨hself, hothers⟩ := afterCommit_editing c (.error err) p (c.shared.rollback i)
  refine ⟨h.abandon rfl hself hothers, fun j hj => ?_, rfl, fun j => ?_, fun j => Or.inl ?_⟩
  · by_cases hji : j = i
    · exact hji ▸ hed
    · exact (hothers j hji).1.mp hj
  · by_cases hji : j = i
    · subst hji
      rw [edited_afterCall_self]
      rfl
    · rw [(hothers j hji).2]
  · by_cases hji : j = i
    · subst hji
      rw [edited_afterCall_self]
      rfl
    · rw [(hothers j hji).2]

/-- A commit the database accepts. -/
theorem commits_of_call (h : EditsInFlight r roleIds c) {i : ι}
    {k : Except RbacError Unit → RbacAct (Option RoleOutput)} (p : RbacAct (Option RoleOutput))
    (ht : c.threads i = .running (.call RbacOp.commit k))
    (hal : (edited c i).Allowed r (edits i) .commit) :
    Commits roleIds r edits i c (Machine.afterCall c i .commit (.ok ()) p (c.shared.commit i)) := by
  have hed : Editing c i := ⟨⟨_, ht⟩, hal.1⟩
  obtain ⟨hself, hothers⟩ := afterCommit_editing c (.ok ()) p (c.shared.commit i)
  refine ⟨h.commit hed hal.2 rfl hself hothers, Config.next_eq_some.mpr ⟨k, ht⟩, hed,
    fun j hj => ?_, ?_, ?_, fun j hj => (hothers j hj).2, (h.isOpen i hed).commit hal.2⟩
  · have hji : j ≠ i := fun hji => hself (hji ▸ hj)
    exact ⟨(hothers j hji).1.mp hj, hji⟩
  · rw [edited_afterCall_self]
    rfl
  · rw [edited_afterCall_self]
    rfl

variable [Fintype ι]

/-- A row that is found is the one that was asked for. -/
theorem rbac_answers (env : Env) : (rbacMachine env ι).Answers rbacPossible := by
  intro commitFails i o w x w' he
  simp only [rbacMachine] at he
  split at he
  · cases he
  · obtain ⟨rfl, -⟩ := Prod.mk.inj (Option.some.inj he)
    cases o with
    | roleById r => exact fun row hrow => Keyed.key_of_lookup hrow
    | permissionByName n => exact fun row hrow => Keyed.key_of_lookup hrow
    | _ => trivial

/-- A request that leaves is quiet. -/
theorem quiet_exit (h : EditsInFlight r roleIds c) (i : ι) (x : Except RbacError (Option RoleOutput)) :
    Quiet roleIds r c (Machine.afterExit (rbacMachine env ι) c i x) := by
  have hself : ¬ Editing (Machine.afterExit (rbacMachine env ι) c i x) i := by
    rintro ⟨⟨p, hp⟩, -⟩
    simp [Machine.afterExit] at hp
  have hothers : ∀ j, j ≠ i → (Editing (Machine.afterExit (rbacMachine env ι) c i x) j ↔ Editing c j) ∧
      edited (Machine.afterExit (rbacMachine env ι) c i x) j = edited c j := by
    intro j hj
    have hthread : (Machine.afterExit (rbacMachine env ι) c i x).threads j = c.threads j := by
      simp [Machine.afterExit, hj]
    exact ⟨by rw [Editing, Editing, hthread]; rfl, rfl⟩
  refine ⟨h.abandon rfl hself hothers, fun j hj => ?_, rfl, fun _ => rfl, fun _ => Or.inl rfl⟩
  have hji : j ≠ i := fun hji => hself (hji ▸ hj)
  exact (hothers j hji).1.mp hj

/-- **Everything a step of concurrent edits can do**: it is quiet, or one of them commits. -/
theorem edits_step (h : EditsInFlight r roleIds c) (hob : EditsObey r edits c) {l : Label ι Bool ℕ}
    (hs : (rbacMachine env ι).step c l = some c') :
    Quiet roleIds r c c' ∨ ∃ i, l = .act i false ∧ Commits roleIds r edits i c c' := by
  rcases Machine.step_cases hs with ⟨i, ch, o, k, x, w', rfl, ht, he, rfl⟩ |
    ⟨i, ch, x, rfl, ht, rfl⟩ | ⟨d, rfl, rfl⟩
  · simp only [rbacMachine] at he
    split at he
    · cases he
    · rename_i hwait
      obtain ⟨rfl, rfl⟩ := Prod.mk.inj (Option.some.inj he)
      have hal : (edited c i).Allowed r (edits i) o := (hob.running ht).1
      by_cases ho : o = .commit
      · subst ho
        cases ch with
        | true => exact Or.inl (quiet_commit h _ ⟨⟨_, ht⟩, hal.1⟩ _)
        | false => exact Or.inr ⟨i, rfl, commits_of_call h _ ht hal⟩
      · exact Or.inl (quiet_call h ht hal ho hwait)
  · exact Or.inl (quiet_exit h i x)
  · exact Or.inl ⟨⟨h.exclusive, h.ids, h.closed, h.isOpen⟩, fun _ => id, rfl, fun _ => rfl,
      fun _ => Or.inl rfl⟩

/-- Nobody has committed yet. -/
def NoneCommitted (c : RbacCfg ι) : Prop := ∀ k, (edited c k).committed = false

/-- **Until somebody commits** the tables are those of the start, and what a request has read of
the role is what they hold. -/
theorem before_first_commit (hw : ∀ k, w.txs k = {}) (hwf : w.db.WellFormed)
    (h : (rbacMachine env ι).Reach Machine.anyStep (startEdits r edits w) c) :
    EditsInFlight r (w.db.roles.map RoleRow.id) c ∧ EditsObey r edits c ∧
      (NoneCommitted c → c.shared.db = w.db ∧ ∀ k names, (edited c k).read = some names →
        ∀ m, m ∈ names ↔ w.db.Carries r m) := by
  have hpending : ∀ k, w.pending k = [] := fun k => by rw [RbacWorld.pending, hw k]
  induction h with
  | refl =>
      refine ⟨⟨fun i j _ k hk => ?_, rfl, fun k _ => hpending k, fun k _ => ?_⟩,
        startEdits_obey r edits w, fun _ => ⟨rfl, fun k names h => absurd h (by simp [edited, editLog, startEdits, Config.start])⟩⟩
      · change RowLocks.Holds _ (w.pending i) k at hk
        rw [hpending i] at hk
        exact absurd hk RowLocks.not_holds_nil
      · change OpenEdit r _ w.db (w.pending k) {}
        rw [hpending k]
        exact OpenEdit.start hwf.permissionIds
  | tail _ _ hs ih =>
      obtain ⟨hin, hob, hfirst⟩ := ih
      rcases edits_step hin hob hs with hq | ⟨i, -, hc⟩
      · refine ⟨hq.inFlight, Machine.step_obeys (rbac_answers env) hob hs, fun hnone => ?_⟩
        obtain ⟨hdb, hread⟩ := hfirst fun k => (hq.committed k).symm.trans (hnone k)
        refine ⟨hq.db.trans hdb, fun k names hn => ?_⟩
        rcases hq.read k with hsame | ⟨-, names', hn', hnames'⟩
        · exact hread k names (hsame.symm.trans hn)
        · obtain rfl := Option.some.inj (hn'.symm.trans hn)
          rw [← hdb]
          exact hnames'
      · refine ⟨hc.inFlight, Machine.step_obeys (rbac_answers env) hob hs, fun hnone => ?_⟩
        exact absurd ((hnone i).symm.trans hc.committed) (by simp)

/-- What request `j` has read, since the tables were `d`: what it had read before, or what they
hold. -/
def ReadSince (r : Uuid) (d : RbacDb) (before : Option (List String)) (names : List String) : Prop :=
  before = some names ∨ before = none ∧ ∀ m, m ∈ names ↔ d.Carries r m

/-- **After the first commit** of two, the other request decides: when it has committed, the role
carries the names it has read, with its change. -/
theorem after_first_commit {i j : ι} (hcover : ∀ k, k = i ∨ k = j) {c₂ : RbacCfg ι}
    (hin : EditsInFlight r roleIds c₂) (hob : EditsObey r edits c₂) (hi : ¬ Editing c₂ i)
    (hj : (edited c₂ j).committed = false)
    (h : (rbacMachine env ι).Reach Machine.anyStep c₂ c) :
    EditsInFlight r roleIds c ∧ EditsObey r edits c ∧ ¬ Editing c i ∧
      ((edited c j).read = none → (edited c₂ j).read = none) ∧
      ((edited c j).committed = false → c.shared.db = c₂.shared.db ∧
        ∀ names, (edited c j).read = some names →
          ReadSince r c₂.shared.db (edited c₂ j).read names) ∧
      ((edited c j).committed = true → ∃ names, ReadSince r c₂.shared.db (edited c₂ j).read names ∧
        ∀ m, c.shared.db.Carries r m ↔ (edits j).change (· ∈ names) m) := by
  induction h with
  | refl =>
      exact ⟨hin, hob, hi, id, fun _ => ⟨rfl, fun names hn => Or.inl hn⟩,
        fun hc => absurd (hj.symm.trans hc) (by simp)⟩
  | @tail c c' l _ _ hs ih =>
      obtain ⟨hin, hob, hi, hnone, hopen, hdone⟩ := ih
      have hob' := Machine.step_obeys (rbac_answers env) hob hs
      rcases edits_step hin hob hs with hq | ⟨k, -, hc⟩
      · refine ⟨hq.inFlight, hob', fun hed => hi (hq.editing i hed), fun hn => ?_, fun hcj => ?_,
          fun hcj => ?_⟩
        · rcases hq.read j with hsame | ⟨hn', -⟩
          · exact hnone (hsame.symm.trans hn)
          · exact hnone hn'
        · obtain ⟨hdb, hread⟩ := hopen ((hq.committed j).symm.trans hcj)
          refine ⟨hq.db.trans hdb, fun names hn => ?_⟩
          rcases hq.read j with hsame | ⟨hn', names', hn'', hnames'⟩
          · exact hread names (hsame.symm.trans hn)
          · obtain rfl := Option.some.inj (hn''.symm.trans hn)
            exact Or.inr ⟨hnone hn', hdb ▸ hnames'⟩
        · rw [hq.db]
          exact hdone ((hq.committed j).symm.trans hcj)
      · obtain rfl : k = j := (hcover k).resolve_left fun hk => hi (hk ▸ hc.before)
        have hcj : (edited c k).committed = false := by
          by_contra hne
          rw [Bool.not_eq_false] at hne
          exact absurd (hc.before.2.symm.trans (editLog_ended _ hne)) (by simp)
        obtain ⟨hdb, hread⟩ := hopen hcj
        obtain ⟨names, hn, hnames⟩ := hc.tables
        exact ⟨hc.inFlight, hob', fun hed => hi (hc.after i hed).1,
          fun hn' => hnone (hc.read.symm.trans hn'),
          fun hcj' => absurd (hcj'.symm.trans hc.committed) (by simp),
          fun _ => ⟨names, hdb ▸ hread names hn, hnames⟩⟩

end Runs

/-! ### Whether both changes survive -/

theorem withName_congr {b : Bool} {n : String} {P Q : String → Prop} (h : ∀ m, P m ↔ Q m)
    (m : String) : withName b n P m ↔ withName b n Q m := by
  rw [withName, withName, h m]

/-- Changes of different names commute. -/
theorem withName_comm {b b' : Bool} {n n' : String} (hne : n ≠ n') (P : String → Prop)
    (m : String) : withName b n (withName b' n' P) m ↔ withName b' n' (withName b n P) m := by
  simp only [withName]
  by_cases hn : m = n
  · subst hn
    simp [hne]
  · simp [hn]

/-- A change of another name is visible unless it changes nothing. -/
theorem withName_absorbed {b b' : Bool} {n n' : String} (hne : n ≠ n') (P : String → Prop) :
    (∀ m, withName b' n' P m ↔ withName b n (withName b' n' P) m) ↔ (P n ↔ b = true) := by
  constructor
  · intro h
    have := h n
    simpa [withName, hne] using this
  · intro h m
    simp only [withName]
    by_cases hn : m = n
    · subst hn
      simpa [hne] using h
    · simp [hn]

section TwoEdits

variable {env : Env} {r : Uuid} {edits : Fin 2 → RoleEdit} {w : RbacWorld (Fin 2)}
variable {ls : List (Label (Fin 2) Bool ℕ)} {c : RbacCfg (Fin 2)}

/-- Edit `i` changes nothing in the tables `db`. -/
def RoleEdit.Idle (e : RoleEdit) (db : RbacDb) (r : Uuid) : Prop :=
  db.Carries r e.permissionName ↔ e.present = true

/-- Of two edits, one commits before the other one has read the permissions of the role. -/
def Unraced (env : Env) (r : Uuid) (edits : Fin 2 → RoleEdit) (w : RbacWorld (Fin 2))
    (ls : List (Label (Fin 2) Bool ℕ)) : Prop :=
  ∃ i j ls₁ ls₂ c₁, i ≠ j ∧ ls = ls₁ ++ .act i false :: ls₂ ∧
    (rbacMachine env (Fin 2)).run (startEdits r edits w) ls₁ = some c₁ ∧
    c₁.next i = some .commit ∧ NoneCommitted c₁ ∧
    ((edited c₁ j).read = none ∨ (edits i).Idle w.db r)

/-- **The first commit of two edits**: both changes survive exactly if the other request had not
read the role yet, or there was no change to lose. -/
theorem kept_iff_of_first_commit (hw : ∀ k, w.txs k = {}) (hwf : w.db.WellFormed) {i j : Fin 2}
    (hij : i ≠ j) (hne : (edits i).permissionName ≠ (edits j).permissionName)
    {ls₁ ls₂ : List (Label (Fin 2) Bool ℕ)} {c₁ : RbacCfg (Fin 2)}
    (h₁ : (rbacMachine env (Fin 2)).run (startEdits r edits w) ls₁ = some c₁)
    (hnext : c₁.next i = some .commit) (hnone : NoneCommitted c₁)
    (h₂ : (rbacMachine env (Fin 2)).run c₁ (.act i false :: ls₂) = some c)
    (hj : (edited c j).committed = true) :
    (∀ m, c.shared.db.Carries r m ↔ (edits i).change ((edits j).change (w.db.Carries r)) m) ↔
      ((edited c₁ j).read = none ∨ (edits i).Idle w.db r) := by
  have hreach : ∀ {a b : RbacCfg (Fin 2)} {ls}, (rbacMachine env (Fin 2)).run a ls = some b →
      (rbacMachine env (Fin 2)).Reach Machine.anyStep a b :=
    fun h => Machine.reach_of_run (Machine.runsWith_any _ _ _) h
  obtain ⟨hin, hob, hfirst⟩ := before_first_commit hw hwf (hreach h₁)
  obtain ⟨hdb₁, hread₁⟩ := hfirst hnone
  obtain ⟨c₂, hs, hrest⟩ := Option.bind_eq_some_iff.mp h₂
  -- the commit of request `i`
  obtain ⟨k, ht⟩ := Config.next_eq_some.mp hnext
  have hal : (edited c₁ i).Allowed r (edits i) .commit := (hob.running ht).1
  have hexec : (rbacMachine env (Fin 2)).exec false i .commit c₁.shared =
      some (answer env false i .commit c₁.shared) := by
    simp only [rbacMachine]
    exact if_neg id
  obtain rfl := Option.some.inj ((Machine.step_call ht hexec).symm.trans hs)
  have hc := commits_of_call hin (k (.ok ())) ht hal
  obtain ⟨names, hn, hnames⟩ := hc.tables
  have htables : ∀ m, (c₁.shared.commit i).db.Carries r m ↔ (edits i).change (w.db.Carries r) m :=
    fun m => (hnames m).trans (withName_congr (hread₁ i names hn) m)
  -- what request `j` makes of it
  have hcover : ∀ k : Fin 2, k = i ∨ k = j := by
    intro k
    omega
  have hother := hc.others j (Ne.symm hij)
  obtain ⟨-, -, -, -, -, hdone⟩ := after_first_commit hcover hc.inFlight
    (Machine.step_obeys (rbac_answers env) hob hs) (fun hed => (hc.after i hed).2 rfl)
    ((congrArg EditLog.committed hother).trans (hnone j)) (hreach hrest)
  obtain ⟨names', hsince, hfinal⟩ := hdone hj
  rw [hother] at hsince
  rcases hsince with hbefore | ⟨hunread, hnames'⟩
  · -- it had read the role before, so the change of `i` is not among the names it wrote
    have hj' : ∀ m, c.shared.db.Carries r m ↔ (edits j).change (w.db.Carries r) m :=
      fun m => (hfinal m).trans (withName_congr (hread₁ j names' hbefore) m)
    have hsome : (edited c₁ j).read ≠ none := by rw [hbefore]; simp
    rw [or_iff_right hsome, RoleEdit.Idle, ← withName_absorbed hne]
    exact forall_congr' fun m => iff_congr (hj' m) Iff.rfl
  · refine ⟨fun _ => Or.inl hunread, fun _ m => ?_⟩
    calc c.shared.db.Carries r m ↔ (edits j).change (· ∈ names') m := hfinal m
      _ ↔ (edits j).change ((edits i).change (w.db.Carries r)) m :=
        withName_congr (fun m => (hnames' m).trans (htables m)) m
      _ ↔ (edits i).change ((edits j).change (w.db.Carries r)) m :=
        withName_comm (Ne.symm hne) _ m

/-- **When no change is lost**: two concurrent requests that put different permission names into a
role, or take them out, and both commit leave the initial names with both changes exactly if one
of them commits before the other has read the role, or changes nothing anyway. -/
theorem both_changes_kept_iff (hw : ∀ k, w.txs k = {}) (hwf : w.db.WellFormed)
    (hne : (edits 0).permissionName ≠ (edits 1).permissionName)
    (h : (rbacMachine env (Fin 2)).run (startEdits r edits w) ls = some c)
    (hboth : ∀ k, (edited c k).committed = true) :
    (∀ m, c.shared.db.Carries r m ↔ (edits 0).change ((edits 1).change (w.db.Carries r)) m) ↔
      Unraced env r edits w ls := by
  have hnames : ∀ i j : Fin 2, i ≠ j → (edits i).permissionName ≠ (edits j).permissionName ∧
      ∀ m, (edits i).change ((edits j).change (w.db.Carries r)) m ↔
        (edits 0).change ((edits 1).change (w.db.Carries r)) m := by
    intro i j hij
    match i, j with
    | 0, 0 => exact absurd rfl hij
    | 0, 1 => exact ⟨hne, fun _ => Iff.rfl⟩
    | 1, 0 => exact ⟨Ne.symm hne, withName_comm (Ne.symm hne) _⟩
    | 1, 1 => exact absurd rfl hij
  constructor
  · intro hkept
    have hstart : NoneCommitted (startEdits r edits w) := fun _ => rfl
    have hend : ¬ NoneCommitted c := fun hn => absurd ((hn 0).symm.trans (hboth 0)) (by simp)
    obtain ⟨ls₁, l, ls₂, c₁, c₂, rfl, h₁, hn₁, hs, hn₂, h₂⟩ :=
      Machine.exists_first_step (P := fun c => ¬ NoneCommitted c) h (not_not.mpr hstart) hend
    have hn₁ := not_not.mp hn₁
    obtain ⟨hin, hob, -⟩ := before_first_commit hw hwf
      (Machine.reach_of_run (Machine.runsWith_any _ _ _) h₁)
    rcases edits_step hin hob hs with hq | ⟨i, rfl, hc⟩
    · exact absurd (fun k => (hq.committed k).trans (hn₁ k)) hn₂
    · obtain ⟨j, hij⟩ : ∃ j : Fin 2, i ≠ j := ⟨1 - i, by omega⟩
      have hrun : (rbacMachine env (Fin 2)).run c₁ (.act i false :: ls₂) = some c :=
        Option.bind_eq_some_iff.mpr ⟨c₂, hs, h₂⟩
      refine ⟨i, j, ls₁, ls₂, c₁, hij, rfl, h₁, hc.next, hn₁, ?_⟩
      refine (kept_iff_of_first_commit hw hwf hij (hnames i j hij).1 h₁ hc.next hn₁ hrun
        (hboth j)).mp fun m => ?_
      rw [(hnames i j hij).2 m]
      exact hkept m
  · rintro ⟨i, j, ls₁, ls₂, c₁, hij, rfl, h₁, hnext, hnone, hcond⟩ m
    rw [Machine.run_append, h₁, Option.bind_some] at h
    rw [← (hnames i j hij).2 m]
    exact (kept_iff_of_first_commit hw hwf hij (hnames i j hij).1 h₁ hnext hnone h (hboth j)).mpr
      hcond m

end TwoEdits

namespace Reference

/-- A role that carries no permission yet. -/
def editorRole : RoleRow := ⟨0x5a7b3c1d9e0f4a62b8d3000000000021, "editor", none⟩

/-- The permission `users:read`. -/
def readRow : PermissionRow := ⟨0x5a7b3c1d9e0f4a62b8d3000000000031, "users:read", none⟩

/-- The permission `users:write`. -/
def writeRow : PermissionRow := ⟨0x5a7b3c1d9e0f4a62b8d3000000000032, "users:write", none⟩

/-- The role and both permissions are stored, and no request is in flight. -/
def editorWorld : RbacWorld (Fin 2) where
  db := { permissions := [readRow, writeRow], roles := [editorRole] }
  txs _ := {}
  clock := clock
  rng := 0

/-- Two requests that add one permission each. -/
def bothAdd : Fin 2 → RoleEdit
  | 0 => ⟨"users:read", true⟩
  | 1 => ⟨"users:write", true⟩

/-- The two requests one after the other. -/
def oneAfterTheOther : List (Label (Fin 2) Bool ℕ) :=
  List.replicate 10 (.act 0 false) ++ List.replicate 10 (.act 1 false)

/-- Both requests read the permissions of the role before either of them writes. -/
def bothReadFirst : List (Label (Fin 2) Bool ℕ) :=
  List.replicate 2 (.act 0 false) ++ List.replicate 2 (.act 1 false) ++
    List.replicate 8 (.act 0 false) ++ List.replicate 9 (.act 1 false)

theorem editorWorld_wellFormed : editorWorld.db.WellFormed := by
  constructor <;> decide +kernel

end Reference

open Reference

/-- One after the other, the two requests leave both permissions: the second one reads the role
after the first one has committed. -/
theorem both_additions_kept :
    ∃ c, (rbacMachine Reference.env (Fin 2)).run (startEdits editorRole.id bothAdd editorWorld)
        oneAfterTheOther = some c ∧
      (∀ k, (edited c k).committed = true) ∧
      ∀ m, c.shared.db.Carries editorRole.id m ↔
        (bothAdd 0).change ((bothAdd 1).change (editorWorld.db.Carries editorRole.id)) m := by
  obtain ⟨c₁, c, h₁, h₂, ⟨hnext, hnone, hread⟩, hboth⟩ :=
    Machine.exists_run_run (M := rbacMachine Reference.env (Fin 2))
      (c := startEdits editorRole.id bothAdd editorWorld) (l := List.replicate 8 (.act 0 false))
      (k := .act 0 false :: .act 0 false :: List.replicate 10 (.act 1 false))
      (P := fun c => atCommit c 0 = true ∧ (∀ k, (edited c k).committed = false) ∧
        (edited c 1).read = none)
      (Q := fun c => ∀ k, (edited c k).committed = true) (by decide +kernel)
  have hnext : c₁.next 0 = some .commit := atCommit_iff.mp hnext
  have hrun : (rbacMachine Reference.env (Fin 2)).run (startEdits editorRole.id bothAdd editorWorld)
      oneAfterTheOther = some c := by
    have hsplit : oneAfterTheOther = List.replicate 8 (.act 0 false) ++
        .act 0 false :: .act 0 false :: List.replicate 10 (.act 1 false) := rfl
    rw [hsplit, Machine.run_append, h₁]
    exact h₂
  exact ⟨c, hrun, hboth, (both_changes_kept_iff (fun _ => rfl) editorWorld_wellFormed (by decide)
    hrun hboth).mpr ⟨0, 1, _, _, c₁, by decide, rfl, h₁, hnext, hnone, Or.inl hread⟩⟩

/-- **An addition is lost**: both requests read that the role carries nothing, both commit, and
the one that commits last takes the permission of the other one out again. -/
theorem addition_lost :
    editorWorld.db.WellFormed ∧
      ∃ c, (rbacMachine Reference.env (Fin 2)).run (startEdits editorRole.id bothAdd editorWorld)
          bothReadFirst = some c ∧
        (∀ k, (edited c k).committed = true) ∧
        (∀ k, ∃ out, c.threads k = .done (.ok out)) ∧
        ¬ ∀ m, c.shared.db.Carries editorRole.id m ↔
          (bothAdd 0).change ((bothAdd 1).change (editorWorld.db.Carries editorRole.id)) m := by
  refine ⟨editorWorld_wellFormed, ?_⟩
  obtain ⟨c, hrun, ⟨hboth, hdone⟩, hlost⟩ :=
    Machine.exists_run (M := rbacMachine Reference.env (Fin 2))
      (c := startEdits editorRole.id bothAdd editorWorld) (l := bothReadFirst)
      (P := fun c => ((∀ k, (edited c k).committed = true) ∧ ∀ k, c.succeeded k = true) ∧
        ¬ c.shared.db.Carries editorRole.id "users:read") (by decide +kernel)
  refine ⟨c, hrun, hboth, fun k => ?_, fun h => hlost ((h _).mpr ?_)⟩
  · obtain ⟨out, hout⟩ := Config.succeeded_iff.mp (hdone k)
    exact ⟨out, Config.result_eq_some.mp hout⟩
  · simp [RoleEdit.change, withName, bothAdd]

end BackendTemplate
