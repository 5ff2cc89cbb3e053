import BackendTemplate.Identities

/-!
# Users Written and Read Back

Twenty-two columns are mapped by hand from a `User` to its row and back. A user that
`SQLAlchemyUserRepo.add` or `update` has written is read back by `acquire_by_id` as it was, at the
version the statement set, by the request that wrote it and by every request after its commit; no
other row of the table changes.

## Main results

* `user_insert`, `user_update` — a row that was written is the one under its id.
* `user_rows_lossless` — the two writes of the repository.
-/

namespace BackendTemplate

variable {env : Env} {db : Db} {row : UserRow} {u : User}

/-- The rows of the users table under every id but one. -/
def Db.usersBut (db : Db) (x : Uuid) : List UserRow := db.users.filter fun r => r.id ≠ x

/-! ### One statement -/

/-- Looking a user up by id is looking the row up by its key. -/
theorem acquireUser_of_lookup {x : Uuid} (h : db.user x = some row) :
    db.acquireUser env (.id x) = (rowToUser env row).map some := by
  rw [Db.acquireUser]
  rw [Db.user, Keyed.lookup] at h
  simp only [show (UserQuery.id x).selects = fun r => decide (r.id = x) from rfl, h]

/-- A row that was inserted is the one under its id. -/
theorem user_insert (h : db.admits (.userInsert row) = true) :
    (db.apply (.userInsert row)).user row.id = some row := by
  have hnone : db.user row.id = none := by
    rw [Db.user, Keyed.lookup_eq_none, List.mem_map]
    rintro ⟨r, hr, hid⟩
    rw [Db.admits, Bool.not_eq_true', List.any_eq_false] at h
    exact h r hr (by simp [hid])
  rw [apply_user, hnone]
  exact if_pos rfl

/-- A row that was updated is the one under its id. -/
theorem user_update (h : ∃ r ∈ db.users, r.id = row.id) :
    (db.apply (.userUpdate row)).user row.id = some row := by
  obtain ⟨r, hr, hid⟩ := h
  obtain ⟨r', hr'⟩ := Keyed.exists_lookup UserRow.id hr
  rw [apply_user, show db.user row.id = some r' from hid ▸ hr']
  exact if_pos rfl

/-- An insertion leaves the rows under other ids. -/
theorem usersBut_insert : (db.apply (.userInsert row)).usersBut row.id = db.usersBut row.id := by
  rw [Db.usersBut, Db.usersBut]
  change (db.users ++ [row]).filter _ = _
  rw [List.filter_append]
  simp

/-- An update leaves the rows under other ids. -/
theorem usersBut_update : (db.apply (.userUpdate row)).usersBut row.id = db.usersBut row.id := by
  rw [Db.usersBut, Db.usersBut]
  change (db.users.map fun r => if r.id = row.id then row else r).filter _ = _
  refine Keyed.filter_map_of_left_out fun r => ?_
  by_cases hid : r.id = row.id
  · rw [if_pos hid]
    exact Or.inr ⟨by simpa using hid, by simp⟩
  · exact Or.inl (if_neg hid)

/-! ### The two writes -/

section Worlds

variable {ι : Type} [DecidableEq ι] {i : ι} {w w' : World ι}

/-- **A user is stored** in the tables of a request: `acquire_by_id` returns it at a version, before
and after the commit, and the rows under other ids are those of some tables before. -/
structure StoredIn (env : Env) (w' : World ι) (i : ι) (before : Db) (u : User) (version : ℕ) :
    Prop where
  read : (w'.view i).acquireUser env (.id u.id.value) = .ok (some (u.stored version))
  others : (w'.view i).usersBut u.id.value = before.usersBut u.id.value
  committed : (w'.commit env i).db.acquireUser env (.id u.id.value) =
    .ok (some (u.stored version))
  othersCommitted : (w'.commit env i).db.usersBut u.id.value = before.usersBut u.id.value

/-- What the request sees, a commit makes the state. -/
theorem StoredIn.of_view {version : ℕ}
    (hread : (w'.view i).user u.id.value = some (userToValues env w.rng u version))
    (hothers : (w'.view i).usersBut u.id.value = (w.view i).usersBut u.id.value) :
    StoredIn env w' i (w.view i) u version := by
  have hread' : (w'.commit env i).db.user u.id.value = some (userToValues env w.rng u version) :=
    (commit_user env w' i _).trans hread
  have hothers' : (w'.commit env i).db.usersBut u.id.value = (w'.view i).usersBut u.id.value := by
    rw [Db.usersBut, Db.usersBut, (commit_tables env w' i).1]
  have hok := rowToUser_userToValues env w.rng u version
  refine ⟨?_, hothers, ?_, hothers'.trans hothers⟩
  · rw [acquireUser_of_lookup hread, hok]
    rfl
  · rw [acquireUser_of_lookup hread', hok]
    rfl

/-- **The row mapping of users is lossless.** A user that `add` or `update` has written is read back
by `acquire_by_id` equal to it in every field, at version 0 after `add` and at the next version after
`update`, which the aggregate has then as well; and every other row of the table is unchanged. -/
theorem user_rows_lossless [Fintype ι] (env : Env) (ch : Choice) (i : ι) (w w' : World ι)
    (u : User) :
    (exec env ch i (.addUser u) w = some (.ok (), w') → StoredIn env w' i (w.view i) u 0) ∧
      ∀ u', exec env ch i (.updateUser u) w = some (.ok u', w') →
        u' = { u with version := u.version + 1 } ∧
          StoredIn env w' i (w.view i) u (u.version + 1) := by
  constructor
  · intro h
    rw [exec] at h
    rcases execWrites_cases h with ⟨hx, -⟩ | ⟨-, -, hadmits, rfl⟩
    · cases hx
    · have hadmits : (w.view i).admits (.userInsert (userToValues env w.rng u 0)) = true :=
        (Bool.and_eq_true_iff.mp hadmits).1
      refine StoredIn.of_view ?_ ?_
      · rw [view_issue_draw]
        exact user_insert hadmits
      · rw [view_issue_draw]
        exact usersBut_insert
  · intro u' h
    rcases exec_updateUser h with ⟨e, hx, -⟩ | ⟨hx, ⟨r, hr, hid, -⟩, -, rfl⟩
    · cases hx
    · refine ⟨Except.ok.inj hx, StoredIn.of_view ?_ ?_⟩
      · rw [view_issue_draw]
        exact user_update ⟨r, hr, hid⟩
      · rw [view_issue_draw]
        exact usersBut_update

end Worlds

open Reference

theorem passwordHash_ne_nil : ([1] : Bytes) ≠ [] := by decide

/-- An account with everything there is: locked for a while, its address verified, a password reset
asked for, and a second factor with two recovery codes. -/
def bob : User where
  id := ⟨0x2c9e1f705b3d4e88a1c40000000000b2, by decide⟩
  username := ⟨"bob_2", rfl⟩
  email := ⟨some "bob@example.com", rfl⟩
  hashedPassword := ⟨[1], passwordHash_ne_nil⟩
  accountLock := ⟨true, some clock, some "guessing", 5, some (clock + seconds 900)⟩
  emailVerification := ⟨true, none, some clock, none⟩
  passwordResetToken := some ⟨⟨[2, 3], by decide⟩, some clock, some (clock + seconds 3600), true⟩
  twoFactorSecret := some ⟨seed, [⟨[4], by decide⟩, ⟨[0xab, 0], by decide⟩], some clock⟩

/-- The account, deleted. -/
def deletedBob : User := { bob with deletedAt := some clock }

/-- The account is added beside another one and read back; and it is deleted and read back. -/
theorem bob_is_read_back :
    (∃ w', exec Reference.env {} () (.addUser bob) (world Unit (tables (alice true) true)) =
        some (.ok (), w') ∧
      (w'.view ()).acquireUser Reference.env (.id bob.id.value) = .ok (some (bob.stored 0))) ∧
      ∃ u' w', exec Reference.env {} () (.updateUser deletedBob)
          (world Unit (tables (userToValues Reference.env 0 bob 0) false)) = some (.ok u', w') ∧
        (w'.view ()).acquireUser Reference.env (.id bob.id.value) =
          .ok (some (deletedBob.stored 1)) :=
  ⟨⟨_, rfl, ((user_rows_lossless Reference.env {} () (world Unit (tables (alice true) true)) _
      bob).1 rfl).read⟩,
    _, _, rfl, ((user_rows_lossless Reference.env {} ()
      (world Unit (tables (userToValues Reference.env 0 bob 0) false)) _ deletedBob).2 _ rfl).2.read⟩

end BackendTemplate
