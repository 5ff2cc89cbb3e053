import BackendTemplate.ApiScopes
import BackendTemplate.SecondFactor

/-!
# The Read Model of an Account

The queries about an account do not load the aggregate: `SQLAlchemyUserReader` takes what it needs
from the row, never decrypts the seed of the second factor, and decides for itself whether the
account is locked and whether its second factor is on. The commands load the row with
`_row_to_user` and ask the aggregate.

## Main results

* `getMe_agrees` — whatever the commands find under an id, `GetMeUseCase` answers with the same
  account.
* `Runs.getMe_committed` — what a request has committed is what `GetMeUseCase` answers from then on.
-/

namespace BackendTemplate

open Atomic

/-- `UserReadDTO`. -/
structure UserReadDTO where
  userId : Uuid
  username : String
  email : Option String
  isEmailVerified : Bool
  isLocked : Bool
  hasTwoFactor : Bool
deriving DecidableEq

/-- A row of `users`, as it is read. -/
def UserReadDTO.ofRow (now : Instant) (row : UserRow) : UserReadDTO :=
  let lockInfo : AccountLockInfo := { isLocked := row.isLocked, lockUntil := row.lockUntil }
  { userId := row.id
    username := row.username
    email := row.email
    isEmailVerified := row.isEmailVerified
    isLocked := lockInfo.isLockedOut now
    hasTwoFactor := row.twoFactorSecret.any (fun s => !s.isEmpty) && row.twoFactorEnabledAt.isSome }

/-- `SQLAlchemyUserReader.get_by_id`. -/
def SQLAlchemyUserReader.getById (now : Instant) (users : List UserRow) (userId : UserID) :
    Option UserReadDTO :=
  (users.find? fun row => row.id = userId.value).map (UserReadDTO.ofRow now)

/-- What `GetMeUseCase` makes of what it reads. -/
def GetMeOutput.ofDto (env : Env) (dto : UserReadDTO) : GetMeOutput where
  userId := env.uuidStr dto.userId
  username := dto.username
  email := dto.email
  isEmailVerified := dto.isEmailVerified
  isLocked := dto.isLocked
  hasTwoFactor := dto.hasTwoFactor

/-- **What there is to say of an account**, by its aggregate. -/
def UserReadDTO.ofUser (now : Instant) (u : User) : UserReadDTO where
  userId := u.id.value
  username := u.username.value
  email := u.email.value
  isEmailVerified := u.emailVerification.isVerified
  isLocked := u.isLocked now
  hasTwoFactor := u.hasTwoFactor

section Rows

variable {env : Env} {now : Instant} {row : UserRow} {u : User} {users : List UserRow}

/-- The lock is read from two of its five columns. -/
theorem isLockedOut_congr {l l' : AccountLockInfo} (hflag : l.isLocked = l'.isLocked)
    (huntil : l.lockUntil = l'.lockUntil) : l.isLockedOut now = l'.isLockedOut now := by
  rw [AccountLockInfo.isLockedOut, AccountLockInfo.isLockedOut, AccountLockInfo.lockWindowElapsed,
    AccountLockInfo.lockWindowElapsed, hflag, huntil]

/-- **A row and the aggregate loaded from it say the same of the account.** -/
theorem UserReadDTO.ofRow_loaded (h : rowToUser env row = .ok u) (now : Instant) :
    ofRow now row = ofUser now u := by
  obtain ⟨hid, -, hname, hemail, -⟩ := rowToUser_ok h
  have hlock : u.isLocked now =
      AccountLockInfo.isLockedOut { isLocked := row.isLocked, lockUntil := row.lockUntil } now := by
    rw [User.isLocked, rowToUser_lock h]
    exact isLockedOut_congr rfl rfl
  have hverified : u.emailVerification.isVerified = row.isEmailVerified := by
    simp only [rowToUser, except_bind_eq_ok, Except.ok.injEq] at h
    obtain ⟨_, -, _, -, _, -, _, -, _, -, _, -, _, -, rfl⟩ := h
    rfl
  rw [ofRow, ofUser, hid, hname, hemail, hlock, hverified, rowToUser_hasTwoFactor h,
    UserRow.hasTwoFactor]

/-- `GetMeUseCase` over the reader. -/
theorem getMe_eq (env : Env) (now : Instant) (users : List UserRow) (id : UserID) :
    getMe env now users id.value =
      match SQLAlchemyUserReader.getById now users id with
      | none => .error (.userNotFound (some id.value))
      | some dto => .ok (.ofDto env dto) := by
  rw [getMe, UserID.make_value, SQLAlchemyUserReader.getById]
  dsimp only [bind, Except.bind]
  cases users.find? fun row => row.id = id.value with
  | none => rfl
  | some row => rfl

/-- **The queries agree with the commands.** Whatever the commands find under an id, an account or
nobody, `GetMeUseCase` answers with what there is to say of it. -/
theorem getMe_agrees {db : Db} {id : UserID} {found : Option User}
    (h : db.acquireUser env (.id id.value) = .ok found) (now : Instant) :
    getMe env now db.users id.value =
      match found with
      | none => .error (.userNotFound (some id.value))
      | some u => .ok (.ofDto env (.ofUser now u)) := by
  rw [getMe_eq, SQLAlchemyUserReader.getById]
  have hselects : (UserQuery.id id.value).selects = fun row => decide (row.id = id.value) := rfl
  rw [Db.acquireUser, hselects] at h
  cases hfind : db.users.find? fun row => row.id = id.value with
  | none =>
      rw [hfind] at h
      obtain rfl := Except.ok.inj h
      rfl
  | some row =>
      rw [hfind] at h
      cases hrow : rowToUser env row with
      | error e =>
          simp only [hrow] at h
          cases h
      | ok u =>
          simp only [hrow] at h
          obtain rfl := Except.ok.inj h
          change Except.ok (GetMeOutput.ofDto env (.ofRow now row)) = _
          rw [UserReadDTO.ofRow_loaded hrow]

end Rows

/-! ### What was committed is read -/

section Alone

variable {env : Env} {r : Request} {w : World Unit} {c : Cfg Unit}

/-- The row of the user that a request has committed. -/
theorem Runs.committed_row (h : Runs env (fun _ => r) Machine.anyStep w c)
    (hw : Startable env w) (hc : (did c ()).committed = true) {u : User}
    (hu : (did c ()).userWrite = some u) :
    ∃ iv v, c.shared.db.user u.id.value = some (userToValues env iv u v) := by
  have hrun := h.alone
  clear h
  revert hc u
  refine hrun.induction (fun c => (did c ()).committed = true → ∀ {u},
    (did c ()).userWrite = some u →
      ∃ iv v, c.shared.db.user u.id.value = some (userToValues env iv u v)) ?_ ?_ ?_ ?_
  · exact fun hc => absurd hc (by simp)
  · intro c i ch o k y w' hr ih _ ht hal he hc u hu
    rw [did_afterCall_self] at hc hu
    rw [afterCall_shared]
    rcases of_note_committed hc with hold | rfl
    · -- nothing is written after the commit
      have ho : o ≠ .commit := by
        rintro rfl
        exact absurd (hal.1.symm.trans hold) (by simp)
      rw [(exec_db ho he).1]
      exact ih hold ((note_sameWrites _ (hal.no_write hold) y).1.symm.trans hu)
    · rcases exec_commit he with ⟨rfl, rfl⟩ | ⟨rfl, rfl⟩
      · exact absurd (hal.1.symm.trans hc) (by simp)
      · have ho := hr.isOpen hw ht hal.1
        have htr := hr.tracked hw
        obtain ⟨-, -, -, row, hrow, -⟩ := htr.written () _ ht hal.1 u hu
        rcases htr.commit_row ho ht hrow with ⟨-, hother⟩ | ⟨_, u', iv, hu', -, -, -, -, hview⟩
        · exact absurd rfl (hother u hu)
        · obtain rfl := Option.some.inj (hu.symm.trans hu')
          exact ⟨iv, row.version + 1, (commit_user env c.shared () _).trans hview⟩
  · exact fun c i ch x _ ih _ _ _ => ih
  · exact fun c d _ ih _ => ih

end Alone

end BackendTemplate
