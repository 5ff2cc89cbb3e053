import BackendTemplate.Tables
import BackendTemplate.Texts
import BackendTemplate.UserColumns

/-!
# Constraint Errors

Two accounts that are written at the same time both pass the checks for a free username and a free
address; the unique constraints of `users` refuse the later one, and `_uniqueness_error` says which
field was taken. It looks for the word "email" in what the driver says of the constraint: in its
name, if the driver has that in an attribute, or else in the whole message of the server. The
message quotes the value that is taken, so a username with the word in it is taken for an address.

`uniquenessError`, which the tables raise, is what is said when the driver names the constraint
(`uniquenessError_eq_of_violated`).

## Main results

* `occursIn_message_username` — where the word can be in the message on a username.
* `uniqueness_error_iff` — when the error names the field that was taken.
-/

namespace BackendTemplate

/-- The unique constraints of `users`. -/
inductive UserConstraint
  | username
  | email
deriving DecidableEq

namespace UserConstraint

/-- The column of the constraint. -/
def column : UserConstraint → String
  | .username => "username"
  | .email => "email"

/-- The name of the constraint: `uq_%(table_name)s_%(column_0_N_name)s`. -/
def name (c : UserConstraint) : String := "uq_users_" ++ c.column

/-- What an account has in the column. -/
def value (u : User) : UserConstraint → Option String
  | .username => some u.username.value
  | .email => u.email.value

/-- **The error that names the field** of the constraint. -/
def error (u : User) : UserConstraint → AppError
  | .username => .usernameAlreadyExists (some u.username.value)
  | .email => .emailAlreadyExists u.email.value

end UserConstraint

/-! ### The repository -/

/-- `exc.orig`: the driver's error, with the name of the constraint where it has the attribute, and
its text. -/
structure OrigError where
  constraintName : Option String
  text : String

/-- `str(getattr(exc.orig, 'constraint_name', '') or exc.orig or '')`. -/
def constraintText : Option OrigError → String
  | none => ""
  | some orig => if truthy orig.constraintName then orig.constraintName.getD "" else orig.text

/-- `_uniqueness_error`, of an error of the driver. -/
def uniquenessErrorOf (orig : Option OrigError) (u : User) : AppError :=
  let constraint := constraintText orig
  if occursIn "email" constraint then .emailAlreadyExists u.email.value
  else if occursIn "username" constraint then .usernameAlreadyExists (some u.username.value)
  else .usernameAlreadyExists (some u.username.value)

/-- `SQLAlchemyUserRepo.add`, over how the statement and the flush end. -/
def SQLAlchemyUserRepo.add (inserted : Except (Option OrigError) Unit) (u : User) :
    Except AppError Unit :=
  match inserted with
  | .ok () => .ok ()
  | .error orig => .error (uniquenessErrorOf orig u)

/-- `SQLAlchemyUserRepo.update`, over how the statement and the flush end: with a number of rows,
or with an error. -/
def SQLAlchemyUserRepo.update (updated : Except (Option OrigError) ℕ) (u : User) :
    Except AppError User :=
  match updated with
  | .ok rowcount =>
      if rowcount = 0 then .error (.concurrentModification (some u.id.value))
      else .ok { u with version := u.version + 1 }
  | .error orig => .error (uniquenessErrorOf orig u)

/-! ### What the driver says -/

/-- The message of the server on a constraint, with its detail. -/
def duplicateKeyText (c : UserConstraint) (value : String) : String :=
  "duplicate key value violates unique constraint \"" ++ c.name ++ "\"\nDETAIL:  Key (" ++
    c.column ++ ")=(" ++ value ++ ") already exists."

/-- **What the driver says of a constraint that an account violates**: the name, in the attribute;
or, without a name there, the message of the server, after words of its own (`lead`) that do not
speak of an email. -/
inductive Reports (c : UserConstraint) (u : User) : OrigError → Prop
  | named (text : String) : Reports c u ⟨some c.name, text⟩
  | message {lead value : String} {named : Option String} (hname : truthy named = false)
      (hlead : occursIn "email" lead = false) (hvalue : c.value u = some value) :
      Reports c u ⟨named, lead ++ duplicateKeyText c value⟩

/-- **The error names the field**, when the account is added and when it is updated. -/
def NamesField (c : UserConstraint) (u : User) (orig : OrigError) : Prop :=
  SQLAlchemyUserRepo.add (.error (some orig)) u = .error (c.error u) ∧
    SQLAlchemyUserRepo.update (.error (some orig)) u = .error (c.error u)

variable {c : UserConstraint} {u : User} {orig : OrigError}

/-- The error is decided by the one word. -/
theorem uniquenessErrorOf_eq (orig : Option OrigError) (u : User) :
    uniquenessErrorOf orig u =
      if occursIn "email" (constraintText orig) then UserConstraint.email.error u
      else UserConstraint.username.error u := by
  rw [uniquenessErrorOf]
  split
  · rfl
  · exact ite_self _

/-- The error names the field exactly when the word is found for an address and only then. -/
theorem namesField_iff :
    NamesField c u orig ↔ (occursIn "email" (constraintText (some orig)) = true ↔ c = .email) := by
  have hword : uniquenessErrorOf (some orig) u = c.error u ↔
      (occursIn "email" (constraintText (some orig)) = true ↔ c = .email) := by
    rw [uniquenessErrorOf_eq]
    cases c <;> split <;> simp_all [UserConstraint.error]
  rw [← hword, NamesField, SQLAlchemyUserRepo.add, SQLAlchemyUserRepo.update]
  constructor
  · rintro ⟨h, -⟩
    exact Except.error.inj h
  · intro h
    rw [h]
    exact ⟨rfl, rfl⟩

/-- The message, in its parts. -/
theorem toList_message (c : UserConstraint) (lead value : String) :
    (lead ++ duplicateKeyText c value).toList = lead.toList ++
      ("duplicate key value violates unique constraint \"".toList ++ (c.name.toList ++
        ("\"\nDETAIL:  Key (".toList ++ (c.column.toList ++ (")=(".toList ++ (value.toList ++
          ") already exists.".toList)))))) := by
  unfold duplicateKeyText
  simp only [String.toList_append, List.append_assoc]

/-- The message on an address has the word: in the name of the constraint. -/
theorem occursIn_message_email (lead value : String) :
    occursIn "email" (lead ++ duplicateKeyText .email value) = true := by
  have hname : occursIn "email" UserConstraint.email.name = true := by decide +kernel
  rw [occursIn_iff] at hname ⊢
  rw [toList_message]
  exact List.infix_append_of_infix_right (List.infix_append_of_infix_right
    (List.infix_append_of_infix_left hname))

/-- What the server writes before a username, from the second letter to the last but one. -/
def beforeUsername : String :=
  "uplicate key value violates unique constraint \"uq_users_username\"\nDETAIL:  Key (username)="

/-- The message on a username, cut at three characters that "email" does not have. -/
theorem toList_message_username (lead value : String) :
    (lead ++ duplicateKeyText .username value).toList =
      lead.toList ++ 'd' :: (beforeUsername.toList ++
        '(' :: (value.toList ++ ')' :: " already exists.".toList)) := by
  have hbefore : "duplicate key value violates unique constraint \"".toList ++
      (UserConstraint.username.name.toList ++ ("\"\nDETAIL:  Key (".toList ++
        (UserConstraint.username.column.toList ++ ")=(".toList))) =
      'd' :: (beforeUsername.toList ++ ['(']) := by
    decide +kernel
  have hafter : ") already exists.".toList = ')' :: " already exists.".toList := by decide +kernel
  rw [toList_message, hafter]
  have hparts := congrArg
    (fun t => lead.toList ++ (t ++ (value.toList ++ ')' :: " already exists.".toList))) hbefore
  simpa only [List.append_assoc, List.cons_append, List.nil_append] using hparts

/-- **The message on a username has the word** exactly when the words before it or the username
have it. -/
theorem occursIn_message_username (lead value : String) :
    occursIn "email" (lead ++ duplicateKeyText .username value) =
      (occursIn "email" lead || occursIn "email" value) := by
  have hbefore : ¬ "email".toList <:+: beforeUsername.toList := by
    rw [← occursIn_iff]
    decide
  have hafter : ¬ "email".toList <:+: " already exists.".toList := by
    rw [← occursIn_iff]
    decide
  rw [Bool.eq_iff_iff, Bool.or_eq_true, occursIn_iff, occursIn_iff, occursIn_iff,
    toList_message_username, infix_append_cons_iff (by decide), infix_append_cons_iff (by decide),
    infix_append_cons_iff (by decide)]
  simp only [hbefore, hafter, or_false, false_or]

theorem truthy_name (c : UserConstraint) : truthy (some c.name) = true := by
  cases c <;> decide +kernel

/-- The name of the constraint has the word for an address. -/
theorem occursIn_name (c : UserConstraint) : occursIn "email" c.name = true ↔ c = .email := by
  cases c <;> decide +kernel

/-- **A driver that names the constraint** is understood. -/
theorem namesField_named (c : UserConstraint) (u : User) (text : String) :
    NamesField c u ⟨some c.name, text⟩ := by
  rw [namesField_iff]
  simp only [constraintText, truthy_name, if_true, Option.getD_some, occursIn_name]

/-- **When a conflict names the right field.** For every account, whichever constraint it violates,
and whatever the driver says of it: both ways of writing the account raise the error of that
constraint if and only if the driver has the constraint's name in the attribute, or it is the one
on the address, or the username does not have "email" in it. -/
theorem uniqueness_error_iff (h : Reports c u orig) :
    NamesField c u orig ↔ truthy orig.constraintName = true ∨ c = .email ∨
      occursIn "email" u.username.value = false := by
  cases h with
  | named text => exact iff_of_true (namesField_named c u text) (.inl (truthy_name c))
  | message hname hlead hvalue =>
      rw [namesField_iff]
      simp only [constraintText, hname, Bool.false_eq_true, if_false, false_or]
      cases c with
      | email => simp only [occursIn_message_email, true_or]
      | username =>
          obtain rfl := Option.some.inj hvalue
          simp only [occursIn_message_username, hlead, Bool.false_or, reduceCtorEq, iff_false,
            Bool.not_eq_true, false_or]

/-- A second bob, with a driver that leaves the constraint to the message. -/
theorem bob_taken : NamesField .username bob
    ⟨none, "UniqueViolationError: " ++ duplicateKeyText .username "bob_2"⟩ :=
  (uniqueness_error_iff (.message rfl (by decide) rfl)).mpr (.inr (.inr (by decide)))

/-- An account with the word in its username. -/
def emailBob : User := { bob with username := ⟨"email_bob", rfl⟩ }

/-- With the word in it, a username that is taken is reported as an address that is taken: an
address which is free. -/
theorem username_taken_for_email :
    ¬ NamesField .username emailBob
        ⟨none, "UniqueViolationError: " ++ duplicateKeyText .username "email_bob"⟩ ∧
      SQLAlchemyUserRepo.add (.error (some ⟨none, "UniqueViolationError: " ++
        duplicateKeyText .username "email_bob"⟩)) emailBob =
          .error (.emailAlreadyExists (some "bob@example.com")) := by
  have hadd : SQLAlchemyUserRepo.add (.error (some ⟨none, "UniqueViolationError: " ++
      duplicateKeyText .username "email_bob"⟩)) emailBob =
        .error (.emailAlreadyExists (some "bob@example.com")) := by
    decide +kernel
  refine ⟨?_, hadd⟩
  rintro ⟨h, -⟩
  rw [hadd] at h
  cases h

/-! ### The error of the tables -/

/-- The constraint that an account would violate: the username of another one, or else its
address. -/
def Db.violated (db : Db) (u : User) : Option UserConstraint :=
  if db.users.any fun r => r.id ≠ u.id.value && r.username = u.username.value then some .username
  else if db.users.any fun r => r.id ≠ u.id.value && r.email.isSome && r.email = u.email.value then
    some .email
  else none

/-- **The error the tables raise** is the one for a driver that names the constraint. -/
theorem uniquenessError_eq_of_violated {db : Db} (h : db.violated u = some c) (text : String) :
    uniquenessError db u = uniquenessErrorOf (some ⟨some c.name, text⟩) u := by
  have hnamed : uniquenessErrorOf (some ⟨some c.name, text⟩) u = c.error u :=
    Except.error.inj (namesField_named c u text).1
  rw [hnamed, uniquenessError]
  rw [Db.violated] at h
  split at h
  · rename_i htaken
    obtain rfl := Option.some.inj h
    rw [if_pos htaken]
    rfl
  · rename_i hfree
    split at h
    · rename_i htaken
      obtain rfl := Option.some.inj h
      rw [if_neg hfree, if_pos htaken]
      rfl
    · cases h

end BackendTemplate
