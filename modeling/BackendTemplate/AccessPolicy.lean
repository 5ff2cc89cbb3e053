import BackendTemplate.SetMap

/-!
# Role-Based Access Policies

A policy says which permissions each role has and who has which role; it grants a user the
permissions of their roles. A history of operations makes a policy of the empty one. What the
policy grants can be read off the history alone: a role was given to the user and a permission to
the role, and neither was taken back since (`grants_run_iff`).

## Main results

* `since_append` — what holds since some entry of a list, one entry later.
* `AccessPolicy.mem_run_iff`, `AccessPolicy.carries_run_iff` — who has a role, and what a role
  carries, by history.
* `AccessPolicy.grants_run_iff` — what is granted, by history.
-/

/-! ### Histories -/

section Since

variable {α : Type} {start stop : α → Prop}

/-- **Since some entry of the list that starts it, no entry has stopped it.** -/
def Since (start stop : α → Prop) (l : List α) : Prop :=
  ∃ before a after, l = before ++ a :: after ∧ start a ∧ ∀ b ∈ after, ¬ stop b

theorem not_since_nil : ¬ Since start stop [] := by
  rintro ⟨before, a, after, h, -⟩
  exact List.append_ne_nil_of_right_ne_nil before (List.cons_ne_nil a after) h.symm

/-- One entry later, it has just started, or it held and was not stopped. -/
theorem since_append {l : List α} {a : α} :
    Since start stop (l ++ [a]) ↔ start a ∨ Since start stop l ∧ ¬ stop a := by
  constructor
  · rintro ⟨before, b, after, h, hb, hafter⟩
    rcases List.eq_nil_or_concat after with rfl | ⟨after', a', rfl⟩
    · obtain ⟨-, ha⟩ := List.append_inj' h rfl
      exact Or.inl (List.head_eq_of_cons_eq ha ▸ hb)
    · rw [List.concat_eq_append] at h hafter
      rw [← List.cons_append, ← List.append_assoc] at h
      obtain ⟨rfl, ha⟩ := List.append_inj' h rfl
      obtain rfl := List.head_eq_of_cons_eq ha
      refine Or.inr ⟨⟨before, b, after', rfl, hb, fun c hc => ?_⟩, ?_⟩
      · exact hafter c (List.mem_append_left _ hc)
      · exact hafter a (List.mem_append_right _ List.mem_cons_self)
  · rintro (ha | ⟨⟨before, b, after, rfl, hb, hafter⟩, ha⟩)
    · exact ⟨l, a, [], rfl, ha, fun b hb => absurd hb List.not_mem_nil⟩
    · refine ⟨before, b, after ++ [a], by rw [List.append_assoc, List.cons_append], hb, ?_⟩
      intro c hc
      rcases List.mem_append.mp hc with hc | hc
      · exact hafter c hc
      · exact List.mem_singleton.mp hc ▸ ha

end Since

/-! ### Policies -/

/-- **A policy**: the permissions of the roles, and who has which role. -/
structure AccessPolicy (υ ρ π : Type) where
  roles : SetMap.Map ρ π
  members : Finset (υ × ρ)

namespace AccessPolicy

variable {υ ρ π : Type}

/-- The policy without roles. -/
def empty : AccessPolicy υ ρ π := ⟨SetMap.empty, ∅⟩

/-- An operation on a policy. -/
inductive Op (υ ρ π : Type)
  | role (op : SetMap.Op ρ π)
  | assign (u : υ) (r : ρ)
  | revoke (u : υ) (r : ρ)
deriving DecidableEq

/-- The role carries the permission. -/
def Carries (P : AccessPolicy υ ρ π) (r : ρ) (p : π) : Prop := ∃ s, P.roles r = some s ∧ p ∈ s

/-- **The policy grants the user the permission**, through some role. -/
def Grants (P : AccessPolicy υ ρ π) (u : υ) (p : π) : Prop :=
  ∃ r, (u, r) ∈ P.members ∧ P.Carries r p

/-- **An operation makes sense**: a role is created once, and only a role that is there is given a
permission, or to a user. -/
def Admits (P : AccessPolicy υ ρ π) : Op υ ρ π → Prop
  | .role (.create r) => P.roles r = none
  | .role (.insert r _) => (P.roles r).isSome = true
  | .assign _ r => (P.roles r).isSome = true
  | _ => True

variable [DecidableEq υ] [DecidableEq ρ] [DecidableEq π]

/-- The policy after an operation. Whoever has a role that is dropped loses it. -/
def apply (P : AccessPolicy υ ρ π) : Op υ ρ π → AccessPolicy υ ρ π
  | .role (.drop r) =>
      ⟨SetMap.apply P.roles (.drop r), P.members.filter fun m => m.2 ≠ r⟩
  | .role op => ⟨SetMap.apply P.roles op, P.members⟩
  | .assign u r => ⟨P.roles, insert (u, r) P.members⟩
  | .revoke u r => ⟨P.roles, P.members.erase (u, r)⟩

/-- The policy after a history. -/
def run (P : AccessPolicy υ ρ π) (ops : List (Op υ ρ π)) : AccessPolicy υ ρ π := ops.foldl apply P

/-- Every operation of the history makes sense where it is made. -/
def Legal : AccessPolicy υ ρ π → List (Op υ ρ π) → Prop
  | _, [] => True
  | P, op :: ops => P.Admits op ∧ Legal (P.apply op) ops

/-! ### One operation -/

variable {P : AccessPolicy υ ρ π} {op : Op υ ρ π} {ops : List (Op υ ρ π)} {u : υ} {r : ρ} {p : π}

/-- An operation takes the role from the user. -/
def Op.Unassigns (u : υ) (r : ρ) (op : Op υ ρ π) : Prop := op = .revoke u r ∨ op = .role (.drop r)

/-- An operation takes the permission from the role, or makes the role anew. -/
def Op.Removes (r : ρ) (p : π) (op : Op υ ρ π) : Prop :=
  op = .role (.erase r p) ∨ op = .role (.drop r) ∨ op = .role (.create r)

@[simp] theorem roles_apply_role (P : AccessPolicy υ ρ π) (op : SetMap.Op ρ π) :
    (P.apply (.role op)).roles = SetMap.apply P.roles op := by
  cases op <;> rfl

/-- **Who has a role after an operation.** -/
theorem mem_apply : (u, r) ∈ (P.apply op).members ↔
    op = .assign u r ∨ (u, r) ∈ P.members ∧ ¬ op.Unassigns u r := by
  cases op with
  | assign u' r' => simp [apply, Op.Unassigns, eq_comm]
  | revoke u' r' =>
      rw [apply, Finset.mem_erase, Ne, Prod.mk.injEq, Op.Unassigns]
      simp only [Op.revoke.injEq, reduceCtorEq, or_false, false_or]
      rw [and_comm, and_congr_right_iff]
      exact fun _ => not_congr ⟨fun h => ⟨h.1.symm, h.2.symm⟩, fun h => ⟨h.1.symm, h.2.symm⟩⟩
  | role op =>
      cases op with
      | drop r' => simp [apply, Op.Unassigns, eq_comm]
      | create r' => simp [apply, Op.Unassigns]
      | insert r' p' => simp [apply, Op.Unassigns]
      | erase r' p' => simp [apply, Op.Unassigns]

/-- **What a role carries after an operation** that makes sense. -/
theorem carries_apply (h : P.Admits op) : (P.apply op).Carries r p ↔
    op = .role (.insert r p) ∨ P.Carries r p ∧ ¬ op.Removes r p := by
  cases op with
  | assign u' r' => simp [apply, Carries, Op.Removes]
  | revoke u' r' => simp [apply, Carries, Op.Removes]
  | role op =>
      rw [Carries, Carries, roles_apply_role]
      by_cases hr : r = op.key
      · rw [SetMap.apply_key P.roles hr.symm]
        cases op with
        | create r' =>
            obtain rfl : r = r' := hr
            simp [SetMap.Op.change, Op.Removes]
        | drop r' =>
            obtain rfl : r = r' := hr
            simp [SetMap.Op.change, Op.Removes]
        | insert r' p' =>
            obtain rfl : r = r' := hr
            obtain ⟨s, hs⟩ := Option.isSome_iff_exists.mp h
            simp [SetMap.Op.change, Op.Removes, hs, eq_comm]
        | erase r' p' =>
            obtain rfl : r = r' := hr
            cases hs : P.roles r with
            | none => simp [SetMap.Op.change]
            | some s => simp [SetMap.Op.change, Op.Removes, and_comm, eq_comm]
      · -- the operation is about another role
        rw [SetMap.apply_ne _ hr]
        cases op with
        | create r' => simp [Op.Removes, (Ne.symm hr : r' ≠ r)]
        | drop r' => simp [Op.Removes, (Ne.symm hr : r' ≠ r)]
        | insert r' p' => simp [Op.Removes, (Ne.symm hr : r' ≠ r)]
        | erase r' p' => simp [Op.Removes, (Ne.symm hr : r' ≠ r)]

/-! ### Histories of operations -/

theorem run_append (P : AccessPolicy υ ρ π) (ops ops' : List (Op υ ρ π)) :
    P.run (ops ++ ops') = (P.run ops).run ops' := List.foldl_append

theorem legal_append {ops' : List (Op υ ρ π)} :
    P.Legal (ops ++ ops') ↔ P.Legal ops ∧ (P.run ops).Legal ops' := by
  induction ops generalizing P with
  | nil => exact ⟨fun h => ⟨trivial, h⟩, fun h => h.2⟩
  | cons op ops ih =>
      rw [List.cons_append, Legal, Legal, ih, and_assoc]
      rfl

/-- **Who has a role, by history**: those it was given to, and that have neither lost it nor seen
it dropped since. -/
theorem mem_run_iff (ops : List (Op υ ρ π)) : (u, r) ∈ (run empty ops).members ↔
    Since (· = .assign u r) (Op.Unassigns u r) ops := by
  induction ops using List.reverseRecOn with
  | nil => exact iff_of_false (Finset.notMem_empty _) not_since_nil
  | append_singleton ops op ih =>
      rw [run_append, since_append, ← ih]
      exact mem_apply

/-- **What a role carries, by history**: what it was given, and has not lost since. -/
theorem carries_run_iff (h : Legal empty ops) : (run empty ops).Carries r p ↔
    Since (· = .role (.insert r p)) (Op.Removes r p) ops := by
  induction ops using List.reverseRecOn with
  | nil => exact iff_of_false (by rintro ⟨s, ⟨⟩, -⟩) not_since_nil
  | append_singleton ops op ih =>
      obtain ⟨hops, hop, -⟩ := legal_append.mp h
      rw [run_append, since_append, ← ih hops]
      exact carries_apply hop

/-- **What is granted, by history**: some role was given to the user, and the permission to the
role, and neither was taken back since. -/
theorem grants_run_iff (h : Legal empty ops) : (run empty ops).Grants u p ↔
    ∃ r, Since (· = .assign u r) (Op.Unassigns u r) ops ∧
      Since (· = .role (.insert r p)) (Op.Removes r p) ops :=
  exists_congr fun _ => and_congr (mem_run_iff ops) (carries_run_iff h)

end AccessPolicy
