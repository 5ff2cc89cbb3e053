import Mathlib.Data.List.Basic
import Mathlib.Data.List.Nodup

/-!
# One-Shot Credentials

A holder keeps a list of credentials that each work once: one that is presented while it is held is
accepted, and is not held from then on. `left held xs` is what is held after `xs` were presented,
and `accepted held xs` are those that were accepted, in order.

## Main results

* `nodup_accepted` — nothing is accepted twice.
* `mem_accepted` — what is accepted is what was held and presented.
* `left_eq_filter` — what was not presented is still held, and nothing else is.
-/

namespace OneShot

variable {α : Type} [DecidableEq α] {held xs : List α} {x y : α}

/-- What is held after `x` was presented. -/
def spend (held : List α) (x : α) : List α := held.filter fun y => y ≠ x

/-- What is held after some were presented. -/
def left (held xs : List α) : List α := xs.foldl spend held

/-- What was accepted. -/
def accepted : List α → List α → List α
  | _, [] => []
  | held, x :: xs => if x ∈ held then x :: accepted (spend held x) xs else accepted held xs

@[simp] theorem mem_spend : y ∈ spend held x ↔ y ∈ held ∧ y ≠ x := by
  simp [spend]

/-- Presenting what is not held changes nothing. -/
theorem spend_of_notMem (h : x ∉ held) : spend held x = held := by
  refine List.filter_eq_self.mpr fun y hy => decide_eq_true ?_
  rintro rfl
  exact h hy

/-- What was not presented is still held, and nothing else is. -/
theorem left_eq_filter (held xs : List α) : left held xs = held.filter fun y => y ∉ xs := by
  induction xs generalizing held with
  | nil => exact (List.filter_eq_self.mpr fun y _ => by simp).symm
  | cons x xs ih =>
      have hspend : left held (x :: xs) = left (spend held x) xs := rfl
      rw [hspend, ih, spend, List.filter_filter]
      refine List.filter_congr fun y _ => ?_
      rw [Bool.eq_iff_iff]
      simp [and_comm]

theorem mem_left : y ∈ left held xs ↔ y ∈ held ∧ y ∉ xs := by
  rw [left_eq_filter]
  simp

/-- **What is accepted** was held and presented, and whatever was held and presented is accepted. -/
theorem mem_accepted : y ∈ accepted held xs ↔ y ∈ held ∧ y ∈ xs := by
  induction xs generalizing held with
  | nil => simp [accepted]
  | cons x xs ih =>
      rw [accepted]
      split
      · rename_i hx
        rw [List.mem_cons, ih, mem_spend, List.mem_cons]
        constructor
        · rintro (rfl | ⟨⟨hy, -⟩, hxs⟩)
          · exact ⟨hx, Or.inl rfl⟩
          · exact ⟨hy, Or.inr hxs⟩
        · rintro ⟨hy, hor⟩
          by_cases hyx : y = x
          · exact Or.inl hyx
          · exact Or.inr ⟨⟨hy, hyx⟩, hor.resolve_left hyx⟩
      · rename_i hx
        rw [ih, List.mem_cons]
        refine and_congr_right fun hy => ⟨Or.inr, fun hor => hor.resolve_left ?_⟩
        rintro rfl
        exact hx hy

/-- **Nothing is accepted twice.** -/
theorem nodup_accepted (held xs : List α) : (accepted held xs).Nodup := by
  induction xs generalizing held with
  | nil => exact List.nodup_nil
  | cons x xs ih =>
      rw [accepted]
      split
      · refine List.nodup_cons.mpr ⟨fun hx => ?_, ih _⟩
        exact (mem_spend.mp (mem_accepted.mp hx).1).2 rfl
      · exact ih held

end OneShot
