import Mathlib.Data.List.Basic

/-!
# Idempotent Actions that Commute

A family of actions on a state, each of which changes nothing the second time and any two of
which commute. What a sequence of such actions leads to depends only on which actions occur in
it (`Absorbing.runAll_eq`): not on their order, and not on how often each is repeated.
-/

namespace Absorption

variable {ι σ : Type} {f : ι → σ → σ} {l l' : List ι} {i : ι}

/-- **The actions are idempotent and commute.** -/
structure Absorbing (f : ι → σ → σ) : Prop where
  idem : ∀ i s, f i (f i s) = f i s
  comm : ∀ i j s, f i (f j s) = f j (f i s)

/-- Perform some actions, one after the other. -/
def runAll (f : ι → σ → σ) (l : List ι) (s : σ) : σ := l.foldl (fun s i => f i s) s

@[simp] theorem runAll_nil (f : ι → σ → σ) (s : σ) : runAll f [] s = s := rfl

@[simp] theorem runAll_cons (f : ι → σ → σ) (i : ι) (l : List ι) (s : σ) :
    runAll f (i :: l) s = runAll f l (f i s) := rfl

namespace Absorbing

/-- An action commutes with a sequence. -/
theorem runAll_comm (h : Absorbing f) (i : ι) (l : List ι) (s : σ) :
    runAll f l (f i s) = f i (runAll f l s) := by
  induction l generalizing s with
  | nil => rfl
  | cons j l ih => rw [runAll_cons, runAll_cons, h.comm, ih]

/-- **An action that occurs in a sequence changes nothing after it.** -/
theorem absorbed (h : Absorbing f) (hi : i ∈ l) (s : σ) : f i (runAll f l s) = runAll f l s := by
  induction l generalizing s with
  | nil => exact absurd hi List.not_mem_nil
  | cons j l ih =>
      rw [runAll_cons]
      rcases List.mem_cons.mp hi with rfl | hi
      · rw [← h.runAll_comm, h.idem]
      · exact ih hi _

/-- A sequence all of whose actions occur in another one changes nothing after it. -/
theorem runAll_absorbed (h : Absorbing f) (hl : l ⊆ l') (s : σ) :
    runAll f l (runAll f l' s) = runAll f l' s := by
  induction l with
  | nil => rfl
  | cons i l ih =>
      obtain ⟨hi, hl⟩ := List.cons_subset.mp hl
      rw [runAll_cons, h.absorbed hi, ih hl]

/-- Two sequences commute. -/
theorem runAll_runAll_comm (h : Absorbing f) (l l' : List ι) (s : σ) :
    runAll f l (runAll f l' s) = runAll f l' (runAll f l s) := by
  induction l generalizing s with
  | nil => rfl
  | cons i l ih => rw [runAll_cons, runAll_cons, ← h.runAll_comm, ih]

/-- **Sequences of the same actions lead to the same state.** -/
theorem runAll_eq (h : Absorbing f) (hl : l ⊆ l') (hl' : l' ⊆ l) (s : σ) :
    runAll f l s = runAll f l' s := by
  rw [← h.runAll_absorbed hl', h.runAll_runAll_comm, h.runAll_absorbed hl]

end Absorbing

end Absorption
