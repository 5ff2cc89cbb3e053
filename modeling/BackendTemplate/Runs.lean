import Mathlib.Logic.Relation

/-!
# Runs of a Step Function

A system is a step function `step : S → L → Option S`: what each label does in each state, or
that it cannot happen there. A condition `C` says which steps are meant. `Runs.Reach` is
reachability by such steps, `Runs.run` executes a list of labels, and `Runs.Reach.invariant` is
the rule that what every step keeps holds in every reachable state.

Where every label can happen in every state, a step is a function `S → L → S`. `Runs.throughout_iff`
then says for which lists of labels an invariant holds throughout.
-/

namespace Runs

variable {S L : Type} {step : S → L → Option S} {C : S → L → Prop} {s s' : S}

/-- Some step that satisfies the condition leads from one state to the other. -/
def Steps (step : S → L → Option S) (C : S → L → Prop) (s s' : S) : Prop :=
  ∃ l, C s l ∧ step s l = some s'

/-- **Reachability** by steps that all satisfy the condition. -/
def Reach (step : S → L → Option S) (C : S → L → Prop) : S → S → Prop :=
  Relation.ReflTransGen (Steps step C)

/-- Every step is meant. -/
def always : S → L → Prop := fun _ _ => True

instance : ∀ (s : S) (l : L), Decidable (always s l) := fun _ _ => inferInstanceAs (Decidable True)

/-- Execute some labels, as long as the condition holds. -/
def run (step : S → L → Option S) (C : S → L → Prop) [∀ s l, Decidable (C s l)] (s : S) :
    List L → Option S
  | [] => some s
  | l :: ls => if C s l then (step s l).bind fun s' => run step C s' ls else none

/-- **The invariant rule.** What holds at the start and is kept by every step holds in every
reachable state. -/
theorem Reach.invariant (h : Reach step C s s') {I : S → Prop} (hstart : I s)
    (hstep : ∀ s l s', I s → C s l → step s l = some s' → I s') : I s' := by
  induction h with
  | refl => exact hstart
  | tail _ hs ih =>
      obtain ⟨l, hC, hs⟩ := hs
      exact hstep _ l _ ih hC hs

section History

variable [∀ s l, Decidable (C s l)]

/-- Some state that a list of labels went through, the first and the last among them, satisfies
`P`. -/
def Met (step : S → L → Option S) (C : S → L → Prop) [∀ s l, Decidable (C s l)] (P : S → Prop)
    (s : S) (ls : List L) : Prop :=
  ∃ ls₁ ls₂ s₁, ls = ls₁ ++ ls₂ ∧ run step C s ls₁ = some s₁ ∧ P s₁

/-- What holds at the end was met. -/
theorem Met.last {P : S → Prop} {ls : List L} (h : run step C s ls = some s') (hP : P s') :
    Met step C P s ls :=
  ⟨ls, [], s', (List.append_nil ls).symm, h, hP⟩

/-- What was met is met after some of the labels. -/
theorem Met.take {P : S → Prop} {ls : List L} (h : Met step C P s ls) :
    ∃ n ≤ ls.length, ∃ s₁, run step C s (ls.take n) = some s₁ ∧ P s₁ := by
  obtain ⟨ls₁, ls₂, s₁, rfl, h₁, hP⟩ := h
  exact ⟨ls₁.length, by simp, s₁, by rw [List.take_left' rfl]; exact h₁, hP⟩

end History

section Executable

variable [∀ s l, Decidable (C s l)]

/-- What a list of labels leads to is reachable. -/
theorem reach_of_run {ls : List L} (h : run step C s ls = some s') : Reach step C s s' := by
  induction ls generalizing s with
  | nil =>
      obtain rfl := Option.some.inj h
      exact .refl
  | cons l ls ih =>
      rw [run] at h
      split at h
      · rename_i hC
        obtain ⟨s₁, hs, hr⟩ := Option.bind_eq_some_iff.mp h
        exact Relation.ReflTransGen.head ⟨l, hC, hs⟩ (ih hr)
      · cases h

end Executable

section Total

variable {next : S → L → S} {I : S → Prop} {ls : List L}

/-- Every state that the labels go through, the first and the last among them, satisfies `I`. -/
def Throughout (next : S → L → S) (I : S → Prop) : S → List L → Prop
  | s, [] => I s
  | s, l :: ls => I s ∧ Throughout next I (next s l) ls

/-- Every step satisfies the condition in the state it is made in. -/
def EachStep (next : S → L → S) (C : S → L → Prop) : S → List L → Prop
  | _, [] => True
  | s, l :: ls => C s l ∧ EachStep next C (next s l) ls

/-- What every step keeps holds throughout. -/
theorem throughout_of_step (hstep : ∀ s l, I s → I (next s l)) (hs : I s) :
    Throughout next I s ls := by
  induction ls generalizing s with
  | nil => exact hs
  | cons l ls ih => exact ⟨hs, ih (hstep s l hs)⟩

/-- **The runs that keep an invariant**: where the condition says exactly which steps keep it, they
are the runs whose steps all satisfy the condition. -/
theorem throughout_iff (hstep : ∀ s l, I s → (I (next s l) ↔ C s l)) (hs : I s) :
    Throughout next I s ls ↔ EachStep next C s ls := by
  induction ls generalizing s with
  | nil => exact iff_of_true hs trivial
  | cons l ls ih =>
      constructor
      · rintro ⟨-, h⟩
        have hkept : I (next s l) := by
          cases ls with
          | nil => exact h
          | cons l' ls => exact h.1
        exact ⟨(hstep s l hs).mp hkept, (ih hkept).mp h⟩
      · rintro ⟨hC, h⟩
        exact ⟨hs, (ih ((hstep s l hs).mpr hC)).mpr h⟩

end Total

end Runs
