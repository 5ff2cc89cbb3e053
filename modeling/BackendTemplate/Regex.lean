import Mathlib.Data.List.TakeWhile

/-!
# Patterns with Anchors

Regular expressions over an alphabet with a line feed, as `re.match` reads them: whether a pattern
matches a stretch of a text depends on what stands before and after it, because of the anchors. `^`
stands at the beginning of the text; `$` at its end, or before a line feed that ends it.

## Main results

* `matches_plain` — without anchors, what is around a stretch does not matter.
* `accepts_anchored` — `^r$` accepts what `r` matches as a whole, and that with a line feed after it.
-/

/-- A pattern over an alphabet. -/
inductive Regex (α : Type)
  /-- One character of a class. -/
  | cls (p : α → Bool)
  | seq (r s : Regex α)
  /-- A pattern repeated, so many times at least and at most. -/
  | rep (r : Regex α) (least : ℕ) (most : Option ℕ)
  /-- `^` -/
  | bol
  /-- `$` -/
  | dollar

namespace Regex

variable {α : Type} {nl : α} {p : α → Bool} {r s : Regex α} {b b' t a a' : List α}

/-- A relation between stretches of a text, repeated. -/
def Repeats (M : List α → List α → List α → Prop) : ℕ → List α → List α → List α → Prop
  | 0, _, t, _ => t = []
  | n + 1, b, t, a =>
      ∃ t₁ t₂, t = t₁ ++ t₂ ∧ M b t₁ (t₂ ++ a) ∧ Repeats M n (b ++ t₁) t₂ a

/-- **The pattern matches a stretch** of a text, between what stands before and after it. -/
def Matches (nl : α) : Regex α → List α → List α → List α → Prop
  | .cls p, _, t, _ => ∃ c, t = [c] ∧ p c = true
  | .seq r s, b, t, a =>
      ∃ t₁ t₂, t = t₁ ++ t₂ ∧ Matches nl r b t₁ (t₂ ++ a) ∧ Matches nl s (b ++ t₁) t₂ a
  | .rep r least most, b, t, a =>
      ∃ n, least ≤ n ∧ (∀ m ∈ most, n ≤ m) ∧ Repeats (Matches nl r) n b t a
  | .bol, b, t, _ => t = [] ∧ b = []
  | .dollar, _, t, a => t = [] ∧ (a = [] ∨ a = [nl])

/-- `re.match`: the pattern matches a stretch at the beginning of the text. -/
def Accepts (nl : α) (r : Regex α) (text : List α) : Prop :=
  ∃ t a, text = t ++ a ∧ Matches nl r [] t a

/-- `^r$` -/
def anchored (r : Regex α) : Regex α := .seq .bol (.seq r .dollar)

/-- A pattern without anchors. -/
def Plain : Regex α → Prop
  | .cls _ => True
  | .seq r s => r.Plain ∧ s.Plain
  | .rep r _ _ => r.Plain
  | .bol | .dollar => False

theorem Repeats.congr {M : List α → List α → List α → Prop}
    (hM : ∀ b b' t a a', M b t a → M b' t a') {n : ℕ} (h : Repeats M n b t a) :
    Repeats M n b' t a' := by
  induction n generalizing b b' t with
  | zero => exact h
  | succ n ih =>
      obtain ⟨t₁, t₂, rfl, h₁, h₂⟩ := h
      exact ⟨t₁, t₂, rfl, hM _ _ _ _ _ h₁, ih h₂⟩

/-- **Without anchors, what is around a stretch does not matter.** -/
theorem matches_plain (hr : r.Plain) (h : Matches nl r b t a) : Matches nl r b' t a' := by
  induction r generalizing b b' t a a' with
  | cls p => exact h
  | seq r s ihr ihs =>
      obtain ⟨t₁, t₂, rfl, h₁, h₂⟩ := h
      exact ⟨t₁, t₂, rfl, ihr hr.1 h₁, ihs hr.2 h₂⟩
  | rep r least most ih =>
      obtain ⟨n, hleast, hmost, hn⟩ := h
      have hcongr : ∀ b b' t a a', Matches nl r b t a → Matches nl r b' t a' :=
        fun _ _ _ _ _ h => ih hr h
      exact ⟨n, hleast, hmost, hn.congr hcongr⟩
  | bol => exact hr.elim
  | dollar => exact hr.elim

/-- A class repeated matches the words over it of the given lengths. -/
theorem matches_rep_cls {least : ℕ} {most : Option ℕ} :
    Matches nl (.rep (.cls p) least most) b t a ↔
      least ≤ t.length ∧ (∀ m ∈ most, t.length ≤ m) ∧ ∀ c ∈ t, p c = true := by
  have hrep : ∀ {n b t}, Repeats (Matches nl (.cls p)) n b t a ↔
      t.length = n ∧ ∀ c ∈ t, p c = true := by
    intro n
    induction n with
    | zero =>
        intro b t
        rw [Repeats, List.length_eq_zero_iff]
        exact ⟨fun h => ⟨h, by simp [h]⟩, And.left⟩
    | succ n ih =>
        intro b t
        rw [Repeats]
        constructor
        · rintro ⟨_, t₂, rfl, ⟨c, rfl, hc⟩, h₂⟩
          obtain ⟨hlen, hall⟩ := ih.mp h₂
          exact ⟨by simp [hlen], List.forall_mem_cons.mpr ⟨hc, hall⟩⟩
        · rintro ⟨hlen, hall⟩
          obtain ⟨c, t₂, rfl⟩ := List.exists_cons_of_length_eq_add_one hlen
          obtain ⟨hc, hall⟩ := List.forall_mem_cons.mp hall
          exact ⟨[c], t₂, rfl, ⟨c, rfl, hc⟩, ih.mpr ⟨Nat.succ.inj hlen, hall⟩⟩
  rw [Matches]
  constructor
  · rintro ⟨n, hleast, hmost, hn⟩
    obtain ⟨rfl, hall⟩ := hrep.mp hn
    exact ⟨hleast, hmost, hall⟩
  · rintro ⟨hleast, hmost, hall⟩
    exact ⟨t.length, hleast, hmost, hrep.mpr ⟨rfl, hall⟩⟩

/-- **An anchored pattern** accepts what the pattern inside matches as a whole, and that with a line
feed after it. -/
theorem accepts_anchored (hr : r.Plain) {text : List α} :
    Accepts nl r.anchored text ↔
      ∃ t, Matches nl r [] t [] ∧ (text = t ∨ text = t ++ [nl]) := by
  constructor
  · rintro ⟨_, a, rfl, _, _, rfl, ⟨rfl, -⟩, t, _, rfl, hmatch, rfl, ha⟩
    refine ⟨t, matches_plain hr hmatch, ?_⟩
    rcases ha with rfl | rfl
    · exact Or.inl (by simp)
    · exact Or.inr (by simp)
  · rintro ⟨t, hmatch, rfl | rfl⟩
    · exact ⟨text, [], by simp, [], text, rfl, ⟨rfl, rfl⟩, text, [], by simp,
        matches_plain hr hmatch, rfl, Or.inl rfl⟩
    · exact ⟨t, [nl], rfl, [], t, rfl, ⟨rfl, rfl⟩, t, [], by simp,
        matches_plain hr hmatch, rfl, Or.inr rfl⟩

/-- A run of a class stops at a character outside it. -/
theorem span_class (ht : ∀ c ∈ t, p c = true)
    (ha : ∀ c ∈ a.head?, p c = false) :
    (t ++ a).takeWhile p = t ∧ (t ++ a).dropWhile p = a := by
  have hrest : a.takeWhile p = [] ∧ a.dropWhile p = a := by
    cases a with
    | nil => exact ⟨rfl, rfl⟩
    | cons c a =>
        have hc := ha c rfl
        exact ⟨by simp [hc], by simp [hc]⟩
  rw [List.takeWhile_append_of_pos ht, List.dropWhile_append_of_pos ht, hrest.1, hrest.2]
  exact ⟨List.append_nil t, rfl⟩

end Regex
