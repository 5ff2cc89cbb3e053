import BackendTemplate.IpAddress
import Mathlib.Data.List.DropRight
import Mathlib.Data.List.Infix

/-!
# Texts

The operations of Python's `str` that the service takes texts apart and puts them together with:
`strip`, `split` on a character, `split` on white space, `join`, and `in`.

## Main results

* `strip_strip` — a stripped text is stripped.
* `words_join_iff` — the lists of words that `split` reads back after `join`.
* `infix_append_cons_iff` — a text occurs on one side of a character it does not have.
-/

namespace BackendTemplate

open IpAddress

/-- `str.isspace`, of a character. -/
def isSpace (c : Char) : Bool :=
  let n := c.toNat
  (0x09 ≤ n && n ≤ 0x0D) || (0x1C ≤ n && n ≤ 0x20) || n = 0x85 || n = 0xA0 || n = 0x1680 ||
    (0x2000 ≤ n && n ≤ 0x200A) || n = 0x2028 || n = 0x2029 || n = 0x202F || n = 0x205F || n = 0x3000

/-- `str.strip`. -/
def strip (s : Text) : Text := (s.dropWhile isSpace).rdropWhile isSpace

/-- `str.split`, on white space: empty words are left out. -/
def words (s : Text) : List Text := (s.splitOnP isSpace).filter fun w => w ≠ []

section Strip

variable {s t blanks : Text}

theorem strip_append_left (h : ∀ c ∈ blanks, isSpace c = true) : strip (blanks ++ s) = strip s := by
  rw [strip, List.dropWhile_append_of_pos h, strip]

theorem mem_of_mem_strip {c : Char} (h : c ∈ strip s) : c ∈ s :=
  (List.dropWhile_suffix _).subset ((List.rdropWhile_prefix _ _).subset h)

/-- A text is stripped when it neither begins nor ends with a blank. -/
theorem strip_eq_self_iff : strip s = s ↔
    (∀ c, s.head? = some c → isSpace c = false) ∧ ∀ c, s.getLast? = some c → isSpace c = false := by
  have hfront : s.dropWhile isSpace = s ↔ ∀ c, s.head? = some c → isSpace c = false := by
    rw [List.dropWhile_eq_self_iff]
    cases s with
    | nil => simp
    | cons c s => simp
  have hback : s.rdropWhile isSpace = s ↔ ∀ c, s.getLast? = some c → isSpace c = false := by
    rw [List.rdropWhile_eq_self_iff]
    rcases s.eq_nil_or_concat with rfl | ⟨s, c, rfl⟩
    · simp
    · simp
  rw [← hfront, ← hback, strip]
  constructor
  · intro h
    have hlength := congrArg List.length h
    have h₁ := (List.rdropWhile_prefix isSpace (s.dropWhile isSpace)).length_le
    have h₂ := (List.dropWhile_suffix isSpace (l := s)).length_le
    have hdrop := (List.dropWhile_suffix isSpace (l := s)).eq_of_length (by omega)
    rw [hdrop] at h
    exact ⟨hdrop, h⟩
  · rintro ⟨h₁, h₂⟩
    rw [h₁, h₂]

theorem strip_eq_nil : strip s = [] ↔ ∀ c ∈ s, isSpace c = true := by
  rw [strip, List.rdropWhile_eq_nil_iff, ← List.dropWhile_eq_nil_iff, List.dropWhile_idempotent,
    List.dropWhile_eq_nil_iff]

theorem strip_strip (s : Text) : strip (strip s) = strip s := by
  refine strip_eq_self_iff.mpr ⟨fun c hc => ?_, fun c hc => ?_⟩
  · have hdrop := List.head?_dropWhile_not isSpace s
    obtain ⟨rest, hrest⟩ := List.rdropWhile_prefix isSpace (s.dropWhile isSpace)
    rw [← hrest, ← strip, List.head?_append, hc] at hdrop
    simpa using hdrop
  · have hne : strip s ≠ [] := by
      intro hnil
      rw [hnil] at hc
      cases hc
    rw [List.getLast?_eq_some_getLast hne] at hc
    obtain rfl := Option.some.inj hc
    exact Bool.eq_false_iff.mpr (List.rdropWhile_last_not isSpace (s.dropWhile isSpace) hne)

end Strip

/-! ### Parts -/

/-- No part of a text that is split has a character it was split on. -/
theorem of_mem_splitOnP {p : Char → Bool} {s t : Text} (h : t ∈ s.splitOnP p) :
    ∀ c ∈ t, p c = false := by
  induction s generalizing t with
  | nil =>
      obtain rfl := List.mem_singleton.mp h
      exact fun c hc => absurd hc List.not_mem_nil
  | cons c s ih =>
      rw [List.splitOnP_cons_eq_if_modifyHead] at h
      split at h
      · rcases List.mem_cons.mp h with rfl | h
        · exact fun c hc => absurd hc List.not_mem_nil
        · exact ih h
      · rename_i hc
        obtain ⟨part, parts, hparts⟩ := List.exists_cons_of_ne_nil (List.splitOnP_ne_nil p s)
        rw [hparts, List.modifyHead_cons] at h
        rcases List.mem_cons.mp h with rfl | h
        · intro c' hc'
          rcases List.mem_cons.mp hc' with rfl | hc'
          · exact Bool.eq_false_iff.mpr hc
          · exact ih (hparts ▸ List.mem_cons_self) c' hc'
        · exact ih (hparts ▸ List.mem_cons_of_mem _ h)

theorem not_mem_of_mem_splitOn {x : Char} {s t : Text} (h : t ∈ s.splitOn x) : x ∉ t := by
  rw [List.splitOn_eq_splitOnP] at h
  exact fun hx => absurd (of_mem_splitOnP h x hx) (by simp)

/-! ### Words -/

section Words

variable {s w : Text} {ws : List Text}

/-- A text that `split` takes for one word: not empty, and without white space. -/
def IsWord (w : Text) : Prop := w ≠ [] ∧ ∀ c ∈ w, isSpace c = false

instance (w : Text) : Decidable (IsWord w) := @instDecidableAnd _ _ _ (List.decidableBAll _ w)

/-- A text without white space has one part. -/
theorem splitOnP_of_notSpace (h : ∀ c ∈ w, isSpace c = false) : w.splitOnP isSpace = [w] :=
  List.splitOnP_eq_singleton h

@[simp] theorem words_nil : words [] = [] := by
  rw [words, splitOnP_of_notSpace (by simp)]
  rfl

/-- A word is its only word. -/
theorem words_of_isWord (h : IsWord w) : words w = [w] := by
  rw [words, splitOnP_of_notSpace h.2]
  simp [h.1]

/-- Texts on both sides of white space have their words apart. -/
theorem words_append_cons (s t : Text) {c : Char} (hc : isSpace c = true) :
    words (s ++ c :: t) = words s ++ words t := by
  rw [words, List.splitOnP_append_cons s t hc, List.filter_append, words, words]

/-- **The words of a text are words.** -/
theorem isWord_of_mem_words (h : w ∈ words s) : IsWord w := by
  obtain ⟨hmem, hne⟩ := List.mem_filter.mp h
  exact ⟨of_decide_eq_true hne, of_mem_splitOnP hmem⟩

/-- `' '.join`. -/
def joinWords (ws : List Text) : Text := [' '].intercalate ws

/-- The words of a joined list are the words of its members. -/
theorem words_join (ws : List Text) : words (joinWords ws) = ws.flatMap words := by
  induction ws with
  | nil => simp [joinWords]
  | cons w ws ih =>
      cases ws with
      | nil => simp [joinWords]
      | cons w' ws =>
          rw [joinWords, List.intercalate_cons_cons, List.append_assoc, List.singleton_append,
            words_append_cons _ _ (by decide), ← joinWords, ih]
          rfl

/-- **`split` reads back what `join` has written** exactly when every member is a word. -/
theorem words_join_iff : words (joinWords ws) = ws ↔ ∀ w ∈ ws, IsWord w := by
  constructor
  · intro h w hw
    rw [← h] at hw
    exact isWord_of_mem_words hw
  · intro h
    rw [words_join]
    induction ws with
    | nil => rfl
    | cons w ws ih =>
        rw [List.flatMap_cons, words_of_isWord (h w List.mem_cons_self),
          ih fun w' hw' => h w' (List.mem_cons_of_mem _ hw')]
        rfl

end Words

/-! ### Occurrences -/

/-- `part in s`. -/
def occursIn (part s : String) : Bool := s.toList.tails.any part.toList.isPrefixOf

theorem occursIn_iff {part s : String} : occursIn part s = true ↔ part.toList <:+: s.toList := by
  rw [occursIn, List.any_eq_true, List.infix_iff_prefix_suffix]
  constructor
  · rintro ⟨t, ht, hpart⟩
    exact ⟨t, List.isPrefixOf_iff_prefix.mp hpart, (List.mem_tails _ _).mp ht⟩
  · rintro ⟨t, hpart, ht⟩
    exact ⟨t, (List.mem_tails _ _).mpr ht, List.isPrefixOf_iff_prefix.mpr hpart⟩

/-- **A text occurs on one side** of a character that it does not have. -/
theorem infix_append_cons_iff {p s t : Text} {c : Char} (h : c ∉ p) :
    p <:+: s ++ c :: t ↔ p <:+: s ∨ p <:+: t := by
  constructor
  · intro hp
    have hfirst : ∀ {l : Text}, l ≠ [] → l ⊆ p → ¬ l <+: c :: t := by
      intro l hne hsub hl
      obtain ⟨a, l, rfl⟩ := List.exists_cons_of_ne_nil hne
      obtain ⟨rfl, -⟩ := List.cons_prefix_cons.mp hl
      exact h (hsub List.mem_cons_self)
    rcases List.infix_append_iff_ne_nil.mp hp with hs | hct | ⟨l₁, l₂, -, hne, rfl, -, hl₂⟩
    · exact .inl hs
    · rcases List.infix_cons_iff.mp hct with hpre | ht
      · by_cases hnil : p = []
        · exact .inl (hnil ▸ List.nil_infix)
        · exact absurd hpre (hfirst hnil (List.Subset.refl p))
      · exact .inr ht
    · exact absurd hl₂ (hfirst hne (List.subset_append_right _ _))
  · rintro (hs | ht)
    · exact List.infix_append_of_infix_left hs
    · exact List.infix_append_of_infix_right (List.infix_cons ht)

end BackendTemplate
