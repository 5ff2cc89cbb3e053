import Mathlib.Data.List.Basic
import Mathlib.Logic.Function.Basic

/-!
# Templates

Pages from templates whose values are escaped: text, values, values that are marked as safe,
conditions and loops. No value has a say in the markup of a page, that is in its angle brackets and
quotes: two pages of a template for which its conditions have the same outcome and its loops the
same length have the same markup. And what was escaped is read back, by whoever decodes the
references of a page or an attribute.

## Main results

* `unescape_escape` — what was escaped is read back.
* `markup_render` — the markup of a page does not depend on its values.
* `attributeValue_render` — the value of an attribute is read back.
-/

namespace Template

/-! ### Escaping -/

/-- A character of a value: references for the characters of markup. -/
def escapeChar (c : Char) : List Char :=
  if c = '&' then ['&', 'a', 'm', 'p', ';']
  else if c = '<' then ['&', 'l', 't', ';']
  else if c = '>' then ['&', 'g', 't', ';']
  else if c = '\'' then ['&', '#', '3', '9', ';']
  else if c = '"' then ['&', '#', '3', '4', ';']
  else [c]

/-- Escape a value. -/
def escape (s : List Char) : List Char := s.flatMap escapeChar

/-- Decode the references in a text. -/
def unescape : List Char → List Char
  | [] => []
  | '&' :: 'a' :: 'm' :: 'p' :: ';' :: s => '&' :: unescape s
  | '&' :: 'l' :: 't' :: ';' :: s => '<' :: unescape s
  | '&' :: 'g' :: 't' :: ';' :: s => '>' :: unescape s
  | '&' :: '#' :: '3' :: '9' :: ';' :: s => '\'' :: unescape s
  | '&' :: '#' :: '3' :: '4' :: ';' :: s => '"' :: unescape s
  | c :: s => c :: unescape s

/-- The characters that make markup. -/
def isMarkup (c : Char) : Bool := c = '<' ∨ c = '>' ∨ c = '"' ∨ c = '\''

/-- The markup of a text. -/
def markup (s : List Char) : List Char := s.filter isMarkup

theorem unescape_cons {c : Char} (h : c ≠ '&') (s : List Char) :
    unescape (c :: s) = c :: unescape s := by
  rw [unescape]
  all_goals
    intro s' hc
    exact absurd hc h

theorem unescape_escapeChar (c : Char) (s : List Char) :
    unescape (escapeChar c ++ s) = c :: unescape s := by
  rw [escapeChar]
  split_ifs with hamp hlt hgt hquote hdouble
  · subst hamp
    rfl
  · subst hlt
    rfl
  · subst hgt
    rfl
  · subst hquote
    rfl
  · subst hdouble
    rfl
  · exact unescape_cons hamp s

/-- **What was escaped is read back.** -/
theorem unescape_escape (s : List Char) : unescape (escape s) = s := by
  induction s with
  | nil => rfl
  | cons c s ih => rw [escape, List.flatMap_cons, unescape_escapeChar]; exact congrArg _ ih

theorem markup_escapeChar (c : Char) : markup (escapeChar c) = [] := by
  rw [escapeChar]
  split_ifs with hamp hlt hgt hquote hdouble
  · rfl
  · rfl
  · rfl
  · rfl
  · rfl
  · exact List.filter_eq_nil_iff.mpr fun x hx => by
      rw [List.mem_singleton] at hx
      simp [isMarkup, hx, hlt, hgt, hquote, hdouble]

/-- **There is no markup in what was escaped.** -/
theorem markup_escape (s : List Char) : markup (escape s) = [] := by
  rw [markup, escape, List.filter_flatMap, List.flatMap_eq_nil_iff]
  exact fun c _ => markup_escapeChar c

theorem markup_append (s s' : List Char) : markup (s ++ s') = markup s ++ markup s' :=
  List.filter_append s s'

/-! ### Templates -/

/-- What a name stands for. -/
inductive Value
  | text (s : List Char)
  | bool (b : Bool)
  | texts (l : List (List Char))

namespace Value

/-- Whether a condition on the value holds. -/
def truthy : Value → Bool
  | text s => !s.isEmpty
  | bool b => b
  | texts l => !l.isEmpty

/-- The value as a text. -/
def toText : Value → List Char
  | text s => s
  | bool true => ['T', 'r', 'u', 'e']
  | bool false => ['F', 'a', 'l', 's', 'e']
  | texts _ => []

/-- The values a loop runs over. -/
def toList : Value → List (List Char)
  | texts l => l
  | _ => []

end Value

/-- The values of a page. -/
abbrev Context := String → Value

/-- Names, and what they stand for. The others stand for nothing. -/
def context (values : List (String × Value)) : Context := fun name =>
  ((values.find? fun e => e.1 = name).map Prod.snd).getD (.text [])

/-- **A part of a template**: text; a value; a value that is safe; a condition; a loop. -/
inductive Part
  | lit (s : String)
  | value (name : String)
  | safe (name : String)
  | cond (name : String) (yes no : List Part)
  | each (var list : String) (body : List Part)

mutual

/-- A part, with some values. -/
def renderPart (c : Context) : Part → List Char
  | .lit s => s.toList
  | .value name => escape (c name).toText
  | .safe name => (c name).toText
  | .cond name yes no => if (c name).truthy then render c yes else render c no
  | .each var list body =>
      (c list).toList.flatMap fun s => render (Function.update c var (.text s)) body

/-- **The page of a template**, with some values. -/
def render (c : Context) : List Part → List Char
  | [] => []
  | p :: t => renderPart c p ++ render c t

end

mutual

/-- A part takes the same way with both of two groups of values. -/
def AlikePart (c c' : Context) : Part → Prop
  | .lit _ => True
  | .value _ => True
  | .safe name => (c name).toText = (c' name).toText
  | .cond name yes no => (c name).truthy = (c' name).truthy ∧ Alike c c' yes ∧ Alike c c' no
  | .each var list body =>
      (c list).toList.length = (c' list).toList.length ∧
        ∀ s s', Alike (Function.update c var (.text s)) (Function.update c' var (.text s')) body

/-- **A template takes the same way with both of two groups of values**: its conditions have the
same outcome, its loops the same length, and what is safe is the same. -/
def Alike (c c' : Context) : List Part → Prop
  | [] => True
  | p :: t => AlikePart c c' p ∧ Alike c c' t

end

/-- What is said of the parts of a condition or a loop, and of it then, is said of every part. -/
theorem forall_of_parts {P : Part → Prop} (hlit : ∀ s, P (.lit s))
    (hvalue : ∀ name, P (.value name)) (hsafe : ∀ name, P (.safe name))
    (hcond : ∀ name yes no, (∀ p ∈ yes, P p) → (∀ p ∈ no, P p) → P (.cond name yes no))
    (heach : ∀ var list body, (∀ p ∈ body, P p) → P (.each var list body)) (p : Part) : P p :=
  @Part.rec P (fun t => ∀ p ∈ t, P p) hlit hvalue hsafe hcond heach
    (fun _ h => absurd h List.not_mem_nil)
    (fun _ _ hhead htail => List.forall_mem_cons.mpr ⟨hhead, htail⟩) p

/-- The markup of a part does not depend on its values. -/
def Fixed (p : Part) : Prop :=
  ∀ c c', AlikePart c c' p → markup (renderPart c p) = markup (renderPart c' p)

theorem markup_render_of_fixed {t : List Part} (hfixed : ∀ p ∈ t, Fixed p) {c c' : Context}
    (h : Alike c c' t) : markup (render c t) = markup (render c' t) := by
  induction t with
  | nil => rfl
  | cons p t ih =>
      rw [Alike] at h
      rw [render, render, markup_append, markup_append, hfixed p List.mem_cons_self c c' h.1,
        ih (fun p hp => hfixed p (List.mem_cons_of_mem _ hp)) h.2]

/-- Loops of the same length have the same markup, if their bodies have. -/
theorem markup_flatMap {α : Type} {f g : α → List Char} (h : ∀ a b, markup (f a) = markup (g b)) :
    ∀ l l' : List α, l.length = l'.length → markup (l.flatMap f) = markup (l'.flatMap g) := by
  intro l
  induction l with
  | nil =>
      intro l' hlen
      obtain rfl := List.length_eq_zero_iff.mp hlen.symm
      rfl
  | cons a l ih =>
      intro l' hlen
      cases l' with
      | nil => cases hlen
      | cons b l' =>
          rw [List.flatMap_cons, List.flatMap_cons, markup_append, markup_append, h a b,
            ih l' (Nat.succ.inj hlen)]

theorem fixed (p : Part) : Fixed p := by
  induction p using forall_of_parts with
  | hlit s => exact fun _ _ _ => rfl
  | hvalue name =>
      intro c c' _
      rw [renderPart, renderPart, markup_escape, markup_escape]
  | hsafe name =>
      intro c c' h
      rw [AlikePart] at h
      rw [renderPart, renderPart, h]
  | hcond name yes no hyes hno =>
      intro c c' h
      rw [AlikePart] at h
      rw [renderPart, renderPart, h.1]
      split
      · exact markup_render_of_fixed hyes h.2.1
      · exact markup_render_of_fixed hno h.2.2
  | heach var list body hbody =>
      intro c c' h
      rw [AlikePart] at h
      rw [renderPart, renderPart]
      exact markup_flatMap (fun s s' => markup_render_of_fixed hbody (h.2 s s')) _ _ h.1

/-- **No value has a say in the markup of a page.** -/
theorem markup_render {c c' : Context} {t : List Part} (h : Alike c c' t) :
    markup (render c t) = markup (render c' t) :=
  markup_render_of_fixed (fun p _ => fixed p) h

/-! ### Attributes -/

/-- What follows the first occurrence of a text. -/
def after (needle : List Char) : List Char → Option (List Char)
  | [] => if needle = [] then some [] else none
  | c :: s => if needle <+: c :: s then some ((c :: s).drop needle.length) else after needle s

/-- **What a reader takes for the value of an attribute**, where it first stands in a page. -/
def attributeValue (name : String) (page : List Char) : Option (List Char) :=
  (after (name.toList ++ ['=', '"']) page).map fun s => unescape (s.takeWhile (· ≠ '"'))

theorem length_le_of_after {needle s rest : List Char} (h : after needle s = some rest) :
    needle.length ≤ s.length := by
  induction s with
  | nil =>
      rw [after] at h
      split at h
      · rename_i hnil
        exact Nat.le_of_eq (congrArg List.length hnil)
      · cases h
  | cons c s ih =>
      rw [after] at h
      split at h
      · rename_i hstart
        exact hstart.length_le
      · exact Nat.le_succ_of_le (ih h)

/-- More text behind an occurrence does not matter. -/
theorem after_append {needle s rest : List Char} (h : after needle s = some rest)
    (more : List Char) : after needle (s ++ more) = some (rest ++ more) := by
  induction s with
  | nil =>
      rw [after] at h
      split at h
      · rename_i hnil
        obtain rfl := Option.some.inj h
        subst hnil
        cases more with
        | nil => rfl
        | cons c more =>
            rw [List.nil_append, after, if_pos List.nil_prefix]
            rfl
      · cases h
  | cons c s ih =>
      have hmore : c :: s <+: c :: (s ++ more) := List.prefix_append (c :: s) more
      rw [after] at h
      rw [List.cons_append, after]
      split at h
      · rename_i hstart
        obtain rfl := Option.some.inj h
        rw [if_pos (hstart.trans hmore), ← List.cons_append,
          List.drop_append_of_le_length hstart.length_le]
      · rename_i hstart
        have hlen : needle.length ≤ (c :: s).length := Nat.le_succ_of_le (length_le_of_after h)
        rw [if_neg fun hlong => hstart (List.prefix_of_prefix_length_le hlong hmore hlen), ih h]

/-- A value ends at its quote. -/
theorem takeWhile_escape (s rest : List Char) :
    (escape s ++ '"' :: rest).takeWhile (· ≠ '"') = escape s := by
  have hquote : ∀ c ∈ escape s, decide (c ≠ '"') = true := by
    intro c hc
    refine decide_eq_true ?_
    rintro rfl
    have hmarkup := List.filter_eq_nil_iff.mp (markup_escape s) '"' hc
    exact hmarkup rfl
  rw [List.takeWhile_append_of_pos hquote, List.takeWhile_cons_of_neg (by decide), List.append_nil]

/-- **The value of an attribute is read back.** -/
theorem attributeValue_escape {name : String} {s : List Char}
    (h : after (name.toList ++ ['=', '"']) s = some []) (value rest : List Char) :
    attributeValue name (s ++ (escape value ++ '"' :: rest)) = some value := by
  rw [attributeValue, after_append h, Option.map_some, List.nil_append, takeWhile_escape,
    unescape_escape]

/-- **The first value of a page is read back** from the attribute that has it. -/
theorem attributeValue_render {name hole a b : String} (c : Context) (t : List Part)
    (hopen : after (name.toList ++ ['=', '"']) a.toList = some [])
    (hclose : b.toList.head? = some '"') :
    attributeValue name (render c (.lit a :: .value hole :: .lit b :: t)) =
      some (c hole).toText := by
  obtain ⟨rest, hrest⟩ := List.head?_eq_some_iff.mp hclose
  rw [render, renderPart, render, renderPart, render, renderPart, hrest, List.cons_append]
  exact attributeValue_escape hopen _ _

end Template
