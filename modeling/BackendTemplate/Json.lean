import BackendTemplate.Dict

/-!
# JSON Values

The values of JSON, and how a schema reads the fields of an object: a field that is missing has its
default, if it has one, and a field that is there has the type the schema gives it.
-/

/-- A JSON value. -/
inductive Json
  | null
  | bool (b : Bool)
  | int (n : ℤ)
  | str (s : String)
  | arr (l : List Json)
  | obj (d : List (String × Json))

namespace Json

/-- The value under a key of an object. -/
def member (k : String) : Json → Option Json
  | obj d => Dict.get d k
  | _ => none

/-- `str`. -/
def string : Json → Option String
  | str s => some s
  | _ => none

/-- `str | None`. -/
def optString : Json → Option (Option String)
  | null => some none
  | str s => some (some s)
  | _ => none

/-- `list[T]`. -/
def list {α : Type} (read : Json → Option α) : Json → Option (List α)
  | arr l => l.mapM read
  | _ => none

/-- `list[str]`. -/
def strings : Json → Option (List String) := list string

/-- **A field of a schema**: read where it is there, else its default. -/
def field {α : Type} (read : Json → Option α) (default : Option α) (k : String) (j : Json) :
    Option α :=
  match j.member k with
  | none => default
  | some v => read v

theorem field_of_member {α : Type} {read : Json → Option α} {default : Option α} {k : String}
    {j v : Json} (h : j.member k = some v) : j.field read default k = read v := by
  rw [field, h]

/-- A list of texts is read back. -/
@[simp] theorem strings_arr (l : List String) : strings (arr (l.map str)) = some l := by
  rw [strings, list]
  induction l with
  | nil => rfl
  | cons s l ih =>
      rw [List.map_cons, List.mapM_cons, ih]
      rfl

/-- What is read of a list was read of its members. -/
theorem of_mem_list {α : Type} {read : Json → Option α} {l : List Json} {as : List α} {a : α}
    (h : list read (arr l) = some as) (ha : a ∈ as) : ∃ j ∈ l, read j = some a := by
  rw [list] at h
  induction l generalizing as with
  | nil =>
      obtain rfl := Option.some.inj h
      exact absurd ha List.not_mem_nil
  | cons j l ih =>
      rw [List.mapM_cons] at h
      obtain ⟨a', ha', h⟩ := Option.bind_eq_some_iff.mp h
      obtain ⟨as', has', h⟩ := Option.bind_eq_some_iff.mp h
      obtain rfl := Option.some.inj h
      rcases List.mem_cons.mp ha with rfl | ha
      · exact ⟨j, List.mem_cons_self, ha'⟩
      · obtain ⟨j', hj', hread⟩ := ih has' ha
        exact ⟨j', List.mem_cons_of_mem _ hj', hread⟩

@[simp] theorem string_str (s : String) : string (str s) = some s := rfl

end Json
