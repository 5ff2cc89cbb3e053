import Mathlib.Data.List.Nodup

/-!
# Tables With a Key

A table is a list of rows, each with a key; the statements that matter change the row
under one key (`modify`), append a row, or delete some. `lookup` is the table seen as a partial
function of the key. While keys are unique (`Nodup`), a row is in the table exactly when
it is what its key looks up (`mem_iff_lookup`), so a claim about every row and a claim
about every key are the same claim.

## Main results

* `lookup_modify`, `lookup_append`, `lookup_filter` — what a statement does to one key.
* `mem_iff_lookup` — rows and keys, for a table with unique keys.
* `nodup_modify`, `nodup_append` — unique keys stay unique.
-/

namespace Keyed

variable {ρ κ : Type} [DecidableEq κ] {key : ρ → κ} {rows : List ρ} {k : κ}

/-- The row under a key. -/
def lookup (key : ρ → κ) (rows : List ρ) (k : κ) : Option ρ :=
  rows.find? fun r => key r = k

/-- Change the row under a key. -/
def modify (key : ρ → κ) (k : κ) (f : ρ → ρ) (rows : List ρ) : List ρ :=
  rows.map fun r => if key r = k then f r else r

theorem lookup_cons (r : ρ) (rows : List ρ) (k : κ) :
    lookup key (r :: rows) k = if key r = k then some r else lookup key rows k := by
  rw [lookup, List.find?_cons]
  by_cases h : key r = k
  · simp [h]
  · simp [h, lookup]

/-- A change of rows that a filter leaves out is left out. -/
theorem filter_map_of_left_out {p : ρ → Bool} {f : ρ → ρ}
    (h : ∀ r, f r = r ∨ p r = false ∧ p (f r) = false) : (rows.map f).filter p = rows.filter p := by
  induction rows with
  | nil => rfl
  | cons r rows ih =>
      rw [List.map_cons, List.filter_cons, List.filter_cons, ih]
      rcases h r with hr | ⟨hout, hout'⟩
      · rw [hr]
      · rw [hout, hout']
        rfl

theorem key_of_lookup {r : ρ} (h : lookup key rows k = some r) : key r = k := by
  simpa using List.find?_some h

theorem mem_of_lookup {r : ρ} (h : lookup key rows k = some r) : r ∈ rows :=
  List.mem_of_find?_eq_some h

theorem lookup_eq_none : lookup key rows k = none ↔ k ∉ rows.map key := by
  rw [lookup, List.find?_eq_none, List.mem_map]
  constructor
  · rintro h ⟨r, hr, rfl⟩
    exact h r hr (by simp)
  · intro h r hr hk
    exact h ⟨r, hr, by simpa using hk⟩

theorem exists_lookup (key : ρ → κ) {r : ρ} (h : r ∈ rows) : ∃ r', lookup key rows (key r) = some r' := by
  cases hl : lookup key rows (key r) with
  | some r' => exact ⟨r', rfl⟩
  | none => exact absurd (List.mem_map_of_mem h) (lookup_eq_none.mp hl)

/-- **What a change under key `k` does to each key.** -/
theorem lookup_modify (key : ρ → κ) {f : ρ → ρ} (hf : ∀ r, key r = k → key (f r) = k) (k' : κ) :
    lookup key (modify key k f rows) k' =
      if k' = k then (lookup key rows k').map f else lookup key rows k' := by
  induction rows with
  | nil => simp [modify, lookup]
  | cons r rows ih =>
      have hcons : modify key k f (r :: rows) =
          (if key r = k then f r else r) :: modify key k f rows := rfl
      rw [hcons, lookup_cons, lookup_cons, ih]
      by_cases hr : key r = k
      · rw [if_pos hr, hf r hr, hr]
        by_cases hk : k = k'
        · subst hk
          simp
        · simp [hk, Ne.symm hk]
      · rw [if_neg hr]
        by_cases hk : key r = k'
        · subst hk
          simp [hr]
        · simp [hk]

/-- What appending a row does to each key. -/
theorem lookup_append (row : ρ) (k' : κ) :
    lookup key (rows ++ [row]) k' =
      (lookup key rows k').or (if key row = k' then some row else none) := by
  induction rows with
  | nil => simp [lookup, List.find?_cons]; split <;> simp_all
  | cons r rows ih =>
      rw [List.cons_append, lookup_cons, lookup_cons, ih]
      by_cases h : key r = k'
      · simp [h]
      · simp [h]

/-- **Rows and keys**: with unique keys a row is in the table exactly when its key looks
it up. -/
theorem mem_iff_lookup (h : (rows.map key).Nodup) {r : ρ} :
    r ∈ rows ↔ lookup key rows (key r) = some r := by
  refine ⟨fun hr => ?_, mem_of_lookup⟩
  obtain ⟨r', hr'⟩ := exists_lookup key hr
  have : r' = r := List.inj_on_of_nodup_map h (mem_of_lookup hr') hr (key_of_lookup hr')
  rw [hr', this]

/-- What deleting rows does to each key. -/
theorem lookup_filter (h : (rows.map key).Nodup) {p : ρ → Bool} {r : ρ} :
    lookup key (rows.filter p) k = some r ↔ lookup key rows k = some r ∧ p r = true := by
  have hsub : ((rows.filter p).map key).Nodup := h.sublist (List.filter_sublist.map key)
  constructor
  · intro hr
    obtain ⟨hmem, hp⟩ := List.mem_filter.mp (mem_of_lookup hr)
    rw [← key_of_lookup hr]
    exact ⟨(mem_iff_lookup h).mp hmem, hp⟩
  · rintro ⟨hr, hp⟩
    rw [← key_of_lookup hr]
    exact (mem_iff_lookup hsub).mp (List.mem_filter.mpr ⟨mem_of_lookup hr, hp⟩)

omit [DecidableEq κ] in
/-- With unique keys, what only the rows of one key give is given by one row. -/
theorem flatMap_of_key {β : Type} (h : (rows.map key).Nodup) {r : ρ} (hr : r ∈ rows)
    {f : ρ → List β} (hf : ∀ r' ∈ rows, key r' ≠ key r → f r' = []) :
    rows.flatMap f = f r := by
  induction rows with
  | nil => exact absurd hr List.not_mem_nil
  | cons a rows ih =>
      rw [List.map_cons, List.nodup_cons] at h
      have hrest : ∀ r' ∈ rows, key r' ≠ key r → f r' = [] := fun r' hr' =>
        hf r' (List.mem_cons_of_mem _ hr')
      rw [List.flatMap_cons]
      rcases List.mem_cons.mp hr with rfl | hr
      · have : rows.flatMap f = [] := List.flatMap_eq_nil_iff.mpr fun r' hr' =>
          hrest r' hr' fun hk => h.1 (hk ▸ List.mem_map_of_mem hr')
        rw [this, List.append_nil]
      · have : f a = [] := hf a List.mem_cons_self fun hk => h.1 (hk ▸ List.mem_map_of_mem hr)
        rw [this, List.nil_append, ih h.2 hr hrest]

theorem map_key_modify {f : ρ → ρ} (hf : ∀ r, key r = k → key (f r) = k) :
    (modify key k f rows).map key = rows.map key := by
  rw [modify, List.map_map]
  refine List.map_congr_left fun r _ => ?_
  by_cases hr : key r = k
  · simp [hr, hf r hr]
  · simp [hr]

theorem nodup_modify {f : ρ → ρ} (hf : ∀ r, key r = k → key (f r) = k)
    (h : (rows.map key).Nodup) : ((modify key k f rows).map key).Nodup := by
  rwa [map_key_modify hf]

omit [DecidableEq κ] in
theorem nodup_append {row : ρ} (h : (rows.map key).Nodup) (hn : key row ∉ rows.map key) :
    ((rows ++ [row]).map key).Nodup := by
  rw [List.map_append, List.map_singleton, List.nodup_append]
  refine ⟨h, by simp, ?_⟩
  rintro a ha b hb rfl
  rw [List.mem_singleton] at hb
  exact hn (hb ▸ ha)

end Keyed
