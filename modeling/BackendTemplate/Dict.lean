import Mathlib.Data.List.Induction
import Mathlib.Data.List.Sort
import BackendTemplate.Keyed

/-!
# Dictionaries

A dictionary as the list of its entries in their order, with the operations programs use on
one: look a key up, drop keys, overwrite the values of some keys, assign to keys, sort by key. The
results say what these operations do to the keys, and when two dictionaries become the same once
the values of some keys are overwritten (`mask_eq`).
-/

namespace Dict

variable {κ β γ : Type} [DecidableEq κ] {d d' : List (κ × β)} {ks : List κ} {k : κ}

/-- The value of a key. -/
def get (d : List (κ × β)) (k : κ) : Option β := (Keyed.lookup Prod.fst d k).map Prod.snd

/-- The dictionary without some keys. -/
def drop (ks : List κ) (d : List (κ × β)) : List (κ × β) := d.filter fun e => e.1 ∉ ks

/-- Overwrite the values of some keys, where they are present. -/
def mask (ks : List κ) (v : β) (d : List (κ × β)) : List (κ × β) :=
  d.map fun e => if e.1 ∈ ks then (e.1, v) else e

theorem get_cons (e : κ × β) (d : List (κ × β)) (k : κ) :
    get (e :: d) k = if e.1 = k then some e.2 else get d k := by
  rw [get, Keyed.lookup_cons]
  split
  · rfl
  · rfl

/-- A key that is not there has no value. -/
theorem get_eq_none (h : k ∉ d.map Prod.fst) : get d k = none := by
  rw [get, Keyed.lookup_eq_none.mpr h]
  rfl

/-- Translating the values translates what is looked up. -/
theorem get_map (f : β → γ) (d : List (κ × β)) (k : κ) :
    get (d.map fun e => (e.1, f e.2)) k = (get d k).map f := by
  induction d with
  | nil => rfl
  | cons e d ih =>
      rw [List.map_cons, get_cons, get_cons, ih]
      split
      · rfl
      · rfl

/-- **What dropping keys leaves.** -/
theorem get_drop (ks : List κ) (d : List (κ × β)) (k : κ) :
    get (drop ks d) k = if k ∈ ks then none else get d k := by
  induction d with
  | nil => simp [get, drop, Keyed.lookup]
  | cons e d ih =>
      by_cases he : e.1 ∈ ks
      · rw [drop, List.filter_cons_of_neg (by simpa using he), get_cons]
        change get (drop ks d) k = _
        rw [ih]
        split
        · rfl
        · rename_i hk
          rw [if_neg fun hek : e.1 = k => hk (hek ▸ he)]
      · rw [drop, List.filter_cons_of_pos (by simpa using he), get_cons, get_cons]
        change (if e.1 = k then some e.2 else get (drop ks d) k) = _
        rw [ih]
        by_cases hek : e.1 = k
        · rw [if_pos hek, if_neg (hek ▸ he), if_pos hek]
        · rw [if_neg hek, if_neg hek]

/-- **What overwriting keys leaves** of the others. -/
theorem get_mask (hk : k ∉ ks) (v : β) (d : List (κ × β)) : get (mask ks v d) k = get d k := by
  induction d with
  | nil => rfl
  | cons e d ih =>
      rw [mask, List.map_cons, get_cons, get_cons]
      change (if _ then _ else get (mask ks v d) k) = _
      rw [ih]
      by_cases he : e.1 ∈ ks
      · have hne : e.1 ≠ k := fun hek => hk (hek ▸ he)
        rw [if_pos he, if_neg hne, if_neg hne]
      · rw [if_neg he]

/-- The order of the entries does not matter to what is looked up. -/
theorem get_perm (h : d.Perm d') (hnodup : (d.map Prod.fst).Nodup) (k : κ) : get d k = get d' k := by
  have hnodup' : (d'.map Prod.fst).Nodup := (h.map Prod.fst).nodup_iff.mp hnodup
  rw [get, get]
  cases hl : Keyed.lookup Prod.fst d k with
  | none =>
      rw [Keyed.lookup_eq_none, (h.map Prod.fst).mem_iff] at hl
      rw [Keyed.lookup_eq_none.mpr hl]
  | some e =>
      obtain rfl := Keyed.key_of_lookup hl
      have he := h.mem_iff.mp (Keyed.mem_of_lookup hl)
      rw [(Keyed.mem_iff_lookup hnodup').mp he]

/-- Dropped keys are gone. -/
theorem not_mem_drop (hk : k ∈ ks) : k ∉ (drop ks d).map Prod.fst := by
  rw [List.mem_map]
  rintro ⟨e, he, rfl⟩
  exact absurd hk (by simpa using (List.mem_filter.mp he).2)

/-- The other keys stay. -/
theorem mem_drop (hk : k ∉ ks) (h : k ∈ d.map Prod.fst) : k ∈ (drop ks d).map Prod.fst := by
  obtain ⟨e, he, rfl⟩ := List.mem_map.mp h
  exact List.mem_map_of_mem (List.mem_filter.mpr ⟨he, decide_eq_true hk⟩)

/-- Dropping keys adds none. -/
theorem drop_keys_subset : (drop ks d).map Prod.fst ⊆ d.map Prod.fst :=
  (List.filter_sublist.map Prod.fst).subset

/-- **Two dictionaries with the same keys that differ only at some of them are the same once
the values of those are overwritten.** -/
theorem mask_eq (hkeys : d.map Prod.fst = d'.map Prod.fst) (hnodup : (d.map Prod.fst).Nodup)
    (hag : ∀ k, k ∉ ks → get d k = get d' k) (v : β) : mask ks v d = mask ks v d' := by
  induction d generalizing d' with
  | nil =>
      obtain rfl := List.map_eq_nil_iff.mp hkeys.symm
      rfl
  | cons e d ih =>
      cases d' with
      | nil => exact absurd hkeys (by simp)
      | cons e' d' =>
          obtain ⟨hhead, htail⟩ := List.cons.inj hkeys
          rw [List.map_cons, List.nodup_cons] at hnodup
          have hrest : ∀ k, k ∉ ks → get d k = get d' k := by
            intro k hk
            by_cases hek : e.1 = k
            · subst hek
              rw [get_eq_none hnodup.1, get_eq_none (htail ▸ hnodup.1)]
            · have := hag k hk
              rwa [get_cons, get_cons, if_neg hek, if_neg (hhead ▸ hek)] at this
          have hsame : (if e.1 ∈ ks then (e.1, v) else e) =
              if e'.1 ∈ ks then (e'.1, v) else e' := by
            by_cases hk : e.1 ∈ ks
            · rw [if_pos hk, if_pos (hhead ▸ hk), hhead]
            · have := hag e.1 hk
              rw [get_cons, get_cons, if_pos rfl, if_pos hhead.symm] at this
              rw [if_neg hk, if_neg (hhead ▸ hk)]
              exact Prod.ext hhead (Option.some.inj this)
          rw [mask, mask, List.map_cons, List.map_cons, hsame]
          exact congrArg _ (ih htail hnodup.2 hrest)

/-! ### Assignments -/

/-- `d[k] = v`: in the place of the value that is there, else at the end. -/
def put (k : κ) (v : β) : List (κ × β) → List (κ × β)
  | [] => [(k, v)]
  | e :: d => if e.1 = k then (k, v) :: d else e :: put k v d

/-- `d.update(d')`. -/
def update (d d' : List (κ × β)) : List (κ × β) := d'.foldl (fun d e => put e.1 e.2 d) d

theorem get_put (k : κ) (v : β) (d : List (κ × β)) (k' : κ) :
    get (put k v d) k' = if k = k' then some v else get d k' := by
  induction d with
  | nil => rw [put, get_cons]
  | cons e d ih =>
      rw [put]
      by_cases he : e.1 = k
      · rw [if_pos he, get_cons, get_cons]
        subst he
        by_cases hk : e.1 = k'
        · rw [if_pos hk, if_pos hk]
        · rw [if_neg hk, if_neg hk, if_neg hk]
      · rw [if_neg he, get_cons, get_cons, ih]
        by_cases hk : k = k'
        · subst hk
          rw [if_neg he, if_pos rfl, if_pos rfl]
        · rw [if_neg hk, if_neg hk]

/-- A key that is there stays in its place, and another one is added at the end. -/
theorem keys_put (k : κ) (v : β) (d : List (κ × β)) :
    (put k v d).map Prod.fst =
      if k ∈ d.map Prod.fst then d.map Prod.fst else d.map Prod.fst ++ [k] := by
  induction d with
  | nil => rfl
  | cons e d ih =>
      rw [put]
      by_cases he : e.1 = k
      · rw [if_pos he, if_pos (he ▸ List.mem_cons_self), List.map_cons, List.map_cons, he]
      · rw [if_neg he, List.map_cons, ih, List.map_cons]
        by_cases hk : k ∈ d.map Prod.fst
        · rw [if_pos hk, if_pos (List.mem_cons_of_mem _ hk)]
        · rw [if_neg hk, if_neg fun h => hk ((List.mem_cons.mp h).resolve_left (Ne.symm he)),
            List.cons_append]

/-- What is not there yet is added at the end. -/
theorem put_of_not_mem (h : k ∉ d.map Prod.fst) (v : β) : put k v d = d ++ [(k, v)] := by
  induction d with
  | nil => rfl
  | cons e d ih =>
      rw [List.map_cons, List.mem_cons, not_or] at h
      rw [put, if_neg (Ne.symm h.1), ih h.2, List.cons_append]

/-- No key becomes one of two. -/
theorem nodup_put (h : (d.map Prod.fst).Nodup) (k : κ) (v : β) :
    ((put k v d).map Prod.fst).Nodup := by
  rw [keys_put]
  split
  · exact h
  · rename_i hk
    exact List.nodup_append'.mpr ⟨h, List.nodup_singleton k, List.disjoint_singleton.mpr hk⟩

/-- Every value that is there was there, or is the one assigned. -/
theorem mem_put {e : κ × β} {v : β} (h : e ∈ put k v d) : e ∈ d ∨ e = (k, v) := by
  induction d with
  | nil => exact Or.inr (List.mem_singleton.mp h)
  | cons e' d ih =>
      rw [put] at h
      by_cases he : e'.1 = k
      · rw [if_pos he, List.mem_cons] at h
        exact h.elim Or.inr fun h => Or.inl (List.mem_cons_of_mem _ h)
      · rw [if_neg he, List.mem_cons] at h
        rcases h with rfl | h
        · exact Or.inl List.mem_cons_self
        · exact (ih h).imp_left (List.mem_cons_of_mem _)

theorem update_cons (d : List (κ × β)) (e : κ × β) (d' : List (κ × β)) :
    update d (e :: d') = update (put e.1 e.2 d) d' := rfl

theorem nodup_update (h : (d.map Prod.fst).Nodup) : ((update d d').map Prod.fst).Nodup := by
  induction d' generalizing d with
  | nil => exact h
  | cons e d' ih => exact ih (nodup_put h e.1 e.2)

theorem mem_update {e : κ × β} (h : e ∈ update d d') : e ∈ d ∨ e ∈ d' := by
  induction d' generalizing d with
  | nil => exact Or.inl h
  | cons e' d' ih =>
      rcases ih h with h | h
      · rcases mem_put h with h | rfl
        · exact Or.inl h
        · exact Or.inr List.mem_cons_self
      · exact Or.inr (List.mem_cons_of_mem _ h)

/-- **The last value of a key counts**, and where there is none, the value there was. -/
theorem get_update (d d' : List (κ × β)) (k : κ) :
    get (update d d') k = (get d'.reverse k).or (get d k) := by
  induction d' using List.reverseRecOn with
  | nil => rfl
  | append_singleton d' e ih =>
      rw [update, List.foldl_append]
      change get (put e.1 e.2 (update d d')) k = _
      rw [get_put, ih, List.reverse_append, List.reverse_singleton, List.singleton_append,
        get_cons]
      split
      · rfl
      · rfl

/-- Keys that are new are added in their order. -/
theorem update_of_disjoint (h : (d'.map Prod.fst).Nodup)
    (hdisj : ∀ e ∈ d', e.1 ∉ d.map Prod.fst) : update d d' = d ++ d' := by
  induction d' generalizing d with
  | nil => exact (List.append_nil d).symm
  | cons e d' ih =>
      rw [List.map_cons, List.nodup_cons] at h
      rw [update_cons, put_of_not_mem (hdisj e List.mem_cons_self)]
      rw [ih h.2 fun e' he' => ?_, List.append_assoc, List.singleton_append]
      rw [List.map_append, List.mem_append, not_or]
      refine ⟨hdisj e' (List.mem_cons_of_mem _ he'), fun hmem => ?_⟩
      rw [List.map_singleton, List.mem_singleton] at hmem
      exact h.1 (hmem ▸ List.mem_map_of_mem he')

section Sorting

variable (r : κ → κ → Prop) [DecidableRel r]

/-- Sort the entries by their keys. -/
def sort (d : List (κ × β)) : List (κ × β) := d.insertionSort fun e e' => r e.1 e'.1

omit [DecidableEq κ] in
/-- Sorting by key does not look at the values. -/
theorem map_sort (f : κ → β → γ) (d : List (κ × β)) :
    (sort r d).map (fun e => (e.1, f e.1 e.2)) = sort r (d.map fun e => (e.1, f e.1 e.2)) :=
  List.map_insertionSort _ _ _ d fun _ _ _ _ => Iff.rfl

/-- Overwriting values and sorting by key commute. -/
theorem mask_sort (ks : List κ) (v : β) (d : List (κ × β)) :
    mask ks v (sort r d) = sort r (mask ks v d) := by
  have hmask : ∀ d : List (κ × β),
      mask ks v d = d.map fun e => (e.1, if e.1 ∈ ks then v else e.2) := fun d => by
    refine List.map_congr_left fun e _ => ?_
    split
    · rfl
    · rfl
  rw [hmask, hmask]
  exact map_sort r (fun k b => if k ∈ ks then v else b) d

/-- Sorting by key changes nothing that is looked up. -/
theorem get_sort (hnodup : (d.map Prod.fst).Nodup) (k : κ) : get (sort r d) k = get d k :=
  (get_perm (List.perm_insertionSort _ d).symm hnodup k).symm

end Sorting

end Dict
