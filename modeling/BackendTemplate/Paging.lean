import Mathlib.Data.List.Lattice
import Mathlib.Data.List.Nodup
import Mathlib.Data.List.Pairwise
import Mathlib.Data.List.Perm.Subperm

/-!
# Paging

A client asks for a list page by page: the `k`-th request is answered with the slice from
`k * limit` on, as long as `limit`, of the list as it is listed then. Between two requests the order
of the list may change, but not what is in it.

The client stops after as many pages as the list needs, whatever the orders. It sees everything
exactly once if and only if no entry is found twice, and that depends on the orders alone: on the
places at which each of them has an entry.

## Main results

* `collect_eq` — the client stops at the first page after which there is no more.
* `mem_page_iff` — an entry is on the page that its place belongs to.
* `pages_perm_iff` — the orders in which each entry is seen exactly once.
* `pages_perm_of_same_order` — one order will do.
-/

namespace Paging

/-! ### The client -/

section Collect

variable {β : Type*} (answer : ℕ → β) (more : β → Bool)

/-- Request after request, from the `k`-th on, while there is more. -/
def collect : ℕ → ℕ → Option (List β)
  | 0, _ => none
  | fuel + 1, k =>
      if more (answer k) then (collect fuel (k + 1)).map (answer k :: ·) else some [answer k]

variable {answer more}

/-- **The client stops** at the first answer after which there is no more. -/
theorem collect_eq {k m : ℕ} (hmore : ∀ i, k ≤ i → i < k + m → more (answer i) = true)
    (hlast : more (answer (k + m)) = false) :
    collect answer more (m + 1) k = some ((List.range (m + 1)).map fun i => answer (k + i)) := by
  induction m generalizing k with
  | zero =>
      rw [Nat.add_zero] at hlast
      simp [collect, hlast]
  | succ m ih =>
      rw [collect, if_pos (hmore k (Nat.le_refl k) (by omega)),
        ih (fun i hi hlt => hmore i (by omega) (by omega)) (by rwa [Nat.add_assoc, Nat.add_comm 1]),
        Option.map_some, List.range_succ_eq_map (n := m + 1), List.map_cons, List.map_map,
        Nat.add_zero]
      congr 2
      exact List.map_congr_left fun i _ => congrArg answer (by omega)

/-- More fuel changes nothing. -/
theorem collect_mono {fuel fuel' k : ℕ} {answers : List β} (hle : fuel ≤ fuel')
    (h : collect answer more fuel k = some answers) :
    collect answer more fuel' k = some answers := by
  induction fuel generalizing fuel' k answers with
  | zero => cases h
  | succ fuel ih =>
      obtain ⟨fuel', rfl⟩ := Nat.exists_eq_add_of_le hle
      rw [Nat.add_right_comm, collect]
      rw [collect] at h
      split at h
      · rename_i hmore
        obtain ⟨rest, hrest, rfl⟩ := Option.map_eq_some_iff.mp h
        rw [if_pos hmore, ih (Nat.le_add_right fuel fuel') hrest, Option.map_some]
      · rename_i hmore
        rw [if_neg hmore, h]

/-- What the client gets does not depend on the fuel. -/
theorem collect_unique {fuel fuel' k : ℕ} {answers answers' : List β}
    (h : collect answer more fuel k = some answers)
    (h' : collect answer more fuel' k = some answers') : answers = answers' := by
  rcases Nat.le_total fuel fuel' with hle | hle
  · exact Option.some.inj ((collect_mono hle h).symm.trans h')
  · exact Option.some.inj (h.symm.trans (collect_mono hle h'))

end Collect

/-! ### The pages -/

section Pages

variable {α : Type*}

/-- `l[offset : offset + limit]`. -/
def slice (l : List α) (offset limit : ℕ) : List α := (l.drop offset).take limit

theorem slice_sublist (l : List α) (offset limit : ℕ) : (slice l offset limit).Sublist l :=
  (List.take_sublist _ _).trans (List.drop_sublist _ _)

@[simp] theorem length_slice (l : List α) (offset limit : ℕ) :
    (slice l offset limit).length = min limit (l.length - offset) := by
  rw [slice, List.length_take, List.length_drop]

variable {l rows : List α} {limit : ℕ} {order : ℕ → List α}

/-- **An entry is on the page of its place.** -/
theorem mem_page_iff [DecidableEq α] (hlimit : 0 < limit) (hl : l.Nodup) {s : α} (hs : s ∈ l)
    (k : ℕ) : s ∈ slice l (k * limit) limit ↔ l.idxOf s / limit = k := by
  have hplace : ∀ i, l[i]? = some s ↔ l.idxOf s = i := by
    intro i
    constructor
    · intro hi
      obtain ⟨hlt, rfl⟩ := List.getElem?_eq_some_iff.mp hi
      exact hl.idxOf_getElem i hlt
    · rintro rfl
      exact List.getElem?_eq_some_iff.mpr ⟨List.idxOf_lt_length_of_mem hs, List.getElem_idxOf _⟩
  rw [slice, List.mem_iff_getElem?, Nat.div_eq_iff hlimit]
  constructor
  · rintro ⟨i, hi⟩
    rw [List.getElem?_take] at hi
    split at hi
    · rename_i hlt
      rw [List.getElem?_drop] at hi
      have := (hplace _).mp hi
      omega
    · cases hi
  · rintro ⟨hle, hlt⟩
    refine ⟨l.idxOf s - k * limit, ?_⟩
    rw [List.getElem?_take, if_pos (by omega), List.getElem?_drop]
    exact (hplace _).mpr (by omega)

/-- The pages of the first `m` requests. -/
def pages (order : ℕ → List α) (limit m : ℕ) : List α :=
  (List.range m).flatMap fun k => slice (order k) (k * limit) limit

/-- How much the pages have. -/
theorem length_pages (horder : ∀ k, (order k).Perm rows) (m : ℕ) :
    (pages order limit m).length = min (m * limit) rows.length := by
  induction m with
  | zero => simp [pages]
  | succ m ih =>
      rw [pages] at ih
      rw [pages, List.range_succ, List.flatMap_append, List.length_append, ih,
        List.flatMap_singleton, length_slice, (horder m).length_eq, Nat.succ_mul]
      omega

theorem pages_subset (horder : ∀ k, (order k).Perm rows) (m : ℕ) : pages order limit m ⊆ rows := by
  intro s hs
  obtain ⟨k, -, hk⟩ := List.mem_flatMap.mp hs
  exact (horder k).subset ((slice_sublist _ _ _).subset hk)

variable [DecidableEq α]

/-- **An entry is met once**: there is at most one request at which its place in the order of then
is on the page that is asked for. -/
def MetOnce (order : ℕ → List α) (limit : ℕ) (s : α) : Prop :=
  ∀ i j, (order i).idxOf s / limit = i → (order j).idxOf s / limit = j → i = j

/-- The pages repeat nothing exactly when every entry is met once. -/
theorem pages_nodup_iff (hlimit : 0 < limit) (hrows : rows.Nodup)
    (horder : ∀ k, (order k).Perm rows) {m : ℕ} (hm : rows.length ≤ m * limit) :
    (pages order limit m).Nodup ↔ ∀ s ∈ rows, MetOnce order limit s := by
  have hnodup : ∀ k, (order k).Nodup := fun k => (horder k).nodup_iff.mpr hrows
  have hmem : ∀ {s}, s ∈ rows → ∀ k, s ∈ slice (order k) (k * limit) limit ↔
      (order k).idxOf s / limit = k :=
    fun hs k => mem_page_iff hlimit (hnodup k) ((horder k).mem_iff.mpr hs) k
  -- The page of a place is one of the first `m`.
  have hlt : ∀ {s}, s ∈ rows → ∀ k, (order k).idxOf s / limit = k → k < m := by
    intro s hs k hk
    have hplace := List.idxOf_lt_length_of_mem ((horder k).mem_iff.mpr hs)
    rw [(horder k).length_eq] at hplace
    rw [← hk]
    exact Nat.div_lt_of_lt_mul (by rw [Nat.mul_comm]; omega)
  rw [pages, List.nodup_flatMap]
  constructor
  · rintro ⟨-, hpairs⟩ s hs i j hi hj
    by_contra hne
    have : Std.Symm (Function.onFun List.Disjoint fun k => slice (order k) (k * limit) limit) :=
      ⟨fun _ _ h => List.Disjoint.symm h⟩
    have hdisjoint := hpairs.forall (List.mem_range.mpr (hlt hs i hi))
      (List.mem_range.mpr (hlt hs j hj)) hne
    exact hdisjoint ((hmem hs i).mpr hi) ((hmem hs j).mpr hj)
  · intro h
    refine ⟨fun k _ => (hnodup k).sublist (slice_sublist _ _ _), ?_⟩
    refine List.nodup_range.pairwise_of_forall_ne fun i _ j _ hne s hi hj => hne ?_
    have hs : s ∈ rows := (horder i).subset ((slice_sublist _ _ _).subset hi)
    exact h s hs i j ((hmem hs i).mp hi) ((hmem hs j).mp hj)

/-- **When paging shows everything once.** Of any list without repetitions, in whatever order it is
listed for each request: the pages have every entry exactly once if and only if every entry is met
once. -/
theorem pages_perm_iff (hlimit : 0 < limit) (hrows : rows.Nodup)
    (horder : ∀ k, (order k).Perm rows) {m : ℕ} (hm : rows.length ≤ m * limit) :
    (pages order limit m).Perm rows ↔ ∀ s ∈ rows, MetOnce order limit s := by
  rw [← pages_nodup_iff hlimit hrows horder hm]
  constructor
  · intro h
    exact h.nodup_iff.mpr hrows
  · intro h
    refine (h.subperm (pages_subset horder m)).perm_of_length_le ?_
    rw [length_pages horder]
    omega

/-- **One order will do**: when every request is answered in the same order, every entry is met
once. -/
theorem metOnce_of_same_order (h : ∀ k, order k = l) (s : α) : MetOnce order limit s := by
  intro i j hi hj
  rw [h] at hi hj
  exact hi.symm.trans hj

end Pages

end Paging
