import Mathlib.Data.Fintype.Basic

/-!
# Open Transactions and Row Locks

Under READ COMMITTED a transaction reads the committed store overlaid with its own
writes, and a row it has written stays locked until it ends. This module states what that
buys, for any store and any kind of write: the writes of a transaction are a list, `view`
is the store with the list applied, and a write holds the keys of the rows it touches.

If the keys held by open transactions are pairwise disjoint (`Exclusive`), then no other
transaction can change a row between the moment one of them writes it and the moment it
ends (`Exclusive.view_eq`). Disjointness itself is kept because a write that meets a held
key waits (`Free`, `Exclusive.extend`).
-/

namespace RowLocks

variable {ι σ ω κ ρ : Type}

/-- The store as a transaction with pending writes `ws` sees it. -/
def view (apply : σ → ω → σ) (s : σ) (ws : List ω) : σ := ws.foldl apply s

@[simp] theorem view_nil (apply : σ → ω → σ) (s : σ) : view apply s [] = s := rfl

@[simp] theorem view_append (apply : σ → ω → σ) (s : σ) (ws ws' : List ω) :
    view apply s (ws ++ ws') = view apply (view apply s ws) ws' :=
  List.foldl_append

/-- Pending writes hold the keys of the rows they touch. -/
def Holds (keys : ω → List κ) (ws : List ω) (k : κ) : Prop := ∃ w ∈ ws, k ∈ keys w

instance [DecidableEq κ] (keys : ω → List κ) (ws : List ω) (k : κ) : Decidable (Holds keys ws k) :=
  inferInstanceAs (Decidable (∃ w ∈ ws, k ∈ keys w))

/-- No two open transactions hold the same key. -/
def Exclusive (keys : ω → List κ) (txs : ι → List ω) : Prop :=
  ∀ i j, i ≠ j → ∀ k, Holds keys (txs i) k → ¬ Holds keys (txs j) k

/-- The writes `ws` of transaction `i` meet no key held by another one. -/
def Free (keys : ω → List κ) (txs : ι → List ω) (i : ι) (ws : List ω) : Prop :=
  ∀ j, j ≠ i → ∀ w' ∈ txs j, ∀ k ∈ keys w', ∀ w ∈ ws, k ∉ keys w

instance [Fintype ι] [DecidableEq ι] [DecidableEq κ] (keys : ω → List κ)
    (txs : ι → List ω) (i : ι) (ws : List ω) : Decidable (Free keys txs i ws) :=
  inferInstanceAs (Decidable (∀ j, j ≠ i → ∀ w' ∈ txs j, ∀ k ∈ keys w', ∀ w ∈ ws, k ∉ keys w))

theorem holds_append {keys : ω → List κ} {ws ws' : List ω} {k : κ} :
    Holds keys (ws ++ ws') k ↔ Holds keys ws k ∨ Holds keys ws' k := by
  simp only [Holds, List.mem_append, or_and_right, exists_or]

theorem not_holds_nil {keys : ω → List κ} {k : κ} : ¬ Holds keys ([] : List ω) k := by
  rintro ⟨w, hw, -⟩
  exact absurd hw List.not_mem_nil

section Update

variable [DecidableEq ι] {keys : ω → List κ} {txs : ι → List ω} {i : ι}

/-- Appending free writes keeps the open transactions exclusive. -/
theorem Exclusive.extend (h : Exclusive keys txs) {ws : List ω}
    (hf : Free keys txs i ws) :
    Exclusive keys (Function.update txs i (txs i ++ ws)) := by
  have hnew : ∀ j, j ≠ i → ∀ k, Holds keys ws k → ¬ Holds keys (txs j) k := by
    rintro j hj k ⟨w, hw, hk⟩ ⟨w', hw', hk'⟩
    exact hf j hj w' hw' k hk' w hw hk
  intro a b hab k ha hb
  by_cases hai : a = i
  · subst hai
    have hba : b ≠ a := fun e => hab e.symm
    rw [Function.update_self] at ha
    rw [Function.update_of_ne hba] at hb
    rcases holds_append.mp ha with ha | ha
    · exact h a b hab k ha hb
    · exact hnew b hba k ha hb
  · rw [Function.update_of_ne hai] at ha
    by_cases hbi : b = i
    · subst hbi
      rw [Function.update_self] at hb
      rcases holds_append.mp hb with hb | hb
      · exact h a b hab k ha hb
      · exact hnew a hai k hb ha
    · rw [Function.update_of_ne hbi] at hb
      exact h a b hab k ha hb

/-- Ending a transaction keeps the others exclusive. -/
theorem Exclusive.clear (h : Exclusive keys txs) :
    Exclusive keys (Function.update txs i []) := by
  intro a b hab k ha hb
  by_cases hai : a = i
  · subst hai
    rw [Function.update_self] at ha
    exact not_holds_nil ha
  · by_cases hbi : b = i
    · subst hbi
      rw [Function.update_self] at hb
      exact not_holds_nil hb
    · rw [Function.update_of_ne hai] at ha
      rw [Function.update_of_ne hbi] at hb
      exact h a b hab k ha hb

end Update

/-- A part of the store guarded by key `k` is changed only by writes that hold `k`. -/
def Guards (apply : σ → ω → σ) (keys : ω → List κ) (k : κ) (get : σ → ρ) : Prop :=
  ∀ s w, k ∉ keys w → get (apply s w) = get s

/-- Writes that do not hold a key leave what it guards alone. -/
theorem Guards.view_eq {apply : σ → ω → σ} {keys : ω → List κ} {k : κ} {get : σ → ρ}
    (hg : Guards apply keys k get) {ws : List ω} (h : ¬ Holds keys ws k) (s : σ) :
    get (view apply s ws) = get s := by
  induction ws generalizing s with
  | nil => rfl
  | cons w ws ih =>
      have hw : k ∉ keys w := fun hk => h ⟨w, List.mem_cons_self, hk⟩
      have hws : ¬ Holds keys ws k := by
        rintro ⟨w', hw', hk⟩
        exact h ⟨w', List.mem_cons_of_mem _ hw', hk⟩
      calc get (view apply s (w :: ws)) = get (view apply (apply s w) ws) := rfl
        _ = get (apply s w) := ih hws _
        _ = get s := hg s w hw

/-- **The last write that holds a key decides what it guards**, and with no such write
nothing changes. -/
theorem Guards.last {apply : σ → ω → σ} {keys : ω → List κ} {k : κ} {get : σ → ρ}
    (hg : Guards apply keys k get) (ws : List ω) (s : σ) :
    (¬ Holds keys ws k ∧ get (view apply s ws) = get s) ∨
      ∃ ws₁ w, w ∈ ws ∧ k ∈ keys w ∧ ws₁ ⊆ ws ∧
        get (view apply s ws) = get (apply (view apply s ws₁) w) := by
  induction ws generalizing s with
  | nil => exact Or.inl ⟨not_holds_nil, rfl⟩
  | cons w ws ih =>
      have hcons : view apply s (w :: ws) = view apply (apply s w) ws := rfl
      rcases ih (apply s w) with ⟨hnot, heq⟩ | ⟨ws₁, w', hw', hk, hsub, heq⟩
      · by_cases hk : k ∈ keys w
        · exact Or.inr ⟨[], w, List.mem_cons_self, hk, List.nil_subset _, hcons ▸ heq⟩
        · refine Or.inl ⟨?_, hcons ▸ heq.trans (hg s w hk)⟩
          rintro ⟨w', hw', hk'⟩
          rcases List.mem_cons.mp hw' with rfl | hw'
          · exact hk hk'
          · exact hnot ⟨w', hw', hk'⟩
      · refine Or.inr ⟨w :: ws₁, w', List.mem_cons_of_mem _ hw', hk, ?_, hcons ▸ heq⟩
        exact List.cons_subset_cons _ hsub

/-- **A held row does not move**: while transaction `i` holds a key, the commit of
another one leaves what the key guards unchanged. -/
theorem Exclusive.view_eq {apply : σ → ω → σ} {keys : ω → List κ} {txs : ι → List ω}
    {k : κ} {get : σ → ρ} (h : Exclusive keys txs) (hg : Guards apply keys k get)
    {i j : ι} (hij : i ≠ j) (hk : Holds keys (txs i) k) (s : σ) :
    get (view apply s (txs j)) = get s :=
  hg.view_eq (h i j hij k hk) s

end RowLocks
