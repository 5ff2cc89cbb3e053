import Mathlib.Algebra.Order.Group.Defs
import Mathlib.Data.List.Basic
import Mathlib.Order.Basic

/-!
# Sliding Windows Over a Log

A log is a list of instants. `recent s l` is what a window that opens at `s` sees of it, without
the instant `s` itself. A log may be pruned behind a window that only moves forward: `SameFrom s`
relates two logs that no window from `s` on can tell apart. `Limited w n` says that no window of
length `w`, wherever it ends, holds more than `n` entries, and `Limited.append` is the admission
test that keeps it.

## Main results

* `recent_recent` — windows nest.
* `SameFrom.prune` — what is older than the window may go.
* `Limited.append` — an entry is admitted while the window that ends now holds fewer than `n`.
-/

namespace SlidingWindow

section Order

variable {T : Type} [LinearOrder T] {s s' : T} {l l' : List T}

/-- What a window that opens at `s` sees of a log. -/
def recent (s : T) (l : List T) : List T := l.filter fun t => s < t

@[simp] theorem recent_nil (s : T) : recent s [] = [] := rfl

@[simp] theorem recent_append (s : T) (l l' : List T) :
    recent s (l ++ l') = recent s l ++ recent s l' := List.filter_append ..

theorem mem_recent {t : T} : t ∈ recent s l ↔ t ∈ l ∧ s < t := by simp [recent]

/-- **Windows nest**: a later window sees the same through an earlier one. -/
theorem recent_recent (h : s ≤ s') (l : List T) : recent s' (recent s l) = recent s' l := by
  rw [recent, recent, List.filter_filter]
  refine List.filter_congr fun t _ => ?_
  rw [← Bool.decide_and, decide_eq_decide]
  exact ⟨fun h' => h'.1, fun h' => ⟨h', h.trans_lt h'⟩⟩

/-- A log that is over before the window opens is not seen. -/
theorem recent_eq_nil (h : ∀ t ∈ l, t ≤ s) : recent s l = [] :=
  List.filter_eq_nil_iff.mpr fun t ht => by simpa using h t ht

/-- A log that begins after the window has opened is seen as it is. -/
theorem recent_eq_self (h : ∀ t ∈ l, s < t) : recent s l = l :=
  List.filter_eq_self.mpr fun t ht => decide_eq_true (h t ht)

/-- **Two logs that no window from `s` on can tell apart.** -/
def SameFrom (s : T) (l l' : List T) : Prop := ∀ s', s ≤ s' → recent s' l = recent s' l'

theorem SameFrom.refl (s : T) (l : List T) : SameFrom s l l := fun _ _ => rfl

theorem SameFrom.trans {l'' : List T} (h : SameFrom s l l') (h' : SameFrom s l' l'') :
    SameFrom s l l'' := fun s' hs => (h s' hs).trans (h' s' hs)

/-- The window only moves forward. -/
theorem SameFrom.mono (h : SameFrom s l l') (hs : s ≤ s') : SameFrom s' l l' :=
  fun s'' hs'' => h s'' (hs.trans hs'')

theorem SameFrom.append (h : SameFrom s l l') (m : List T) : SameFrom s (l ++ m) (l' ++ m) := by
  intro s' hs
  rw [recent_append, recent_append, h s' hs]

/-- **What is older than the window may go.** -/
theorem SameFrom.prune (s : T) (l : List T) : SameFrom s (recent s l) l :=
  fun _ hs => recent_recent hs l

/-- A log that is over before the window opens may go altogether. -/
theorem SameFrom.drop (h : ∀ t ∈ l, t ≤ s) : SameFrom s [] l := by
  intro s' hs
  rw [recent_nil, recent_eq_nil fun t ht => (h t ht).trans hs]

end Order

section Group

variable {T : Type} [AddCommGroup T] [LinearOrder T] [IsOrderedAddMonoid T] {w : T} {n : ℕ}
variable {l l' : List T}

/-- The entries of a log in the window of length `w` that ends at `t`. -/
def window (w t : T) (l : List T) : List T := l.filter fun x => t - w < x ∧ x ≤ t

/-- **No window of length `w` holds more than `n` entries.** -/
def Limited (w : T) (n : ℕ) (l : List T) : Prop := ∀ t, (window w t l).length ≤ n

omit [IsOrderedAddMonoid T] in
theorem limited_nil : Limited w n ([] : List T) := fun _ => Nat.zero_le _

omit [IsOrderedAddMonoid T] in
theorem Limited.sublist (h : Limited w n l) (hl : l'.Sublist l) : Limited w n l' :=
  fun t => (hl.filter _).length_le.trans (h t)

/-- **The admission test**: an entry is admitted while the window that ends now holds fewer than
`n` entries. -/
theorem Limited.append (h : Limited w n l) {now : T}
    (hroom : (recent (now - w) l).length < n) : Limited w n (l ++ [now]) := by
  intro t
  rw [window, List.filter_append, List.length_append]
  by_cases hin : t - w < now ∧ now ≤ t
  · -- the window at `t` ends no earlier than now, so it sees no more of the log than now
    have hsub : (l.filter fun x => decide (t - w < x ∧ x ≤ t)).Sublist (recent (now - w) l) := by
      refine List.monotone_filter_right l fun x hx => ?_
      rw [decide_eq_true_eq] at hx ⊢
      exact (sub_le_sub_right hin.2 w).trans_lt hx.1
    have hone : ([now].filter fun x => decide (t - w < x ∧ x ≤ t)).length ≤ 1 :=
      List.length_filter_le _ _
    have := hsub.length_le
    omega
  · rw [List.filter_cons_of_neg (by simpa using hin)]
    exact h t

end Group

end SlidingWindow
