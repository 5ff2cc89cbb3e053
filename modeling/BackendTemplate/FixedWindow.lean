import BackendTemplate.SlidingWindow

/-!
# Fixed-Window Counters

A counter is opened by the first hit and counts the hits of its window, whose end it does not
move. Once the window is over the counter is gone, and the next hit opens another one. Nothing but
a number and an instant is kept, and what that loses is made precise here: such a counter counts
no more than the sliding window of the same length would, and a gate that lets a hit through while
fewer than `n` are counted lets through up to `2 * n - 1` of them in some window.

## Main results

* `Tracks.hit` — what a counter knows of the hits, one hit later.
* `Tracks.count_le_recent` — it counts no more than the sliding window.
* `Limits.hit` — the gate lets at most `2 * n - 1` hits into any window.
-/

namespace FixedWindow

open SlidingWindow

/-- A counter: the hits of its window, and the instant of the first. -/
structure Counter (T : Type) where
  hits : ℕ
  opened : T
deriving DecidableEq

variable {T : Type} [AddCommGroup T] [LinearOrder T] [IsOrderedAddMonoid T]

/-- The counter, as long as its window of length `w` is open. -/
def live (w now : T) (c : Option (Counter T)) : Option (Counter T) :=
  c.filter fun c => now < c.opened + w

/-- The counter after a hit. -/
def hit (w : T) (c : Option (Counter T)) (now : T) : Option (Counter T) :=
  match live w now c with
  | none => some ⟨1, now⟩
  | some c => some ⟨c.hits + 1, c.opened⟩

/-- The hits that are counted now. -/
def count (w now : T) (c : Option (Counter T)) : ℕ := (live w now c).elim 0 Counter.hits

/-- The counter after some hits. -/
def run (w : T) (l : List T) : Option (Counter T) := l.foldl (hit w) none

variable {w now : T} {n : ℕ} {l : List T} {c : Option (Counter T)} {k : Counter T}

omit [IsOrderedAddMonoid T] in
@[simp] theorem run_append (l : List T) (now : T) : run w (l ++ [now]) = hit w (run w l) now :=
  List.foldl_concat ..

omit [IsOrderedAddMonoid T] in
theorem live_of_lt (h : now < k.opened + w) : live w now (some k) = some k := by
  rw [live, Option.filter_some, if_pos (decide_eq_true h)]

omit [IsOrderedAddMonoid T] in
theorem live_of_le (h : k.opened + w ≤ now) : live w now (some k) = none := by
  rw [live, Option.filter_some, if_neg (by simpa using h)]

omit [IsOrderedAddMonoid T] in
/-- A counter that is gone does not come back. -/
theorem live_later {now' : T} (h : now ≤ now') (c : Option (Counter T)) :
    (live w now c).filter (fun k => now' < k.opened + w) = live w now' c := by
  rw [live, live, Option.filter_filter]
  refine congrArg (fun p => Option.filter p c) (funext fun k => ?_)
  rw [← Bool.decide_and, decide_eq_decide]
  exact ⟨And.right, fun h' => ⟨h.trans_lt h', h'⟩⟩

/-! ### What a counter knows -/

/-- **What a counter knows of the hits**: how many came since it was opened, all of them before
its window is over. -/
structure Knows (w : T) (l : List T) (k : Counter T) : Prop where
  opened : k.opened ∈ l
  within : ∀ x ∈ l, x < k.opened + w
  exact : (l.filter fun x => k.opened ≤ x).length = k.hits

/-- The counter knows the hits, or there have been none. -/
def Tracks (w : T) (l : List T) : Option (Counter T) → Prop
  | none => l = []
  | some k => Knows w l k

/-- **One hit later.** -/
theorem Tracks.hit (h : Tracks w l c) (hw : 0 < w) (hle : ∀ x ∈ l, x ≤ now) :
    Tracks w (l ++ [now]) (hit w c now) := by
  have hnew : (∀ x ∈ l, x < now) → Knows w (l ++ [now]) ⟨1, now⟩ := by
    intro hlt
    refine ⟨List.mem_append_right _ List.mem_cons_self, fun x hx => ?_, ?_⟩
    · rcases List.mem_append.mp hx with hx | hx
      · exact (hlt x hx).trans (lt_add_of_pos_right now hw)
      · exact List.mem_singleton.mp hx ▸ lt_add_of_pos_right now hw
    · have hnone : l.filter (fun x => decide (now ≤ x)) = [] :=
        List.filter_eq_nil_iff.mpr fun x hx => by simpa using hlt x hx
      rw [List.filter_append, hnone, List.nil_append, List.filter_cons_of_pos (by simp)]
      rfl
  cases c with
  | none =>
      obtain rfl : l = [] := h
      exact hnew fun x hx => absurd hx List.not_mem_nil
  | some k =>
      have h : Knows w l k := h
      rcases lt_or_ge now (k.opened + w) with hlive | hover
      · rw [FixedWindow.hit, live_of_lt hlive]
        refine ⟨List.mem_append_left _ h.opened, fun x hx => ?_, ?_⟩
        · rcases List.mem_append.mp hx with hx | hx
          · exact h.within x hx
          · exact List.mem_singleton.mp hx ▸ hlive
        · have hnow : [now].filter (fun x => decide (k.opened ≤ x)) = [now] :=
            List.filter_cons_of_pos (decide_eq_true (hle _ h.opened))
          change ((l ++ [now]).filter fun x => decide (k.opened ≤ x)).length = k.hits + 1
          rw [List.filter_append, List.length_append, h.exact, hnow]
          rfl
      · rw [FixedWindow.hit, live_of_le hover]
        exact hnew fun x hx => (h.within x hx).trans_le hover

/-- **A counter counts no more than the sliding window** of the same length. -/
theorem Tracks.count_le_recent (h : Tracks w l c) (now : T) :
    count w now c ≤ (recent (now - w) l).length := by
  cases c with
  | none => exact Nat.zero_le _
  | some k =>
      have h : Knows w l k := h
      rcases lt_or_ge now (k.opened + w) with hlive | hover
      · rw [count, live_of_lt hlive]
        change k.hits ≤ _
        rw [← h.exact, recent]
        refine (List.monotone_filter_right l fun x hx => ?_).length_le
        rw [decide_eq_true_eq] at hx ⊢
        exact (sub_lt_iff_lt_add.mpr hlive).trans_le hx
      · rw [count, live_of_le hover]
        exact Nat.zero_le _

/-! ### The gate -/

/-- **What a gate that lets a hit through while fewer than `n` are counted makes sure of**: at most
`n` hits in the window of the counter, fewer in as much time before it, and so fewer than `2 * n`
in any window. -/
structure Limits (w : T) (n : ℕ) (l : List T) (c : Option (Counter T)) : Prop where
  tracks : Tracks w l c
  limited : Limited w (2 * n - 1) l
  hits : ∀ k ∈ c, k.hits ≤ n
  before : ∀ k ∈ c, (l.filter fun x => k.opened - w < x ∧ x < k.opened).length ≤ n - 1

omit [IsOrderedAddMonoid T] in
theorem limits_nil : Limits w n ([] : List T) none :=
  ⟨rfl, limited_nil, fun _ h => (Option.not_mem_none _ h).elim,
    fun _ h => (Option.not_mem_none _ h).elim⟩

/-- What a filter keeps is kept by one of two others that cover it. -/
theorem length_filter_le_add {α : Type} {p q r : α → Bool} (l : List α)
    (h : ∀ x ∈ l, p x = true → q x = true ∨ r x = true) :
    (l.filter p).length ≤ (l.filter q).length + (l.filter r).length := by
  induction l with
  | nil => exact Nat.zero_le _
  | cons x l ih =>
      have ih := ih fun y hy => h y (List.mem_cons_of_mem _ hy)
      have hx := h x List.mem_cons_self
      simp only [List.filter_cons]
      grind

/-- What a filter keeps is less than what a weaker one keeps, if it drops an entry of that. -/
theorem length_filter_lt {α : Type} {p q : α → Bool} {l : List α} {a : α}
    (h : ∀ x, p x = true → q x = true) (ha : a ∈ l) (hq : q a = true) (hp : p a = false) :
    (l.filter p).length < (l.filter q).length := by
  have hsub := List.monotone_filter_right l h
  refine lt_of_le_of_ne hsub.length_le fun heq => ?_
  have hmem : a ∈ l.filter p := hsub.eq_of_length heq ▸ List.mem_filter.mpr ⟨ha, hq⟩
  exact Bool.false_ne_true (hp.symm.trans (List.mem_filter.mp hmem).2)

/-- **A hit that is let through.** -/
theorem Limits.hit (h : Limits w n l c) (hw : 0 < w) (hle : ∀ x ∈ l, x ≤ now)
    (hroom : count w now c < n) : Limits w n (l ++ [now]) (hit w c now) := by
  have htracks := h.tracks.hit hw hle
  have hpast : ∀ s t, t ≤ now → ((l ++ [now]).filter fun x => decide (s < x ∧ x < t)) =
      l.filter fun x => decide (s < x ∧ x < t) := by
    intro s t ht
    rw [List.filter_append, List.filter_cons_of_neg (by simpa using fun _ => ht), List.filter_nil,
      List.append_nil]
  have hbounds : ∀ k ∈ FixedWindow.hit w c now, k.opened ≤ now ∧ k.hits ≤ n ∧
      ((l ++ [now]).filter fun x => k.opened - w < x ∧ x < k.opened).length ≤ n - 1 := by
    cases c with
    | none =>
        rintro _ ⟨⟩
        obtain rfl : l = [] := h.tracks
        exact ⟨le_rfl, hroom, (hpast _ _ le_rfl).symm ▸ Nat.zero_le _⟩
    | some k =>
        have hknows : Knows w l k := h.tracks
        rcases lt_or_ge now (k.opened + w) with hlive | hover
        · rw [count, live_of_lt hlive] at hroom
          rw [FixedWindow.hit, live_of_lt hlive]
          rintro _ ⟨⟩
          have hopened := hle _ hknows.opened
          exact ⟨hopened, hroom, (hpast _ _ hopened).symm ▸ h.before k rfl⟩
        · rw [count, live_of_le hover] at hroom
          rw [FixedWindow.hit, live_of_le hover]
          rintro _ ⟨⟩
          refine ⟨le_rfl, hroom, ?_⟩
          -- what came less than `w` ago came after the counter that is over was opened
          have hfewer := length_filter_lt (p := fun x => decide (now - w < x ∧ x < now))
            (q := fun x => decide (k.opened ≤ x)) (fun x hx => ?_) hknows.opened (by simp)
            (by simpa using fun hlt => absurd hlt (not_lt.mpr (le_sub_iff_add_le.mpr hover)))
          · have hexact := hknows.exact
            have hhits := h.hits k rfl
            rw [hpast _ _ le_rfl]
            change (l.filter fun x => decide (now - w < x ∧ x < now)).length ≤ n - 1
            omega
          · rw [decide_eq_true_eq] at hx ⊢
            exact (le_sub_iff_add_le.mpr hover).trans hx.1.le
  refine ⟨htracks, fun t => ?_, fun k hk => (hbounds k hk).2.1, fun k hk => (hbounds k hk).2.2⟩
  by_cases hin : t - w < now ∧ now ≤ t
  · obtain ⟨k, hk⟩ : ∃ k, FixedWindow.hit w c now = some k := by
      rw [FixedWindow.hit]
      split <;> exact ⟨_, rfl⟩
    obtain ⟨hopened, hhits, hbefore⟩ := hbounds k hk
    have hknows : Knows w (l ++ [now]) k := by
      rw [hk] at htracks
      exact htracks
    have hsplit := length_filter_le_add (l ++ [now])
      (p := fun x => decide (t - w < x ∧ x ≤ t))
      (q := fun x => decide (k.opened - w < x ∧ x < k.opened))
      (r := fun x => decide (k.opened ≤ x)) fun x _ hx => by
        simp only [decide_eq_true_eq] at hx ⊢
        refine (lt_or_ge x k.opened).imp (fun hlt => ⟨?_, hlt⟩) id
        exact (sub_le_sub_right (hopened.trans hin.2) w).trans_lt hx.1
    have hexact := hknows.exact
    have : (window w t (l ++ [now])).length ≤ n - 1 + n := hsplit.trans (by omega)
    omega
  · rw [window, List.filter_append, List.filter_cons_of_neg (by simpa using hin), List.filter_nil,
      List.append_nil]
    exact h.limited t

end FixedWindow
