import BackendTemplate.Interleave

/-!
# What a Program Ends With

The weakest precondition of a program that runs alone: whatever the environment does between two of
its calls, and whichever of the allowed choices each call is answered under, the program ends with
an outcome that satisfies the postcondition, in the state its last call has left.

## Main results

* `Machine.ensures_bind` — the rule for sequencing.
* `Machine.Ensures.outcome` — what is ensured holds at the end of every run, if it lasts.
* `Machine.ensures_iff` — a program ensures what holds of the outcome of every run, and no more.
* `Machine.exists_outcome` — a program whose calls are all answered has a run that ends.
-/

namespace Atomic.Machine

variable {S : Sig} {ι σ κ η ε α β : Type} {M : Machine S ι σ κ η} {i : ι} {C : κ → Prop}

/-- **The program ensures the postcondition** from a state on. -/
def Ensures (M : Machine S ι σ κ η) (i : ι) (C : κ → Prop) (post : Except ε α → σ → Prop) :
    Prog S ε α → σ → Prop
  | .ret a, s => post (.ok a) s
  | .raise e, s => post (.error e) s
  | .call o k, s => ∀ es ch r s', C ch → M.exec ch i o (M.envs es s) = some (r, s') →
      Ensures M i C post (k r) s'

variable {post post' : Except ε α → σ → Prop} {p : Prog S ε α} {s : σ}

theorem Ensures.mono (h : M.Ensures i C post p s) (hpost : ∀ x s, post x s → post' x s) :
    M.Ensures i C post' p s := by
  induction p generalizing s with
  | ret a => exact hpost _ _ h
  | raise e => exact hpost _ _ h
  | call o k ih => exact fun es ch r s' hC he => ih r (h es ch r s' hC he)

/-- What is left to ensure after the first part of a sequence. -/
def After (M : Machine S ι σ κ η) (i : ι) (C : κ → Prop) (post : Except ε β → σ → Prop)
    (f : α → Prog S ε β) : Except ε α → σ → Prop
  | .ok a, s => M.Ensures i C post (f a) s
  | .error e, s => post (.error e) s

/-- **The rule for sequencing.** -/
theorem ensures_bind {post : Except ε β → σ → Prop} {f : α → Prog S ε β} :
    M.Ensures i C post (p >>= f) s ↔ M.Ensures i C (M.After i C post f) p s := by
  induction p generalizing s with
  | ret a => exact Iff.rfl
  | raise e => exact Iff.rfl
  | call o k ih =>
      constructor
      · exact fun h es ch r s' hC he => (ih r).mp (h es ch r s' hC he)
      · exact fun h es ch r s' hC he => (ih r).mpr (h es ch r s' hC he)

/-- A computation that is over ensures what holds of its outcome. -/
@[simp] theorem ensures_ofExcept {x : Except ε α} :
    M.Ensures i C post (Prog.ofExcept x) s ↔ post x s := by
  cases x <;> rfl

/-- **A postcondition that lasts**: neither the environment nor the end of the program changes it. -/
structure Lasts (M : Machine S ι σ κ η) (i : ι) (post : Except ε α → σ → Prop) : Prop where
  env : ∀ x s e, post x s → post x (M.env e s)
  finish : ∀ x s, post x s → post x (M.finish i s)

theorem lasts_const (post : Except ε α → Prop) : M.Lasts i fun x _ => post x :=
  ⟨fun _ _ _ h => h, fun _ _ h => h⟩

/-- The environment may move first. -/
theorem Ensures.after (h : M.Ensures i C post p s) (hpost : M.Lasts i post) (e : η) :
    M.Ensures i C post p (M.env e s) := by
  cases p with
  | ret a => exact hpost.env _ _ _ h
  | raise e' => exact hpost.env _ _ _ h
  | call o k => exact fun es ch r s' hC he => h (e :: es) ch r s' hC he

/-! ### Runs -/

section Runs

variable {M : Machine S Unit σ κ η} {post : Except ε α → σ → Prop}

/-- The steps of a program are made under allowed choices. -/
def Under (C : κ → Prop) (_ : Config S ι σ ε α) : Label ι κ η → Prop
  | .act _ ch => C ch
  | .env _ => True

/-- A schedule of moves under one allowed choice. -/
theorem runsWith_replicate {ch : κ} (hch : C ch) (c : Config S Unit σ ε α) (n : ℕ) :
    M.RunsWith (Under C) c (List.replicate n (.act () ch)) := by
  induction n generalizing c with
  | zero => trivial
  | succ n ih => exact ⟨hch, fun c' _ => ih c'⟩

/-- **What a configuration of one program ensures.** -/
structure EnsuresAt (M : Machine S Unit σ κ η) (C : κ → Prop) (post : Except ε α → σ → Prop)
    (c : Config S Unit σ ε α) : Prop where
  running : ∀ p, c.threads () = .running p → M.Ensures () C post p c.shared
  done : ∀ x, c.threads () = .done x → post x c.shared

/-- **The step lemma.** -/
theorem EnsuresAt.step {c c' : Config S Unit σ ε α} {l : Label Unit κ η} (hpost : M.Lasts () post)
    (h : M.EnsuresAt C post c) (hl : Under C c l) (hs : M.step c l = some c') :
    M.EnsuresAt C post c' := by
  rcases step_cases hs with ⟨i, ch, o, k, r, s, rfl, ht, he, rfl⟩ | ⟨i, ch, x, rfl, ht, rfl⟩ |
    ⟨e, rfl, rfl⟩
  · have hnext : (afterCall c () o r (k r) s).threads () = .running (k r) := by
      simp [afterCall]
    refine ⟨fun p hp => ?_, fun x hx => ?_⟩
    · obtain rfl := Thread.running.inj (hnext.symm.trans hp)
      exact h.running _ ht [] ch r s hl he
    · cases hnext.symm.trans hx
  · have hnext : (M.afterExit c () x).threads () = .done x := by
      simp [afterExit]
    refine ⟨fun p hp => ?_, fun y hy => ?_⟩
    · cases hnext.symm.trans hp
    · obtain rfl := Thread.done.inj (hnext.symm.trans hy)
      exact hpost.finish _ _ (ensures_ofExcept.mp (h.running _ ht))
  · exact ⟨fun p hp => (h.running p hp).after hpost e, fun x hx => hpost.env _ _ _ (h.done x hx)⟩

/-- **The run lemma.** -/
theorem EnsuresAt.reach {c c' : Config S Unit σ ε α} (hpost : M.Lasts () post)
    (h : M.EnsuresAt C post c) (hr : M.Reach (Under C) c c') : M.EnsuresAt C post c' := by
  induction hr with
  | refl => exact h
  | tail _ hl hs ih => exact ih.step hpost hl hs

/-- **What a program ensures holds at the end of every run**, if it lasts. -/
theorem Ensures.outcome {p : Prog S ε α} {s : σ} (h : M.Ensures () C post p s)
    (hpost : M.Lasts () post) {c : Config S Unit σ ε α} {x : Except ε α}
    (hr : M.Reach (Under C) (Config.start s fun _ => p) c) (hd : c.threads () = .done x) :
    post x c.shared := by
  have hstart : M.EnsuresAt C post (Config.start s fun _ => p) := by
    refine ⟨fun p' hp => ?_, fun x hx => ?_⟩
    · obtain rfl := Thread.running.inj hp
      exact h
    · cases hx
  exact (hstart.reach hpost hr).done x hd

/-- The configurations after the environment has moved. -/
theorem reach_envs (c : Config S Unit σ ε α) (es : List η) :
    M.Reach (Under C) c { c with shared := M.envs es c.shared } := by
  induction es generalizing c with
  | nil => exact .refl
  | cons e es ih =>
      have hs : M.step c (.env e) = some { c with shared := M.env e c.shared } := rfl
      exact .head (show Under C c (.env e) from trivial) hs (ih _)

/-- A program that is over can leave. -/
theorem exists_exit (hC : ∃ ch, C ch) {c : Config S Unit σ ε α} {x : Except ε α}
    (ht : c.threads () = .running (Prog.ofExcept x)) :
    ∃ c', M.Reach (Under C) c c' ∧ c'.threads () = .done x := by
  obtain ⟨ch, hch⟩ := hC
  have hs : M.step c (.act () ch) = some (M.afterExit c () x) := by
    rw [step, ht]
    cases x <;> rfl
  refine ⟨_, Reach.refl.tail (show Under C c (.act () ch) from hch) hs, ?_⟩
  simp [afterExit]

/-- A call that is answered a while later is a part of a run. -/
theorem reach_call {c : Config S Unit σ ε α} {o : S.Op} {k : S.Res o → Prog S ε α} {es : List η}
    {ch : κ} {r : S.Res o} {s : σ} (ht : c.threads () = .running (.call o k)) (hch : C ch)
    (he : M.exec ch () o (M.envs es c.shared) = some (r, s)) :
    ∃ c', M.Reach (Under C) c c' ∧ c'.threads () = .running (k r) ∧ c'.shared = s := by
  let c₁ := { c with shared := M.envs es c.shared }
  have hs : M.step c₁ (.act () ch) = some (afterCall c₁ () o r (k r) s) := step_call ht he
  refine ⟨_, (reach_envs c es).tail (show Under C c₁ (.act () ch) from hch) hs, ?_, rfl⟩
  simp [afterCall]

/-- Nothing is ensured that does not hold of every run. -/
theorem ensures_of_runs {post : Except ε α → Prop} (hC : ∃ ch, C ch) {c : Config S Unit σ ε α} {p : Prog S ε α}
    (ht : c.threads () = .running p)
    (h : ∀ c' x, M.Reach (Under C) c c' → c'.threads () = .done x → post x) :
    M.Ensures () C (fun x _ => post x) p c.shared := by
  induction p generalizing c with
  | ret a =>
      obtain ⟨c', hr, hd⟩ := exists_exit (x := .ok a) hC ht
      exact h c' _ hr hd
  | raise e =>
      obtain ⟨c', hr, hd⟩ := exists_exit (x := .error e) hC ht
      exact h c' _ hr hd
  | call o k ih =>
      intro es ch r s' hch he
      obtain ⟨c₁, hr₁, ht₁, rfl⟩ := reach_call ht hch he
      exact ih r ht₁ fun c' x hr hd => h c' x (hr₁.trans hr) hd

/-- **A program ensures what holds of the outcome of every run**, and no more. -/
theorem ensures_iff {post : Except ε α → Prop} (hC : ∃ ch, C ch) {p : Prog S ε α} {s : σ} :
    M.Ensures () C (fun x _ => post x) p s ↔
      ∀ c x, M.Reach (Under C) (Config.start s fun _ => p) c → c.threads () = .done x → post x := by
  constructor
  · exact fun h c x hr hd => h.outcome (lasts_const post) hr hd
  · exact fun h => ensures_of_runs hC rfl h

/-- **A program whose calls are all answered has a run that ends.** -/
theorem exists_outcome (hC : ∃ ch, C ch)
    (hanswer : ∀ ch o s, C ch → (M.exec ch () o s).isSome) {c : Config S Unit σ ε α}
    {p : Prog S ε α} (ht : c.threads () = .running p) :
    ∃ c' x, M.Reach (Under C) c c' ∧ c'.threads () = .done x := by
  induction p generalizing c with
  | ret a =>
      obtain ⟨c', hr, hd⟩ := exists_exit (x := .ok a) hC ht
      exact ⟨c', _, hr, hd⟩
  | raise e =>
      obtain ⟨c', hr, hd⟩ := exists_exit (x := .error e) hC ht
      exact ⟨c', _, hr, hd⟩
  | call o k ih =>
      obtain ⟨ch, hch⟩ := id hC
      obtain ⟨⟨r, s⟩, he⟩ := Option.isSome_iff_exists.mp (hanswer ch o (M.envs [] c.shared) hch)
      obtain ⟨c₁, hr₁, ht₁, -⟩ := reach_call ht hch he
      obtain ⟨c', x, hr, hd⟩ := ih r ht₁
      exact ⟨c', x, hr₁.trans hr, hd⟩

end Runs

end Atomic.Machine
