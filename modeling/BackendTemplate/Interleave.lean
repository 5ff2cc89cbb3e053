import Mathlib.Data.Fintype.Basic
import BackendTemplate.Prog

/-!
# Interleaved Runs of Programs

A `Machine` answers the calls of a signature on a shared state. A `Config` is a family
of programs in flight over one shared state, and `Machine.step` lets one of them make
its next call, lets one that has reached an exit leave, or lets the environment move
(the clock advances). `Machine.Reach` is the reachability relation of these steps, with
a side condition on the steps so that "every run whose steps all satisfy `C`" is a
relation of its own; `Machine.eval` runs one program from start to exit with nothing in
between, which is how a request runs in a sequential schedule, and `Machine.evalWith` does
so while the environment moves between the calls.

## Main results

* `Machine.step_cases` — everything a step can do.
* `Machine.Reach.obeys` — programs that obey a discipline at the start obey it in every
  reachable configuration, so each call of each program is allowed by that program's
  own history.
* `Machine.Reach.induction` — the invariant rule: an invariant may assume that the
  call about to be made is an allowed one.
* `Machine.eval_induction` — the same rule for a program that runs alone.
-/

namespace Atomic

/-- A **machine**: how a call is answered on the shared state, what the end of a
program does to it, and what the environment may do. The choice `κ` resolves whatever a
call leaves open; an unanswered call (`none`) is waiting. -/
structure Machine (S : Sig) (ι σ κ η : Type) where
  /-- Answer a call of program `i`, or make it wait. -/
  exec : κ → ι → (o : S.Op) → σ → Option (S.Res o × σ)
  /-- The end of program `i`. -/
  finish : ι → σ → σ
  /-- A move of the environment. -/
  env : η → σ → σ

/-- A program in flight, or the outcome it left with. -/
inductive Thread (S : Sig) (ε α : Type) : Type
  | running (p : Prog S ε α)
  | done (r : Except ε α)

/-- One step of a run: program `i` moves under choice `c`, or the environment moves. -/
inductive Label (ι κ η : Type) : Type
  | act (i : ι) (c : κ)
  | env (e : η)

/-- A **configuration**: the shared state, the programs in flight, and the calls each
of them has completed. -/
structure Config (S : Sig) (ι σ ε α : Type) where
  /-- The shared state. -/
  shared : σ
  /-- The programs. -/
  threads : ι → Thread S ε α
  /-- The calls each program has completed, newest first. -/
  hist : ι → Hist S

/-- The configuration in which every program is about to make its first call. -/
def Config.start {S : Sig} {ι σ ε α : Type} (s : σ) (p : ι → Prog S ε α) :
    Config S ι σ ε α where
  shared := s
  threads i := .running (p i)
  hist _ := []

/-- The next call of program `i`. -/
def Config.next {S : Sig} {ι σ ε α : Type} (c : Config S ι σ ε α) (i : ι) : Option S.Op :=
  match c.threads i with
  | .running (.call o _) => some o
  | _ => none

theorem Config.next_eq_some {S : Sig} {ι σ ε α : Type} {c : Config S ι σ ε α} {i : ι} {o : S.Op} :
    c.next i = some o ↔ ∃ k, c.threads i = .running (.call o k) := by
  rw [Config.next]
  cases c.threads i with
  | done r => simp
  | running p =>
      cases p with
      | ret a => simp
      | raise e => simp
      | call o' k =>
          simp only [Option.some.injEq, Thread.running.injEq, Prog.call.injEq]
          constructor
          · rintro rfl
            exact ⟨k, rfl, HEq.rfl⟩
          · rintro ⟨k', rfl, -⟩
            rfl

/-- The result of program `i`, once it has ended. -/
def Config.result {S : Sig} {ι σ ε α : Type} (c : Config S ι σ ε α) (i : ι) :
    Option (Except ε α) :=
  match c.threads i with
  | .done x => some x
  | _ => none

theorem Config.result_eq_some {S : Sig} {ι σ ε α : Type} {c : Config S ι σ ε α} {i : ι}
    {x : Except ε α} : c.result i = some x ↔ c.threads i = .done x := by
  rw [Config.result]
  cases c.threads i with
  | done y => simp
  | running p => simp

/-- Program `i` has ended with an answer. -/
def Config.succeeded {S : Sig} {ι σ ε α : Type} (c : Config S ι σ ε α) (i : ι) : Bool :=
  match c.result i with
  | some (.ok _) => true
  | _ => false

theorem Config.succeeded_iff {S : Sig} {ι σ ε α : Type} {c : Config S ι σ ε α} {i : ι} :
    c.succeeded i = true ↔ ∃ a, c.result i = some (.ok a) := by
  rw [Config.succeeded]
  rcases c.result i with _ | e | a
  · simp
  · simp
  · simp

/-- Schedules of two programs name them `0` and `1`. -/
instance neZero_two : @NeZero ℕ Zero.ofOfNat0 2 := ⟨Nat.succ_ne_zero 1⟩

namespace Machine

variable {S : Sig} {ι σ κ η ε α : Type}
variable {possible : (o : S.Op) → S.Res o → Prop}

/-- Every answer the machine gives is a possible one. -/
def Answers (M : Machine S ι σ κ η) (possible : (o : S.Op) → S.Res o → Prop) : Prop :=
  ∀ ch i o s r s', M.exec ch i o s = some (r, s') → possible o r

/-! ### Running alone -/

/-- Run a program from start to exit with nothing in between. -/
def eval (M : Machine S ι σ κ η) (ch : κ) (i : ι) :
    Prog S ε α → σ → Hist S → Option (Except ε α × σ × Hist S)
  | .ret a, s, h => some (.ok a, s, h)
  | .raise e, s, h => some (.error e, s, h)
  | .call o k, s, h =>
      match M.exec ch i o s with
      | none => none
      | some (r, s') => M.eval ch i (k r) s' (⟨o, r⟩ :: h)

@[simp] theorem eval_ret (M : Machine S ι σ κ η) (ch : κ) (i : ι) (a : α) (s : σ)
    (h : Hist S) : M.eval ch i (.ret a : Prog S ε α) s h = some (.ok a, s, h) := rfl

@[simp] theorem eval_raise (M : Machine S ι σ κ η) (ch : κ) (i : ι) (e : ε) (s : σ)
    (h : Hist S) : M.eval ch i (.raise e : Prog S ε α) s h = some (.error e, s, h) := rfl

/-- A call that is answered continues with its answer. -/
theorem eval_call {M : Machine S ι σ κ η} {ch : κ} {i : ι} {o : S.Op}
    {k : S.Res o → Prog S ε α} {s s' : σ} {h : Hist S} {r : S.Res o}
    (he : M.exec ch i o s = some (r, s')) :
    M.eval ch i (.call o k) s h = M.eval ch i (k r) s' (⟨o, r⟩ :: h) := by
  rw [eval, he]

/-- **A program that never waits runs as a function**: where an invariant of the calls makes the
machine answer as a handler does, the two agree. -/
theorem eval_eq_run {M : Machine S ι σ κ η} {ch : κ} {i : ι}
    {handle : (o : S.Op) → σ → S.Res o × σ} {J : σ → Prop}
    (hexec : ∀ o s, J s → M.exec ch i o s = some (handle o s) ∧ J (handle o s).2)
    (p : Prog S ε α) {s : σ} (hs : J s) (h : Hist S) :
    ∃ h', M.eval ch i p s h = some ((p.run handle s).1, (p.run handle s).2, h') := by
  induction p generalizing s h with
  | ret a => exact ⟨h, rfl⟩
  | raise e => exact ⟨h, rfl⟩
  | call o k ih =>
      obtain ⟨he, hJ⟩ := hexec o s hs
      rw [eval_call he]
      exact ih (handle o s).1 hJ _

/-- **The invariant rule for a program that runs alone.** -/
theorem eval_induction {M : Machine S ι σ κ η} (hM : M.Answers possible)
    {ok : Hist S → S.Op → Prop} {post : Hist S → Except ε α → Prop} {ch : κ} {i : ι}
    {p : Prog S ε α} {s s' : σ} {h h' : Hist S} {r : Except ε α}
    (hp : p.Obeys Hist.note possible ok post h) (J : σ → Hist S → Prop) (hJ : J s h)
    (hcall : ∀ o r s s' h, J s h → ok h o → M.exec ch i o s = some (r, s') →
      J s' (⟨o, r⟩ :: h))
    (he : M.eval ch i p s h = some (r, s', h')) : J s' h' ∧ post h' r := by
  induction p generalizing s h with
  | ret a =>
      rw [eval_ret, Option.some.injEq, Prod.mk.injEq, Prod.mk.injEq] at he
      obtain ⟨rfl, rfl, rfl⟩ := he
      exact ⟨hJ, hp⟩
  | raise e =>
      rw [eval_raise, Option.some.injEq, Prod.mk.injEq, Prod.mk.injEq] at he
      obtain ⟨rfl, rfl, rfl⟩ := he
      exact ⟨hJ, hp⟩
  | call o k ih =>
      cases hx : M.exec ch i o s with
      | none => rw [eval, hx] at he; exact absurd he (by simp)
      | some rs =>
          obtain ⟨r₁, s₁⟩ := rs
          rw [eval_call hx] at he
          exact ih r₁ (hp.2 r₁ (hM _ _ _ _ _ _ hx)) (hcall o r₁ s s₁ h hJ hp.1 hx) he

/-! ### Running alone while the environment moves -/

/-- Some moves of the environment, one after the other. -/
def envs (M : Machine S ι σ κ η) (es : List η) (s : σ) : σ := es.foldl (fun s e => M.env e s) s

/-- Run a program from start to exit with no other program in between. The plan says how the
environment moves before each call, and under which choice the call is answered. -/
def evalWith (M : Machine S ι σ κ η) (i : ι) :
    List (List η × κ) → Prog S ε α → σ → Hist S → Option (Except ε α × σ × Hist S)
  | [], .ret a, s, h => some (.ok a, s, h)
  | [], .raise e, s, h => some (.error e, s, h)
  | (es, ch) :: plan, .call o k, s, h =>
      match M.exec ch i o (M.envs es s) with
      | none => none
      | some (r, s') => M.evalWith i plan (k r) s' (⟨o, r⟩ :: h)
  | _, _, _, _ => none

/-- A program that is over stays where it is. -/
theorem evalWith_ofExcept {M : Machine S ι σ κ η} {i : ι} {plan : List (List η × κ)}
    {x : Except ε α} {s : σ} {h : Hist S} {out : Except ε α × σ × Hist S}
    (he : M.evalWith i plan (Prog.ofExcept x) s h = some out) : out = (x, s, h) := by
  cases plan with
  | nil => cases x <;> exact (Option.some.inj he).symm
  | cons step plan => cases x <;> exact absurd he (by simp [evalWith, Prog.ofExcept])

/-- **A program that makes a call** makes it after the environment has moved, and goes on. -/
theorem evalWith_call {M : Machine S ι σ κ η} {i : ι} {plan : List (List η × κ)} {o : S.Op}
    {k : S.Res o → Prog S ε α} {s : σ} {h : Hist S} {out : Except ε α × σ × Hist S}
    (he : M.evalWith i plan (.call o k) s h = some out) :
    ∃ es ch r s' plan', M.exec ch i o (M.envs es s) = some (r, s') ∧
      M.evalWith i plan' (k r) s' (⟨o, r⟩ :: h) = some out := by
  cases plan with
  | nil => exact absurd he (by simp [evalWith])
  | cons step plan =>
      obtain ⟨es, ch⟩ := step
      rw [evalWith] at he
      split at he
      · cases he
      · rename_i r s' hx
        exact ⟨es, ch, r, s', plan, hx, he⟩

/-- A program adds to its history. -/
theorem evalWith_hist {M : Machine S ι σ κ η} {i : ι} {plan : List (List η × κ)}
    {p : Prog S ε α} {s s' : σ} {h h' : Hist S} {x : Except ε α}
    (he : M.evalWith i plan p s h = some (x, s', h')) : ∃ new, h' = new ++ h := by
  induction p generalizing plan s h with
  | ret a =>
      obtain ⟨-, -, rfl⟩ := evalWith_ofExcept (x := .ok a) he
      exact ⟨[], rfl⟩
  | raise e =>
      obtain ⟨-, -, rfl⟩ := evalWith_ofExcept (x := .error e) he
      exact ⟨[], rfl⟩
  | call o k ih =>
      obtain ⟨_, _, r, _, _, -, hrest⟩ := evalWith_call he
      obtain ⟨new, rfl⟩ := ih r hrest
      exact ⟨new ++ [⟨o, r⟩], by rw [List.append_assoc, List.singleton_append]⟩

/-! ### Disciplines in a configuration -/

variable {ok : ι → Hist S → S.Op → Prop} {post : ι → Hist S → Except ε α → Prop}

/-- Each program still in flight obeys its discipline from its own history on, and each
one that has left satisfied its postcondition. -/
def Obeys (possible : (o : S.Op) → S.Res o → Prop) (ok : ι → Hist S → S.Op → Prop)
    (post : ι → Hist S → Except ε α → Prop) (c : Config S ι σ ε α) : Prop :=
  ∀ i, match c.threads i with
    | .running p => p.Obeys Hist.note possible (ok i) (post i) (c.hist i)
    | .done r => post i (c.hist i) r

theorem Obeys.running {c : Config S ι σ ε α} {i : ι} {p : Prog S ε α}
    (h : Obeys possible ok post c) (ht : c.threads i = .running p) :
    p.Obeys Hist.note possible (ok i) (post i) (c.hist i) := by
  have := h i
  rwa [ht] at this

theorem Obeys.done {c : Config S ι σ ε α} {i : ι} {r : Except ε α}
    (h : Obeys possible ok post c) (ht : c.threads i = .done r) :
    post i (c.hist i) r := by
  have := h i
  rwa [ht] at this

/-- Programs that obey their discipline from the empty history on obey it in the
starting configuration. -/
theorem obeys_start {s : σ} {p : ι → Prog S ε α}
    (h : ∀ i, (p i).Obeys Hist.note possible (ok i) (post i) []) :
    Obeys possible ok post (Config.start s p) := h

section Interleaving

variable [DecidableEq ι]

/-- The configuration after call `o` of program `i` was answered with `r`. -/
def afterCall (c : Config S ι σ ε α) (i : ι) (o : S.Op) (r : S.Res o)
    (p : Prog S ε α) (s : σ) : Config S ι σ ε α where
  shared := s
  threads := Function.update c.threads i (.running p)
  hist := Function.update c.hist i (⟨o, r⟩ :: c.hist i)

/-- The configuration after program `i` left with outcome `r`. -/
def afterExit (M : Machine S ι σ κ η) (c : Config S ι σ ε α) (i : ι)
    (r : Except ε α) : Config S ι σ ε α where
  shared := M.finish i c.shared
  threads := Function.update c.threads i (.done r)
  hist := c.hist

/-- One **step**. A program that has left does not move, and neither does one whose
next call is waiting. -/
def step (M : Machine S ι σ κ η) (c : Config S ι σ ε α) :
    Label ι κ η → Option (Config S ι σ ε α)
  | .act i ch =>
      match c.threads i with
      | .done _ => none
      | .running (.ret a) => some (M.afterExit c i (.ok a))
      | .running (.raise e) => some (M.afterExit c i (.error e))
      | .running (.call o k) =>
          match M.exec ch i o c.shared with
          | none => none
          | some (r, s) => some (afterCall c i o r (k r) s)
  | .env e => some { c with shared := M.env e c.shared }

/-- The steps of a schedule, one after the other. -/
def run (M : Machine S ι σ κ η) :
    Config S ι σ ε α → List (Label ι κ η) → Option (Config S ι σ ε α)
  | c, [] => some c
  | c, l :: ls => (M.step c l).bind fun c' => M.run c' ls

/-- A schedule runs one part after the other. -/
theorem run_append (M : Machine S ι σ κ η) (c : Config S ι σ ε α) (ls ls' : List (Label ι κ η)) :
    M.run c (ls ++ ls') = (M.run c ls).bind fun c' => M.run c' ls' := by
  induction ls generalizing c with
  | nil => rfl
  | cons l ls ih =>
      rw [List.cons_append, run, run, Option.bind_assoc]
      exact congrArg _ (funext ih)

theorem run_singleton (M : Machine S ι σ κ η) (c : Config S ι σ ε α) (l : Label ι κ η) :
    M.run c [l] = M.step c l := by
  rw [run]
  cases M.step c l <;> rfl

/-- A call that is answered is a step. -/
theorem step_call {M : Machine S ι σ κ η} {c : Config S ι σ ε α} {i : ι} {ch : κ} {o : S.Op}
    {k : S.Res o → Prog S ε α} {r : S.Res o} {s : σ}
    (ht : c.threads i = .running (.call o k)) (he : M.exec ch i o c.shared = some (r, s)) :
    M.step c (.act i ch) = some (afterCall c i o r (k r) s) := by
  rw [step, ht]
  simp only [he]

/-- **Everything a step can do**: a program makes its next call, a program leaves, or
the environment moves. -/
theorem step_cases {M : Machine S ι σ κ η} {c c' : Config S ι σ ε α}
    {l : Label ι κ η} (h : M.step c l = some c') :
    (∃ i ch o k r s, l = .act i ch ∧ c.threads i = .running (.call o k) ∧
      M.exec ch i o c.shared = some (r, s) ∧ c' = afterCall c i o r (k r) s) ∨
    (∃ i ch r, l = .act i ch ∧ c.threads i = .running (Prog.ofExcept r) ∧
      c' = M.afterExit c i r) ∨
    (∃ e, l = .env e ∧ c' = { c with shared := M.env e c.shared }) := by
  cases l with
  | env e => exact Or.inr (Or.inr ⟨e, rfl, (Option.some.inj h).symm⟩)
  | act i ch =>
      rw [step] at h
      cases ht : c.threads i with
      | done r => rw [ht] at h; exact absurd h (by simp)
      | running p =>
          rw [ht] at h
          cases p with
          | ret a =>
              exact Or.inr (Or.inl ⟨i, ch, .ok a, rfl, ht, (Option.some.inj h).symm⟩)
          | raise e =>
              exact Or.inr (Or.inl ⟨i, ch, .error e, rfl, ht, (Option.some.inj h).symm⟩)
          | call o k =>
              simp only at h
              cases he : M.exec ch i o c.shared with
              | none => rw [he] at h; exact absurd h (by simp)
              | some rs =>
                  obtain ⟨r, s⟩ := rs
                  rw [he] at h
                  exact Or.inl ⟨i, ch, o, k, r, s, rfl, ht, he, (Option.some.inj h).symm⟩

/-- **Reachability** by steps that all satisfy the condition `C`. -/
inductive Reach (M : Machine S ι σ κ η) (C : Config S ι σ ε α → Label ι κ η → Prop)
    (c₀ : Config S ι σ ε α) : Config S ι σ ε α → Prop
  | refl : Reach M C c₀ c₀
  | tail {c c' : Config S ι σ ε α} {l : Label ι κ η} :
      Reach M C c₀ c → C c l → M.step c l = some c' → Reach M C c₀ c'

/-- No condition on the steps: any schedule. -/
def anyStep (_ : Config S ι σ ε α) (_ : Label ι κ η) : Prop := True

/-- Program `i` has made a call and has not left. -/
def InFlight (c : Config S ι σ ε α) (i : ι) : Prop :=
  c.hist i ≠ [] ∧ ∃ p, c.threads i = .running p

/-- **One at a time**: a program moves only while no other one is in flight. -/
def sequentially (c : Config S ι σ ε α) : Label ι κ η → Prop
  | .act i _ => ∀ j, j ≠ i → ¬ InFlight c j
  | .env _ => True

/-- A schedule whose steps all satisfy the condition. -/
def RunsWith (M : Machine S ι σ κ η) (C : Config S ι σ ε α → Label ι κ η → Prop) :
    Config S ι σ ε α → List (Label ι κ η) → Prop
  | _, [] => True
  | c, l :: ls => C c l ∧ ∀ c', M.step c l = some c' → M.RunsWith C c' ls

theorem runsWith_any (M : Machine S ι σ κ η) (c : Config S ι σ ε α)
    (ls : List (Label ι κ η)) : M.RunsWith anyStep c ls := by
  induction ls generalizing c with
  | nil => trivial
  | cons l ls ih => exact ⟨trivial, fun c' _ => ih c'⟩

/-- The two parts of a schedule whose steps all satisfy the condition. -/
theorem RunsWith.split {M : Machine S ι σ κ η} {C : Config S ι σ ε α → Label ι κ η → Prop}
    {c c' : Config S ι σ ε α} {ls ls' : List (Label ι κ η)} (h : M.RunsWith C c (ls ++ ls'))
    (hr : M.run c ls = some c') : M.RunsWith C c ls ∧ M.RunsWith C c' ls' := by
  induction ls generalizing c with
  | nil =>
      obtain rfl := Option.some.inj hr
      exact ⟨trivial, h⟩
  | cons l ls ih =>
      obtain ⟨c₁, hs, hr₁⟩ := Option.bind_eq_some_iff.mp hr
      have h₁ := ih (h.2 c₁ hs) hr₁
      refine ⟨⟨h.1, fun c₂ hs₂ => ?_⟩, h₁.2⟩
      obtain rfl := Option.some.inj (hs.symm.trans hs₂)
      exact h₁.1

theorem Reach.trans {M : Machine S ι σ κ η} {C : Config S ι σ ε α → Label ι κ η → Prop}
    {c₀ c₁ c₂ : Config S ι σ ε α} (h₁ : M.Reach C c₀ c₁) (h₂ : M.Reach C c₁ c₂) :
    M.Reach C c₀ c₂ := by
  induction h₂ with
  | refl => exact h₁
  | tail _ hC hs ih => exact ih.tail hC hs

theorem Reach.head {M : Machine S ι σ κ η} {C : Config S ι σ ε α → Label ι κ η → Prop}
    {c c' c₂ : Config S ι σ ε α} {l : Label ι κ η} (hC : C c l)
    (hs : M.step c l = some c') (h : M.Reach C c' c₂) : M.Reach C c c₂ :=
  (Reach.refl.tail hC hs).trans h

/-- **The first step at which something comes to hold** in a schedule after which it holds. -/
theorem exists_first_step {M : Machine S ι σ κ η} {P : Config S ι σ ε α → Prop}
    {c c' : Config S ι σ ε α} {ls : List (Label ι κ η)} (h : M.run c ls = some c') (hn : ¬ P c)
    (hp : P c') :
    ∃ ls₁ l ls₂ c₁ c₂, ls = ls₁ ++ l :: ls₂ ∧ M.run c ls₁ = some c₁ ∧ ¬ P c₁ ∧
      M.step c₁ l = some c₂ ∧ P c₂ ∧ M.run c₂ ls₂ = some c' := by
  induction ls generalizing c with
  | nil =>
      obtain rfl := Option.some.inj h
      exact absurd hp hn
  | cons l ls ih =>
      obtain ⟨c₂, hs, hr⟩ := Option.bind_eq_some_iff.mp h
      by_cases hc : P c₂
      · exact ⟨[], l, ls, c, c₂, rfl, rfl, hn, hs, hc, hr⟩
      · obtain ⟨ls₁, l', ls₂, c₁, c₃, rfl, hr₁, hn₁, hs', hp', hr'⟩ := ih hr hc
        refine ⟨l :: ls₁, l', ls₂, c₁, c₃, rfl, ?_, hn₁, hs', hp', hr'⟩
        rw [run, hs]
        exact hr₁

/-- A schedule that runs to `c'` reaches `c'`. -/
theorem reach_of_run {M : Machine S ι σ κ η}
    {C : Config S ι σ ε α → Label ι κ η → Prop} {c c' : Config S ι σ ε α}
    {ls : List (Label ι κ η)} (hC : M.RunsWith C c ls) (h : M.run c ls = some c') :
    M.Reach C c c' := by
  induction ls generalizing c with
  | nil => obtain rfl := Option.some.inj h; exact .refl
  | cons l ls ih =>
      obtain ⟨c₁, h₁, h₂⟩ := Option.bind_eq_some_iff.mp h
      exact Reach.head hC.1 h₁ (ih (hC.2 c₁ h₁) h₂)

/-- A condition on the steps may be dropped. -/
theorem Reach.mono {M : Machine S ι σ κ η} {C C' : Config S ι σ ε α → Label ι κ η → Prop}
    {c₀ c : Config S ι σ ε α} (h : M.Reach C c₀ c) (hC : ∀ c l, C c l → C' c l) :
    M.Reach C' c₀ c := by
  induction h with
  | refl => exact .refl
  | tail _ hl hs ih => exact ih.tail (hC _ _ hl) hs

/-! ### Deciding about a schedule -/

instance (c : Config S ι σ ε α) (i : ι) : Decidable (InFlight c i) :=
  decidable_of_iff ((c.hist i).isEmpty = false ∧
      (match c.threads i with | .running _ => true | .done _ => false) = true) <| by
    rw [InFlight]
    cases c.threads i with
    | running p => simp [List.isEmpty_eq_false_iff]
    | done r => simp

instance [Fintype ι] (c : Config S ι σ ε α) : (l : Label ι κ η) → Decidable (sequentially c l)
  | .act i _ => inferInstanceAs (Decidable (∀ j, j ≠ i → ¬ InFlight c j))
  | .env _ => inferInstanceAs (Decidable True)

instance decidableRunsWith (M : Machine S ι σ κ η) (C : Config S ι σ ε α → Label ι κ η → Prop)
    [∀ c l, Decidable (C c l)] :
    (c : Config S ι σ ε α) → (ls : List (Label ι κ η)) → Decidable (M.RunsWith C c ls)
  | _, [] => inferInstanceAs (Decidable True)
  | c, l :: ls =>
      match h : M.step c l with
      | none => decidable_of_iff (C c l) (by simp [RunsWith, h])
      | some c' =>
          have := decidableRunsWith M C c' ls
          decidable_of_iff (C c l ∧ M.RunsWith C c' ls) (by simp [RunsWith, h])

instance decidableExistsRun (M : Machine S ι σ κ η) (c : Config S ι σ ε α)
    (ls : List (Label ι κ η)) (P : Config S ι σ ε α → Prop) [DecidablePred P] :
    Decidable (∃ c', M.run c ls = some c' ∧ P c') :=
  decidable_of_iff ((M.run c ls).any (fun c' => decide (P c')) = true) <| by
    rw [Option.any_eq_true]
    simp only [decide_eq_true_eq]

/-- What a schedule does, computed. -/
theorem exists_run {M : Machine S ι σ κ η} {c : Config S ι σ ε α} {l : List (Label ι κ η)}
    {P : Config S ι σ ε α → Prop} [DecidablePred P]
    (h : (M.run c l).any (fun c' => decide (P c')) = true) : ∃ c', M.run c l = some c' ∧ P c' := by
  obtain ⟨c', hc', hP⟩ := (Option.any_eq_true _ _).mp h
  exact ⟨c', hc', of_decide_eq_true hP⟩

/-- What a schedule does in two parts, computed. -/
theorem exists_run_run {M : Machine S ι σ κ η} {c : Config S ι σ ε α}
    {l k : List (Label ι κ η)} {P Q : Config S ι σ ε α → Prop} [DecidablePred P]
    [DecidablePred Q]
    (h : (M.run c l).any (fun c₁ => decide (P c₁) &&
      (M.run c₁ k).any fun c₂ => decide (Q c₂)) = true) :
    ∃ c₁ c₂, M.run c l = some c₁ ∧ M.run c₁ k = some c₂ ∧ P c₁ ∧ Q c₂ := by
  obtain ⟨c₁, hc₁, hP⟩ := (Option.any_eq_true _ _).mp h
  rw [Bool.and_eq_true] at hP
  obtain ⟨c₂, hc₂, hQ⟩ := exists_run hP.2
  exact ⟨c₁, c₂, hc₁, hc₂, of_decide_eq_true hP.1, hQ⟩

/-! ### Disciplines along a run -/

/-- A step keeps every program inside its discipline. -/
theorem step_obeys {M : Machine S ι σ κ η} (hM : M.Answers possible)
    {c c' : Config S ι σ ε α} {l : Label ι κ η} (h : Obeys possible ok post c)
    (hs : M.step c l = some c') : Obeys possible ok post c' := by
  intro j
  rcases step_cases hs with ⟨i, ch, o, k, r, s, -, ht, he, rfl⟩ |
    ⟨i, ch, r, -, ht, rfl⟩ | ⟨e, -, rfl⟩
  · have hp := h.running ht
    by_cases hji : j = i
    · subst hji
      simpa [afterCall, Hist.note] using hp.2 r (hM _ _ _ _ _ _ he)
    · simpa [afterCall, hji] using h j
  · have hp := h.running ht
    by_cases hji : j = i
    · subst hji
      cases r <;> simpa [afterExit] using hp
    · simpa [afterExit, hji] using h j
  · exact h j

/-- **Disciplines hold along every run**: programs that obey their discipline at the
start obey it in every reachable configuration. -/
theorem Reach.obeys {M : Machine S ι σ κ η} (hM : M.Answers possible)
    {C : Config S ι σ ε α → Label ι κ η → Prop} {c₀ c : Config S ι σ ε α}
    (h₀ : Obeys possible ok post c₀) (h : M.Reach C c₀ c) : Obeys possible ok post c := by
  induction h with
  | refl => exact h₀
  | tail _ _ hs ih => exact step_obeys hM ih hs

/-- **The invariant rule.** An invariant of the shared state and the histories holds in
every reachable configuration when it holds at the start, when every allowed call keeps
it, and when exits and moves of the environment keep it. -/
theorem Reach.induction {M : Machine S ι σ κ η} (hM : M.Answers possible)
    {C : Config S ι σ ε α → Label ι κ η → Prop} {c₀ c : Config S ι σ ε α}
    (h₀ : Obeys possible ok post c₀) (J : Config S ι σ ε α → Prop) (hJ₀ : J c₀)
    (hcall : ∀ c i ch o k r s, M.Reach C c₀ c → J c → C c (.act i ch) →
      c.threads i = .running (.call o k) → ok i (c.hist i) o →
      M.exec ch i o c.shared = some (r, s) → J (afterCall c i o r (k r) s))
    (hexit : ∀ c i ch r, M.Reach C c₀ c → J c → C c (.act i ch) →
      c.threads i = .running (Prog.ofExcept r) → post i (c.hist i) r →
      J (M.afterExit c i r))
    (henv : ∀ c e, M.Reach C c₀ c → J c → C c (.env e) →
      J { c with shared := M.env e c.shared })
    (h : M.Reach C c₀ c) : J c := by
  induction h with
  | refl => exact hJ₀
  | @tail c c' l hr hC hs ih =>
      have hob := hr.obeys hM h₀
      rcases step_cases hs with ⟨i, ch, o, k, r, s, rfl, ht, he, rfl⟩ |
        ⟨i, ch, r, rfl, ht, rfl⟩ | ⟨e, rfl, rfl⟩
      · exact hcall c i ch o k r s hr ih hC ht (hob.running ht).1 he
      · refine hexit c i ch r hr ih hC ht ?_
        have := hob.running ht
        cases r <;> exact this
      · exact henv c e hr ih hC

end Interleaving

end Machine

end Atomic
