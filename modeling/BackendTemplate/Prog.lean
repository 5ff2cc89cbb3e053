import Mathlib.Logic.Function.Basic

/-!
# Programs Over Atomic Calls

A request handler is a straight-line program that talks to the rest of the system
through calls: it reads a row, writes a row, reads the clock, commits. What happens
*between* two calls is private to the handler; what happens *at* a call is one atomic
step of the system. `Prog S ε α` is the tree of such a program over a signature `S` of
calls, with leaves that return an `α` or raise an `ε`.

The same tree is read in two ways: `Machine.eval` runs it alone, in one big step, and
`Machine.step` runs it among other programs, one call at a time. A handler that never makes a
call wait gives a third, the function `Prog.run`. Facts that depend on
neither reading, because they only speak of what one program does along its own path,
are stated here once through `Prog.Obeys`.

## Main definitions

* `Prog` — the program tree, with its monad structure.
* `Prog.Obeys` — along every path with possible answers, every call is allowed by the
  log before it and every exit satisfies its postcondition.
* `Hist` — the calls a program has completed, newest first, each with its answer.

## Main results

* `Prog.obeys_bind` — the rule for sequencing.
* `Prog.Obeys.mono` — a discipline may be weakened.
* `Prog.Obeys.pull` — a discipline on a summary of the log is one on the log.
* `Prog.run_bind`, `Prog.ensures_bind` — a sequence runs one part after the other.
* `Prog.run_map` — handlers that agree along a translation of the state run programs alike.
-/

namespace Atomic

/-- A signature of calls: the operations, and the type of the answer of each. -/
structure Sig where
  /-- The operations. -/
  Op : Type
  /-- The type of an operation's answer. -/
  Res : Op → Type

/-- A **program** over the calls of `S`, raising errors in `ε` and returning an `α`. -/
inductive Prog (S : Sig) (ε α : Type) : Type
  | ret (a : α)
  | raise (e : ε)
  | call (o : S.Op) (k : S.Res o → Prog S ε α)

namespace Prog

variable {S : Sig} {ε α β γ : Type}

/-- Sequencing: an error skips what follows. -/
def bind : Prog S ε α → (α → Prog S ε β) → Prog S ε β
  | ret a, f => f a
  | raise e, _ => raise e
  | call o k, f => call o fun r => (k r).bind f

instance : Monad (Prog S ε) where
  pure := ret
  bind := bind

/-- A single call, returning its answer. -/
def perform (o : S.Op) : Prog S ε (S.Res o) := call o ret

/-- Raise `e` when the condition holds; go on otherwise. -/
def raiseIf (c : Bool) (e : ε) : Prog S ε Unit := if c then raise e else ret ()

/-- A computation that has already succeeded or failed. -/
def ofExcept : Except ε α → Prog S ε α
  | .ok a => ret a
  | .error e => raise e

theorem pure_def (a : α) : (pure a : Prog S ε α) = ret a := rfl

@[simp] theorem pure_bind (a : α) (f : α → Prog S ε β) :
    (pure a : Prog S ε α) >>= f = f a := rfl

@[simp] theorem ret_bind (a : α) (f : α → Prog S ε β) : ret a >>= f = f a := rfl

@[simp] theorem raise_bind (e : ε) (f : α → Prog S ε β) : raise e >>= f = raise e := rfl

@[simp] theorem call_bind (o : S.Op) (k : S.Res o → Prog S ε α) (f : α → Prog S ε β) :
    call o k >>= f = call o fun r => k r >>= f := rfl

@[simp] theorem perform_bind (o : S.Op) (f : S.Res o → Prog S ε β) :
    perform o >>= f = call o f := rfl

@[simp] theorem raiseIf_true (e : ε) : (raiseIf true e : Prog S ε Unit) = raise e := rfl

@[simp] theorem raiseIf_false (e : ε) : (raiseIf false e : Prog S ε Unit) = ret () := rfl

@[simp] theorem ofExcept_ok (a : α) : (ofExcept (.ok a) : Prog S ε α) = ret a := rfl

@[simp] theorem ofExcept_error (e : ε) : (ofExcept (.error e) : Prog S ε α) = raise e := rfl

end Prog

namespace Prog

variable {S : Sig} {ε α β γ : Type}

/-- Sequencing is associative. -/
theorem bind_assoc (p : Prog S ε α) (f : α → Prog S ε β) (g : β → Prog S ε γ) :
    p >>= f >>= g = p >>= fun a => f a >>= g := by
  induction p with
  | ret a => rfl
  | raise e => rfl
  | call o k ih => simp only [call_bind, ih]

/-! ### Disciplines -/

variable {τ τ' : Type} {note : τ → (o : S.Op) → S.Res o → τ}
variable {possible : (o : S.Op) → S.Res o → Prop} {ok ok' : τ → S.Op → Prop}

/-- The program **obeys** the discipline `ok` from log `t` on: along every path whose
answers are possible, each call is allowed by the log before it, and each exit satisfies
the postcondition `post`. The log grows by `note` at every call. -/
def Obeys (note : τ → (o : S.Op) → S.Res o → τ) (possible : (o : S.Op) → S.Res o → Prop)
    (ok : τ → S.Op → Prop) (post : τ → Except ε α → Prop) : τ → Prog S ε α → Prop
  | t, ret a => post t (.ok a)
  | t, raise e => post t (.error e)
  | t, call o k =>
      ok t o ∧ ∀ r, possible o r → Obeys note possible ok post (note t o r) (k r)

variable {post post' : τ → Except ε α → Prop} {t : τ}

@[simp] theorem obeys_ret (a : α) :
    (ret a : Prog S ε α).Obeys note possible ok post t ↔ post t (.ok a) := Iff.rfl

@[simp] theorem obeys_raise (e : ε) :
    (raise e : Prog S ε α).Obeys note possible ok post t ↔ post t (.error e) := Iff.rfl

@[simp] theorem obeys_call (o : S.Op) (k : S.Res o → Prog S ε α) :
    (call o k).Obeys note possible ok post t ↔
      ok t o ∧ ∀ r, possible o r → (k r).Obeys note possible ok post (note t o r) := Iff.rfl

/-- What must hold at an exit of `p` for `p >>= f` to obey its discipline: a return
hands over to `f`, an error leaves the whole program. -/
def andThen (note : τ → (o : S.Op) → S.Res o → τ) (possible : (o : S.Op) → S.Res o → Prop)
    (ok : τ → S.Op → Prop) (post : τ → Except ε β → Prop) (f : α → Prog S ε β) :
    τ → Except ε α → Prop
  | t, .ok a => (f a).Obeys note possible ok post t
  | t, .error e => post t (.error e)

/-- **Sequencing**: `p >>= f` obeys a discipline exactly when `p` obeys it with the
obligations of `f` as postcondition. -/
theorem obeys_bind (post : τ → Except ε β → Prop) (p : Prog S ε α)
    (f : α → Prog S ε β) :
    (p >>= f).Obeys note possible ok post t ↔
      p.Obeys note possible ok (andThen note possible ok post f) t := by
  induction p generalizing t with
  | ret a => rfl
  | raise e => rfl
  | call o k ih =>
      rw [call_bind, obeys_call, obeys_call]
      exact and_congr_right fun _ => forall_congr' fun r => imp_congr_right fun _ => ih r

/-- A discipline and a postcondition may be weakened. -/
theorem Obeys.mono {p : Prog S ε α} (hp : p.Obeys note possible ok post t)
    (hok : ∀ t o, ok t o → ok' t o) (hpost : ∀ t r, post t r → post' t r) :
    p.Obeys note possible ok' post' t := by
  induction p generalizing t with
  | ret a => exact hpost _ _ hp
  | raise e => exact hpost _ _ hp
  | call o k ih => exact ⟨hok _ _ hp.1, fun r hr => ih r (hp.2 r hr)⟩

/-- A discipline stated on a summary of the log is one on the log itself. -/
theorem Obeys.pull {note' : τ' → (o : S.Op) → S.Res o → τ'} {f : τ' → τ}
    (hf : ∀ t o r, f (note' t o r) = note (f t) o r) {p : Prog S ε α} {t : τ'}
    (hp : p.Obeys note possible ok post (f t)) :
    p.Obeys note' possible (fun t o => ok (f t) o) (fun t r => post (f t) r) t := by
  induction p generalizing t with
  | ret a => exact hp
  | raise e => exact hp
  | call o k ih =>
      refine ⟨hp.1, fun r hr => ih r ?_⟩
      rw [hf]
      exact hp.2 r hr

/-- A program that raises on a condition obeys a discipline when both ways out do. -/
theorem obeys_raiseIf {c : Bool} {e : ε} {post : τ → Except ε Unit → Prop}
    (ht : c = true → post t (.error e)) (hf : c = false → post t (.ok ())) :
    (raiseIf c e : Prog S ε Unit).Obeys note possible ok post t := by
  cases c with
  | true => exact ht rfl
  | false => exact hf rfl

/-- A computation that has already succeeded or failed obeys a discipline when both
ways out do. -/
theorem obeys_ofExcept {x : Except ε α}
    (hok : ∀ a, x = .ok a → post t (.ok a)) (herr : ∀ e, x = .error e → post t (.error e)) :
    (ofExcept x : Prog S ε α).Obeys note possible ok post t := by
  cases x with
  | ok a => exact hok a rfl
  | error e => exact herr e rfl

/-! ### Running against a handler -/

variable {σ : Type}

/-- Run a program against a handler that answers every call at once. -/
def run (handle : (o : S.Op) → σ → S.Res o × σ) : Prog S ε α → σ → Except ε α × σ
  | ret a, s => (.ok a, s)
  | raise e, s => (.error e, s)
  | call o k, s => (k (handle o s).1).run handle (handle o s).2

@[simp] theorem run_ret (handle : (o : S.Op) → σ → S.Res o × σ) (a : α) (s : σ) :
    (ret a : Prog S ε α).run handle s = (.ok a, s) := rfl

@[simp] theorem run_pure (handle : (o : S.Op) → σ → S.Res o × σ) (a : α) (s : σ) :
    (pure a : Prog S ε α).run handle s = (.ok a, s) := rfl

@[simp] theorem run_raise (handle : (o : S.Op) → σ → S.Res o × σ) (e : ε) (s : σ) :
    (raise e : Prog S ε α).run handle s = (.error e, s) := rfl

@[simp] theorem run_call (handle : (o : S.Op) → σ → S.Res o × σ) (o : S.Op)
    (k : S.Res o → Prog S ε α) (s : σ) :
    (call o k).run handle s = (k (handle o s).1).run handle (handle o s).2 := rfl

@[simp] theorem run_ofExcept (handle : (o : S.Op) → σ → S.Res o × σ) (x : Except ε α) (s : σ) :
    (ofExcept x : Prog S ε α).run handle s = (x, s) := by
  cases x <;> rfl

/-- **Running in sequence**: an error ends the run, a result is handed on. -/
theorem run_bind (handle : (o : S.Op) → σ → S.Res o × σ) (p : Prog S ε α)
    (f : α → Prog S ε β) (s : σ) :
    (p >>= f).run handle s =
      match p.run handle s with
      | (.ok a, s') => (f a).run handle s'
      | (.error e, s') => (.error e, s') := by
  induction p generalizing s with
  | ret a => rfl
  | raise e => rfl
  | call o k ih => rw [call_bind, run_call, run_call, ih]

/-- **Handlers that agree along a translation of the state run programs alike.** -/
theorem run_map {σ' : Type} {handle : (o : S.Op) → σ → S.Res o × σ}
    {handle' : (o : S.Op) → σ' → S.Res o × σ'} (f : σ → σ')
    (h : ∀ o s, handle' o (f s) = ((handle o s).1, f (handle o s).2)) (p : Prog S ε α) (s : σ) :
    p.run handle' (f s) = ((p.run handle s).1, f (p.run handle s).2) := by
  induction p generalizing s with
  | ret a => rfl
  | raise e => rfl
  | call o k ih => rw [run_call, run_call, h, ih]

/-- A run **ensures** `Q` of its result if it succeeds, and `E` of its error if it fails. -/
def Ensures (handle : (o : S.Op) → σ → S.Res o × σ) (Q : α → σ → Prop) (E : ε → σ → Prop)
    (p : Prog S ε α) (s : σ) : Prop :=
  match p.run handle s with
  | (.ok a, s') => Q a s'
  | (.error e, s') => E e s'

section Ensures

variable {handle : (o : S.Op) → σ → S.Res o × σ} {Q Q' : α → σ → Prop} {E : ε → σ → Prop} {s : σ}

@[simp] theorem ensures_ret (a : α) :
    (ret a : Prog S ε α).Ensures handle Q E s ↔ Q a s := Iff.rfl

@[simp] theorem ensures_pure (a : α) :
    (pure a : Prog S ε α).Ensures handle Q E s ↔ Q a s := Iff.rfl

@[simp] theorem ensures_raise (e : ε) :
    (raise e : Prog S ε α).Ensures handle Q E s ↔ E e s := Iff.rfl

@[simp] theorem ensures_call (o : S.Op) (k : S.Res o → Prog S ε α) :
    (call o k).Ensures handle Q E s ↔
      (k (handle o s).1).Ensures handle Q E (handle o s).2 := Iff.rfl

/-- **The rule for sequencing.** -/
theorem ensures_bind {Q : β → σ → Prop} (p : Prog S ε α) (f : α → Prog S ε β) :
    (p >>= f).Ensures handle Q E s ↔
      p.Ensures handle (fun a s' => (f a).Ensures handle Q E s') E s := by
  simp only [Ensures, run_bind]
  rcases p.run handle s with ⟨a | e, s'⟩
  · rfl
  · rfl

/-- What a run ensures may be weakened. -/
theorem Ensures.mono {p : Prog S ε α} (h : p.Ensures handle Q E s)
    (hQ : ∀ a s', Q a s' → Q' a s') : p.Ensures handle Q' E s := by
  unfold Ensures at h ⊢
  split
  · rename_i a s' hr
    rw [hr] at h
    exact hQ a s' h
  · rename_i e s' hr
    rw [hr] at h
    exact h

/-- A sequence ensures what its second part ensures after its first. -/
theorem Ensures.bind {Q' : β → σ → Prop} {p : Prog S ε α} {f : α → Prog S ε β}
    (h : p.Ensures handle Q E s) (hf : ∀ a s', Q a s' → (f a).Ensures handle Q' E s') :
    (p >>= f).Ensures handle Q' E s :=
  (ensures_bind p f).mpr (h.mono hf)

/-- What every call keeps, a run keeps. -/
theorem run_invariant {J : σ → Prop} (hJ : ∀ o s, J s → J (handle o s).2) (p : Prog S ε α)
    (hs : J s) : J (p.run handle s).2 := by
  induction p generalizing s with
  | ret a => exact hs
  | raise e => exact hs
  | call o k ih => exact ih _ (hJ o s hs)

/-- Every call the program can make satisfies `ok`. -/
def Calls (ok : S.Op → Prop) : Prog S ε α → Prop
  | ret _ | raise _ => True
  | call o k => ok o ∧ ∀ r, (k r).Calls ok

theorem Calls.bind {ok : S.Op → Prop} {p : Prog S ε α} {f : α → Prog S ε β} (h : p.Calls ok)
    (hf : ∀ a, (f a).Calls ok) : (p >>= f).Calls ok := by
  induction p with
  | ret a => exact hf a
  | raise e => trivial
  | call o k ih => exact ⟨h.1, fun r => ih r (h.2 r)⟩

theorem calls_ofExcept {ok : S.Op → Prop} (x : Except ε α) :
    (ofExcept x : Prog S ε α).Calls ok := by
  cases x <;> trivial

theorem calls_raiseIf {ok : S.Op → Prop} (c : Bool) (e : ε) :
    (raiseIf c e : Prog S ε Unit).Calls ok := by
  cases c <;> trivial

/-- What every call that satisfies `ok` keeps, a run of such calls keeps. -/
theorem Calls.run_invariant {ok : S.Op → Prop} {J : σ → Prop}
    (hJ : ∀ o s, ok o → J s → J (handle o s).2) {p : Prog S ε α} (hp : p.Calls ok) (hs : J s) :
    J (p.run handle s).2 := by
  induction p generalizing s with
  | ret a => exact hs
  | raise e => exact hs
  | call o k ih => exact ih _ (hp.2 _) (hJ o s hp.1 hs)

/-- A run that succeeds has what it ensures. -/
theorem Ensures.of_ok {p : Prog S ε α} (h : p.Ensures handle Q E s) {a : α} {s' : σ}
    (hr : p.run handle s = (.ok a, s')) : Q a s' := by
  unfold Ensures at h
  rw [hr] at h
  exact h

/-- What every call keeps may be added to what a run ensures. -/
theorem Ensures.invariant {J : σ → Prop} (hJ : ∀ o s, J s → J (handle o s).2)
    {p : Prog S ε α} (h : p.Ensures handle Q E s) (hs : J s) :
    p.Ensures handle (fun a s' => Q a s' ∧ J s') E s := by
  have hrun := run_invariant hJ p hs
  unfold Ensures at h ⊢
  split
  · rename_i a s' hr
    rw [hr] at h hrun
    exact ⟨h, hrun⟩
  · rename_i e s' hr
    rw [hr] at h
    exact h

/-- A computation that has already succeeded or failed ensures what its outcome does. -/
theorem ensures_ofExcept {x : Except ε α} (hok : ∀ a, x = .ok a → Q a s)
    (herr : ∀ e, x = .error e → E e s) : (ofExcept x : Prog S ε α).Ensures handle Q E s := by
  cases x with
  | ok a => exact hok a rfl
  | error e => exact herr e rfl

/-- A program that raises on a condition ensures what both ways out do. -/
theorem ensures_raiseIf {c : Bool} {e : ε} {Q : Unit → σ → Prop} (ht : c = true → E e s)
    (hf : c = false → Q () s) : (raiseIf c e : Prog S ε Unit).Ensures handle Q E s := by
  cases c with
  | true => exact ht rfl
  | false => exact hf rfl

end Ensures

end Prog

/-- The completed calls of one program, newest first, each with the answer it got. -/
abbrev Hist (S : Sig) := List (Σ o : S.Op, S.Res o)

/-- The full log of a program: its history. -/
def Hist.note {S : Sig} (h : Hist S) (o : S.Op) (r : S.Res o) : Hist S := ⟨o, r⟩ :: h

end Atomic
