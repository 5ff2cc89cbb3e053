import Mathlib.Data.List.Infix
import Mathlib.Order.Lattice
import Mathlib.Logic.Function.Basic

/-!
# Expiring Maps

A map whose entries end at a deadline is described by the log of the writes made to it: what a key
holds at an instant is what the last write on it put there, until that write's deadline. A program
that drops expired entries only when it comes across them keeps a store that may have lost some of
what the log says, but only what has ended (`KeepsLog`); reading it is reading the log (`KeepsLog.read`).

A write carries a stamp, from which the store computes the deadline it keeps with what it stores of
the value, so that two ways of computing deadlines can be compared on one log.
-/

namespace ExpiringMap

variable {κ υ σ τ : Type}

/-- A write: a value under a key, with a stamp, or the removal of a key. -/
inductive Change (κ υ σ : Type)
  | put (key : κ) (value : υ) (stamp : σ)
  | drop (key : κ)
  deriving DecidableEq

/-- The key a write is about. -/
def Change.key : Change κ υ σ → κ
  | .put key _ _ => key
  | .drop key => key

/-- What a write leaves under its key. -/
def Change.entry : Change κ υ σ → Option (υ × σ)
  | .put _ value stamp => some (value, stamp)
  | .drop _ => none

section Log

variable [DecidableEq κ] {k : κ} {log : List (Change κ υ σ)} {w : Change κ υ σ}

/-- The last write on a key. -/
def lastOn (k : κ) (log : List (Change κ υ σ)) : Option (Change κ υ σ) :=
  (log.filter fun w => w.key = k).getLast?

theorem lastOn_append : lastOn k (log ++ [w]) = if w.key = k then some w else lastOn k log := by
  rw [lastOn, List.filter_append]
  by_cases hk : w.key = k
  · simp [hk]
  · simp [hk, lastOn]

theorem lastOn_singleton (w : Change κ υ σ) (hk : w.key = k) : lastOn k [w] = some w :=
  (@lastOn_append _ _ _ _ _ [] _).trans (if_pos hk)

/-- The last write on a key is one of the log, on that key. -/
theorem mem_of_lastOn (h : lastOn k log = some w) : w ∈ log ∧ w.key = k := by
  obtain ⟨hlog, hk⟩ := List.mem_filter.mp (List.mem_of_getLast? h)
  exact ⟨hlog, of_decide_eq_true hk⟩

/-- What the log leaves under a key. -/
def held (log : List (Change κ υ σ)) (k : κ) : Option (υ × σ) := (lastOn k log).bind Change.entry

theorem held_append :
    held (log ++ [w]) k = if w.key = k then w.entry else held log k := by
  rw [held, lastOn_append]
  split
  · rfl
  · rfl

theorem held_eq_some {v : υ} {s : σ} : held log k = some (v, s) ↔ lastOn k log = some (.put k v s) := by
  rw [held, Option.bind_eq_some_iff]
  constructor
  · rintro ⟨w, hw, hentry⟩
    obtain ⟨-, rfl⟩ := mem_of_lastOn hw
    cases w with
    | put key value stamp =>
        cases hentry
        exact hw
    | drop key => cases hentry
  · exact fun h => ⟨_, h, rfl⟩

end Log

section Expiry

variable [LinearOrder τ] {t t' : τ} {expiresAt : Option τ}

/-- **Alive**: the deadline, if there is one, has not been reached. -/
def Alive (t : τ) (expiresAt : Option τ) : Prop := ∀ e ∈ expiresAt, t < e

/-- What has ended stays ended. -/
theorem Alive.earlier (h : Alive t' expiresAt) (ht : t ≤ t') : Alive t expiresAt :=
  fun e he => ht.trans_lt (h e he)

variable {ν : Type} [DecidableEq κ] {view : υ × σ → ν × Option τ} {log : List (Change κ υ σ)} {k : κ}
  {store : κ → Option (ν × Option τ)}

/-- **The store keeps a log** at an instant: under every key it has what the log leaves there, as it
stores it with a deadline, or has lost it after its deadline. -/
def KeepsLog (view : υ × σ → ν × Option τ) (log : List (Change κ υ σ)) (t : τ)
    (store : κ → Option (ν × Option τ)) : Prop :=
  ∀ k, store k = (held log k).map view ∨
    store k = none ∧ ∀ x, held log k = some x → ¬ Alive t (view x).2

/-- The empty store keeps the empty log. -/
theorem KeepsLog.empty : KeepsLog view ([] : List (Change κ υ σ)) t fun _ => none :=
  fun _ => Or.inl rfl

theorem KeepsLog.later (h : KeepsLog view log t store) (ht : t ≤ t') :
    KeepsLog view log t' store := by
  intro k
  rcases h k with hk | ⟨hk, hended⟩
  · exact Or.inl hk
  · exact Or.inr ⟨hk, fun x hheld halive => hended x hheld (halive.earlier ht)⟩

/-- Storing what a write leaves keeps the log with the write. -/
theorem KeepsLog.write (h : KeepsLog view log t store) (w : Change κ υ σ) :
    KeepsLog view (log ++ [w]) t (Function.update store w.key (w.entry.map view)) := by
  intro k
  rw [held_append]
  by_cases hk : w.key = k
  · subst hk
    exact Or.inl (by rw [if_pos rfl, Function.update_self])
  · rw [if_neg hk, Function.update_of_ne (Ne.symm hk)]
    exact h k

/-- Dropping an entry that has ended keeps the log. -/
theorem KeepsLog.prune (h : KeepsLog view log t store) {v : ν} {e : Option τ}
    (hk : store k = some (v, e)) (hended : ¬ Alive t e) :
    KeepsLog view log t (Function.update store k none) := by
  intro k'
  by_cases hkk : k' = k
  · subst hkk
    refine Or.inr ⟨Function.update_self _ _ _, fun x hheld => ?_⟩
    rcases h k' with hk' | ⟨hk', -⟩
    · rw [hheld, hk] at hk'
      rw [← Option.some.inj hk']
      exact hended
    · rw [hk] at hk'
      cases hk'
  · rw [Function.update_of_ne hkk]
    exact h k'

/-- **Reading the store is reading the log**: an entry of the store is alive just when the last
write on the key put it there and its deadline has not been reached. -/
theorem KeepsLog.read (h : KeepsLog view log t store) {v : ν} :
    (∃ e, store k = some (v, e) ∧ Alive t e) ↔
      ∃ x s, lastOn k log = some (.put k x s) ∧ (view (x, s)).1 = v ∧ Alive t (view (x, s)).2 := by
  constructor
  · rintro ⟨e, he, halive⟩
    rcases h k with hk | ⟨hk, -⟩
    · rw [he] at hk
      obtain ⟨⟨x, s⟩, hheld, hentry⟩ := Option.map_eq_some_iff.mp hk.symm
      exact ⟨x, s, held_eq_some.mp hheld, congrArg Prod.fst hentry, by rw [hentry]; exact halive⟩
    · rw [he] at hk
      cases hk
  · rintro ⟨x, s, hlast, rfl, halive⟩
    have hheld := held_eq_some.mpr hlast
    rcases h k with hk | ⟨-, hended⟩
    · exact ⟨(view (x, s)).2, by rw [hk, hheld]; rfl, halive⟩
    · exact absurd halive (hended (x, s) hheld)

end Expiry

end ExpiringMap
