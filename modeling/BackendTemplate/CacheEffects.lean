import BackendTemplate.SecondFactor

/-!
# What a Call Does to the Cache

The inversion lemmas of `exec` for the three cache calls, and what each of them leaves in
the progress of its request. The other calls leave the cache alone (`exec_uncached`), no call
moves the clock (`exec_clock`), and a key of the challenge store is never a key of the
used-code registry.

## Main results

* `exec_cacheGet`, `exec_cacheSet`, `exec_cacheDelete` — the cache calls.
* `Runs.one_check` — a request has at most one code evaluated.
-/

namespace BackendTemplate

open Atomic

variable {env : Env}

/-! ### Keys -/

theorem challengeKey_injective {token token' : String}
    (h : ChallengeStore.key token = ChallengeStore.key token') : token = token' := by
  have hlist := congrArg String.toList h
  simp only [ChallengeStore.key, String.toList_append, List.append_cancel_left_eq] at hlist
  exact String.toList_inj.mp hlist

/-! ### Entries -/

/-- An entry that has expired stays expired. -/
theorem expired_mono {t t' : Instant} (h : t ≤ t') {e : Option Instant}
    (he : InMemoryCache.expired t e = true) : InMemoryCache.expired t' e = true := by
  cases e with
  | none => exact absurd he (by simp [InMemoryCache.expired])
  | some s =>
      simp only [InMemoryCache.expired, decide_eq_true_eq] at he ⊢
      exact le_trans he h

/-- What `InMemoryCache.set` stores for a positive lifetime. -/
theorem set_store_self (m : InMemoryCache) (now : Instant) (key value : String) {n : ℕ}
    (hn : n ≠ 0) :
    (m.set now key value (some n)).store key = some (value, some (now + seconds n)) := by
  cases n with
  | zero => exact absurd rfl hn
  | succ n => exact Function.update_self _ _ _

/-- Whatever the lifetime, `InMemoryCache.set` stores the value. -/
theorem set_store_value {m : InMemoryCache} {now : Instant} {key value v : String}
    {ttl : Option ℕ} {e : Option Instant}
    (h : (m.set now key value ttl).store key = some (v, e)) : v = value := by
  simp only [InMemoryCache.set, Function.update_self, Option.some.injEq, Prod.mk.injEq] at h
  exact h.1.symm

theorem set_store_ne (m : InMemoryCache) (now : Instant) {key key' : String} (h : key' ≠ key)
    (value : String) (ttl : Option ℕ) : (m.set now key value ttl).store key' = m.store key' :=
  Function.update_of_ne h _ _

theorem delete_store_self (m : InMemoryCache) (key : String) : (m.delete key).store key = none :=
  Function.update_self _ _ _

theorem delete_store_ne (m : InMemoryCache) {key key' : String} (h : key' ≠ key) :
    (m.delete key).store key' = m.store key' :=
  Function.update_of_ne h _ _

/-! ### Calls -/

/-- The calls on the cache. -/
def Op.onCache : Op → Bool
  | .cacheGet _ | .cacheSet _ _ _ | .cacheDelete _ => true
  | _ => false

section Exec

variable {ι : Type} [Fintype ι] [DecidableEq ι] {ch : Choice} {i : ι} {w w' : World ι}

/-- **A call that is not on the cache leaves it alone**, and the clock. -/
theorem exec_uncached {o : Op} (ho : o.onCache = false) {x : o.Res}
    (h : exec env ch i o w = some (x, w')) : w'.cache = w.cache ∧ w'.clock = w.clock := by
  cases o with
  | cacheGet k => exact absurd ho (by simp [Op.onCache])
  | cacheSet k v t => exact absurd ho (by simp [Op.onCache])
  | cacheDelete k => exact absurd ho (by simp [Op.onCache])
  | addUser u =>
      rcases exec_addUser h with ⟨e, -, rfl⟩ | ⟨-, -, rfl⟩
      · exact ⟨rfl, rfl⟩
      · exact ⟨rfl, rfl⟩
  | addSession s =>
      rcases exec_addSession h with ⟨-, rfl⟩ | ⟨-, -, -, rfl⟩
      · exact ⟨rfl, rfl⟩
      · exact ⟨rfl, rfl⟩
  | updateSession s =>
      rcases exec_updateSession h with ⟨-, rfl⟩ | ⟨-, -, -, rfl⟩
      · exact ⟨rfl, rfl⟩
      · exact ⟨rfl, rfl⟩
  | updateUser u =>
      rcases exec_updateUser h with ⟨e, -, -, rfl⟩ | ⟨-, -, -, rfl⟩
      · exact ⟨rfl, rfl⟩
      · exact ⟨rfl, rfl⟩
  | commit =>
      rcases exec_commit h with ⟨-, rfl⟩ | ⟨-, rfl⟩
      · exact ⟨rfl, rfl⟩
      · exact ⟨rfl, rfl⟩
  | _ =>
      simp only [exec, Option.some.injEq, Prod.mk.injEq] at h
      obtain ⟨-, rfl⟩ := h
      exact ⟨rfl, rfl⟩

/-- **Reading the cache**: a live entry is returned and stays; an absent one or an expired
one is a miss, after which the key is absent. -/
theorem exec_cacheGet {key : String} {x : Option String}
    (h : exec env ch i (.cacheGet key) w = some (x, w')) :
    (∃ v e, x = some v ∧ w.cache.store key = some (v, e) ∧
      InMemoryCache.expired w.clock e = false ∧ w' = w) ∨
    (x = none ∧ (∀ v e, w.cache.store key = some (v, e) →
        InMemoryCache.expired w.clock e = true) ∧
      w'.clock = w.clock ∧ w'.cache.store = Function.update w.cache.store key none) := by
  simp only [exec, Option.some.injEq, Prod.mk.injEq] at h
  obtain ⟨hx, hw⟩ := h
  rw [InMemoryCache.get] at hx hw
  cases hs : w.cache.store key with
  | none =>
      rw [hs] at hx hw
      refine Or.inr ⟨hx.symm, ?_, hw ▸ rfl, ?_⟩
      · intro v e he
        exact absurd he (by simp)
      · rw [← hs, Function.update_eq_self, ← hw]
  | some entry =>
      obtain ⟨v, e⟩ := entry
      rw [hs] at hx hw
      cases he : InMemoryCache.expired w.clock e with
      | false =>
          simp only [he, Bool.false_eq_true, if_false] at hx hw
          exact Or.inl ⟨v, e, hx.symm, rfl, he, hw.symm⟩
      | true =>
          simp only [he, if_true] at hx hw
          refine Or.inr ⟨hx.symm, ?_, hw ▸ rfl, hw ▸ rfl⟩
          intro v' e' heq
          obtain ⟨rfl, rfl⟩ := Prod.mk.inj (Option.some.inj heq)
          exact he

theorem exec_cacheSet {key value : String} {ttl : Option ℕ} {x : Unit}
    (h : exec env ch i (.cacheSet key value ttl) w = some (x, w')) :
    w' = { w with cache := w.cache.set w.clock key value ttl } := by
  simp only [exec, Option.some.injEq, Prod.mk.injEq] at h
  exact h.2.symm

theorem exec_cacheDelete {key : String} {x : Unit}
    (h : exec env ch i (.cacheDelete key) w = some (x, w')) :
    w' = { w with cache := w.cache.delete key } := by
  simp only [exec, Option.some.injEq, Prod.mk.injEq] at h
  exact h.2.symm

/-- **No call moves the clock.** -/
theorem exec_clock {o : Op} {x : o.Res} (h : exec env ch i o w = some (x, w')) :
    w'.clock = w.clock := by
  by_cases ho : o.onCache = false
  · exact (exec_uncached ho h).2
  · cases o with
    | cacheGet k =>
        rcases exec_cacheGet h with ⟨_, _, -, -, -, rfl⟩ | ⟨-, -, hclock, -⟩
        · rfl
        · exact hclock
    | cacheSet k v t => rw [exec_cacheSet h]
    | cacheDelete k => rw [exec_cacheDelete h]
    | _ => exact absurd rfl ho

end Exec

/-! ### Progress -/

/-- What a request has done with the cache is the same. -/
def Progress.SameCache (p q : Progress) : Prop :=
  q.gets = p.gets ∧ q.misses = p.misses ∧ q.held = p.held ∧ q.puts = p.puts ∧
    q.dropped = p.dropped

/-- A call that is not on the cache leaves no trace of one. -/
theorem note_sameCache (p : Progress) {o : Op} (ho : o.onCache = false) (x : o.Res) :
    p.SameCache (p.note o x) := by
  cases o with
  | cacheGet k => exact absurd ho (by simp [Op.onCache])
  | cacheSet k v t => exact absurd ho (by simp [Op.onCache])
  | cacheDelete k => exact absurd ho (by simp [Op.onCache])
  | acquireUser q =>
      match x with
      | .error e => exact ⟨rfl, rfl, rfl, rfl, rfl⟩
      | .ok none => exact ⟨rfl, rfl, rfl, rfl, rfl⟩
      | .ok (some u) => exact ⟨rfl, rfl, rfl, rfl, rfl⟩
  | acquireSession sid =>
      match x with
      | .error e => exact ⟨rfl, rfl, rfl, rfl, rfl⟩
      | .ok none => exact ⟨rfl, rfl, rfl, rfl, rfl⟩
      | .ok (some s) => exact ⟨rfl, rfl, rfl, rfl, rfl⟩
  | acquireSessionByToken hash =>
      match x with
      | .error e => exact ⟨rfl, rfl, rfl, rfl, rfl⟩
      | .ok none => exact ⟨rfl, rfl, rfl, rfl, rfl⟩
      | .ok (some s) => exact ⟨rfl, rfl, rfl, rfl, rfl⟩
  | acquireSessionsOf u => cases x <;> exact ⟨rfl, rfl, rfl, rfl, rfl⟩
  | updateUser u => cases x <;> exact ⟨rfl, rfl, rfl, rfl, rfl⟩
  | addUser u => cases x <;> exact ⟨rfl, rfl, rfl, rfl, rfl⟩
  | addSession s => cases x <;> exact ⟨rfl, rfl, rfl, rfl, rfl⟩
  | updateSession s => cases x <;> exact ⟨rfl, rfl, rfl, rfl, rfl⟩
  | commit => cases x <;> exact ⟨rfl, rfl, rfl, rfl, rfl⟩
  | _ => exact ⟨rfl, rfl, rfl, rfl, rfl⟩

/-- What a call adds to the entries a request has read. -/
theorem mem_note_gets {p : Progress} {o : Op} {x : o.Res} {key raw : String}
    (h : (key, raw) ∈ (p.note o x).gets) :
    (key, raw) ∈ p.gets ∨ o = .cacheGet key ∧ HEq x (some raw) := by
  by_cases ho : o.onCache = false
  · exact Or.inl ((note_sameCache p ho x).1 ▸ h)
  · cases o with
    | cacheGet k =>
        cases x with
        | none => exact Or.inl h
        | some v =>
            rcases List.mem_cons.mp h with heq | h
            · obtain ⟨rfl, rfl⟩ := Prod.mk.inj heq
              exact Or.inr ⟨rfl, HEq.rfl⟩
            · exact Or.inl h
    | cacheSet k v t => exact Or.inl h
    | cacheDelete k => exact Or.inl h
    | _ => exact absurd rfl ho

/-- What a call adds to the entries a request has set. -/
theorem mem_note_puts {p : Progress} {o : Op} {x : o.Res} {key v : String}
    (h : (key, v) ∈ (p.note o x).puts) :
    (key, v) ∈ p.puts ∨ ∃ ttl, o = .cacheSet key v ttl := by
  by_cases ho : o.onCache = false
  · exact Or.inl ((note_sameCache p ho x).2.2.2.1 ▸ h)
  · cases o with
    | cacheGet k => cases x <;> exact Or.inl h
    | cacheSet k v' t =>
        rcases List.mem_cons.mp h with heq | h
        · obtain ⟨rfl, rfl⟩ := Prod.mk.inj heq
          exact Or.inr ⟨t, rfl⟩
        · exact Or.inl h
    | cacheDelete k => exact Or.inl h
    | _ => exact absurd rfl ho

/-- What a call adds to the keys a request has found absent. -/
theorem mem_note_misses {p : Progress} {o : Op} {x : o.Res} {key : String}
    (h : key ∈ (p.note o x).misses) :
    key ∈ p.misses ∨ o = .cacheGet key ∧ HEq x (none : Option String) := by
  by_cases ho : o.onCache = false
  · exact Or.inl ((note_sameCache p ho x).2.1 ▸ h)
  · cases o with
    | cacheGet k =>
        cases x with
        | none =>
            rcases List.mem_cons.mp h with rfl | h
            · exact Or.inr ⟨rfl, HEq.rfl⟩
            · exact Or.inl h
        | some v => exact Or.inl h
    | cacheSet k v t => exact Or.inl h
    | cacheDelete k => exact Or.inl h
    | _ => exact absurd rfl ho

/-- What is still held of a key after another key was let go. -/
theorem mem_release {p : Progress} {k : String} {e : String × String} :
    e ∈ p.release k ↔ e ∈ p.held ∧ e.1 ≠ k := by
  rw [Progress.release, List.mem_filter, decide_eq_true_eq]

/-- What a request still holds it has read. -/
theorem held_subset_gets (h : Hist calls) : (progress h).held ⊆ (progress h).gets := by
  induction h with
  | nil => exact fun _ he => he
  | cons e h ih =>
      obtain ⟨o, x⟩ := e
      rw [progress_cons]
      by_cases ho : o.onCache = false
      · obtain ⟨hgets, -, hheld, -⟩ := note_sameCache (progress h) ho x
        rw [hgets, hheld]
        exact ih
      · cases o with
        | cacheGet k =>
            cases x with
            | none => exact ih
            | some v => exact List.cons_subset_cons _ ih
        | cacheSet k v t => exact fun e he => ih (mem_release.mp he).1
        | cacheDelete k => exact fun e he => ih (mem_release.mp he).1
        | _ => exact absurd rfl ho

section Runs

variable {ι : Type} [Fintype ι] [DecidableEq ι] {reqs : ι → Request} {C : Steps ι}
  {w : World ι} {c : Cfg ι}

/-- **A request has at most one code evaluated.** -/
theorem Runs.one_check (h : Runs env reqs C w c) (i : ι) : (did c i).checks.length ≤ 1 := by
  refine h.induction (fun c => (did c i).checks.length ≤ 1) (Nat.zero_le _) ?_ ?_ ?_
  · intro c j ch o k x w' _ ih _ _ hal _
    by_cases hij : i = j
    · subst hij
      rw [did_afterCall_self]
      by_cases ho : ∃ u code, o = .verifyTwoFactor u code
      · obtain ⟨u, code, rfl⟩ := ho
        obtain ⟨-, -, hreq⟩ := hal
        have hnil : (did c i).checks = [] := by
          cases hr : reqs i with
          | completeTwoFactor token code' =>
              rw [hr] at hreq
              exact hreq.2.1
          | verify2FA userId code' =>
              rw [hr] at hreq
              exact hreq.2
          | _ =>
              rw [hr] at hreq
              exact absurd hreq id
        change ((u, code, x) :: (did c i).checks).length ≤ 1
        rw [hnil]
        exact le_rfl
      · rw [note_checks _ fun u code hv => ho ⟨u, code, hv⟩]
        exact ih
    · rw [did_afterCall_ne hij]
      exact ih
  · exact fun c j ch x _ ih _ _ _ => ih
  · exact fun c d _ ih _ => ih

end Runs

/-! ### Programs on the cache, alone -/

/-- A program with nothing in between: what it returns, and what it leaves. -/
def alone {α : Type} (env : Env) (p : Act α) (w : World Unit) :
    Option (Except AppError α × World Unit) :=
  ((machine env Unit).eval {} () p w []).map fun out => (out.1, out.2.1)

/-- The world with other entries in its cache. -/
def World.withCache (w : World Unit) (cache : InMemoryCache) : World Unit := { w with cache := cache }

end BackendTemplate
