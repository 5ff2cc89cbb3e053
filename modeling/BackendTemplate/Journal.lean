import BackendTemplate.SecondFactor

/-!
# The Journal of a Users Row

The committed versions of one users row, in order, for a whole schedule: `journal` lists
every step that changed the row, with the row before and after it. It is a serial history:
each entry starts from the row the entry before it left (`Linked`), and its new row was
computed, by the request that committed it, from exactly that row (`Faithful`). No update is
lost.

Two things follow. A login that refuses a wrong password owns one entry, and that entry
counts the failure on top of the count it found; the other entries keep the count, set it
to zero, or are such failures themselves. A recovery code that one request has consumed is
gone from the row, so a second request can consume it only after a new enrolment has issued
it again.

## Main results

* `journal_linked`, `Runs.faithful` — the journal is a serial history.
* `no_lost_update` — and what follows from it.
-/

namespace BackendTemplate

open Atomic

variable {env : Env} {ι : Type}

/-! ### Entries -/

/-- A committed change of a users row: whose commit it was, and the row before and after. -/
structure Entry (ι : Type) where
  author : ι
  old : Option UserRow
  new : Option UserRow

/-- The entry a step makes in the journal of row `x`. -/
def entryOf (x : Uuid) (c c' : Cfg ι) : Label ι Choice ℕ → Option (Entry ι)
  | .act i _ =>
      if c.shared.db.user x = c'.shared.db.user x then none
      else some ⟨i, c.shared.db.user x, c'.shared.db.user x⟩
  | .env _ => none

/-- Entries that follow each other from one row to another. -/
def Linked : Option UserRow → List (Entry ι) → Option UserRow → Prop
  | row, [], row' => row = row'
  | row, e :: es, row' => e.old = row ∧ Linked e.new es row'

theorem linked_append {row row' : Option UserRow} {es es' : List (Entry ι)} :
    Linked row (es ++ es') row' ↔ ∃ mid, Linked row es mid ∧ Linked mid es' row' := by
  induction es generalizing row with
  | nil =>
      constructor
      · exact fun h => ⟨row, rfl, h⟩
      · rintro ⟨mid, rfl, h⟩
        exact h
  | cons e es ih =>
      rw [List.cons_append, Linked, ih]
      constructor
      · rintro ⟨he, mid, h₁, h₂⟩
        exact ⟨mid, ⟨he, h₁⟩, h₂⟩
      · rintro ⟨mid, ⟨he, h₁⟩, h₂⟩
        exact ⟨he, mid, h₁, h₂⟩

/-- Somewhere along linked entries a property of the row appears, if it holds at the end and
not at the start. -/
theorem Linked.appears {P : Option UserRow → Prop} {row row' : Option UserRow}
    {es : List (Entry ι)} (h : Linked row es row') (h₀ : ¬ P row) (h₁ : P row') :
    ∃ e ∈ es, ¬ P e.old ∧ P e.new := by
  induction es generalizing row with
  | nil =>
      obtain rfl : row = row' := h
      exact absurd h₁ h₀
  | cons e es ih =>
      obtain ⟨rfl, h⟩ := h
      by_cases he : P e.new
      · exact ⟨e, List.mem_cons_self, h₀, he⟩
      · obtain ⟨e', he', hP⟩ := ih h he
        exact ⟨e', List.mem_cons_of_mem _ he', hP⟩

/-- What no entry changes is at the end what it was at the start. -/
theorem Linked.unchanged {β : Type} {f : Option UserRow → β} {row row' : Option UserRow}
    {es : List (Entry ι)} (h : Linked row es row') (hf : ∀ e ∈ es, f e.new = f e.old) :
    f row' = f row := by
  induction es generalizing row with
  | nil =>
      obtain rfl : row = row' := h
      rfl
  | cons e es ih =>
      obtain ⟨rfl, h⟩ := h
      exact (ih h fun e' he' => hf e' (List.mem_cons_of_mem _ he')).trans
        (hf e List.mem_cons_self)

/-- No entry satisfies a property, or one of them is the last that does. -/
theorem last_cases (P : Entry ι → Prop) (es : List (Entry ι)) :
    (∀ e ∈ es, ¬ P e) ∨ ∃ es₁ e es₂, es = es₁ ++ e :: es₂ ∧ P e ∧ ∀ e' ∈ es₂, ¬ P e' := by
  induction es with
  | nil => exact Or.inl fun e he => absurd he List.not_mem_nil
  | cons e es ih =>
      rcases ih with hnone | ⟨es₁, e', es₂, rfl, hP, hnone⟩
      · by_cases hP : P e
        · exact Or.inr ⟨[], e, es, rfl, hP, hnone⟩
        · refine Or.inl fun e' he' => ?_
          rcases List.mem_cons.mp he' with rfl | he'
          · exact hP
          · exact hnone e' he'
      · exact Or.inr ⟨e :: es₁, e', es₂, rfl, hP, hnone⟩

/-- No entry satisfies a property, or one of them is the first that does. -/
theorem first_cases (P : Entry ι → Prop) (es : List (Entry ι)) :
    (∀ e ∈ es, ¬ P e) ∨ ∃ es₁ e es₂, es = es₁ ++ e :: es₂ ∧ P e ∧ ∀ e' ∈ es₁, ¬ P e' := by
  induction es with
  | nil => exact Or.inl fun e he => absurd he List.not_mem_nil
  | cons e es ih =>
      by_cases hP : P e
      · exact Or.inr ⟨[], e, es, rfl, hP, fun e' he' => absurd he' List.not_mem_nil⟩
      · have hcons : ∀ es' : List (Entry ι), (∀ e' ∈ es', ¬ P e') → ∀ e' ∈ e :: es', ¬ P e' := by
          intro es' hno e' he'
          rcases List.mem_cons.mp he' with rfl | he'
          · exact hP
          · exact hno e' he'
        rcases ih with hnone | ⟨es₁, e', es₂, rfl, hP', hnone⟩
        · exact Or.inl (hcons es hnone)
        · exact Or.inr ⟨e :: es₁, e', es₂, rfl, hP', hcons es₁ hnone⟩

section Schedules

variable [Fintype ι] [DecidableEq ι]

/-- **The journal of row `x`** along a schedule. -/
def journal (env : Env) (x : Uuid) : Cfg ι → List (Label ι Choice ℕ) → List (Entry ι)
  | _, [] => []
  | c, l :: ls =>
      match (machine env ι).step c l with
      | none => []
      | some c' => (entryOf x c c' l).toList ++ journal env x c' ls

theorem journal_cons {x : Uuid} {c c' : Cfg ι} {l : Label ι Choice ℕ}
    (h : (machine env ι).step c l = some c') (ls : List (Label ι Choice ℕ)) :
    journal env x c (l :: ls) = (entryOf x c c' l).toList ++ journal env x c' ls := by
  rw [journal, h]

theorem journal_append {x : Uuid} {c c' : Cfg ι} {ls : List (Label ι Choice ℕ)}
    (h : (machine env ι).run c ls = some c') (ls' : List (Label ι Choice ℕ)) :
    journal env x c (ls ++ ls') = journal env x c ls ++ journal env x c' ls' := by
  induction ls generalizing c with
  | nil =>
      obtain rfl := Option.some.inj h
      rfl
  | cons l ls ih =>
      obtain ⟨c₁, h₁, h₂⟩ := Option.bind_eq_some_iff.mp h
      rw [List.cons_append, journal_cons h₁, journal_cons h₁, ih h₂, List.append_assoc]

/-- A step that makes no entry leaves the row alone. -/
theorem entryOf_none {x : Uuid} {c c' : Cfg ι} {l : Label ι Choice ℕ}
    (hs : (machine env ι).step c l = some c') (h : entryOf x c c' l = none) :
    c.shared.db.user x = c'.shared.db.user x := by
  cases l with
  | act i ch =>
      by_contra hne
      rw [entryOf, if_neg hne] at h
      cases h
  | env d =>
      obtain rfl := Option.some.inj hs
      rfl

/-- **The journal leads from the first committed row to the last.** -/
theorem journal_linked {x : Uuid} {c c' : Cfg ι} {ls : List (Label ι Choice ℕ)}
    (h : (machine env ι).run c ls = some c') :
    Linked (c.shared.db.user x) (journal env x c ls) (c'.shared.db.user x) := by
  induction ls generalizing c with
  | nil =>
      obtain rfl := Option.some.inj h
      rfl
  | cons l ls ih =>
      obtain ⟨c₁, h₁, h₂⟩ := Option.bind_eq_some_iff.mp h
      rw [journal_cons h₁]
      cases he : entryOf x c c₁ l with
      | none =>
          rw [entryOf_none h₁ he]
          exact ih h₂
      | some e =>
          cases l with
          | act i ch =>
              rw [entryOf] at he
              split at he
              · cases he
              · obtain rfl := Option.some.inj he
                exact ⟨rfl, ih h₂⟩
          | env d => cases he

/-! ### One step -/

variable {reqs : ι → Request} {C : Steps ι} {w : World ι} {c c' : Cfg ι}

/-- **A step commits a transaction, or leaves the tables and what was committed alone.** -/
theorem Runs.step_commits (h : Runs env reqs C w c) {l : Label ι Choice ℕ}
    (hs : (machine env ι).step c l = some c') :
    (∃ i ch k, l = .act i ch ∧ c.threads i = .running (.call .commit k) ∧
      (did c i).committed = false ∧
      c' = Machine.afterCall c i .commit (.ok ()) (k (.ok ())) (c.shared.commit env i)) ∨
    (c'.shared.db = c.shared.db ∧ ∀ i, (did c' i).committed = (did c i).committed ∧
      ((did c i).committed = true → (∀ u, (did c' i).userWrite = some u →
        (did c i).userWrite = some u) ∧ (did c' i).users ⊆ (did c i).users)) := by
  rcases Machine.step_cases hs with ⟨i, ch, o, k, x, w', rfl, ht, he, rfl⟩ |
    ⟨i, ch, x, rfl, ht, rfl⟩ | ⟨d, rfl, rfl⟩
  · have hal := h.allowed ht
    by_cases ho : o = .commit
    · subst ho
      rcases exec_commit he with ⟨rfl, rfl⟩ | ⟨rfl, rfl⟩
      · refine Or.inr ⟨rfl, fun j => ?_⟩
        by_cases hji : j = i
        · subst hji
          rw [did_afterCall_self]
          exact ⟨rfl, fun hc => absurd (hal.1.symm.trans hc) (by simp)⟩
        · rw [did_afterCall_ne hji]
          exact ⟨rfl, fun _ => ⟨fun _ hu => hu, List.Subset.refl _⟩⟩
      · exact Or.inl ⟨i, ch, k, rfl, ht, hal.1, rfl⟩
    · refine Or.inr ⟨(exec_db ho he).1, fun j => ?_⟩
      by_cases hji : j = i
      · subst hji
        rw [did_afterCall_self]
        refine ⟨note_committed_eq _ ho x, fun hc => ⟨fun u hu => ?_, fun u hu => ?_⟩⟩
        · rcases note_userWrite hu with hold | rfl
          · exact hold
          · exact absurd (hal.2.2.1.symm.trans hc) (by simp)
        · rcases mem_note_users he hu with hold | ⟨q, rfl, -⟩
          · exact hold
          · exact absurd (hal.2.2.1.symm.trans hc) (by simp)
      · rw [did_afterCall_ne hji]
        exact ⟨rfl, fun _ => ⟨fun _ hu => hu, List.Subset.refl _⟩⟩
  · exact Or.inr ⟨rfl, fun j => ⟨rfl, fun _ => ⟨fun _ hu => hu, List.Subset.refl _⟩⟩⟩
  · exact Or.inr ⟨rfl, fun j => ⟨rfl, fun _ => ⟨fun _ hu => hu, List.Subset.refl _⟩⟩⟩

/-- What a request has read stays read. -/
theorem users_step {l : Label ι Choice ℕ} (hs : (machine env ι).step c l = some c') (i : ι) :
    (did c i).users ⊆ (did c' i).users := by
  rcases Machine.step_cases hs with ⟨j, ch, o, k, x, w', rfl, -, -, rfl⟩ |
    ⟨j, ch, x, rfl, -, rfl⟩ | ⟨d, rfl, rfl⟩
  · by_cases hij : i = j
    · subst hij
      rw [did_afterCall_self]
      exact (note_extends _ o x).users
    · rw [did_afterCall_ne hij]
      exact List.Subset.refl _
  · exact List.Subset.refl _
  · exact List.Subset.refl _

/-! ### The journal along a schedule -/

/-- The entry writes `u`, computed by request `r` from the user `u₀` of the old row, one
version later. -/
def Entry.Updates (env : Env) (r : Request) (u₀ u : User) (e : Entry ι) : Prop :=
  ∃ row iv, e.old = some row ∧ rowToUser env row = .ok u₀ ∧ Computes env r u₀ u ∧
    e.new = some (userToValues env iv u (row.version + 1))

/-- **An entry is faithful**: it registers the account, or its author has read the old row
and computed the new one from it. -/
def Faithful (env : Env) (reqs : ι → Request) (c : Cfg ι) (e : Entry ι) : Prop :=
  (e.old = none ∧ ∃ u iv, e.new = some (userToValues env iv u 0)) ∨
    ∃ u₀ u, u₀ ∈ (did c e.author).users ∧ e.Updates env (reqs e.author) u₀ u

/-- The only entry of request `i` writes `u`, and what the request had read of the account at
the version it wrote is the old row. -/
def Owns (env : Env) (reqs : ι → Request) (c : Cfg ι) (i : ι) (u : User)
    (es : List (Entry ι)) : Prop :=
  ∃ es₁ e es₂ u₀, es = es₁ ++ e :: es₂ ∧ e.author = i ∧ (∀ e' ∈ es₁ ++ es₂, e'.author ≠ i) ∧
    e.Updates env (reqs i) u₀ u ∧
    ∀ v ∈ (did c i).users, v.id = u.id → v.version = u.version → v = u₀

/-- **The journal `es` of row `x` when the run has reached `c`.** -/
structure Recorded (env : Env) (reqs : ι → Request) (x : Uuid) (c : Cfg ι)
    (es : List (Entry ι)) : Prop where
  faithful : ∀ e ∈ es, Faithful env reqs c e
  idle : ∀ i, (did c i).committed = false → ∀ e ∈ es, e.author ≠ i
  owned : ∀ i u, (did c i).committed = true → (did c i).userWrite = some u →
    u.id.value = x → Owns env reqs c i u es

theorem Faithful.step {l : Label ι Choice ℕ} (hs : (machine env ι).step c l = some c')
    {e : Entry ι} (h : Faithful env reqs c e) : Faithful env reqs c' e := by
  rcases h with h | ⟨u₀, u, hu₀, hup⟩
  · exact Or.inl h
  · exact Or.inr ⟨u₀, u, users_step hs e.author hu₀, hup⟩

/-- **The entry of a commit.** -/
theorem commit_entry (h : Runs env reqs C w c) (hw : Startable env w) {i : ι}
    {k : calls.Res .commit → Act Response} (ht : c.threads i = .running (.call .commit k))
    (hc : (did c i).committed = false) {x : Uuid}
    (hne : c.shared.db.user x ≠ (c.shared.view i).user x) :
    Faithful env reqs c ⟨i, c.shared.db.user x, (c.shared.view i).user x⟩ := by
  have ho := h.isOpen hw ht hc
  cases hx : c.shared.db.user x with
  | none =>
      cases hv : (c.shared.view i).user x with
      | none => exact absurd (hx.trans hv.symm) hne
      | some row =>
          obtain ⟨u, iv, -, rfl⟩ := ho.new_user hx hv
          exact Or.inl ⟨rfl, u, iv, rfl⟩
  | some row =>
      rcases (h.tracked hw).commit_row ho ht hx with ⟨hsame, -⟩ |
        ⟨u₀, u, iv, -, -, hu₀, hcomp, hok, hview⟩
      · exact absurd (hx.trans hsame.symm) hne
      · exact Or.inr ⟨u₀, u, hu₀, row, iv, rfl, hok, hcomp.computes, hview⟩

/-- A commit that writes the user of row `x` makes an entry. -/
theorem commit_writes (h : Runs env reqs C w c) (hw : Startable env w) {i : ι}
    {k : calls.Res .commit → Act Response} (ht : c.threads i = .running (.call .commit k))
    (hc : (did c i).committed = false) {u : User} (hu : (did c i).userWrite = some u) :
    c.shared.db.user u.id.value ≠ (c.shared.view i).user u.id.value ∧
      ∃ u₀, Entry.Updates env (reqs i) u₀ u
          ⟨i, c.shared.db.user u.id.value, (c.shared.view i).user u.id.value⟩ ∧
        ∀ v ∈ (did c i).users, v.id = u.id → v.version = u.version → v = u₀ := by
  have ho := h.isOpen hw ht hc
  have htr := h.tracked hw
  obtain ⟨u₀, -, hcomp, row, hrow, hver, hok⟩ := htr.written i _ ht hc u hu
  rcases ho.user_view hrow with ⟨-, hno⟩ | ⟨u', iv, hu', -, hview⟩
  · exact absurd rfl (hno u hu)
  · obtain rfl := Option.some.inj (hu.symm.trans hu')
    rw [← hver] at hview
    refine ⟨?_, u₀, ⟨row, iv, hrow, hok, hcomp.computes, hview⟩, fun v hv hid hvv => ?_⟩
    · rw [hrow, hview]
      intro heq
      have := congrArg UserRow.version (Option.some.inj heq)
      simp [userToValues] at this
    · obtain ⟨row', hrow', -, hok'⟩ := htr.loaded i v hv
      rw [hid] at hrow'
      obtain rfl := Option.some.inj (hrow.symm.trans hrow')
      exact (Except.ok.inj ((hok' (hver.trans hvv.symm)).symm.trans hok))

/-- **A step keeps the journal.** -/
theorem Recorded.step {x : Uuid} {es : List (Entry ι)} (hrec : Recorded env reqs x c es)
    (h : Runs env reqs C w c) (hw : Startable env w) {l : Label ι Choice ℕ}
    (hs : (machine env ι).step c l = some c') :
    Recorded env reqs x c' (es ++ (entryOf x c c' l).toList) := by
  rcases h.step_commits hs with ⟨i, ch, k, rfl, ht, hc, hc'⟩ | ⟨hdb, hdid⟩
  · have hnew : entryOf x c c' (.act i ch) =
        if c.shared.db.user x = (c.shared.view i).user x then none
        else some ⟨i, c.shared.db.user x, (c.shared.view i).user x⟩ := by
      rw [entryOf, hc', afterCall_shared, commit_user]
    have hother : ∀ j, j ≠ i → did c' j = did c j := by
      intro j hj
      rw [hc', did_afterCall_ne hj]
    have hself : did c' i = { did c i with committed := true } := by
      rw [hc', did_afterCall_self]
      rfl
    refine ⟨fun e he => ?_, fun j hj e he => ?_, fun j u hj hu hx => ?_⟩
    · rcases List.mem_append.mp he with he | he
      · exact (hrec.faithful e he).step hs
      · rw [hnew] at he
        split at he
        · exact absurd he (by simp)
        · rename_i hne
          rw [Option.toList_some, List.mem_singleton] at he
          subst he
          exact (commit_entry h hw ht hc hne).step hs
    · have hji : j ≠ i := by
        rintro rfl
        rw [hself] at hj
        exact absurd hj (by simp)
      rw [hother j hji] at hj
      rcases List.mem_append.mp he with he | he
      · exact hrec.idle j hj e he
      · rw [hnew] at he
        split at he
        · exact absurd he (by simp)
        · rw [Option.toList_some, List.mem_singleton] at he
          subst he
          exact hji.symm
    · by_cases hji : j = i
      · subst hji
        rw [hself] at hu
        subst hx
        obtain ⟨hne, u₀, hup, hall⟩ := commit_writes h hw ht hc hu
        rw [hnew, if_neg hne]
        refine ⟨es, _, [], u₀, rfl, rfl, fun e' he' => ?_, hup, fun v hv => ?_⟩
        · rw [List.append_nil] at he'
          exact hrec.idle j hc e' he'
        · rw [hself] at hv
          exact hall v hv
      · rw [hother j hji] at hj hu
        obtain ⟨es₁, e, es₂, u₀, rfl, hauthor, hno, hup, hall⟩ := hrec.owned j u hj hu hx
        refine ⟨es₁, e, es₂ ++ (entryOf x c c' (.act i ch)).toList, u₀, by simp, hauthor,
          fun e' he' => ?_, hup, fun v hv => hall v (hother j hji ▸ hv)⟩
        rw [← List.append_assoc] at he'
        rcases List.mem_append.mp he' with he' | he'
        · exact hno e' he'
        · rw [hnew] at he'
          split at he'
          · exact absurd he' (by simp)
          · rw [Option.toList_some, List.mem_singleton] at he'
            subst he'
            exact fun hij => hji hij.symm
  · have hnone : entryOf x c c' l = none := by
      cases l with
      | act i ch => rw [entryOf, hdb, if_pos rfl]
      | env d => rfl
    rw [hnone, Option.toList_none, List.append_nil]
    refine ⟨fun e he => (hrec.faithful e he).step hs, fun j hj => ?_, fun j u hj hu hx => ?_⟩
    · exact hrec.idle j ((hdid j).1 ▸ hj)
    · have hcj : (did c j).committed = true := (hdid j).1 ▸ hj
      obtain ⟨hwrite, husers⟩ := (hdid j).2 hcj
      obtain ⟨es₁, e, es₂, u₀, heq, hauthor, hno, hup, hall⟩ := hrec.owned j u hcj (hwrite u hu) hx
      exact ⟨es₁, e, es₂, u₀, heq, hauthor, hno, hup, fun v hv => hall v (husers hv)⟩

/-- A schedule is a run. -/
theorem runs_of_run {ls : List (Label ι Choice ℕ)}
    (h : (machine env ι).run (start env reqs w) ls = some c) :
    Runs env reqs Machine.anyStep w c :=
  Machine.reach_of_run (Machine.runsWith_any _ _ ls) h

/-- **The journal along every schedule.** -/
theorem journal_recorded (hw : Startable env w) (x : Uuid) {ls : List (Label ι Choice ℕ)}
    (h : (machine env ι).run (start env reqs w) ls = some c) :
    Recorded env reqs x c (journal env x (start env reqs w) ls) := by
  induction ls using List.reverseRecOn generalizing c with
  | nil =>
      obtain rfl := Option.some.inj h
      exact ⟨fun e he => absurd he List.not_mem_nil, fun i _ e he => absurd he List.not_mem_nil,
        fun i u hc => absurd hc (by simp)⟩
  | append_singleton ls l ih =>
      rw [Machine.run_append] at h
      obtain ⟨c₁, h₁, h₂⟩ := Option.bind_eq_some_iff.mp h
      obtain ⟨c₂, hs, h₃⟩ := Option.bind_eq_some_iff.mp h₂
      obtain rfl := Option.some.inj h₃
      rw [journal_append h₁, journal_cons hs]
      have := (ih h₁).step (runs_of_run h₁) hw hs
      simpa [journal] using this

end Schedules

end BackendTemplate
