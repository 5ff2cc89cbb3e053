import Mathlib.Data.Finset.Card
import Mathlib.Data.List.Sort
import BackendTemplate.OutboxLifecycle

/-!
# Rows That Wait

A row of the outbox that is due does not wait for ever. While no batch crashes and the broker
accepts what it is handed, every batch that begins takes the row, or takes a full batch of rows that
were there before it; rows that come later, and rows that are put back, do not pass it.

## Main results

* `due_row_delivered` — how many batches a row that is due waits for.
-/

namespace BackendTemplate

open OutboxRepository

variable {ι : Type} {env : Env} {config : WorkerConfig}

/-! ### The order of the claims -/

instance : Std.Total Before where
  total a b := by
    rcases lt_trichotomy a.createdAt b.createdAt with h | h | h
    · exact Or.inl (Or.inl h)
    · exact (Nat.le_total a.id b.id).imp (fun hid => Or.inr ⟨h, hid⟩)
        fun hid => Or.inr ⟨h.symm, hid⟩
    · exact Or.inr (Or.inl h)

instance : IsTrans OutboxEvent Before where
  trans a b c := by
    rintro (h | ⟨h, hid⟩) (h' | ⟨h', hid'⟩)
    · exact Or.inl (h.trans h')
    · exact Or.inl (h' ▸ h)
    · exact Or.inl (h ▸ h')
    · exact Or.inr ⟨h.trans h', Nat.le_trans hid hid'⟩

/-- **A row that could be claimed and is not** has a full batch before it. -/
theorem getUnprocessed_full {rows : List OutboxEvent} {locked : Uuid → Bool} {now : Instant}
    {limit : ℕ} {e : OutboxEvent} (he : e ∈ rows) (hdue : due now e = true)
    (hfree : locked e.id = false) (hnot : e ∉ getUnprocessed rows locked now limit) :
    (getUnprocessed rows locked now limit).length = limit ∧
      ∀ r ∈ getUnprocessed rows locked now limit, Before r e := by
  rw [getUnprocessed] at hnot ⊢
  have hsorted := (List.pairwise_insertionSort Before rows).filter
    fun r => due now r && !locked r.id
  have hmem : e ∈ (rows.insertionSort Before).filter fun r => due now r && !locked r.id := by
    refine List.mem_filter.mpr ⟨(List.mem_insertionSort _).mpr he, ?_⟩
    rw [hdue, hfree]
    rfl
  generalize (rows.insertionSort Before).filter (fun r => due now r && !locked r.id) = l at *
  have hdrop : e ∈ l.drop limit := by
    rw [← List.take_append_drop limit l] at hmem
    exact (List.mem_append.mp hmem).resolve_left hnot
  have hlength : limit < l.length := by
    have := List.length_pos_of_mem hdrop
    rw [List.length_drop] at this
    omega
  refine ⟨List.length_take_of_le hlength.le, fun r hr => ?_⟩
  rw [← List.take_append_drop limit l, List.pairwise_append] at hsorted
  exact hsorted.2.2 r hr e hdrop

/-- How many batches a step begins. -/
def RelayLabel.claims : RelayLabel ι → ℕ
  | .claim _ => 1
  | _ => 0

namespace Relay

variable [DecidableEq ι] {s s' : Relay ι} {i : ι} {b : Batch} {e : OutboxEvent}

/-! ### Steps without trouble -/

/-- Nothing crashes, and the broker accepts what it is handed. -/
def Calm (s : Relay ι) : RelayLabel ι → Prop
  | .crash _ => False
  | .advance i outcome =>
      ∀ b ∈ s.batches i, ∀ e rest, b.todo = .publish (e :: rest) → outcome = .ok ()
  | _ => True

/-- Whatever the state is, nothing crashes and the broker accepts what it is handed. -/
def accepts : RelayLabel ι → Bool
  | .crash _ => false
  | .advance _ outcome => outcome.isOk
  | _ => true

omit [DecidableEq ι] in
theorem calm_of_accepts {l : RelayLabel ι} (h : accepts l = true) : s.Calm l := by
  cases l with
  | crash i => cases h
  | advance i outcome =>
      intro b _ e rest _
      cases outcome with
      | ok x => rfl
      | error error => cases h
  | insert events => trivial
  | claim i => trivial
  | replay ids => trivial
  | prune before => trivial
  | tick d => trivial
  | draw n => trivial

/-- No open batch has met a failure. -/
def Clean (s : Relay ι) : Prop := ∀ i, ∀ b ∈ s.batches i, b.failures = []

/-- **What a statement of a batch leaves**: the commit ends the batch; the others leave it with the
rows it has claimed, and with a failure more at most when the broker does not accept. -/
theorem advance_spec (config : WorkerConfig) (s : Relay ι) (i : ι) (b : Batch)
    (outcome : Except String Unit) :
    (b.todo = .reschedule [] ∧ s.advance config i b outcome = { s.endBatch i with
      rows := s.rows.map b.flush
      journal := s.entries b ++ s.journal }) ∨
    ∃ b' effects, s.advance config i b outcome = { s.setBatch i b' with effects := effects } ∧
      b'.events = b.events ∧ s.effects ⊆ effects ∧
      ((∀ e rest, b.todo = .publish (e :: rest) → outcome = .ok ()) →
        b'.failures = b.failures) := by
  have hsame : s.effects ⊆ s.effects := fun _ hx => hx
  rw [Relay.advance]
  split
  · rename_i e rest htodo
    cases outcome with
    | ok x => exact Or.inr ⟨_, _, rfl, rfl, List.subset_cons_self _ _, fun _ => rfl⟩
    | error error =>
        refine Or.inr ⟨_, _, rfl, rfl, List.subset_cons_self _ _, fun hok => ?_⟩
        cases hok e rest htodo
  · exact Or.inr ⟨_, _, rfl, rfl, hsame, fun _ => rfl⟩
  · split
    · exact Or.inr ⟨_, _, rfl, rfl, hsame, fun _ => rfl⟩
    · exact Or.inr ⟨_, _, rfl, rfl, List.subset_cons_self _ _, fun _ => rfl⟩
  · exact Or.inr ⟨_, _, rfl, rfl, hsame, fun _ => rfl⟩
  · exact Or.inr ⟨_, _, rfl, rfl, hsame, fun _ => rfl⟩
  · split
    · exact Or.inr ⟨_, _, rfl, rfl, hsame, fun _ => rfl⟩
    · exact Or.inr ⟨_, _, rfl, rfl, hsame, fun _ => rfl⟩
  · rename_i htodo
    exact Or.inl ⟨htodo, rfl⟩

/-- The batches when one has been set. -/
theorem mem_setBatch {j : ι} {b₁ : Batch} :
    b₁ ∈ (s.setBatch i b).batches j ↔ j = i ∧ b₁ = b ∨ j ≠ i ∧ b₁ ∈ s.batches j := by
  by_cases hj : j = i
  · subst hj
    simp [Relay.setBatch, eq_comm]
  · simp [Relay.setBatch, hj]

variable [Fintype ι]

omit [DecidableEq ι] in
theorem locked_iff {id : Uuid} :
    s.locked id = true ↔ ∃ i, ∃ b ∈ s.batches i, id ∈ b.events.map OutboxEvent.id := by
  rw [Relay.locked, decide_eq_true_eq]
  simp only [List.mem_map]

omit [DecidableEq ι] in
theorem locked_false {id : Uuid} :
    s.locked id = false ↔ ∀ i, ∀ b ∈ s.batches i, id ∉ b.events.map OutboxEvent.id := by
  rw [← Bool.not_eq_true, locked_iff]
  push Not
  rfl

/-- A batch goes on with the rows it has claimed. -/
theorem locked_setBatch (hb : b ∈ s.batches i) {b' : Batch} (hevents : b'.events = b.events)
    (id : Uuid) : (s.setBatch i b').locked id = s.locked id := by
  rw [Bool.eq_iff_iff, locked_iff, locked_iff]
  constructor
  · rintro ⟨j, b₁, hb₁, hid⟩
    rcases mem_setBatch.mp hb₁ with ⟨rfl, rfl⟩ | ⟨-, hb₁⟩
    · exact ⟨j, b, hb, hevents ▸ hid⟩
    · exact ⟨j, b₁, hb₁, hid⟩
  · rintro ⟨j, b₁, hb₁, hid⟩
    by_cases hj : j = i
    · subst hj
      obtain rfl := Option.some.inj (hb₁.symm.trans hb)
      exact ⟨j, b', mem_setBatch.mpr (Or.inl ⟨rfl, rfl⟩), hevents.symm ▸ hid⟩
    · exact ⟨j, b₁, mem_setBatch.mpr (Or.inr ⟨hj, hb₁⟩), hid⟩

/-- A row that nobody holds once a batch has ended is free, or was in that batch. -/
theorem locked_endBatch (hb : b ∈ s.batches i) {id : Uuid}
    (hfree : (s.endBatch i).locked id = false) (hother : id ∉ b.events.map OutboxEvent.id) :
    s.locked id = false := by
  rw [locked_false] at hfree ⊢
  intro j b₁ hb₁
  by_cases hj : j = i
  · subst hj
    obtain rfl := Option.some.inj (hb₁.symm.trans hb)
    exact hother
  · exact hfree j b₁ (by simpa [Relay.endBatch, hj] using hb₁)

/-! ### What a calm step keeps -/

/-- The outside world forgets nothing, and neither does the journal. -/
theorem step_grows {l : RelayLabel ι} (hs : s.step env config l = some s') :
    s.effects ⊆ s'.effects ∧ s.journal ⊆ s'.journal ∧ s.clock ≤ s'.clock := by
  have hsame : s.effects ⊆ s.effects := fun _ hx => hx
  have hjournal : s.journal ⊆ s.journal := fun _ hx => hx
  cases l with
  | claim i =>
      rw [Relay.step] at hs
      split at hs
      · cases hs
      · split at hs
        · obtain rfl := Option.some.inj hs
          exact ⟨hsame, hjournal, le_refl _⟩
        · obtain rfl := Option.some.inj hs
          exact ⟨hsame, hjournal, le_refl _⟩
  | advance i outcome =>
      obtain ⟨b, -, rfl⟩ := Option.map_eq_some_iff.mp hs
      rcases advance_spec config s i b outcome with ⟨-, heq⟩ | ⟨b', effects, heq, -, heffects, -⟩
      · rw [heq]
        exact ⟨hsame, fun _ hx => List.mem_append_right _ hx, le_refl _⟩
      · rw [heq]
        exact ⟨heffects, hjournal, le_refl _⟩
  | insert events =>
      obtain rfl := Option.some.inj hs
      exact ⟨hsame, fun _ hx => List.mem_append_right _ hx, le_refl _⟩
  | crash i =>
      obtain rfl := Option.some.inj hs
      exact ⟨hsame, hjournal, le_refl _⟩
  | replay ids =>
      obtain rfl := Option.some.inj hs
      exact ⟨hsame, fun _ hx => List.mem_append_right _ hx, le_refl _⟩
  | prune before =>
      obtain rfl := Option.some.inj hs
      exact ⟨hsame, hjournal, le_refl _⟩
  | tick d =>
      obtain rfl := Option.some.inj hs
      exact ⟨hsame, hjournal, Int.le_add_of_nonneg_right (Int.natCast_nonneg d)⟩
  | draw n =>
      obtain rfl := Option.some.inj hs
      exact ⟨hsame, hjournal, le_refl _⟩

/-- No batch meets a failure. -/
theorem Clean.step (h : s.Clean) {l : RelayLabel ι} (hl : s.Calm l)
    (hs : s.step env config l = some s') : s'.Clean := by
  cases l with
  | claim i =>
      rw [Relay.step] at hs
      split at hs
      · cases hs
      · split at hs
        · obtain rfl := Option.some.inj hs
          exact h
        · obtain rfl := Option.some.inj hs
          intro j b hb
          rcases mem_setBatch.mp hb with ⟨-, rfl⟩ | ⟨-, hb⟩
          · rfl
          · exact h j b hb
  | advance i outcome =>
      obtain ⟨b, hb, rfl⟩ := Option.map_eq_some_iff.mp hs
      rcases advance_spec config s i b outcome with ⟨-, heq⟩ | ⟨b', effects, heq, -, -, hfailures⟩
      · rw [heq]
        exact fun j b₁ hb₁ => h j b₁ (mem_endBatch hb₁).2
      · rw [heq]
        intro j b₁ hb₁
        rcases mem_setBatch.mp hb₁ with ⟨-, rfl⟩ | ⟨-, hb₁⟩
        · exact (hfailures (hl b hb)).trans (h i b hb)
        · exact h j b₁ hb₁
  | crash i => exact hl.elim
  | insert events => exact Option.some.inj hs ▸ h
  | replay ids => exact Option.some.inj hs ▸ h
  | prune before => exact Option.some.inj hs ▸ h
  | tick d => exact Option.some.inj hs ▸ h
  | draw n => exact Option.some.inj hs ▸ h

omit [DecidableEq ι] [Fintype ι] in
/-- What a batch without failures commits of a row. -/
theorem Sound.flush_clean (h : s.Sound env config) (hb : b ∈ s.batches i) (hclean : s.Clean)
    (htodo : b.todo = .reschedule []) {row : OutboxEvent} (hrow : row ∈ s.rows) :
    row.id ∉ b.events.map OutboxEvent.id ∧ b.flush row = row ∨
      row ∈ b.events ∧ (b.flush row).processedAt ≠ none ∧ (b.flush row).id = row.id := by
  rcases (h.batches i b hb).flush_cases htodo h.keyed hrow with h' | ⟨hp, t, heq⟩ | ⟨-, hf, -⟩
  · exact Or.inl h'
  · rw [heq]
    exact Or.inr ⟨(Batch.mem_published.mp hp).1, by simp [markProcessed], rfl⟩
  · rw [Batch.failedIds, hclean i b hb] at hf
    exact absurd hf List.not_mem_nil

/-! ### The rows before a row -/

/-- A row that is not processed, and is claimed before another one. -/
def Ahead (e r : OutboxEvent) : Prop := r.processedAt = none ∧ Before r e ∧ r.id ≠ e.id

instance (e r : OutboxEvent) : Decidable (Ahead e r) := inferInstanceAs (Decidable (_ ∧ _ ∧ _))

/-- The rows that are claimed before a row. -/
def ahead (s : Relay ι) (e : OutboxEvent) : List OutboxEvent := s.rows.filter fun r => Ahead e r

/-- The ids of the rows before a row that no batch holds. -/
def waiting (s : Relay ι) (e : OutboxEvent) : Finset Uuid :=
  (((s.ahead e).filter fun r => !s.locked r.id).map OutboxEvent.id).toFinset

omit [DecidableEq ι] in
theorem mem_waiting {id : Uuid} : id ∈ s.waiting e ↔
    ∃ r ∈ s.rows, Ahead e r ∧ s.locked r.id = false ∧ r.id = id := by
  simp only [waiting, ahead, List.mem_toFinset, List.mem_map, List.mem_filter, decide_eq_true_eq,
    Bool.not_eq_true', and_assoc]

omit [DecidableEq ι] in
theorem card_waiting_le (s : Relay ι) (e : OutboxEvent) :
    (s.waiting e).card ≤ (s.ahead e).length := by
  refine (List.toFinset_card_le _).trans ?_
  rw [List.length_map]
  exact List.length_filter_le _ _

/-- **No row passes another one**: in a calm step no row comes to wait before a row that is older
than the present. -/
theorem waiting_step (h : s.Sound env config) (hclean : s.Clean) (hold : e.createdAt < s.clock)
    {l : RelayLabel ι} (hl : s.Calm l) (hs : s.step env config l = some s') :
    s'.waiting e ⊆ s.waiting e := by
  intro id hid
  obtain ⟨r, hr, hahead, hfree, rfl⟩ := mem_waiting.mp hid
  rw [mem_waiting]
  cases l with
  | claim i =>
      rw [Relay.step] at hs
      split at hs
      · cases hs
      · rename_i hi
        split at hs
        · obtain rfl := Option.some.inj hs
          exact ⟨r, hr, hahead, hfree, rfl⟩
        · obtain rfl := Option.some.inj hs
          refine ⟨r, hr, hahead, ?_, rfl⟩
          rw [locked_false] at hfree ⊢
          intro j b hb
          refine hfree j b (mem_setBatch.mpr (Or.inr ⟨?_, hb⟩))
          rintro rfl
          rw [hi] at hb
          cases hb
  | advance i outcome =>
      obtain ⟨b, hb, rfl⟩ := Option.map_eq_some_iff.mp hs
      rcases advance_spec config s i b outcome with ⟨htodo, heq⟩ | ⟨b', effects, heq, hevents, -⟩
      · rw [heq] at hr hfree
        obtain ⟨row, hrow, rfl⟩ := List.mem_map.mp hr
        rcases h.flush_clean hb hclean htodo hrow with ⟨hother, hsame⟩ | ⟨-, hproc, -⟩
        · rw [hsame] at hahead hfree ⊢
          exact ⟨row, hrow, hahead, locked_endBatch hb hfree hother, rfl⟩
        · exact absurd hahead.1 hproc
      · rw [heq] at hr hfree
        exact ⟨r, hr, hahead, (locked_setBatch hb hevents _).symm.trans hfree, rfl⟩
  | crash i => exact hl.elim
  | insert events =>
      obtain rfl := Option.some.inj hs
      rcases List.mem_append.mp hr with hr | hnew
      · exact ⟨r, hr, hahead, hfree, rfl⟩
      · -- a row that is inserted now is younger
        obtain ⟨x, -, rfl⟩ := List.mem_map.mp hnew
        rcases hahead.2.1 with hlt | ⟨heq, -⟩
        · exact absurd (hlt.trans hold) (lt_irrefl s.clock)
        · exact absurd hold (heq ▸ lt_irrefl s.clock)
  | replay ids =>
      obtain rfl := Option.some.inj hs
      obtain ⟨row, hrow, rfl⟩ := List.mem_map.mp hr
      by_cases hrep : replays ids row = true
      · rw [if_pos hrep] at hahead hfree ⊢
        exact ⟨row, hrow, hahead, hfree, rfl⟩
      · rw [if_neg hrep] at hahead hfree ⊢
        exact ⟨row, hrow, hahead, hfree, rfl⟩
  | prune before =>
      obtain rfl := Option.some.inj hs
      exact ⟨r, List.mem_of_mem_filter hr, hahead, hfree, rfl⟩
  | tick d =>
      obtain rfl := Option.some.inj hs
      exact ⟨r, hr, hahead, hfree, rfl⟩
  | draw n =>
      obtain rfl := Option.some.inj hs
      exact ⟨r, hr, hahead, hfree, rfl⟩

/-! ### A row on its way -/

/-- The row can be claimed, and is older than the present. -/
structure Queued (s : Relay ι) (e : OutboxEvent) : Prop where
  mem : e ∈ s.rows
  free : s.locked e.id = false
  due : due s.clock e = true
  old : e.createdAt < s.clock

/-- A batch holds the row. -/
def Held (s : Relay ι) (e : OutboxEvent) : Prop := ∃ i, ∃ b ∈ s.batches i, e ∈ b.events

/-- The broker has accepted the event, and its row was marked processed. -/
def Delivered (s : Relay ι) (id : Uuid) : Prop :=
  .published id true ∈ s.effects ∧ .processed id ∈ s.journal

theorem Delivered.step {id : Uuid} (h : s.Delivered id) {l : RelayLabel ι}
    (hs : s.step env config l = some s') : s'.Delivered id := by
  obtain ⟨heffects, hjournal, -⟩ := step_grows hs
  exact ⟨heffects h.1, hjournal h.2⟩

/-- **A batch that begins takes the row, or a full batch of rows before it.** -/
theorem Queued.claim (h : s.Sound env config) (hclean : s.Clean) (hq : s.Queued e)
    (hs : s.step env config (.claim i) = some s') :
    s'.Held e ∨ s'.Queued e ∧ (s'.waiting e).card + config.batchSize ≤ (s.waiting e).card := by
  have hsub : s'.waiting e ⊆ s.waiting e := waiting_step h hclean hq.old (l := .claim i) trivial hs
  rw [Relay.step] at hs
  split at hs
  · cases hs
  · rename_i hi
    by_cases hmem : e ∈ getUnprocessed s.rows s.locked s.clock config.batchSize
    · -- the batch has the row
      split at hs
      · rename_i hnil
        exact absurd (hnil ▸ hmem) List.not_mem_nil
      · rename_i e₁ es hevents
        obtain rfl := Option.some.inj hs
        exact Or.inl ⟨i, _, mem_setBatch.mpr (Or.inl ⟨rfl, rfl⟩), hevents ▸ hmem⟩
    · obtain ⟨hlength, hbefore⟩ := getUnprocessed_full hq.mem hq.due hq.free hmem
      have hids : ((getUnprocessed s.rows s.locked s.clock config.batchSize).map
          OutboxEvent.id).toFinset ⊆ s.waiting e := by
        intro id hid
        obtain ⟨r, hr, rfl⟩ := List.mem_map.mp (List.mem_toFinset.mp hid)
        obtain ⟨hrow, hdue, hfree⟩ := mem_getUnprocessed hr
        refine mem_waiting.mpr ⟨r, hrow, ⟨(due_iff.mp hdue).1, hbefore r hr, fun heq => ?_⟩, hfree,
          rfl⟩
        exact hmem (List.inj_on_of_nodup_map h.keyed hrow hq.mem heq ▸ hr)
      have hcard : ((getUnprocessed s.rows s.locked s.clock config.batchSize).map
          OutboxEvent.id).toFinset.card = config.batchSize := by
        rw [List.toFinset_card_of_nodup (getUnprocessed_nodup h.keyed _ _ _), List.length_map,
          hlength]
      -- what the batch has taken does not wait any more
      have htaken : s'.Queued e ∧ Disjoint (s'.waiting e) ((getUnprocessed s.rows s.locked s.clock
          config.batchSize).map OutboxEvent.id).toFinset := by
        split at hs
        · rename_i hnil
          obtain rfl := Option.some.inj hs
          rw [hnil]
          exact ⟨hq, Finset.disjoint_empty_right _⟩
        · rename_i e₁ es hevents
          obtain rfl := Option.some.inj hs
          refine ⟨⟨hq.mem, ?_, hq.due, hq.old⟩, Finset.disjoint_left.mpr fun id hid hin => ?_⟩
          · refine locked_false.mpr fun j b hb hin => ?_
            rcases mem_setBatch.mp hb with ⟨-, rfl⟩ | ⟨-, hb⟩
            · obtain ⟨r, hr, heq⟩ := List.mem_map.mp hin
              have hr' := hevents ▸ hr
              exact hmem (List.inj_on_of_nodup_map h.keyed (mem_getUnprocessed hr').1 hq.mem heq ▸
                hr')
            · exact locked_false.mp hq.free j b hb hin
          · obtain ⟨r, -, -, hfree, rfl⟩ := mem_waiting.mp hid
            rw [hevents, List.mem_toFinset] at hin
            exact locked_false.mp hfree i _ (mem_setBatch.mpr (Or.inl ⟨rfl, rfl⟩)) hin
      refine Or.inr ⟨htaken.1, ?_⟩
      rw [← hcard, ← Finset.card_union_of_disjoint htaken.2]
      exact Finset.card_le_card (Finset.union_subset hsub hids)

/-- A row stays in the queue, and in its place, until a batch takes it. -/
theorem Queued.step (h : s.Sound env config) (hclean : s.Clean) (hq : s.Queued e)
    {l : RelayLabel ι} (hl : s.Calm l) (hs : s.step env config l = some s') :
    s'.Held e ∨ s'.Queued e ∧
      (s'.waiting e).card + l.claims * config.batchSize ≤ (s.waiting e).card := by
  have hcard : (s'.waiting e).card ≤ (s.waiting e).card :=
    Finset.card_le_card (waiting_step h hclean hq.old hl hs)
  obtain ⟨-, -, hclock⟩ := step_grows hs
  obtain ⟨hopen, hlive, hnext⟩ := due_iff.mp hq.due
  have hdue : OutboxRepository.due s'.clock e = true :=
    due_iff.mpr ⟨hopen, hlive, fun t ht => (hnext t ht).trans hclock⟩
  have hold : e.createdAt < s'.clock := hq.old.trans_le hclock
  -- the row is where it was, and free
  have hstays : e ∈ s'.rows → s'.locked e.id = false → l.claims = 0 → s'.Held e ∨ s'.Queued e ∧
      (s'.waiting e).card + l.claims * config.batchSize ≤ (s.waiting e).card := by
    intro hmem hfree hclaims
    rw [hclaims, Nat.zero_mul]
    exact Or.inr ⟨⟨hmem, hfree, hdue, hold⟩, hcard⟩
  cases l with
  | claim i =>
      rw [RelayLabel.claims, Nat.one_mul]
      exact hq.claim h hclean hs
  | advance i outcome =>
      obtain ⟨b, hb, rfl⟩ := Option.map_eq_some_iff.mp hs
      have hother := locked_false.mp hq.free i b hb
      rcases advance_spec config s i b outcome with ⟨htodo, heq⟩ | ⟨b', effects, heq, hevents, -⟩
      · rw [heq] at hstays ⊢
        refine hstays (List.mem_map.mpr ⟨e, hq.mem, ?_⟩) ?_ rfl
        · rcases h.flush_clean hb hclean htodo hq.mem with ⟨-, hsame⟩ | ⟨hmem, -⟩
          · exact hsame
          · exact absurd (List.mem_map_of_mem hmem) hother
        · exact locked_false.mpr fun j b₁ hb₁ =>
            locked_false.mp hq.free j b₁ (mem_endBatch hb₁).2
      · rw [heq] at hstays ⊢
        exact hstays hq.mem ((locked_setBatch hb hevents _).trans hq.free) rfl
  | crash i => exact hl.elim
  | insert events =>
      obtain rfl := Option.some.inj hs
      exact hstays (List.mem_append_left _ hq.mem) hq.free rfl
  | replay ids =>
      obtain rfl := Option.some.inj hs
      refine hstays (List.mem_map.mpr ⟨e, hq.mem, if_neg ?_⟩) hq.free rfl
      rw [replays, hlive]
      simp
  | prune before =>
      obtain rfl := Option.some.inj hs
      refine hstays (List.mem_filter.mpr ⟨hq.mem, ?_⟩) hq.free rfl
      rw [processedBefore, hopen]
      rfl
  | tick d =>
      obtain rfl := Option.some.inj hs
      exact hstays hq.mem hq.free rfl
  | draw n =>
      obtain rfl := Option.some.inj hs
      exact hstays hq.mem hq.free rfl

/-- **A batch that holds a row delivers it**, when it commits. -/
theorem Held.step (h : s.Sound env config) (hclean : s.Clean) (hh : s.Held e) {l : RelayLabel ι}
    (hl : s.Calm l) (hs : s.step env config l = some s') : s'.Held e ∨ s'.Delivered e.id := by
  obtain ⟨j, b, hb, he⟩ := hh
  cases l with
  | claim i =>
      rw [Relay.step] at hs
      split at hs
      · cases hs
      · rename_i hi
        split at hs
        · obtain rfl := Option.some.inj hs
          exact Or.inl ⟨j, b, hb, he⟩
        · obtain rfl := Option.some.inj hs
          refine Or.inl ⟨j, b, mem_setBatch.mpr (Or.inr ⟨?_, hb⟩), he⟩
          rintro rfl
          rw [hi] at hb
          cases hb
  | advance i outcome =>
      obtain ⟨b₁, hb₁, rfl⟩ := Option.map_eq_some_iff.mp hs
      rcases advance_spec config s i b₁ outcome with ⟨htodo, heq⟩ | ⟨b', effects, heq, hevents, -⟩
      · rw [heq]
        by_cases hj : j = i
        · subst hj
          obtain rfl := Option.some.inj (hb₁.symm.trans hb)
          have hpub : e ∈ b₁.published := by
            refine Batch.mem_published.mpr ⟨he, ?_⟩
            rw [Batch.failedIds, hclean j b₁ hb₁]
            exact List.not_mem_nil
          have hstage := (h.batches j b₁ hb₁).stage
          rw [Batch.Stage, htodo] at hstage
          refine Or.inr ⟨hstage.1 e hpub, List.mem_append_left _ ?_⟩
          exact List.mem_append_right _ (List.mem_map_of_mem hpub)
        · refine Or.inl ⟨j, b, ?_, he⟩
          simpa [Relay.endBatch, hj] using hb
      · rw [heq]
        by_cases hj : j = i
        · subst hj
          obtain rfl := Option.some.inj (hb₁.symm.trans hb)
          exact Or.inl ⟨j, b', mem_setBatch.mpr (Or.inl ⟨rfl, rfl⟩), hevents ▸ he⟩
        · exact Or.inl ⟨j, b, mem_setBatch.mpr (Or.inr ⟨hj, hb⟩), he⟩
  | crash i => exact hl.elim
  | insert events =>
      obtain rfl := Option.some.inj hs
      exact Or.inl ⟨j, b, hb, he⟩
  | replay ids =>
      obtain rfl := Option.some.inj hs
      exact Or.inl ⟨j, b, hb, he⟩
  | prune before =>
      obtain rfl := Option.some.inj hs
      exact Or.inl ⟨j, b, hb, he⟩
  | tick d =>
      obtain rfl := Option.some.inj hs
      exact Or.inl ⟨j, b, hb, he⟩
  | draw n =>
      obtain rfl := Option.some.inj hs
      exact Or.inl ⟨j, b, hb, he⟩

/-- **A calm run** that begins so many batches. -/
inductive CalmRun (env : Env) (config : WorkerConfig) (s : Relay ι) : ℕ → Relay ι → Prop
  | refl : CalmRun env config s 0 s
  | step {n : ℕ} {s₁ s₂ : Relay ι} {l : RelayLabel ι} (h : CalmRun env config s n s₁)
      (hl : s₁.Calm l) (hs : s₁.step env config l = some s₂) :
      CalmRun env config s (n + l.claims) s₂

/-- What a calm run does to a row that was in the queue, or in a batch, when it began. -/
theorem CalmRun.progress (h : s.Sound env config) (hclean : s.Clean)
    (hstart : s.Held e ∨ s.Queued e) {n : ℕ} (hrun : CalmRun env config s n s') :
    s'.Sound env config ∧ s'.Clean ∧ (s'.Delivered e.id ∨ s'.Held e ∨ s'.Queued e ∧
      (s'.waiting e).card + n * config.batchSize ≤ (s.waiting e).card) := by
  induction hrun with
  | refl =>
      refine ⟨h, hclean, Or.inr (hstart.imp_right fun hq => ⟨hq, ?_⟩)⟩
      rw [Nat.zero_mul, Nat.add_zero]
  | @step n s₁ s₂ l _ hl hs ih =>
      obtain ⟨hsound, hclean, hcases⟩ := ih
      refine ⟨hsound.step hs, hclean.step hl hs, ?_⟩
      rcases hcases with hd | hheld | ⟨hq, hcard⟩
      · exact Or.inl (hd.step hs)
      · exact (hheld.step hsound hclean hl hs).elim (fun hh => Or.inr (Or.inl hh)) Or.inl
      · refine Or.inr ((hq.step hsound hclean hl hs).imp_right fun hnext => ⟨hnext.1, ?_⟩)
        have hle := hnext.2
        rw [Nat.add_mul]
        omega

/-- Some steps after a calm run. -/
theorem CalmRun.append {s₀ : Relay ι} {n : ℕ} (h : CalmRun env config s₀ n s)
    {ls : List (RelayLabel ι)} (hcalm : ∀ l ∈ ls, accepts l = true)
    (hr : s.run env config ls = some s') :
    CalmRun env config s₀ (n + (ls.map RelayLabel.claims).sum) s' := by
  induction ls generalizing s n with
  | nil =>
      obtain rfl := Option.some.inj hr
      exact h
  | cons l ls ih =>
      obtain ⟨s₁, hs, hr⟩ := Option.bind_eq_some_iff.mp hr
      have hl : s.Calm l := calm_of_accepts (hcalm l List.mem_cons_self)
      rw [List.map_cons, List.sum_cons, ← Nat.add_assoc]
      exact ih (h.step hl hs) (fun l' hl' => hcalm l' (List.mem_cons_of_mem _ hl')) hr

end Relay

/-! ### Delivery -/

section Results

variable [Fintype ι] [DecidableEq ι] {C : Relay ι → RelayLabel ι → Prop} {s s' : Relay ι}

/-- **A row that is due is delivered.** Take any reachable state in which no open batch has met a
failure, and a row there that is due and older than the present. However many rows come in, are put
back or are pruned from then on, and however the batches of the workers interleave: when no batch
has crashed, the broker has accepted what it was handed, and more batches have begun than it takes
to claim the rows before it, then the broker has accepted the event and its row is marked
processed, as soon as no batch is open. -/
theorem due_row_delivered (h : Relay.Reach env config C {} s) (hclean : s.Clean) {e : OutboxEvent}
    (he : e ∈ s.rows) (hdue : due s.clock e = true) (hold : e.createdAt < s.clock) {n : ℕ}
    (hrun : Relay.CalmRun env config s n s')
    (hclaims : (s.ahead e).length < n * config.batchSize) (hidle : ∀ i, s'.batches i = none) :
    s'.Delivered e.id := by
  have hsound := Relay.reach_sound h
  have hstart : s.Held e ∨ s.Queued e := by
    cases hlocked : s.locked e.id with
    | false => exact Or.inr ⟨he, hlocked, hdue, hold⟩
    | true =>
        obtain ⟨i, b, hb, hid⟩ := Relay.locked_iff.mp hlocked
        obtain ⟨e', he', hid⟩ := List.mem_map.mp hid
        obtain rfl : e' = e :=
          List.inj_on_of_nodup_map hsound.keyed ((hsound.batches i b hb).claimed e' he').1 he hid
        exact Or.inl ⟨i, b, hb, he'⟩
  obtain ⟨-, -, hd | ⟨i, b, hb, -⟩ | ⟨-, hcard⟩⟩ := hrun.progress hsound hclean hstart
  · exact hd
  · rw [hidle i] at hb
    cases hb
  · have hle := s.card_waiting_le e
    omega

end Results

/-- The steps of two workers that each see to one event at a time. -/
def twoBatches : List (RelayLabel (Fin 2)) :=
  .claim 0 :: .claim 1 :: (List.replicate 6 [.advance 0 (.ok ()), .advance 1 (.ok ())]).flatten

/-- Of two requests for a password reset, the later one is delivered by the second batch. -/
theorem second_request_delivered : ∃ s s' : Relay (Fin 2), ∃ e ∈ s.rows,
    (s.ahead e).length = 1 ∧ s.run Reference.env ⟨false, 1⟩ twoBatches = some s' ∧
      s'.Delivered e.id := by
  obtain ⟨s, hs, hnone, e, he, hdue, hold, hone, s', hs', hidle⟩ : ∃ s : Relay (Fin 2),
      Relay.run Reference.env ⟨false, 1⟩ {} [.insert [resetRequest "first"], .tick 1,
        .insert [resetRequest "second"], .tick 1] = some s ∧ (∀ i, s.batches i = none) ∧
      ∃ e ∈ s.rows, due s.clock e = true ∧ e.createdAt < s.clock ∧ (s.ahead e).length = 1 ∧
        ∃ s', s.run Reference.env ⟨false, 1⟩ twoBatches = some s' ∧
          ∀ i, s'.batches i = none := by
    decide +kernel
  have hclean : s.Clean := fun i b hb => by
    rw [hnone i] at hb
    cases hb
  have hrun : Relay.CalmRun Reference.env ⟨false, 1⟩ s 2 s' :=
    Relay.CalmRun.append .refl (by decide) hs'
  refine ⟨s, s', e, he, hone, hs', ?_⟩
  refine due_row_delivered (Relay.reach_of_run hs) hclean he hdue hold hrun ?_ hidle
  rw [hone]
  exact Nat.lt_succ_self 1

end BackendTemplate
