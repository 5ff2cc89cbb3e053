import BackendTemplate.Relational

/-!
# Schema Changes

A list of statements is a transaction. It keeps the rows fitting the schema, so a database that is
only changed by transactions, and by writes that keep it, satisfies its schema at any time.

What a transaction leaves alone is said column by column (`Touches`), which is also how one is seen
to undo another. Whether the rows allow a statement is said by `Passes`; a transaction none of whose
statements disturbs what a later one looks at goes through exactly if all of them pass at once.

## Main results

* `fits_executeAll` — the rows fit the schema after every transaction.
* `column_executeAll` — a column that no statement touches stays as it is.
* `executeAll_isSome_iff` — when a transaction goes through.
-/

namespace Relational

variable {τ κ ν T D V : Type} [DecidableEq τ] [DecidableEq κ]

/-! ### Transactions -/

namespace Database

variable [DecidableEq ν] [DecidableEq T] [DecidableEq D] [DecidableEq V] {vals : Values T D V}
  {db db' db'' : Database τ κ ν T D V} {st : Ddl τ κ ν T D} {sts sts' : List (Ddl τ κ ν T D)}

/-- The schema goes its own way. -/
theorem execute_eq_some :
    db.execute vals st = some db' ↔
      db.schema.apply st = some db'.schema ∧ db.data.apply vals st = some db'.data := by
  simp only [execute, Option.bind_eq_bind, Option.bind_eq_some_iff, Option.some.injEq]
  constructor
  · rintro ⟨S, hS, D, hD, rfl⟩
    exact ⟨hS, hD⟩
  · exact fun ⟨hS, hD⟩ => ⟨_, hS, _, hD, rfl⟩

@[simp] theorem executeAll_nil : db.executeAll vals [] = some db := rfl

theorem executeAll_cons :
    db.executeAll vals (st :: sts) = db.execute vals st >>= fun db' => db'.executeAll vals sts := rfl

theorem executeAll_cons_eq_some :
    db.executeAll vals (st :: sts) = some db' ↔
      ∃ db₁, db.execute vals st = some db₁ ∧ db₁.executeAll vals sts = some db' := by
  rw [executeAll_cons]
  exact Option.bind_eq_some_iff

/-- Transactions compose. -/
theorem executeAll_append :
    db.executeAll vals (sts ++ sts') =
      (db.executeAll vals sts).bind fun db' => db'.executeAll vals sts' := by
  rw [executeAll, List.foldlM_append]
  rfl

theorem executeAll_append_eq_some :
    db.executeAll vals (sts ++ sts') = some db'' ↔
      ∃ db', db.executeAll vals sts = some db' ∧ db'.executeAll vals sts' = some db'' := by
  rw [executeAll_append]
  exact Option.bind_eq_some_iff

/-- A transaction takes the schema where its statements take it. -/
theorem executeAll_schema (h : db.executeAll vals sts = some db') :
    db.schema.applyAll sts = some db'.schema := by
  induction sts generalizing db with
  | nil =>
      obtain rfl := Option.some.inj h
      rfl
  | cons st sts ih =>
      obtain ⟨db₁, h₁, h₂⟩ := executeAll_cons_eq_some.mp h
      exact Option.bind_eq_some_iff.mpr ⟨db₁.schema, (execute_eq_some.mp h₁).1, ih h₂⟩

/-- **A statement keeps the rows fitting the schema.** -/
theorem fits_execute (h : Fits vals db.schema db.data) (hst : st.Sound vals)
    (he : db.execute vals st = some db') : Fits vals db'.schema db'.data := by
  obtain ⟨S', data'⟩ := db'
  obtain ⟨hS, hD⟩ := execute_eq_some.mp he
  simp only at hS hD ⊢
  cases st with
  | createTable t columns keys =>
      simp only [Schema.apply, Option.ite_none_right_eq_some, Option.some.injEq] at hS
      obtain ⟨⟨ht, hcolumns, -, hkeys⟩, rfl⟩ := hS
      obtain rfl := Option.some.inj hD
      exact h.withTable ht hcolumns hkeys
  | dropTable t =>
      simp only [Schema.apply, Option.ite_none_right_eq_some, Option.some.injEq] at hS
      obtain ⟨⟨-, hfks⟩, rfl⟩ := hS
      obtain rfl := Option.some.inj hD
      exact h.withoutTable hfks
  | addColumn c =>
      simp only [Schema.apply, Option.ite_none_right_eq_some, Option.some.injEq] at hS
      simp only [Data.apply, Option.ite_none_right_eq_some, Option.some.injEq] at hD
      obtain ⟨⟨htable, hnew⟩, rfl⟩ := hS
      obtain ⟨hrows, rfl⟩ := hD
      exact h.addColumn hnew hrows hst
  | dropColumn t k =>
      simp only [Schema.apply, Option.ite_none_right_eq_some, Option.some.injEq] at hS
      obtain ⟨⟨-, href⟩, rfl⟩ := hS
      obtain rfl := Option.some.inj hD
      exact h.dropColumn href
  | alterType t k type expr =>
      simp only [Schema.apply, Option.ite_none_right_eq_some, Option.some.injEq] at hS
      simp only [Data.apply, Option.ite_none_right_eq_some, Option.some.injEq] at hD
      obtain ⟨⟨-, href, hfree⟩, rfl⟩ := hS
      obtain ⟨hrows, rfl⟩ := hD
      exact h.alterType hfree href hrows hst
  | setNull t k =>
      simp only [Schema.apply, Option.ite_none_right_eq_some, Option.some.injEq] at hS
      obtain ⟨⟨hhas, href, hnull⟩, rfl⟩ := hS
      obtain rfl := Option.some.inj hD
      exact h.setNull hhas href hnull
  | createForeignKey fk =>
      simp only [Schema.apply, Option.ite_none_right_eq_some, Option.some.injEq] at hS
      simp only [Data.apply, Option.ite_none_right_eq_some, Option.some.injEq] at hD
      obtain ⟨⟨-, hcolumns, hkey⟩, rfl⟩ := hS
      obtain ⟨hrows, rfl⟩ := hD
      exact h.createForeignKey hrows hcolumns hkey
  | dropForeignKey t name =>
      simp only [Schema.apply, Option.ite_none_right_eq_some, Option.some.injEq] at hS
      obtain ⟨-, rfl⟩ := hS
      obtain rfl := Option.some.inj hD
      exact h.mono rfl rfl subset_rfl (Finset.filter_subset _ _) subset_rfl
  | createIndex ix =>
      simp only [Schema.apply, Option.ite_none_right_eq_some, Option.some.injEq] at hS
      simp only [Data.apply, Option.ite_none_right_eq_some, Option.some.injEq] at hD
      obtain ⟨⟨-, hcolumns⟩, rfl⟩ := hS
      obtain ⟨hrows, rfl⟩ := hD
      exact h.createIndex hrows hcolumns
  | dropIndex name =>
      simp only [Schema.apply, Option.ite_none_right_eq_some, Option.some.injEq] at hS
      obtain ⟨-, rfl⟩ := hS
      obtain rfl := Option.some.inj hD
      exact h.mono rfl rfl subset_rfl subset_rfl (Finset.filter_subset _ _)

/-- **A transaction keeps the rows fitting the schema.** -/
theorem fits_executeAll (h : Fits vals db.schema db.data) (hsts : ∀ st ∈ sts, st.Sound vals)
    (he : db.executeAll vals sts = some db') : Fits vals db'.schema db'.data := by
  induction sts generalizing db with
  | nil =>
      obtain rfl := Option.some.inj he
      exact h
  | cons st sts ih =>
      obtain ⟨db₁, h₁, h₂⟩ := executeAll_cons_eq_some.mp he
      exact ih (fits_execute h (hsts st List.mem_cons_self) h₁)
        (fun st' hst' => hsts st' (List.mem_cons_of_mem st hst')) h₂

end Database

/-! ### What a transaction leaves alone -/

namespace Ddl

/-- The statement does away with the table. -/
def Drops (t : τ) : Ddl τ κ ν T D → Prop
  | .dropTable t' => t' = t
  | .createTable _ _ _ | .addColumn _ | .dropColumn _ _ | .alterType _ _ _ _ | .setNull _ _ => False
  | .createForeignKey _ | .dropForeignKey _ _ | .createIndex _ | .dropIndex _ => False

/-- The statement may change what the rows of the table hold under the column name. -/
def Touches (t : τ) (k : κ) : Ddl τ κ ν T D → Prop
  | .dropTable t' => t' = t
  | .addColumn c => c.table = t ∧ c.name = k
  | .dropColumn t' k' | .alterType t' k' _ _ | .setNull t' k' => t' = t ∧ k' = k
  | .createTable _ _ _ | .createForeignKey _ | .dropForeignKey _ _ => False
  | .createIndex _ | .dropIndex _ => False

/-- The statement leaves nothing under the column name. -/
def Empties (t : τ) (k : κ) : Ddl τ κ ν T D → Prop
  | .addColumn c => c.table = t ∧ c.name = k ∧ c.default = none
  | .dropColumn t' k' | .setNull t' k' => t' = t ∧ k' = k
  | .createTable _ _ _ | .dropTable _ | .alterType _ _ _ _ => False
  | .createForeignKey _ | .dropForeignKey _ _ | .createIndex _ | .dropIndex _ => False

/-- A statement empties the column, and none after it touches it. -/
def LeavesEmpty (t : τ) (k : κ) : List (Ddl τ κ ν T D) → Prop
  | [] => False
  | st :: sts => LeavesEmpty t k sts ∨ st.Empties t k ∧ ∀ st' ∈ sts, ¬ st'.Touches t k

instance (t : τ) : DecidablePred (Drops (κ := κ) (ν := ν) (T := T) (D := D) t) :=
  fun st => by cases st <;> unfold Drops <;> infer_instance

instance (t : τ) (k : κ) : DecidablePred (Touches (ν := ν) (T := T) (D := D) t k) :=
  fun st => by cases st <;> unfold Touches <;> infer_instance

instance [DecidableEq D] (t : τ) (k : κ) :
    DecidablePred (Empties (ν := ν) (T := T) (D := D) t k) :=
  fun st => by cases st <;> unfold Empties <;> infer_instance

instance [DecidableEq D] (t : τ) (k : κ) :
    DecidablePred (LeavesEmpty (ν := ν) (T := T) (D := D) t k) :=
  fun sts => by
    induction sts with
    | nil => exact inferInstanceAs (Decidable False)
    | cons st sts ih => exact inferInstanceAs (Decidable (_ ∨ _))

end Ddl

theorem Schema.applyAll_append [DecidableEq ν] [DecidableEq T] [DecidableEq D]
    {S : Schema τ κ ν T D} {sts sts' : List (Ddl τ κ ν T D)} :
    S.applyAll (sts ++ sts') = (S.applyAll sts).bind fun S' => S'.applyAll sts' := by
  rw [Schema.applyAll, List.foldlM_append]
  rfl

/-- A column that a statement does not touch is still there. -/
theorem Schema.Has.apply [DecidableEq ν] [DecidableEq T] [DecidableEq D] {S S' : Schema τ κ ν T D}
    {t : τ} {k : κ} {st : Ddl τ κ ν T D} (hhas : S.Has t k) (h : S.apply st = some S')
    (hno : ¬ st.Touches t k) : S'.Has t k := by
  obtain ⟨c, hc, rfl, rfl⟩ := hhas
  cases st with
  | createTable t' columns keys =>
      simp only [Schema.apply, Option.ite_none_right_eq_some, Option.some.injEq] at h
      obtain ⟨-, rfl⟩ := h
      exact ⟨c, Finset.mem_union_left _ hc, rfl, rfl⟩
  | dropTable t' =>
      simp only [Schema.apply, Option.ite_none_right_eq_some, Option.some.injEq] at h
      obtain ⟨-, rfl⟩ := h
      exact ⟨c, Finset.mem_filter.mpr ⟨hc, fun heq => hno heq.symm⟩, rfl, rfl⟩
  | addColumn c' =>
      simp only [Schema.apply, Option.ite_none_right_eq_some, Option.some.injEq] at h
      obtain ⟨-, rfl⟩ := h
      exact ⟨c, Finset.mem_insert_of_mem hc, rfl, rfl⟩
  | dropColumn t' k' =>
      simp only [Schema.apply, Option.ite_none_right_eq_some, Option.some.injEq] at h
      obtain ⟨-, rfl⟩ := h
      exact ⟨c, Finset.mem_filter.mpr ⟨hc, fun heq => hno ⟨heq.1.symm, heq.2.symm⟩⟩, rfl, rfl⟩
  | alterType t' k' type expr =>
      simp only [Schema.apply, Option.ite_none_right_eq_some, Option.some.injEq] at h
      obtain ⟨-, rfl⟩ := h
      refine ⟨_, Finset.mem_image_of_mem _ hc, ?_⟩
      rw [if_neg fun heq => hno ⟨heq.1.symm, heq.2.symm⟩]
      exact ⟨rfl, rfl⟩
  | setNull t' k' =>
      simp only [Schema.apply, Option.ite_none_right_eq_some, Option.some.injEq] at h
      obtain ⟨-, rfl⟩ := h
      exact ⟨c, hc, rfl, rfl⟩
  | createForeignKey fk | createIndex ix =>
      simp only [Schema.apply, Option.ite_none_right_eq_some, Option.some.injEq] at h
      obtain ⟨-, rfl⟩ := h
      exact ⟨c, hc, rfl, rfl⟩
  | dropForeignKey t' name | dropIndex name =>
      simp only [Schema.apply, Option.ite_none_right_eq_some, Option.some.injEq] at h
      obtain ⟨-, rfl⟩ := h
      exact ⟨c, hc, rfl, rfl⟩

theorem Schema.Has.applyAll [DecidableEq ν] [DecidableEq T] [DecidableEq D] {S S' : Schema τ κ ν T D}
    {t : τ} {k : κ} {sts : List (Ddl τ κ ν T D)} (hhas : S.Has t k) (h : S.applyAll sts = some S')
    (hno : ∀ st ∈ sts, ¬ st.Touches t k) : S'.Has t k := by
  induction sts generalizing S with
  | nil =>
      obtain rfl := Option.some.inj h
      exact hhas
  | cons st sts ih =>
      obtain ⟨S₁, h₁, h₂⟩ := Option.bind_eq_some_iff.mp h
      exact ih (hhas.apply h₁ (hno st List.mem_cons_self)) h₂
        fun st' hst' => hno st' (List.mem_cons_of_mem st hst')

section Frame

variable {data data' : Data τ κ V} {t t' : τ} {k k' : κ} {f : Option V → Option V}

omit [DecidableEq τ] [DecidableEq κ] in
/-- Under a schema without the column it is empty. -/
theorem column_of_not_has {vals : Values T D V} {S : Schema τ κ ν T D} (h : Fits vals S data) (h' : Fits vals S data')
    (hno : ¬ S.Has t k) (hlength : (data' t).length = (data t).length) :
    data'.column t k = data.column t k := by
  have hnone : ∀ {data : Data τ κ V}, Fits vals S data →
      data.column t k = List.replicate (data t).length none := by
    intro data h
    refine List.eq_replicate_iff.mpr ⟨List.length_map .., fun v hv => ?_⟩
    obtain ⟨r, hr, rfl⟩ := List.mem_map.mp hv
    exact h.columns t r hr k hno
  rw [hnone h, hnone h', hlength]

/-- The cells of the other columns are as they were. -/
theorem column_setColumn_of_ne (h : ¬ (t' = t ∧ k' = k)) :
    (data.setColumn t k f).column t' k' = data.column t' k' := by
  rw [Data.column, setColumn_apply, List.map_map]
  exact List.map_congr_left fun r _ => replaced_of_ne h

theorem column_setColumn_self :
    (data.setColumn t k f).column t k = (data.column t k).map f := by
  rw [Data.column, setColumn_apply, List.map_map, Data.column, List.map_map]
  exact List.map_congr_left fun r _ => if_pos ⟨rfl, rfl⟩

theorem length_setColumn : ((data.setColumn t k f) t').length = (data t').length := by
  rw [setColumn_apply, List.length_map]

variable [DecidableEq V] {vals : Values T D V} {st : Ddl τ κ ν T D}

/-- **A column that a statement does not touch stays as it is.** -/
theorem column_apply (h : data.apply vals st = some data') (hno : ¬ st.Touches t k) :
    data'.column t k = data.column t k := by
  cases st with
  | createTable t' columns keys => rw [Option.some.inj h]
  | dropTable t' =>
      obtain rfl := Option.some.inj h
      rw [Data.column, Function.update_of_ne (Ne.symm hno), Data.column]
  | addColumn c =>
      simp only [Data.apply, Option.ite_none_right_eq_some, Option.some.injEq] at h
      obtain ⟨-, rfl⟩ := h
      exact column_setColumn_of_ne fun heq => hno ⟨heq.1.symm, heq.2.symm⟩
  | dropColumn t' k' =>
      obtain rfl := Option.some.inj h
      exact column_setColumn_of_ne fun heq => hno ⟨heq.1.symm, heq.2.symm⟩
  | alterType t' k' type expr =>
      simp only [Data.apply, Option.ite_none_right_eq_some, Option.some.injEq] at h
      obtain ⟨-, rfl⟩ := h
      exact column_setColumn_of_ne fun heq => hno ⟨heq.1.symm, heq.2.symm⟩
  | setNull t' k' =>
      obtain rfl := Option.some.inj h
      exact column_setColumn_of_ne fun heq => hno ⟨heq.1.symm, heq.2.symm⟩
  | createForeignKey fk | createIndex ix =>
      simp only [Data.apply, Option.ite_none_right_eq_some, Option.some.injEq] at h
      rw [h.2]
  | dropForeignKey t' name | dropIndex name => rw [Option.some.inj h]

/-- No row comes or goes while a table is there. -/
theorem length_apply (h : data.apply vals st = some data') (hno : ¬ st.Drops t) :
    (data' t).length = (data t).length := by
  cases st with
  | createTable t' columns keys => rw [Option.some.inj h]
  | dropTable t' =>
      obtain rfl := Option.some.inj h
      rw [Function.update_of_ne (Ne.symm hno)]
  | addColumn c =>
      simp only [Data.apply, Option.ite_none_right_eq_some, Option.some.injEq] at h
      obtain ⟨-, rfl⟩ := h
      exact length_setColumn
  | dropColumn t' k' =>
      obtain rfl := Option.some.inj h
      exact length_setColumn
  | alterType t' k' type expr =>
      simp only [Data.apply, Option.ite_none_right_eq_some, Option.some.injEq] at h
      obtain ⟨-, rfl⟩ := h
      exact length_setColumn
  | setNull t' k' =>
      obtain rfl := Option.some.inj h
      exact length_setColumn
  | createForeignKey fk | createIndex ix =>
      simp only [Data.apply, Option.ite_none_right_eq_some, Option.some.injEq] at h
      rw [h.2]
  | dropForeignKey t' name | dropIndex name => rw [Option.some.inj h]

/-- What empties a column leaves nothing in it. -/
theorem cells_empties (h : data.apply vals st = some data') (hst : st.Empties t k) :
    ∀ r ∈ data' t, r k = none := by
  intro r hr
  cases st with
  | addColumn c =>
      obtain ⟨rfl, rfl, hdefault⟩ := hst
      simp only [Data.apply, Option.ite_none_right_eq_some, Option.some.injEq] at h
      rw [← h.2] at hr
      obtain ⟨r₀, -, rfl⟩ := mem_setColumn.mp hr
      rw [replaced, if_pos ⟨rfl, rfl⟩, hdefault]
      rfl
  | dropColumn t' k' | setNull t' k' =>
      obtain ⟨rfl, rfl⟩ := hst
      rw [← Option.some.inj h] at hr
      obtain ⟨r₀, -, rfl⟩ := mem_setColumn.mp hr
      exact if_pos ⟨rfl, rfl⟩
  | _ => exact absurd hst id

variable [DecidableEq ν] [DecidableEq T] [DecidableEq D] {db db' : Database τ κ ν T D V}
  {sts sts' : List (Ddl τ κ ν T D)}

/-- **A column that no statement touches stays as it is.** -/
theorem column_executeAll (h : db.executeAll vals sts = some db')
    (hno : ∀ st ∈ sts, ¬ st.Touches t k) : db'.data.column t k = db.data.column t k := by
  induction sts generalizing db with
  | nil =>
      obtain rfl := Option.some.inj h
      rfl
  | cons st sts ih =>
      obtain ⟨db₁, h₁, h₂⟩ := Database.executeAll_cons_eq_some.mp h
      rw [ih h₂ fun st' hst' => hno st' (List.mem_cons_of_mem st hst')]
      exact column_apply (Database.execute_eq_some.mp h₁).2 (hno st List.mem_cons_self)

/-- What holds of the cells of a column once holds of them while nothing touches it. -/
theorem cells_executeAll {P : Option V → Prop} (h : db.executeAll vals sts = some db')
    (hno : ∀ st ∈ sts, ¬ st.Touches t k) (hP : ∀ r ∈ db.data t, P (r k)) :
    ∀ r ∈ db'.data t, P (r k) := by
  intro r hr
  have hmem : r k ∈ db'.data.column t k := List.mem_map_of_mem hr
  rw [column_executeAll h hno] at hmem
  obtain ⟨r₀, hr₀, heq⟩ := List.mem_map.mp hmem
  rw [← heq]
  exact hP r₀ hr₀

/-- **A column that was emptied stays empty** until a statement touches it. -/
theorem cells_leavesEmpty (h : db.executeAll vals sts = some db') (hsts : Ddl.LeavesEmpty t k sts) :
    ∀ r ∈ db'.data t, r k = none := by
  induction sts generalizing db with
  | nil => exact absurd hsts id
  | cons st sts ih =>
      obtain ⟨db₁, h₁, h₂⟩ := Database.executeAll_cons_eq_some.mp h
      rcases hsts with hsts | ⟨hst, hno⟩
      · exact ih h₂ hsts
      · refine cells_executeAll (P := fun v => v = none) h₂ hno ?_
        exact cells_empties (Database.execute_eq_some.mp h₁).2 hst

/-- A column is converted once. -/
theorem column_alterType {type : T} {expr : D}
    (h : db.executeAll vals (sts ++ .alterType t k type expr :: sts') = some db')
    (hno : ∀ st ∈ sts, ¬ st.Touches t k) (hno' : ∀ st ∈ sts', ¬ st.Touches t k) :
    db'.data.column t k = (db.data.column t k).map fun v => v.bind (vals.convert expr) := by
  obtain ⟨db₁, h₁, h₂⟩ := Database.executeAll_append_eq_some.mp h
  obtain ⟨db₂, h₂, h₃⟩ := Database.executeAll_cons_eq_some.mp h₂
  have hconvert := (Database.execute_eq_some.mp h₂).2
  simp only [Data.apply, Option.ite_none_right_eq_some, Option.some.injEq] at hconvert
  rw [column_executeAll h₃ hno', ← hconvert.2, column_setColumn_self, column_executeAll h₁ hno]

end Frame

/-! ### When a transaction goes through -/

namespace Ddl

/-- The rows allow the statement. -/
def Passes (vals : Values T D V) (data : Data τ κ V) : Ddl τ κ ν T D → Prop
  | .addColumn c => c.nullable = true ∨ c.default.isSome = true ∨ data c.table = []
  | .alterType t k _ expr => ∀ r ∈ data t, ∀ v ∈ r k, (vals.convert expr v).isSome = true
  | .createForeignKey fk => fk.Holds data
  | .createIndex ix =>
      ix.unique = true → ix.condition = none → UniqueOn ix.columns (data ix.table)
  | .createTable _ _ _ | .dropTable _ | .dropColumn _ _ | .setNull _ _ => True
  | .dropForeignKey _ _ | .dropIndex _ => True

/-- The statement disturbs what another one looks at. -/
def Disturbs (st : Ddl τ κ ν T D) : Ddl τ κ ν T D → Prop
  | .addColumn c => st.Drops c.table
  | .alterType t k _ _ => st.Touches t k
  | .createForeignKey fk =>
      (∃ k ∈ fk.columns, st.Touches fk.table k) ∨ (∃ k ∈ fk.refColumns, st.Touches fk.refTable k) ∨
        st.Drops fk.table ∨ st.Drops fk.refTable
  | .createIndex ix =>
      ix.unique = true ∧ ((∃ k ∈ ix.columns, st.Touches ix.table k) ∨ st.Drops ix.table)
  | .createTable _ _ _ | .dropTable _ | .dropColumn _ _ | .setNull _ _ => False
  | .dropForeignKey _ _ | .dropIndex _ => False

instance (st st' : Ddl τ κ ν T D) : Decidable (st.Disturbs st') := by
  cases st' <;> unfold Disturbs <;> infer_instance

end Ddl

section Passes

/-- What rows hold under some columns. -/
def project (ks : List κ) (rows : List (Row κ V)) : List (List (Option V)) :=
  rows.map fun r => ks.map r

variable {data data' : Data τ κ V} {t : τ} {ks : List κ}

omit [DecidableEq τ] [DecidableEq κ] in
theorem project_congr (hlength : (data' t).length = (data t).length)
    (h : ∀ k ∈ ks, data'.column t k = data.column t k) :
    project ks (data' t) = project ks (data t) := by
  refine List.ext_getElem (by rw [project, project, List.length_map, List.length_map, hlength])
    fun n h₁ h₂ => ?_
  simp only [project, List.getElem_map]
  refine List.map_congr_left fun k hk => ?_
  have hlt : n < (data'.column t k).length := by
    rwa [Data.column, List.length_map, ← List.length_map (fun r => ks.map r)]
  have hget := List.getElem_of_eq (h k hk) hlt
  simpa only [Data.column, List.getElem_map] using hget

omit [DecidableEq κ] in
theorem uniqueOn_iff {rows : List (Row κ V)} :
    UniqueOn ks rows ↔
      (project ks rows).Pairwise fun p p' => ¬ ((∀ v ∈ p, v ≠ none) ∧ p = p') := by
  rw [project, List.pairwise_map]
  simp only [UniqueOn, List.forall_mem_map, List.map_inj_left]

omit [DecidableEq τ] [DecidableEq κ] in
theorem holds_iff {fk : ForeignKey τ κ ν} :
    fk.Holds data ↔ ∀ p ∈ project fk.columns (data fk.table), (∀ v ∈ p, v ≠ none) →
      p ∈ project fk.refColumns (data fk.refTable) := by
  rw [project, List.forall_mem_map]
  refine forall₂_congr fun r _ => imp_congr ?_ ?_
  · rw [List.forall_mem_map]
  · rw [project, List.mem_map]
    exact exists_congr fun r' => and_congr_right fun _ => eq_comm

variable [DecidableEq V] {vals : Values T D V} {st st' : Ddl τ κ ν T D}

theorem apply_isSome_iff : (data.apply vals st).isSome = true ↔ st.Passes vals data := by
  cases st <;> simp [Data.apply, Ddl.Passes]

/-- **A statement that does not disturb another one has no say in whether it passes.** -/
theorem passes_iff (h : data.apply vals st = some data') (hno : ¬ st.Disturbs st') :
    st'.Passes vals data' ↔ st'.Passes vals data := by
  have hproject : ∀ t (ks : List κ), (¬ ∃ k ∈ ks, st.Touches t k) → ¬ st.Drops t →
      project ks (data' t) = project ks (data t) := fun t ks htouch hdrop =>
    project_congr (length_apply h hdrop) fun k hk =>
      column_apply h fun hk' => htouch ⟨k, hk, hk'⟩
  cases st' with
  | addColumn c =>
      have hlength := length_apply h hno
      simp only [Ddl.Passes, ← List.length_eq_zero_iff, hlength]
  | alterType t k type expr =>
      have hcolumn := column_apply h hno
      have hcells : ∀ data : Data τ κ V,
          (∀ r ∈ data t, ∀ v ∈ r k, (vals.convert expr v).isSome = true) ↔
            ∀ cell ∈ data.column t k, ∀ v ∈ cell, (vals.convert expr v).isSome = true := fun data => by
        simp only [Data.column, List.forall_mem_map]
      simp only [Ddl.Passes, hcells, hcolumn]
  | createForeignKey fk =>
      simp only [Ddl.Disturbs, not_or] at hno
      rw [Ddl.Passes, Ddl.Passes, holds_iff, holds_iff, hproject _ _ hno.1 hno.2.2.1,
        hproject _ _ hno.2.1 hno.2.2.2]
  | createIndex ix =>
      refine imp_congr_right fun hunique => imp_congr_right fun _ => ?_
      simp only [Ddl.Disturbs, hunique, true_and, not_or] at hno
      rw [uniqueOn_iff, uniqueOn_iff, hproject _ _ hno.1 hno.2]
  | createTable t columns keys | dropTable t | dropColumn t k | setNull t k => exact Iff.rfl
  | dropForeignKey t name | dropIndex name => exact Iff.rfl

variable [DecidableEq ν] [DecidableEq T] [DecidableEq D] {db : Database τ κ ν T D V}
  {sts : List (Ddl τ κ ν T D)}

/-- **When a transaction goes through** that the schema allows and in which nothing disturbs what
comes later: exactly if all of its statements pass on the rows as they are. -/
theorem executeAll_isSome_iff (hS : (db.schema.applyAll sts).isSome = true)
    (hsts : sts.Pairwise fun st st' => ¬ st.Disturbs st') :
    (db.executeAll vals sts).isSome = true ↔ ∀ st ∈ sts, st.Passes vals db.data := by
  induction sts generalizing db with
  | nil => simp [Database.executeAll]
  | cons st sts ih =>
      obtain ⟨hst, hsts⟩ := List.pairwise_cons.mp hsts
      obtain ⟨S, hS⟩ := Option.isSome_iff_exists.mp hS
      obtain ⟨S₁, hS₁, hS⟩ := Option.bind_eq_some_iff.mp hS
      rw [List.forall_mem_cons, ← apply_isSome_iff, Database.executeAll_cons]
      cases hdata : db.data.apply vals st with
      | none =>
          have hno : db.execute vals st = none := by
            simp [Database.execute, hS₁, hdata]
          rw [hno]
          simp
      | some data₁ =>
          have hex : db.execute vals st = some ⟨S₁, data₁⟩ :=
            Database.execute_eq_some.mpr ⟨hS₁, hdata⟩
          rw [hex]
          refine (@ih ⟨S₁, data₁⟩ (Option.isSome_iff_exists.mpr ⟨S, hS⟩) hsts).trans ?_
          simp only [Option.isSome_some, true_and]
          exact forall₂_congr fun st' hst' => passes_iff hdata (hst st' hst')

end Passes

end Relational
