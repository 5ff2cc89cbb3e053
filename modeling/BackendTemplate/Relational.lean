import Mathlib.Data.Finset.Image
import Mathlib.Logic.Function.Basic

/-!
# Relational Databases

A relational database is a schema and the rows under it: tables with typed columns, keys, foreign
keys and indexes, and rows that map column names to values, with `none` for `NULL`. A statement
changes the schema and takes the rows along. It fails where the schema does not allow it, or where
the rows do not; a list of statements is a transaction, in which the first failure undoes
everything.

`Fits` says that the rows satisfy everything the schema declares.

## Main results

* `Fits.setColumn` — replacing the cells of one column keeps the rows fitting.
* `Fits.withTable`, `Fits.addColumn`, `Fits.dropColumn`, … — each statement keeps them fitting.
-/

namespace Relational

/-! ### Schemas -/

/-- What becomes of a row that refers to a deleted one. -/
inductive OnDelete
  | cascade
  | setNull
deriving DecidableEq

/-- A column of a table. A default is an expression that the database evaluates. -/
structure Column (τ κ T D : Type) where
  table : τ
  name : κ
  type : T
  nullable : Bool
  default : Option D

-- Most columns differ in their names, so these are compared first.
instance {τ κ T D : Type} [DecidableEq τ] [DecidableEq κ] [DecidableEq T] [DecidableEq D] :
    DecidableEq (Column τ κ T D) := fun c c' =>
  decidable_of_iff (c.name = c'.name ∧ c.table = c'.table ∧ c.type = c'.type ∧
    c.nullable = c'.nullable ∧ c.default = c'.default) (by cases c; cases c'; simp; tauto)

/-- A primary key or a unique constraint. -/
structure Key (τ κ ν : Type) where
  table : τ
  name : ν
  columns : List κ
  primary : Bool
deriving DecidableEq

/-- A foreign key. -/
structure ForeignKey (τ κ ν : Type) where
  table : τ
  name : ν
  columns : List κ
  refTable : τ
  refColumns : List κ
  onDelete : OnDelete
deriving DecidableEq

/-- An index, possibly on the rows that satisfy a condition only. -/
structure Index (τ κ ν D : Type) where
  table : τ
  name : ν
  columns : List κ
  unique : Bool := false
  condition : Option D := none
deriving DecidableEq

/-- A **schema**: everything the database knows but the rows. -/
structure Schema (τ κ ν T D : Type) where
  tables : Finset τ
  columns : Finset (Column τ κ T D)
  keys : Finset (Key τ κ ν)
  foreignKeys : Finset (ForeignKey τ κ ν)
  indexes : Finset (Index τ κ ν D)

-- A derived instance casts along equal sets, which does not reduce.
instance {τ κ ν T D : Type} [DecidableEq τ] [DecidableEq κ] [DecidableEq ν] [DecidableEq T]
    [DecidableEq D] : DecidableEq (Schema τ κ ν T D) := fun S S' =>
  decidable_of_iff (S.tables = S'.tables ∧ S.columns = S'.columns ∧ S.keys = S'.keys ∧
    S.foreignKeys = S'.foreignKeys ∧ S.indexes = S'.indexes) (by cases S; cases S'; simp)

/-- The schema of an empty database. -/
def Schema.empty {τ κ ν T D : Type} : Schema τ κ ν T D := ⟨∅, ∅, ∅, ∅, ∅⟩

/-- A **statement** that changes the schema. `alterType` converts the values of a column with an
expression, and `setNull` is the update that empties one. -/
inductive Ddl (τ κ ν T D : Type)
  | createTable (t : τ) (columns : List (Column τ κ T D)) (keys : List (Key τ κ ν))
  | dropTable (t : τ)
  | addColumn (c : Column τ κ T D)
  | dropColumn (t : τ) (k : κ)
  | alterType (t : τ) (k : κ) (type : T) (expr : D)
  | setNull (t : τ) (k : κ)
  | createForeignKey (fk : ForeignKey τ κ ν)
  | dropForeignKey (t : τ) (name : ν)
  | createIndex (ix : Index τ κ ν D)
  | dropIndex (name : ν)

variable {τ κ ν T D V : Type}

namespace Schema

variable {S S' : Schema τ κ ν T D} {t : τ} {k : κ}

/-- A foreign key refers to the column. -/
def RefersTo (S : Schema τ κ ν T D) (t : τ) (k : κ) : Prop :=
  ∃ fk ∈ S.foreignKeys, fk.refTable = t ∧ k ∈ fk.refColumns

/-- A key, a foreign key or an index is about the column. -/
def Involves (S : Schema τ κ ν T D) (t : τ) (k : κ) : Prop :=
  (∃ key ∈ S.keys, key.table = t ∧ k ∈ key.columns) ∨
    (∃ fk ∈ S.foreignKeys, fk.table = t ∧ k ∈ fk.columns) ∨
    ∃ ix ∈ S.indexes, ix.table = t ∧ k ∈ ix.columns

/-- The table has the column. -/
def Has (S : Schema τ κ ν T D) (t : τ) (k : κ) : Prop := ∃ c ∈ S.columns, c.table = t ∧ c.name = k

/-- A schema that declares less involves less. -/
theorem Involves.mono (h : S'.Involves t k) (hkeys : S'.keys ⊆ S.keys)
    (hfks : S'.foreignKeys ⊆ S.foreignKeys) (hixs : S'.indexes ⊆ S.indexes) : S.Involves t k := by
  rcases h with ⟨key, hkey, h⟩ | ⟨fk, hfk, h⟩ | ⟨ix, hix, h⟩
  · exact Or.inl ⟨key, hkeys hkey, h⟩
  · exact Or.inr (Or.inl ⟨fk, hfks hfk, h⟩)
  · exact Or.inr (Or.inr ⟨ix, hixs hix, h⟩)

theorem RefersTo.mono (h : S'.RefersTo t k)
    (hfks : S'.foreignKeys ⊆ S.foreignKeys) : S.RefersTo t k := by
  obtain ⟨fk, hfk, h⟩ := h
  exact ⟨fk, hfks hfk, h⟩

variable [DecidableEq τ] [DecidableEq κ] [DecidableEq ν] [DecidableEq T] [DecidableEq D]

instance (S : Schema τ κ ν T D) (t : τ) (k : κ) : Decidable (S.RefersTo t k) :=
  inferInstanceAs (Decidable (∃ fk ∈ S.foreignKeys, _))

instance (S : Schema τ κ ν T D) (t : τ) (k : κ) : Decidable (S.Involves t k) :=
  inferInstanceAs (Decidable (_ ∨ _))

instance (S : Schema τ κ ν T D) (t : τ) (k : κ) : Decidable (S.Has t k) :=
  inferInstanceAs (Decidable (∃ c ∈ S.columns, _))

/-- The schema without a column, and without what is about it. -/
def withoutColumn (S : Schema τ κ ν T D) (t : τ) (k : κ) : Schema τ κ ν T D where
  tables := S.tables
  columns := S.columns.filter fun c => ¬ (c.table = t ∧ c.name = k)
  keys := S.keys.filter fun key => ¬ (key.table = t ∧ k ∈ key.columns)
  foreignKeys := S.foreignKeys.filter fun fk => ¬ (fk.table = t ∧ k ∈ fk.columns)
  indexes := S.indexes.filter fun ix => ¬ (ix.table = t ∧ k ∈ ix.columns)

/-- The schema without a table. -/
def withoutTable (S : Schema τ κ ν T D) (t : τ) : Schema τ κ ν T D where
  tables := S.tables.erase t
  columns := S.columns.filter fun c => c.table ≠ t
  keys := S.keys.filter fun key => key.table ≠ t
  foreignKeys := S.foreignKeys.filter fun fk => fk.table ≠ t
  indexes := S.indexes.filter fun ix => ix.table ≠ t

/-- The schema with a table. -/
def withTable (S : Schema τ κ ν T D) (t : τ) (columns : List (Column τ κ T D))
    (keys : List (Key τ κ ν)) : Schema τ κ ν T D :=
  { S with
    tables := insert t S.tables
    columns := S.columns ∪ columns.toFinset
    keys := S.keys ∪ keys.toFinset }

/-- The schema with another type for a column. -/
def retyped (S : Schema τ κ ν T D) (t : τ) (k : κ) (type : T) : Schema τ κ ν T D :=
  { S with
    columns := S.columns.image fun c => if c.table = t ∧ c.name = k then { c with type := type } else c }

/-- The schema after a statement, or `none` if the statement is not allowed. A column that a foreign
key refers to cannot be dropped or emptied, and a column that a key, a foreign key or an index is
about is not converted. -/
def apply (S : Schema τ κ ν T D) : Ddl τ κ ν T D → Option (Schema τ κ ν T D)
  | .createTable t columns keys =>
      if t ∉ S.tables ∧ (∀ c ∈ columns, c.table = t) ∧ (columns.map Column.name).Nodup ∧
          ∀ key ∈ keys, key.table = t ∧ ∀ k ∈ key.columns, k ∈ columns.map Column.name then
        some (S.withTable t columns keys)
      else none
  | .dropTable t =>
      if t ∈ S.tables ∧ ∀ fk ∈ S.foreignKeys, fk.refTable = t → fk.table = t then
        some (S.withoutTable t)
      else none
  | .addColumn c =>
      if c.table ∈ S.tables ∧ ¬ S.Has c.table c.name then
        some { S with columns := insert c S.columns }
      else none
  | .dropColumn t k =>
      if S.Has t k ∧ ¬ S.RefersTo t k then some (S.withoutColumn t k) else none
  | .alterType t k type _ =>
      if S.Has t k ∧ ¬ S.RefersTo t k ∧ ¬ S.Involves t k then some (S.retyped t k type) else none
  | .setNull t k =>
      if S.Has t k ∧ ¬ S.RefersTo t k ∧
          ∀ c ∈ S.columns, c.table = t → c.name = k → c.nullable = true then
        some S
      else none
  | .createForeignKey fk =>
      if (∀ fk' ∈ S.foreignKeys, fk'.table = fk.table → fk'.name ≠ fk.name) ∧
          (∀ k ∈ fk.columns, S.Has fk.table k) ∧
          ∃ key ∈ S.keys, key.table = fk.refTable ∧ key.columns = fk.refColumns then
        some { S with foreignKeys := insert fk S.foreignKeys }
      else none
  | .dropForeignKey t name =>
      if ∃ fk ∈ S.foreignKeys, fk.table = t ∧ fk.name = name then
        some { S with
          foreignKeys := S.foreignKeys.filter fun fk => ¬ (fk.table = t ∧ fk.name = name) }
      else none
  | .createIndex ix =>
      if (∀ ix' ∈ S.indexes, ix'.name ≠ ix.name) ∧ ∀ k ∈ ix.columns, S.Has ix.table k then
        some { S with indexes := insert ix S.indexes }
      else none
  | .dropIndex name =>
      if ∃ ix ∈ S.indexes, ix.name = name then
        some { S with indexes := S.indexes.filter fun ix => ix.name ≠ name }
      else none

/-- The schema after a list of statements. -/
def applyAll (S : Schema τ κ ν T D) (sts : List (Ddl τ κ ν T D)) : Option (Schema τ κ ν T D) :=
  sts.foldlM apply S

end Schema

variable [DecidableEq τ] [DecidableEq κ]

/-! ### Rows -/

/-- A row: what it holds under each column name. -/
abbrev Row (κ V : Type) := κ → Option V

/-- The rows of every table. Nothing is under a table that is not there (`Fits.tables`). -/
abbrev Data (τ κ V : Type) := τ → List (Row κ V)

/-- What the database makes of expressions, as defaults and as conversions, and of types. -/
structure Values (T D V : Type) where
  literal : D → V
  convert : D → V → Option V
  HasType : T → V → Prop

/-- No two rows have the same values in the columns. A `NULL` is the same as nothing. -/
def UniqueOn (ks : List κ) (rows : List (Row κ V)) : Prop :=
  rows.Pairwise fun r r' => ¬ ((∀ k ∈ ks, r k ≠ none) ∧ ∀ k ∈ ks, r k = r' k)

/-- Every row refers to a row that is there, if it refers to one at all. -/
def ForeignKey.Holds (fk : ForeignKey τ κ ν) (data : Data τ κ V) : Prop :=
  ∀ r ∈ data fk.table, (∀ k ∈ fk.columns, r k ≠ none) →
    ∃ r' ∈ data fk.refTable, fk.columns.map r = fk.refColumns.map r'

section Decidable

variable [DecidableEq V]

instance (ks : List κ) (rows : List (Row κ V)) : Decidable (UniqueOn ks rows) :=
  inferInstanceAs (Decidable (List.Pairwise _ _))

instance (fk : ForeignKey τ κ ν) (data : Data τ κ V) : Decidable (fk.Holds data) :=
  inferInstanceAs (Decidable (∀ r ∈ data fk.table, _))

end Decidable

namespace Data

/-- The rows with the cells of a column replaced. -/
def setColumn (data : Data τ κ V) (t : τ) (k : κ) (f : Option V → Option V) : Data τ κ V :=
  Function.update data t ((data t).map fun r => Function.update r k (f (r k)))

/-- The rows after a statement, or `none` if the rows do not allow it. -/
def apply [DecidableEq V] (vals : Values T D V) (data : Data τ κ V) :
    Ddl τ κ ν T D → Option (Data τ κ V)
  | .createTable _ _ _ => some data
  | .dropTable t => some (Function.update data t [])
  | .addColumn c =>
      if c.nullable = true ∨ c.default.isSome = true ∨ data c.table = [] then
        some (data.setColumn c.table c.name fun _ => c.default.map vals.literal)
      else none
  | .dropColumn t k | .setNull t k => some (data.setColumn t k fun _ => none)
  | .alterType t k _ expr =>
      if ∀ r ∈ data t, ∀ v ∈ r k, (vals.convert expr v).isSome = true then
        some (data.setColumn t k fun v => v.bind (vals.convert expr))
      else none
  | .createForeignKey fk => if fk.Holds data then some data else none
  | .createIndex ix =>
      if ix.unique = true → ix.condition = none → UniqueOn ix.columns (data ix.table) then some data
      else none
  | .dropForeignKey _ _ | .dropIndex _ => some data

/-- A column of a table, from top to bottom. -/
def column (data : Data τ κ V) (t : τ) (k : κ) : List (Option V) := (data t).map fun r => r k

end Data

/-- A **database**. -/
structure Database (τ κ ν T D V : Type) where
  schema : Schema τ κ ν T D
  data : Data τ κ V

namespace Database

variable [DecidableEq ν] [DecidableEq T] [DecidableEq D] [DecidableEq V]

/-- The database after a statement. -/
def execute (vals : Values T D V) (db : Database τ κ ν T D V) (st : Ddl τ κ ν T D) :
    Option (Database τ κ ν T D V) := do
  let schema ← db.schema.apply st
  let data ← db.data.apply vals st
  some ⟨schema, data⟩

/-- The database after a transaction: a failure undoes all of it. -/
def executeAll (vals : Values T D V) (db : Database τ κ ν T D V) (sts : List (Ddl τ κ ν T D)) :
    Option (Database τ κ ν T D V) :=
  sts.foldlM (execute vals) db

end Database

/-! ### Integrity -/

/-- **The rows fit the schema.** -/
structure Fits (vals : Values T D V) (S : Schema τ κ ν T D) (data : Data τ κ V) : Prop where
  /-- What is declared is declared about columns there are. -/
  involved : ∀ t k, S.Involves t k ∨ S.RefersTo t k → S.Has t k
  tables : ∀ t ∉ S.tables, data t = []
  columns : ∀ t, ∀ r ∈ data t, ∀ k, ¬ S.Has t k → r k = none
  types : ∀ c ∈ S.columns, ∀ r ∈ data c.table, ∀ v ∈ r c.name, vals.HasType c.type v
  notNull : ∀ c ∈ S.columns, c.nullable = false → ∀ r ∈ data c.table, r c.name ≠ none
  keys : ∀ key ∈ S.keys, UniqueOn key.columns (data key.table)
  indexes : ∀ ix ∈ S.indexes, ix.unique = true → ix.condition = none →
    UniqueOn ix.columns (data ix.table)
  foreignKeys : ∀ fk ∈ S.foreignKeys, fk.Holds data

/-- A default and a conversion give values of the type they are for. -/
def Ddl.Sound (vals : Values T D V) : Ddl τ κ ν T D → Prop
  | .createTable _ _ _ | .dropTable _ | .dropColumn _ _ | .setNull _ _ => True
  | .addColumn c => ∀ d ∈ c.default, vals.HasType c.type (vals.literal d)
  | .alterType _ _ type expr => ∀ v, ∀ v' ∈ vals.convert expr v, vals.HasType type v'
  | .createForeignKey _ | .dropForeignKey _ _ | .createIndex _ | .dropIndex _ => True

section SetColumn

variable {data : Data τ κ V} {t t' : τ} {k : κ} {f : Option V → Option V}

/-- What a row holds after a column was replaced. -/
def replaced (t t' : τ) (k : κ) (f : Option V → Option V) (r : Row κ V) : Row κ V :=
  fun k' => if t' = t ∧ k' = k then f (r k) else r k'

theorem setColumn_apply (data : Data τ κ V) (t t' : τ) (k : κ) (f : Option V → Option V) :
    data.setColumn t k f t' = (data t').map (replaced t t' k f) := by
  by_cases ht : t' = t
  · subst ht
    rw [Data.setColumn, Function.update_self]
    refine List.map_congr_left fun r _ => funext fun k' => ?_
    rw [replaced, Function.update_apply]
    simp
  · rw [Data.setColumn, Function.update_of_ne ht]
    have hsame : replaced t t' k f = id := by
      funext r k'
      exact if_neg fun h => ht h.1
    rw [hsame, List.map_id]

theorem replaced_of_ne {r : Row κ V} {k' : κ} (h : ¬ (t' = t ∧ k' = k)) :
    replaced t t' k f r k' = r k' :=
  if_neg h

theorem mem_setColumn {r : Row κ V} :
    r ∈ data.setColumn t k f t' ↔ ∃ r₀ ∈ data t', replaced t t' k f r₀ = r := by
  rw [setColumn_apply, List.mem_map]

/-- Rows stay told apart by columns other than the one that is replaced, and by none that is
emptied. -/
theorem UniqueOn.setColumn {ks : List κ} (h : UniqueOn ks (data t'))
    (hf : t' = t ∧ k ∈ ks → ∀ v, f v = none) : UniqueOn ks (data.setColumn t k f t') := by
  rw [setColumn_apply]
  refine List.Pairwise.map _ (fun r r' hr => ?_) h
  rintro ⟨hset, hsame⟩
  have hkeep : ∀ k' ∈ ks, ¬ (t' = t ∧ k' = k) := by
    rintro k' hk' ⟨ht, rfl⟩
    refine hset k' hk' ?_
    rw [replaced, if_pos ⟨ht, rfl⟩]
    exact hf ⟨ht, hk'⟩ _
  refine hr ⟨fun k' hk' => ?_, fun k' hk' => ?_⟩
  · rw [← replaced_of_ne (f := f) (r := r) (hkeep k' hk')]
    exact hset k' hk'
  · rw [← replaced_of_ne (f := f) (r := r) (hkeep k' hk'),
      ← replaced_of_ne (f := f) (r := r') (hkeep k' hk')]
    exact hsame k' hk'

theorem ForeignKey.Holds.setColumn {fk : ForeignKey τ κ ν} (h : fk.Holds data)
    (hf : fk.table = t ∧ k ∈ fk.columns → ∀ v, f v = none)
    (href : ¬ (fk.refTable = t ∧ k ∈ fk.refColumns)) : fk.Holds (data.setColumn t k f) := by
  rintro r hr hset
  obtain ⟨r₀, hr₀, rfl⟩ := mem_setColumn.mp hr
  have hkeep : ∀ k' ∈ fk.columns, ¬ (fk.table = t ∧ k' = k) := by
    rintro k' hk' ⟨ht, rfl⟩
    refine hset k' hk' ?_
    rw [replaced, if_pos ⟨ht, rfl⟩]
    exact hf ⟨ht, hk'⟩ _
  have hrefKeep : ∀ k' ∈ fk.refColumns, ¬ (fk.refTable = t ∧ k' = k) := by
    rintro k' hk' ⟨ht, rfl⟩
    exact href ⟨ht, hk'⟩
  obtain ⟨r', hr', heq⟩ := h r₀ hr₀ fun k' hk' => by
    rw [← replaced_of_ne (f := f) (r := r₀) (hkeep k' hk')]
    exact hset k' hk'
  refine ⟨_, mem_setColumn.mpr ⟨r', hr', rfl⟩, ?_⟩
  rw [List.map_congr_left fun k' hk' => replaced_of_ne (hkeep k' hk'), heq]
  exact List.map_congr_left fun k' hk' => (replaced_of_ne (hrefKeep k' hk')).symm

end SetColumn

section Fits

variable {vals : Values T D V} {S S' : Schema τ κ ν T D} {data data' : Data τ κ V}

/-- **Two schemas that differ in one column**, and the second declares nothing new. -/
structure Schema.ColumnChange (S S' : Schema τ κ ν T D) (t : τ) (k : κ) : Prop where
  tables : S'.tables = S.tables
  has : ∀ t' k', ¬ (t' = t ∧ k' = k) → (S'.Has t' k' ↔ S.Has t' k')
  columns : ∀ c ∈ S'.columns, ¬ (c.table = t ∧ c.name = k) → c ∈ S.columns
  keys : S'.keys ⊆ S.keys
  foreignKeys : S'.foreignKeys ⊆ S.foreignKeys
  indexes : S'.indexes ⊆ S.indexes
  involved : S'.Involves t k ∨ S'.RefersTo t k → S'.Has t k

/-- **Replacing a column keeps the rows fitting**, if what is about it is gone or it is emptied, if
nothing refers to it, and if the new cells are what the new schema says of them. -/
theorem Fits.setColumn (h : Fits vals S data) {t : τ} {k : κ} (hS : S.ColumnChange S' t k)
    {f : Option V → Option V} (hinvolved : S'.Involves t k → ∀ v, f v = none)
    (hrefs : ¬ S'.RefersTo t k) (habsent : ¬ S'.Has t k → ∀ r ∈ data t, f (r k) = none)
    (hcells : ∀ c ∈ S'.columns, c.table = t → c.name = k → ∀ r ∈ data t,
      (∀ v ∈ f (r k), vals.HasType c.type v) ∧ (c.nullable = false → f (r k) ≠ none)) :
    Fits vals S' (data.setColumn t k f) where
  involved t' k' hin := by
    by_cases heq : t' = t ∧ k' = k
    · obtain ⟨rfl, rfl⟩ := heq
      exact hS.involved hin
    · refine (hS.has t' k' heq).mpr (h.involved t' k' (hin.imp ?_ ?_))
      · exact fun hin => hin.mono hS.keys hS.foreignKeys hS.indexes
      · exact fun hin => hin.mono hS.foreignKeys
  tables t' ht' := by
    rw [hS.tables] at ht'
    rw [setColumn_apply, h.tables t' ht', List.map_nil]
  columns t' r hr k' hk' := by
    obtain ⟨r₀, hr₀, rfl⟩ := mem_setColumn.mp hr
    by_cases heq : t' = t ∧ k' = k
    · obtain ⟨rfl, rfl⟩ := heq
      exact (if_pos ⟨rfl, rfl⟩).trans (habsent hk' r₀ hr₀)
    · rw [replaced_of_ne heq]
      exact h.columns t' r₀ hr₀ k' fun hhas => hk' ((hS.has t' k' heq).mpr hhas)
  types c hc r hr v hv := by
    obtain ⟨r₀, hr₀, rfl⟩ := mem_setColumn.mp hr
    by_cases heq : c.table = t ∧ c.name = k
    · rw [replaced, if_pos heq] at hv
      exact (hcells c hc heq.1 heq.2 r₀ (heq.1 ▸ hr₀)).1 v hv
    · rw [replaced_of_ne heq] at hv
      exact h.types c (hS.columns c hc heq) r₀ hr₀ v hv
  notNull c hc hnull r hr := by
    obtain ⟨r₀, hr₀, rfl⟩ := mem_setColumn.mp hr
    by_cases heq : c.table = t ∧ c.name = k
    · rw [replaced, if_pos heq]
      exact (hcells c hc heq.1 heq.2 r₀ (heq.1 ▸ hr₀)).2 hnull
    · rw [replaced_of_ne heq]
      exact h.notNull c (hS.columns c hc heq) hnull r₀ hr₀
  keys key hkey := by
    exact (h.keys key (hS.keys hkey)).setColumn fun hk => hinvolved (Or.inl ⟨key, hkey, hk⟩)
  indexes ix hix hunique hfull := by
    exact (h.indexes ix (hS.indexes hix) hunique hfull).setColumn fun hk =>
      hinvolved (Or.inr (Or.inr ⟨ix, hix, hk⟩))
  foreignKeys fk hfk := by
    refine (h.foreignKeys fk (hS.foreignKeys hfk)).setColumn (fun hk => ?_) fun hk => ?_
    · exact hinvolved (Or.inr (Or.inl ⟨fk, hfk, hk⟩))
    · exact hrefs ⟨fk, hfk, hk⟩

omit [DecidableEq τ] [DecidableEq κ] in
/-- Declaring less keeps the rows fitting. -/
theorem Fits.mono (h : Fits vals S data) (htables : S'.tables = S.tables)
    (hcolumns : S'.columns = S.columns) (hkeys : S'.keys ⊆ S.keys)
    (hfks : S'.foreignKeys ⊆ S.foreignKeys) (hixs : S'.indexes ⊆ S.indexes) : Fits vals S' data where
  involved t k hin := by
    rw [Schema.Has, hcolumns]
    refine h.involved t k (hin.imp ?_ ?_)
    · exact fun hin => hin.mono hkeys hfks hixs
    · exact fun hin => hin.mono hfks
  tables t ht := h.tables t (htables ▸ ht)
  columns t r hr k hk := h.columns t r hr k (by rwa [Schema.Has, hcolumns] at hk)
  types c hc := h.types c (hcolumns ▸ hc)
  notNull c hc := h.notNull c (hcolumns ▸ hc)
  keys key hkey := h.keys key (hkeys hkey)
  indexes ix hix := h.indexes ix (hixs hix)
  foreignKeys fk hfk := h.foreignKeys fk (hfks hfk)

omit [DecidableEq τ] [DecidableEq κ] in
/-- No rows fit every schema that some rows fit. -/
theorem Fits.empty (h : Fits vals S data) : Fits vals S fun _ => [] where
  involved := h.involved
  tables _ _ := rfl
  columns _ _ hr := absurd hr List.not_mem_nil
  types _ _ _ hr := absurd hr List.not_mem_nil
  notNull _ _ _ _ hr := absurd hr List.not_mem_nil
  keys _ _ := List.Pairwise.nil
  indexes _ _ _ _ := List.Pairwise.nil
  foreignKeys _ _ _ hr := absurd hr List.not_mem_nil

section Statements

variable {t : τ} {k : κ}

theorem Fits.withTable [DecidableEq ν] [DecidableEq T] [DecidableEq D] (h : Fits vals S data)
    (ht : t ∉ S.tables) {columns : List (Column τ κ T D)} {keys : List (Key τ κ ν)}
    (hcolumns : ∀ c ∈ columns, c.table = t)
    (hkeys : ∀ key ∈ keys, key.table = t ∧ ∀ k ∈ key.columns, k ∈ columns.map Column.name) :
    Fits vals (S.withTable t columns keys) data := by
  have hmem : ∀ c, c ∈ (S.withTable t columns keys).columns ↔ c ∈ S.columns ∨ c ∈ columns := by
    simp [Schema.withTable]
  have hmemKeys : ∀ key, key ∈ (S.withTable t columns keys).keys ↔ key ∈ S.keys ∨ key ∈ keys := by
    simp [Schema.withTable]
  have hhas : ∀ t' k', S.Has t' k' → (S.withTable t columns keys).Has t' k' := by
    rintro t' k' ⟨c, hc, hck⟩
    exact ⟨c, (hmem c).mpr (Or.inl hc), hck⟩
  refine { h with involved := ?_, tables := ?_, columns := ?_, types := ?_, notNull := ?_, keys := ?_ }
  · intro t' k' hin
    rcases hin with (⟨key, hkey, htable, hk⟩ | hin) | hin
    · rcases (hmemKeys key).mp hkey with hkey | hkey
      · exact hhas _ _ (h.involved t' k' (Or.inl (Or.inl ⟨key, hkey, htable, hk⟩)))
      · obtain ⟨htable', hnames⟩ := hkeys key hkey
        obtain ⟨c, hc, hname⟩ := List.mem_map.mp (hnames k' hk)
        exact ⟨c, (hmem c).mpr (Or.inr hc), (hcolumns c hc).trans (htable'.symm.trans htable), hname⟩
    · exact hhas _ _ (h.involved t' k' (Or.inl (Or.inr hin)))
    · exact hhas _ _ (h.involved t' k' (Or.inr hin))
  · exact fun t' ht' => h.tables t' fun hold => ht' (Finset.mem_insert_of_mem hold)
  · exact fun t' r hr k' hk' => h.columns t' r hr k' fun hold => hk' (hhas _ _ hold)
  · intro c hc r hr
    rcases (hmem c).mp hc with hc | hc
    · exact h.types c hc r hr
    · rw [hcolumns c hc, h.tables t ht] at hr
      exact absurd hr List.not_mem_nil
  · intro c hc hnull r hr
    rcases (hmem c).mp hc with hc | hc
    · exact h.notNull c hc hnull r hr
    · rw [hcolumns c hc, h.tables t ht] at hr
      exact absurd hr List.not_mem_nil
  · intro key hkey
    rcases (hmemKeys key).mp hkey with hkey | hkey
    · exact h.keys key hkey
    · rw [(hkeys key hkey).1, h.tables t ht]
      exact List.Pairwise.nil

omit [DecidableEq κ] in
theorem Fits.withoutTable (h : Fits vals S data)
    (hfks : ∀ fk ∈ S.foreignKeys, fk.refTable = t → fk.table = t) :
    Fits vals (S.withoutTable t) (Function.update data t []) := by
  have hsame : ∀ t', t' ≠ t → Function.update data t [] t' = data t' :=
    fun t' ht' => Function.update_of_ne ht' _ _
  have hself : Function.update data t [] t = [] := Function.update_self ..
  have hhas : ∀ t' k', t' ≠ t → S.Has t' k' → (S.withoutTable t).Has t' k' := by
    rintro t' k' ht' ⟨c, hc, rfl, hk⟩
    exact ⟨c, Finset.mem_filter.mpr ⟨hc, ht'⟩, rfl, hk⟩
  refine ⟨?_, ?_, ?_, ?_, ?_, ?_, ?_, ?_⟩
  · intro t' k' hin
    have hold : (S.Involves t' k' ∨ S.RefersTo t' k') ∧ t' ≠ t := by
      rcases hin with (⟨key, hkey, rfl, hk⟩ | ⟨fk, hfk, rfl, hk⟩ | ⟨ix, hix, rfl, hk⟩) |
        ⟨fk, hfk, rfl, hk⟩
      · obtain ⟨hkey, ht⟩ := Finset.mem_filter.mp hkey
        exact ⟨Or.inl (Or.inl ⟨key, hkey, rfl, hk⟩), ht⟩
      · obtain ⟨hfk, ht⟩ := Finset.mem_filter.mp hfk
        exact ⟨Or.inl (Or.inr (Or.inl ⟨fk, hfk, rfl, hk⟩)), ht⟩
      · obtain ⟨hix, ht⟩ := Finset.mem_filter.mp hix
        exact ⟨Or.inl (Or.inr (Or.inr ⟨ix, hix, rfl, hk⟩)), ht⟩
      · obtain ⟨hfk, ht⟩ := Finset.mem_filter.mp hfk
        exact ⟨Or.inr ⟨fk, hfk, rfl, hk⟩, fun href => ht (hfks fk hfk href)⟩
    exact hhas _ _ hold.2 (h.involved t' k' hold.1)
  · intro t' ht'
    by_cases heq : t' = t
    · rw [heq, hself]
    · rw [hsame t' heq]
      exact h.tables t' fun hold => ht' (Finset.mem_erase.mpr ⟨heq, hold⟩)
  · intro t' r hr k' hk'
    by_cases heq : t' = t
    · rw [heq, hself] at hr
      exact absurd hr List.not_mem_nil
    · rw [hsame t' heq] at hr
      exact h.columns t' r hr k' fun hold => hk' (hhas _ _ heq hold)
  · intro c hc r hr
    obtain ⟨hc, ht⟩ := Finset.mem_filter.mp hc
    rw [hsame _ ht] at hr
    exact h.types c hc r hr
  · intro c hc hnull r hr
    obtain ⟨hc, ht⟩ := Finset.mem_filter.mp hc
    rw [hsame _ ht] at hr
    exact h.notNull c hc hnull r hr
  · intro key hkey
    obtain ⟨hkey, ht⟩ := Finset.mem_filter.mp hkey
    rw [hsame _ ht]
    exact h.keys key hkey
  · intro ix hix
    obtain ⟨hix, ht⟩ := Finset.mem_filter.mp hix
    rw [hsame _ ht]
    exact h.indexes ix hix
  · intro fk hfk
    obtain ⟨hfk, ht⟩ := Finset.mem_filter.mp hfk
    rw [ForeignKey.Holds, hsame _ ht, hsame _ fun href => ht (hfks fk hfk href)]
    exact h.foreignKeys fk hfk

theorem Fits.addColumn [DecidableEq T] [DecidableEq D] (h : Fits vals S data)
    {c : Column τ κ T D} (hnew : ¬ S.Has c.table c.name)
    (hrows : c.nullable = true ∨ c.default.isSome = true ∨ data c.table = [])
    (htype : ∀ d ∈ c.default, vals.HasType c.type (vals.literal d)) :
    Fits vals { S with columns := insert c S.columns }
      (data.setColumn c.table c.name fun _ => c.default.map vals.literal) := by
  have hfree : ¬ (S.Involves c.table c.name ∨ S.RefersTo c.table c.name) :=
    fun hin => hnew (h.involved _ _ hin)
  have hS : S.ColumnChange { S with columns := insert c S.columns } c.table c.name := by
    refine ⟨rfl, fun t' k' heq => ?_, fun c' hc' heq => ?_, subset_rfl, subset_rfl, subset_rfl,
      fun _ => ⟨c, Finset.mem_insert_self .., rfl, rfl⟩⟩
    · constructor
      · rintro ⟨c', hc', rfl, rfl⟩
        rcases Finset.mem_insert.mp hc' with rfl | hc'
        · exact absurd ⟨rfl, rfl⟩ heq
        · exact ⟨c', hc', rfl, rfl⟩
      · rintro ⟨c', hc', h'⟩
        exact ⟨c', Finset.mem_insert_of_mem hc', h'⟩
    · rcases Finset.mem_insert.mp hc' with rfl | hc'
      · exact absurd ⟨rfl, rfl⟩ heq
      · exact hc'
  refine h.setColumn hS (fun hin => absurd (Or.inl hin) hfree) (fun hin => hfree (Or.inr hin))
    (fun hno => absurd ⟨c, Finset.mem_insert_self .., rfl, rfl⟩ hno) fun c' hc' ht hk r hr => ?_
  rcases Finset.mem_insert.mp hc' with rfl | hc'
  · refine ⟨fun v hv => ?_, fun hnull => ?_⟩
    · obtain ⟨d, hd, rfl⟩ := Option.mem_map.mp hv
      exact htype d hd
    · rcases hrows with hrows | hrows | hrows
      · rw [hnull] at hrows
        cases hrows
      · rw [ne_eq, Option.map_eq_none_iff, ← Option.not_isSome_iff_eq_none, not_not]
        exact hrows
      · rw [hrows] at hr
        exact absurd hr List.not_mem_nil
  · exact absurd ⟨c', hc', ht, hk⟩ hnew

theorem Fits.dropColumn (h : Fits vals S data) (href : ¬ S.RefersTo t k) :
    Fits vals (S.withoutColumn t k) (data.setColumn t k fun _ => none) := by
  have hno : ¬ (S.withoutColumn t k).Has t k := by
    rintro ⟨c, hc, hck⟩
    exact (Finset.mem_filter.mp hc).2 hck
  have hfree : ¬ (S.withoutColumn t k).Involves t k := by
    rintro (⟨key, hkey, hk⟩ | ⟨fk, hfk, hk⟩ | ⟨ix, hix, hk⟩)
    · exact (Finset.mem_filter.mp hkey).2 hk
    · exact (Finset.mem_filter.mp hfk).2 hk
    · exact (Finset.mem_filter.mp hix).2 hk
  have href' : ¬ (S.withoutColumn t k).RefersTo t k :=
    fun hin => href (hin.mono (Finset.filter_subset _ _))
  have hS : S.ColumnChange (S.withoutColumn t k) t k := by
    refine ⟨rfl, fun t' k' heq => ?_, fun c hc _ => (Finset.mem_filter.mp hc).1,
      Finset.filter_subset _ _, Finset.filter_subset _ _, Finset.filter_subset _ _,
      fun hin => absurd hin (not_or.mpr ⟨hfree, href'⟩)⟩
    constructor
    · rintro ⟨c, hc, h'⟩
      exact ⟨c, (Finset.mem_filter.mp hc).1, h'⟩
    · rintro ⟨c, hc, rfl, rfl⟩
      exact ⟨c, Finset.mem_filter.mpr ⟨hc, heq⟩, rfl, rfl⟩
  exact h.setColumn hS (fun hin => absurd hin hfree) href' (fun _ _ _ => rfl)
    fun c hc ht hk => absurd ⟨c, hc, ht, hk⟩ hno

theorem Fits.alterType [DecidableEq T] [DecidableEq D] (h : Fits vals S data)
    (hfree : ¬ S.Involves t k) (href : ¬ S.RefersTo t k) {type : T} {convert : V → Option V}
    (hrows : ∀ r ∈ data t, ∀ v ∈ r k, (convert v).isSome = true)
    (htype : ∀ v, ∀ v' ∈ convert v, vals.HasType type v') :
    Fits vals (S.retyped t k type) (data.setColumn t k fun v => v.bind convert) := by
  have hmem : ∀ c', c' ∈ (S.retyped t k type).columns ↔
      ∃ c ∈ S.columns, (if c.table = t ∧ c.name = k then { c with type := type } else c) = c' :=
    fun _ => Finset.mem_image
  have hhas : ∀ t' k', (S.retyped t k type).Has t' k' ↔ S.Has t' k' := by
    intro t' k'
    constructor
    · rintro ⟨c', hc', h'⟩
      obtain ⟨c, hc, rfl⟩ := (hmem c').mp hc'
      refine ⟨c, hc, ?_⟩
      split at h'
      · exact h'
      · exact h'
    · rintro ⟨c, hc, h'⟩
      refine ⟨_, (hmem _).mpr ⟨c, hc, rfl⟩, ?_⟩
      split
      · exact h'
      · exact h'
  have hS : S.ColumnChange (S.retyped t k type) t k := by
    refine ⟨rfl, fun t' k' _ => hhas t' k', fun c' hc' heq => ?_, subset_rfl, subset_rfl, subset_rfl,
      fun hin => absurd hin (not_or.mpr ⟨hfree, href⟩)⟩
    obtain ⟨c, hc, rfl⟩ := (hmem c').mp hc'
    split at heq
    · rename_i hck
      exact absurd hck heq
    · rename_i hck
      rwa [if_neg hck]
  refine h.setColumn hS (fun hin => absurd hin hfree) href (fun hno r hr => ?_)
    fun c' hc' ht hk r hr => ?_
  · rw [h.columns t r hr k fun hold => hno ((hhas t k).mpr hold)]
    rfl
  · obtain ⟨c, hc, rfl⟩ := (hmem c').mp hc'
    have hck : c.table = t ∧ c.name = k := by
      split at ht
      · assumption
      · rename_i hck
        rw [if_neg hck] at hk
        exact ⟨ht, hk⟩
    rw [if_pos hck]
    refine ⟨fun v' hv' => ?_, fun hnull => ?_⟩
    · obtain ⟨v, -, hv⟩ := Option.bind_eq_some_iff.mp hv'
      exact htype v v' hv
    · have hset := h.notNull c hc hnull r (hck.1 ▸ hr)
      rw [hck.2] at hset
      obtain ⟨v, hv⟩ := Option.ne_none_iff_exists'.mp hset
      rw [hv, Option.bind_some, ← Option.isSome_iff_ne_none]
      exact hrows r hr v hv

theorem Fits.setNull (h : Fits vals S data) (hhas : S.Has t k) (href : ¬ S.RefersTo t k)
    (hnull : ∀ c ∈ S.columns, c.table = t → c.name = k → c.nullable = true) :
    Fits vals S (data.setColumn t k fun _ => none) := by
  have hS : S.ColumnChange S t k :=
    ⟨rfl, fun _ _ _ => Iff.rfl, fun _ hc _ => hc, subset_rfl, subset_rfl, subset_rfl, fun _ => hhas⟩
  refine h.setColumn hS (fun _ _ => rfl) href (fun _ _ _ => rfl) fun c hc ht hk r hr => ⟨?_, ?_⟩
  · exact fun v hv => absurd hv (Option.not_mem_none v)
  · rw [hnull c hc ht hk]
    exact fun hno => absurd hno (by decide)

omit [DecidableEq τ] [DecidableEq κ] in
theorem Fits.createForeignKey [DecidableEq (ForeignKey τ κ ν)] (h : Fits vals S data)
    {fk : ForeignKey τ κ ν} (hfk : fk.Holds data)
    (hcolumns : ∀ k ∈ fk.columns, S.Has fk.table k)
    (hkey : ∃ key ∈ S.keys, key.table = fk.refTable ∧ key.columns = fk.refColumns) :
    Fits vals { S with foreignKeys := insert fk S.foreignKeys } data := by
  refine { h with involved := fun t k hin => ?_, foreignKeys := fun fk' hfk' => ?_ }
  · rcases hin with (hin | ⟨fk', hfk', rfl, hk⟩ | hin) | ⟨fk', hfk', rfl, hk⟩
    · exact h.involved t k (Or.inl (Or.inl hin))
    · rcases Finset.mem_insert.mp hfk' with rfl | hfk'
      · exact hcolumns k hk
      · exact h.involved _ k (Or.inl (Or.inr (Or.inl ⟨fk', hfk', rfl, hk⟩)))
    · exact h.involved t k (Or.inl (Or.inr (Or.inr hin)))
    · rcases Finset.mem_insert.mp hfk' with rfl | hfk'
      · obtain ⟨key, hmem, htable, heq⟩ := hkey
        exact h.involved _ k (Or.inl (Or.inl ⟨key, hmem, htable, heq ▸ hk⟩))
      · exact h.involved _ k (Or.inr ⟨fk', hfk', rfl, hk⟩)
  · rcases Finset.mem_insert.mp hfk' with rfl | hfk'
    · exact hfk
    · exact h.foreignKeys fk' hfk'

omit [DecidableEq τ] [DecidableEq κ] in
theorem Fits.createIndex [DecidableEq (Index τ κ ν D)] (h : Fits vals S data)
    {ix : Index τ κ ν D}
    (hrows : ix.unique = true → ix.condition = none → UniqueOn ix.columns (data ix.table))
    (hcolumns : ∀ k ∈ ix.columns, S.Has ix.table k) :
    Fits vals { S with indexes := insert ix S.indexes } data := by
  refine { h with involved := fun t k hin => ?_, indexes := fun ix' hix' => ?_ }
  · rcases hin with (hin | hin | ⟨ix', hix', rfl, hk⟩) | hin
    · exact h.involved t k (Or.inl (Or.inl hin))
    · exact h.involved t k (Or.inl (Or.inr (Or.inl hin)))
    · rcases Finset.mem_insert.mp hix' with rfl | hix'
      · exact hcolumns k hk
      · exact h.involved _ k (Or.inl (Or.inr (Or.inr ⟨ix', hix', rfl, hk⟩)))
    · exact h.involved t k (Or.inr hin)
  · rcases Finset.mem_insert.mp hix' with rfl | hix'
    · exact hrows
    · exact h.indexes ix' hix'

end Statements

end Fits

end Relational
