import BackendTemplate.Migrations
import BackendTemplate.Runs

/-!
# Deployments

A deployment is a database under the care of Alembic: the revision it is recorded to be at, its
schema and its rows. `env.py` runs the revisions of one command in one transaction, so a command
that fails changes nothing. Between commands the application writes rows, which Postgres accepts
only if they fit the schema.
-/

namespace BackendTemplate.Migrations

open Relational

/-! ### Alembic -/

/-- The revision that comes after one. -/
def Revision.next (cur : Option Revision) : Option Revision :=
  Revision.all.find? fun r => r.downRevision = cur

/-- A **deployment**: what `alembic_version` holds, and the database. -/
structure Deployment where
  revision : Option Revision
  db : SqlDatabase

namespace Deployment

/-- An empty database. -/
def new : Deployment := ⟨none, ⟨Schema.empty, fun _ => []⟩⟩

variable (jsonb : String → Option String)

/-- The next revision, if there is one. -/
def up (d : Deployment) : Option Deployment :=
  match Revision.next d.revision with
  | none => some d
  | some r => (d.db.executeAll (postgres jsonb) r.upgrade).map (Deployment.mk (some r))

/-- The revision before, if there is one. -/
def down (d : Deployment) : Option Deployment :=
  match d.revision with
  | none => some d
  | some r => (d.db.executeAll (postgres jsonb) r.downgrade).map (Deployment.mk r.downRevision)

/-- `alembic upgrade`, by `n` revisions or to the head. -/
def upgrade : ℕ → Deployment → Option Deployment
  | 0, d => some d
  | n + 1, d => (d.up jsonb).bind (upgrade n)

/-- `alembic downgrade`, by `n` revisions or to the base. -/
def downgrade : ℕ → Deployment → Option Deployment
  | 0, d => some d
  | n + 1, d => (d.down jsonb).bind (downgrade n)

/-- What is done with a deployment: a command, or a transaction of the application that leaves these
rows. -/
inductive Label
  | upgrade (n : ℕ)
  | downgrade (n : ℕ)
  | write (data : SqlData)

/-- What that makes of it. A command that fails makes nothing of it. -/
def step (d : Deployment) : Label → Option Deployment
  | .upgrade n => d.upgrade jsonb n
  | .downgrade n => d.downgrade jsonb n
  | .write data => some { d with db := { d.db with data := data } }

/-- Postgres commits rows that fit the schema. -/
def Accepts (d : Deployment) : Label → Prop
  | .upgrade _ | .downgrade _ => True
  | .write data => Fits (postgres jsonb) d.db.schema data

/-- The deployments there can be. -/
def Reachable (d : Deployment) : Prop := Runs.Reach (step jsonb) (Accepts jsonb) new d

end Deployment

/-! ### The schema of a revision -/

/-- The revisions in order. -/
def history : List Revision :=
  [.initial, .addSecurityTables, .addAuditLogs, .addOauthTables, .addForeignKeys,
    .dropOauthAndKeysTables, .addTwoFactorBackupCodes, .addOutboxRetry, .hashAndEncryptUserSecrets,
    .addUserVersionAndIndexes]

/-- How many revisions there are up to one. -/
def position : Option Revision → ℕ
  | none => 0
  | some r => history.idxOf r + 1

/-- The schema after the first `n` revisions. -/
def schemaAt : ℕ → Option SqlSchema
  | 0 => some Schema.empty
  | n + 1 => (schemaAt n).bind fun S => S.applyAll (history[n]?.elim [] Revision.upgrade)

/-- The head. -/
def head : Revision := .addUserVersionAndIndexes

/-- A schema but for its server defaults: the models have defaults of their own. -/
def withoutDefaults (S : SqlSchema) : SqlSchema :=
  { S with columns := S.columns.image fun c => { c with default := none } }

section WithoutDefaults

variable (S : SqlSchema)

@[simp] theorem withoutDefaults_tables : (withoutDefaults S).tables = S.tables := rfl

@[simp] theorem withoutDefaults_keys : (withoutDefaults S).keys = S.keys := rfl

@[simp] theorem withoutDefaults_foreignKeys : (withoutDefaults S).foreignKeys = S.foreignKeys := rfl

@[simp] theorem withoutDefaults_indexes : (withoutDefaults S).indexes = S.indexes := rfl

end WithoutDefaults

theorem next_eq (cur : Option Revision) : Revision.next cur = history[position cur]? := by
  rcases cur with - | r
  · decide
  · cases r <;> decide

theorem position_next {cur : Option Revision} {r : Revision} (h : Revision.next cur = some r) :
    position (some r) = position cur + 1 := by
  have hr : r.downRevision = cur := by
    have h := List.find?_some h
    simpa using h
  subst hr
  revert h
  cases r <;> decide

theorem next_downRevision (r : Revision) : Revision.next r.downRevision = some r := by
  cases r <;> decide

theorem position_downRevision (r : Revision) : position r.downRevision + 1 = position (some r) :=
  (position_next (next_downRevision r)).symm

theorem position_le (cur : Option Revision) : position cur ≤ history.length := by
  rcases cur with - | r
  · decide
  · cases r <;> decide

theorem position_injective : Function.Injective position := by
  have hback : Function.LeftInverse (fun n => ((none :: history.map some)[n]?).getD none) position := by
    rintro (- | r)
    · decide
    · cases r <;> decide
  exact hback.injective

/-- The columns whose contents a revision gives up: the tables of `drop_oauth_and_keys_tables`, the
payload that `add_outbox_retry` casts, and the secrets of `hash_and_encrypt_user_secrets`. -/
def Replaced : TableName → ColumnName → Prop
  | .oauthClients, _ | .authorizationCodes, _ | .signingKeys, _ => True
  | .outboxEvents, k => k = .payload
  | .users, k => k ∈ [ColumnName.emailVerificationToken, .passwordResetToken, .twoFactorSecret,
      .twoFactorBackupCodes, .twoFactorEnabledAt]
  | _, _ => False

instance (t : TableName) (k : ColumnName) : Decidable (Replaced t k) := by
  unfold Replaced
  split <;> infer_instance

/-- What is to be known of the schema of `n` revisions, and of the revision after them. -/
structure Steady (n : ℕ) (S : SqlSchema) : Prop where
  /-- The downgrade leads back. -/
  back : (S.applyAll (history[n]?.elim [] Revision.upgrade)).bind (fun S' =>
    S'.applyAll (history[n]?.elim [] Revision.downgrade)) = some S
  /-- Neither the upgrade nor the downgrade touches a column that is not given up. -/
  kept : ∀ c ∈ S.columns, ¬ Replaced c.table c.name →
    (∀ st ∈ history[n]?.elim [] Revision.upgrade, ¬ st.Touches c.table c.name) ∧
      ∀ st ∈ history[n]?.elim [] Revision.downgrade, ¬ st.Touches c.table c.name
  /-- A table that is not given up has a column that is not. -/
  shared : ∀ t ∈ S.tables, Replaced t .id ∨ ∃ c ∈ S.columns, c.table = t ∧ ¬ Replaced t c.name
  /-- Payloads are JSON. -/
  payload : ∀ c ∈ S.columns, c.table = .outboxEvents → c.name = .payload →
    c.type = .json ∨ c.type = .jsonb
  /-- `drop_oauth_and_keys_tables` leaves no authorization codes. -/
  codes : history[n]? = some .addTwoFactorBackupCodes → .authorizationCodes ∉ S.tables

instance (n : ℕ) (S : SqlSchema) : Decidable (Steady n S) :=
  decidable_of_iff (_ ∧ _ ∧ _ ∧ _ ∧ _)
    ⟨fun ⟨h₁, h₂, h₃, h₄, h₅⟩ => ⟨h₁, h₂, h₃, h₄, h₅⟩,
      fun ⟨h₁, h₂, h₃, h₄, h₅⟩ => ⟨h₁, h₂, h₃, h₄, h₅⟩⟩

/-- **The upgrades lead to what the models declare.** -/
theorem schemas :
    (schemaAt history.length).map withoutDefaults = some (withoutDefaults metadata) ∧
      ∀ n ∈ List.range (history.length + 1), ∀ S ∈ schemaAt n, Steady n S := by
  decide +kernel

/-- A statement whose default or cast gives values of the column's type. -/
def WellTyped : SqlStatement → Prop
  | .addColumn c => ∀ d ∈ c.default, c.type.Holds d.literal
  | .alterType _ _ type expr => (type, expr) = (.jsonb, .payloadJsonb) ∨ (type, expr) = (.json, .payloadJson)
  | .createTable _ _ _ | .dropTable _ | .dropColumn _ _ | .setNull _ _ => True
  | .createForeignKey _ | .dropForeignKey _ _ | .createIndex _ | .dropIndex _ => True

instance : DecidablePred WellTyped := fun st => by
  cases st <;> unfold WellTyped <;> infer_instance

theorem WellTyped.sound {st : SqlStatement} (h : WellTyped st) (jsonb : String → Option String) :
    st.Sound (postgres jsonb) := by
  cases st with
  | addColumn c => exact h
  | alterType t k type expr =>
      intro v v' hv'
      rcases h with h | h
      · obtain ⟨rfl, rfl⟩ := Prod.mk.inj h
        cases v <;> simp [postgres, SqlText.convert] at hv'
        · obtain ⟨s, -, rfl⟩ := hv'
          trivial
        · subst hv'
          trivial
      · obtain ⟨rfl, rfl⟩ := Prod.mk.inj h
        cases v <;> simp [postgres, SqlText.convert] at hv'
        · subst hv'
          trivial
        · subst hv'
          trivial
  | _ => trivial

theorem wellTyped (r : Revision) :
    (∀ st ∈ r.upgrade, WellTyped st) ∧ ∀ st ∈ r.downgrade, WellTyped st := by
  cases r <;> decide +kernel

/-! ### The invariant -/

namespace Deployment

/-- **The schema is that of the revision, and the rows fit it.** -/
structure Sound (jsonb : String → Option String) (d : Deployment) : Prop where
  schema : schemaAt (position d.revision) = some d.db.schema
  fits : Fits (postgres jsonb) d.db.schema d.db.data

variable {jsonb : String → Option String} {d d' : Deployment}

theorem sound_new : Sound jsonb new where
  schema := rfl
  fits := by
    refine ⟨?_, fun _ _ => rfl, ?_, ?_, ?_, ?_, ?_, ?_⟩
    · rintro t k ((⟨key, hkey, -⟩ | ⟨fk, hfk, -⟩ | ⟨ix, hix, -⟩) | ⟨fk, hfk, -⟩)
      · exact absurd hkey (Finset.notMem_empty key)
      · exact absurd hfk (Finset.notMem_empty fk)
      · exact absurd hix (Finset.notMem_empty ix)
      · exact absurd hfk (Finset.notMem_empty fk)
    · exact fun t r hr => absurd hr List.not_mem_nil
    · exact fun c hc => absurd hc (Finset.notMem_empty c)
    · exact fun c hc => absurd hc (Finset.notMem_empty c)
    · exact fun key hkey => absurd hkey (Finset.notMem_empty key)
    · exact fun ix hix => absurd hix (Finset.notMem_empty ix)
    · exact fun fk hfk => absurd hfk (Finset.notMem_empty fk)

/-- What an upgrade by one revision is. -/
theorem up_eq_some (h : d.up jsonb = some d') :
    (Revision.next d.revision = none ∧ d' = d) ∨
      ∃ r, Revision.next d.revision = some r ∧ d'.revision = some r ∧
        d.db.executeAll (postgres jsonb) r.upgrade = some d'.db := by
  rw [up] at h
  split at h
  · rename_i hnext
    exact Or.inl ⟨hnext, (Option.some.inj h).symm⟩
  · rename_i r hnext
    obtain ⟨db, hdb, rfl⟩ := Option.map_eq_some_iff.mp h
    exact Or.inr ⟨r, hnext, rfl, hdb⟩

/-- What a downgrade by one revision is. -/
theorem down_eq_some (h : d.down jsonb = some d') :
    (d.revision = none ∧ d' = d) ∨
      ∃ r, d.revision = some r ∧ d'.revision = r.downRevision ∧
        d.db.executeAll (postgres jsonb) r.downgrade = some d'.db := by
  rw [down] at h
  split at h
  · rename_i hnone
    exact Or.inl ⟨hnone, (Option.some.inj h).symm⟩
  · rename_i r hr
    obtain ⟨db, hdb, rfl⟩ := Option.map_eq_some_iff.mp h
    exact Or.inr ⟨r, hr, rfl, hdb⟩

end Deployment

/-- The statements of a revision take its schema where its place in the history does. -/
theorem schemaAt_next {cur : Option Revision} {r : Revision} {S : SqlSchema}
    (hnext : Revision.next cur = some r) (hS : schemaAt (position cur) = some S) :
    schemaAt (position (some r)) = S.applyAll r.upgrade := by
  rw [position_next hnext, schemaAt, hS, Option.bind_some, ← next_eq, hnext]
  rfl

theorem steady {cur : Option Revision} {S : SqlSchema} (hS : schemaAt (position cur) = some S) :
    Steady (position cur) S :=
  schemas.2 _ (List.mem_range.mpr (Nat.lt_succ_of_le (position_le cur))) S hS

/-- The revisions only lead to schemas there are. -/
theorem schemaAt_isSome (n : ℕ) : (schemaAt n).isSome = true := by
  have hhead : (schemaAt history.length).isSome = true := by
    rw [← Option.isSome_map, schemas.1]
    rfl
  -- Every earlier schema is on the way to the head, and there is nothing beyond it.
  have hbefore : ∀ m n, (schemaAt (n + m)).isSome = true → (schemaAt n).isSome = true := by
    intro m
    induction m with
    | zero => exact fun n h => h
    | succ m ih =>
        intro n h
        obtain ⟨S, hS⟩ := Option.isSome_iff_exists.mp (ih (n + 1) (by rwa [Nat.add_right_comm]))
        obtain ⟨S₀, hS₀, -⟩ := Option.bind_eq_some_iff.mp hS
        exact Option.isSome_iff_exists.mpr ⟨S₀, hS₀⟩
  have hbeyond : ∀ m, (schemaAt (history.length + m)).isSome = true := by
    intro m
    induction m with
    | zero => exact hhead
    | succ m ih =>
        obtain ⟨S, hS⟩ := Option.isSome_iff_exists.mp ih
        rw [← Nat.add_assoc, schemaAt, hS, List.getElem?_eq_none (Nat.le_add_right _ m)]
        rfl
  rcases Nat.le_total n history.length with hn | hn
  · obtain ⟨m, hm⟩ := Nat.exists_eq_add_of_le hn
    exact hbefore m n (hm ▸ hhead)
  · obtain ⟨m, rfl⟩ := Nat.exists_eq_add_of_le hn
    exact hbeyond m

theorem schemaAt_down {r : Revision} {S : SqlSchema} (hS : schemaAt (position (some r)) = some S) :
    S.applyAll r.downgrade = schemaAt (position r.downRevision) := by
  obtain ⟨S₀, hS₀⟩ := Option.isSome_iff_exists.mp (schemaAt_isSome (position r.downRevision))
  have hback := (steady hS₀).back
  rw [← next_eq, next_downRevision] at hback
  have hup := schemaAt_next (next_downRevision r) hS₀
  rw [hS] at hup
  rw [hS₀, ← hback, Option.elim_some, Option.elim_some, ← hup, Option.bind_some]

namespace Deployment

variable {jsonb : String → Option String} {d d' : Deployment}

theorem Sound.up (h : Sound jsonb d) (hup : d.up jsonb = some d') : Sound jsonb d' := by
  rcases up_eq_some hup with ⟨-, rfl⟩ | ⟨r, hnext, hr, hdb⟩
  · exact h
  · refine ⟨?_, Database.fits_executeAll h.fits (fun st hst => ?_) hdb⟩
    · rw [hr, schemaAt_next hnext h.schema, Database.executeAll_schema hdb]
    · exact ((wellTyped r).1 st hst).sound jsonb

theorem Sound.down (h : Sound jsonb d) (hdown : d.down jsonb = some d') : Sound jsonb d' := by
  rcases down_eq_some hdown with ⟨-, rfl⟩ | ⟨r, hcur, hr, hdb⟩
  · exact h
  · refine ⟨?_, Database.fits_executeAll h.fits (fun st hst => ?_) hdb⟩
    · rw [hr, ← schemaAt_down (hcur ▸ h.schema), Database.executeAll_schema hdb]
    · exact ((wellTyped r).2 st hst).sound jsonb

theorem Sound.upgrade {n : ℕ} (h : Sound jsonb d) (hup : d.upgrade jsonb n = some d') :
    Sound jsonb d' := by
  induction n generalizing d with
  | zero =>
      obtain rfl := Option.some.inj hup
      exact h
  | succ n ih =>
      obtain ⟨d₁, h₁, h₂⟩ := Option.bind_eq_some_iff.mp hup
      exact ih (h.up h₁) h₂

theorem Sound.downgrade {n : ℕ} (h : Sound jsonb d) (hdown : d.downgrade jsonb n = some d') :
    Sound jsonb d' := by
  induction n generalizing d with
  | zero =>
      obtain rfl := Option.some.inj hdown
      exact h
  | succ n ih =>
      obtain ⟨d₁, h₁, h₂⟩ := Option.bind_eq_some_iff.mp hdown
      exact ih (h.down h₁) h₂

/-- Every step keeps a deployment sound. -/
theorem Sound.step {l : Label} (h : Sound jsonb d) (hl : Accepts jsonb d l)
    (hstep : d.step jsonb l = some d') : Sound jsonb d' := by
  cases l with
  | upgrade n => exact h.upgrade hstep
  | downgrade n => exact h.downgrade hstep
  | write data =>
      obtain rfl := Option.some.inj hstep
      exact ⟨h.schema, hl⟩

theorem Reachable.sound (h : Reachable jsonb d) : Sound jsonb d :=
  h.invariant sound_new fun _ _ _ hd hl hstep => hd.step hl hstep

/-- At the head the schema is what the models declare, but for the server defaults. -/
theorem Sound.models (h : Sound jsonb d) (hhead : d.revision = some head) :
    withoutDefaults d.db.schema = withoutDefaults metadata := by
  have hschema := h.schema
  rw [hhead, show position (some head) = history.length from rfl] at hschema
  have hmodels := schemas.1
  rw [hschema] at hmodels
  exact Option.some.inj hmodels

/-- **In every run the schema is that of the recorded revision, the rows fit it, and at the head it
is what the models declare**, but for the server defaults. -/
theorem reachable_schema (h : Reachable jsonb d) :
    schemaAt (position d.revision) = some d.db.schema ∧
      Fits (postgres jsonb) d.db.schema d.db.data ∧
      (d.revision = some head → withoutDefaults d.db.schema = withoutDefaults metadata) := by
  have hd := h.sound
  exact ⟨hd.schema, hd.fits, hd.models⟩

end Deployment

end BackendTemplate.Migrations
