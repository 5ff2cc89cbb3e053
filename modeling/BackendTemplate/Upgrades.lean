import BackendTemplate.Deployments
import Mathlib.Data.List.Flatten

/-!
# Upgrades and Downgrades

When a deployment can be upgraded, what an upgrade does to the rows, and what a downgrade gives
back.

Three revisions ask something of the rows (`Revision.Ready`). Nothing in the history disturbs what
they look at, so it can be asked of the rows as they are before the command, and a single
transaction to the head goes through exactly if it holds of all the revisions that are pending.
-/

namespace BackendTemplate.Migrations

open Relational

variable {jsonb : String → Option String} {d d' : Deployment}

/-! ### When an upgrade goes through -/

/-- What a revision asks of the rows. -/
def Revision.Ready (jsonb : String → Option String) (data : SqlData) : Revision → Prop
  | .addForeignKeys => ∀ fk ∈ addedForeignKeys, fk.Holds data
  | .addOutboxRetry =>
      ∀ row ∈ data .outboxEvents, ∀ v ∈ row .payload,
        (SqlText.payloadJsonb.convert jsonb v).isSome = true
  | .addUserVersionAndIndexes => UniqueOn [.tokenHash] (data .refreshTokens)
  | _ => True

theorem Revision.ready_iff (r : Revision) (data : SqlData) :
    (∀ st ∈ r.upgrade, st.Passes (postgres jsonb) data) ↔ r.Ready jsonb data := by
  cases r <;>
    simp [Revision.upgrade, Revision.Ready, Ddl.Passes, securityColumns, defaulted, optional,
      createOauthClients, createSigningKeys, index, auditLogsEntity, outboxEventsUnprocessed,
      refreshTokensTokenHash, authorizationCodesSessionId, postgres]

/-- The revisions of a command. -/
def pending (cur : Option Revision) (n : ℕ) : List Revision := (history.drop (position cur)).take n

/-- A command is one transaction. -/
theorem upgrade_eq (n : ℕ) (d : Deployment) :
    (d.upgrade jsonb n).map Deployment.db =
      d.db.executeAll (postgres jsonb) ((pending d.revision n).flatMap Revision.upgrade) := by
  induction n generalizing d with
  | zero => rfl
  | succ n ih =>
      rw [Deployment.upgrade, Deployment.up, pending]
      cases hnext : Revision.next d.revision with
      | none =>
          have hdrop : history.drop (position d.revision) = [] :=
            List.drop_eq_nil_iff.mpr (List.getElem?_eq_none_iff.mp (next_eq _ ▸ hnext))
          rw [hdrop, Option.bind_some, ih, pending, hdrop, List.take_nil, List.take_nil]
      | some r =>
          have hget : history[position d.revision]? = some r := next_eq _ ▸ hnext
          have hdrop : history.drop (position d.revision) =
              r :: history.drop (position (some r)) := by
            obtain ⟨hlt, hget⟩ := List.getElem?_eq_some_iff.mp hget
            rw [List.drop_eq_getElem_cons hlt, hget, position_next hnext]
          rw [hdrop, List.take_succ_cons, List.flatMap_cons, Database.executeAll_append]
          dsimp only
          cases hdb : d.db.executeAll (postgres jsonb) r.upgrade with
          | none => rfl
          | some db => exact ih ⟨some r, db⟩

/-- The schema allows every command. -/
theorem applyAll_pending {S : SqlSchema} {cur : Option Revision}
    (hS : schemaAt (position cur) = some S) (n : ℕ) :
    S.applyAll ((pending cur n).flatMap Revision.upgrade) = schemaAt (position cur + n) := by
  induction n with
  | zero => exact hS.symm
  | succ n ih =>
      rw [pending, List.take_add_one, List.flatMap_append, Schema.applyAll_append, ← pending, ih,
        List.getElem?_drop, ← Nat.add_assoc, schemaAt]
      refine congrArg _ (funext fun S => ?_)
      cases history[position cur + n]? with
      | none => rfl
      | some r => rw [Option.toList_some, List.flatMap_singleton, Option.elim_some]

/-- Nothing in the history disturbs what comes later. -/
theorem history_undisturbed :
    (history.flatMap Revision.upgrade).Pairwise fun st st' => ¬ st.Disturbs st' := by
  decide +kernel

theorem pending_sublist (cur : Option Revision) (n : ℕ) : (pending cur n).Sublist history :=
  (List.take_sublist _ _).trans (List.drop_sublist _ _)

theorem upgrade_passes_iff (hd : d.Sound jsonb) (n : ℕ) :
    (d.upgrade jsonb n).isSome = true ↔
      ∀ r ∈ pending d.revision n, r.Ready jsonb d.db.data := by
  have hschema : (d.db.schema.applyAll ((pending d.revision n).flatMap Revision.upgrade)).isSome =
      true := by
    rw [applyAll_pending hd.schema]
    exact schemaAt_isSome _
  have hpairs := history_undisturbed.sublist ((pending_sublist d.revision n).flatMap _)
  rw [← Option.isSome_map, upgrade_eq, executeAll_isSome_iff hschema hpairs, List.forall_mem_flatMap]
  exact forall₂_congr fun r _ => r.ready_iff d.db.data

/-- Empty tables are ready for every revision. -/
theorem upgrade_new (jsonb : String → Option String) (n : ℕ) :
    ∃ d, Deployment.new.upgrade jsonb n = some d := by
  refine Option.isSome_iff_exists.mp ((upgrade_passes_iff Deployment.sound_new n).mpr fun r _ => ?_)
  cases r with
  | addForeignKeys => exact fun fk _ row hrow => absurd hrow List.not_mem_nil
  | addOutboxRetry => exact fun row hrow => absurd hrow List.not_mem_nil
  | addUserVersionAndIndexes => exact List.Pairwise.nil
  | _ => trivial

/-! ### Downgrades always go through -/

theorem downgrade_undisturbed (r : Revision) :
    r.downgrade.Pairwise fun st st' => ¬ st.Disturbs st' := by
  cases r <;> decide +kernel

/-- What a payload is, it casts to `json`. -/
theorem payload_casts {S : SqlSchema} {data : SqlData} (hfits : Fits (postgres jsonb) S data)
    (hS : ∀ c ∈ S.columns, c.table = .outboxEvents → c.name = .payload →
      c.type = .json ∨ c.type = .jsonb) :
    ∀ row ∈ data .outboxEvents, ∀ v ∈ row .payload,
      (SqlText.payloadJson.convert jsonb v).isSome = true := by
  intro row hrow v hv
  have hhas : S.Has .outboxEvents .payload := by
    by_contra hno
    rw [hfits.columns _ row hrow _ hno] at hv
    exact absurd hv (Option.not_mem_none v)
  obtain ⟨c, hc, htable, hname⟩ := hhas
  have htype := hfits.types c hc row (htable ▸ hrow) v (hname ▸ hv)
  rcases hS c hc htable hname with hjson | hjson
  · rw [hjson] at htype
    cases v <;> first | rfl | exact absurd htype id
  · rw [hjson] at htype
    cases v <;> first | rfl | exact absurd htype id

theorem down_passes {r : Revision} (hd : d.Sound jsonb) (hr : d.revision = some r) :
    ∀ st ∈ r.downgrade, st.Passes (postgres jsonb) d.db.data := by
  have hS := hr ▸ hd.schema
  by_cases hcodes : r = .dropOauthAndKeysTables
  · subst hcodes
    have hempty : d.db.data .authorizationCodes = [] :=
      hd.fits.tables _ ((steady hS).codes (by decide))
    have hholds : ∀ fk : SqlForeignKey, fk.table = .authorizationCodes → fk.Holds d.db.data := by
      intro fk hfk row hrow
      rw [hfk, hempty] at hrow
      exact absurd hrow List.not_mem_nil
    simp [Revision.downgrade, Ddl.Passes, createOauthClients, createSigningKeys, index,
      hholds authorizationCodesClient rfl, hholds authorizationCodesUser rfl]
  · by_cases hpayload : r = .addOutboxRetry
    · subst hpayload
      have hcasts := payload_casts hd.fits (steady hS).payload
      simpa [Revision.downgrade, Ddl.Passes, postgres] using hcasts
    · cases r <;> simp_all [Revision.downgrade, Ddl.Passes, index, optional]

theorem down_isSome (hd : d.Sound jsonb) : (d.down jsonb).isSome = true := by
  rw [Deployment.down]
  cases hr : d.revision with
  | none => rfl
  | some r =>
      have hschema : (d.db.schema.applyAll r.downgrade).isSome = true := by
        rw [schemaAt_down (hr ▸ hd.schema)]
        exact schemaAt_isSome _
      dsimp only
      rw [Option.isSome_map, executeAll_isSome_iff hschema (downgrade_undisturbed r)]
      exact down_passes hd hr

theorem downgrade_isSome (hd : d.Sound jsonb) (n : ℕ) : (d.downgrade jsonb n).isSome = true := by
  induction n generalizing d with
  | zero => rfl
  | succ n ih =>
      obtain ⟨d₁, h₁⟩ := Option.isSome_iff_exists.mp (down_isSome hd)
      rw [Deployment.downgrade, h₁]
      exact ih (hd.down h₁)

/-! ### What is kept -/

/-- The column is there, and no revision gives it up. -/
structure Kept (d : Deployment) (t : TableName) (k : ColumnName) : Prop where
  has : d.db.schema.Has t k
  lasting : ¬ Replaced t k

/-- An upgrade by one revision keeps a column, and what is in it. -/
theorem Kept.up {t : TableName} {k : ColumnName} (hk : Kept d t k) (hd : d.Sound jsonb)
    (h : d.up jsonb = some d') :
    Kept d' t k ∧ d'.db.data.column t k = d.db.data.column t k := by
  rcases Deployment.up_eq_some h with ⟨-, rfl⟩ | ⟨r, hnext, hr, hdb⟩
  · exact ⟨hk, rfl⟩
  · have hno : ∀ st ∈ r.upgrade, ¬ st.Touches t k := by
      obtain ⟨c, hc, rfl, rfl⟩ := hk.has
      have hkept := ((steady hd.schema).kept c hc hk.lasting).1
      rwa [← next_eq, hnext] at hkept
    exact ⟨⟨hk.has.applyAll (Database.executeAll_schema hdb) hno, hk.lasting⟩,
      column_executeAll hdb hno⟩

theorem Kept.upgrade {t : TableName} {k : ColumnName} {n : ℕ} (hk : Kept d t k)
    (hd : d.Sound jsonb) (h : d.upgrade jsonb n = some d') :
    Kept d' t k ∧ d'.db.data.column t k = d.db.data.column t k := by
  induction n generalizing d with
  | zero =>
      obtain rfl := Option.some.inj h
      exact ⟨hk, rfl⟩
  | succ n ih =>
      obtain ⟨d₁, h₁, h₂⟩ := Option.bind_eq_some_iff.mp h
      obtain ⟨hk₁, hcolumn⟩ := hk.up hd h₁
      obtain ⟨hk', hcolumn'⟩ := ih hk₁ (hd.up h₁) h₂
      exact ⟨hk', hcolumn'.trans hcolumn⟩

/-- A column that is there after a downgrade by one revision was there before. -/
theorem Kept.of_down {t : TableName} {k : ColumnName} (hk : Kept d' t k) (hd : d.Sound jsonb)
    (h : d.down jsonb = some d') :
    Kept d t k ∧ d'.db.data.column t k = d.db.data.column t k := by
  have hd' := hd.down h
  rcases Deployment.down_eq_some h with ⟨-, rfl⟩ | ⟨r, hr, hr', hdb⟩
  · exact ⟨hk, rfl⟩
  · have hS := hr' ▸ hd'.schema
    have hnext := next_eq r.downRevision ▸ next_downRevision r
    have hno : (∀ st ∈ r.upgrade, ¬ st.Touches t k) ∧ ∀ st ∈ r.downgrade, ¬ st.Touches t k := by
      obtain ⟨c, hc, rfl, rfl⟩ := hk.has
      have hkept := (steady hS).kept c hc hk.lasting
      rwa [hnext] at hkept
    have hS₁ := hr ▸ hd.schema
    have hup := schemaAt_next (next_downRevision r) hS
    rw [hS₁] at hup
    exact ⟨⟨hk.has.applyAll hup.symm hno.1, hk.lasting⟩, column_executeAll hdb hno.2⟩

theorem Kept.of_downgrade {t : TableName} {k : ColumnName} {n : ℕ} (hk : Kept d' t k)
    (hd : d.Sound jsonb) (h : d.downgrade jsonb n = some d') :
    Kept d t k ∧ d'.db.data.column t k = d.db.data.column t k := by
  induction n generalizing d with
  | zero =>
      obtain rfl := Option.some.inj h
      exact ⟨hk, rfl⟩
  | succ n ih =>
      obtain ⟨d₁, h₁, h₂⟩ := Option.bind_eq_some_iff.mp h
      obtain ⟨hk₁, hcolumn⟩ := ih (hd.down h₁) h₂
      obtain ⟨hk₀, hcolumn₀⟩ := hk₁.of_down hd h₁
      exact ⟨hk₀, hcolumn.trans hcolumn₀⟩

/-! ### What an upgrade does -/

/-- Where users keep tokens, seeds and recovery codes, and since when they have a second factor. -/
def secretColumns : List ColumnName :=
  [.emailVerificationTokenHash, .passwordResetTokenHash, .twoFactorSecret, .twoFactorBackupCodes,
    .twoFactorEnabledAt]

/-- The revisions of a command come in order. -/
theorem pending_ordered {cur : Option Revision} {n : ℕ} {before after : List Revision} {r : Revision}
    (h : pending cur n = before ++ r :: after) :
    (∀ r' ∈ before, position (some r') < position (some r)) ∧
      ∀ r' ∈ after, position (some r) < position (some r') := by
  have hordered : history.Pairwise fun r r' => position (some r) < position (some r') := by decide
  have hpending := hordered.sublist (pending_sublist cur n)
  rw [h, List.pairwise_append, List.pairwise_cons] at hpending
  exact ⟨fun r' hr' => hpending.2.2 r' hr' r List.mem_cons_self, hpending.2.1.1⟩

theorem secrets_emptied :
    ∀ k ∈ secretColumns, Ddl.LeavesEmpty .users k Revision.hashAndEncryptUserSecrets.upgrade := by
  decide +kernel

theorem secrets_untouched {r : Revision}
    (h : position (some .hashAndEncryptUserSecrets) < position (some r)) :
    ∀ st ∈ r.upgrade, ∀ k ∈ secretColumns, ¬ st.Touches .users k := by
  revert h
  cases r <;> decide +kernel

/-- The secrets of before `hash_and_encrypt_user_secrets` are gone after it. -/
theorem secrets_gone {n : ℕ} (h : d.upgrade jsonb n = some d')
    (hr : Revision.hashAndEncryptUserSecrets ∈ pending d.revision n) :
    ∀ k ∈ secretColumns, ∀ row ∈ d'.db.data .users, row k = none := by
  intro k hk
  obtain ⟨before, after, hpending⟩ := List.append_of_mem hr
  have hexecute : (d.upgrade jsonb n).map Deployment.db = _ := upgrade_eq n d
  rw [h, hpending, List.flatMap_append, List.flatMap_cons] at hexecute
  obtain ⟨db₁, -, h₂⟩ := Database.executeAll_append_eq_some.mp hexecute.symm
  obtain ⟨db₂, h₂, h₃⟩ := Database.executeAll_append_eq_some.mp h₂
  refine cells_executeAll (P := fun v => v = none) h₃ ?_
    (cells_leavesEmpty h₂ (secrets_emptied k hk))
  -- What comes later is the revision that adds `users.version`.
  intro st hst
  obtain ⟨r, hr, hst⟩ := List.mem_flatMap.mp hst
  exact secrets_untouched ((pending_ordered hpending).2 r hr) st hst k hk

theorem payload_untouched {r : Revision} (h : r ≠ .addOutboxRetry) :
    ∀ st ∈ r.upgrade, ¬ st.Touches .outboxEvents .payload := by
  revert h
  cases r <;> decide +kernel

/-- `add_outbox_retry` casts the payloads, and nothing else touches them. -/
theorem payload_cast {n : ℕ} (h : d.upgrade jsonb n = some d')
    (hr : Revision.addOutboxRetry ∈ pending d.revision n) :
    d'.db.data.column .outboxEvents .payload =
      (d.db.data.column .outboxEvents .payload).map fun v =>
        v.bind (SqlText.payloadJsonb.convert jsonb) := by
  obtain ⟨before, after, hpending⟩ := List.append_of_mem hr
  have hexecute : (d.upgrade jsonb n).map Deployment.db = _ := upgrade_eq n d
  have hsplit : Revision.addOutboxRetry.upgrade =
      Revision.addOutboxRetry.upgrade.take 5 ++
        .alterType .outboxEvents .payload .jsonb .payloadJsonb ::
          Revision.addOutboxRetry.upgrade.drop 6 := rfl
  have hbefore : ∀ st ∈ Revision.addOutboxRetry.upgrade.take 5,
      ¬ st.Touches .outboxEvents .payload := by decide
  have hafter : ∀ st ∈ Revision.addOutboxRetry.upgrade.drop 6,
      ¬ st.Touches .outboxEvents .payload := by decide
  rw [h, hpending, List.flatMap_append, List.flatMap_cons, hsplit, List.append_assoc,
    ← List.append_assoc, List.cons_append] at hexecute
  refine column_alterType hexecute.symm (fun st hst => ?_) fun st hst => ?_
  · rcases List.mem_append.mp hst with hst | hst
    · obtain ⟨r, hr, hst⟩ := List.mem_flatMap.mp hst
      have hlt := (pending_ordered hpending).1 r hr
      exact payload_untouched (fun heq => absurd (heq ▸ hlt) (lt_irrefl _)) st hst
    · exact hbefore st hst
  · rcases List.mem_append.mp hst with hst | hst
    · exact hafter st hst
    · obtain ⟨r, hr, hst⟩ := List.mem_flatMap.mp hst
      have hlt := (pending_ordered hpending).2 r hr
      exact payload_untouched (fun heq => absurd (heq ▸ hlt) (lt_irrefl _)) st hst

theorem position_upgrade {n : ℕ} (h : d.upgrade jsonb n = some d') :
    position d'.revision = min (position d.revision + n) history.length := by
  induction n generalizing d with
  | zero =>
      obtain rfl := Option.some.inj h
      exact (min_eq_left (position_le d.revision)).symm
  | succ n ih =>
      obtain ⟨d₁, h₁, h₂⟩ := Option.bind_eq_some_iff.mp h
      have hrest := ih h₂
      rcases Deployment.up_eq_some h₁ with ⟨hnone, rfl⟩ | ⟨r, hnext, hr, -⟩
      · have hend := List.getElem?_eq_none_iff.mp (next_eq _ ▸ hnone)
        omega
      · have hpos := position_next hnext
        rw [hr, hpos] at hrest
        omega

theorem position_downgrade {n : ℕ} (h : d.downgrade jsonb n = some d') :
    position d'.revision = position d.revision - n := by
  induction n generalizing d with
  | zero =>
      obtain rfl := Option.some.inj h
      rfl
  | succ n ih =>
      obtain ⟨d₁, h₁, h₂⟩ := Option.bind_eq_some_iff.mp h
      have hrest := ih h₂
      rcases Deployment.down_eq_some h₁ with ⟨hnone, rfl⟩ | ⟨r, hr, hr', -⟩
      · rw [hrest, hnone, position]
        omega
      · have hpos := position_downRevision r
        rw [hr'] at hrest
        rw [hrest, hr]
        omega

theorem replaced_of_id {t : TableName} (h : Replaced t .id) (k : ColumnName) : Replaced t k := by
  cases t <;> trivial

/-- There is a deployment at the head, with empty tables. -/
theorem exists_at_head (jsonb : String → Option String) :
    ∃ d : Deployment, d.Reachable jsonb ∧ d.revision = some head ∧ d.db.data = fun _ => [] := by
  obtain ⟨d, hup⟩ := upgrade_new jsonb history.length
  have hlength : position d.revision = history.length := by
    rw [position_upgrade hup]
    rfl
  have hfits := (Deployment.sound_new.upgrade hup).fits.empty
  exact ⟨_, (Relation.ReflTransGen.single ⟨.upgrade history.length, trivial, hup⟩).tail
    ⟨.write _, hfits, rfl⟩, position_injective hlength, rfl⟩

theorem reachable_schema_head :
    ∃ d : Deployment, d.revision = some head ∧
      withoutDefaults d.db.schema = withoutDefaults metadata := by
  obtain ⟨d, h, hhead, -⟩ := exists_at_head some
  exact ⟨d, hhead, (Deployment.reachable_schema h).2.2 hhead⟩

end BackendTemplate.Migrations
