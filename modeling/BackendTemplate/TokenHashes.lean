import BackendTemplate.Identities

/-!
# The Unique Index on Token Hashes

The `refresh_tokens` table has a unique index on the hash. A statement that would break it
raises, and one that meets a hash another open transaction has just inserted waits. So the
hashes stay unique whatever the schedule (`Runs.hashes`): not only in the committed table,
but in the table as each open transaction sees it, which is what keeps two transactions
from committing the same hash one after the other.

## Main results

* `view_hashes` — the hashes after a sequence of statements.
* `Runs.hashes` — the index holds in every reachable configuration.
-/

namespace BackendTemplate

open Atomic

variable {env : Env} {db db' : Db}

/-! ### The hashes statements bring -/

/-- The hashes in the `refresh_tokens` table. -/
def Db.hashes (db : Db) : List Bytes := db.refreshTokens.map RefreshTokenRow.tokenHash

/-- The hash of the row a statement adds to `refresh_tokens`, if it adds one. -/
def Write.newHash (db : Db) : Write → Option Bytes
  | .tokenInsert row => some row.tokenHash
  | .tokenUpsert row => if (db.token row.id).isSome then none else some row.tokenHash
  | _ => none

/-- The hashes a sequence of statements adds to `refresh_tokens`. -/
def newHashes : Db → List Write → List Bytes
  | _, [] => []
  | db, w :: ws => (w.newHash db).toList ++ newHashes (db.apply w) ws

/-- A row is under an id exactly when the id is looked up. -/
theorem token_isSome (db : Db) (x : Uuid) :
    (db.token x).isSome = db.refreshTokens.any fun r => r.id = x := by
  rw [Bool.eq_iff_iff, Db.token, Keyed.lookup, List.find?_isSome, List.any_eq_true]

theorem apply_hashes (db : Db) (w : Write) :
    (db.apply w).hashes = db.hashes ++ (w.newHash db).toList := by
  cases w with
  | tokenInsert row => simp [Db.apply, Db.hashes, Write.newHash]
  | tokenUpsert row =>
      change (upsertToken db.refreshTokens row).map RefreshTokenRow.tokenHash = _
      rw [Write.newHash, upsertToken, ← token_isSome]
      by_cases h : (db.token row.id).isSome
      · rw [if_pos h, if_pos h, List.map_map]
        refine (List.map_congr_left fun r _ => ?_).trans (List.append_nil _).symm
        by_cases hr : r.id = row.id
        · simp [hr, RefreshTokenRow.set]
        · simp [hr]
      · rw [if_neg h, if_neg h]
        simp [Db.hashes]
  | _ => exact (List.append_nil _).symm

/-- **The hashes after a sequence of statements.** -/
theorem view_hashes (db : Db) (ws : List Write) :
    (RowLocks.view Db.apply db ws).hashes = db.hashes ++ newHashes db ws := by
  induction ws generalizing db with
  | nil => exact (List.append_nil _).symm
  | cons w ws ih =>
      calc (RowLocks.view Db.apply db (w :: ws)).hashes
          = (RowLocks.view Db.apply (db.apply w) ws).hashes := rfl
        _ = (db.apply w).hashes ++ newHashes (db.apply w) ws := ih _
        _ = db.hashes ++ newHashes db (w :: ws) := by
            rw [apply_hashes, List.append_assoc, newHashes]

theorem newHash_keys {w : Write} {h : Bytes} (hw : w.newHash db = some h) :
    .tokenHash h ∈ w.keys := by
  cases w with
  | tokenInsert row =>
      obtain rfl := Option.some.inj hw
      simp [Write.keys]
  | tokenUpsert row =>
      rw [Write.newHash] at hw
      split at hw
      · cases hw
      · obtain rfl := Option.some.inj hw
        simp [Write.keys]
  | _ => cases hw

/-- A hash that statements bring is locked by them. -/
theorem newHashes_held {ws : List Write} {h : Bytes} (hh : h ∈ newHashes db ws) :
    RowLocks.Holds Write.keys ws (.tokenHash h) := by
  induction ws generalizing db with
  | nil => exact absurd hh List.not_mem_nil
  | cons w ws ih =>
      rcases List.mem_append.mp hh with hh | hh
      · exact ⟨w, List.mem_cons_self, newHash_keys (Option.mem_toList.mp hh)⟩
      · obtain ⟨w', hw', hk⟩ := ih hh
        exact ⟨w', List.mem_cons_of_mem _ hw', hk⟩

/-- Whether a statement leaves a row under an id depends on whether there was one. -/
theorem onToken_isSome {x : Uuid} {old old' : Option RefreshTokenRow}
    (h : old.isSome = old'.isSome) (w : Write) :
    (w.onToken x old).isSome = (w.onToken x old').isSome := by
  cases w with
  | tokenInsert row => simp only [Write.onToken, Option.isSome_or, h]
  | tokenUpsert row =>
      simp only [Write.onToken]
      split
      · rfl
      · exact h
  | _ => exact h

/-- What statements bring depends only on which of the rows they lock exist. -/
theorem newHashes_congr {ws : List Write}
    (h : ∀ x, RowLocks.Holds Write.keys ws (.token x) →
      (db.token x).isSome = (db'.token x).isSome) :
    newHashes db ws = newHashes db' ws := by
  induction ws generalizing db db' with
  | nil => rfl
  | cons w ws ih =>
      have hw : w.newHash db = w.newHash db' := by
        cases w with
        | tokenUpsert row =>
            have := h row.id ⟨_, List.mem_cons_self, by simp [Write.keys]⟩
            rw [Write.newHash, Write.newHash, this]
        | _ => rfl
      have hws : newHashes (db.apply w) ws = newHashes (db'.apply w) ws := by
        refine ih fun x hx => ?_
        obtain ⟨w', hw', hk⟩ := hx
        rw [apply_token, apply_token]
        exact onToken_isSome (h x ⟨w', List.mem_cons_of_mem _ hw', hk⟩) w
      rw [newHashes, newHashes, hw, hws]

/-- **A statement that passes the constraints keeps the index.** -/
theorem admits_hashes {w : Write} (hn : db.hashes.Nodup) (h : db.admits w = true) :
    (db.apply w).hashes.Nodup := by
  have happend : ∀ row : RefreshTokenRow,
      (!db.refreshTokens.any fun r => r.tokenHash = row.tokenHash) = true →
        (db.hashes ++ [row.tokenHash]).Nodup := by
    intro row hrow
    rw [Bool.not_eq_true', List.any_eq_false] at hrow
    refine List.nodup_append.mpr ⟨hn, List.nodup_singleton _, ?_⟩
    rintro a ha b hb rfl
    rw [List.mem_singleton] at hb
    obtain ⟨r, hr, hra⟩ := List.mem_map.mp ha
    exact hrow r hr (by simp [hra, hb])
  rw [apply_hashes]
  cases w with
  | tokenInsert row =>
      refine happend row ?_
      rw [Db.admits, Bool.and_eq_true, Bool.not_eq_true', List.any_eq_false] at h
      rw [Bool.not_eq_true', List.any_eq_false]
      intro r hr hrow
      exact h.1 r hr (by simp_all)
  | tokenUpsert row =>
      rw [Db.admits, ← token_isSome, Bool.or_eq_true, Bool.and_eq_true] at h
      rw [Write.newHash]
      split
      · exact (List.append_nil _).symm ▸ hn
      · rcases h with h | h
        · rename_i hne
          exact absurd h hne
        · exact happend row h.1
  | _ => exact (List.append_nil _).symm ▸ hn

theorem admitsAll_hashes {ws : List Write} (hn : db.hashes.Nodup)
    (h : db.admitsAll ws = true) : (RowLocks.view Db.apply db ws).hashes.Nodup := by
  induction ws generalizing db with
  | nil => exact hn
  | cons w ws ih =>
      rw [Db.admitsAll, Bool.and_eq_true] at h
      exact ih (admits_hashes hn h.1) h.2

/-! ### The index along a run -/

section Runs

variable {ι : Type}

/-- The index holds in the committed table and in the view of every open transaction. -/
structure Indexed (w : World ι) : Prop where
  committed : w.db.hashes.Nodup
  views : ∀ i, (w.view i).hashes.Nodup

variable [DecidableEq ι]

/-- Statements that pass the constraints keep the index. -/
theorem Indexed.issue {w w' : World ι} (h : Indexed w) (i : ι) (ws : List Write)
    (hdb : w'.db = w.db)
    (hpend : w'.pending = Function.update w.pending i (w.pending i ++ ws))
    (hi : (RowLocks.view Db.apply (w.view i) ws).hashes.Nodup) : Indexed w' where
  committed := hdb ▸ h.committed
  views j := by
    by_cases hj : j = i
    · subst hj
      rw [view_eq, hdb, hpend, Function.update_self, RowLocks.view_append]
      exact hi
    · rw [view_eq, hdb, hpend, Function.update_of_ne hj]
      exact h.views j

/-- The end of a transaction keeps the index. -/
theorem Indexed.rollback {w : World ι} (h : Indexed w) (i : ι) : Indexed (w.rollback i) where
  committed := h.committed
  views j := by
    by_cases hj : j = i
    · subst hj
      rw [view_eq, rollback_pending, Function.update_self]
      exact h.committed
    · rw [view_eq, rollback_pending, Function.update_of_ne hj]
      exact h.views j

/-- **A commit keeps the index**: the hashes it brings are locked, so no other open
transaction brings them too. -/
theorem Indexed.commit {w : World ι} (h : Indexed w)
    (hex : RowLocks.Exclusive Write.keys w.pending) (i : ι) : Indexed (w.commit env i) := by
  have hhashes : (w.commit env i).db.hashes = (w.view i).hashes := by
    rw [Db.hashes, Db.hashes, (commit_tables env w i).2.2]
  refine ⟨hhashes ▸ h.views i, fun j => ?_⟩
  rw [view_eq, commit_pending]
  by_cases hj : j = i
  · subst hj
    rw [Function.update_self, RowLocks.view_nil, hhashes]
    exact h.views j
  · have hsame : newHashes (w.commit env i).db (w.pending j) = newHashes w.db (w.pending j) := by
      refine newHashes_congr fun x hx => ?_
      rw [commit_token, view_eq]
      have := hex.view_eq (token_guarded x) hj hx w.db
      exact congrArg Option.isSome this
    have hj' := h.views j
    have hi' := h.views i
    rw [view_eq, view_hashes] at hj' hi'
    rw [Function.update_of_ne hj, view_hashes, hsame, hhashes, view_eq, view_hashes]
    refine List.nodup_append.mpr ⟨hi', (List.nodup_append.mp hj').2.1, ?_⟩
    rintro a ha b hb rfl
    rcases List.mem_append.mp ha with ha | ha
    · exact (List.nodup_append.mp hj').2.2 a ha a hb rfl
    · exact hex j i hj _ (newHashes_held hb) (newHashes_held ha)

variable [Fintype ι] {reqs : ι → Request} {C : Steps ι} {w : World ι} {c : Cfg ι}

/-- **Token hashes are unique along every run.** -/
theorem Runs.hashes (h : Runs env reqs C w c) (hw : Startable env w) : Indexed c.shared := by
  refine h.induction (fun c => Indexed c.shared) ?_ ?_ ?_ ?_
  · refine ⟨hw.hashes, fun i => ?_⟩
    rw [start_shared, view_eq, hw.idle i]
    exact hw.hashes
  · intro c i ch o k x w' hr hi _ _ _ he
    rw [afterCall_shared]
    by_cases ho : o.writes = false
    · obtain ⟨hdb, hpend, -⟩ := exec_quiet ho he
      refine hi.issue i [] hdb ?_ (hi.views i)
      rw [hpend, List.append_nil, Function.update_eq_self]
    · cases o with
      | updateUser u =>
          rcases exec_updateUser he with ⟨e, rfl, -, rfl⟩ | ⟨rfl, -, -, rfl⟩
          · exact hi
          · exact hi.issue i [.userUpdate (userToValues env c.shared.rng u (u.version + 1))]
              rfl (by simp) (hi.views i)
      | addUser u =>
          rcases exec_addUser he with ⟨e, rfl, rfl⟩ | ⟨rfl, -, rfl⟩
          · exact hi
          · exact hi.issue i [.userInsert (userToValues env c.shared.rng u 0)] rfl (by simp)
              (hi.views i)
      | addSession s =>
          rcases exec_addSession he with ⟨rfl, rfl⟩ | ⟨rfl, -, had, rfl⟩
          · exact hi
          · exact hi.issue i _ rfl (by simp) (admitsAll_hashes (hi.views i) had)
      | updateSession s =>
          rcases exec_updateSession he with ⟨rfl, rfl⟩ | ⟨rfl, -, had, rfl⟩
          · exact hi
          · exact hi.issue i _ rfl (by simp) (admitsAll_hashes (hi.views i) had)
      | commit =>
          rcases exec_commit he with ⟨rfl, rfl⟩ | ⟨rfl, rfl⟩
          · exact hi.rollback i
          · exact hi.commit (hr.sound hw.idle).exclusive i
      | _ => exact absurd rfl ho
  · exact fun c i ch x _ hi _ _ _ => hi.rollback i
  · exact fun c d _ hi _ => ⟨hi.committed, hi.views⟩

/-- Two rows of the table with one hash are one row. -/
theorem eq_of_hash {r r' : RefreshTokenRow} (hn : db.hashes.Nodup) (hr : r ∈ db.refreshTokens)
    (hr' : r' ∈ db.refreshTokens) (h : r.tokenHash = r'.tokenHash) : r = r' :=
  List.inj_on_of_nodup_map hn hr hr' h

end Runs

end BackendTemplate
