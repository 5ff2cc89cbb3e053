import BackendTemplate.Paging
import BackendTemplate.Reference

/-!
# Session Pages

A user's live sessions are listed page by page. Each request makes a SELECT of its own, which asks
for no order, and slices what it returns (`GetUserSessionsUseCase`); the client goes on while there
is more. The tables are given here by what each request meets: the rows, in some order.

## Main results

* `request_ok` — how a request is answered.
* `sessions_paged_iff` — the client always comes to an end, and it is shown every session exactly
  once if and only if the orders let it meet none on two pages.
-/

namespace BackendTemplate

open Paging

/-- `SessionReadDTO`. -/
structure SessionReadDTO where
  sessionId : Uuid
  createdAt : Instant
  expiresAt : Instant
  isRevoked : Bool
  deviceInfo : DeviceInfo
deriving DecidableEq

/-- `SessionsPage`. -/
structure SessionsPage where
  sessions : List SessionReadDTO
  total : ℕ
  limit : ℕ
  offset : ℕ
  hasMore : Bool
deriving DecidableEq

/-- A row of `sessions`, as it is read. -/
def SessionReadDTO.ofRow (row : SessionRow) : SessionReadDTO where
  sessionId := row.sessionId
  createdAt := row.createdAt
  expiresAt := row.expiresAt
  isRevoked := row.isRevoked
  deviceInfo := deviceInfoFromRow row

/-- `SQLAlchemySessionReader.get_by_user_id`. The SELECT returns the rows in the order in which it
meets them. -/
def SQLAlchemySessionReader.getByUserId (rows : List SessionRow) (userId : UserID) :
    List SessionReadDTO :=
  (rows.filter fun row => row.userId = userId.value && !row.isRevoked).map .ofRow

/-- `GetUserSessionsUseCase`. -/
def getUserSessions (rows : List SessionRow) (userId : Uuid) (limit : ℕ := 20) (offset : ℕ := 0) :
    Except AppError SessionsPage := do
  let userId ← UserID.make userId
  let allSessions := SQLAlchemySessionReader.getByUserId rows userId
  let total := allSessions.length
  let paginated := slice allSessions offset limit
  pure
    { sessions := paginated
      total := total
      limit := limit
      offset := offset
      hasMore := offset + limit < total }

/-! ### The client -/

/-- Whether the client goes on after an answer. -/
def goesOn : Except AppError SessionsPage → Bool
  | .ok page => page.hasMore
  | .error _ => false

/-- The sessions of an answer. -/
def sessionIds : Except AppError SessionsPage → List Uuid
  | .ok page => page.sessions.map (·.sessionId)
  | .error _ => []

section Requests

variable (rows : ℕ → List SessionRow) (user : UserID) (limit : ℕ)

/-- The answer to the `k`-th sessionsRequest, at the offset `k * limit`. -/
def sessionsRequest (k : ℕ) : Except AppError SessionsPage :=
  getUserSessions (rows k) user.value limit (k * limit)

/-- The order in which the `k`-th request meets the live sessions of the user. -/
def sessionOrder (k : ℕ) : List Uuid :=
  (SQLAlchemySessionReader.getByUserId (rows k) user).map (·.sessionId)

/-- **Every session is shown exactly once**: the client comes to an end, and the answers have the
sessions that there are, each once. -/
def ShownOnce (ids : List Uuid) : Prop :=
  ∃ fuel answers, collect (sessionsRequest rows user limit) goesOn fuel 0 = some answers ∧
    (answers.flatMap sessionIds).Perm ids

end Requests

variable {rows : ℕ → List SessionRow} {user : UserID} {limit : ℕ} {ids : List Uuid}

/-- **How a request is answered.** -/
theorem request_ok (rows : ℕ → List SessionRow) (user : UserID) (limit k : ℕ) :
    sessionIds (sessionsRequest rows user limit k) =
        slice (sessionOrder rows user k) (k * limit) limit ∧
      (goesOn (sessionsRequest rows user limit k) = true ↔
        (k + 1) * limit < (sessionOrder rows user k).length) := by
  rw [sessionsRequest, getUserSessions, UserID.make_value]
  constructor
  · exact List.map_take.trans (congrArg _ List.map_drop)
  · rw [sessionOrder, List.length_map, Nat.succ_mul]
    exact decide_eq_true_iff

/-- **The client comes to an end**, after as many pages as the sessions need. -/
theorem requests_end (hlimit : 0 < limit) (hsame : ∀ k, (sessionOrder rows user k).Perm ids) :
    ∃ m, ids.length ≤ (m + 1) * limit ∧
      collect (sessionsRequest rows user limit) goesOn (m + 1) 0 =
        some ((List.range (m + 1)).map (sessionsRequest rows user limit)) := by
  have hmore : ∀ k, goesOn (sessionsRequest rows user limit k) = true ↔
      (k + 1) * limit < ids.length := by
    intro k
    rw [(request_ok rows user limit k).2, (hsame k).length_eq]
  refine ⟨(ids.length - 1) / limit, ?_, ?_⟩
  · have := Nat.lt_div_mul_add hlimit (a := ids.length - 1)
    rw [Nat.succ_mul]
    omega
  · have hcollect : collect (sessionsRequest rows user limit) goesOn _ 0 = some _ :=
      collect_eq (m := (ids.length - 1) / limit) ?_ ?_
    · simpa only [Nat.zero_add] using hcollect
    · intro i _ hi
      rw [hmore]
      rw [Nat.zero_add, Nat.lt_iff_add_one_le, Nat.le_div_iff_mul_le hlimit] at hi
      have : 0 < (i + 1) * limit := Nat.mul_pos (Nat.succ_pos i) hlimit
      omega
    · rw [Nat.zero_add, Bool.eq_false_iff, ne_eq, hmore, Nat.succ_mul]
      have := Nat.lt_div_mul_add hlimit (a := ids.length - 1)
      omega

/-- **When paging shows every session once.** For every user, every page size, and whatever the
order in which each SELECT returns the sessions, as long as they stay the same ones: the client
comes to an end; and it is shown every session exactly once if and only if no session stands, for
two different requests, at a place of the page that is asked for. -/
theorem sessions_paged_iff (hlimit : 0 < limit) (hids : ids.Nodup)
    (hsame : ∀ k, (sessionOrder rows user k).Perm ids) :
    (∃ fuel answers, collect (sessionsRequest rows user limit) goesOn fuel 0 = some answers) ∧
      (ShownOnce rows user limit ids ↔ ∀ s ∈ ids, MetOnce (sessionOrder rows user) limit s) := by
  obtain ⟨m, hm, hend⟩ := requests_end hlimit hsame
  refine ⟨⟨_, _, hend⟩, ?_⟩
  have hpages : ((List.range (m + 1)).map (sessionsRequest rows user limit)).flatMap sessionIds =
      pages (sessionOrder rows user) limit (m + 1) := by
    rw [List.flatMap_map, pages]
    exact List.flatMap_congr fun k _ => (request_ok rows user limit k).1
  rw [← pages_perm_iff hlimit hids hsame hm, ← hpages]
  constructor
  · rintro ⟨fuel, answers, hcollect, hperm⟩
    rwa [← collect_unique hcollect hend]
  · intro hperm
    exact ⟨_, _, hend, hperm⟩

/-! ### Two sessions -/

open Reference

/-- Another session of alice. -/
def otherSession : SessionRow := { session with sessionId := session.sessionId + 1 }

/-- One order: both sessions are shown, each on a page of its own. -/
theorem both_sessions_shown :
    ShownOnce (fun _ => [session, otherSession]) ⟨aliceId, by decide⟩ 1
      [session.sessionId, otherSession.sessionId] :=
  ((sessions_paged_iff (by decide) (by decide) fun _ => List.Perm.refl _).2).mpr
    fun s _ => metOnce_of_same_order (fun _ => rfl) s

/-- Two orders in turn: the session that is met first for the first request is met second for the
second one. -/
def turned (k : ℕ) : List SessionRow :=
  if k = 0 then [session, otherSession] else [otherSession, session]

/-- One session is shown twice, and the other one never. -/
theorem session_never_shown :
    ∃ first second, collect (sessionsRequest turned ⟨aliceId, by decide⟩ 1) goesOn 2 0 =
        some [first, second] ∧
      sessionIds first = [session.sessionId] ∧ sessionIds second = [session.sessionId] ∧
      ¬ ShownOnce turned ⟨aliceId, by decide⟩ 1 [session.sessionId, otherSession.sessionId] := by
  refine ⟨_, _, rfl, rfl, rfl, ?_⟩
  rintro ⟨fuel, answers, hanswers, hperm⟩
  have hcollect : collect (sessionsRequest turned ⟨aliceId, by decide⟩ 1) goesOn 2 0 =
      some [_, _] := rfl
  obtain rfl := collect_unique hcollect hanswers
  exact absurd (hperm.mem_iff.mpr (List.mem_cons_of_mem _ List.mem_cons_self)) (by decide)

end BackendTemplate
