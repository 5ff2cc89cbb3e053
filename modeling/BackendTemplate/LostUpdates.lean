import BackendTemplate.Journal

/-!
# No Lost Update, and What Follows

What the serial history of a users row means for the two counters the service keeps in it.
A wrong password is counted on top of the committed count, once; a recovery code is consumed
from the committed list, so it is gone for every later request until a new enrolment issues
it again.

## Main results

* `Computes.count` — what a request makes of the failure count.
* `Computes.issues`, `Computes.consumes` — which requests add and remove recovery codes.
* `no_lost_update` — the result.
-/

namespace BackendTemplate

open Atomic

variable {env : Env}

/-! ### The failure count -/

/-- The count a failed login starts from: a lock whose window has elapsed is forgotten. -/
def AccountLockInfo.base (l : AccountLockInfo) (now : Instant) : ℕ :=
  if l.lockWindowElapsed now then 0 else l.failedAttempts

theorem recordFailedLoginAttempt_count (u : User) (now : Instant) (m : ℕ) (d : ℤ) :
    (u.recordFailedLoginAttempt now m d).accountLock.failedAttempts =
      u.accountLock.base now + 1 := by
  rw [User.recordFailedLoginAttempt]
  split <;> rfl

theorem recordFailedLoginAttempt_id (u : User) (now : Instant) (m : ℕ) (d : ℤ) :
    (u.recordFailedLoginAttempt now m d).id = u.id ∧
      (u.recordFailedLoginAttempt now m d).version = u.version := by
  rw [User.recordFailedLoginAttempt]
  split <;> exact ⟨rfl, rfl⟩

/-- The row holds the count of the aggregate. -/
theorem rowToUser_count {row : UserRow} {u : User} (h : rowToUser env row = .ok u) :
    u.accountLock.failedAttempts = row.failedAttempts := by
  rw [rowToUser_lock h]
  rfl

theorem verifyTwoFactor_lock (u : User) (now : Instant) (code : String) :
    (u.verifyTwoFactor env now code).2.accountLock = u.accountLock := by
  obtain ⟨s, hs⟩ := u.verifyTwoFactor_eq env now code
  rw [hs]

/-- **What a request makes of the failure count**: it keeps it, sets it to zero, or is a
login that adds one for a wrong password. -/
theorem Computes.count {r : Request} {u₀ u : User} (h : Computes env r u₀ u) :
    u.accountLock.failedAttempts = u₀.accountLock.failedAttempts ∨
      u.accountLock.failedAttempts = 0 ∨
      ∃ data pwd failedAt, r = .login data ∧ PlainPassword.make env data.password = .ok pwd ∧
        u₀.verifyPassword env pwd = false ∧
        u.accountLock.failedAttempts = u₀.accountLock.base failedAt + 1 := by
  cases h with
  | wrongPassword t t' hpwd hlock hdel hv =>
      exact Or.inr (Or.inr ⟨_, _, t', rfl, hpwd, hv, recordFailedLoginAttempt_count _ _ _ _⟩)
  | rightPassword => exact Or.inr (Or.inl rfl)
  | @completeConsumes token code _ _ now hv =>
      have hlock : (u₀.verifyTwoFactor env now code).2.accountLock = u₀.accountLock :=
        verifyTwoFactor_lock u₀ now code
      rw [hv] at hlock
      exact Or.inl (congrArg AccountLockInfo.failedAttempts hlock)
  | @verifyConsumes userId code _ _ now hv =>
      have hlock : (u₀.verifyTwoFactor env now code).2.accountLock = u₀.accountLock :=
        verifyTwoFactor_lock u₀ now code
      rw [hv] at hlock
      exact Or.inl (congrArg AccountLockInfo.failedAttempts hlock)
  | enrol => exact Or.inl rfl
  | confirm now hc =>
      obtain ⟨s, -, rfl⟩ := confirmTwoFactor_ok hc
      exact Or.inl rfl
  | disable => exact Or.inl rfl
  | changePassword hc =>
      obtain rfl := changePassword_ok hc
      exact Or.inr (Or.inl rfl)
  | requestReset => exact Or.inl rfl
  | resetPassword now hr =>
      obtain ⟨t, rfl⟩ := resetPassword_ok hr
      exact Or.inr (Or.inl rfl)
  | delete now =>
      rw [User.delete]
      split <;> exact Or.inl rfl
  | verifyEmail => exact Or.inl rfl
  | profile h₁ h₂ =>
      have hname : ∀ name, (u₀.updateUsername name).accountLock = u₀.accountLock := by
        intro name
        rw [User.updateUsername]
        split <;> rfl
      have hmail : ∀ (v : User) now address token,
          (v.updateEmail env now address token).accountLock = v.accountLock := by
        intro v now address token
        rw [User.updateEmail]
        split <;> rfl
      left
      rcases h₁ with rfl | ⟨name, rfl⟩
      · rcases h₂ with rfl | ⟨now, address, token, rfl⟩
        · rfl
        · rw [hmail]
      · rcases h₂ with rfl | ⟨now, address, token, rfl⟩
        · rw [hname]
        · rw [hmail, hname]

/-! ### Recovery codes -/

/-- The user holds a recovery code with this digest. -/
def User.HoldsCode (u : User) (h : Bytes) : Prop :=
  ∃ s, u.twoFactorSecret = some s ∧ ∃ held ∈ s.backupCodeHashes, held.value = h

/-- The users row holds a recovery code with this digest. -/
def RowHolds (env : Env) (h : Bytes) (row : Option UserRow) : Prop :=
  ∃ r u, row = some r ∧ rowToUser env r = .ok u ∧ u.HoldsCode h

/-- A written row holds the codes of the user that was written. -/
theorem rowHolds_userToValues {h : Bytes} {iv v : ℕ} {u : User} :
    RowHolds env h (some (userToValues env iv u v)) ↔ u.HoldsCode h := by
  constructor
  · rintro ⟨r, u', hr, hok, hh⟩
    obtain rfl := Option.some.inj hr
    rw [rowToUser_userToValues] at hok
    obtain rfl := Except.ok.inj hok
    exact hh
  · exact fun hh => ⟨_, _, rfl, rowToUser_userToValues env iv u v, hh⟩

/-- **An accepted recovery code was held and is not held any more.** -/
theorem verifyTwoFactor_consumes {u u' : User} {now : Instant} {code : String}
    (h : u.verifyTwoFactor env now code = (true, u')) (hne : u' ≠ u) :
    u.HoldsCode (env.sha256 code) ∧ ¬ u'.HoldsCode (env.sha256 code) := by
  rw [User.verifyTwoFactor] at h
  split at h
  · exact absurd h (by simp)
  · rename_i s hs
    split at h
    · exact absurd h (by simp)
    · split at h
      · exact absurd (Prod.mk.inj h).2.symm hne
      · rw [TwoFactorSecret.consumeBackupCode] at h
        split at h
        · rename_i s' hs'
          split at hs'
          · rename_i stored hstored
            have hval : stored.value = (TokenHash.fromRaw env code).value := by
              simpa using List.find?_some hstored
            obtain rfl := (Prod.mk.inj h).2
            refine ⟨⟨s, hs, stored, List.mem_of_find?_eq_some hstored, hval⟩, ?_⟩
            rintro ⟨s'', hs'', held, hheld, hh⟩
            obtain rfl := Option.some.inj hs''
            obtain rfl := Option.some.inj hs'
            obtain ⟨-, hdiff⟩ := List.mem_filter.mp hheld
            exact absurd (TokenHash.ext (hh.trans hval.symm)) (by simpa using hdiff)
          · cases hs'
        · exact absurd h (by simp)

theorem verifyTwoFactor_codes {u u' : User} {now : Instant} {code : String} {b : Bool}
    (hv : u.verifyTwoFactor env now code = (b, u')) {h : Bytes} (hh : u'.HoldsCode h) :
    u.HoldsCode h := by
  rw [User.verifyTwoFactor] at hv
  split at hv
  · obtain ⟨-, rfl⟩ := Prod.mk.inj hv
    exact hh
  · rename_i s hs
    split at hv
    · obtain ⟨-, rfl⟩ := Prod.mk.inj hv
      exact hh
    · split at hv
      · obtain ⟨-, rfl⟩ := Prod.mk.inj hv
        exact hh
      · rw [TwoFactorSecret.consumeBackupCode] at hv
        split at hv
        · rename_i s' hs'
          obtain ⟨-, rfl⟩ := Prod.mk.inj hv
          obtain ⟨s'', hs'', held, hheld, hval⟩ := hh
          obtain rfl := Option.some.inj hs''
          split at hs'
          · obtain rfl := Option.some.inj hs'
            exact ⟨s, hs, held, (List.mem_filter.mp hheld).1, hval⟩
          · cases hs'
        · obtain ⟨-, rfl⟩ := Prod.mk.inj hv
          exact hh

/-- **Only an enrolment issues recovery codes.** -/
theorem Computes.issues {r : Request} {u₀ u : User} (hc : Computes env r u₀ u) {h : Bytes}
    (hno : ¬ u₀.HoldsCode h) (hh : u.HoldsCode h) :
    ∃ userId secret codes, r = .enable2FA userId ∧
      u = u₀.beginTwoFactorEnrolment env secret codes ∧ ∃ code ∈ codes, env.sha256 code = h := by
  cases hc with
  | wrongPassword t t' =>
      refine absurd ?_ hno
      rw [User.recordFailedLoginAttempt] at hh
      split at hh <;> exact hh
  | rightPassword => exact absurd hh hno
  | completeConsumes now hv => exact absurd (verifyTwoFactor_codes hv hh) hno
  | verifyConsumes now hv => exact absurd (verifyTwoFactor_codes hv hh) hno
  | enrol secret codes h2 =>
      obtain ⟨s, hs, held, hheld, hval⟩ := hh
      obtain rfl := Option.some.inj hs
      obtain ⟨code, hcode, rfl⟩ := List.mem_map.mp hheld
      exact ⟨_, secret, codes, rfl, rfl, code, hcode, hval⟩
  | confirm now hc =>
      obtain ⟨s, hs, rfl⟩ := confirmTwoFactor_ok hc
      obtain ⟨s', hs', held, hheld, hval⟩ := hh
      obtain rfl := Option.some.inj hs'
      exact absurd ⟨s, hs, held, hheld, hval⟩ hno
  | disable =>
      obtain ⟨s, hs, -⟩ := hh
      exact absurd hs (by simp [User.disableTwoFactor, User.recordEvent])
  | changePassword hc =>
      obtain rfl := changePassword_ok hc
      exact absurd hh hno
  | requestReset => exact absurd hh hno
  | resetPassword now hr =>
      obtain ⟨t, rfl⟩ := resetPassword_ok hr
      exact absurd hh hno
  | delete now =>
      refine absurd ?_ hno
      rw [User.delete] at hh
      split at hh <;> exact hh
  | verifyEmail => exact absurd hh hno
  | profile h₁ h₂ =>
      have hname : ∀ name, (u₀.updateUsername name).twoFactorSecret = u₀.twoFactorSecret := by
        intro name
        rw [User.updateUsername]
        split <;> rfl
      have hmail : ∀ (v : User) now address token,
          (v.updateEmail env now address token).twoFactorSecret = v.twoFactorSecret := by
        intro v now address token
        rw [User.updateEmail]
        split <;> rfl
      have hsame : u.twoFactorSecret = u₀.twoFactorSecret := by
        rcases h₁ with rfl | ⟨name, rfl⟩
        · rcases h₂ with rfl | ⟨now, address, token, rfl⟩
          · rfl
          · exact hmail _ _ _ _
        · rcases h₂ with rfl | ⟨now, address, token, rfl⟩
          · exact hname name
          · exact (hmail _ _ _ _).trans (hname name)
      rw [User.HoldsCode, hsame] at hh
      exact absurd hh hno

/-! ### The history of a users row -/

section Schedules

variable {ι : Type}

/-- The entry counts a failure on top of the user `u` of the old row. -/
def Entry.Counts (env : Env) (u : User) (e : Entry ι) : Prop :=
  ∃ row row' failedAt, e.old = some row ∧ rowToUser env row = .ok u ∧ e.new = some row' ∧
    row'.failedAttempts = u.accountLock.base failedAt + 1

/-- The entry keeps the failure count, sets it to zero, or counts the wrong password of the
login that made it. -/
def Entry.KeepsCount (env : Env) (reqs : ι → Request) (e : Entry ι) : Prop :=
  ∀ row, e.old = some row → ∃ row', e.new = some row' ∧
    (row'.failedAttempts = row.failedAttempts ∨ row'.failedAttempts = 0 ∨
      ∃ data pwd u, reqs e.author = .login data ∧ PlainPassword.make env data.password = .ok pwd ∧
        u.verifyPassword env pwd = false ∧ e.Counts env u)

/-- The entry is an enrolment that issues a recovery code with digest `h`, which the account
did not hold. -/
def Entry.Issues (env : Env) (reqs : ι → Request) (h : Bytes) (e : Entry ι) : Prop :=
  ∃ userId u₀ secret codes, reqs e.author = .enable2FA userId ∧ ¬ u₀.HoldsCode h ∧
    e.Updates env (.enable2FA userId) u₀ (u₀.beginTwoFactorEnrolment env secret codes) ∧
    ∃ code ∈ codes, env.sha256 code = h

/-- Request `i` has had the recovery code with digest `h` accepted for account `x`, and has
committed. -/
def Redeemed (env : Env) (x : Uuid) (h : Bytes) (c : Cfg ι) (i : ι) : Prop :=
  (did c i).committed = true ∧ ∃ u code u', (u, code, true, u') ∈ (did c i).checks ∧ u' ≠ u ∧
    u.id.value = x ∧ env.sha256 code = h

/-- An entry that updates the row leaves the failure count to its author. -/
theorem Faithful.keepsCount {reqs : ι → Request} {c : Cfg ι} {e : Entry ι}
    (hf : Faithful env reqs c e) : e.KeepsCount env reqs := by
  intro row hrow
  rcases hf with ⟨hnone, -⟩ | ⟨u₀, u, -, row', iv, hold, hok, hcomp, hnew⟩
  · exact absurd (hrow.symm.trans hnone) (by simp)
  · obtain rfl := Option.some.inj (hrow.symm.trans hold)
    refine ⟨_, hnew, ?_⟩
    change u.accountLock.failedAttempts = _ ∨ u.accountLock.failedAttempts = 0 ∨ _
    rcases hcomp.count with hkeep | hzero | ⟨data, pwd, failedAt, hreq, hpwd, hv, hcount⟩
    · exact Or.inl (hkeep.trans (rowToUser_count hok))
    · exact Or.inr (Or.inl hzero)
    · exact Or.inr (Or.inr ⟨data, pwd, u₀, hreq, hpwd, hv, row, _, failedAt, hold, hok, hnew,
        hcount⟩)

/-- An entry after which the row holds a code it did not hold before is an enrolment. -/
theorem Faithful.issues {reqs : ι → Request} {c : Cfg ι} {e : Entry ι} {h : Bytes}
    (hf : Faithful env reqs c e) (hsome : e.old ≠ none) (hold : ¬ RowHolds env h e.old)
    (hnew : RowHolds env h e.new) : e.Issues env reqs h := by
  rcases hf with ⟨hnone, -⟩ | ⟨u₀, u, -, hup⟩
  · exact absurd hnone hsome
  · have hup' := hup
    obtain ⟨row, iv, hrow, hok, hcomp, hwrite⟩ := hup
    rw [hwrite, rowHolds_userToValues] at hnew
    have hno : ¬ u₀.HoldsCode h := fun hh => hold ⟨row, u₀, hrow, hok, hh⟩
    obtain ⟨userId, secret, codes, hreq, rfl, hcode⟩ := hcomp.issues hno hnew
    rw [hreq] at hup'
    exact ⟨userId, u₀, secret, codes, hreq, hno, hup', hcode⟩

/-- The row an entry leaves is not absent. -/
theorem Faithful.new_ne_none {reqs : ι → Request} {c : Cfg ι} {e : Entry ι}
    (hf : Faithful env reqs c e) : e.new ≠ none := by
  rcases hf with ⟨-, u, iv, hnew⟩ | ⟨u₀, u, -, row, iv, -, -, -, hnew⟩
  · rw [hnew]
    exact Option.some_ne_none _
  · rw [hnew]
    exact Option.some_ne_none _

variable [Fintype ι] [DecidableEq ι] {reqs : ι → Request} {C : Steps ι} {w : World ι} {c : Cfg ι}
  {x : Uuid} {es : List (Entry ι)}

/-- **A refused wrong password has one entry, and it counts.** -/
theorem Recorded.counted (hrec : Recorded env reqs x c es) (h : Runs env reqs C w c)
    {i : ι} {data : LoginInput} {err : AppError} {u : User} (hreq : reqs i = .login data)
    (hdone : c.threads i = .done (.error err)) (hv : err.verdict = true)
    (hu : u ∈ (did c i).users) (hx : u.id.value = x)
    (hlock : ∀ t ∈ (did c i).instants, u.isLocked t = false) (hdel : u.isDeleted = false) :
    ∃ es₁ e es₂, es = es₁ ++ e :: es₂ ∧ e.author = i ∧ (∀ e' ∈ es₁ ++ es₂, e'.author ≠ i) ∧
      e.Counts env u := by
  obtain ⟨hans, -⟩ := h.ends hdone
  rw [hreq] at hans
  obtain ⟨hc, hcase⟩ := hans hv u hu
  rcases hcase with ⟨t, ht, hl⟩ | hd | ⟨failedAt, hwrite⟩
  · exact absurd ((hlock t ht).symm.trans hl) (by simp)
  · exact absurd (hdel.symm.trans hd) (by simp)
  · obtain ⟨hid, hver⟩ := recordFailedLoginAttempt_id u failedAt UserService.maxFailedAttempts
      UserService.lockoutDurationMinutes
    obtain ⟨es₁, e, es₂, u₀, rfl, hauthor, hno, ⟨row, iv, hold, hok, -, hnew⟩, hall⟩ :=
      hrec.owned i _ hc hwrite (by rw [hid, hx])
    obtain rfl := hall u hu hid.symm hver.symm
    exact ⟨es₁, e, es₂, rfl, hauthor, hno, row, _, failedAt, hold, hok, hnew,
      recordFailedLoginAttempt_count u failedAt _ _⟩

/-- **A redeemed recovery code leaves the row with the entry of its request.** -/
theorem Recorded.redeemed (hrec : Recorded env reqs x c es) (h : Runs env reqs C w c)
    {i : ι} {d : Bytes} (hi : Redeemed env x d c i) :
    ∃ e ∈ es, e.author = i ∧ RowHolds env d e.old ∧ ¬ RowHolds env d e.new := by
  obtain ⟨hc, u, code, u', hchk, hne, hx, rfl⟩ := hi
  obtain ⟨hu, ⟨now, hv⟩, hsub⟩ := h.checked i hchk
  have hcons : (did c i).Consumed := by
    have hcomp := (h.coherent i).committed hc
    cases hreq : reqs i with
    | completeTwoFactor token code =>
        rw [hreq] at hcomp
        exact hcomp.2
    | verify2FA userId code =>
        rw [hreq] at hcomp
        exact hcomp
    | _ =>
        rw [hreq] at hsub
        exact absurd hsub (by simp [Request.submits])
  obtain ⟨hid, hver⟩ := verifyTwoFactor_keeps hv
  obtain ⟨hholds, hgone⟩ := verifyTwoFactor_consumes hv hne
  obtain ⟨es₁, e, es₂, u₀, rfl, hauthor, -, ⟨row, iv, hold, hok, -, hnew⟩, hall⟩ :=
    hrec.owned i u' hc (hcons u code u' hchk hne) (by rw [hid, hx])
  obtain rfl := hall u hu hid.symm hver.symm
  refine ⟨e, by simp, hauthor, ⟨row, u, hold, hok, hholds⟩, ?_⟩
  rw [hnew, rowHolds_userToValues]
  exact hgone

omit [Fintype ι] [DecidableEq ι] in
/-- Between an entry after which a code is gone and one before which it is held, an enrolment
has issued it. -/
theorem Recorded.issued (hrec : Recorded env reqs x c es) {row row' : Option UserRow}
    (hlink : Linked row es row') {d : Bytes} {es₁ es₂ es₃ : List (Entry ι)} {e e' : Entry ι}
    (hes : es = es₁ ++ e :: es₂ ++ e' :: es₃) (hgone : ¬ RowHolds env d e.new)
    (hheld : RowHolds env d e'.old) : ∃ f ∈ es₂, f.Issues env reqs d := by
  subst hes
  obtain ⟨mid, hleft, hold, -⟩ := linked_append.mp hlink
  obtain ⟨_, -, -, hbetween⟩ := linked_append.mp hleft
  rw [← hold] at hbetween
  have hnew : e.new ≠ none := (hrec.faithful e (by simp)).new_ne_none
  -- a row that is absent counts as holding every code, so the step found is not a registration
  obtain ⟨f, hf, hf₀, hf₁⟩ := hbetween.appears (P := fun r => r = none ∨ RowHolds env d r)
    (fun hor => hor.elim hnew hgone) (Or.inr hheld)
  have hfaith := hrec.faithful f (by simp [hf])
  rw [not_or] at hf₀
  exact ⟨f, hf, hfaith.issues hf₀.1 hf₀.2 (hf₁.resolve_left hfaith.new_ne_none)⟩

/-- Two different members of a list stand in one order or the other. -/
theorem mem_split_two {α : Type} {l : List α} {a b : α} (ha : a ∈ l) (hb : b ∈ l) (hne : a ≠ b) :
    (∃ l₁ l₂ l₃, l = l₁ ++ a :: l₂ ++ b :: l₃) ∨ ∃ l₁ l₂ l₃, l = l₁ ++ b :: l₂ ++ a :: l₃ := by
  obtain ⟨l₁, l₂, rfl⟩ := List.append_of_mem ha
  rcases List.mem_append.mp hb with hb | hb
  · obtain ⟨m₁, m₂, rfl⟩ := List.append_of_mem hb
    exact Or.inr ⟨m₁, m₂, l₂, rfl⟩
  · rcases List.mem_cons.mp hb with rfl | hb
    · exact absurd rfl hne
    · obtain ⟨m₁, m₂, rfl⟩ := List.append_of_mem hb
      exact Or.inl ⟨l₁, m₁, m₂, by simp⟩

/-- **The history of row `x`**, from world `w` to configuration `c`. -/
structure SerialHistory (env : Env) (reqs : ι → Request) (x : Uuid) (w : World ι) (c : Cfg ι)
    (es : List (Entry ι)) : Prop where
  /-- Each change starts from the row the one before it left. -/
  linked : Linked (w.db.user x) es (c.shared.db.user x)
  /-- Each change was computed from that very row by the request that committed it. -/
  faithful : ∀ e ∈ es, Faithful env reqs c e
  /-- A login that has answered a wrong password on an existing, unlocked account has made
  exactly one change, which counts the failure on top of the count it found. -/
  counted : ∀ i data err u, reqs i = .login data → c.threads i = .done (.error err) →
    err.verdict = true → u ∈ (did c i).users → u.id.value = x →
    (∀ t ∈ (did c i).instants, u.isLocked t = false) → u.isDeleted = false →
    ∃ es₁ e es₂, es = es₁ ++ e :: es₂ ∧ e.author = i ∧ (∀ e' ∈ es₁ ++ es₂, e'.author ≠ i) ∧
      e.Counts env u
  /-- No other change touches the count but to keep it, to reset it, or to count a wrong
  password of its own. -/
  keepsCount : ∀ e ∈ es, e.KeepsCount env reqs
  /-- Two requests that have both had the same recovery code accepted and have both committed
  stand on two sides of an enrolment that issued the code anew. -/
  redeemed : ∀ i j d, i ≠ j → Redeemed env x d c i → Redeemed env x d c j →
    ∃ es₁ e es₂ e' es₃, es = es₁ ++ e :: es₂ ++ e' :: es₃ ∧
      (e.author = i ∧ e'.author = j ∨ e.author = j ∧ e'.author = i) ∧
      ∃ f ∈ es₂, f.Issues env reqs d

/-- **No update of a users row is lost**: along any schedule of any requests, the journal of
the row is a serial history. -/
theorem no_lost_update (hw : Startable env w) {ls : List (Label ι Choice ℕ)}
    (hrun : (machine env ι).run (start env reqs w) ls = some c) (x : Uuid) :
    SerialHistory env reqs x w c (journal env x (start env reqs w) ls) := by
  have h := runs_of_run hrun
  have hlink := journal_linked (x := x) hrun
  have hrec := journal_recorded hw x hrun
  refine ⟨hlink, hrec.faithful, ?_, fun e he => (hrec.faithful e he).keepsCount, ?_⟩
  · intro i data err u hreq hdone hv hu hx hlock hdel
    exact hrec.counted h hreq hdone hv hu hx hlock hdel
  · intro i j d hij hi hj
    obtain ⟨e, he, rfl, heheld, hegone⟩ := hrec.redeemed h hi
    obtain ⟨e', he', rfl, heheld', hegone'⟩ := hrec.redeemed h hj
    have hne : e ≠ e' := fun heq => hij (congrArg Entry.author heq)
    rcases mem_split_two he he' hne with ⟨es₁, es₂, es₃, hes⟩ | ⟨es₁, es₂, es₃, hes⟩
    · exact ⟨es₁, e, es₂, e', es₃, hes, Or.inl ⟨rfl, rfl⟩,
        hrec.issued hlink hes hegone heheld'⟩
    · exact ⟨es₁, e', es₂, e, es₃, hes, Or.inr ⟨rfl, rfl⟩,
        hrec.issued hlink hes hegone' heheld⟩

end Schedules

/-! ### Two wrong passwords at once -/

/-- Two logins with a wrong password, about to start. -/
def wrongPasswordsStart : Cfg (Fin 2) :=
  start Reference.env
    (fun _ => .login { password := "Wrong-Horse-9", username := some "alice" })
    (Reference.world (Fin 2) (Reference.tables (Reference.alice false) false))

/-- Both read the account before either writes it. One is counted; the other fails with a
concurrent modification and is not counted. -/
def wrongPasswords : List (Label (Fin 2) Choice ℕ) :=
  Reference.moves 0 3 ++ Reference.moves 1 3 ++ Reference.moves 0 5 ++ Reference.moves 1 2

theorem wrong_passwords_serial : ∃ c,
    (machine Reference.env (Fin 2)).run wrongPasswordsStart wrongPasswords = some c ∧
      (c.shared.db.user Reference.aliceId).map UserRow.failedAttempts = some 1 ∧
      SerialHistory Reference.env
        (fun _ => .login { password := "Wrong-Horse-9", username := some "alice" })
        Reference.aliceId
        (Reference.world (Fin 2) (Reference.tables (Reference.alice false) false)) c
        (journal Reference.env Reference.aliceId wrongPasswordsStart wrongPasswords) := by
  obtain ⟨c, hc, hcount⟩ := Machine.exists_run
    (P := fun c : Cfg (Fin 2) =>
      (c.shared.db.user Reference.aliceId).map UserRow.failedAttempts = some 1)
    (by decide +kernel : ((machine Reference.env (Fin 2)).run wrongPasswordsStart
      wrongPasswords).any _ = true)
  exact ⟨c, hc, hcount,
    no_lost_update (reference_startable (Fin 2) rfl false .empty) hc Reference.aliceId⟩

end BackendTemplate
