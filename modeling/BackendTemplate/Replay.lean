import BackendTemplate.Lifetime

/-!
# Replayed One-Time Passwords

`CompleteTwoFactorUseCase` remembers every accepted code in the used-code registry for
`CODE_MEMORY_SECONDS` and refuses a code it finds there. The registry is keyed on the string
that was submitted, and `Verify2FAUseCase` neither reads nor writes it. A value that was
accepted once is therefore refused exactly where the registry sees both submissions as one
(`replaysAsIs`): both come through `CompleteTwoFactorUseCase`, with the same string.

## Main results

* `Remembered` — the invariant: what was remembered is still there, and a request that has
  missed it runs before it was remembered.
* `totp_accepted_once` — the result.
-/

namespace BackendTemplate

open Atomic

variable {env : Env} {ι : Type}

/-- The code was accepted for the user as a one-time password: nothing was consumed. -/
def AcceptedTotp (p : Progress) (u : User) (code : String) : Prop :=
  (u, code, true, u) ∈ p.checks

/-- Two submissions that the registry takes for one: the same string, to the use case that
keeps the registry. -/
def SameSubmission (r r' : Request) : Prop :=
  match r, r' with
  | .completeTwoFactor _ code, .completeTwoFactor _ code' => code = code'
  | _, _ => False

instance (r r' : Request) : Decidable (SameSubmission r r') := by
  unfold SameSubmission
  split <;> infer_instance

/-- A value that another request has had accepted for the account is submitted again only to
`CompleteTwoFactorUseCase`, as the same string, and was accepted there. -/
def replaysAsIs (env : Env) (reqs : ι → Request) (c : Cfg ι) : Label ι Choice ℕ → Prop
  | .act i _ => ∀ u code k, c.threads i = .running (.call (.verifyTwoFactor u code) k) →
      ∀ j, j ≠ i → ∀ u' code', AcceptedTotp (did c j) u' code' → u'.id = u.id →
        env.nfkc code' = env.nfkc code → SameSubmission (reqs j) (reqs i)
  | .env _ => True

/-- The code a call evaluates, and the user it evaluates it against. -/
def Op.evaluates : Op → Option (User × String)
  | .verifyTwoFactor u code => some (u, code)
  | _ => none

/-- A condition on the code the next call of a request evaluates. -/
theorem forall_evaluates {c : Cfg ι} {i : ι} {Q : User → String → Prop} :
    (∀ e ∈ (c.next i).bind Op.evaluates, Q e.1 e.2) ↔
      ∀ u code k, c.threads i = .running (.call (.verifyTwoFactor u code) k) → Q u code := by
  constructor
  · intro h u code k hk
    refine h (u, code) (Option.mem_def.mpr ?_)
    rw [Config.next_eq_some.mpr ⟨k, hk⟩]
    rfl
  · rintro h e he
    obtain ⟨o, ho, hoe⟩ := Option.bind_eq_some_iff.mp (Option.mem_def.mp he)
    obtain ⟨k, hk⟩ := Config.next_eq_some.mp ho
    cases o with
    | verifyTwoFactor u code =>
        obtain rfl := Option.some.inj hoe
        exact h u code k hk
    | _ => cases hoe

instance [Fintype ι] [DecidableEq ι] (env : Env) (reqs : ι → Request) (c : Cfg ι) :
    (l : Label ι Choice ℕ) → Decidable (replaysAsIs env reqs c l)
  | .act i _ => decidable_of_iff (∀ e ∈ (c.next i).bind Op.evaluates, ∀ j, j ≠ i →
      ∀ a ∈ (did c j).checks, a.2.2 = (true, a.1) → a.1.id = e.1.id →
        env.nfkc a.2.1 = env.nfkc e.2 → SameSubmission (reqs j) (reqs i)) <| by
      rw [forall_evaluates (Q := fun u code => ∀ j, j ≠ i → ∀ a ∈ (did c j).checks,
        a.2.2 = (true, a.1) → a.1.id = u.id → env.nfkc a.2.1 = env.nfkc code →
          SameSubmission (reqs j) (reqs i))]
      refine forall_congr' fun u => forall_congr' fun code => forall_congr' fun k =>
        imp_congr_right fun _ => forall_congr' fun j => imp_congr_right fun _ => ?_
      constructor
      · intro h u' code' hacc hid hcode
        exact h (u', code', true, u') hacc rfl hid hcode
      · rintro h ⟨u', code', r⟩ hmem hr hid hcode
        obtain rfl : r = (true, u') := hr
        exact h u' code' hmem hid hcode
  | .env _ => inferInstanceAs (Decidable True)

/-- Requests come one at a time, and replay a value only as it is. -/
def replaysInTurn (env : Env) (reqs : ι → Request) (c : Cfg ι) (l : Label ι Choice ℕ) : Prop :=
  Machine.sequentially c l ∧ replaysAsIs env reqs c l

instance [Fintype ι] [DecidableEq ι] (env : Env) (reqs : ι → Request) (c : Cfg ι)
    (l : Label ι Choice ℕ) : Decidable (replaysInTurn env reqs c l) :=
  inferInstanceAs (Decidable (_ ∧ _))

/-- A code is always remembered for the same time. -/
theorem MayPut.memory {r : Request} {p : Progress} {x : Uuid} {code v : String} {ttl : Option ℕ}
    (h : MayPut env r p (UsedCodes.key env x code) v ttl) :
    ttl = some UsedCodes.codeMemorySeconds := by
  cases r with
  | login data =>
      obtain ⟨token, _, _, hkey, -⟩ := h
      exact absurd hkey.symm (challengeKey_ne_usedKey token x code)
  | completeTwoFactor token code' =>
      rcases h with ⟨_, _, hkey, -⟩ | ⟨u, _, -, -, httl, -⟩
      · exact absurd hkey.symm (challengeKey_ne_usedKey token x code)
      · exact httl
  | _ => exact absurd h id

section Runs

variable [Fintype ι] [DecidableEq ι] {reqs : ι → Request} {w : World ι} {c c' : Cfg ι}
  {x : Uuid} {code : String}

/-- Until instant `T`, a code that was remembered is in the cache and will not expire before
`T`, and a request under way that has missed it is the only one that may have remembered it. -/
structure Remembered (env : Env) (x : Uuid) (code : String) (T : Instant) (c : Cfg ι) : Prop where
  started : T ≤ c.shared.clock + seconds UsedCodes.codeMemorySeconds
  kept : c.shared.clock < T → ∀ i v, (UsedCodes.key env x code, v) ∈ (did c i).puts →
    ∃ v e, c.shared.cache.store (UsedCodes.key env x code) = some (v, some e) ∧ T ≤ e
  missed : c.shared.clock < T → ∀ j, Machine.InFlight c j →
    UsedCodes.key env x code ∈ (did c j).misses →
    ∀ i, i ≠ j → ∀ v, (UsedCodes.key env x code, v) ∉ (did c i).puts

/-- **A call keeps what was remembered.** -/
theorem Remembered.kept_call {T : Instant} (h : Remembered env x code T c) {ch : Choice} {i : ι}
    {o : Op} {y : o.Res} {a : Act Response} {w' : World ι}
    (hal : Allowed env (reqs i) (did c i) o) (he : exec env ch i o c.shared = some (y, w'))
    (hT : c.shared.clock < T) {j : ι} {v : String}
    (hput : (UsedCodes.key env x code, v) ∈ (did (Machine.afterCall c i o y a w') j).puts) :
    ∃ v e, w'.cache.store (UsedCodes.key env x code) = some (v, some e) ∧ T ≤ e := by
  by_cases hset : ∃ v ttl, o = .cacheSet (UsedCodes.key env x code) v ttl
  · obtain ⟨v', ttl, rfl⟩ := hset
    obtain rfl := MayPut.memory hal
    rw [exec_cacheSet he]
    refine ⟨v', _, set_store_self _ _ _ _ (show UsedCodes.codeMemorySeconds ≠ 0 by decide), ?_⟩
    exact h.started
  · have hold : (UsedCodes.key env x code, v) ∈ (did c j).puts := by
      by_cases hji : j = i
      · subst hji
        rw [did_afterCall_self] at hput
        rcases mem_note_puts hput with hold | ⟨ttl, rfl⟩
        · exact hold
        · exact absurd ⟨v, ttl, rfl⟩ hset
      · rwa [did_afterCall_ne hji] at hput
    obtain ⟨v', e, hv, hTe⟩ := h.kept hT j v hold
    by_cases ho : o.onCache = false
    · rw [(exec_uncached ho he).1]
      exact ⟨v', e, hv, hTe⟩
    · cases o with
      | cacheGet key =>
          rcases exec_cacheGet he with ⟨_, _, -, -, -, rfl⟩ | ⟨-, hexp, -, hstore⟩
          · exact ⟨v', e, hv, hTe⟩
          · have hkey : UsedCodes.key env x code ≠ key := by
              rintro rfl
              have := hexp v' (some e) hv
              simp only [InMemoryCache.expired, decide_eq_true_eq] at this
              exact absurd hT (not_lt.mpr (le_trans hTe this))
            rw [hstore, Function.update_of_ne hkey]
            exact ⟨v', e, hv, hTe⟩
      | cacheSet key value ttl =>
          have hkey : UsedCodes.key env x code ≠ key := by
            rintro rfl
            exact hset ⟨value, ttl, rfl⟩
          rw [exec_cacheSet he]
          exact ⟨v', e, (set_store_ne _ _ hkey value ttl).trans hv, hTe⟩
      | cacheDelete key =>
          have hkey : UsedCodes.key env x code ≠ key := by
            rintro rfl
            cases hr : reqs i with
            | completeTwoFactor token code' =>
                rw [hr] at hal
                exact challengeKey_ne_usedKey token x code hal.1.symm
            | _ =>
                rw [hr] at hal
                exact absurd hal id
          rw [exec_cacheDelete he]
          exact ⟨v', e, (delete_store_ne _ hkey).trans hv, hTe⟩
      | _ => exact absurd rfl ho

/-- **The registry in a sequential run.** -/
theorem Runs.remembered {C : Steps ι} (hC : ∀ c l, C c l → Machine.sequentially c l)
    (h : Runs env reqs C w c) (x : Uuid) (code : String) :
    Remembered env x code (w.clock + seconds UsedCodes.codeMemorySeconds) c := by
  refine h.induction
    (Remembered env x code (w.clock + seconds UsedCodes.codeMemorySeconds)) ?_ ?_ ?_ ?_
  · refine ⟨le_rfl, fun _ i v hput => ?_, fun _ j _ hmiss => ?_⟩
    · exact absurd hput List.not_mem_nil
    · exact absurd hmiss List.not_mem_nil
  · intro c i ch o k y w' _ ih hCl ht hal he
    have hclock : w'.clock = c.shared.clock := exec_clock he
    refine ⟨?_, fun hT j v hput => ?_, fun hT j hj hmiss i' hne v hput => ?_⟩
    · rw [afterCall_shared, hclock]
      exact ih.started
    · rw [afterCall_shared, hclock] at hT
      rw [afterCall_shared]
      exact ih.kept_call hal he hT hput
    · rw [afterCall_shared, hclock] at hT
      -- only the request that moves is in flight
      have hji : j = i := by
        by_contra hji
        have hflight : Machine.InFlight c j := by
          obtain ⟨hhist, p, hp⟩ := hj
          refine ⟨?_, p, ?_⟩
          · change Function.update c.hist i _ j ≠ [] at hhist
            rwa [Function.update_of_ne hji] at hhist
          · rwa [threads_afterCall_ne hji] at hp
        exact hC _ _ hCl j hji hflight
      subst hji
      rw [did_afterCall_ne hne] at hput
      rw [did_afterCall_self] at hmiss
      rcases mem_note_misses hmiss with hold | ⟨rfl, hy⟩
      · have hflight : Machine.InFlight c j := by
          refine ⟨fun hnil => ?_, _, ht⟩
          rw [did, hnil] at hold
          exact absurd hold List.not_mem_nil
        exact ih.missed hT j hflight hold i' hne v hput
      · obtain ⟨v', e, hv, hTe⟩ := ih.kept hT i' v hput
        rcases exec_cacheGet he with ⟨_, _, rfl, -⟩ | ⟨-, hexp, -⟩
        · cases eq_of_heq hy
        · have := hexp v' (some e) hv
          simp only [InMemoryCache.expired, decide_eq_true_eq] at this
          exact absurd hT (not_lt.mpr (le_trans hTe this))
  · intro c i ch y _ ih _ _ _
    refine ⟨ih.started, ih.kept, fun hT j hj => ?_⟩
    obtain ⟨hhist, p, hp⟩ := hj
    exact ih.missed hT j ⟨hhist, p, threads_left hp⟩
  · intro c d _ ih _
    have hd : c.shared.clock ≤ c.shared.clock + d :=
      Int.le_add_of_nonneg_right (Int.natCast_nonneg d)
    refine ⟨le_trans ih.started (Int.add_le_add_right hd _), fun hT => ?_, fun hT => ?_⟩
    · exact ih.kept (lt_of_le_of_lt hd hT)
    · exact ih.missed (lt_of_le_of_lt hd hT)

/-- **A replay does not reach the check**: when a request is about to have a value evaluated
that another request has had accepted, the memory of it is over. -/
theorem replay_stopped (h : Runs env reqs (replaysInTurn env reqs) w c) {i j : ι} (hne : j ≠ i)
    {ch : Choice} (hC : replaysInTurn env reqs c (.act j ch)) {u v : User} {code code' : String}
    {k : Bool × User → Act Response} (ht : c.threads j = .running (.call (.verifyTwoFactor v code') k))
    (hacc : AcceptedTotp (did c i) u code) (hid : v.id = u.id)
    (hcode : env.nfkc code' = env.nfkc code) :
    w.clock + seconds UsedCodes.codeMemorySeconds ≤ c.shared.clock := by
  obtain ⟨-, -, hal⟩ := h.allowed ht
  have hsame := hC.2 v code' k ht i hne.symm u code hacc hid.symm hcode.symm
  have hsub := (h.checked i hacc).2.2
  cases hri : reqs i with
  | completeTwoFactor token₁ code₁ =>
      cases hrj : reqs j with
      | completeTwoFactor token₂ code₂ =>
          rw [hri, hrj] at hsame
          rw [hrj] at hal
          rw [hri] at hsub
          obtain ⟨rfl, -, hmiss, -⟩ := hal
          obtain rfl : code₁ = code' := hsame
          obtain rfl : code₁ = code := Option.some.inj hsub
          -- the other request has left, so it has remembered the code
          have hflight : Machine.InFlight c j := by
            refine ⟨fun hnil => ?_, _, ht⟩
            rw [did, hnil] at hmiss
            exact absurd hmiss List.not_mem_nil
          have hput : (UsedCodes.key env u.id.value code₁, "1") ∈ (did c i).puts := by
            cases hti : c.threads i with
            | running p =>
                refine absurd ⟨fun hnil => ?_, p, hti⟩ (hC.1 i hne.symm)
                rw [AcceptedTotp, did, hnil] at hacc
                exact absurd hacc List.not_mem_nil
            | done y =>
                have hend := (h.ends hti).2
                rw [hri] at hend
                exact hend.1 u hacc
          rw [hid] at hmiss
          by_contra hT
          exact (h.remembered (fun _ _ hl => hl.1) u.id.value code₁).missed (not_le.mp hT) j
            hflight hmiss i hne.symm _ hput
      | _ =>
          rw [hri, hrj] at hsame
          exact absurd hsame id
  | _ =>
      rw [hri] at hsame
      exact absurd hsame id

/-- **A one-time password is accepted once.** In a sequential run shorter than
`CODE_MEMORY_SECONDS` in which an accepted value is replayed only as it is, a value that was
accepted for an account is not accepted again in whatever form, for as long as the run goes on. -/
theorem totp_accepted_once {c₁ c₂ : Cfg ι} (h : Runs env reqs (replaysInTurn env reqs) w c₁)
    (h' : Later env (replaysInTurn env reqs) c₁ c₂)
    (hclock : c₂.shared.clock < w.clock + seconds UsedCodes.codeMemorySeconds) {i j : ι}
    (hne : j ≠ i) {u v v' : User} {code code' : String} (hacc : AcceptedTotp (did c₁ i) u code)
    (hid : v.id = u.id) (hcode : env.nfkc code' = env.nfkc code)
    (hlater : (v, code', true, v') ∉ (did c₁ j).checks) :
    (v, code', true, v') ∉ (did c₂ j).checks := by
  revert hclock
  refine (Later.induction h' h (fun d => AcceptedTotp (did d i) u code ∧
    (d.shared.clock < w.clock + seconds UsedCodes.codeMemorySeconds →
      (v, code', true, v') ∉ (did d j).checks)) ⟨hacc, fun _ => hlater⟩ ?_ ?_ ?_).2
  · rintro d i' ch o k y w' hr ⟨hacc, ih⟩ hC ht hal he
    refine ⟨?_, fun hclock hmem => ?_⟩
    · by_cases hi : i = i'
      · subst hi
        rw [AcceptedTotp, did_afterCall_self]
        exact (note_extends (did d i) o y).checks hacc
      · rwa [AcceptedTotp, did_afterCall_ne hi]
    · rw [afterCall_shared, exec_clock he] at hclock
      by_cases hj : j = i'
      · subst hj
        rw [did_afterCall_self] at hmem
        by_cases ho : ∃ v₀ code₀, o = .verifyTwoFactor v₀ code₀
        · obtain ⟨v₀, code₀, rfl⟩ := ho
          rcases List.mem_cons.mp hmem with heq | hold
          · obtain ⟨rfl, heq⟩ := Prod.mk.inj heq
            obtain ⟨rfl, -⟩ := Prod.mk.inj heq
            exact absurd hclock (not_lt.mpr (replay_stopped hr hne hC ht hacc hid hcode))
          · exact ih hclock hold
        · rw [note_checks _ fun v₀ code₀ hv => ho ⟨v₀, code₀, hv⟩] at hmem
          exact ih hclock hmem
      · rw [did_afterCall_ne hj] at hmem
        exact ih hclock hmem
  · exact fun d i' ch y _ ih _ _ _ => ih
  · rintro d t - ⟨hacc, ih⟩ -
    refine ⟨hacc, fun hclock => ih (lt_of_le_of_lt ?_ hclock)⟩
    exact Int.le_add_of_nonneg_right (Int.natCast_nonneg t)

end Runs

/-! ### One value, submitted twice -/

/-- The token of a second challenge of the account. -/
def secondToken : String := "Qa7LmZ4xNc1VbT9yKd3WsEf6RgHj8UpOi2XtYw5Dk0M"

/-- Two challenges of the account, just issued. -/
def twoChallenges : InMemoryCache :=
  pendingChallenge.set Reference.clock (ChallengeStore.key secondToken)
    (Reference.env.dumpJson { userId := Reference.aliceId }) (some challengeTtlSeconds)

/-- The one-time password of the moment in full-width digits, which NFKC maps to ASCII. -/
def wideCode : String := "３２４５５０"

/-- Two submissions for the account, about to start. -/
def submissions (reqs : Fin 2 → Request) : Cfg (Fin 2) :=
  start Reference.env reqs
    (Reference.world (Fin 2) (Reference.tables (Reference.alice true) false) twoChallenges)

/-- Completions of the two challenges. -/
def completesBoth (code code' : String) : Fin 2 → Request
  | 0 => .completeTwoFactor challengeToken code
  | 1 => .completeTwoFactor secondToken code'

/-- A request has had the code accepted as a one-time password of the account. -/
def Accepted (c : Cfg (Fin 2)) (i : Fin 2) (code : String) : Prop :=
  ∃ e ∈ (did c i).checks, e.1.id.value = Reference.aliceId ∧ e.2 = (code, true, e.1)

instance (c : Cfg (Fin 2)) (i : Fin 2) (code : String) : Decidable (Accepted c i code) :=
  inferInstanceAs (Decidable (∃ e ∈ (did c i).checks,
    e.1.id.value = Reference.aliceId ∧ e.2 = (code, true, e.1)))

/-- The same string through two challenges: the second completion is refused. -/
theorem replay_of_string_refused : ∃ c₁ c₂,
    (machine Reference.env (Fin 2)).run (submissions (completesBoth rightCode rightCode))
        (Reference.moves 0 17) = some c₁ ∧
      (machine Reference.env (Fin 2)).run c₁ (Reference.moves 1 6) = some c₂ ∧
      Accepted c₁ 0 rightCode ∧ ¬ Accepted c₂ 1 rightCode := by
  obtain ⟨c₁, c₂, h₁, h₂, ⟨hacc, hidle⟩, hclock⟩ := Machine.exists_run_run
    (P := fun c : Cfg (Fin 2) => Accepted c 0 rightCode ∧ c.hist 1 = [])
    (Q := fun c : Cfg (Fin 2) => c.shared.clock = Reference.clock)
    (by decide +kernel : ((machine Reference.env (Fin 2)).run
      (submissions (completesBoth rightCode rightCode)) (Reference.moves 0 17)).any
        (fun c₁ => _ && ((machine Reference.env (Fin 2)).run c₁
          (Reference.moves 1 6)).any _) = true)
  have hsteps : (machine Reference.env (Fin 2)).RunsWith
      (replaysInTurn Reference.env (completesBoth rightCode rightCode))
      (submissions (completesBoth rightCode rightCode))
      (Reference.moves 0 17 ++ Reference.moves 1 6) := by
    decide +kernel
  obtain ⟨hsteps₁, hsteps₂⟩ := hsteps.split h₁
  refine ⟨c₁, c₂, h₁, h₂, hacc, ?_⟩
  rintro ⟨⟨v, code', r⟩, hmem, hv, heq⟩
  obtain ⟨rfl, rfl⟩ : code' = rightCode ∧ r = (true, v) := Prod.mk.inj heq
  obtain ⟨⟨u, code, r⟩, hu, hid, heq⟩ := hacc
  obtain ⟨rfl, rfl⟩ : code = rightCode ∧ r = (true, u) := Prod.mk.inj heq
  refine totp_accepted_once (Machine.reach_of_run hsteps₁ h₁) (Machine.reach_of_run hsteps₂ h₂)
    ?_ (by decide : (1 : Fin 2) ≠ 0) hu (UserID.ext (hv.trans hid.symm)) rfl ?_ hmem
  · rw [hclock]
    decide
  · rw [did, hidle]
    exact List.not_mem_nil

/-- One value accepted twice, one request at a time: by `Verify2FAUseCase` as the same string,
and by `CompleteTwoFactorUseCase` in two spellings. -/
theorem replay_of_value_accepted :
    (∃ c, (machine Reference.env (Fin 2)).run
        (submissions fun _ => .verify2FA Reference.aliceId rightCode)
        (Reference.moves 0 3 ++ Reference.moves 1 3) = some c ∧
      c.shared.clock = Reference.clock ∧ Accepted c 0 rightCode ∧ Accepted c 1 rightCode) ∧
    ∃ c, (machine Reference.env (Fin 2)).run (submissions (completesBoth rightCode wideCode))
        (Reference.moves 0 17 ++ Reference.moves 1 17) = some c ∧
      c.shared.clock = Reference.clock ∧ Accepted c 0 rightCode ∧ Accepted c 1 wideCode ∧
      c.shared.db.sessions.length = 2 :=
  ⟨Machine.exists_run (by decide +kernel), Machine.exists_run (by decide +kernel)⟩

end BackendTemplate
