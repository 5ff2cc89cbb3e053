import BackendTemplate.Journal
import BackendTemplate.Reference

/-!
# Where Tokens and Rows Come From

The results on one-time tokens rest on two facts about whole runs. A token that a request has
drawn was drawn by no other request and was not stored when the run started (`Drew`). And an
entry of a journal names its author: the request that committed it, which has registered the
account or has derived the new row from the old one with the very tokens and clock readings of
its own history (`Authored`). No request makes two entries of one journal.

## Main results

* `Runs.drew` — tokens are drawn once, by one request.
* `journal_authored` — every entry is authored, each by another request.
-/

namespace BackendTemplate

open Atomic

variable {env : Env} {ι : Type}

/-! ### Tokens -/

/-- The random sources tokens are drawn from. -/
inductive TokenSource
  | urlsafe
  | hex
  | uuid
deriving DecidableEq

/-- The token a draw gives. -/
def Env.token (env : Env) : TokenSource → ℕ → String
  | .urlsafe, n => env.tokenUrlsafe n
  | .hex, n => env.tokenHex n
  | .uuid, n => env.uuidStr (env.uuid4 n)

/-- **Generated tokens are fresh**: two draws never give the same token, and no draw to come
gives a token whose hash is stored. -/
structure FreshTokens (env : Env) (w : World ι) : Prop where
  distinct : ∀ k k' m n, env.token k m = env.token k' n → m = n
  unseen : ∀ k n, w.rng ≤ n → ∀ row ∈ w.db.users,
    row.passwordResetTokenHash ≠ some (env.sha256 (env.token k n)) ∧
      row.emailVerificationTokenHash ≠ some (env.sha256 (env.token k n))

/-- The tokens of the reference environment are distinct. -/
theorem reference_distinct (k k' : TokenSource) (m n : ℕ)
    (h : Reference.env.token k m = Reference.env.token k' n) : m = n := by
  -- a URL-safe token holds a `Z` and no dash, a hexadecimal one neither, an id a dash
  have hchars : ∀ c, c ∈ (Reference.env.token k m).toList ↔
      c ∈ (Reference.env.token k' n).toList := by
    intro c
    rw [h]
  cases k with
  | urlsafe =>
      cases k' with
      | urlsafe => exact Reference.tokenUrlsafe_injective h
      | hex =>
          exact absurd rfl (Reference.tokenHex_chars
            ((hchars 'Z').mp (Reference.tokenUrlsafe_chars m).1)).2
      | uuid =>
          exact absurd rfl ((Reference.tokenUrlsafe_chars m).2 _
            ((hchars '-').mpr (Reference.dash_mem_uuidStr _)))
  | hex =>
      cases k' with
      | urlsafe =>
          exact absurd rfl (Reference.tokenHex_chars
            ((hchars 'Z').mpr (Reference.tokenUrlsafe_chars n).1)).2
      | hex => exact Reference.tokenHex_injective h
      | uuid =>
          exact absurd rfl (Reference.tokenHex_chars
            ((hchars '-').mpr (Reference.dash_mem_uuidStr _))).1
  | uuid =>
      cases k' with
      | urlsafe =>
          exact absurd rfl ((Reference.tokenUrlsafe_chars n).2 _
            ((hchars '-').mp (Reference.dash_mem_uuidStr _)))
      | hex =>
          exact absurd rfl (Reference.tokenHex_chars
            ((hchars '-').mp (Reference.dash_mem_uuidStr _))).1
      | uuid =>
          have hparse := congrArg Reference.env.parseUuid h
          rw [Env.token, Env.token, Env.parseUuid_uuidStr, Env.parseUuid_uuidStr] at hparse
          exact Reference.env.uuid4_injective (Option.some.inj hparse)

/-- In a reference world that stores no token, tokens are fresh. -/
theorem reference_fresh {w : World ι} (h : ∀ row ∈ w.db.users,
    row.passwordResetTokenHash = none ∧ row.emailVerificationTokenHash = none) :
    FreshTokens Reference.env w := by
  refine ⟨reference_distinct, fun k n _ row hrow => ?_⟩
  rw [(h row hrow).1, (h row hrow).2]
  exact ⟨by simp, by simp⟩

/-- The tokens a request has drawn; an id it has drawn can serve as one. -/
def Progress.secrets (env : Env) (p : Progress) : List String := p.tokens ++ p.drawn.map env.uuidStr

theorem mem_secrets_of_token {p : Progress} {t : String} (h : t ∈ p.tokens) : t ∈ p.secrets env :=
  List.mem_append_left _ h

/-- Only the token sources add a token. -/
theorem note_tokens (p : Progress) {o : Op} (ho : o ≠ .tokenUrlsafe) (ho' : ∀ n, o ≠ .tokenHexes n)
    (x : o.Res) : (p.note o x).tokens = p.tokens := by
  cases o with
  | tokenUrlsafe => exact absurd rfl ho
  | tokenHexes n => exact absurd rfl (ho' n)
  | acquireUser q =>
      match x with
      | .error e => rfl
      | .ok none => rfl
      | .ok (some u) => rfl
  | acquireSession sid =>
      match x with
      | .error e => rfl
      | .ok none => rfl
      | .ok (some s) => rfl
  | acquireSessionByToken hash =>
      match x with
      | .error e => rfl
      | .ok none => rfl
      | .ok (some s) => rfl
  | acquireSessionsOf u => cases x <;> rfl
  | cacheGet k => cases x <;> rfl
  | updateUser u => cases x <;> rfl
  | addUser u => cases x <;> rfl
  | addSession s => cases x <;> rfl
  | updateSession s => cases x <;> rfl
  | commit => cases x <;> rfl
  | _ => rfl

section Runs

variable [Fintype ι] [DecidableEq ι]

/-- **A token that a request has drawn was, or is a draw of this very call.** -/
theorem mem_note_secrets {p : Progress} {ch : Choice} {i : ι} {o : Op} {x : o.Res}
    {w w' : World ι} (he : exec env ch i o w = some (x, w')) {t : String}
    (ht : t ∈ (p.note o x).secrets env) :
    t ∈ p.secrets env ∨ ∃ k n, w.rng ≤ n ∧ n < w'.rng ∧ t = env.token k n := by
  by_cases hd : o = .uuid4
  · subst hd
    obtain ⟨rfl, rfl⟩ := Prod.mk.inj (Option.some.inj he)
    rcases List.mem_append.mp ht with ht | ht
    · exact Or.inl (List.mem_append_left _ ht)
    · rcases List.mem_cons.mp ht with rfl | ht
      · exact Or.inr ⟨.uuid, w.rng, le_rfl, Nat.lt_succ_self _, rfl⟩
      · exact Or.inl (List.mem_append_right _ ht)
  · by_cases hu : o = .tokenUrlsafe
    · subst hu
      obtain ⟨rfl, rfl⟩ := Prod.mk.inj (Option.some.inj he)
      rcases List.mem_cons.mp ht with rfl | ht
      · exact Or.inr ⟨.urlsafe, w.rng, le_rfl, Nat.lt_succ_self _, rfl⟩
      · exact Or.inl ht
    · by_cases hh : ∃ n, o = .tokenHexes n
      · obtain ⟨n, rfl⟩ := hh
        obtain ⟨rfl, rfl⟩ := Prod.mk.inj (Option.some.inj he)
        rw [Progress.secrets, Progress.note, List.append_assoc] at ht
        rcases List.mem_append.mp ht with ht | ht
        · obtain ⟨k, hk, rfl⟩ := List.mem_map.mp ht
          have hk : k < n := List.mem_range.mp hk
          exact Or.inr ⟨.hex, w.rng + k, Nat.le_add_right _ _, Nat.add_lt_add_left hk _, rfl⟩
        · exact Or.inl ht
      · rw [Progress.secrets, note_drawn p hd x,
          note_tokens p hu (fun n hn => hh ⟨n, hn⟩) x] at ht
        exact Or.inl ht

/-- **Where the tokens of a run come from.** -/
structure Drew (env : Env) (w : World ι) (c : Cfg ι) : Prop where
  grown : w.rng ≤ c.shared.rng
  drawn : ∀ i, ∀ t ∈ (did c i).secrets env, ∃ k n, w.rng ≤ n ∧ n < c.shared.rng ∧ t = env.token k n
  apart : ∀ i j, ∀ t ∈ (did c i).secrets env, t ∈ (did c j).secrets env → i = j

variable {reqs : ι → Request} {C : Steps ι} {w : World ι} {c c' : Cfg ι}

/-- A call keeps the tokens apart: what it draws, nobody has drawn. -/
theorem Drew.call (h : Drew env w c) (hf : FreshTokens env w) {ch : Choice} {i : ι} {o : Op}
    {x : o.Res} {a : Act Response} {w' : World ι} (he : exec env ch i o c.shared = some (x, w'))
    (hle : c.shared.rng ≤ w'.rng) : Drew env w (Machine.afterCall c i o x a w') := by
  have hnew : ∀ j, ∀ t ∈ (did (Machine.afterCall c i o x a w') j).secrets env,
      t ∈ (did c j).secrets env ∨
        j = i ∧ ∃ k n, c.shared.rng ≤ n ∧ n < w'.rng ∧ t = env.token k n := by
    intro j t ht
    by_cases hji : j = i
    · subst hji
      rw [did_afterCall_self] at ht
      exact (mem_note_secrets he ht).imp_right fun hn => ⟨rfl, hn⟩
    · rw [did_afterCall_ne hji] at ht
      exact Or.inl ht
  have hunused : ∀ j, ∀ t ∈ (did c j).secrets env, ∀ k n, c.shared.rng ≤ n → t ≠ env.token k n := by
    rintro j t ht k n hn rfl
    obtain ⟨k', m, -, hm, heq⟩ := h.drawn j _ ht
    have := hf.distinct k k' n m heq
    omega
  refine ⟨h.grown.trans hle, fun j t ht => ?_, fun j j' t ht ht' => ?_⟩
  · rcases hnew j t ht with hold | ⟨-, k, n, hn, hlt, rfl⟩
    · obtain ⟨k, n, hn, hlt, rfl⟩ := h.drawn j t hold
      exact ⟨k, n, hn, hlt.trans_le hle, rfl⟩
    · exact ⟨k, n, h.grown.trans hn, hlt, rfl⟩
  · rcases hnew j t ht with hold | ⟨hj, k, n, hn, -, heq⟩
    · rcases hnew j' t ht' with hold' | ⟨-, k, n, hn, -, heq⟩
      · exact h.apart j j' t hold hold'
      · exact absurd heq (hunused j t hold k n hn)
    · rcases hnew j' t ht' with hold' | ⟨hj', -⟩
      · exact absurd heq (hunused j' t hold' k n hn)
      · exact hj.trans hj'.symm

/-- **Every token is drawn once, by one request.** -/
theorem Runs.drew (hf : FreshTokens env w) (h : Runs env reqs C w c) : Drew env w c := by
  refine h.induction (Drew env w) ?_ ?_ ?_ ?_
  · exact ⟨le_rfl, fun i t ht => absurd ht List.not_mem_nil,
      fun i j t ht => absurd ht List.not_mem_nil⟩
  · intro c i ch o k x w' _ ih _ _ _ he
    refine ih.call hf he ?_
    by_cases ho : o = .commit
    · subst ho
      rcases exec_commit he with ⟨rfl, rfl⟩ | ⟨rfl, rfl⟩
      · exact le_rfl
      · exact Nat.le_add_right _ _
    · exact (exec_db ho he).2
  · exact fun c i ch x _ ih _ _ _ => ⟨ih.grown, ih.drawn, ih.apart⟩
  · exact fun c d _ ih _ => ⟨ih.grown, ih.drawn, ih.apart⟩

omit [Fintype ι] [DecidableEq ι] in
/-- A token drawn in the run was not stored when it started. -/
theorem Drew.unseen (h : Drew env w c) (hf : FreshTokens env w) {i : ι} {t : String}
    (ht : t ∈ (did c i).secrets env) {x : Uuid} {row : UserRow} (hrow : w.db.user x = some row) :
    row.passwordResetTokenHash ≠ some (env.sha256 t) ∧
      row.emailVerificationTokenHash ≠ some (env.sha256 t) := by
  obtain ⟨k, n, hn, -, rfl⟩ := h.drawn i t ht
  exact hf.unseen k n hn row (Keyed.mem_of_lookup hrow)

/-! ### Authors -/

/-- The author of the entry has registered the account as `u`. -/
def Entry.RegisteredAs (env : Env) (reqs : ι → Request) (c : Cfg ι) (e : Entry ι) (u : User) :
    Prop :=
  e.old = none ∧ (did c e.author).userInsert = some u ∧
    Registers env (reqs e.author) (did c e.author) u ∧
    ∃ iv, e.new = some (userToValues env iv u 0)

/-- The author of the entry has derived `u` from the user `u₀` of the old row. -/
def Entry.DerivedAs (env : Env) (reqs : ι → Request) (c : Cfg ι) (e : Entry ι) (u₀ u : User) :
    Prop :=
  ∃ row iv, e.old = some row ∧ rowToUser env row = .ok u₀ ∧
    (did c e.author).userWrite = some u ∧ Derives env (reqs e.author) (did c e.author) u₀ u ∧
    e.new = some (userToValues env iv u (row.version + 1))

/-- **An entry is authored**: its author has committed, and has registered the account or has
derived the new row from the old one. -/
def Authored (env : Env) (reqs : ι → Request) (c : Cfg ι) (e : Entry ι) : Prop :=
  (did c e.author).committed = true ∧
    ((∃ u, e.RegisteredAs env reqs c u) ∨ ∃ u₀ u, e.DerivedAs env reqs c u₀ u)

theorem Authored.step (h : Runs env reqs C w c) {l : Label ι Choice ℕ}
    (hs : (machine env ι).step c l = some c') {e : Entry ι} (he : Authored env reqs c e) :
    Authored env reqs c' e := by
  obtain ⟨hext, hkeep⟩ := h.step_keeps hs e.author
  obtain ⟨hc, hcase⟩ := he
  obtain ⟨hc', hu, hi, -⟩ := hkeep hc
  refine ⟨hc', ?_⟩
  rcases hcase with ⟨u, hold, hins, hreg, hnew⟩ | ⟨u₀, u, row, iv, hold, hok, hw, hd, hnew⟩
  · exact Or.inl ⟨u, hold, hi.trans hins, hreg.mono hext, hnew⟩
  · exact Or.inr ⟨u₀, u, row, iv, hold, hok, hu.trans hw, hd.mono hext, hnew⟩

/-- **The entry of a commit is authored by the request that commits.** -/
theorem commit_authored (h : Runs env reqs C w c) (hw : Startable env w) {i : ι}
    {k : calls.Res .commit → Act Response} (ht : c.threads i = .running (.call .commit k))
    (hc : (did c i).committed = false) {x : Uuid}
    (hne : c.shared.db.user x ≠ (c.shared.view i).user x) :
    Authored env reqs
      (Machine.afterCall c i .commit (.ok ()) (k (.ok ())) (c.shared.commit env i))
      ⟨i, c.shared.db.user x, (c.shared.view i).user x⟩ := by
  have ho := h.isOpen hw ht hc
  have hself : did (Machine.afterCall c i .commit (.ok ()) (k (.ok ())) (c.shared.commit env i)) i =
      { did c i with committed := true } := did_afterCall_self _ _ _ _ _ _
  have hext := note_extends (did c i) .commit (.ok ())
  refine ⟨by rw [hself], ?_⟩
  cases hx : c.shared.db.user x with
  | none =>
      cases hv : (c.shared.view i).user x with
      | none => exact absurd (hx.trans hv.symm) hne
      | some row =>
          obtain ⟨u, iv, hu, rfl⟩ := ho.new_user hx hv
          refine Or.inl ⟨u, rfl, ?_, ?_, iv, rfl⟩
          · rw [hself]
            exact hu
          · rw [hself]
            exact (ho.coherent.userInsert u hu).mono hext
  | some row =>
      rcases (h.tracked hw).commit_row ho ht hx with ⟨hsame, -⟩ |
        ⟨u₀, u, iv, hu, -, -, hd, hok, hview⟩
      · exact absurd (hx.trans hsame.symm) hne
      · refine Or.inr ⟨u₀, u, row, iv, rfl, hok, ?_, ?_, hview⟩
        · rw [hself]
          exact hu
        · rw [hself]
          exact hd.mono hext

/-- **Every entry of a journal is authored, each by another request.** -/
theorem journal_authored (hw : Startable env w) (x : Uuid) {ls : List (Label ι Choice ℕ)}
    (h : (machine env ι).run (start env reqs w) ls = some c) :
    (∀ e ∈ journal env x (start env reqs w) ls, Authored env reqs c e) ∧
      ((journal env x (start env reqs w) ls).map Entry.author).Nodup := by
  induction ls using List.reverseRecOn generalizing c with
  | nil => exact ⟨fun e he => absurd he List.not_mem_nil, List.nodup_nil⟩
  | append_singleton ls l ih =>
      rw [Machine.run_append] at h
      obtain ⟨c₁, h₁, h₂⟩ := Option.bind_eq_some_iff.mp h
      rw [Machine.run_singleton] at h₂
      have hr := runs_of_run h₁
      obtain ⟨hall, hnodup⟩ := ih h₁
      have hkept := fun e he => (hall e he).step hr h₂
      have hentry : journal env x c₁ [l] = (entryOf x c₁ c l).toList := by
        rw [journal_cons h₂]
        exact List.append_nil _
      rw [journal_append h₁, hentry]
      cases hnew : entryOf x c₁ c l with
      | none =>
          rw [Option.toList_none, List.append_nil]
          exact ⟨hkept, hnodup⟩
      | some e =>
          -- an entry is made by a commit, of a request that had not committed before
          obtain ⟨hauth, hunc⟩ : Authored env reqs c e ∧ (did c₁ e.author).committed = false := by
            rcases hr.step_commits h₂ with ⟨i, ch, k, rfl, ht, hc, rfl⟩ | ⟨hdb, -⟩
            · rw [entryOf, afterCall_shared, commit_user] at hnew
              split at hnew
              · cases hnew
              · rename_i hne
                obtain rfl := Option.some.inj hnew
                exact ⟨commit_authored hr hw ht hc hne, hc⟩
            · cases l with
              | act i ch =>
                  rw [entryOf, hdb, if_pos rfl] at hnew
                  cases hnew
              | env d => cases hnew
          refine ⟨fun e' he' => ?_, ?_⟩
          · rcases List.mem_append.mp he' with he' | he'
            · exact hkept e' he'
            · rw [Option.toList_some, List.mem_singleton] at he'
              exact he' ▸ hauth
          · rw [Option.toList_some, List.map_append, List.map_singleton]
            refine List.nodup_append.mpr ⟨hnodup, List.nodup_singleton _, ?_⟩
            rintro i hi _ hj rfl
            obtain ⟨e', he', rfl⟩ := List.mem_map.mp hi
            have hc := (hall e' he').1
            rw [List.mem_singleton.mp hj, hunc] at hc
            exact absurd hc (by simp)

end Runs

end BackendTemplate
