import BackendTemplate.Registration

/-!
# Retried Registrations

Any number of registrations from one client with one idempotency key. Nothing is reserved between
the lookup of the key and the store of the id, so a request that looks the key up while another one
is on its way registers as well; what then keeps it from creating a second account is only that both
ask for the same name or the same address, which the tables allow once.

## Main results

* `Registered.lookup`, `Registered.insert`, `Registered.commit`, `Registered.store` — what one call
  keeps of the account that was created.
* `one_account_per_key` — one account and one answer, in every run in which a request looks the key
  up only while every other one on its way asks for the same name or address.
-/

namespace BackendTemplate

open Atomic Atomic.Prog IdempotencyStore

/-! ### Stages and names -/

/-- A registration that has found nothing stored and has not stored its own id. -/
def RegisterStage.underway : RegisterStage → Bool
  | .missed | .inserted _ | .committed _ => true
  | _ => false

/-- The account a registration has created. -/
def RegisterStage.account : RegisterStage → Option Uuid
  | .committed id | .stored id => some id
  | _ => none

/-- A registration that has stored its id. -/
def RegisterStage.isStored : RegisterStage → Bool
  | .stored _ => true
  | _ => false

/-- **Two registrations that cannot both be granted**: they ask for the same name, or for the same
address. -/
def RegisterData.Meets (d d' : RegisterData) : Prop :=
  d.username = d'.username ∨ d.address.isSome = true ∧ d.address = d'.address

instance (d d' : RegisterData) : Decidable (d.Meets d') :=
  inferInstanceAs (Decidable (_ ∨ _ ∧ _))

theorem RegisterData.Meets.symm {d d' : RegisterData} (h : d.Meets d') : d'.Meets d := by
  rcases h with h | ⟨hsome, h⟩
  · exact Or.inl h.symm
  · exact Or.inr ⟨h ▸ hsome, h.symm⟩

/-- The row carries the name and the address of a registration. -/
def UserRow.Asked (row : UserRow) (data : RegisterData) : Prop :=
  row.username = data.username ∧ row.email = data.address

section Rows

variable {row row' : UserRow} {d d' : RegisterData}

/-- Rows of two registrations that meet hold a common key. -/
theorem meets_keys (h : d.Meets d') (hrow : row.Asked d) (hrow' : row'.Asked d') :
    ∃ k ∈ (Write.userInsert row).keys, k ∈ (Write.userInsert row').keys := by
  rcases h with h | ⟨hsome, h⟩
  · refine ⟨.username row.username, by simp [Write.keys], ?_⟩
    rw [hrow.1, h, ← hrow'.1]
    simp [Write.keys]
  · obtain ⟨address, haddress⟩ := Option.isSome_iff_exists.mp hsome
    refine ⟨.email address, ?_, ?_⟩
    · simp [Write.keys, hrow.2, haddress]
    · simp [Write.keys, hrow'.2, ← h, haddress]

/-- The second of them is refused. -/
theorem meets_refused {db : Db} (h : d.Meets d') (hrow : row.Asked d) (hrow' : row'.Asked d')
    (hmem : row ∈ db.users) : db.admitsAll [.userInsert row'] = false := by
  have hany : db.users.any (fun r => r.id = row'.id || r.username = row'.username ||
      (r.email.isSome && r.email = row'.email)) = true := by
    refine List.any_eq_true.mpr ⟨row, hmem, ?_⟩
    rcases h with h | ⟨hsome, h⟩
    · simp [hrow.1, hrow'.1, h]
    · simp [hrow.2, hrow'.2, ← h, hsome]
  simp [Db.admitsAll, Db.admits, hany]

end Rows

/-! ### The entry of the key -/

/-- The entry under a key is alive. -/
def World.Caches {ι : Type} (w : World ι) (key value : String) : Prop :=
  ∃ e, w.cache.store key = some (value, e) ∧ InMemoryCache.expired w.clock e = false

/-- Something is cached under a key. -/
def World.hasEntry {ι : Type} (w : World ι) (key : String) : Bool :=
  (w.cache.store key).any fun entry => !InMemoryCache.expired w.clock entry.2

theorem hasEntry_iff {ι : Type} {w : World ι} {key : String} :
    w.hasEntry key = true ↔ ∃ value, w.Caches key value := by
  rw [World.hasEntry, Option.any_eq_true]
  constructor
  · rintro ⟨⟨value, e⟩, he, hlive⟩
    exact ⟨value, e, he, by simpa using hlive⟩
  · rintro ⟨value, e, he, hlive⟩
    exact ⟨(value, e), he, by simp [hlive]⟩

/-! ### The invariant -/

section Registered

variable {ι Other : Type} {env : Env} {adapter : ResponseAdapter Other} {key : String}
  {bodies : ι → RegisterData} {users : List UserRow} {running : ι → Prop} {st : ι → RegisterStage}
  {w w' : World ι}

/-- A registration that can still create an account, or has. -/
def Live (running : ι → Prop) (st : ι → RegisterStage) (i : ι) : Prop :=
  running i ∧ (st i).underway = true ∨ (st i).account.isSome = true

/-- Before any account was created: nothing is cached, and nobody has found anything. -/
structure Before (key : String) (users : List UserRow) (st : ι → RegisterStage) (w : World ι) :
    Prop where
  none_ : ∀ i, (st i).account = none
  table : w.db.users = users
  entry : ∀ value, ¬ w.Caches key value
  hits : ∀ i userId, st i ≠ .hit userId

/-- After registration `i` has created an account: no other one has or can, and what is cached or
was found is its id. -/
structure After (env : Env) (adapter : ResponseAdapter Other) (key : String)
    (bodies : ι → RegisterData) (users : List UserRow) (st : ι → RegisterStage) (w : World ι)
    (i : ι) (row : UserRow) : Prop where
  account : (st i).account = some row.id
  asked : row.Asked (bodies i)
  others : ∀ j, j ≠ i → (st j).account = none
  table : w.db.users = users ++ [row]
  idle : ∀ j, w.pending j = []
  entry : ∀ value, w.Caches key value → (st i).isStored = true ∧
    value = adapter.dumpJson (.single "user_id" (env.uuidStr row.id))
  hits : ∀ j userId, st j = .hit userId → userId = env.uuidStr row.id

/-- **What the registrations have registered**: open transactions hold one row each, and only one of
them does; registrations that can still create an account meet; and one account was created, or
none. -/
structure Registered (env : Env) (adapter : ResponseAdapter Other) (key : String)
    (bodies : ι → RegisterData) (users : List UserRow) (running : ι → Prop)
    (st : ι → RegisterStage) (w : World ι) : Prop where
  opened : ∀ i id, running i → st i = .inserted id →
    ∃ row, row.id = id ∧ row.Asked (bodies i) ∧ w.pending i = [.userInsert row]
  closed : ∀ i, w.pending i ≠ [] → running i ∧ ∃ id, st i = .inserted id
  single : ∀ i j, w.pending i ≠ [] → w.pending j ≠ [] → i = j
  meets : ∀ i j, i ≠ j → Live running st i → Live running st j → (bodies i).Meets (bodies j)
  inFlight : ∀ i id, st i = .committed id → running i
  created : Before key users st w ∨ ∃ i row, After env adapter key bodies users st w i row

/-- The worlds the invariant cannot tell apart. -/
theorem Registered.same (h : Registered env adapter key bodies users running st w)
    (hdb : w'.db.users = w.db.users) (hpending : w'.pending = w.pending)
    (hentry : ∀ value, w'.Caches key value → w.Caches key value) :
    Registered env adapter key bodies users running st w' := by
  refine ⟨hpending ▸ h.opened, hpending ▸ h.closed, hpending ▸ h.single, h.meets, h.inFlight, ?_⟩
  rcases h.created with hb | ⟨i, row, ha⟩
  · exact Or.inl ⟨hb.none_, hdb.trans hb.table, fun value hv => hb.entry value (hentry value hv),
      hb.hits⟩
  · exact Or.inr ⟨i, row, ha.account, ha.asked, ha.others, hdb.trans ha.table, hpending ▸ ha.idle,
      fun value hv => ha.entry value (hentry value hv), ha.hits⟩

/-- A world with the same cache and clock has the same entries. -/
theorem caches_same (hcache : w'.cache = w.cache) (hclock : w'.clock = w.clock) {key value : String}
    (h : w'.Caches key value) : w.Caches key value := by
  obtain ⟨e, hentry, halive⟩ := h
  rw [hcache] at hentry
  rw [hclock] at halive
  exact ⟨e, hentry, halive⟩

/-- A registration that has not inserted a row has an empty transaction. -/
theorem Registered.idle (h : Registered env adapter key bodies users running st w)
    {i : ι} (hi : ∀ id, st i ≠ .inserted id) : w.pending i = [] := by
  by_contra hpending
  obtain ⟨-, id, hid⟩ := h.closed i hpending
  exact hi id hid

variable [DecidableEq ι] {i : ι} {s : RegisterStage}

theorem live_update_ne {j : ι} (hj : j ≠ i) :
    Live running (Function.update st i s) j ↔ Live running st j := by
  rw [Live, Live, Function.update_of_ne hj]

/-- **One registration moves**: what has to hold of its new stage. -/
theorem Registered.moved (h : Registered env adapter key bodies users running st w)
    (hothers : ∀ j, j ≠ i → w'.pending j = w.pending j)
    (hopened : ∀ id, running i → s = .inserted id →
      ∃ row, row.id = id ∧ row.Asked (bodies i) ∧ w'.pending i = [.userInsert row])
    (hclosed : w'.pending i ≠ [] → running i ∧ ∃ id, s = .inserted id)
    (hsingle : w'.pending i ≠ [] → ∀ j, j ≠ i → w.pending j = [])
    (hmeets : running i ∧ s.underway = true ∨ s.account.isSome = true →
      ∀ j, j ≠ i → Live running st j → (bodies i).Meets (bodies j))
    (hflight : ∀ id, s = .committed id → running i)
    (hcreated : Before key users (Function.update st i s) w' ∨
      ∃ j row, After env adapter key bodies users (Function.update st i s) w' j row) :
    Registered env adapter key bodies users running (Function.update st i s) w' where
  opened j id hj hid := by
    by_cases hij : j = i
    · subst hij
      rw [Function.update_self] at hid
      exact hopened id hj hid
    · rw [Function.update_of_ne hij] at hid
      rw [hothers j hij]
      exact h.opened j id hj hid
  closed j hj := by
    by_cases hij : j = i
    · subst hij
      rw [Function.update_self]
      exact hclosed hj
    · rw [Function.update_of_ne hij]
      rw [hothers j hij] at hj
      exact h.closed j hj
  single j k hj hk := by
    by_cases hji : j = i
    · subst hji
      by_contra hne
      exact hk ((hothers k (Ne.symm hne)).trans (hsingle hj k (Ne.symm hne)))
    · by_cases hki : k = i
      · subst hki
        exact absurd ((hothers j hji).trans (hsingle hk j hji)) hj
      · exact h.single j k (hothers j hji ▸ hj) (hothers k hki ▸ hk)
  meets j k hjk hj hk := by
    by_cases hji : j = i
    · subst hji
      rw [Live, Function.update_self] at hj
      exact hmeets hj k (Ne.symm hjk) ((live_update_ne (Ne.symm hjk)).mp hk)
    · by_cases hki : k = i
      · subst hki
        rw [Live, Function.update_self] at hk
        exact (hmeets hk j hji ((live_update_ne hji).mp hj)).symm
      · exact h.meets j k hjk ((live_update_ne hji).mp hj) ((live_update_ne hki).mp hk)
  inFlight j id hj := by
    by_cases hij : j = i
    · subst hij
      rw [Function.update_self] at hj
      exact hflight id hj
    · rw [Function.update_of_ne hij] at hj
      exact h.inFlight j id hj
  created := hcreated

/-- Nothing was created by the move of a registration. -/
theorem Before.moved (h : Before key users st w) (haccount : s.account = none)
    (hhit : ∀ userId, s ≠ .hit userId) (hdb : w'.db.users = w.db.users)
    (hentry : ∀ value, ¬ w'.Caches key value) : Before key users (Function.update st i s) w' where
  none_ j := by
    by_cases hij : j = i
    · rw [hij, Function.update_self, haccount]
    · rw [Function.update_of_ne hij, h.none_ j]
  table := hdb.trans h.table
  entry := hentry
  hits j userId hj := by
    by_cases hij : j = i
    · rw [hij, Function.update_self] at hj
      exact hhit userId hj
    · rw [Function.update_of_ne hij] at hj
      exact h.hits j userId hj

/-- A registration moves that has not created the account. -/
theorem After.moved {k : ι} {row : UserRow} (h : After env adapter key bodies users st w k row)
    (hik : i ≠ k) (haccount : s.account = none)
    (hhit : ∀ userId, s = .hit userId → userId = env.uuidStr row.id)
    (hdb : w'.db.users = w.db.users) (hpending : ∀ j, w'.pending j = [])
    (hentry : ∀ value, w'.Caches key value → w.Caches key value) :
    After env adapter key bodies users (Function.update st i s) w' k row where
  account := by
    rw [Function.update_of_ne (Ne.symm hik)]
    exact h.account
  asked := h.asked
  others j hj := by
    by_cases hij : j = i
    · rw [hij, Function.update_self, haccount]
    · rw [Function.update_of_ne hij, h.others j hj]
  table := hdb.trans h.table
  idle := hpending
  entry value hv := by
    rw [Function.update_of_ne (Ne.symm hik)]
    exact h.entry value (hentry value hv)
  hits j userId hj := by
    by_cases hij : j = i
    · rw [hij, Function.update_self] at hj
      exact hhit userId hj
    · rw [Function.update_of_ne hij] at hj
      exact h.hits j userId hj

/-- **The end of a registration**, in whose last stage no row is committed and not stored. -/
theorem Registered.exit (h : Registered env adapter key bodies users running st w)
    {running' : ι → Prop} (hrun : ∀ j, running' j ↔ running j ∧ j ≠ i)
    (hi : ∀ id, st i ≠ .committed id) :
    Registered env adapter key bodies users running' st (w.rollback i) := by
  have hpending : ∀ j, j ≠ i → (w.rollback i).pending j = w.pending j := fun j hj => by
    rw [rollback_pending, Function.update_of_ne hj]
  have hself : (w.rollback i).pending i = [] := by rw [rollback_pending, Function.update_self]
  have hne : ∀ j, (w.rollback i).pending j ≠ [] → j ≠ i ∧ w.pending j ≠ [] := by
    intro j hj
    have hji : j ≠ i := by
      rintro rfl
      exact hj hself
    exact ⟨hji, hpending j hji ▸ hj⟩
  have hlive : ∀ j, Live running' st j → Live running st j := by
    rintro j (⟨hj, hunderway⟩ | haccount)
    · exact Or.inl ⟨((hrun j).mp hj).1, hunderway⟩
    · exact Or.inr haccount
  refine ⟨fun j id hj hid => ?_, fun j hj => ?_, fun j k hj hk => ?_, fun j k hjk hj hk => ?_,
    fun j id hj => ?_, ?_⟩
  · obtain ⟨hj, hji⟩ := (hrun j).mp hj
    rw [hpending j hji]
    exact h.opened j id hj hid
  · obtain ⟨hji, hj⟩ := hne j hj
    obtain ⟨hjrun, hid⟩ := h.closed j hj
    exact ⟨(hrun j).mpr ⟨hjrun, hji⟩, hid⟩
  · exact h.single j k (hne j hj).2 (hne k hk).2
  · exact h.meets j k hjk (hlive j hj) (hlive k hk)
  · have hji : j ≠ i := by
      rintro rfl
      exact hi id hj
    exact (hrun j).mpr ⟨h.inFlight j id hj, hji⟩
  · rcases h.created with hb | ⟨k, row, ha⟩
    · exact Or.inl ⟨hb.none_, hb.table, fun value hv => hb.entry value (caches_same rfl rfl hv), hb.hits⟩
    · refine Or.inr ⟨k, row, ha.account, ha.asked, ha.others, ha.table, fun j => ?_,
        fun value hv => ha.entry value (caches_same rfl rfl hv), ha.hits⟩
      by_cases hji : j = i
      · rw [hji, hself]
      · rw [hpending j hji, ha.idle j]

/-- What is read back of the id that was stored. -/
theorem userIdText_single (id : String) :
    userIdText (some (.single "user_id" id : ResponseDict Other)) = some id := rfl

variable [Fintype ι] {ch : Choice}

/-- **The lookup.** It finds the id of the account, if there is one and its entry is alive; where it
finds nothing, it meets every registration on its way. -/
theorem Registered.lookup (h : Registered env adapter key bodies users running st w)
    (hfresh : st i = .fresh) {x : Option String}
    (hmeet : ∀ j, j ≠ i → running j → (st j).underway = true → (bodies i).Meets (bodies j))
    (hlive : (∃ j, (st j).isStored = true) → w.hasEntry key = true)
    (he : exec env ch i (.cacheGet key) w = some (x, w')) :
    Registered env adapter key bodies users running
      (Function.update st i ((st i).note adapter (.cacheGet key) x)) w' := by
  obtain ⟨hdb, hpending, -⟩ := exec_quiet rfl he
  have hidle : w'.pending i = [] := by
    rw [hpending]
    exact h.idle fun id hid => by rw [hfresh] at hid; cases hid
  have hdbu : w'.db.users = w.db.users := congrArg Db.users hdb
  rcases exec_cacheGet he with ⟨raw, e, rfl, hstore, halive, rfl⟩ | ⟨rfl, hover, hclock, hstore⟩
  · -- an entry that is alive holds the id of the account
    rcases h.created with hb | ⟨k, row, ha⟩
    · exact absurd ⟨e, hstore, halive⟩ (hb.entry raw)
    · obtain ⟨-, rfl⟩ := ha.entry raw ⟨e, hstore, halive⟩
      have hik : i ≠ k := by
        rintro rfl
        have haccount := ha.account
        rw [hfresh] at haccount
        cases haccount
      have hnote : (st i).note adapter (.cacheGet key)
          (some (adapter.dumpJson (.single "user_id" (env.uuidStr row.id)))) =
            .hit (env.uuidStr row.id) := by
        rw [RegisterStage.note, Option.bind_some, adapter.validateJson_dumpJson, userIdText_single]
        rfl
      rw [hnote]
      refine h.moved (fun _ _ => rfl) (by simp) (absurd hidle) (absurd hidle) ?_ (by simp)
        (Or.inr ⟨k, row, ha.moved hik rfl ?_ rfl ha.idle fun _ => id⟩)
      · rintro (⟨-, hs⟩ | hs)
        · cases hs
        · cases hs
      · rintro userId hs
        cases hs
        rfl
  · -- nothing is cached, so nobody has stored an id
    have hnone : ∀ value, ¬ w.Caches key value := by
      rintro value ⟨e, hentry, halive⟩
      rw [hover value e hentry] at halive
      cases halive
    have hnone' : ∀ value, ¬ w'.Caches key value := by
      rintro value ⟨e, hentry, -⟩
      rw [hstore, Function.update_self] at hentry
      cases hentry
    change Registered _ _ _ _ _ _ (Function.update st i .missed) w'
    refine h.moved (fun j _ => congrFun hpending j) (by simp) (absurd hidle) (absurd hidle) ?_
      (by simp) ?_
    · rintro - j hj (⟨hrun, hunderway⟩ | haccount)
      · exact hmeet j hj hrun hunderway
      · cases hst : st j with
        | committed id => exact hmeet j hj (h.inFlight j id hst) (by rw [hst]; rfl)
        | stored id =>
            obtain ⟨value, hvalue⟩ := hasEntry_iff.mp (hlive ⟨j, by rw [hst]; rfl⟩)
            exact absurd hvalue (hnone value)
        | _ =>
            rw [hst] at haccount
            cases haccount
    · rcases h.created with hb | ⟨k, row, ha⟩
      · exact Or.inl (hb.moved rfl (by simp) hdbu hnone')
      · have hik : i ≠ k := by
          rintro rfl
          have haccount := ha.account
          rw [hfresh] at haccount
          cases haccount
        exact Or.inr ⟨k, row, ha.moved hik rfl (by simp) hdbu (fun j => hpending ▸ ha.idle j)
          fun value hv => absurd hv (hnone' value)⟩

/-- **The insert.** Where it succeeds no other transaction holds a row, and no account was created:
it meets whoever could have. -/
theorem Registered.insert (h : Registered env adapter key bodies users running st w)
    (hi : running i) (hmissed : st i = .missed) {u : User} (hname : u.username.value = (bodies i).username)
    (haddress : u.email.value = (bodies i).address) {x : Except AppError Unit}
    (he : exec env ch i (.addUser u) w = some (x, w')) :
    Registered env adapter key bodies users running
      (Function.update st i ((st i).note adapter (.addUser u) x)) w' := by
  have hidle : w.pending i = [] := h.idle fun id hid => by rw [hmissed] at hid; cases hid
  have hlive : Live running st i := Or.inl ⟨hi, by rw [hmissed]; rfl⟩
  rw [exec] at he
  rcases execWrites_cases he with ⟨rfl, rfl⟩ | ⟨rfl, hfree, hadmits, rfl⟩
  · change Registered _ _ _ _ _ _ (Function.update st i (st i)) w'
    rw [Function.update_eq_self]
    exact h
  · have hasked : (userToValues env w.rng u 0).Asked (bodies i) := ⟨hname, haddress⟩
    have hothers : ∀ j, j ≠ i → w.pending j = [] := by
      intro j hj
      by_contra hpending
      obtain ⟨hrun, id, hid⟩ := h.closed j hpending
      obtain ⟨row, -, hrow, hrows⟩ := h.opened j id hrun hid
      obtain ⟨k, hk, hk'⟩ := meets_keys (h.meets j i hj (Or.inl ⟨hrun, by rw [hid]; rfl⟩) hlive)
        hrow hasked
      exact hfree j hj _ (hrows ▸ List.mem_singleton_self _) k hk _ (List.mem_singleton_self _) hk'
    have hpending : ((w.issue i [.userInsert (userToValues env w.rng u 0)]).draw 1).pending =
        Function.update w.pending i [.userInsert (userToValues env w.rng u 0)] := by
      change (w.issue i _).pending = _
      rw [issue_pending, hidle, List.nil_append]
    refine h.moved (fun j hj => by rw [hpending, Function.update_of_ne hj]) ?_ ?_ (fun _ => hothers)
      ?_ (fun id hid => by cases hid) ?_
    · rintro id - hid
      cases hid
      exact ⟨_, rfl, hasked, by rw [hpending, Function.update_self]⟩
    · exact fun _ => ⟨hi, _, rfl⟩
    · exact fun _ j hj hj' => h.meets i j (Ne.symm hj) hlive hj'
    · rcases h.created with hb | ⟨k, row, ha⟩
      · exact Or.inl (hb.moved rfl (fun userId hid => by cases hid) rfl fun value hv =>
          hb.entry value (caches_same rfl rfl hv))
      · -- the account is there: the insert is refused
        have hik : i ≠ k := by
          rintro rfl
          have haccount := ha.account
          rw [hmissed] at haccount
          cases haccount
        have hmeets := h.meets k i (Ne.symm hik) (Or.inr (by rw [ha.account]; rfl)) hlive
        have hview : w.view i = w.db := by
          rw [World.view]
          exact congrArg (RowLocks.view Db.apply w.db) hidle
        have hrow : row ∈ w.db.users := by
          rw [ha.table]
          exact List.mem_append_right _ (List.mem_singleton_self row)
        rw [hview, meets_refused hmeets ha.asked hasked hrow] at hadmits
        cases hadmits

/-- **The commit.** No other transaction holds a row, so one account is created, or none. -/
theorem Registered.commit (h : Registered env adapter key bodies users running st w)
    (hi : running i) {id : Uuid} (hid : st i = .inserted id) {x : Except AppError Unit}
    (he : exec env ch i .commit w = some (x, w')) :
    Registered env adapter key bodies users running
      (Function.update st i ((st i).note adapter .commit x)) w' := by
  obtain ⟨row, rfl, hasked, hrow⟩ := h.opened i id hi hid
  have hbusy : w.pending i ≠ [] := hrow ▸ List.cons_ne_nil _ _
  have hothers : ∀ j, j ≠ i → w.pending j = [] := by
    intro j hj
    by_contra hpending
    exact hj (h.single j i hpending hbusy)
  have hmeets : ∀ j, j ≠ i → Live running st j → (bodies i).Meets (bodies j) := fun j hj hj' =>
    h.meets i j (Ne.symm hj) (Or.inl ⟨hi, by rw [hid]; rfl⟩) hj'
  -- an account that was created before leaves no transaction open
  have hb : Before key users st w := by
    rcases h.created with hb | ⟨k, row', ha⟩
    · exact hb
    · exact absurd (ha.idle i) hbusy
  rcases exec_commit he with ⟨rfl, rfl⟩ | ⟨rfl, rfl⟩
  · have hpending : (w.rollback i).pending i = [] := by rw [rollback_pending, Function.update_self]
    have hnote : (st i).note adapter .commit (.error .databaseError) = .missed := by
      rw [hid]
      rfl
    rw [hnote]
    refine h.moved (fun j hj => by rw [rollback_pending, Function.update_of_ne hj]) nofun
      (absurd hpending) (absurd hpending) (fun _ => hmeets) nofun (Or.inl (hb.moved rfl nofun rfl ?_))
    exact fun value hv => hb.entry value (caches_same rfl rfl hv)
  · have hpending : ∀ j, (w.commit env i).pending j = [] := by
      intro j
      rw [commit_pending]
      by_cases hj : j = i
      · rw [hj, Function.update_self]
      · rw [Function.update_of_ne hj, hothers j hj]
    have hnote : (st i).note adapter .commit (.ok ()) = .committed row.id := by
      rw [hid]
      rfl
    have hview : (w.view i).users = users ++ [row] := by
      rw [World.view, show (w.txs i).writes = [.userInsert row] from hrow, ← hb.table]
      rfl
    rw [hnote]
    refine h.moved (fun j hj => (hpending j).trans (hothers j hj).symm) nofun (absurd (hpending i))
      (absurd (hpending i)) (fun _ => hmeets) (fun _ _ => hi) (Or.inr ⟨i, row, ?_⟩)
    exact
      { account := by rw [Function.update_self]; rfl
        asked := hasked
        others := fun j hj => by rw [Function.update_of_ne hj, hb.none_ j]
        table := (commit_tables env w i).1.trans hview
        idle := hpending
        entry := fun value hv => absurd (caches_same rfl rfl hv) (hb.entry value)
        hits := fun j userId hj => by
          by_cases hij : j = i
          · rw [hij, Function.update_self] at hj
            cases hj
          · rw [Function.update_of_ne hij] at hj
            exact absurd hj (hb.hits j userId) }

/-- **The store.** What is cached is the id of the account. -/
theorem Registered.store (h : Registered env adapter key bodies users running st w) {id : Uuid}
    (hid : st i = .committed id) {x : Unit}
    (he : exec env ch i (.cacheSet key (adapter.dumpJson (.single "user_id" (env.uuidStr id)))
      (some ttlSeconds)) w = some (x, w')) :
    Registered env adapter key bodies users running
      (Function.update st i ((st i).note adapter (.cacheSet key
        (adapter.dumpJson (.single "user_id" (env.uuidStr id))) (some ttlSeconds)) x)) w' := by
  obtain rfl := exec_cacheSet he
  have hidle : w.pending i = [] := h.idle fun id' hid' => by rw [hid] at hid'; cases hid'
  have hlive : Live running st i := Or.inr (by rw [hid]; rfl)
  have hnote : (st i).note adapter (.cacheSet key
      (adapter.dumpJson (.single "user_id" (env.uuidStr id))) (some ttlSeconds)) x = .stored id := by
    rw [hid]
    rfl
  rw [hnote]
  refine h.moved (fun _ _ => rfl) nofun (absurd hidle) (absurd hidle)
    (fun _ j hj hj' => h.meets i j (Ne.symm hj) hlive hj') nofun ?_
  rcases h.created with hb | ⟨k, row, ha⟩
  · have haccount := hb.none_ i
    rw [hid] at haccount
    cases haccount
  · have haccount := ha.account
    obtain rfl : i = k := by
      by_contra hik
      have hnone := ha.others i hik
      rw [hid] at hnone
      cases hnone
    rw [hid] at haccount
    obtain rfl : id = row.id := Option.some.inj haccount
    refine Or.inr ⟨i, row, by rw [Function.update_self]; rfl, ha.asked, fun j hj => ?_, ha.table,
      ha.idle, fun value hv => ?_, fun j userId hj => ?_⟩
    · rw [Function.update_of_ne hj, ha.others j hj]
    · obtain ⟨e, hentry, -⟩ := hv
      rw [Function.update_self]
      exact ⟨rfl, @set_store_value w.cache w.clock key _ value (some ttlSeconds) e hentry⟩
    · by_cases hij : j = i
      · rw [hij, Function.update_self] at hj
        cases hj
      · rw [Function.update_of_ne hij] at hj
        exact ha.hits j userId hj

/-- **Any other call** a registration makes. -/
theorem Registered.quiet (h : Registered env adapter key bodies users running st w) {o : Op}
    (ho : o.writes = false) (hc : o.onCache = false) {x : o.Res}
    (he : exec env ch i o w = some (x, w')) :
    Registered env adapter key bodies users running
      (Function.update st i ((st i).note adapter o x)) w' := by
  have hnote : (st i).note adapter o x = st i := by
    cases o with
    | addUser u => cases ho
    | commit => cases ho
    | cacheGet k => cases hc
    | cacheSet k v ttl => cases hc
    | _ => rfl
  obtain ⟨hdb, hpending, -⟩ := exec_quiet ho he
  obtain ⟨hcache, hclock⟩ := exec_uncached hc he
  rw [hnote, Function.update_eq_self]
  exact h.same (congrArg Db.users hdb) hpending fun _ hv => caches_same hcache hclock hv

end Registered

/-! ### Runs -/

/-- Registrations in flight. -/
abbrev RegisterCfg (ι : Type) := Config calls ι (World ι) AppError Uuid

section Runs

variable {ι Other : Type}

/-- How far registration `i` has come. -/
def stageOf (adapter : ResponseAdapter Other) (c : RegisterCfg ι) (i : ι) : RegisterStage :=
  registerStage adapter (c.hist i)

/-- Registration `i` has not ended. -/
def Running (c : RegisterCfg ι) (i : ι) : Prop := c.result i = none

/-- **Retries meet**: a registration looks its key up only while every other one on its way asks for
the same name or address, and while the entry of the key is alive, if one was stored. -/
def retriesMeet (adapter : ResponseAdapter Other) (key : String) (bodies : ι → RegisterData)
    (c : RegisterCfg ι) : Label ι Choice ℕ → Prop
  | .act i _ => (c.next i).bind Op.reads = some key →
      (∀ j, j ≠ i → Running c j → (stageOf adapter c j).underway = true →
        (bodies i).Meets (bodies j)) ∧
      ((∃ j, (stageOf adapter c j).isStored = true) → c.shared.hasEntry key = true)
  | .env _ => True

section Moves

variable [DecidableEq ι] {adapter : ResponseAdapter Other} {c : RegisterCfg ι} {i : ι}

/-- A call ends nothing. -/
theorem running_afterCall {o : Op} {k : o.Res → Act Uuid} {x : o.Res} {w' : World ι}
    (ht : c.threads i = .running (.call o k)) :
    Running (Machine.afterCall c i o x (k x) w') = Running c := by
  funext j
  rw [Running, Running, Config.result, Config.result, Machine.afterCall]
  by_cases hj : j = i
  · subst hj
    simp only [Function.update_self, ht]
  · simp only [Function.update_of_ne hj]

/-- A call moves its own registration. -/
theorem stageOf_afterCall {o : Op} {p : Act Uuid} {x : o.Res} {w' : World ι} :
    stageOf adapter (Machine.afterCall c i o x p w') =
      Function.update (stageOf adapter c) i ((stageOf adapter c i).note adapter o x) := by
  funext j
  by_cases hj : j = i
  · subst hj
    rw [Function.update_self, stageOf, Machine.afterCall]
    simp only [Function.update_self]
    rfl
  · rw [Function.update_of_ne hj, stageOf, Machine.afterCall]
    simp only [Function.update_of_ne hj]
    rfl

end Moves

variable [Fintype ι] [DecidableEq ι]

instance (c : RegisterCfg ι) (i : ι) : Decidable (Running c i) :=
  inferInstanceAs (Decidable (c.result i = none))

instance (adapter : ResponseAdapter Other) (key : String) (bodies : ι → RegisterData)
    (c : RegisterCfg ι) : (l : Label ι Choice ℕ) → Decidable (retriesMeet adapter key bodies c l)
  | .act i _ => inferInstanceAs (Decidable (_ → (∀ j, j ≠ i → _ → _ → _) ∧ (_ → _)))
  | .env _ => inferInstanceAs (Decidable True)

/-- The registrations of one client with one key, about to start. -/
def registrations (env : Env) (adapter : ResponseAdapter Other) (clientIp : Option String)
    (key : String) (bodies : ι → RegisterData) (w : World ι) : RegisterCfg ι :=
  Config.start w fun i => UserController.register env adapter clientIp (some key) (bodies i)

variable {env : Env} {adapter : ResponseAdapter Other} {clientIp : Option String} {key : String}
  {bodies : ι → RegisterData} {w : World ι} {c : RegisterCfg ι} {i : ι}

omit [Fintype ι] [DecidableEq ι] in
/-- The registrations keep their discipline. -/
theorem registrations_obey (hkey : key ≠ "") :
    Machine.Obeys anyAnswer
      (fun i h o => RegisterCall env adapter (registerKey clientIp key) (bodies i)
        (registerStage adapter h) o)
      (fun _ h r => RegisterEnd env (registerStage adapter h) r)
      (registrations env adapter clientIp key bodies w) :=
  Machine.obeys_start fun _ =>
    Obeys.pull (f := registerStage adapter) (fun _ _ _ => rfl) (register_keeps hkey)

/-- One account, or none, in a configuration. -/
def OneAccount (env : Env) (adapter : ResponseAdapter Other) (key : String)
    (bodies : ι → RegisterData) (users : List UserRow) (c : RegisterCfg ι) : Prop :=
  Registered env adapter key bodies users (Running c) (stageOf adapter c) c.shared

/-- **A call keeps the account.** -/
theorem OneAccount.call {users : List UserRow} {ch : Choice} {o : Op} {k : o.Res → Act Uuid}
    {x : o.Res} {w' : World ι} (h : OneAccount env adapter key bodies users c)
    (hC : retriesMeet adapter key bodies c (.act i ch))
    (ht : c.threads i = .running (.call o k))
    (hcall : RegisterCall env adapter key (bodies i) (stageOf adapter c i) o)
    (he : exec env ch i o c.shared = some (x, w')) :
    OneAccount env adapter key bodies users (Machine.afterCall c i o x (k x) w') := by
  have hi : Running c i := by rw [Running, Config.result, ht]
  rw [OneAccount, running_afterCall ht, stageOf_afterCall]
  cases o with
  | cacheGet key' =>
      obtain ⟨hfresh, rfl⟩ := hcall
      have hnext : (c.next i).bind Op.reads = some key' := by
        rw [Config.next, ht]
        rfl
      obtain ⟨hmeet, hlive⟩ := hC hnext
      exact Registered.lookup h hfresh hmeet hlive he
  | addUser u =>
      obtain ⟨hmissed, hname, haddress⟩ := hcall
      exact Registered.insert h hi hmissed hname haddress he
  | commit =>
      obtain ⟨id, hid⟩ := hcall
      exact Registered.commit h hi hid he
  | cacheSet key' value ttl =>
      obtain ⟨id, hid, rfl, rfl, rfl⟩ := hcall
      exact Registered.store h hid he
  | _ => exact Registered.quiet h hcall.1 hcall.2 he

/-- **Every configuration that a run reaches has one account, or none.** -/
theorem oneAccount_reached (hkey : key ≠ "") (hidle : ∀ i, w.pending i = [])
    (hentry : w.hasEntry (registerKey clientIp key) = false)
    (h : (machine env ι).Reach (retriesMeet adapter (registerKey clientIp key) bodies)
      (registrations env adapter clientIp key bodies w) c) :
    OneAccount env adapter (registerKey clientIp key) bodies w.db.users c := by
  refine Machine.Reach.induction (fun _ _ _ _ _ _ _ => trivial) (registrations_obey hkey)
    (OneAccount env adapter (registerKey clientIp key) bodies w.db.users) ?_ ?_ ?_ ?_ h
  · refine ⟨fun i id _ hid => (nomatch hid), fun i hi => absurd (hidle i) hi,
      fun i j hi => absurd (hidle i) hi, fun i j _ hi => ?_, fun i id hid => (nomatch hid),
      Or.inl ⟨fun _ => rfl, rfl, fun value hv => ?_, fun i userId hi => (nomatch hi)⟩⟩
    · rcases hi with ⟨-, hi⟩ | hi
      · cases hi
      · cases hi
    · exact absurd ((hasEntry_iff.mpr ⟨value, hv⟩).symm.trans hentry) (by simp)
  · exact fun c i ch o k x w' _ hJ hC ht hcall he => OneAccount.call hJ hC ht hcall he
  · intro c i ch r _ hJ _ ht hend
    have hrun : ∀ j, Running ((machine env ι).afterExit c i r) j ↔ Running c j ∧ j ≠ i := by
      intro j
      rw [Running, Running, Config.result, Config.result, Machine.afterExit]
      by_cases hj : j = i
      · subst hj
        simp only [Function.update_self]
        simp
      · simp [hj]
    refine Registered.exit hJ hrun fun id hid => ?_
    cases r with
    | ok userId =>
        rcases hend with hend | ⟨s, hend, -⟩
        · exact absurd (hid.symm.trans hend) (by simp)
        · exact absurd (hid.symm.trans hend) (by simp)
    | error e => exact (hend id).1 hid
  · intro c d _ hJ _
    refine Registered.same hJ rfl rfl fun value hv => ?_
    obtain ⟨e, he, halive⟩ := hv
    refine ⟨e, he, ?_⟩
    by_contra hover
    rw [Bool.not_eq_false] at hover
    have hover' := expired_mono (le_add_of_nonneg_right (Int.natCast_nonneg d)) hover
    exact absurd (hover'.symm.trans halive) (by simp)

/-- **One account for one key.** Any number of registrations come from one client with one
idempotency key, their calls in any order. In every run in which a registration looks the key up only
while every other one on its way asks for the same name or the same address, and while the entry of
the key is alive once it was stored: at most one account is created, and every registration that
succeeds answers with its id. -/
theorem one_account_per_key {ι Other : Type} [Fintype ι] [DecidableEq ι] (env : Env)
    (adapter : ResponseAdapter Other) (clientIp : Option String) (key : String) (hkey : key ≠ "")
    (bodies : ι → RegisterData) (w : World ι) (hidle : ∀ i, w.pending i = [])
    (hentry : w.hasEntry (registerKey clientIp key) = false) (c : RegisterCfg ι)
    (h : (machine env ι).Reach (retriesMeet adapter (registerKey clientIp key) bodies)
      (registrations env adapter clientIp key bodies w) c) :
    (c.shared.db.users = w.db.users ∧ ∀ i id, c.result i ≠ some (.ok id)) ∨
      ∃ row, c.shared.db.users = w.db.users ++ [row] ∧
        ∀ i id, c.result i = some (.ok id) → id = row.id := by
  have hone := oneAccount_reached hkey hidle hentry h
  have hends : ∀ i id, c.result i = some (.ok id) → stageOf adapter c i = .stored id ∨
      ∃ userId, stageOf adapter c i = .hit userId ∧ env.parseUuid userId = some id :=
    fun i id hi => (h.obeys (fun _ _ _ _ _ _ _ => trivial) (registrations_obey hkey)).done
      (Config.result_eq_some.mp hi)
  rcases hone.created with hb | ⟨k, row, ha⟩
  · refine Or.inl ⟨hb.table, fun i id hi => ?_⟩
    rcases hends i id hi with hst | ⟨userId, hst, -⟩
    · have hnone := hb.none_ i
      rw [hst] at hnone
      cases hnone
    · exact hb.hits i userId hst
  · refine Or.inr ⟨row, ha.table, fun i id hi => ?_⟩
    rcases hends i id hi with hst | ⟨userId, hst, hparse⟩
    · obtain rfl : i = k := by
        by_contra hik
        have hnone := ha.others i hik
        rw [hst] at hnone
        cases hnone
      have haccount := ha.account
      rw [hst] at haccount
      exact Option.some.inj haccount
    · rw [ha.hits i userId hst, env.parseUuid_uuidStr] at hparse
      exact (Option.some.inj hparse).symm

end Runs

/-! ### A retry, in turn and at once -/

/-- Two registrations of one client under one key, for different names. -/
def twoBodies : Fin 2 → RegisterData
  | 0 => { username := "bob", password := "Correct-Horse-9" }
  | 1 => { username := "carol", password := "Correct-Horse-9" }

/-- They are about to start. -/
def twoRegistrations : RegisterCfg (Fin 2) :=
  registrations Reference.env Reference.textAdapter (some "192.0.2.7") "k" twoBodies
    (Reference.world (Fin 2) {})

/-- One after the other, they answer with one account. -/
theorem one_account_in_turn : ∃ c,
    (machine Reference.env (Fin 2)).run twoRegistrations
        (Reference.moves 0 12 ++ Reference.moves 1 2) = some c ∧
      ∃ row, c.shared.db.users = [row] ∧ c.result 0 = some (.ok row.id) ∧
        c.result 1 = some (.ok row.id) := by
  obtain ⟨c, hc, hr⟩ := Machine.exists_run
    (P := fun c : RegisterCfg (Fin 2) => c.result 0 = some (.ok (Reference.env.uuid4 0)) ∧
      c.result 1 = some (.ok (Reference.env.uuid4 0)))
    (by decide +kernel : ((machine Reference.env (Fin 2)).run twoRegistrations
      (Reference.moves 0 12 ++ Reference.moves 1 2)).any _ = true)
  have hsteps : (machine Reference.env (Fin 2)).RunsWith
      (retriesMeet Reference.textAdapter (registerKey (some "192.0.2.7") "k") twoBodies)
      twoRegistrations (Reference.moves 0 12 ++ Reference.moves 1 2) := by
    decide +kernel
  rcases one_account_per_key Reference.env Reference.textAdapter (some "192.0.2.7") "k" (by decide)
    twoBodies (Reference.world (Fin 2) {}) (fun _ => rfl) (by decide +kernel) c
    (Machine.reach_of_run hsteps hc) with ⟨-, hnone⟩ | ⟨row, husers, hids⟩
  · exact absurd hr.1 (hnone 0 _)
  · refine ⟨c, hc, row, husers, ?_, ?_⟩
    · rw [← hids 0 _ hr.1]
      exact hr.1
    · rw [← hids 0 _ hr.1]
      exact hr.2

/-- **At once, they create two accounts**: both have looked the key up before either has stored its
id. -/
theorem two_accounts_at_once : ∃ c,
    (machine Reference.env (Fin 2)).run twoRegistrations
        (Reference.moves 0 1 ++ Reference.moves 1 1 ++ Reference.moves 0 11 ++
          Reference.moves 1 11) = some c ∧
      c.shared.db.users.length = 2 ∧ c.result 0 = some (.ok (Reference.env.uuid4 0)) ∧
      c.result 1 = some (.ok (Reference.env.uuid4 8)) ∧
      Reference.env.uuid4 0 ≠ Reference.env.uuid4 8 :=
  Machine.exists_run (by decide +kernel)

end BackendTemplate
