import BackendTemplate.Challenges
import BackendTemplate.Idempotency

/-!
# Registrations With an Idempotency Key

A registration with an idempotency key looks its key up, registers the account when no id is stored
there, and stores the new id at the end. `RegisterStage` says how far it has come, and the
discipline of the endpoint says which calls each stage allows.

## Main results

* `register_keeps` — what a registration calls at each stage, and how it may end.
-/

namespace BackendTemplate

open Atomic Atomic.Prog IdempotencyStore

/-! ### The endpoint -/

/-- `RegisterRequestSchema`. -/
structure RegisterData where
  username : String
  password : String
  email : Option String := none

/-- `UNKNOWN_CLIENT`. -/
def unknownClient : String := "unknown"

/-- `client_ip_or_unknown`, of the result of `client_ip`. -/
def orUnknown (clientIp : Option String) : String :=
  if truthy clientIp then clientIp.getD "" else unknownClient

/-- The id that `CreateUserUseCase` returns; it returns no other response. -/
def Response.createdId : Response → Uuid
  | .created userId => userId
  | _ => nilUuid

/-- The cache key of a registration. -/
def registerKey (clientIp : Option String) (key : String) : String :=
  cacheKey "register" (orUnknown clientIp) key

section Endpoint

variable {Other : Type}

/-- `UserController.register`, from the use case on. -/
def UserController.createAccount (env : Env) (adapter : ResponseAdapter Other)
    (clientIp idempotencyKey : Option String) (data : RegisterData) : Act Uuid := do
  let created ← createUser env data.username data.password data.email clientIp
  if truthy idempotencyKey then do
    cacheResponse adapter "register" (orUnknown clientIp) (idempotencyKey.getD "")
      (.single "user_id" (env.uuidStr created.createdId))
    pure created.createdId
  else pure created.createdId

/-- `UserController.register`. -/
def UserController.register (env : Env) (adapter : ResponseAdapter Other)
    (clientIp idempotencyKey : Option String) (data : RegisterData) : Act Uuid :=
  if truthy idempotencyKey then do
    let cached ← getCachedResponse adapter "register" (orUnknown clientIp) (idempotencyKey.getD "")
    match cached.bind fun response => response.get "user_id" with
    | some (.str cachedUserId) =>
        match env.parseUuid cachedUserId with
        | some userId => pure userId
        | none => raise (.valueError "badly formed hexadecimal UUID string")
    | _ => UserController.createAccount env adapter clientIp idempotencyKey data
  else UserController.createAccount env adapter clientIp idempotencyKey data

/-! ### What a registration does -/

/-- The id that a cached response holds, if there is one. -/
def userIdText (cached : Option (ResponseDict Other)) : Option String :=
  match cached.bind fun response => response.get "user_id" with
  | some (.str userId) => some userId
  | _ => none

/-- How far a registration has come: it has not looked its key up, has found an id there or has not,
has inserted its row, has committed it, has stored its id. -/
inductive RegisterStage
  | fresh
  | hit (userId : String)
  | missed
  | inserted (id : Uuid)
  | committed (id : Uuid)
  | stored (id : Uuid)
  deriving DecidableEq

/-- The stage after one more call. -/
def RegisterStage.note (adapter : ResponseAdapter Other) (st : RegisterStage) :
    (o : Op) → o.Res → RegisterStage
  | .cacheGet _, cached => (userIdText (cached.bind adapter.validateJson)).elim .missed .hit
  | .addUser u, .ok () => .inserted u.id.value
  | .commit, x => match st, x with
      | .inserted id, .ok () => .committed id
      | .inserted _, .error _ => .missed
      | st, _ => st
  | .cacheSet _ _ _, () => match st with
      | .committed id => .stored id
      | st => st
  | _, _ => st

/-- The stage a history amounts to. -/
def registerStage (adapter : ResponseAdapter Other) (h : Hist calls) : RegisterStage :=
  h.foldr (fun e st => st.note adapter e.1 e.2) .fresh

/-- The address of a registration, when it gives one. -/
def RegisterData.address (data : RegisterData) : Option String :=
  if truthy data.email then data.email else none

/-- **What a registration may call** at a stage. -/
def RegisterCall (env : Env) (adapter : ResponseAdapter Other) (key : String) (data : RegisterData)
    (st : RegisterStage) : Op → Prop
  | .cacheGet k => st = .fresh ∧ k = key
  | .addUser u => st = .missed ∧ u.username.value = data.username ∧ u.email.value = data.address
  | .commit => ∃ id, st = .inserted id
  | .cacheSet k v ttl => ∃ id, st = .committed id ∧ k = key ∧ ttl = some ttlSeconds ∧
      v = adapter.dumpJson (.single "user_id" (env.uuidStr id))
  | o => o.writes = false ∧ o.onCache = false

/-- **How a registration may end**: with the id it has found or stored, or without an account. -/
def RegisterEnd (env : Env) (st : RegisterStage) : Except AppError Uuid → Prop
  | .ok id => st = .stored id ∨ ∃ userId, st = .hit userId ∧ env.parseUuid userId = some id
  | .error _ => ∀ id, st ≠ .committed id ∧ st ≠ .stored id

/-- Any answer. -/
def anyAnswer : (o : Op) → o.Res → Prop := fun _ _ => True

variable {env : Env} {adapter : ResponseAdapter Other} {key : String} {data : RegisterData}

/-- **The discipline of a registration**, from a stage on. -/
def KeepsRegister {α : Type} (env : Env) (adapter : ResponseAdapter Other) (key : String)
    (data : RegisterData) (post : RegisterStage → Except AppError α → Prop) (st : RegisterStage)
    (p : Act α) : Prop :=
  p.Obeys (RegisterStage.note adapter) anyAnswer (RegisterCall env adapter key data) post st

section Rules

variable {α β : Type} {st : RegisterStage} {post : RegisterStage → Except AppError α → Prop}

/-- Sequencing, for a part whose specification is known. -/
theorem KeepsRegister.bind {mid : RegisterStage → Except AppError β → Prop} {p : Act β}
    {f : β → Act α} (hp : KeepsRegister env adapter key data mid st p)
    (hok : ∀ st b, mid st (.ok b) → KeepsRegister env adapter key data post st (f b))
    (herr : ∀ st e, mid st (.error e) → post st (.error e)) :
    KeepsRegister env adapter key data post st (p >>= f) := by
  refine (obeys_bind post p f).mpr (Obeys.mono hp (fun _ _ h => h) ?_)
  intro st x hx
  cases x with
  | ok b => exact hok st b hx
  | error e => exact herr st e hx

/-- A value object that may be refused. -/
theorem keepsRegister_ofExcept {x : Except AppError β} {f : β → Act α}
    (hok : ∀ b, x = .ok b → KeepsRegister env adapter key data post st (f b))
    (herr : ∀ e, post st (.error e)) :
    KeepsRegister env adapter key data post st (ofExcept x >>= f) := by
  cases x with
  | ok b => exact hok b rfl
  | error e => exact herr e

theorem keepsRegister_raiseIf {c : Bool} {e : AppError} {f : Unit → Act α}
    (hok : KeepsRegister env adapter key data post st (f ()))
    (herr : ∀ e, post st (.error e)) :
    KeepsRegister env adapter key data post st (raiseIf c e >>= f) := by
  cases c with
  | true => exact herr e
  | false => exact hok

/-- A call that leaves the tables and the cache alone. -/
theorem keepsRegister_silent {o : Op} {f : o.Res → Act α}
    (ho : ∀ st, RegisterCall env adapter key data st o) (hnote : ∀ x, st.note adapter o x = st)
    (h : ∀ x, KeepsRegister env adapter key data post st (f x)) :
    KeepsRegister env adapter key data post st (ask o >>= f) := by
  refine ⟨ho st, fun x _ => ?_⟩
  rw [hnote x]
  exact h x

end Rules

/-- How `CreateUserUseCase` may end: with the row of its answer committed, or without one. -/
def CreateEnd (st : RegisterStage) : Except AppError Response → Prop
  | .ok created => st = .committed created.createdId
  | .error _ => ∀ id, st ≠ .committed id ∧ st ≠ .stored id

theorem createEnd_missed (e : AppError) : CreateEnd .missed (.error e) := by
  intro id
  constructor
  · rintro ⟨⟩
  · rintro ⟨⟩

/-- The limiter in front of a registration. -/
theorem checkAddressLimit_registers {st : RegisterStage} {endpoint : String} {ip : Option String} :
    KeepsRegister env adapter key data (fun st' _ => st' = st) st
      (checkAddressLimit endpoint ip) := by
  rw [checkAddressLimit]
  split
  · refine keepsRegister_silent (fun _ => ⟨rfl, rfl⟩) (fun _ => rfl) fun limit => ?_
    split
    · rfl
    · exact keepsRegister_silent (fun _ => ⟨rfl, rfl⟩) (fun _ => rfl) fun _ => rfl
  · rfl

/-- The end of `CreateUserUseCase`, once the names are known to be free. -/
theorem insertUser_registers {id : UserID} {name : Username} {address : Email}
    {plain : PlainPassword env} (hname : name.value = data.username)
    (haddress : address.value = data.address) :
    KeepsRegister env adapter key data CreateEnd .missed (do
      let bytes ← ask (.hashPassword plain.value)
      let hashed ← ofExcept (HashedPassword.make bytes)
      let token ← ask .uuid4
      let at_ ← now
      attempt (ask (.addUser (User.create env at_ id name address hashed (env.uuidStr token))))
      BackendTemplate.register
        (User.create env at_ id name address hashed (env.uuidStr token)).events
      commit
      pure (.created (User.create env at_ id name address hashed
        (env.uuidStr token)).id.value)) := by
  refine keepsRegister_silent (fun _ => ⟨rfl, rfl⟩) (fun _ => rfl) fun bytes => ?_
  refine keepsRegister_ofExcept (fun hashed _ => ?_) createEnd_missed
  refine keepsRegister_silent (fun _ => ⟨rfl, rfl⟩) (fun _ => rfl) fun token => ?_
  refine keepsRegister_silent (fun _ => ⟨rfl, rfl⟩) (fun _ => rfl) fun at_ => ?_
  rw [attempt_bind]
  refine ⟨⟨rfl, hname, haddress⟩, fun x _ => ?_⟩
  cases x with
  | error e => exact createEnd_missed e
  | ok u =>
      refine keepsRegister_silent (fun _ => ⟨rfl, rfl⟩) (fun _ => rfl) fun _ => ?_
      rw [commit, attempt_bind]
      refine ⟨⟨_, rfl⟩, fun x _ => ?_⟩
      cases x with
      | error e => exact createEnd_missed e
      | ok u => exact rfl

theorem createUser_registers {clientIp : Option String} :
    KeepsRegister env adapter key data CreateEnd .missed
      (createUser env data.username data.password data.email clientIp) := by
  rw [createUser]
  refine checkAddressLimit_registers.bind ?_ ?_
  · rintro st - rfl
    refine keepsRegister_silent (fun _ => ⟨rfl, rfl⟩) (fun _ => rfl) fun drawn => ?_
    refine keepsRegister_ofExcept (fun id _ => ?_) createEnd_missed
    refine keepsRegister_ofExcept (fun name hname => ?_) createEnd_missed
    refine keepsRegister_ofExcept (fun address haddress => ?_) createEnd_missed
    refine keepsRegister_ofExcept (fun plain _ => ?_) createEnd_missed
    have hinsert := @insertUser_registers _ env adapter key data id name address plain
      (Username.make_ok hname) (Email.make_ok haddress)
    rw [UserService.create]
    simp only [Prog.bind_assoc, ite_bind, Prog.pure_bind]
    refine keepsRegister_silent (fun _ => ⟨rfl, rfl⟩) (fun _ => rfl) fun found => ?_
    refine keepsRegister_raiseIf ?_ createEnd_missed
    split
    · refine keepsRegister_silent (fun _ => ⟨rfl, rfl⟩) (fun _ => rfl) fun taken => ?_
      exact keepsRegister_raiseIf hinsert createEnd_missed
    · exact hinsert
  · rintro st e rfl
    exact createEnd_missed e

/-- The lookup. -/
theorem getCachedResponse_registers {endpoint scope idempotencyKey : String} :
    KeepsRegister env adapter (cacheKey endpoint scope idempotencyKey) data
      (fun st x => match x with
        | .ok cached => st = (userIdText cached).elim .missed .hit
        | .error _ => st = .missed)
      .fresh (getCachedResponse adapter endpoint scope idempotencyKey) := by
  refine ⟨⟨rfl, rfl⟩, fun cached _ => ?_⟩
  cases cached with
  | none => rfl
  | some raw =>
      simp only [Prog.bind, RegisterStage.note, Option.bind_some]
      cases adapter.validateJson raw with
      | none => rfl
      | some response => rfl

variable {clientIp : Option String}

/-- **The endpoint keeps the discipline.** -/
theorem register_keeps (hkey : key ≠ "") :
    KeepsRegister env adapter (registerKey clientIp key) data (RegisterEnd env) .fresh
      (UserController.register env adapter clientIp (some key) data) := by
  have htruthy : truthy (some key) = true := by simp [truthy, hkey]
  have hcreate : KeepsRegister env adapter (registerKey clientIp key) data (RegisterEnd env) .missed
      (UserController.createAccount env adapter clientIp (some key) data) := by
    rw [UserController.createAccount]
    refine createUser_registers.bind ?_ fun _ _ h => h
    rintro st created rfl
    rw [if_pos htruthy]
    exact ⟨⟨created.createdId, rfl, rfl, rfl, rfl⟩, fun _ _ => Or.inl rfl⟩
  rw [UserController.register, if_pos htruthy]
  refine getCachedResponse_registers.bind ?_ ?_
  · rintro st cached rfl
    rw [userIdText]
    cases cached.bind fun response => response.get "user_id" with
    | none => exact hcreate
    | some value =>
        cases value with
        | other v => exact hcreate
        | str userId =>
            simp only [Option.elim_some]
            cases hparse : env.parseUuid userId with
            | none =>
                intro id
                constructor
                · rintro ⟨⟩
                · rintro ⟨⟩
            | some id => exact Or.inr ⟨userId, rfl, hparse⟩
  · rintro st e rfl id
    constructor
    · rintro ⟨⟩
    · rintro ⟨⟩

end Endpoint

end BackendTemplate
