import BackendTemplate.Events
import BackendTemplate.Runs

/-!
# How a Unit of Work Collects Events

Aggregates are immutable but for their list of unpulled events. An operation copies the
aggregate with `_with`, events included, and records its own event on the copy; a service
registers what it has changed, and `commit` drains every registered instance. Here an instance
is its place in the list of all instances a process has made, so that a copy is told apart from
its original, and an event is the number under which it was made.

The two units of work differ in `register` alone: `SQLAlchemyUoW` compares instances by
identity, `InMemoryUoW` with the equality of entities.

## Main results

* `collected_once_per_instance` — a commit writes an event once for each registered instance
  that carries it, and nothing the second time.
* `units_of_work_agree` — the units of work commit the same events while no instance with
  unpulled events is taken for another one.
-/

namespace BackendTemplate

/-! ### Instances -/

/-- The subclasses of `DomainEventDispatcher`. -/
inductive AggregateClass
  | user | sessionAggregate | role
deriving DecidableEq

/-- An event, as an object: the `serial`-th one made. -/
structure BaseEvent where
  serial : ℕ
  event : DomainEvent
deriving DecidableEq

/-- An instance of an aggregate class. -/
structure Aggregate where
  cls : AggregateClass
  /-- `_identity()`. -/
  identity : Uuid
  /-- `_events`: those not yet pulled. -/
  events : List BaseEvent := []
deriving DecidableEq

/-- What `BaseEntity.__eq__` compares. -/
def Aggregate.key (a : Aggregate) : AggregateClass × Uuid := (a.cls, a.identity)

/-- An aggregate whose events were pulled. -/
def Aggregate.cleared (a : Aggregate) : Aggregate := { a with events := [] }

/-- All instances a process has made. A reference is a place in the list. -/
abbrev Objects := List Aggregate

namespace Objects

variable {objects : Objects} {refs : List ℕ} {r : ℕ}

/-- The unpulled events of an instance. -/
def unpulled (objects : Objects) (r : ℕ) : List BaseEvent :=
  (objects[r]?.map Aggregate.events).getD []

/-- `pull_events`, on the instance. -/
def pull (objects : Objects) (r : ℕ) : Objects := objects.modify r Aggregate.cleared

/-- Pull the events of some instances, one after the other. -/
def pullAll (objects : Objects) : List ℕ → Objects × List BaseEvent
  | [] => (objects, [])
  | r :: refs =>
      let rest := pullAll (objects.pull r) refs
      (rest.1, objects.unpulled r ++ rest.2)

theorem getElem?_pull (objects : Objects) (r i : ℕ) :
    (objects.pull r)[i]? = objects[i]?.map fun a => if r = i then a.cleared else a :=
  List.getElem?_modify ..

/-- The events of an instance that may have been cleared. -/
theorem unpulled_cleared {objects' : Objects} {i : ℕ} {p : Prop} [Decidable p]
    (h : objects'[i]? = objects[i]?.map fun a => if p then a.cleared else a) :
    objects'.unpulled i = if p then [] else objects.unpulled i := by
  rw [unpulled, unpulled, h, Option.map_map]
  cases objects[i]? with
  | none => exact (ite_self _).symm
  | some a => exact apply_ite Aggregate.events p a.cleared a

theorem unpulled_pull (objects : Objects) (r i : ℕ) :
    (objects.pull r).unpulled i = if r = i then [] else objects.unpulled i :=
  unpulled_cleared (objects.getElem?_pull r i)

/-- The events of the instances once there is one more. -/
theorem unpulled_append (objects : Objects) (a : Aggregate) (i : ℕ) :
    unpulled (objects ++ [a]) i =
      if i = objects.length then a.events else objects.unpulled i := by
  rw [unpulled, unpulled]
  split
  · rename_i hi
    rw [hi, List.getElem?_concat_length]
    rfl
  · rename_i hi
    rcases Nat.lt_or_gt_of_ne hi with hlt | hgt
    · rw [List.getElem?_append_left hlt]
    · rw [List.getElem?_eq_none (by simpa using hgt), List.getElem?_eq_none hgt.le]

/-- The events of the instances once one has recorded an event. -/
theorem unpulled_record {a : Aggregate} (ha : objects[r]? = some a) (e : BaseEvent) (i : ℕ) :
    unpulled (objects.modify r fun a => { a with events := a.events ++ [e] }) i =
      if r = i then objects.unpulled i ++ [e] else objects.unpulled i := by
  rw [unpulled, unpulled, List.getElem?_modify]
  split
  · rename_i hi
    rw [← hi, ha]
    rfl
  · exact congrArg (fun o => (Option.map Aggregate.events o).getD []) Option.map_id'

/-- **What is left of the instances**: those whose events were pulled are cleared. -/
theorem getElem?_pullAll (objects : Objects) (refs : List ℕ) (i : ℕ) :
    (objects.pullAll refs).1[i]? =
      objects[i]?.map fun a => if i ∈ refs then a.cleared else a := by
  induction refs generalizing objects with
  | nil => simp [pullAll]
  | cons r refs ih =>
      rw [pullAll, ih, getElem?_pull, Option.map_map]
      refine congrArg (fun f => objects[i]?.map f) (funext fun a => ?_)
      rw [Function.comp_apply]
      by_cases hr : r = i
      · subst hr
        rw [if_pos rfl, if_pos List.mem_cons_self]
        split
        · rfl
        · rfl
      · have hmem : i ∈ r :: refs ↔ i ∈ refs := by
          rw [List.mem_cons, or_iff_right (Ne.symm hr)]
        rw [if_neg hr]
        simp only [hmem]

/-- The events that are left once some instances were pulled. -/
theorem unpulled_pullAll (objects : Objects) (refs : List ℕ) (i : ℕ) :
    (objects.pullAll refs).1.unpulled i = if i ∈ refs then [] else objects.unpulled i :=
  unpulled_cleared (objects.getElem?_pullAll refs i)

/-- **What is pulled**: the events of each instance, in order. -/
theorem pullAll_events (h : refs.Nodup) (objects : Objects) :
    (objects.pullAll refs).2 = refs.flatMap objects.unpulled := by
  induction refs generalizing objects with
  | nil => rfl
  | cons r refs ih =>
      obtain ⟨hr, hrefs⟩ := List.nodup_cons.mp h
      rw [pullAll, ih hrefs, List.flatMap_cons]
      refine congrArg _ (List.flatMap_congr fun i hi => ?_)
      rw [unpulled_pull, if_neg fun heq : r = i => hr (heq ▸ hi)]

/-- Instances that carry no events are not changed by pulling them. -/
theorem pullAll_eq {refs' : List ℕ}
    (h : ∀ i, objects.unpulled i = [] ∨ (i ∈ refs ↔ i ∈ refs')) :
    (objects.pullAll refs).1 = (objects.pullAll refs').1 := by
  refine List.ext_getElem? fun i => ?_
  rw [getElem?_pullAll, getElem?_pullAll]
  rcases h i with hnone | hiff
  · cases ha : objects[i]? with
    | none => rfl
    | some a =>
        have hevents : a.events = [] := by simpa [unpulled, ha] using hnone
        have hsame : a.cleared = a := by rw [Aggregate.cleared, ← hevents]
        simp [hsame]
  · simp only [hiff]

end Objects

/-! ### The two units of work -/

/-- The implementations of `UnitOfWorkInterface`. -/
inductive UnitOfWork
  | sqlAlchemy | inMemory
deriving DecidableEq

/-- `any(tracked is aggregate for tracked in self._aggregates)`. -/
def SQLAlchemyUoW.tracks (aggregates : List ℕ) (r : ℕ) : Bool := r ∈ aggregates

/-- `aggregate in self._aggregates`: the same instance, or an equal one. -/
def InMemoryUoW.tracks (objects : Objects) (aggregates : List ℕ) (r : ℕ) : Bool :=
  aggregates.any fun t =>
    t = r || decide (objects[t]?.map Aggregate.key = objects[r]?.map Aggregate.key)

/-- Whether `register` finds the instance among the tracked ones. -/
def UnitOfWork.tracks (objects : Objects) (aggregates : List ℕ) (r : ℕ) : UnitOfWork → Bool
  | .sqlAlchemy => SQLAlchemyUoW.tracks aggregates r
  | .inMemory => InMemoryUoW.tracks objects aggregates r

/-- A process with one unit of work. -/
structure Process where
  objects : Objects := []
  /-- How many events were made. -/
  made : ℕ := 0
  /-- `_pending_events`. -/
  pending : List BaseEvent := []
  /-- `_aggregates`. -/
  aggregates : List ℕ := []
  /-- The events written to the outbox, or `committed_events`. -/
  committed : List BaseEvent := []
deriving DecidableEq

/-- What a process does with aggregates and its unit of work. -/
inductive Operation
  /-- Make an aggregate: a new one, or one that was loaded. -/
  | create (cls : AggregateClass) (identity : Uuid)
  /-- `_with`. What the copy changes besides does not matter here. -/
  | copyWith (r : ℕ)
  /-- `_record_event` of a new event. -/
  | recordEvent (r : ℕ) (event : DomainEvent)
  /-- `pull_events`, by someone else. -/
  | pullEvents (r : ℕ)
  | register (r : ℕ)
  /-- `add_events` of new events. -/
  | addEvents (events : List DomainEvent)
  /-- `commit`, where the database commits. -/
  | commit
  | rollback
deriving DecidableEq

namespace Process

/-- The events that `_drain` returns. -/
def drained (s : Process) : List BaseEvent := s.pending ++ (s.objects.pullAll s.aggregates).2

/-- `_drain`. -/
def drain (s : Process) : Process :=
  { s with
    objects := (s.objects.pullAll s.aggregates).1
    pending := []
    aggregates := [] }

/-- **One operation.** -/
def step (uow : UnitOfWork) (s : Process) : Operation → Option Process
  | .create cls identity => some { s with objects := s.objects ++ [{ cls, identity }] }
  | .copyWith r => s.objects[r]?.map fun a => { s with objects := s.objects ++ [a] }
  | .recordEvent r event => s.objects[r]?.map fun _ =>
      { s with
        objects := s.objects.modify r fun a => { a with events := a.events ++ [⟨s.made, event⟩] }
        made := s.made + 1 }
  | .pullEvents r => s.objects[r]?.map fun _ => { s with objects := s.objects.pull r }
  | .register r => s.objects[r]?.map fun _ =>
      if uow.tracks s.objects s.aggregates r then s
      else { s with aggregates := s.aggregates ++ [r] }
  | .addEvents events =>
      some { s with
        pending := s.pending ++ (events.zipIdx s.made).map fun e => ⟨e.2, e.1⟩
        made := s.made + events.length }
  | .commit => some { s.drain with committed := s.committed ++ s.drained }
  | .rollback => some s.drain

end Process

/-! ### What holds of every process -/

/-- **A process**: no instance is tracked twice, and an event is one object in at most one
place of an instance, and not also among those that were added. -/
structure Process.Sound (s : Process) : Prop where
  tracked : s.aggregates.Nodup
  refs : ∀ r ∈ s.aggregates, r < s.objects.length
  events : ∀ i, (s.objects.unpulled i).Nodup ∧
    ∀ e ∈ s.objects.unpulled i, e.serial < s.made ∧ e ∉ s.pending
  pending : ∀ e ∈ s.pending, e.serial < s.made

namespace Process

variable {uow : UnitOfWork} {s s' : Process}

theorem sound_start : Sound {} where
  tracked := List.nodup_nil
  refs _ hr := absurd hr List.not_mem_nil
  events _ := ⟨List.nodup_nil, fun _ he => absurd he List.not_mem_nil⟩
  pending _ he := absurd he List.not_mem_nil

/-- An instance that is tracked is found. -/
theorem tracks_of_mem (uow : UnitOfWork) (objects : Objects) {aggregates : List ℕ} {r : ℕ}
    (h : r ∈ aggregates) : uow.tracks objects aggregates r = true := by
  cases uow with
  | sqlAlchemy => exact decide_eq_true h
  | inMemory => exact List.any_eq_true.mpr ⟨r, h, by simp⟩

theorem Sound.drain (h : s.Sound) : s.drain.Sound where
  tracked := List.nodup_nil
  refs _ hr := absurd hr List.not_mem_nil
  events i := by
    have hleft : s.drain.objects.unpulled i =
        if i ∈ s.aggregates then [] else s.objects.unpulled i :=
      s.objects.unpulled_pullAll s.aggregates i
    rw [hleft]
    split
    · exact ⟨List.nodup_nil, fun e he => absurd he List.not_mem_nil⟩
    · exact ⟨(h.events i).1, fun e he => ⟨((h.events i).2 e he).1, List.not_mem_nil⟩⟩
  pending _ he := absurd he List.not_mem_nil

/-- **One operation keeps a process sound.** -/
theorem Sound.step (h : s.Sound) {op : Operation} (hs : s.step uow op = some s') : s'.Sound := by
  have hgrow : ∀ a, ∀ r ∈ s.aggregates, r < (s.objects ++ [a]).length := fun a r hr => by
    rw [List.length_append]
    exact Nat.lt_add_right _ (h.refs r hr)
  cases op with
  | create cls identity =>
      obtain rfl := Option.some.inj hs
      refine ⟨h.tracked, hgrow _, fun i => ?_, h.pending⟩
      rw [Objects.unpulled_append]
      split
      · exact ⟨List.nodup_nil, fun e he => absurd he List.not_mem_nil⟩
      · exact h.events i
  | copyWith r =>
      obtain ⟨a, ha, rfl⟩ := Option.map_eq_some_iff.mp hs
      refine ⟨h.tracked, hgrow a, fun i => ?_, h.pending⟩
      rw [Objects.unpulled_append]
      split
      · have hold := h.events r
        rw [Objects.unpulled, ha] at hold
        exact hold
      · exact h.events i
  | recordEvent r event =>
      obtain ⟨a, ha, rfl⟩ := Option.map_eq_some_iff.mp hs
      refine ⟨h.tracked, fun t ht => ?_, fun i => ?_,
        fun e he => Nat.lt_succ_of_lt (h.pending e he)⟩
      · rw [List.length_modify]
        exact h.refs t ht
      obtain ⟨hnodup, hfresh⟩ := h.events i
      have hgrown : ∀ e ∈ s.objects.unpulled i, e.serial < s.made + 1 ∧ e ∉ s.pending :=
        fun e he => ⟨Nat.lt_succ_of_lt (hfresh e he).1, (hfresh e he).2⟩
      rw [Objects.unpulled_record ha]
      split
      · refine ⟨?_, fun e he => ?_⟩
        · refine List.nodup_append.mpr ⟨hnodup, List.nodup_singleton _, fun e he e' he' heq => ?_⟩
          rw [List.mem_singleton.mp he'] at heq
          exact Nat.lt_irrefl _ (heq ▸ (hfresh e he).1)
        · rcases List.mem_append.mp he with hold | hnew
          · exact hgrown e hold
          · rw [List.mem_singleton.mp hnew]
            exact ⟨Nat.lt_succ_self _, fun hp => Nat.lt_irrefl _ (h.pending _ hp)⟩
      · exact ⟨hnodup, hgrown⟩
  | pullEvents r =>
      obtain ⟨a, -, rfl⟩ := Option.map_eq_some_iff.mp hs
      refine ⟨h.tracked, fun t ht => ?_, fun i => ?_, h.pending⟩
      · rw [Objects.pull, List.length_modify]
        exact h.refs t ht
      rw [Objects.unpulled_pull]
      split
      · exact ⟨List.nodup_nil, fun e he => absurd he List.not_mem_nil⟩
      · exact h.events i
  | register r =>
      obtain ⟨a, ha, rfl⟩ := Option.map_eq_some_iff.mp hs
      split
      · exact h
      · rename_i hnew
        refine ⟨?_, fun t ht => ?_, h.events, h.pending⟩
        · refine List.nodup_append.mpr
            ⟨h.tracked, List.nodup_singleton _, fun t ht t' ht' heq => ?_⟩
          rw [List.mem_singleton.mp ht'] at heq
          exact hnew (tracks_of_mem uow s.objects (heq ▸ ht))
        · rcases List.mem_append.mp ht with hold | hnew
          · exact h.refs t hold
          · rw [List.mem_singleton.mp hnew]
            exact (List.getElem?_eq_some_iff.mp ha).1
  | addEvents events =>
      obtain rfl := Option.some.inj hs
      have hadded : ∀ e ∈ (events.zipIdx s.made).map fun e => (⟨e.2, e.1⟩ : BaseEvent),
          s.made ≤ e.serial ∧ e.serial < s.made + events.length := by
        intro e he
        obtain ⟨x, hx, rfl⟩ := List.mem_map.mp he
        have := List.mem_zipIdx hx
        exact ⟨this.1, this.2.1⟩
      refine ⟨h.tracked, h.refs, fun i => ⟨(h.events i).1, fun e he => ?_⟩, fun e he => ?_⟩
      · obtain ⟨hlt, hnot⟩ := (h.events i).2 e he
        refine ⟨Nat.lt_add_right _ hlt, fun hp => ?_⟩
        rcases List.mem_append.mp hp with hold | hnew
        · exact hnot hold
        · exact absurd hlt (Nat.not_lt.mpr (hadded e hnew).1)
      · rcases List.mem_append.mp he with hold | hnew
        · exact Nat.lt_add_right _ (h.pending e hold)
        · exact (hadded e hnew).2
  | commit =>
      obtain rfl := Option.some.inj hs
      exact ⟨h.drain.tracked, h.drain.refs, h.drain.events, h.drain.pending⟩
  | rollback =>
      obtain rfl := Option.some.inj hs
      exact h.drain

/-- Every reachable process is sound. -/
theorem reach_sound {C : Process → Operation → Prop} (h : Runs.Reach (step uow) C {} s) :
    s.Sound :=
  h.invariant sound_start fun _ _ _ hsound _ hs => hsound.step hs

/-! ### What a commit writes -/

/-- An element of lists without repetitions is counted once for each list it is in. -/
theorem count_flatMap_of_nodup {f : ℕ → List BaseEvent} (hf : ∀ i, (f i).Nodup) (refs : List ℕ)
    (e : BaseEvent) : (refs.flatMap f).count e = refs.countP fun r => e ∈ f r := by
  induction refs with
  | nil => rfl
  | cons r refs ih =>
      rw [List.flatMap_cons, List.count_append, List.countP_cons, ih, (hf r).count, Nat.add_comm]
      simp

/-- **What `_drain` returns** has an event once for each tracked instance that carries it. -/
theorem Sound.count_drained (h : s.Sound) {r : ℕ} {e : BaseEvent}
    (he : e ∈ s.objects.unpulled r) :
    s.drained.count e = s.aggregates.countP fun r => e ∈ s.objects.unpulled r := by
  have hpending : s.pending.count e = 0 := List.count_eq_zero.mpr ((h.events r).2 e he).2
  rw [drained, Objects.pullAll_events h.tracked, List.count_append, hpending, Nat.zero_add]
  exact count_flatMap_of_nodup (fun i => (h.events i).1) _ e

/-- The instances that some operations register. -/
def registered (ops : List Operation) : List ℕ :=
  (ops.filterMap fun
    | .register r => some r
    | _ => none).dedup

theorem mem_registered {ops : List Operation} {r : ℕ} :
    r ∈ registered ops ↔ .register r ∈ ops := by
  rw [registered, List.mem_dedup, List.mem_filterMap]
  constructor
  · rintro ⟨op, hop, heq⟩
    cases op with
    | register t => exact Option.some.inj heq ▸ hop
    | _ => cases heq
  · exact fun hop => ⟨_, hop, rfl⟩

/-- **Until the next commit or rollback** the tracked instances are those that were registered,
and nothing is written. -/
theorem aggregates_of_run {ops : List Operation}
    (hops : ∀ op ∈ ops, op ≠ .commit ∧ op ≠ .rollback)
    (h : Runs.run (step .sqlAlchemy) Runs.always s ops = some s') :
    s'.committed = s.committed ∧
      ∀ r, r ∈ s'.aggregates ↔ r ∈ s.aggregates ∨ .register r ∈ ops := by
  induction ops generalizing s with
  | nil =>
      obtain rfl := Option.some.inj h
      exact ⟨rfl, fun r => by simp⟩
  | cons op ops ih =>
      rw [Runs.run, if_pos (show Runs.always s op from trivial)] at h
      obtain ⟨s₁, hs, hr⟩ := Option.bind_eq_some_iff.mp h
      obtain ⟨hc, hagg⟩ := ih (fun op hop => hops op (List.mem_cons_of_mem _ hop)) hr
      have hop := hops op List.mem_cons_self
      have hone : s₁.committed = s.committed ∧
          ∀ r, r ∈ s₁.aggregates ↔ r ∈ s.aggregates ∨ op = .register r := by
        cases op with
        | register t =>
            obtain ⟨a, -, rfl⟩ := Option.map_eq_some_iff.mp hs
            split
            · rename_i ht
              refine ⟨rfl, fun r => ⟨Or.inl, ?_⟩⟩
              rintro (hr | heq)
              · exact hr
              · exact Operation.register.inj heq ▸ of_decide_eq_true ht
            · refine ⟨rfl, fun r => ?_⟩
              rw [List.mem_append, List.mem_singleton, Operation.register.injEq, eq_comm (a := t)]
        | create cls identity =>
            obtain rfl := Option.some.inj hs
            exact ⟨rfl, fun r => by simp⟩
        | addEvents events =>
            obtain rfl := Option.some.inj hs
            exact ⟨rfl, fun r => by simp⟩
        | copyWith t | recordEvent t event | pullEvents t =>
            obtain ⟨a, -, rfl⟩ := Option.map_eq_some_iff.mp hs
            exact ⟨rfl, fun r => by simp⟩
        | commit => exact absurd rfl hop.1
        | rollback => exact absurd rfl hop.2
      refine ⟨hc.trans hone.1, fun r => ?_⟩
      rw [hagg, hone.2, List.mem_cons, or_assoc, eq_comm (a := op)]

/-- Nothing is recorded or added, and what is registered carries no events. -/
def Quiet (s : Process) : Operation → Prop
  | .recordEvent _ _ | .addEvents _ => False
  | .register r => s.objects.unpulled r = []
  | _ => True

/-- Nothing is there to be written. -/
structure Settled (s : Process) : Prop where
  pending : s.pending = []
  tracked : ∀ r ∈ s.aggregates, s.objects.unpulled r = []

theorem Sound.drained_eq_nil (h : s.Sound) (hsettled : s.Settled) : s.drained = [] := by
  rw [drained, hsettled.pending, Objects.pullAll_events h.tracked, List.nil_append,
    List.flatMap_eq_nil_iff]
  exact hsettled.tracked

/-- **A quiet operation writes nothing**, and leaves nothing to be written. -/
theorem Sound.quiet (h : s.Sound) (hsettled : s.Settled) {op : Operation} (hq : s.Quiet op)
    (hs : s.step uow op = some s') : s'.Settled ∧ s'.committed = s.committed := by
  have hgrow : ∀ a, ∀ r ∈ s.aggregates, Objects.unpulled (s.objects ++ [a]) r = [] :=
    fun a r hr => by
      rw [Objects.unpulled_append, if_neg (h.refs r hr).ne]
      exact hsettled.tracked r hr
  cases op with
  | create cls identity =>
      obtain rfl := Option.some.inj hs
      exact ⟨⟨hsettled.pending, hgrow _⟩, rfl⟩
  | copyWith t =>
      obtain ⟨a, -, rfl⟩ := Option.map_eq_some_iff.mp hs
      exact ⟨⟨hsettled.pending, hgrow a⟩, rfl⟩
  | recordEvent t event => exact hq.elim
  | addEvents events => exact hq.elim
  | pullEvents t =>
      obtain ⟨a, -, rfl⟩ := Option.map_eq_some_iff.mp hs
      refine ⟨⟨hsettled.pending, fun r hr => ?_⟩, rfl⟩
      rw [Objects.unpulled_pull, hsettled.tracked r hr, ite_self]
  | register t =>
      obtain ⟨a, -, rfl⟩ := Option.map_eq_some_iff.mp hs
      split
      · exact ⟨hsettled, rfl⟩
      · refine ⟨⟨hsettled.pending, fun r hr => ?_⟩, rfl⟩
        rcases List.mem_append.mp hr with hold | hnew
        · exact hsettled.tracked r hold
        · exact List.mem_singleton.mp hnew ▸ hq
  | commit =>
      obtain rfl := Option.some.inj hs
      refine ⟨⟨rfl, fun r hr => absurd hr List.not_mem_nil⟩, ?_⟩
      rw [h.drained_eq_nil hsettled, List.append_nil]
  | rollback =>
      obtain rfl := Option.some.inj hs
      exact ⟨⟨rfl, fun r hr => absurd hr List.not_mem_nil⟩, rfl⟩

end Process

open Process

/-- **Events are collected once per instance.** Whatever was done before, a commit writes an
event that an instance carries once for each registered instance that carries it; and as long as
nothing is recorded or added then, and what is registered carries no events, nothing more is
written. -/
theorem collected_once_per_instance {ops : List Operation} {s s' : Process}
    (hops : ∀ op ∈ ops, op ≠ .commit ∧ op ≠ .rollback)
    (h : Runs.run (step .sqlAlchemy) Runs.always {} ops = some s)
    (hs : s.step .sqlAlchemy .commit = some s') :
    (∀ r, ∀ e ∈ s.objects.unpulled r,
      s'.committed.count e = (registered ops).countP fun r => e ∈ s.objects.unpulled r) ∧
    ∀ s'', Runs.Reach (step .sqlAlchemy) Quiet s' s'' → s''.committed = s'.committed := by
  have hsound := reach_sound (Runs.reach_of_run h)
  have hsound' := hsound.step hs
  obtain ⟨hnone, hagg⟩ := aggregates_of_run hops h
  obtain rfl := Option.some.inj hs
  constructor
  · intro r e he
    have hperm : s.aggregates.Perm (registered ops) := by
      refine (List.perm_ext_iff_of_nodup hsound.tracked (List.nodup_dedup _)).mpr fun r => ?_
      rw [hagg, ← mem_registered, or_iff_right List.not_mem_nil, registered]
    change (s.committed ++ s.drained).count e = _
    rw [hnone, List.nil_append, hsound.count_drained he, hperm.countP_eq]
  · intro s'' hreach
    have hrun := hreach.invariant (I := fun s₁ => s₁.Sound ∧ s₁.Settled ∧
      s₁.committed = s.committed ++ s.drained) ⟨hsound', ⟨rfl, ?_⟩, rfl⟩ ?_
    · exact hrun.2.2
    · exact fun r hr => absurd hr List.not_mem_nil
    · intro s₁ op s₂ hI hq hs
      obtain ⟨h₁, h₂, h₃⟩ := hI
      obtain ⟨hsettled, hcommitted⟩ := h₁.quiet h₂ hq hs
      exact ⟨h₁.step hs, hsettled, hcommitted.trans h₃⟩

/-- A user is created and changed once, and some of the two instances are registered. -/
def changeUser (refs : List ℕ) : List Operation :=
  [.create .user 1, .recordEvent 0 (.userCreated 1 "alice" none), .copyWith 0,
    .recordEvent 1 (.accountUnlocked 1)] ++ refs.map .register

/-- Where the changed user alone is registered, both events are written once. -/
theorem changed_user_collected : ∃ s s',
    Runs.run (step .sqlAlchemy) Runs.always {} (changeUser [1]) = some s ∧
    s.step .sqlAlchemy .commit = some s' ∧
    (s.objects.unpulled 1).length = 2 ∧ ∀ e ∈ s.objects.unpulled 1, s'.committed.count e = 1 := by
  obtain ⟨s, hs, s', hs', hlen, hone⟩ : ∃ s,
      Runs.run (step .sqlAlchemy) Runs.always {} (changeUser [1]) = some s ∧
      ∃ s', s.step .sqlAlchemy .commit = some s' ∧ (s.objects.unpulled 1).length = 2 ∧
        ∀ e ∈ s.objects.unpulled 1,
          ((registered (changeUser [1])).countP fun r => e ∈ s.objects.unpulled r) = 1 := by
    decide +kernel
  refine ⟨s, s', hs, hs', hlen, fun e he => ?_⟩
  rw [(collected_once_per_instance (by decide) hs hs').1 1 e he]
  exact hone e he

/-- Where the original is registered too, its event is written twice. -/
theorem original_and_copy_collected : ∃ s s',
    Runs.run (step .sqlAlchemy) Runs.always {} (changeUser [0, 1]) = some s ∧
    s.step .sqlAlchemy .commit = some s' ∧
    ∃ e ∈ s.objects.unpulled 0, s'.committed.count e = 2 := by
  obtain ⟨s, hs, s', hs', hrest⟩ : ∃ s,
      Runs.run (step .sqlAlchemy) Runs.always {} (changeUser [0, 1]) = some s ∧
      ∃ s', s.step .sqlAlchemy .commit = some s' ∧
        ∃ e ∈ s.objects.unpulled 0, s'.committed.count e = 2 := by
    decide +kernel
  exact ⟨s, s', hs, hs', hrest⟩

/-! ### Two units of work, one program -/

namespace Process

/-- One program on both units of work: the first is the real one. -/
def stepBoth (s : Process × Process) (op : Operation) : Option (Process × Process) :=
  (s.1.step .sqlAlchemy op).bind fun s₁ => (s.2.step .inMemory op).map fun s₂ => (s₁, s₂)

/-- **No instance with events is taken for another one.** An instance that `InMemoryUoW` finds
only through another one has no unpulled events when it is registered, and none is recorded on
it while it is registered. -/
def ToldApart (s : Process × Process) : Operation → Prop
  | .register r => r ∉ s.2.aggregates → UnitOfWork.inMemory.tracks s.2.objects s.2.aggregates r →
      s.2.objects.unpulled r = []
  | .recordEvent r _ => r ∈ s.1.aggregates → r ∈ s.2.aggregates
  | _ => True

instance (s : Process × Process) : ∀ op, Decidable (ToldApart s op)
  | .register _ => inferInstanceAs (Decidable (_ → _ → _))
  | .recordEvent _ _ => inferInstanceAs (Decidable (_ → _))
  | .create _ _ | .copyWith _ | .pullEvents _ | .addEvents _ | .commit | .rollback =>
      inferInstanceAs (Decidable True)

/-- **The two processes** differ in the instances that they track, and there only in instances
without events that are equal to one both track. -/
structure Alike (s m : Process) : Prop where
  objects : m.objects = s.objects
  made : m.made = s.made
  pending : m.pending = s.pending
  committed : m.committed = s.committed
  tracked : m.aggregates.Sublist s.aggregates
  skipped : ∀ r ∈ s.aggregates, r ∉ m.aggregates → s.objects.unpulled r = [] ∧
    ∃ t ∈ m.aggregates, s.objects[t]?.map Aggregate.key = s.objects[r]?.map Aggregate.key

end Process

/-- Leaving out elements without results does not change the results. -/
theorem flatMap_of_sublist {f : ℕ → List BaseEvent} {l l' : List ℕ} (h : l.Sublist l')
    (hnodup : l'.Nodup) (hf : ∀ r ∈ l', r ∉ l → f r = []) : l.flatMap f = l'.flatMap f := by
  induction h with
  | slnil => rfl
  | cons a hsub ih =>
      obtain ⟨ha, hnodup⟩ := List.nodup_cons.mp hnodup
      rw [List.flatMap_cons, hf a List.mem_cons_self fun hl => ha (hsub.subset hl),
        List.nil_append]
      exact ih hnodup fun r hr hnot => hf r (List.mem_cons_of_mem _ hr) hnot
  | cons_cons a _ ih =>
      obtain ⟨ha, hnodup⟩ := List.nodup_cons.mp hnodup
      rw [List.flatMap_cons, List.flatMap_cons]
      refine congrArg _ (ih hnodup fun r hr hnot => hf r (List.mem_cons_of_mem _ hr) ?_)
      rw [List.mem_cons]
      rintro (rfl | hl)
      · exact ha hr
      · exact hnot hl

namespace Process

variable {s s' m m' : Process}

/-- The units of work drain the same events. -/
theorem Alike.drained_eq (h : Alike s m) (hs : s.Sound) (hm : m.Sound) :
    m.drained = s.drained := by
  rw [drained, drained, Objects.pullAll_events hs.tracked, Objects.pullAll_events hm.tracked,
    h.objects, h.pending]
  refine congrArg _ (flatMap_of_sublist h.tracked hs.tracked fun r hr hnot => ?_)
  exact (h.skipped r hr hnot).1

/-- Draining leaves the processes alike. -/
theorem Alike.drain (h : Alike s m) : Alike s.drain m.drain where
  objects := by
    change (m.objects.pullAll m.aggregates).1 = (s.objects.pullAll s.aggregates).1
    rw [h.objects]
    refine Objects.pullAll_eq fun r => ?_
    by_cases hr : r ∈ s.aggregates ∧ r ∉ m.aggregates
    · exact Or.inl (h.skipped r hr.1 hr.2).1
    · exact Or.inr ⟨fun hm => h.tracked.subset hm, fun hs => by_contra fun hm => hr ⟨hs, hm⟩⟩
  made := h.made
  pending := rfl
  committed := h.committed
  tracked := List.Sublist.refl _
  skipped r hr := absurd hr List.not_mem_nil

/-- **Registering an instance.** -/
theorem Alike.register (h : Alike s m) {r : ℕ} (hC : ToldApart (s, m) (.register r)) :
    Alike
      (if UnitOfWork.sqlAlchemy.tracks s.objects s.aggregates r then s
        else { s with aggregates := s.aggregates ++ [r] })
      (if UnitOfWork.inMemory.tracks m.objects m.aggregates r then m
        else { m with aggregates := m.aggregates ++ [r] }) := by
  have hsql : UnitOfWork.sqlAlchemy.tracks s.objects s.aggregates r = true ↔ r ∈ s.aggregates :=
    decide_eq_true_iff
  have hmem : UnitOfWork.inMemory.tracks m.objects m.aggregates r = true ↔ ∃ t ∈ m.aggregates,
      t = r ∨ s.objects[t]?.map Aggregate.key = s.objects[r]?.map Aggregate.key := by
    change InMemoryUoW.tracks m.objects m.aggregates r = true ↔ _
    rw [InMemoryUoW.tracks, List.any_eq_true, h.objects]
    simp
  by_cases hr : r ∈ s.aggregates
  · -- the real one has it: so has the other one, or something equal
    have hfound : UnitOfWork.inMemory.tracks m.objects m.aggregates r = true := by
      rw [hmem]
      by_cases hm : r ∈ m.aggregates
      · exact ⟨r, hm, Or.inl rfl⟩
      · obtain ⟨-, t, ht, hkey⟩ := h.skipped r hr hm
        exact ⟨t, ht, Or.inr hkey⟩
    rw [if_pos (hsql.mpr hr), if_pos hfound]
    exact h
  · have hm : r ∉ m.aggregates := fun hm => hr (h.tracked.subset hm)
    rw [if_neg fun hx => hr (hsql.mp hx)]
    by_cases hfound : UnitOfWork.inMemory.tracks m.objects m.aggregates r = true
    · rw [if_pos hfound]
      refine ⟨h.objects, h.made, h.pending, h.committed,
        h.tracked.trans (List.sublist_append_left _ _), fun t ht hnot => ?_⟩
      rcases List.mem_append.mp ht with hold | hnew
      · exact h.skipped t hold hnot
      · obtain rfl := List.mem_singleton.mp hnew
        obtain ⟨t', ht', heq⟩ := hmem.mp hfound
        refine ⟨h.objects ▸ hC hm hfound, t', ht', heq.resolve_left ?_⟩
        rintro rfl
        exact hm ht'
    · rw [if_neg hfound]
      refine ⟨h.objects, h.made, h.pending, h.committed, h.tracked.append (List.Sublist.refl _),
        fun t ht hnot => ?_⟩
      rcases List.mem_append.mp ht with hold | hnew
      · obtain ⟨hnone, t', ht', hkey⟩ :=
          h.skipped t hold fun ht' => hnot (List.mem_append_left _ ht')
        exact ⟨hnone, t', List.mem_append_left _ ht', hkey⟩
      · exact absurd (List.mem_append_right _ hnew) hnot

/-- What happens to the instances keeps the processes alike, if it changes no identity and puts
no event where the units of work differ. -/
theorem Alike.change (h : Alike s m) {objects : Objects} (made : ℕ)
    (hkey : ∀ r ∈ s.aggregates,
      objects[r]?.map Aggregate.key = s.objects[r]?.map Aggregate.key)
    (hnone : ∀ r ∈ s.aggregates, r ∉ m.aggregates → s.objects.unpulled r = [] →
      objects.unpulled r = []) :
    Alike { s with objects, made } { m with objects, made } where
  objects := rfl
  made := rfl
  pending := h.pending
  committed := h.committed
  tracked := h.tracked
  skipped r hr hnot := by
    obtain ⟨hevents, t, ht, htkey⟩ := h.skipped r hr hnot
    refine ⟨hnone r hr hnot hevents, t, ht, ?_⟩
    rw [hkey r hr, hkey t (h.tracked.subset ht), htkey]

/-- **One operation keeps the processes alike.** -/
theorem Alike.step (h : Alike s m) (hs : s.Sound) (hm : m.Sound) {op : Operation}
    (hC : ToldApart (s, m) op) (h₁ : s.step .sqlAlchemy op = some s')
    (h₂ : m.step .inMemory op = some m') : Alike s' m' := by
  have hgrow : ∀ a, Alike { s with objects := s.objects ++ [a] }
      { m with objects := m.objects ++ [a] } := by
    intro a
    have := @Alike.change _ _ h (s.objects ++ [a]) s.made
      (fun r hr => by rw [List.getElem?_append_left (hs.refs r hr)])
      (fun r hr _ hnone => by rw [Objects.unpulled_append, if_neg (hs.refs r hr).ne, hnone])
    rw [h.objects]
    rw [← h.made] at this
    exact h.made ▸ this
  cases op with
  | create cls identity =>
      obtain rfl := Option.some.inj h₁
      obtain rfl := Option.some.inj h₂
      exact hgrow _
  | copyWith r =>
      obtain ⟨a, ha, rfl⟩ := Option.map_eq_some_iff.mp h₁
      obtain ⟨b, hb, rfl⟩ := Option.map_eq_some_iff.mp h₂
      obtain rfl := Option.some.inj (ha.symm.trans (h.objects ▸ hb))
      exact hgrow a
  | recordEvent t event =>
      obtain ⟨a, ha, rfl⟩ := Option.map_eq_some_iff.mp h₁
      obtain ⟨b, -, rfl⟩ := Option.map_eq_some_iff.mp h₂
      rw [h.objects, h.made]
      refine h.change _ (fun r _ => ?_) fun r hr hnot hnone => ?_
      · rw [List.getElem?_modify, Option.map_eq_map, Option.map_map]
        refine congrArg (fun f => s.objects[r]?.map f) (funext fun x => ?_)
        rw [Function.comp_apply]
        split
        · rfl
        · rfl
      · rw [Objects.unpulled_record ha, if_neg, hnone]
        rintro rfl
        exact hnot (hC hr)
  | pullEvents t =>
      obtain ⟨a, -, rfl⟩ := Option.map_eq_some_iff.mp h₁
      obtain ⟨b, -, rfl⟩ := Option.map_eq_some_iff.mp h₂
      have := @Alike.change _ _ h (s.objects.pull t) s.made (fun r _ => ?_) fun r _ _ hnone => ?_
      · rw [h.objects]
        exact h.made ▸ this
      · rw [Objects.getElem?_pull, Option.map_map]
        refine congrArg (fun f => s.objects[r]?.map f) (funext fun x => ?_)
        rw [Function.comp_apply]
        split
        · rfl
        · rfl
      · rw [Objects.unpulled_pull, hnone, ite_self]
  | register r =>
      obtain ⟨a, -, rfl⟩ := Option.map_eq_some_iff.mp h₁
      obtain ⟨b, -, rfl⟩ := Option.map_eq_some_iff.mp h₂
      exact h.register hC
  | addEvents events =>
      obtain rfl := Option.some.inj h₁
      obtain rfl := Option.some.inj h₂
      rw [h.made, h.pending]
      exact ⟨h.objects, rfl, rfl, h.committed, h.tracked, h.skipped⟩
  | commit =>
      obtain rfl := Option.some.inj h₁
      obtain rfl := Option.some.inj h₂
      have hd := h.drain
      refine ⟨hd.objects, hd.made, hd.pending, ?_, hd.tracked, hd.skipped⟩
      rw [h.committed, h.drained_eq hs hm]
  | rollback =>
      obtain rfl := Option.some.inj h₁
      obtain rfl := Option.some.inj h₂
      exact h.drain

end Process

/-- **The units of work agree.** In every run in which no instance with unpulled events is taken
for another one, they have committed the same events. -/
theorem units_of_work_agree {s m : Process}
    (h : Runs.Reach stepBoth ToldApart ({}, {}) (s, m)) : m.committed = s.committed := by
  have hrun := h.invariant (I := fun p => p.1.Sound ∧ p.2.Sound ∧ Alike p.1 p.2)
    ⟨sound_start, sound_start, rfl, rfl, rfl, rfl, List.Sublist.refl _,
      fun r hr => absurd hr List.not_mem_nil⟩ ?_
  · exact hrun.2.2.committed
  · rintro ⟨s₁, m₁⟩ op ⟨s₂, m₂⟩ ⟨hs, hm, halike⟩ hC hstep
    obtain ⟨s₃, h₁, hrest⟩ := Option.bind_eq_some_iff.mp hstep
    obtain ⟨m₃, h₂, heq⟩ := Option.map_eq_some_iff.mp hrest
    obtain ⟨rfl, rfl⟩ := Prod.mk.inj heq
    exact ⟨hs.step h₁, hm.step h₂, halike.step hs hm hC h₁ h₂⟩

/-- Where the changed user alone is registered, both units of work commit both events. -/
theorem changed_user_committed : ∃ s m,
    Runs.run stepBoth ToldApart ({}, {}) (changeUser [1] ++ [.commit]) = some (s, m) ∧
    s.committed.length = 2 ∧ m.committed = s.committed := by
  obtain ⟨⟨s, m⟩, hrun, hlen⟩ : ∃ p,
      Runs.run stepBoth ToldApart ({}, {}) (changeUser [1] ++ [.commit]) = some p ∧
      p.1.committed.length = 2 := by
    decide +kernel
  exact ⟨s, m, hrun, hlen, units_of_work_agree (Runs.reach_of_run hrun)⟩

/-- Where the original is registered first, `InMemoryUoW` does not collect the copy. -/
theorem copy_not_committed : ∃ s m,
    Runs.run stepBoth Runs.always ({}, {}) (changeUser [0, 1] ++ [.commit]) = some (s, m) ∧
    m.committed ≠ s.committed := by
  obtain ⟨⟨s, m⟩, hrun, hne⟩ : ∃ p,
      Runs.run stepBoth Runs.always ({}, {}) (changeUser [0, 1] ++ [.commit]) = some p ∧
      p.2.committed ≠ p.1.committed := by
    decide +kernel
  exact ⟨s, m, hrun, hne⟩

end BackendTemplate
