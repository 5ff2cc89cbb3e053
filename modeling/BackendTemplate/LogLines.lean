import BackendTemplate.IpAddress
import BackendTemplate.JsonText
import BackendTemplate.Values

/-!
# Log Lines

`JsonFormatter` writes a record of the log as one JSON object on one line. The message is whatever
was logged, and clients have a say in it: it may have quotes and line breaks in it. What is written
is ASCII without control characters, so that the lines of the log are its records, and each is read
back as the payload of its record.

## Main results

* `get_payload_message` — the message of a payload is that of its record, whatever else the record
  has.
* `log_read_back` — wherever the log is cut off, its complete lines are read back as its first
  records.
-/

namespace BackendTemplate

open IpAddress

/-! ### The formatter -/

/-- What a record has under the name of an attribute: a value of JSON, or another object, with what
`str` makes of it. -/
inductive Attribute
  | none
  | str (s : String)
  | bool (b : Bool)
  | int (n : ℤ)
  | other (text : String)
deriving DecidableEq

/-- `_as_json`. -/
def asJson : Attribute → Json
  | .none => .null
  | .str s => .str s
  | .bool b => .bool b
  | .int n => .int n
  | .other text => .str text

/-- `_RESERVED`. -/
def reserved : List String :=
  ["name", "msg", "args", "levelname", "levelno", "pathname", "filename", "module", "exc_info",
    "exc_text", "stack_info", "lineno", "funcName", "created", "msecs", "relativeCreated", "thread",
    "threadName", "processName", "process", "message", "asctime", "taskName"]

/-- `LogRecord`, with what `getMessage` and `formatException` make of it. -/
structure LogRecord where
  created : Instant
  levelname : String
  name : String
  message : String
  exception : Option String := none
  vars : List (String × Attribute) := []

/-- `_extra_fields`. -/
def extraFields (record : LogRecord) : List (String × Json) :=
  (record.vars.filter fun e => e.1 ∉ reserved).map fun e => (e.1, asJson e.2)

/-- `SpanContext`. -/
structure SpanContext where
  traceId : ℕ := 0
  spanId : ℕ := 0
deriving DecidableEq

/-- `SpanContext.is_valid`. -/
def SpanContext.isValid (context : SpanContext) : Bool :=
  0 < context.traceId && context.traceId < 2 ^ 128 && 0 < context.spanId &&
    context.spanId < 2 ^ 64

/-- `format(n, '0…x')`: the hexadecimal digits, behind zeros. -/
def zeroPadded (width n : ℕ) : String :=
  String.ofList (List.replicate (width - (Nat.toDigits 16 n).length) '0' ++ Nat.toDigits 16 n)

/-- What a record is formatted with: the request id and the span of the task that logs it. -/
structure LogEntry where
  requestId : String
  span : SpanContext
  record : LogRecord

/-- `payload[k] = v`, where the condition holds. -/
def putIf (c : Bool) (k v : String) (payload : List (String × Json)) : List (String × Json) :=
  if c then Dict.put k (.str v) payload else payload

/-- The payload before `payload.update`. -/
def basePayload (env : Env) (e : LogEntry) : List (String × Json) :=
  let payload : List (String × Json) :=
    [("timestamp", .str (env.isoformat e.record.created)), ("level", .str e.record.levelname),
      ("logger", .str e.record.name), ("message", .str e.record.message)]
  let payload := putIf (e.requestId ≠ "") "request_id" e.requestId payload
  let payload := putIf e.span.isValid "trace_id" (zeroPadded 32 e.span.traceId) payload
  let payload := putIf e.span.isValid "span_id" (zeroPadded 16 e.span.spanId) payload
  putIf e.record.exception.isSome "exception" (e.record.exception.getD "") payload

/-- The payload. -/
def payload (env : Env) (e : LogEntry) : List (String × Json) :=
  Dict.update (basePayload env e) (extraFields e.record)

/-- `json.dumps`. -/
def dumps (j : Json) : Text := Json.print ⟨true, true⟩ j

/-- `JsonFormatter.format`. -/
def JsonFormatter.format (env : Env) (e : LogEntry) : Text := dumps (.obj (payload env e))

/-- `StreamHandler.emit`: the formatted record and the terminator. -/
def emit (env : Env) (stream : Text) (e : LogEntry) : Text :=
  stream ++ (JsonFormatter.format env e ++ ['\n'])

/-- What is on the stream after some records. -/
def logText (env : Env) (entries : List LogEntry) : Text := entries.foldl (emit env) []

/-! ### Payloads -/

theorem get_putIf (c : Bool) (k v : String) (d : List (String × Json)) (k' : String) :
    Dict.get (putIf c k v d) k' =
      if c ∧ k = k' then some (.str v) else Dict.get d k' := by
  rw [putIf]
  cases c with
  | false => rw [if_neg (by decide), if_neg (by simp)]
  | true =>
      rw [if_pos rfl, Dict.get_put]
      simp

/-- A reserved name is no extra field. -/
theorem get_extraFields_reserved {k : String} (h : k ∈ reserved) (record : LogRecord) :
    Dict.get (extraFields record).reverse k = none := by
  refine Dict.get_eq_none fun hk => ?_
  rw [List.map_reverse, List.mem_reverse, List.mem_map] at hk
  obtain ⟨e, he, rfl⟩ := hk
  obtain ⟨e', he', rfl⟩ := List.mem_map.mp he
  exact absurd h (of_decide_eq_true (List.mem_filter.mp he').2)

/-- **The message is that of the record**: no other field of a record can stand for it. -/
theorem get_payload_message (env : Env) (e : LogEntry) :
    Dict.get (payload env e) "message" = some (.str e.record.message) := by
  rw [payload, Dict.get_update, get_extraFields_reserved (by decide), Option.none_or, basePayload]
  simp only [get_putIf]
  simp [Dict.get_cons]

/-- The request id is the one of the task, unless the caller gives one itself. -/
theorem get_payload_requestId (env : Env) {e : LogEntry}
    (h : "request_id" ∉ (extraFields e.record).map Prod.fst) :
    Dict.get (payload env e) "request_id" =
      if e.requestId = "" then none else some (.str e.requestId) := by
  have hextra : Dict.get (extraFields e.record).reverse "request_id" = none :=
    Dict.get_eq_none (by rwa [List.map_reverse, List.mem_reverse])
  rw [payload, Dict.get_update, hextra, Option.none_or, basePayload]
  simp only [get_putIf]
  by_cases hempty : e.requestId = ""
  · simp [hempty, Dict.get_eq_none]
  · simp [hempty]

/-! ### Lines -/

/-- The complete lines of a text. -/
def lines (text : Text) : List Text := (text.splitOn '\n').dropLast

/-- A line and its end. -/
theorem lines_append_cons {line : Text} (h : '\n' ∉ line) (text : Text) :
    lines (line ++ '\n' :: text) = line :: lines text := by
  rw [lines, List.splitOn_append_cons_self_of_not_mem h,
    List.dropLast_cons_of_ne_nil (List.splitOn_ne_nil _ _), lines]

/-- What has no end is no line. -/
theorem lines_eq_nil {text : Text} (h : '\n' ∉ text) : lines text = [] := by
  rw [lines, List.splitOn_eq_singleton h, List.dropLast_singleton]

/-- **The lines of a part of a text are its first lines**, as many as have their end in it. -/
theorem lines_of_start {ls : List Text} (h : ∀ l ∈ ls, '\n' ∉ l) {text : Text}
    (hstart : text <+: ls.flatMap (· ++ ['\n'])) :
    lines text = ls.take (text.count '\n') := by
  induction ls generalizing text with
  | nil =>
      rw [List.flatMap_nil, List.prefix_nil] at hstart
      rw [hstart]
      rfl
  | cons l ls ih =>
      have hl : '\n' ∉ l := h l List.mem_cons_self
      rw [List.flatMap_cons] at hstart
      rcases List.prefix_or_prefix_of_prefix hstart (List.prefix_append (l ++ ['\n']) _) with
        hshort | ⟨rest, rfl⟩
      · rcases List.prefix_concat_iff.mp hshort with rfl | hshort
        · rw [lines_append_cons hl, lines_eq_nil List.not_mem_nil, List.count_append,
            List.count_eq_zero_of_not_mem hl]
          rfl
        · have hnone : '\n' ∉ text := fun hmem => hl (hshort.subset hmem)
          rw [lines_eq_nil hnone, List.count_eq_zero_of_not_mem hnone, List.take_zero]
      · rw [List.append_assoc, List.singleton_append, lines_append_cons hl, List.count_append,
          List.count_eq_zero_of_not_mem hl, List.count_cons_self, Nat.zero_add, List.take_succ_cons,
          ih (fun l' hl' => h l' (List.mem_cons_of_mem _ hl'))
            ((List.prefix_append_right_inj _).mp hstart)]

/-! ### The log -/

theorem logText_eq (env : Env) (entries : List LogEntry) :
    logText env entries = (entries.map (JsonFormatter.format env)).flatMap (· ++ ['\n']) := by
  induction entries using List.reverseRecOn with
  | nil => rfl
  | append_singleton entries e ih =>
      rw [logText, List.foldl_append]
      change emit env (logText env entries) e = _
      rw [emit, ih, List.map_append, List.flatMap_append]
      simp

/-- A formatted record is on one line. -/
theorem newline_not_mem_format (env : Env) (e : LogEntry) :
    '\n' ∉ JsonFormatter.format env e := by
  intro h
  have hprints := (Json.Style.printsAll_print (.obj (payload env e)) '\n' h).1
  exact absurd hprints (by decide)

/-- There is one line for every record. -/
theorem count_logText (env : Env) (entries : List LogEntry) :
    (logText env entries).count '\n' = entries.length := by
  rw [logText_eq]
  induction entries with
  | nil => rfl
  | cons e entries ih =>
      rw [List.map_cons, List.flatMap_cons, List.count_append, List.count_append, ih,
        List.count_eq_zero_of_not_mem (newline_not_mem_format env e), List.length_cons]
      exact Nat.add_comm _ _

/-- What a reader of the log finds under a key, line by line. -/
def readKey (k : String) (text : Text) : List (Option Json) :=
  (lines text).map fun l => (Json.read l).bind (Json.member k)

/-- The lines of a part of the log are read as payloads. -/
theorem read_lines_take (env : Env) (entries : List LogEntry) (n : ℕ) :
    (lines ((logText env entries).take n)).map Json.read =
      (entries.take (((logText env entries).take n).count '\n')).map fun e =>
        some (.obj (payload env e)) := by
  have hstart : (logText env entries).take n <+:
      (entries.map (JsonFormatter.format env)).flatMap (· ++ ['\n']) := by
    rw [← logText_eq]
    exact List.take_prefix n _
  have hformat : ∀ l ∈ entries.map (JsonFormatter.format env), '\n' ∉ l := by
    intro l hl
    obtain ⟨e, -, rfl⟩ := List.mem_map.mp hl
    exact newline_not_mem_format env e
  rw [lines_of_start hformat hstart, ← List.map_take, List.map_map]
  exact List.map_congr_left fun e _ => Json.read_print _ _

theorem readKey_take (env : Env) (entries : List LogEntry) (n : ℕ) (k : String) :
    readKey k ((logText env entries).take n) =
      (entries.take (((logText env entries).take n).count '\n')).map fun e =>
        Dict.get (payload env e) k := by
  have hmember := congrArg (List.map fun j => j.bind (Json.member k))
    (read_lines_take env entries n)
  rw [List.map_map, List.map_map] at hmember
  exact hmember

/-- What is found in the whole log. -/
theorem readKey_logText (env : Env) (entries : List LogEntry) (k : String) :
    readKey k (logText env entries) = entries.map fun e => Dict.get (payload env e) k := by
  have htake := readKey_take env entries (logText env entries).length k
  rwa [List.take_length, count_logText, List.take_length] at htake

end BackendTemplate
