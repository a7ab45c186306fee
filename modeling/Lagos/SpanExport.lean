/-
Exporting spans (`otel.rs`, and the end of `logging` in `proxy.rs`).

The span of a finished request is offered to a queue of bounded depth, and dropped where that is
full. A task takes the spans off the queue, collects them and hands them to the exporter in
batches; until the collector has answered it takes nothing, and requests go on recording. Requests,
the task, its timer and the answers come in any order (`Exporter.step`).

In every order each span that was let in is in one place, and the places are in the order of the
spans (`spans_accounted`). What is inside is exported in the end, as long as the timer goes on and
the task does not neglect the queue forever (`spans_exported`). A batch that the collector refuses
is lost, and not sent again.

`SENDER` is a static and never dropped, so that the queue is not closed: what the task does with a
closed queue is left out. The timer's intervals are not modelled; a tick may come at any time.
-/
import Lagos.Lib.Run
import Lagos.Trace
import Mathlib.Data.List.Infix

set_option autoImplicit false

open RustStd StepRun

namespace Lagos.Otel

open Lagos.Trace

/-! ## Spans -/

/-- `FinishedSpan`. Times are counted from one origin. -/
structure FinishedSpan where
  trace : TraceContext
  name : Str
  route : Str
  upstream : Str
  method : Str
  path : Str
  status : ℕ
  retries : ℕ
  start : ℕ
  «end» : ℕ
  deriving DecidableEq, Repr

/-- `opentelemetry::Value`, of the types that are used. -/
inductive Value where
  | String (s : Str)
  | I64 (n : ℕ)
  deriving DecidableEq, Repr

/-- `opentelemetry::trace::Status`. -/
inductive Status where
  | Unset
  | Error (description : String)
  deriving DecidableEq, Repr

/-- The fields of `SpanData` that are not the same for every span. -/
structure SpanData where
  trace_id : List UInt8
  span_id : List UInt8
  flags : UInt8
  parent_span_id : List UInt8
  parent_span_is_remote : Bool
  name : Str
  start_time : ℕ
  end_time : ℕ
  attributes : List (String × Value)
  status : Status
  deriving DecidableEq, Repr

/-- `SpanId::INVALID`. -/
def INVALID : List UInt8 := List.replicate 8 0

/-- `to_span_data`. -/
def to_span_data (service : Str) (s : FinishedSpan) : SpanData where
  trace_id := s.trace.trace_id
  span_id := s.trace.span_id
  flags := s.trace.flags
  parent_span_id := s.trace.parent_span_id.getD INVALID
  parent_span_is_remote := s.trace.parent_span_id.isSome
  name := s.name
  start_time := s.start
  end_time := s.end
  attributes :=
    [("service.name", .String service), ("http.request.method", .String s.method),
        ("url.path", .String s.path), ("http.response.status_code", .I64 s.status)]
      ++ (if s.route.isEmpty then [] else [("lagos.route", .String s.route)])
      ++ (if s.upstream.isEmpty then [] else [("lagos.upstream", .String s.upstream)])
      ++ if 0 < s.retries then [("lagos.retries", .I64 s.retries)] else []
  status := if 500 ≤ s.status then .Error "upstream or gateway error" else .Unset

/-! ## The exporter -/

/-- `QUEUE_DEPTH`. -/
def QUEUE_DEPTH : ℕ := 2048

/-- `BATCH_SIZE`. -/
def BATCH_SIZE : ℕ := 256

/-- The queue and the task that empties it. -/
structure Exporter where
  /-- `SENDER`, with the service that it was set for. -/
  service : Option Str := none
  queue : List FinishedSpan := []
  batch : List SpanData := []
  /-- What the task waits for the collector to answer. -/
  exporting : Option (List SpanData) := none
  /-- What was answered, and whether the export succeeded. -/
  exported : List (List SpanData × Bool) := []
  /-- The metric of that name. -/
  spans_dropped : ℕ := 0
  deriving DecidableEq, Repr

/-- What happens to it. -/
inductive Event where
  /-- It is set up, if its transport can be built. -/
  | init (service : Str) (built : Bool)
  | record (span : FinishedSpan)
  /-- The task takes a span off the queue. -/
  | recv
  | tick
  /-- The collector answers, or is given up on. -/
  | answered (ok : Bool)
  deriving DecidableEq, Repr

/-- `init`. A second one fails. -/
def Exporter.init (s : Exporter) (service : Str) (built : Bool) : Exporter :=
  if built ∧ s.service = none then { s with service := some service } else s

/-- `record`. -/
def Exporter.record (s : Exporter) (span : FinishedSpan) : Exporter :=
  if s.service = none then s
  else if s.queue.length < QUEUE_DEPTH then { s with queue := s.queue ++ [span] }
  else { s with spans_dropped := s.spans_dropped + 1 }

/-- The end of the task's loop: the batch is handed over. -/
def Exporter.flush (s : Exporter) (flush : Bool) : Exporter :=
  if flush ∧ s.batch ≠ [] then { s with batch := [], exporting := some s.batch } else s

/-- The task of that service waits at its `select!`. -/
def Exporter.idle (s : Exporter) : Option Str := if s.exporting = none then s.service else none

def Exporter.step (s : Exporter) : Event → Option Exporter
  | .init service built => some (s.init service built)
  | .record span => some (s.record span)
  | .recv =>
    match s.idle, s.queue with
    | some service, span :: rest =>
      let batch := s.batch ++ [to_span_data service span]
      some ({ s with queue := rest, batch := batch }.flush (BATCH_SIZE ≤ batch.length))
    | _, _ => none
  | .tick => if s.idle = none then none else some (s.flush true)
  | .answered ok =>
    s.exporting.map fun batch =>
      { s with exporting := none, exported := s.exported ++ [(batch, ok)] }

/-! ## Requests to the collector -/

/-- What was handed to the exporter, one list for each request. -/
def Exporter.requests (s : Exporter) : List (List SpanData) :=
  s.exported.map Prod.fst ++ s.exporting.toList

/-- The spans inside, from the first. -/
def Exporter.line (s : Exporter) (service : Str) : List SpanData :=
  s.requests.flatten ++ s.batch ++ s.queue.map (to_span_data service)

/-- A request that is not full. -/
def partly (batch : List SpanData) : Bool := decide (batch.length < BATCH_SIZE)

/-- Nothing grows beyond its bound, and there is one request at a time. -/
structure Exporter.Bounded (s : Exporter) : Prop where
  queue : s.queue.length ≤ QUEUE_DEPTH
  batch : s.batch.length < BATCH_SIZE
  waits : s.exporting ≠ none → s.batch = []
  requests : ∀ batch ∈ s.requests, batch ≠ [] ∧ batch.length ≤ BATCH_SIZE

/-- The span that an event records. -/
def Event.span : Event → Option FinishedSpan
  | .record span => some span
  | _ => none

/-- The service that an event sets the exporter up for. -/
def Event.sets : Event → Option Str
  | .init service true => some service
  | _ => none

/-- The service that the exporter runs for after these events. -/
def service_of (es : List Event) : Option Str := es.findSome? Event.sets

/-- The spans recorded since it was set up. -/
def offered (es : List Event) : List FinishedSpan :=
  (es.dropWhile fun e => e.sets.isNone).filterMap Event.span

/-- The accounts after some events: the spans let in are some of those offered, in their order,
the others were counted, and what was let in is inside or handed over. -/
structure Exporter.Accounts (s : Exporter) (es : List Event) (accepted : List FinishedSpan) :
    Prop where
  service : s.service = service_of es
  sublist : accepted.Sublist (offered es)
  dropped : accepted.length + s.spans_dropped = (offered es).length
  line : ∀ service ∈ service_of es, s.line service = accepted.map (to_span_data service)
  unset : service_of es = none → s = {}

/-! ## Steps -/

/-- What a step can do. -/
inductive Moves (s : Exporter) : Event → Exporter → Prop where
  | init (service : Str) (built : Bool) : Moves s (.init service built) (s.init service built)
  | record (span : FinishedSpan) : Moves s (.record span) (s.record span)
  | collects {service : Str} {span : FinishedSpan} {rest : List FinishedSpan}
      (hidle : s.exporting = none) (hservice : s.service = some service)
      (hqueue : s.queue = span :: rest) (hroom : s.batch.length + 1 < BATCH_SIZE) :
      Moves s .recv { s with queue := rest, batch := s.batch ++ [to_span_data service span] }
  | fills {service : Str} {span : FinishedSpan} {rest : List FinishedSpan}
      (hidle : s.exporting = none) (hservice : s.service = some service)
      (hqueue : s.queue = span :: rest) (hfull : BATCH_SIZE ≤ s.batch.length + 1) :
      Moves s .recv
        { s with
          queue := rest
          batch := []
          exporting := some (s.batch ++ [to_span_data service span]) }
  | rests (hidle : s.exporting = none) (hservice : s.service ≠ none) (hbatch : s.batch = []) :
      Moves s .tick s
  | flushes (hidle : s.exporting = none) (hservice : s.service ≠ none) (hbatch : s.batch ≠ []) :
      Moves s .tick { s with batch := [], exporting := some s.batch }
  | answers {batch : List SpanData} (ok : Bool) (hbusy : s.exporting = some batch) :
      Moves s (.answered ok)
        { s with exporting := none, exported := s.exported ++ [(batch, ok)] }

section Steps

variable {s t : Exporter} {e : Event} {service : Str}

theorem idle_eq_some : s.idle = some service ↔ s.exporting = none ∧ s.service = some service := by
  unfold Exporter.idle
  by_cases hidle : s.exporting = none
  · simp [hidle]
  · simp [hidle]

theorem moves_of_step (h : s.step e = some t) : Moves s e t := by
  cases e with
  | init service built =>
    cases h
    exact .init service built
  | record span =>
    cases h
    exact .record span
  | recv =>
    simp only [Exporter.step] at h
    split at h
    · rename_i service span rest hidle hqueue
      obtain ⟨hexporting, hservice⟩ := idle_eq_some.mp hidle
      rw [List.length_append, List.length_singleton] at h
      by_cases hfull : BATCH_SIZE ≤ s.batch.length + 1
      · simp only [Exporter.flush, hfull, decide_true, true_and] at h
        rw [if_pos (List.append_ne_nil_of_right_ne_nil _ (List.cons_ne_nil _ _))] at h
        cases h
        exact .fills hexporting hservice hqueue hfull
      · simp only [Exporter.flush, hfull, decide_false, Bool.false_eq_true, false_and,
          if_false] at h
        cases h
        exact .collects hexporting hservice hqueue (Nat.lt_of_not_le hfull)
    · cases h
  | tick =>
    simp only [Exporter.step] at h
    by_cases hidle : s.idle = none
    · simp [hidle] at h
    · rw [if_neg hidle] at h
      obtain ⟨service, hsome⟩ := Option.ne_none_iff_exists'.mp hidle
      obtain ⟨hexporting, hservice⟩ := idle_eq_some.mp hsome
      have hset : s.service ≠ none := by simp [hservice]
      cases h
      by_cases hbatch : s.batch = []
      · have hsame : s.flush true = s := if_neg (by simp [hbatch])
        rw [hsame]
        exact .rests hexporting hset hbatch
      · have hflushed : s.flush true = { s with batch := [], exporting := some s.batch } :=
          if_pos ⟨rfl, hbatch⟩
        rw [hflushed]
        exact .flushes hexporting hset hbatch
  | answered ok =>
    obtain ⟨batch, hbusy, rfl⟩ := Option.map_eq_some_iff.mp h
    exact .answers ok hbusy

/-- Recording a span changes the queue and the metric only. -/
theorem record_cases (s : Exporter) (span : FinishedSpan) :
    (s.service = none ∧ s.record span = s)
      ∨ s.service ≠ none ∧ s.queue.length < QUEUE_DEPTH
        ∧ s.record span = { s with queue := s.queue ++ [span] }
      ∨ s.service ≠ none ∧ QUEUE_DEPTH ≤ s.queue.length
        ∧ s.record span = { s with spans_dropped := s.spans_dropped + 1 } := by
  unfold Exporter.record
  by_cases hservice : s.service = none
  · exact .inl ⟨hservice, if_pos hservice⟩
  · rw [if_neg hservice]
    by_cases hroom : s.queue.length < QUEUE_DEPTH
    · exact .inr (.inl ⟨hservice, hroom, if_pos hroom⟩)
    · exact .inr (.inr ⟨hservice, Nat.le_of_not_lt hroom, if_neg hroom⟩)

/-- Setting it up changes nothing else. -/
theorem init_cases (s : Exporter) (service : Str) (built : Bool) :
    s.service = none ∧ built = true ∧ s.init service built = { s with service := some service }
      ∨ (s.service = none → built = false) ∧ s.init service built = s := by
  unfold Exporter.init
  by_cases hset : built = true ∧ s.service = none
  · exact .inl ⟨hset.2, hset.1, if_pos hset⟩
  · refine .inr ⟨fun hnone => ?_, if_neg hset⟩
    simpa [hnone] using hset

end Steps

/-! ## Nothing is lost inside -/

section Histories

variable {es : List Event} {e : Event}

theorem service_of_concat : service_of (es ++ [e]) = (service_of es).or e.sets := by
  rw [service_of, service_of, List.findSome?_append, List.findSome?_singleton]

theorem offered_of_none (h : service_of es = none) : offered es = [] := by
  rw [service_of, List.findSome?_eq_none_iff] at h
  rw [offered, List.dropWhile_eq_nil_iff.mpr fun e he => by simp [h e he], List.filterMap_nil]

theorem offered_concat :
    offered (es ++ [e]) = offered es ++ if service_of es = none then [] else e.span.toList := by
  by_cases hnone : service_of es = none
  · rw [if_pos hnone, List.append_nil, offered_of_none hnone]
    have hall : ∀ e' ∈ es, e'.sets.isNone = true := by
      rw [service_of, List.findSome?_eq_none_iff] at hnone
      exact fun e' he' => by simp [hnone e' he']
    rw [offered, List.dropWhile_append_of_pos hall]
    -- The event that sets the exporter up records nothing.
    cases e with
    | init service built => cases built <;> rfl
    | _ => rfl
  · rw [if_neg hnone, offered, offered, List.dropWhile_append]
    have hsome : (es.dropWhile fun e => e.sets.isNone).isEmpty = false := by
      rw [← Bool.not_eq_true, List.isEmpty_iff, List.dropWhile_eq_nil_iff]
      intro hall
      exact hnone (List.findSome?_eq_none_iff.mpr fun e' he' => by simpa using hall e' he')
    rw [hsome, if_neg Bool.false_ne_true, List.filterMap_append]
    cases e <;> rfl

end Histories

section Accounts

variable {s t : Exporter} {e : Event} {es : List Event} {service : Str}

/-- Spans only move up in the line, and only a recorded one joins it. -/
theorem Moves.line_eq (h : Moves s e t) (hservice : s.service = some service) :
    ∃ accepted : List FinishedSpan, accepted.Sublist e.span.toList
      ∧ accepted.length + t.spans_dropped = e.span.toList.length + s.spans_dropped
      ∧ t.line service = s.line service ++ accepted.map (to_span_data service) := by
  cases h with
  | init name built =>
    refine ⟨[], List.nil_sublist _, ?_, ?_⟩
    · obtain ⟨hnone, -⟩ | ⟨-, hsame⟩ := init_cases s name built
      · simp [hservice] at hnone
      · simp [hsame, Event.span]
    · obtain ⟨hnone, -⟩ | ⟨-, hsame⟩ := init_cases s name built
      · simp [hservice] at hnone
      · simp [hsame]
  | record span =>
    obtain ⟨hnone, -⟩ | ⟨-, -, hadded⟩ | ⟨-, -, hdropped⟩ := record_cases s span
    · simp [hservice] at hnone
    · refine ⟨[span], List.Sublist.refl _, ?_, ?_⟩
      · simp [hadded, Event.span]
      · simp [hadded, Exporter.line, Exporter.requests]
    · refine ⟨[], List.nil_sublist _, ?_, ?_⟩
      · simp only [hdropped, Event.span, List.length_nil, Option.toList_some, List.length_singleton]
        omega
      · simp [hdropped, Exporter.line, Exporter.requests]
  | collects hidle hname hqueue hroom =>
    obtain rfl := Option.some.inj (hservice.symm.trans hname)
    refine ⟨[], List.nil_sublist _, by simp [Event.span], ?_⟩
    simp [Exporter.line, Exporter.requests, hqueue]
  | fills hidle hname hqueue hfull =>
    obtain rfl := Option.some.inj (hservice.symm.trans hname)
    refine ⟨[], List.nil_sublist _, by simp [Event.span], ?_⟩
    simp [Exporter.line, Exporter.requests, hqueue, hidle]
  | rests hidle hset hbatch =>
    exact ⟨[], List.nil_sublist _, by simp [Event.span], by simp⟩
  | flushes hidle hset hbatch =>
    refine ⟨[], List.nil_sublist _, by simp [Event.span], ?_⟩
    simp [Exporter.line, Exporter.requests, hidle]
  | answers ok hbusy =>
    refine ⟨[], List.nil_sublist _, by simp [Event.span], ?_⟩
    simp [Exporter.line, Exporter.requests, hbusy]

/-- The exporter runs for the first service that it is set up for. -/
theorem Moves.service_eq (h : Moves s e t) : t.service = s.service.or e.sets := by
  cases h with
  | init name built =>
    obtain ⟨hnone, hbuilt, hset⟩ | ⟨hbuilt, hsame⟩ := init_cases s name built
    · rw [hset, hnone, hbuilt]
      rfl
    · rw [hsame]
      cases hservice : s.service with
      | some service => rfl
      | none => simp [hbuilt hservice, Event.sets]
  | record span =>
    obtain ⟨-, hsame⟩ | ⟨-, -, hsame⟩ | ⟨-, -, hsame⟩ := record_cases s span <;>
      simp [hsame, Event.sets]
  | _ => simp [Event.sets]

/-- Before it is set up, nothing happens to it. -/
theorem Moves.unset (h : Moves {} e t) (hsets : e.sets = none) : t = {} := by
  cases h with
  | init name built =>
    cases built with
    | true => cases hsets
    | false => rfl
  | record span => rfl
  | collects hidle hname => cases hname
  | fills hidle hname => cases hname
  | rests => rfl
  | flushes hidle hset => exact absurd rfl hset
  | answers ok hbusy => cases hbusy

/-- Setting it up changes nothing else. -/
theorem Moves.first (h : Moves {} e t) (hsets : e.sets = some service) :
    t = { service := some service } := by
  cases h with
  | init name built =>
    cases built with
    | true =>
      cases hsets
      rfl
    | false => cases hsets
  | _ => cases hsets

/-- One step keeps the accounts. -/
theorem accounts_step {accepted : List FinishedSpan} (haccounts : s.Accounts es accepted)
    (h : s.step e = some t) : ∃ accepted, t.Accounts (es ++ [e]) accepted := by
  have hmoves := moves_of_step h
  have hservice := hmoves.service_eq
  rw [haccounts.service, ← service_of_concat] at hservice
  cases hset : service_of es with
  | none =>
    have hempty : accepted = [] := by
      have hsub := haccounts.sublist
      rw [offered_of_none hset] at hsub
      exact List.sublist_nil.mp hsub
    have hoffered : offered (es ++ [e]) = [] := by
      rw [offered_concat, if_pos hset, offered_of_none hset, List.append_nil]
    obtain rfl := haccounts.unset hset
    cases hsets : e.sets with
    | none =>
      obtain rfl := hmoves.unset hsets
      have hnone : service_of (es ++ [e]) = none := by rw [service_of_concat, hset, hsets]; rfl
      exact ⟨[], hservice, List.nil_sublist _, by simp [hoffered], by simp [hnone], fun _ => rfl⟩
    | some service =>
      obtain rfl := hmoves.first hsets
      refine ⟨[], hservice, List.nil_sublist _, by simp [hoffered], fun _ _ => rfl, ?_⟩
      simp [service_of_concat, hset, hsets]
  | some service =>
    obtain ⟨more, hsub, hcount, hline⟩ := hmoves.line_eq (haccounts.service.trans hset)
    have hoffered : offered (es ++ [e]) = offered es ++ e.span.toList := by
      rw [offered_concat, if_neg (by simp [hset])]
    have hsame : service_of (es ++ [e]) = some service := by rw [service_of_concat, hset]; rfl
    refine ⟨accepted ++ more, hservice, ?_, ?_, ?_, by simp [hsame]⟩
    · rw [hoffered]
      exact haccounts.sublist.append hsub
    · have hbefore := haccounts.dropped
      rw [hoffered, List.length_append, List.length_append]
      omega
    · rw [hsame]
      rintro _ ⟨⟩
      rw [hline, haccounts.line service hset, List.map_append]

/-! ## Nothing grows beyond its bound -/

/-- A step hands over at most one request: a full one as a span is taken, or what there is as the
timer ticks. -/
theorem Moves.requests_eq (h : Moves s e t) :
    (t.requests = s.requests ∧ (t.exporting = s.exporting ∨ t.exporting = none))
      ∨ ∃ batch, t.requests = s.requests ++ [batch] ∧ t.exporting = some batch ∧ t.batch = []
        ∧ (batch.length = s.batch.length + 1 ∧ BATCH_SIZE ≤ batch.length
          ∨ e = .tick ∧ batch = s.batch ∧ s.batch ≠ []) := by
  cases h with
  | init name built =>
    obtain ⟨-, -, hset⟩ | ⟨-, hsame⟩ := init_cases s name built
    · exact .inl (by simp [hset, Exporter.requests])
    · exact .inl (by simp [hsame])
  | record span =>
    obtain ⟨-, hsame⟩ | ⟨-, -, hsame⟩ | ⟨-, -, hsame⟩ := record_cases s span <;>
      exact .inl (by simp [hsame, Exporter.requests])
  | collects hidle hname hqueue hroom => exact .inl ⟨rfl, .inl rfl⟩
  | fills hidle hname hqueue hfull =>
    exact .inr ⟨_, by simp [Exporter.requests, hidle], rfl, rfl,
      .inl (by simpa using hfull)⟩
  | rests hidle hset hbatch => exact .inl ⟨rfl, .inl rfl⟩
  | flushes hidle hset hbatch =>
    exact .inr ⟨_, by simp [Exporter.requests, hidle], rfl, rfl, .inr ⟨rfl, rfl, hbatch⟩⟩
  | answers ok hbusy =>
    exact .inl ⟨by simp [Exporter.requests, hbusy], .inr rfl⟩

/-- Where no request is handed over, the batch grows by less than would fill it, while the task is
idle. -/
theorem Moves.batch_eq (h : Moves s e t) (hsame : t.requests = s.requests) :
    t.batch = s.batch ∨ s.exporting = none ∧ t.exporting = none ∧ t.batch.length < BATCH_SIZE := by
  cases h with
  | init name built =>
    obtain ⟨-, -, hset⟩ | ⟨-, hsame⟩ := init_cases s name built
    · exact .inl (by simp [hset])
    · exact .inl (by simp [hsame])
  | record span =>
    obtain ⟨-, hsame⟩ | ⟨-, -, hsame⟩ | ⟨-, -, hsame⟩ := record_cases s span <;>
      exact .inl (by simp [hsame])
  | collects hidle hname hqueue hroom => exact .inr ⟨hidle, hidle, by simpa using hroom⟩
  | fills hidle hname hqueue hfull => simp [Exporter.requests, hidle] at hsame
  | rests hidle hset hbatch => exact .inl rfl
  | flushes hidle hset hbatch => simp [Exporter.requests, hidle] at hsame
  | answers ok hbusy => exact .inl rfl

/-- The queue is only added to while there is room. -/
theorem Moves.queue_le (h : Moves s e t) (hqueue : s.queue.length ≤ QUEUE_DEPTH) :
    t.queue.length ≤ QUEUE_DEPTH := by
  cases h with
  | init name built =>
    obtain ⟨-, -, hset⟩ | ⟨-, hsame⟩ := init_cases s name built
    · simpa [hset] using hqueue
    · simpa [hsame] using hqueue
  | record span =>
    obtain ⟨-, hsame⟩ | ⟨-, hroom, hsame⟩ | ⟨-, -, hsame⟩ := record_cases s span
    · simpa [hsame] using hqueue
    · simp only [hsame, List.length_append, List.length_singleton]
      omega
    · simpa [hsame] using hqueue
  | collects hidle hname hcons hroom =>
    rw [hcons, List.length_cons] at hqueue
    dsimp only
    omega
  | fills hidle hname hcons hfull =>
    rw [hcons, List.length_cons] at hqueue
    dsimp only
    omega
  | rests hidle hset hbatch => exact hqueue
  | flushes hidle hset hbatch => exact hqueue
  | answers ok hbusy => exact hqueue

/-- One step keeps the bounds, -/
theorem bounded_step (hbounded : s.Bounded) (h : s.step e = some t) : t.Bounded := by
  have hmoves := moves_of_step h
  have hqueue := hmoves.queue_le hbounded.queue
  obtain ⟨hsame, hexporting⟩ | ⟨batch, hrequests, hbusy, hempty, hbatch⟩ := hmoves.requests_eq
  · refine ⟨hqueue, ?_, ?_, hsame ▸ hbounded.requests⟩
    · obtain hbatch | ⟨-, -, hroom⟩ := hmoves.batch_eq hsame
      · exact hbatch ▸ hbounded.batch
      · exact hroom
    · intro hne
      obtain hbatch | ⟨-, hidle, -⟩ := hmoves.batch_eq hsame
      · rw [hbatch]
        obtain hkept | hnone := hexporting
        · exact hbounded.waits (hkept ▸ hne)
        · exact absurd hnone hne
      · exact absurd hidle hne
  · refine ⟨hqueue, by rw [hempty]; decide, fun _ => hempty, ?_⟩
    have hroom := hbounded.batch
    have hone : 0 < BATCH_SIZE := by decide
    rw [hrequests]
    intro b hb
    obtain hb | hb := List.mem_append.mp hb
    · exact hbounded.requests b hb
    · obtain rfl := List.mem_singleton.mp hb
      obtain ⟨hlen, hfull⟩ | ⟨-, rfl, hne⟩ := hbatch
      · exact ⟨List.ne_nil_of_length_pos (by omega), by omega⟩
      · exact ⟨hne, hroom.le⟩

/-- and a request that is not full takes a tick. -/
theorem partly_step (h : s.step e = some t) :
    t.requests.countP partly ≤ s.requests.countP partly + [e].count .tick := by
  obtain ⟨hsame, -⟩ | ⟨batch, hrequests, -, -, ⟨-, hfull⟩ | ⟨rfl, -⟩⟩ :=
    (moves_of_step h).requests_eq
  · rw [hsame]
    exact Nat.le_add_right _ _
  · have hnot : partly batch = false := by simpa [partly] using hfull
    rw [hrequests, List.countP_append, List.countP_singleton, hnot]
    simp
  · rw [hrequests, List.countP_append]
    have hone : [batch].countP partly ≤ 1 := List.countP_le_length
    simpa using hone

end Accounts

/-- **No span is lost or sent twice inside the gateway**, whatever comes in which order: those that
were let in are in one place each, in the order they were recorded in, and the others were counted
as dropped. No more than a queue and a batch are held at any time, and a request that is not full
takes a tick. -/
theorem spans_accounted {es : List Event} {s : Exporter} (h : run Exporter.step {} es = some s) :
    (∃ accepted, s.Accounts es accepted) ∧ s.Bounded
      ∧ s.queue.length + s.batch.length + (s.exporting.getD []).length ≤ QUEUE_DEPTH + BATCH_SIZE
      ∧ s.requests.countP partly ≤ es.count .tick := by
  have hstart : Exporter.Bounded {} := by
    exact ⟨by decide, by decide, fun _ => rfl, List.forall_mem_nil _⟩
  have hbounded : s.Bounded :=
    run_invariant_always hstart (fun _ _ _ hb hstep => bounded_step hb hstep) h
  have halong : Along Exporter.step (fun _ _ => True) {} es := along_of_forall fun _ _ _ => trivial
  have hruns : (∃ accepted, s.Accounts es accepted)
      ∧ s.requests.countP partly ≤ es.count .tick := by
    refine run_induction (P := fun es s =>
      (∃ accepted, s.Accounts es accepted) ∧ s.requests.countP partly ≤ es.count .tick)
      ?_ ?_ h halong
    · exact ⟨⟨[], rfl, List.nil_sublist _, rfl, by simp [service_of], fun _ => rfl⟩, Nat.le_refl _⟩
    · rintro es e s t - ⟨⟨accepted, haccounts⟩, hticks⟩ - hstep
      refine ⟨accounts_step haccounts hstep, ?_⟩
      rw [List.count_append]
      exact (partly_step hstep).trans (Nat.add_le_add_right hticks _)
  refine ⟨hruns.1, hbounded, ?_, hruns.2⟩
  have hqueue := hbounded.queue
  have hroom := hbounded.batch
  cases hbusy : s.exporting with
  | none =>
    simp only [Option.getD_none, List.length_nil]
    omega
  | some batch =>
    have hwaits := hbounded.waits (by simp [hbusy])
    have hlen := (hbounded.requests batch (by simp [Exporter.requests, hbusy])).2
    rw [hwaits, Option.getD_some, List.length_nil]
    omega

/-- A request of the hop `n` of a trace. -/
def answered_by (n : ℕ) : FinishedSpan where
  trace := ⟨List.replicate 16 1, List.replicate 8 (UInt8.ofNat n), none, FLAG_SAMPLED⟩
  name := "GET".toList
  route := []
  upstream := []
  method := "GET".toList
  path := "/".toList
  status := 200
  retries := 0
  start := 0
  «end» := n

/-- One request is recorded too early, one is exported and refused, and one still waits. -/
theorem spans_accounted_three :
    let es := [.record (answered_by 1), .init "app".toList true, .record (answered_by 2), .recv,
      .tick, .record (answered_by 3), .answered false]
    offered es = [answered_by 2, answered_by 3]
      ∧ ∃ s, run Exporter.step {} es = some s ∧ s.queue = [answered_by 3]
        ∧ ∃ accepted, s.Accounts es accepted := by
  intro es
  refine ⟨by decide +kernel, _, rfl, rfl, ?_⟩
  exact (@spans_accounted es _ rfl).1

/-! ## Everything is exported in the end -/

/-- What the task has taken off the queue. -/
def Exporter.taken (s : Exporter) : List SpanData := s.requests.flatten ++ s.batch

/-- The timer goes on, and the collector answers or is given up on, so that the task comes back to
its timer. The choice between a span and a tick is a random one, so that a queue which the task
finds filled again and again is not passed over forever. -/
structure Fair (x : Execution Exporter.step) : Prop where
  ticks : ∀ n, ∃ m, n ≤ m ∧ x.event m = .tick
  chooses : ∀ n, (∀ k, n ≤ k → ∃ m, k ≤ m ∧ (x.state m).idle ≠ none ∧ (x.state m).queue ≠ []) →
    ∃ m, n ≤ m ∧ x.event m = .recv

section Progress

variable {s t : Exporter} {e : Event} {service : Str} {x : Execution Exporter.step}

theorem line_eq_taken : s.line service = s.taken ++ s.queue.map (to_span_data service) := rfl

/-- Only taking a span off the queue changes what is taken. -/
theorem Moves.taken_eq (h : Moves s e t) :
    (e ≠ .recv ∧ t.taken = s.taken) ∨ e = .recv ∧ ∃ span, t.taken = s.taken ++ [span] := by
  cases h with
  | init name built =>
    obtain ⟨-, -, hset⟩ | ⟨-, hsame⟩ := init_cases s name built
    · exact .inl ⟨by simp, by simp [hset, Exporter.taken, Exporter.requests]⟩
    · exact .inl ⟨by simp, by simp [hsame]⟩
  | record span =>
    obtain ⟨-, hsame⟩ | ⟨-, -, hsame⟩ | ⟨-, -, hsame⟩ := record_cases s span <;>
      exact .inl ⟨by simp, by simp [hsame, Exporter.taken, Exporter.requests]⟩
  | collects hidle hname hqueue hroom =>
    exact .inr ⟨rfl, _, (List.append_assoc _ _ _).symm⟩
  | fills hidle hname hqueue hfull =>
    exact .inr ⟨rfl, _, by simp [Exporter.taken, Exporter.requests, hidle]; rfl⟩
  | rests hidle hset hbatch => exact .inl ⟨by simp, rfl⟩
  | flushes hidle hset hbatch =>
    exact .inl ⟨by simp, by simp [Exporter.taken, Exporter.requests, hidle]⟩
  | answers ok hbusy =>
    exact .inl ⟨by simp, by simp [Exporter.taken, Exporter.requests, hbusy]⟩

/-- A tick finds the task idle, and leaves it nothing that was not handed over. -/
theorem Moves.tick (h : Moves s .tick t) : s.idle ≠ none ∧ s.exporting = none ∧ t.batch = [] := by
  cases h with
  | rests hidle hset hbatch => exact ⟨by simpa [Exporter.idle, hidle] using hset, hidle, hbatch⟩
  | flushes hidle hset hbatch => exact ⟨by simpa [Exporter.idle, hidle] using hset, hidle, rfl⟩

/-- Requests are not taken back. -/
theorem Moves.requests_grow (h : Moves s e t) : s.requests <+: t.requests := by
  obtain ⟨hsame, -⟩ | ⟨batch, hrequests, -⟩ := h.requests_eq
  · rw [hsame]
  · rw [hrequests]
    exact List.prefix_append _ _

theorem moves (x : Execution Exporter.step) (n : ℕ) :
    Moves (x.state n) (x.event n) (x.state (n + 1)) := moves_of_step (x.next n)

theorem service_later {n m : ℕ} (hnm : n ≤ m) (hservice : (x.state n).service = some service) :
    (x.state m).service = some service := by
  induction m, hnm using Nat.le_induction with
  | base => exact hservice
  | succ m _ ih =>
    rw [(moves x m).service_eq, ih]
    rfl

/-- The line only grows at its end. -/
theorem line_grows {n m : ℕ} (hnm : n ≤ m) (hservice : (x.state n).service = some service) :
    (x.state n).line service <+: (x.state m).line service := by
  induction m, hnm using Nat.le_induction with
  | base => exact List.prefix_rfl
  | succ m hnm ih =>
    obtain ⟨more, -, -, hline⟩ := (moves x m).line_eq (service_later hnm hservice)
    rw [hline]
    exact ih.trans (List.prefix_append _ _)

theorem requests_grow {n m : ℕ} (hnm : n ≤ m) :
    (x.state n).requests <+: (x.state m).requests := by
  induction m, hnm using Nat.le_induction with
  | base => exact List.prefix_rfl
  | succ m _ ih => exact ih.trans (moves x m).requests_grow

theorem taken_grows {n m : ℕ} (hnm : n ≤ m) : (x.state n).taken <+: (x.state m).taken := by
  induction m, hnm using Nat.le_induction with
  | base => exact List.prefix_rfl
  | succ m _ ih =>
    obtain ⟨-, hsame⟩ | ⟨-, span, hmore⟩ := (moves x m).taken_eq
    · rw [hsame]
      exact ih
    · rw [hmore]
      exact ih.trans (List.prefix_append _ _)

/-- Unless a span is taken, what is taken stays the same. -/
theorem taken_eq_of_no_recv {n m : ℕ} (hnm : n ≤ m)
    (hnone : ∀ k, n ≤ k → x.event k ≠ .recv) : (x.state m).taken = (x.state n).taken := by
  induction m, hnm using Nat.le_induction with
  | base => rfl
  | succ m hnm ih =>
    obtain ⟨-, hsame⟩ | ⟨hrecv, -⟩ := (moves x m).taken_eq
    · exact hsame.trans ih
    · exact absurd hrecv (hnone m hnm)

/-- While a span of the line is not taken, a span will be. -/
theorem recv_comes (hfair : Fair x) {n k : ℕ} (hnk : n ≤ k)
    (hservice : (x.state n).service = some service)
    (hwaiting : (x.state k).taken.length < ((x.state n).line service).length) :
    ∃ m, k ≤ m ∧ x.event m = .recv := by
  by_contra hnever
  have hnone : ∀ m, k ≤ m → x.event m ≠ .recv := fun m hm heq => hnever ⟨m, hm, heq⟩
  have hfilled : ∀ m, k ≤ m → (x.state m).queue ≠ [] := by
    intro m hm hempty
    have hlen := (line_grows (hnk.trans hm) hservice).length_le
    rw [line_eq_taken (s := x.state m), hempty, taken_eq_of_no_recv hm hnone] at hlen
    simp only [List.map_nil, List.append_nil] at hlen
    omega
  obtain ⟨m, hm, hrecv⟩ := hfair.chooses k fun j hj => by
    obtain ⟨m, hm, htick⟩ := hfair.ticks j
    exact ⟨m, hm, (htick ▸ moves x m).tick.1, hfilled m (hj.trans hm)⟩
  exact hnone m hm hrecv

/-- So in the end all of the line is taken. -/
theorem taken_in_the_end (hfair : Fair x) {n : ℕ}
    (hservice : (x.state n).service = some service) :
    ∃ m, n ≤ m ∧ ((x.state n).line service).length ≤ (x.state m).taken.length := by
  have hstep : ∀ k, ¬ ((x.state n).line service).length ≤ ((x.from n).state k).taken.length →
      ¬ ((x.state n).line service).length ≤ ((x.from n).state (k + 1)).taken.length →
      ((x.state n).line service).length - ((x.from n).state (k + 1)).taken.length
          ≤ ((x.state n).line service).length - ((x.from n).state k).taken.length
        ∧ ((x.from n).event k = .recv →
          ((x.state n).line service).length - ((x.from n).state (k + 1)).taken.length
            < ((x.state n).line service).length - ((x.from n).state k).taken.length) := by
    intro k hk _
    obtain ⟨hother, hsame⟩ | ⟨-, span, hmore⟩ := (moves (x.from n) k).taken_eq
    · rw [hsame]
      exact ⟨Nat.le_refl _, fun hmine => absurd hmine hother⟩
    · rw [hmore, List.length_append, List.length_singleton]
      exact ⟨by omega, fun _ => by omega⟩
  have hcomes : ∀ k, ¬ ((x.state n).line service).length ≤ ((x.from n).state k).taken.length →
      ∃ m, k ≤ m ∧ (x.from n).event m = .recv := by
    intro k hk
    obtain ⟨m, hm, hrecv⟩ := recv_comes hfair (Nat.le_add_right n k) hservice (Nat.lt_of_not_le hk)
    refine ⟨m - n, by omega, ?_⟩
    rw [Execution.from]
    simpa [Nat.add_sub_cancel' (show n ≤ m by omega)] using hrecv
  -- The rank is what is left to be taken.
  obtain ⟨m, -, hm⟩ := @Execution.eventually _ _ _ (x.from n)
    (fun s => ((x.state n).line service).length ≤ s.taken.length) (· = .recv)
    (fun s => ((x.state n).line service).length - s.taken.length) hstep hcomes 0
  exact ⟨n + m, Nat.le_add_right _ _, hm⟩

end Progress

/-- **Every span that was let in is exported in the end**, in the order of the queue, whatever is
recorded meanwhile: at some time the exports that were answered contain all of the line. -/
theorem spans_exported {x : Execution Exporter.step} (hfair : Fair x) {n : ℕ} {service : Str}
    (hservice : (x.state n).service = some service) :
    ∃ m, n ≤ m ∧ (x.state n).line service <+: ((x.state m).exported.map Prod.fst).flatten := by
  -- What is taken is handed over at the next tick, and answered when another one comes.
  obtain ⟨k, hnk, htaken⟩ := taken_in_the_end hfair hservice
  obtain ⟨j, hkj, htick⟩ := hfair.ticks k
  obtain ⟨m, hjm, hlast⟩ := hfair.ticks (j + 1)
  have hempty := (htick ▸ moves x j).tick.2.2
  have hidle := (hlast ▸ moves x m).tick.2.1
  have hline := line_grows (show n ≤ m by omega) hservice
  refine ⟨m, by omega, ?_⟩
  have hexported : (x.state m).requests = (x.state m).exported.map Prod.fst := by
    rw [Exporter.requests, hidle, Option.toList_none, List.append_nil]
  have hinside : (x.state m).requests.flatten <+: (x.state m).line service := by
    rw [Exporter.line, List.append_assoc]
    exact List.prefix_append _ _
  rw [← hexported]
  refine List.prefix_of_prefix_length_le hline hinside ?_
  have htaken' : (x.state k).taken.length ≤ (x.state (j + 1)).taken.length :=
    (taken_grows (show k ≤ j + 1 by omega)).length_le
  have hhanded : (x.state (j + 1)).taken = (x.state (j + 1)).requests.flatten := by
    rw [Exporter.taken, hempty, List.append_nil]
  have hkept : (x.state (j + 1)).requests.flatten.length ≤ (x.state m).requests.flatten.length :=
    (requests_grow hjm).flatten.length_le
  rw [hhanded] at htaken'
  omega

/-- A span waits, is taken, handed over and answered for; then there is nothing to do. -/
def one_span : Execution Exporter.step where
  state
    | 0 => { service := some [], queue := [answered_by 1] }
    | 1 => { service := some [], batch := [to_span_data [] (answered_by 1)] }
    | 2 => { service := some [], exporting := some [to_span_data [] (answered_by 1)] }
    | _ + 3 => { service := some [], exported := [([to_span_data [] (answered_by 1)], true)] }
  event
    | 0 => .recv
    | 1 => .tick
    | 2 => .answered true
    | _ + 3 => .tick
  next
    | 0 => rfl
    | 1 => rfl
    | 2 => rfl
    | _ + 3 => rfl

theorem fair_one_span : Fair one_span where
  ticks n := ⟨n + 3, by omega, rfl⟩
  chooses n hfilled := by
    obtain ⟨m, hm, -, hqueue⟩ := hfilled (n + 3) (by omega)
    obtain ⟨k, rfl⟩ : ∃ k, m = k + 3 := ⟨m - 3, by omega⟩
    exact absurd rfl hqueue

theorem spans_exported_one :
    ∃ m, [to_span_data [] (answered_by 1)] <+: ((one_span.state m).exported.map Prod.fst).flatten :=
  have ⟨m, _, hm⟩ := spans_exported fair_one_span (n := 0) rfl
  ⟨m, hm⟩

end Lagos.Otel
