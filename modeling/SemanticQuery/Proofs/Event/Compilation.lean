/-
This file says which events a compilation logs. Dropped aggregations come first and skipped joins
second, and the last event tells the outcome.
-/

import SemanticQuery.Proofs.Interpretation.Degraded
import SemanticQuery.Proofs.Interpretation.Normal
import SemanticQuery.Proofs.Plan.Reachability
import SemanticQuery.Proofs.Report.Skips

namespace SemanticQuery

namespace Event

/-- An event is logged at its level. -/
def entry (event : Event) : LogLevel × Event := (event.level, event)

/-- An event about a skipped join has its position and the reason. -/
def skipped? : Event → Option Plan.Skipped
  | .skippedJoin skipped => some skipped
  | _ => none

end Event

/-- The skipped joins of a query are logged, and then what became of its statement. -/
theorem Query.events_compile (dialect : Dialect) {query : Query} (tables : query.tables ≠ []) :
    (query.compile dialect).events = (Plan.ofQuery query).skipped.map .skippedJoin ++
      [match query.statement with
        | .ok _ => .compiled dialect query.fingerprint
        | .error error => .degraded dialect (.unquotable error)] := by
  unfold compile
  rw [if_neg (by simpa using tables), Logged.events_bind, Logged.events_emit]
  cases query.statement with
  | ok tokens => rfl
  | error error => rfl

namespace Document

/-- Every unknown aggregation is logged once, and nothing else is logged with it. -/
theorem events_interpretAggregations (given : List Aggregation) :
    (interpretAggregations .lenient given).events =
      (given.filter (!·.isKnown)).map Aggregation.dropped := by
  induction given with
  | nil => rfl
  | cons first rest inductionHypothesis =>
      have known := first.isSome_read?_lenient
      cases read : first.read? .lenient with
      | some readable =>
          rw [read, Option.isSome_some] at known
          rw [List.filter_cons_of_neg (by simp [← known])]
          simp only [interpretAggregations, read, Logged.events_bind, Logged.events_pure,
            inductionHypothesis, List.append_nil]
      | none =>
          rw [read, Option.isSome_none] at known
          rw [List.filter_cons_of_pos (by simp [← known]), List.map_cons]
          simp only [interpretAggregations, read, Logged.events_bind, Logged.events_emit,
            inductionHypothesis, List.singleton_append]

/-- A lenient interpretation logs the same events whether it succeeds or not. -/
theorem events_interpret (document : Document) :
    (document.interpret .lenient).events =
      (document.aggregations.filter (!·.isKnown)).map Aggregation.dropped := by
  rw [interpret, Logged.events_bind, Logged.events_pure, List.append_nil,
    events_interpretAggregations]

/-- The log of a document with tables has one event for every dropped aggregation, one for every
skipped join, and a last one that tells the outcome. -/
structure Logs (dialect : Dialect) (document : Document) (skipped : List Plan.Skipped)
    (last : Event) : Prop where
  entries : (document.compile dialect).events.map Event.entry =
    (document.aggregations.filter (!·.isKnown)).map (fun given => (.debug, given.dropped)) ++
      skipped.map (fun join => (.warn, .skippedJoin join)) ++
      [(if (document.compile dialect).value.isDegraded then .warn else .debug, last)]
  unplanned : ∀ defect, (document.interpret .lenient).value = .error defect → skipped = []
  planned : ∀ query, (document.interpret .lenient).value = .ok query →
    skipped = (Plan.ofQuery query).skipped
  increasing : (skipped.map Plan.Skipped.index).Pairwise (· < ·)
  compiled : (∃ sql, (document.compile dialect).value = .compiled sql) ↔
    ∃ query, (document.interpret .lenient).value = .ok query ∧
      last = .compiled dialect query.fingerprint
  degraded : ∀ reason, (document.compile dialect).value = .degraded reason ↔
    last = .degraded dialect reason

/-- The events of a document without interpretation end with the defect. -/
theorem events_compile_of_error (dialect : Dialect) {document : Document} {defect : Defect}
    (tables : document.tables ≠ [])
    (failed : (document.interpret .lenient).value = .error defect) :
    (document.compile dialect).events =
      (document.aggregations.filter (!·.isKnown)).map Aggregation.dropped ++
        [.degraded dialect (.uninterpretable defect)] := by
  unfold compile
  rw [if_neg (by simpa using tables), Logged.events_bind, failed, events_interpret]
  rfl

/-- The events of a document with an interpretation go on with those of its query. -/
theorem events_compile_of_ok (dialect : Dialect) {document : Document} {query : Query}
    (tables : document.tables ≠ []) (read : (document.interpret .lenient).value = .ok query) :
    (document.compile dialect).events =
      (document.aggregations.filter (!·.isKnown)).map Aggregation.dropped ++
        (Plan.ofQuery query).skipped.map .skippedJoin ++
        [.compiled dialect query.fingerprint] := by
  obtain ⟨tokens, rendered, _⟩ := compile_of_ok dialect tables read
  have named : query.tables ≠ [] := (interpret_eq_ok_iff.1 read).tables ▸ tables
  unfold compile
  rw [if_neg (by simpa using tables), Logged.events_bind, read, events_interpret,
    List.append_assoc]
  change _ ++ (query.compile dialect).events = _
  rw [query.events_compile dialect named, rendered]

/-- Dropped aggregations are details, and skipped joins are warnings. -/
theorem map_entry_append (dropped : List Aggregation) (skipped : List Plan.Skipped)
    (last : Event) :
    (dropped.map Aggregation.dropped ++ skipped.map Event.skippedJoin ++ [last]).map Event.entry =
      dropped.map (fun given => (.debug, given.dropped)) ++
        skipped.map (fun join => (.warn, .skippedJoin join)) ++ [(last.level, last)] := by
  rw [List.map_append, List.map_append, List.map_map, List.map_map]
  rfl

/-- A document with tables has such a log. -/
theorem exists_logs (dialect : Dialect) {document : Document} (tables : document.tables ≠ []) :
    ∃ skipped last, document.Logs dialect skipped last := by
  cases read : (document.interpret .lenient).value with
  | error defect =>
      have value := compile_of_error dialect tables read
      refine ⟨[], .degraded dialect (.uninterpretable defect), ?_⟩
      constructor
      case entries =>
        have events := events_compile_of_error dialect tables read
        rw [← List.append_nil (List.map Aggregation.dropped _)] at events
        rw [events, value]
        exact map_entry_append _ [] _
      case unplanned => exact fun _ _ => rfl
      case planned => simp [read]
      case increasing => exact .nil
      case compiled => simp [read, value]
      case degraded => simp [value]
  | ok query =>
      obtain ⟨tokens, rendered, value⟩ := compile_of_ok dialect tables read
      refine ⟨(Plan.ofQuery query).skipped, .compiled dialect query.fingerprint, ?_⟩
      constructor
      case entries =>
        rw [events_compile_of_ok dialect tables read, value]
        exact map_entry_append _ _ _
      case unplanned => simp [read]
      case planned => simp [read]
      case increasing => exact Plan.pairwise_skipped_ofQuery query
      case compiled => simp [read, value]
      case degraded => simp [value]

/-- The events about skipped joins are the warnings about them in every report of the document. -/
theorem filterMap_skipped?_events (dialect : Dialect) {document : Document} {other : Dialect}
    {report : Report} (accepted : Report.ofDocument other document = .ok report) :
    (document.compile dialect).events.filterMap Event.skipped? =
      report.warnings.filterMap Report.Warning.skipped? := by
  obtain ⟨tables, strict, warnings⟩ := Report.ofDocument_eq_ok_iff.1 accepted
  have lenient : (document.interpret .lenient).value = .ok report.query :=
    congrArg Logged.value (interpret_lenient_eq_pure strict)
  have dropped : ((document.aggregations.filter (!·.isKnown)).map
      Aggregation.dropped).filterMap Event.skipped? = [] := by
    rw [List.filterMap_map, List.filterMap_eq_nil_iff]
    exact fun _ _ => rfl
  have joins : ((Plan.ofQuery report.query).skipped.map Event.skippedJoin).filterMap
      Event.skipped? = (Plan.ofQuery report.query).skipped := by
    rw [List.filterMap_map]
    exact List.filterMap_some
  rw [events_compile_of_ok dialect tables lenient, List.filterMap_append, List.filterMap_append,
    dropped, joins, warnings, Report.filterMap_skipped?]
  exact List.append_nil _

/-- A document without tables logs that it is degraded and nothing else. The log of any other
document tells what was dropped, what was skipped, and the outcome. What a report says about skipped
joins is also what the log says. -/
theorem logs_compile (dialect : Dialect) (document : Document) :
    (document.tables = [] → (document.compile dialect).events.map Event.entry =
      [(.warn, .degraded dialect .noTables)]) ∧
    (document.tables ≠ [] → ∃ skipped last, document.Logs dialect skipped last) ∧
    ∀ other report, Report.ofDocument other document = .ok report →
      (document.compile dialect).events.filterMap Event.skipped? =
        report.warnings.filterMap Report.Warning.skipped? := by
  refine ⟨fun noTables => ?_, exists_logs dialect,
    fun other report => filterMap_skipped?_events dialect⟩
  unfold compile
  rw [if_pos (List.isEmpty_iff.2 noTables)]
  rfl

/-- What is dropped is logged even if the interpretation fails at a later part. -/
example :
    let document : Document := { empty with
      tables := ["t"], aggregations := [⟨none, none, none⟩], limit := some (.boolean true) }
    (document.compile .duckdb).events.map Event.line =
      ["DEBUG dropping unreadable aggregation column= function=None",
        "WARN degraded compile dialect=duckdb reason=Error generating SQL: Invalid limit: true"] := by
  decide +kernel

end Document

end SemanticQuery
