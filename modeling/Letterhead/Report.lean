import Letterhead.Json.Basic
import Letterhead.Batch

/-!
# Reports

The report of a batch: how it was run, how often each result and each severity came up, and the
outcomes in order. Its form is fixed by a contract (see `Letterhead.Contract`).

## Main definitions

* `RunInfo`, `Report` — what a report holds
* `Report.withStatus` — the outcomes with one result
* `Report.toJson` — the report as it is written
-/

namespace Letterhead

/-- What is filed about a run besides its outcomes. A caller may file any values; which of them are
acceptable is up to the contract. -/
structure RunInfo where
  runId : Json
  createdAt : Json
  toolVersion : Json := Json.ofString version
  checkOnly : Json := .bool false
  config : Json := .object []

/-- The report of a batch. -/
structure Report where
  info : RunInfo
  outcomes : List Outcome

/-- A remark as it is written in a report. -/
def Diagnostic.toJson (d : Diagnostic) : Json :=
  Json.ofFields
    [("severity", Json.ofString d.severity.label), ("message", .string d.message),
      ("source", Json.ofString d.source), ("line_number", .integer d.line)]

/-- An outcome as it is written in a report; without an error there is no word of one. -/
def Outcome.toJson (o : Outcome) : Json :=
  let error := if o.error = "" then [] else [("error", Json.ofString o.error)]
  Json.ofFields
    ([("path", Json.ofString o.path), ("status", Json.ofString o.status.label),
      ("diagnostics", .array (o.diagnostics.map Diagnostic.toJson))] ++ error)

/-- A sorted list without its repetitions. -/
def sortedNames (names : List String) : List String :=
  (names.eraseDups).mergeSort fun a b => (compare a b).isLE

/-- A suffix as it is written; where there is none, an empty list is. -/
def suffixJson : Option String → Json
  | some suffix => Json.ofString suffix
  | none => .array []

/-- The settings as they are written in a report. -/
def Config.toJson (c : Config) : Json :=
  Json.ofFields
    [("copyright_file", Json.ofString c.noticeFile.toString),
      ("backup_suffix", suffixJson c.backupSuffix), ("encoding", Json.ofString c.charsetName),
      ("vcs_dirs", .array ((sortedNames c.ignoredNames).map Json.ofString)),
      ("include_exts", .array (c.suffixes.map Json.ofString))]

namespace Report

/-- The outcomes with a given result, in order. -/
def withStatus (r : Report) (status : FileStatus) : List Outcome :=
  r.outcomes.filter (·.status = status)

/-- The number of outcomes with a given result. -/
def statusCount (r : Report) (status : FileStatus) : Nat := (r.withStatus status).length

/-- The number of remarks of a given severity in all outcomes. -/
def severityCount (r : Report) (severity : Severity) : Nat :=
  (r.outcomes.flatMap (·.diagnostics)).countP (·.severity = severity)

/-- The counts of a report. -/
def summary (r : Report) : Json :=
  Json.ofFields
    [("files_total", .integer r.outcomes.length),
      ("by_status",
        Json.ofFields (FileStatus.all.map fun s => (s.label, .integer (r.statusCount s)))),
      ("by_severity",
        Json.ofFields (Severity.all.map fun s => (s.label, .integer (r.severityCount s))))]

/-- The report as it is written. -/
def toJson (r : Report) : Json :=
  Json.ofFields
    [("schema_version", Json.ofString "update_result_v1"),
      ("run",
        Json.ofFields
          [("run_id", r.info.runId), ("created_at", r.info.createdAt),
            ("tool_version", r.info.toolVersion), ("check_only", r.info.checkOnly),
            ("config", r.info.config)]),
      ("summary", r.summary), ("files", .array (r.outcomes.map Outcome.toJson))]

end Report

end Letterhead
