import Letterhead.Discovery
import Letterhead.Update

/-!
# Batches

A batch goes through the targets of some paths one at a time. A file that cannot be read is skipped;
a fault that concerns one file is noted, and the batch goes on. Every target has one outcome.

## Main definitions

* `processTarget` — the outcome for one target
* `runBatch` — the outcomes for all targets of some paths
-/

namespace Letterhead

/-- The level at which a remark is put into the journal. -/
def Severity.level : Severity → Level
  | info => .info
  | warning => .warning

/-- Put the remarks on a file into the journal. -/
def noteDiagnostics : List Diagnostic → SessionM Unit
  | [] => pure ()
  | d :: rest => do
    note d.severity.level d.toText
    noteDiagnostics rest

/-- Put the outcome for a file into the journal: its remarks, and whether it was updated. -/
def noteOutcome (config : Config) (name : String) (outcome : Outcome) : SessionM Unit := do
  noteDiagnostics outcome.diagnostics
  if outcome.status = .updated then
    let what := if config.checkOnly then "would be updated" else "updated"
    note .info (Text.ofString s!"{name}: header {what}")

/-- The outcome for a file that could not be updated, if the fault is the affair of that file. -/
def failedOutcome (name : String) (fault : Fault) : SessionM Outcome :=
  if fault.concernsOneFile then do
    note .error (Text.ofString s!"{name}: update failed: {fault.message}")
    pure { path := name, status := .failed, error := fault.message }
  else throw fault

/-- Update or check one file. -/
def processFile (u : Updater) (path : Path) : SessionM Outcome :=
  if u.config.checkOnly then u.check path else u.update path

/-- The outcome for one target. -/
def processTarget (u : Updater) (target : Target) : SessionM Outcome := do
  let name := target.path.toString
  if target.readable then
    let attempt := do
      let outcome ← processFile u target.path
      noteOutcome u.config name outcome
      pure outcome
    tryCatch attempt (failedOutcome name)
  else
    note .warning (Text.ofString s!"{name}: cannot read file, skipped")
    pure { path := name, status := .skipped, error := "unreadable" }

/-- The outcomes for all targets of some paths, in order. -/
def runBatch (u : Updater) (paths : List Path) : SessionM (List Outcome) :=
  discover u.config (processTarget u) paths

end Letterhead
