import Letterhead.Batch
import Letterhead.Contract
import Letterhead.Report
import Letterhead.Stamp

/-!
# Requests

A request names the paths of a batch and says where the notice comes from. The notice is loaded
before any file is touched. The report of the batch is held against the contract before it is given
out.

## Main definitions

* `loadNotice` — the notice in a file
* `reportBatch` — a batch together with its report
* `Request`, `Request.run` — a whole request
-/

namespace Letterhead

/-- The characters of the file of a notice. -/
def readNotice (path : Path) (charsetName : String) : SessionM (List Char) := do
  refuseNul charsetName
  let bytes ← readFile path
  let charset ← charsetNamed charsetName
  match charset.decodeStrict bytes with
  | .ok characters => pure characters
  | .error error => throw (.undecodable error)

/-- A fault met while the notice was read, as a fault of the notice if the file is to blame. -/
def blameNotice {α : Type} (path : Path) (fault : Fault) : SessionM α :=
  match fault with
  | .file _ | .undecodable _ => throw (.unreadableNotice path fault)
  | _ => throw fault

/-- The notice in a file. A notice that later runs would not find again is remarked on. -/
def loadNotice (path : Path) (charsetName : String) : SessionM Notice := do
  let characters ← tryCatch (readNotice path charsetName) (blameNotice path)
  match Notice.ofString? (String.ofList characters) with
  | none => throw (.blankNoticeFile path)
  | some notice =>
    if !notice.isBlockComment then
      let flaw := "copyright text is not a /* ... */ block"
      let effect := "updated files will not be recognised on a later run"
      note .warning (Text.ofString s!"{path}: {flaw}; {effect}")
    note .debug (Text.ofString s!"Loaded {notice.lines.length} copyright line(s) from {path}")
    pure notice

/-- What is filed about a run with the given stamp and settings. -/
def RunInfo.of (stamp : Stamp) (config : Config) : RunInfo :=
  { runId := Json.ofString stamp.runId
    createdAt := Json.ofString stamp.createdAt
    checkOnly := .bool config.checkOnly
    config := config.toJson }

/-- Run a batch and make its report. -/
def reportBatch (u : Updater) (paths : List Path) (stamp : Stamp) : SessionM Report := do
  let outcomes ← runBatch u paths
  pure ⟨RunInfo.of stamp u.config, outcomes⟩

/-- A request for a batch. -/
structure Request where
  paths : List Path
  /-- The settings; without any, those of a plain run. -/
  config : Option Config := none
  /-- The file of the notice, in the place of the one in the settings. -/
  noticeFile : Option Path := none
  /-- The notice itself, so that no file has to be read. -/
  notice : Option Notice := none
  /-- Whether the report is to depend on the inputs alone. -/
  reproducible : Bool := false

namespace Request

/-- The settings of a plain run. -/
def plainConfig (environment : Option String) : Config :=
  { noticeFile := defaultNoticeFile environment }

/-- The settings that a request comes down to. -/
def settings (request : Request) (environment : Option String) : Config :=
  let config := request.config.getD (plainConfig environment)
  match request.noticeFile with
  | some path => { config with noticeFile := path }
  | none => config

/-- The same request, to report only. -/
def checking (request : Request) (environment : Option String) : Request :=
  let config := request.config.getD (plainConfig environment)
  { request with config := some { config with checkOnly := true } }

/-- The stamp of a request: `fresh`, unless the report is to depend on the inputs alone. -/
def stamp (request : Request) (notice : Notice) (fresh : Stamp) : Stamp :=
  if request.reproducible then Stamp.reproducible request.paths notice else fresh

/-- Carry out a request, and hold the report against the contract. -/
def run (request : Request) (environment : Option String) (fresh : Stamp) :
    SessionM (Except Violation Report) := do
  let config := request.settings environment
  -- A notice that cannot be used stops the request before any file is touched.
  let notice ←
    match request.notice with
    | some notice => pure notice
    | none => loadNotice config.noticeFile config.charsetName
  let report ← reportBatch ⟨notice, config⟩ request.paths (request.stamp notice fresh)
  match Contract.check report.toJson with
  | .ok () => pure (.ok report)
  | .error violation => pure (.error violation)

end Request

end Letterhead
