import Letterhead.Config
import Letterhead.Json.Reader
import Letterhead.Schema
import Letterhead.Session
import Letterhead.Text.Lines

/-!
# The contract of a report

The form that every report has, and the check of a value, or of a file, against it. No member is
allowed that the contract does not name, the settings apart.

## Main definitions

* `Contract.report` — the schema of a report
* `Contract.document` — the schema as a JSON document
* `Contract.check` — the verdict on a value
* `checkContent` — the verdict on the value of a document
* `checkDocument` — the verdict on a file that should hold a report
-/

namespace Letterhead

namespace Contract

/-- An object with exactly the members named, the optional ones perhaps left out, each of which
obeys a schema. -/
def record (fields : List (String × Schema)) (optional : List String) : Schema :=
  let names := fields.map (·.1)
  .all [.kind .object, .closed names, .required (names.filter fun name => !optional.contains name),
    .properties fields]

/-- A count. -/
def count : Schema := .all [.kind .integer, .nonNegative]

/-- A string that says something. -/
def filled : Schema := .all [.kind .string, .nonEmpty]

/-- A remark on a line. -/
def diagnostic : Schema :=
  record
    [("severity", .oneOf ["info", "warning"]), ("message", .kind .string),
      ("source", .kind .string), ("line_number", count)] []

/-- An outcome; there is a word of an error only where there was one. -/
def file : Schema :=
  record
    [("path", .kind .string),
      ("status", .oneOf ["updated", "unchanged", "skipped", "failed"]), ("error", .kind .string),
      ("diagnostics", .all [.kind .array, .items (.named "diagnostic" diagnostic)])] ["error"]

/-- How the batch was run. -/
def run : Schema :=
  record
    [("run_id", filled), ("created_at", filled), ("tool_version", .kind .string),
      ("check_only", .kind .boolean), ("config", .kind .object)] []

/-- The counts. -/
def summary : Schema :=
  record
    [("files_total", count),
      ("by_status",
        record
          [("updated", count), ("unchanged", count), ("skipped", count), ("failed", count)] []),
      ("by_severity", record [("info", count), ("warning", count)] [])] []

/-- A report. -/
def report : Schema :=
  record
    [("schema_version", .constant "update_result_v1"), ("run", run), ("summary", summary),
      ("files", .all [.kind .array, .items (.named "file" file)])] []

/-- The schema of a report as a document. -/
def document : Json :=
  .object
    ([(Text.ofString "$schema", Json.ofString "https://json-schema.org/draft/2020-12/schema"),
      (Text.ofString "title", Json.ofString "copyright-header update result")] ++
      report.keywords ++
      [(Text.ofString "$defs",
        .object
          [(Text.ofString "file", .object file.keywords),
            (Text.ofString "diagnostic", .object diagnostic.keywords)])])

/-- The name of the document. -/
def documentName : String := "update_result.schema.json"

/-- The folder of the tool, which bears its name with low lines for hyphens. -/
def toolFolder : Location := ["src", toolName.map fun c => if c = '-' then '_' else c]

/-- Where the document is kept, with the other folders of the tool. -/
def shelf : FileSystem :=
  let place := toolFolder ++ ["data", "schemas"]
  ["contracts", "core", "model", "utils"].foldl
    (fun fs name => fs.put (toolFolder ++ [name]) (.directory FileSystem.newDirectoryMode))
    ((FileSystem.empty place).put (place ++ [documentName]) (.file FileSystem.newFileMode []))

/-- The schema that a name stands for. A name is a path to a document from where it is kept. -/
def named? (name : String) : Option Schema :=
  match (Path.parse name).anchor, shelf.isFile (Path.parse name) with
  | .relative, .ok true => some report
  | _, _ => none

/-- The verdict on a value. -/
def check (value : Json) : Except Violation Unit :=
  match report.worst? value with
  | some violation => .error violation
  | none => .ok ()

end Contract

/-- Why a value or a file is not accepted. -/
inductive ContractFault
  /-- The file cannot be read or decoded. -/
  | fault (cause : Fault)
  /-- The file holds no JSON document. -/
  | malformed (error : Json.ReadError)
  /-- There is no contract of this name. -/
  | unknownSchema (name : String)
  /-- The value breaks the contract. -/
  | violation (v : Violation)
  /-- The value breaks the contract in a part that is nested too deep to be shown. -/
  | tooDeepToShow
  deriving DecidableEq, Repr

namespace ContractFault

/-- Why a value is not accepted, in words. -/
def message : ContractFault → String
  | fault cause => cause.message
  | malformed error => error.message
  | unknownSchema name => s!"schema not found: {name}"
  | violation v => v.breach.message
  | tooDeepToShow => "maximum recursion depth exceeded while getting the repr of an object"

end ContractFault

/-- The verdict on a value by the schema of a name. -/
def checkValue (schemaName : String) (value : Json) : Except ContractFault Unit :=
  match Contract.named? schemaName with
  | none => .error (.unknownSchema schemaName)
  | some schema =>
    match schema.worst? value with
    | some violation => .error (.violation violation)
    | none => .ok ()

/-- The value in a file that holds a JSON document in UTF-8. -/
def readDocument (bytes : List UInt8) : Except ContractFault Json :=
  match Charset.utf8.decodeStrict bytes with
  | .error error => .error (.fault (.undecodable error))
  | .ok characters =>
    match Json.read (Text.unifyLineEnds (characters.map .scalar)) with
    | .error error => .error (.malformed error)
    | .ok value => .ok value

/-- The greatest depth at which a part of a document is shown. -/
def showLimit : Nat := 985

/-- How much deeper a part is for each step of the way to it. -/
def PathStep.weight : PathStep → Nat
  | key _ => 2
  | index _ => 4

/-- Whether a violation shows a part of a value that is nested too deep. -/
def Violation.isTooDeep (v : Violation) : Bool :=
  showLimit < v.path.foldl (fun depth step => depth + step.weight) v.breach.depth

/-- The verdict on the value of a document by the schema of a name. Every violation has to be shown,
not only the one to report. -/
def checkContent (schemaName : String) (value : Json) : Except ContractFault Unit :=
  let violations := ((Contract.named? schemaName).map (·.violations value)).getD []
  if violations.any Violation.isTooDeep then .error .tooDeepToShow else checkValue schemaName value

/-- The verdict on a file by the schema of a name. -/
def checkDocument (schemaName : String) (path : Path) : SessionM (Except ContractFault Unit) := do
  let bytes ← readFile path
  pure (readDocument bytes >>= checkContent schemaName)

end Letterhead
