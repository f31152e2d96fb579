import Letterhead.Json.Writer
import Letterhead.Request
import Letterhead.Usage
import Letterhead.Text.Lowercase

/-!
# The command

A command line is carried out on a file system. The command puts out either a report as JSON or the
paths that are updated; remarks, complaints and a summary go to its messages. Its exit status tells
whether there was a failure, and in a check also whether there is anything to update.

## Main definitions

* `ExitCode` — what the exit status of a finished command tells
* `Ending`, `Transcript` — how a command ends, and all that can be seen of it
* `Command.run` — a command line carried out
-/

namespace Letterhead

/-- What the exit status of a finished command tells. -/
inductive ExitCode
  | success
  /-- A check found something to update. -/
  | violation
  | error
  deriving DecidableEq, Repr

namespace ExitCode

/-- All exit codes, by status. -/
def all : List ExitCode := [success, violation, error]

/-- The exit status. -/
def status : ExitCode → Nat
  | success => 0
  | violation => 1
  | error => 2

/-- The word for an exit code. -/
def label : ExitCode → String
  | success => "success"
  | violation => "violation"
  | error => "error"

end ExitCode

/-- How a command ends. -/
inductive Ending
  | finished (code : ExitCode)
  /-- Nothing was to be done. -/
  | halted (halt : Halt)
  /-- A fault that does not concern a single file, or the notice. -/
  | crashed (fault : Fault)
  /-- The report breaks the contract. -/
  | rejected (violation : Violation)
  /-- The report holds a stray byte, which cannot be put out. -/
  | unprintable (error : EncodeError)
  deriving DecidableEq, Repr

namespace Ending

/-- The exit status of a command. -/
def exitStatus : Ending → Nat
  | finished code => code.status
  | halted halt => halt.exitStatus
  | crashed _ | rejected _ | unprintable _ => 1

/-- What a command that was stopped complains of last. -/
def complaint : Ending → String
  | finished _ | halted _ => ""
  | crashed fault => printedLines [fault.message]
  | rejected violation => printedLines [violation.breach.message]
  | unprintable error => printedLines [error.message]

end Ending

/-- All that can be seen of a command. -/
structure Transcript where
  ending : Ending
  output : String := ""
  messages : String := ""
  deriving DecidableEq, Repr

/-- A text as it is shown among the messages: what is no character is shown by number. -/
def shownText (t : Text) : String :=
  String.ofList <| t.flatMap fun
    | .scalar c => [c]
    | p => Quoted.escapeNumber p.value

/-- A line of the journal as it is shown. -/
def JournalLine.shown (line : JournalLine) : String :=
  line.level.label ++ ": " ++ shownText line.message ++ "\n"

/-- The lines of a journal that matter at least as much as a level, as they are shown. -/
def shownJournal (threshold : Level) (journal : List JournalLine) : String :=
  String.join ((journal.filter fun line => threshold.rank ≤ line.level.rank).map JournalLine.shown)

/-- A suffix as it is meant: in lower case, without blanks around it, and with a dot in front. -/
def normalizedSuffix (word : String) : String :=
  let lowered := lowercase (String.ofList (trimEnd blank (word.toList.dropWhile blank)))
  if lowered.toList.head? = some '.' then lowered else "." ++ lowered

namespace Options

/-- The least level of the journal that is shown. -/
def threshold (o : Options) : Level :=
  if o.verbose then .debug else if o.quiet then .warning else .info

/-- The file of the notice. -/
def noticePath (o : Options) (environment : Option String) : Path :=
  (o.noticeFile.map Path.parse).getD (defaultNoticeFile environment)

/-- A suffix as it is meant, if it is one. -/
def suffixWord : Option String → Except Fault String
  | some word => .ok (normalizedSuffix word)
  | none => .error .noSuffix

/-- The settings that a command line comes down to. -/
def config (o : Options) (environment : Option String) : Except Fault Config := do
  let plain : Config :=
    { noticeFile := o.noticePath environment
      backupSuffix := o.backupSuffix
      checkOnly := o.check }
  let suffixes ← o.suffixes.mapM suffixWord
  pure (if suffixes.isEmpty then plain else { plain with suffixes })

/-- The request that a command line comes down to. -/
def request (o : Options) (environment : Option String) : Except Fault Request := do
  let config ← o.config environment
  pure
    { paths := o.paths.map Path.parse
      config := some config
      reproducible := o.reproducible }

end Options

namespace Report

/-- What a report tells by an exit code. -/
def exitCode (r : Report) (checkOnly : Bool) : ExitCode :=
  if !(r.withStatus .failed).isEmpty then .error
  else if checkOnly && !(r.withStatus .updated).isEmpty then .violation
  else .success

/-- The updated paths, one a line. -/
def updatedLines (r : Report) : String := printedLines ((r.withStatus .updated).map (·.path))

/-- The counts in a line, after an empty one. -/
def summaryLines (r : Report) (checkOnly : Bool) : String :=
  let verb := if checkOnly then "would update" else "updated"
  let count := r.statusCount
  let counts :=
    s!"unchanged: {count .unchanged}  skipped: {count .skipped}  failed: {count .failed}"
  printedLines ["", s!"   {verb}: {count .updated}  {counts}"]

/-- The transcript of a command that came to a report, when `messages` have been shown before. -/
def transcript (r : Report) (o : Options) (messages : String) : Transcript :=
  if o.json then
    let document := r.toJson.writeDocument (some 2)
    -- Either the whole document is put out or nothing of it.
    match Charset.utf8.encodeStrict document, document.toString? with
    | .error error, _ => { ending := .unprintable error, messages }
    | .ok _, output =>
      { ending := .finished (r.exitCode o.check), output := output.getD "", messages }
  else
    { ending := .finished (r.exitCode o.check), output := r.updatedLines,
      messages := messages ++ r.summaryLines o.check }

end Report

namespace Command

/-- The transcript of a command that a fault stopped, when `messages` have been shown before. -/
def faultTranscript (fault : Fault) (messages : String) : Transcript :=
  if fault.concernsNotice then
    { ending := .finished .error
      messages := messages ++ printedLines ["error: " ++ fault.message] }
  else { ending := .crashed fault, messages }

/-- A request carried out on behalf of a command line. -/
def carryOut (o : Options) (request : Request) (environment : Option String) (fresh : Stamp)
    (files : FileSystem) : Transcript × FileSystem :=
  let (result, session) := (request.run environment fresh).run ⟨files, []⟩
  let messages := shownJournal o.threshold session.journal
  let transcript : Transcript :=
    match result with
    | .ok (.ok report) => report.transcript o messages
    | .ok (.error violation) => { ending := .rejected violation, messages }
    | .error fault => faultTranscript fault messages
  (transcript, session.files)

/-- The options of a command line carried out. Nothing is done for options that make no request. -/
def obey (o : Options) (environment : Option String) (fresh : Stamp) (files : FileSystem) :
    Transcript × FileSystem :=
  match o.request environment with
  | .ok request => carryOut o request environment fresh files
  | .error fault => (faultTranscript fault "", files)

/-- A command line carried out on a file system, with the value of `noticeFileVariable` and a stamp
for a run that need not be reproducible. -/
def run (environment : Option String) (fresh : Stamp) (words : List String) (files : FileSystem) :
    Transcript × FileSystem :=
  match Options.parse words with
  | .ok o => obey o environment fresh files
  | .error halt =>
    ({ ending := .halted halt, output := halt.output, messages := halt.complaint }, files)

end Command

end Letterhead
