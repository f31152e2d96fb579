import Letterhead.Scan.Diagnostic
import Letterhead.Scan.Pattern
import Letterhead.Text.Quoted

/-!
# Scanning rules

The scanner is always in one of three phases. Each phase has an ordered list of rules, and the first
one that accepts a line says what happens to the line and which phase comes next. A rule table is
data: the standard one is below, and the scanner takes any other.

## Main definitions

* `Phase`, `Action`, `Rule`, `RuleTable` — the parts of a table
* `RuleTable.standard`, `RuleTable.named?` — the rules for source files, and each by its name
* `RuleTable.firstMatch` — the rule for a line, or why there is none
-/

namespace Letterhead

/-- Where in the leading region of a file the scanner stands. -/
inductive Phase
  /-- Before the first line that is not blank. -/
  | seekStart
  /-- Inside the comment that is to be replaced. -/
  | seekEnd
  /-- In the rest of the file. -/
  | done
  deriving DecidableEq, Repr

namespace Phase

/-- All phases, in order. -/
def all : List Phase := [seekStart, seekEnd, done]

/-- The name of a phase in reports. -/
def label : Phase → String
  | seekStart => "seek_comment_start"
  | seekEnd => "seek_comment_end"
  | done => "done"

/-- The phase of a name. -/
def ofLabel? (name : String) : Option Phase := all.find? (·.label == name)

end Phase

/-- What a rule does with its line. -/
inductive Action
  /-- Keep the line. -/
  | pass
  /-- Leave the line out. -/
  | drop
  /-- Put the notice in its place. -/
  | replace
  /-- Put the notice and an empty line above it. -/
  | insert
  deriving DecidableEq, Repr

namespace Action

/-- All actions. -/
def all : List Action := [pass, drop, replace, insert]

/-- The name of an action. -/
def label : Action → String
  | pass => "pass"
  | drop => "drop"
  | replace => "replace"
  | insert => "insert"

/-- The lines that stand in the new file where `line` stood, for the notice `notice`. -/
def emit (notice : List Text) (line : Text) : Action → List Text
  | pass => [line]
  | drop => []
  | replace => notice
  | insert => notice ++ [[], line]

end Action

/-- A remark that a rule makes on its line: fixed wording, and then perhaps the line itself. -/
structure Remark where
  severity : Severity
  wording : String
  quotesLine : Bool
  deriving DecidableEq, Repr

namespace Remark

/-- The message of a remark on `line`. -/
def message (r : Remark) (line : Text) : Text :=
  Text.ofString r.wording ++ if r.quotesLine then line else []

/-- The wording with a mark where the line goes. -/
def template (r : Remark) : String :=
  if r.quotesLine then r.wording ++ "\x7bline\x7d" else r.wording

end Remark

/-- One rule of a phase. -/
structure Rule where
  name : String
  pattern : Pattern
  action : Action
  next : Phase
  /-- Whether the file counts as changed once the rule has applied. -/
  marksChanged : Bool
  remark : Option Remark
  deriving DecidableEq, Repr

/-- The rules of every phase; a phase may be without a list. -/
abbrev RuleTable := Phase → Option (List Rule)

/-- Why a line cannot be dealt with. -/
inductive ScanError
  /-- The phase has no list of rules. -/
  | noRules (phase : Phase)
  /-- No rule of the phase accepts the line. -/
  | noMatch (phase : Phase) (line : Text)
  deriving DecidableEq, Repr

/-- The message for a line without a rule. The first form shows a phase by both of its names. -/
def ScanError.message : ScanError → String
  | noRules .seekStart => "<ScanState.SEEK_COMMENT_START: 'seek_comment_start'>"
  | noRules .seekEnd => "<ScanState.SEEK_COMMENT_END: 'seek_comment_end'>"
  | noRules .done => "<ScanState.DONE: 'done'>"
  | noMatch phase line =>
    s!"no rule for state {Quoted.quoteString phase.label} matches {Quoted.quote line}"

namespace RuleTable

/-- The first rule of a phase that accepts the line. -/
def firstMatch (table : RuleTable) (phase : Phase) (line : Text) : Except ScanError Rule :=
  match table phase with
  | none => .error (.noRules phase)
  | some rules =>
    match rules.find? (·.pattern.accepts line) with
    | some rule => .ok rule
    | none => .error (.noMatch phase line)

/-- The remark on a line that is not understood. -/
def unexpectedLine : Remark := ⟨.warning, "unexpected line: ", true⟩

/-- A comment on one line is left alone. -/
def oneLineComment : Rule :=
  { name := "one_line_comment", pattern := .oneLineComment, action := .pass, next := .done,
    marksChanged := false, remark := some ⟨.warning, "one-line comment found", false⟩ }

/-- A comment that opens here is the old header. -/
def commentOpen : Rule :=
  { name := "comment_open", pattern := .commentOpen, action := .drop, next := .seekEnd,
    marksChanged := true, remark := none }

/-- A documentation comment is left alone. -/
def docOpen : Rule :=
  { name := "javadoc_open", pattern := .docOpen, action := .pass, next := .done,
    marksChanged := false, remark := some ⟨.warning, "javadoc comment found", false⟩ }

/-- A package line shows that there is no header, so the notice goes above it. -/
def package : Rule :=
  { name := "package", pattern := .packageLine, action := .insert, next := .done,
    marksChanged := true, remark := some ⟨.info, "no previous header comment", false⟩ }

/-- Leading blank lines are left out. -/
def leadingBlank : Rule :=
  { name := "blank", pattern := .blank, action := .drop, next := .seekStart,
    marksChanged := true, remark := none }

/-- Whatever else comes first is left alone. -/
def unexpected : Rule :=
  { name := "unexpected", pattern := .any, action := .pass, next := .done,
    marksChanged := false, remark := some unexpectedLine }

/-- The close of the old header makes way for the notice. -/
def commentClose : Rule :=
  { name := "comment_close", pattern := .commentClose, action := .replace, next := .done,
    marksChanged := true, remark := none }

/-- A statement inside the old header shows that the comment is not closed where it should be. It is
kept, with a warning. -/
def strayStatement : Rule :=
  { name := "stray_statement", pattern := .statement, action := .pass, next := .seekEnd,
    marksChanged := false, remark := some unexpectedLine }

/-- The lines of the old header are left out. -/
def commentBody : Rule :=
  { name := "comment_body", pattern := .any, action := .drop, next := .seekEnd,
    marksChanged := true, remark := none }

/-- The rest of the file stays as it is. -/
def passthrough : Rule :=
  { name := "passthrough", pattern := .any, action := .pass, next := .done,
    marksChanged := false, remark := none }

/-- The rules before the first line that is not blank. -/
def startRules : List Rule :=
  [oneLineComment, commentOpen, docOpen, package, leadingBlank, unexpected]

/-- The rules inside the old header comment. -/
def endRules : List Rule := [commentClose, strayStatement, commentBody]

/-- The only rule for the rest of the file. -/
def doneRules : List Rule := [passthrough]

/-- The rules for source files. -/
def standard : RuleTable
  | .seekStart => some startRules
  | .seekEnd => some endRules
  | .done => some doneRules

/-- The standard rule of a full name such as `done.passthrough`. -/
def named? (name : String) : Option Rule :=
  Phase.all.findSome? fun phase =>
    ((standard phase).getD []).find? fun rule => phase.label ++ "." ++ rule.name == name

/-- Every line has a rule in every phase of the standard table. -/
theorem exists_firstMatch_standard (phase : Phase) (line : Text) :
    ∃ rule, standard.firstMatch phase line = .ok rule := by
  have found : ∃ rules, standard phase = some rules ∧
      (rules.find? (·.pattern.accepts line)).isSome := by
    cases phase
    · exact ⟨startRules, rfl, by simp [startRules, unexpected, Pattern.accepts]⟩
    · exact ⟨endRules, rfl, by simp [endRules, commentBody, Pattern.accepts]⟩
    · exact ⟨doneRules, rfl, by simp [doneRules, passthrough, Pattern.accepts]⟩
  obtain ⟨rules, hrules, hsome⟩ := found
  obtain ⟨rule, hrule⟩ := Option.isSome_iff_exists.mp hsome
  exact ⟨rule, by simp [firstMatch, hrules, hrule]⟩

end RuleTable

end Letterhead
