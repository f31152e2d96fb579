import Letterhead.Scan.Rule
import Letterhead.Text.Lines

/-!
# Revising the lines of a file

The scanner goes through the lines once, from the first phase on. Each line is dealt with by the
rule that accepts it. If the lines end inside the old header comment, nothing is changed: the
comment was never closed, and dropping it would lose the file.

## Main definitions

* `Revision` — what becomes of a file's lines
* `Trace` — what the rules alone make of some lines, from some phase on
* `Scanner.scan` — the revision of a file
* `revise` — the revision by the standard rules, which never fails
-/

namespace Letterhead

/-- The outcome of scanning a file. When `changed` is false the file is to be left as it is. -/
structure Revision where
  source : String
  lines : List Text
  changed : Bool
  diagnostics : List Diagnostic
  finalPhase : Phase
  deriving DecidableEq, Repr

namespace Revision

/-- The remarks that are warnings. -/
def warnings (r : Revision) : List Diagnostic := r.diagnostics.filter (·.severity = .warning)

/-- The text of the new file: every line ended by a line feed. -/
def render (r : Revision) : Text := Text.unlines r.lines

end Revision

/-- What the rules make of some lines, before the end of the file is considered. -/
structure Trace where
  lines : List Text
  changed : Bool
  diagnostics : List Diagnostic
  finalPhase : Phase
  deriving DecidableEq, Repr

/-- A rule table together with the lines of the notice it puts in. -/
structure Scanner where
  notice : List Text
  table : RuleTable

/-- The remark for a file that ends inside its header comment. -/
def unterminatedMessage : String := "unterminated header comment"

namespace Scanner

/-- The diagnostics that a rule gives for a line. -/
def remarks (source : String) (number : Nat) (line : Text) (rule : Rule) : List Diagnostic :=
  match rule.remark with
  | some remark => [⟨remark.severity, remark.message line, source, number⟩]
  | none => []

/-- The trace of some lines from a phase on, when the first of them has the given number. -/
def traceFrom (sc : Scanner) (source : String) (phase : Phase) (number : Nat) :
    List Text → Except ScanError Trace
  | [] => .ok ⟨[], false, [], phase⟩
  | line :: rest =>
    match sc.table.firstMatch phase line with
    | .error e => .error e
    | .ok rule =>
      match traceFrom sc source rule.next (number + 1) rest with
      | .error e => .error e
      | .ok trace => .ok
        { lines := rule.action.emit sc.notice line ++ trace.lines
          changed := rule.marksChanged || trace.changed
          diagnostics := remarks source number line rule ++ trace.diagnostics
          finalPhase := trace.finalPhase }

/-- The revision that a trace of `lines` comes to. -/
def conclude (source : String) (lines : List Text) (trace : Trace) : Revision :=
  if trace.finalPhase = .seekEnd then
    -- The lines come out as they went in, whatever the rules made of them.
    { source
      lines
      changed := false
      diagnostics := trace.diagnostics ++
        [⟨.warning, Text.ofString unterminatedMessage, source, lines.length⟩]
      finalPhase := trace.finalPhase }
  else
    { source
      lines := trace.lines
      changed := trace.changed
      diagnostics := trace.diagnostics
      finalPhase := trace.finalPhase }

/-- The revision of a file with the given lines. -/
def scan (sc : Scanner) (source : String) (lines : List Text) : Except ScanError Revision :=
  match sc.traceFrom source .seekStart 1 lines with
  | .ok trace => .ok (conclude source lines trace)
  | .error e => .error e

/-- The scanner with the standard rules. -/
def standard (notice : List Text) : Scanner := ⟨notice, RuleTable.standard⟩

theorem exists_traceFrom_standard (notice : List Text) (source : String) (lines : List Text) :
    ∀ phase number, ∃ trace, (standard notice).traceFrom source phase number lines = .ok trace := by
  induction lines with
  | nil => intro phase number; exact ⟨_, rfl⟩
  | cons line rest ih =>
    intro phase number
    obtain ⟨rule, hrule⟩ := RuleTable.exists_firstMatch_standard phase line
    obtain ⟨trace, htrace⟩ := ih rule.next (number + 1)
    exact ⟨_, by simp [traceFrom, standard] at htrace hrule ⊢; simp [hrule, htrace]; rfl⟩

/-- The standard rules deal with every file. -/
theorem exists_scan_standard (notice : List Text) (source : String) (lines : List Text) :
    ∃ r, (standard notice).scan source lines = .ok r := by
  obtain ⟨trace, htrace⟩ := exists_traceFrom_standard notice source lines .seekStart 1
  exact ⟨conclude source lines trace, by simp [scan, htrace]⟩

end Scanner

/-- The revision of a file by the standard rules. -/
def revise (notice : List Text) (source : String) (lines : List Text) : Revision :=
  match h : (Scanner.standard notice).scan source lines with
  | .ok r => r
  | .error _ => False.elim <| by
    obtain ⟨r, hr⟩ := Scanner.exists_scan_standard notice source lines
    simp [h] at hr

theorem scan_standard (notice : List Text) (source : String) (lines : List Text) :
    (Scanner.standard notice).scan source lines = .ok (revise notice source lines) := by
  unfold revise
  split
  · assumption
  · rename_i h
    obtain ⟨r, hr⟩ := Scanner.exists_scan_standard notice source lines
    simp [h] at hr

end Letterhead
