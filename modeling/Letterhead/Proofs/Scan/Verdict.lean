import Letterhead.Scan.Revision

/-!
# The verdict on a file

A scan that says that nothing has changed gives back the very lines of the file, so the file may be
left as it is. This is no property of the standard rules: it holds for every table in which each rule
that does not keep its line marks the file as changed, whatever its rules look for. The scanner is
followed line by line here, with all that it holds between two lines; the only step back that it
takes is at the end, out of a header comment that was never closed.

## Main definitions

* `FreeRule`, `FreeTable` — rules with any test of a line, and tables of them
* `FreeTable.Progress`, `FreeTable.step`, `FreeTable.scan` — the scanner line by line
* `FreeTable.MarksChanges` — no rule changes anything without marking the file as changed

## Main results

* `FreeTable.scan_free` — the scanner itself, line by line
* `FreeTable.unchanged_scan` — where nothing is said to have changed, nothing has
-/

namespace Letterhead

/-- A rule that may look for anything in a line, and say anything about it. -/
structure FreeRule where
  accepts : Text → Bool
  action : Action
  next : Phase
  marksChanged : Bool
  remark : Option (Severity × (Text → Text))

/-- A rule with its kind of line as the test, and its wording as the message. -/
def Rule.free (rule : Rule) : FreeRule :=
  { accepts := rule.pattern.accepts
    action := rule.action
    next := rule.next
    marksChanged := rule.marksChanged
    remark := rule.remark.map fun remark => (remark.severity, remark.message) }

/-- The diagnostics that a rule gives for a line. -/
def FreeRule.diagnostics (rule : FreeRule) (source : String) (number : Nat) (line : Text) :
    List Diagnostic :=
  match rule.remark with
  | some (severity, message) => [⟨severity, message line, source, number⟩]
  | none => []

theorem Rule.diagnostics_free (rule : Rule) (source : String) (number : Nat) (line : Text) :
    rule.free.diagnostics source number line = Scanner.remarks source number line rule := by
  rw [FreeRule.diagnostics, Rule.free, Scanner.remarks]
  cases rule.remark <;> rfl

/-- The rules of every phase; a phase may be without a list. -/
abbrev FreeTable := Phase → Option (List FreeRule)

/-- A table of rules, each with its kind of line as the test. -/
def RuleTable.free (table : RuleTable) : FreeTable := fun phase =>
  (table phase).map (List.map Rule.free)

namespace FreeTable

/-- The first rule of a phase that accepts the line. -/
def firstMatch (table : FreeTable) (phase : Phase) (line : Text) : Except ScanError FreeRule :=
  match table phase with
  | none => .error (.noRules phase)
  | some rules =>
    match rules.find? (·.accepts line) with
    | some rule => .ok rule
    | none => .error (.noMatch phase line)

/-- What the scanner holds between two lines: what has come of the lines so far, and how many there
were. -/
structure Progress extends Trace where
  count : Nat

/-- What the scanner holds before the first line. -/
def Progress.start : Progress := ⟨⟨[], false, [], .seekStart⟩, 0⟩

/-- What the scanner holds after one more line, which a rule applies to. -/
def Progress.advance (p : Progress) (notice : List Text) (source : String) (line : Text)
    (rule : FreeRule) : Progress :=
  { lines := p.lines ++ rule.action.emit notice line
    changed := p.changed || rule.marksChanged
    diagnostics := p.diagnostics ++ rule.diagnostics source (p.count + 1) line
    finalPhase := rule.next
    count := p.count + 1 }

/-- One line of a scan. -/
def step (table : FreeTable) (notice : List Text) (source : String) (p : Progress) (line : Text) :
    Except ScanError Progress :=
  (table.firstMatch p.finalPhase line).map (p.advance notice source line)

/-- The revision of a file with the given lines, which are gone through one by one. -/
def scan (table : FreeTable) (notice : List Text) (source : String) (lines : List Text) :
    Except ScanError Revision :=
  (lines.foldlM (table.step notice source) .start).map fun p =>
    Scanner.conclude source lines p.toTrace

variable {table : FreeTable} {notice lines : List Text} {source : String} {phase : Phase}
  {line : Text} {rule : FreeRule} {p p' : Progress} {r : Revision}

/-! ### The scanner itself -/

theorem firstMatch_free (table : RuleTable) (phase : Phase) (line : Text) :
    table.free.firstMatch phase line = (table.firstMatch phase line).map Rule.free := by
  rw [firstMatch, RuleTable.firstMatch, RuleTable.free]
  cases table phase with
  | none => rfl
  | some rules =>
    simp only [Option.map_some, List.find?_map, Function.comp_def, Rule.free]
    cases rules.find? (·.pattern.accepts line) <;> rfl

/-- The lines that are left go behind what the scanner holds. -/
theorem foldlM_step_free (table : RuleTable) (notice : List Text) (source : String)
    (lines : List Text) (p : Progress) :
    lines.foldlM (table.free.step notice source) p =
      (Scanner.traceFrom ⟨notice, table⟩ source p.finalPhase (p.count + 1) lines).map fun trace =>
        { lines := p.lines ++ trace.lines
          changed := p.changed || trace.changed
          diagnostics := p.diagnostics ++ trace.diagnostics
          finalPhase := trace.finalPhase
          count := p.count + lines.length } := by
  induction lines generalizing p with
  | nil => simp [Scanner.traceFrom, Except.map, pure, Except.pure]
  | cons line rest ih =>
    rw [List.foldlM_cons, step, firstMatch_free, Scanner.traceFrom]
    cases hrule : table.firstMatch p.finalPhase line with
    | error e => rfl
    | ok rule =>
      have hnext : (p.advance notice source line rule.free).finalPhase = rule.next := rfl
      have hcount : (p.advance notice source line rule.free).count = p.count + 1 := rfl
      simp only [Except.map, bind, Except.bind, ih, hnext, hcount]
      cases Scanner.traceFrom ⟨notice, table⟩ source rule.next (p.count + 1 + 1) rest with
      | error e => rfl
      | ok trace =>
        simp [Progress.advance, Rule.free, ← Rule.diagnostics_free, Bool.or_assoc, Nat.add_assoc,
          Nat.add_comm 1]

/-- To scan a file is to go through its lines one by one. -/
theorem scan_free (sc : Scanner) (source : String) (lines : List Text) :
    sc.table.free.scan sc.notice source lines = sc.scan source lines := by
  rw [scan, foldlM_step_free, Scanner.scan]
  have hstart : Progress.start.finalPhase = .seekStart := rfl
  have hcount : Progress.start.count = 0 := rfl
  rw [hstart, hcount, Nat.zero_add]
  cases sc.traceFrom source .seekStart 1 lines with
  | error e => rfl
  | ok trace => simp [Except.map, Progress.start]

/-! ### Lines that are kept -/

/-- A table in which each rule that does not keep its line marks the file as changed. -/
def MarksChanges (table : FreeTable) : Prop :=
  ∀ phase, ∀ rules ∈ table phase, ∀ rule ∈ rules, rule.action ≠ .pass → rule.marksChanged = true

theorem marksChanges_standard : RuleTable.standard.free.MarksChanges := by
  intro phase rules hrules rule hrule haction
  obtain ⟨standardRules, hstandard, rfl⟩ := Option.map_eq_some_iff.mp hrules
  obtain ⟨standardRule, hmem, rfl⟩ := List.mem_map.mp hrule
  have hall : ∀ rule ∈ standardRules, rule.action ≠ .pass → rule.marksChanged = true := by
    cases phase <;> obtain rfl := Option.some.inj hstandard <;> decide
  exact hall standardRule hmem haction

theorem MarksChanges.of_firstMatch (h : table.MarksChanges)
    (hrule : table.firstMatch phase line = .ok rule) (haction : rule.action ≠ .pass) :
    rule.marksChanged = true := by
  rw [firstMatch] at hrule
  split at hrule
  · cases hrule
  · rename_i rules hrules
    split at hrule
    · rename_i found hfound
      obtain rfl := Except.ok.inj hrule
      exact h phase rules hrules _ (List.mem_of_find?_eq_some hfound) haction
    · cases hrule

theorem step_eq_ok (h : table.step notice source p line = .ok p') :
    ∃ rule, table.firstMatch p.finalPhase line = .ok rule ∧
      p' = p.advance notice source line rule := by
  rw [step] at h
  cases hrule : table.firstMatch p.finalPhase line with
  | error e => rw [hrule] at h; cases h
  | ok rule => rw [hrule] at h; exact ⟨rule, rfl, (Except.ok.inj h).symm⟩

/-- As long as nothing is said to have changed, the lines that were put out are those that were
read. -/
def Progress.Faithful (p : Progress) (read : List Text) : Prop :=
  p.changed = false → p.lines = read

theorem faithful_step {read : List Text} (h : table.MarksChanges)
    (hstep : table.step notice source p line = .ok p') (hp : p.Faithful read) :
    p'.Faithful (read ++ [line]) := by
  obtain ⟨rule, hrule, rfl⟩ := step_eq_ok hstep
  intro hchanged
  obtain ⟨hbefore, hmark⟩ := Bool.or_eq_false_iff.mp hchanged
  -- A rule without a mark can only be one that keeps its line.
  have haction : rule.action = .pass := Decidable.byContradiction fun hne =>
    Bool.false_ne_true (hmark.symm.trans (h.of_firstMatch hrule hne))
  simp only [Progress.advance, haction, hp hbefore, Action.emit]

theorem faithful_foldlM {read : List Text} (h : table.MarksChanges)
    (hrun : lines.foldlM (table.step notice source) p = .ok p') (hp : p.Faithful read) :
    p'.Faithful (read ++ lines) := by
  induction lines generalizing p read with
  | nil =>
    obtain rfl := Except.ok.inj hrun
    rwa [List.append_nil]
  | cons line rest ih =>
    rw [List.foldlM_cons] at hrun
    cases hstep : table.step notice source p line with
    | error e => rw [hstep] at hrun; cases hrun
    | ok p₁ =>
      rw [hstep] at hrun
      rw [List.append_cons]
      exact ih hrun (faithful_step h hstep hp)

theorem scan_eq_ok (h : table.scan notice source lines = .ok r) :
    ∃ p, lines.foldlM (table.step notice source) .start = .ok p ∧
      r = Scanner.conclude source lines p.toTrace := by
  rw [scan] at h
  cases hrun : lines.foldlM (table.step notice source) .start with
  | error e => rw [hrun] at h; cases h
  | ok p => rw [hrun] at h; exact ⟨p, rfl, (Except.ok.inj h).symm⟩

/-- A scan that ends inside a header comment takes everything back. -/
theorem rollback_scan (h : table.scan notice source lines = .ok r) (hfinal : r.finalPhase = .seekEnd) :
    r.changed = false ∧ r.lines = lines := by
  obtain ⟨p, -, rfl⟩ := scan_eq_ok h
  rw [Scanner.conclude] at hfinal ⊢
  split
  · exact ⟨rfl, rfl⟩
  · rename_i hne
    rw [if_neg hne] at hfinal
    exact absurd hfinal hne

theorem lines_of_unchanged (h : table.MarksChanges) (hscan : table.scan notice source lines = .ok r)
    (hchanged : r.changed = false) : r.lines = lines := by
  by_cases hfinal : r.finalPhase = .seekEnd
  · exact (rollback_scan hscan hfinal).2
  · obtain ⟨p, hrun, rfl⟩ := scan_eq_ok hscan
    have hp : p.Faithful ([] ++ lines) := faithful_foldlM h hrun fun _ => rfl
    rw [Scanner.conclude] at hfinal hchanged ⊢
    split
    · rfl
    · rename_i hne
      rw [if_neg hne] at hchanged
      exact hp hchanged

/-- Where nothing is said to have changed, nothing has: for every table whose rules mark what they
change, and every notice, the lines come out as they went in, and so they do when the scan ends
inside a header comment. The scanner is such a scan by its table, and its standard table marks what it
changes. -/
theorem unchanged_scan (h : table.MarksChanges) (notice : List Text) (source : String)
    (lines : List Text) :
    (∀ r, table.scan notice source lines = .ok r →
      (r.changed = false → r.lines = lines) ∧
        (r.finalPhase = .seekEnd → r.changed = false ∧ r.lines = lines)) ∧
    (∀ sc : Scanner, sc.table.free = table → sc.notice = notice →
      sc.scan source lines = table.scan notice source lines) ∧
    RuleTable.standard.free.MarksChanges ∧
    ((revise notice source lines).changed = false → (revise notice source lines).lines = lines) := by
  refine ⟨fun r hr => ⟨lines_of_unchanged h hr, rollback_scan hr⟩, ?_, marksChanges_standard, ?_⟩
  · rintro sc rfl rfl
    exact (scan_free sc source lines).symm
  · have hscan : RuleTable.standard.free.scan notice source lines = .ok (revise notice source lines) :=
      (scan_free (Scanner.standard notice) source lines).trans (scan_standard notice source lines)
    exact lines_of_unchanged marksChanges_standard hscan

/-- A table that keeps the lines before the first one with a tab and leaves out what follows, as a
comment that is never closed. -/
def tabTable : FreeTable
  | .seekStart => some
    [⟨fun line => line.contains (.scalar '\t'), .drop, .seekEnd, true, some (.info, id)⟩,
      ⟨fun _ => true, .pass, .seekStart, false, none⟩]
  | .seekEnd => some [⟨fun _ => true, .drop, .seekEnd, true, none⟩]
  | .done => none

/-- Two of three lines are left out on the way, and come back at the end. -/
theorem unchanged_scan_tab : tabTable.MarksChanges ∧ ∃ r,
    tabTable.scan [] "A.java" [Text.ofString "a", Text.ofString "\tb", Text.ofString "c"] = .ok r ∧
      r.changed = false ∧ r.lines = [Text.ofString "a", Text.ofString "\tb", Text.ofString "c"] := by
  have h : tabTable.MarksChanges := by
    intro phase rules hrules
    cases phase <;> cases hrules <;> decide
  have hscan : ∃ r, tabTable.scan [] "A.java"
      [Text.ofString "a", Text.ofString "\tb", Text.ofString "c"] = .ok r ∧ r.changed = false :=
    ⟨_, rfl, rfl⟩
  obtain ⟨r, hr, hchanged⟩ := hscan
  exact ⟨h, r, hr, hchanged, (((unchanged_scan h [] "A.java" _).1 r hr).1 hchanged)⟩

end FreeTable

end Letterhead
