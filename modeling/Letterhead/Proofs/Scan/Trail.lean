import Letterhead.Proofs.Scan.Line
import Letterhead.Scan.Revision

/-!
# Trails of the scanner

A trail is a run of the scanner written down line by line: each line with the rule that applied to
it, and the phase that comes after all of them. Trails can be put together, and a revision can be
read off the trail of its lines. So what the scanner makes of a file is found by giving the trail of
each of its parts.

## Main definitions

* `RuleTable.Trail` — the runs of the scanner
* `Trail.emitted`, `Trail.marked`, `Trail.remarks` — what the rules of a trail make of its lines

## Main results

* `Trail.append` — one trail after another is a trail
* `Trail.unique` — the lines determine the trail
* `exists_trail_standard` — the standard rules have a trail for all lines
* `revise_of_trail` — the revision read off a trail
-/

namespace Letterhead

namespace RuleTable

/-- A run of the scanner from one phase to another, as the lines it goes through, each with the rule
that applies to it. -/
inductive Trail (table : RuleTable) : Phase → List (Text × Rule) → Phase → Prop
  | nil (phase : Phase) : Trail table phase [] phase
  | cons {phase final : Phase} {line : Text} {rule : Rule} {rest : List (Text × Rule)} :
      table.firstMatch phase line = .ok rule → Trail table rule.next rest final →
        Trail table phase ((line, rule) :: rest) final

namespace Trail

variable {table : RuleTable} {phase middle final : Phase}

theorem append {first second : List (Text × Rule)} (hfirst : Trail table phase first middle)
    (hsecond : Trail table middle second final) : Trail table phase (first ++ second) final := by
  induction hfirst with
  | nil phase => exact hsecond
  | cons hrule _ ih => exact .cons hrule (ih hsecond)

/-- The lines determine the rules that apply to them, and the phase they end in. -/
theorem unique {trail trail' : List (Text × Rule)} {final' : Phase}
    (h : Trail table phase trail final) (h' : Trail table phase trail' final')
    (hlines : trail.map Prod.fst = trail'.map Prod.fst) : trail = trail' ∧ final = final' := by
  induction h generalizing trail' with
  | nil phase =>
    cases h' with
    | nil => exact ⟨rfl, rfl⟩
    | cons => cases hlines
  | cons hrule _ ih =>
    cases h' with
    | nil => cases hlines
    | cons hrule' htail' =>
      obtain ⟨rfl, hrest⟩ := List.cons_eq_cons.mp hlines
      obtain rfl := Except.ok.inj (hrule.symm.trans hrule')
      obtain ⟨rfl, rfl⟩ := ih htail' hrest
      exact ⟨rfl, rfl⟩

/-- What some run over given lines has, the one run over them has. -/
theorem exists_iff {lines : List Text} {trail : List (Text × Rule)} {final' : Phase}
    (h : Trail table phase trail final) (hlines : trail.map Prod.fst = lines)
    (P : List (Text × Rule) → Prop) :
    (∃ run, Trail table phase run final' ∧ run.map Prod.fst = lines ∧ P run) ↔
      final = final' ∧ P trail := by
  constructor
  · rintro ⟨run, hrun, hlines', hP⟩
    obtain ⟨rfl, rfl⟩ := h.unique hrun (hlines.trans hlines'.symm)
    exact ⟨rfl, hP⟩
  · rintro ⟨rfl, hP⟩
    exact ⟨trail, h, hlines, hP⟩

/-- A stretch of lines with rules that stay in a phase. -/
theorem stay {lines : List Text} (rule : Text → Rule)
    (h : ∀ line ∈ lines, table.firstMatch phase line = .ok (rule line) ∧ (rule line).next = phase) :
    Trail table phase (lines.map fun line => (line, rule line)) phase := by
  induction lines with
  | nil => exact .nil phase
  | cons line rest ih =>
    obtain ⟨⟨hrule, hnext⟩, hrest⟩ := List.forall_mem_cons.mp h
    refine .cons hrule ?_
    rw [hnext]
    exact ih hrest

/-- The lines that the rules of a trail put into the new file. -/
def emitted (notice : List Text) (trail : List (Text × Rule)) : List Text :=
  trail.flatMap fun entry => entry.2.action.emit notice entry.1

/-- Whether a rule of a trail marks the file as changed. -/
def marked (trail : List (Text × Rule)) : Bool := trail.any (·.2.marksChanged)

/-- The diagnostics that the rules of a trail give, when its first line has the given number. -/
def remarks (source : String) : Nat → List (Text × Rule) → List Diagnostic
  | _, [] => []
  | number, (line, rule) :: rest =>
    Scanner.remarks source number line rule ++ remarks source (number + 1) rest

@[simp] theorem emitted_nil (notice : List Text) : emitted notice [] = [] := rfl

@[simp] theorem emitted_cons (notice : List Text) (line : Text) (rule : Rule)
    (rest : List (Text × Rule)) :
    emitted notice ((line, rule) :: rest) = rule.action.emit notice line ++ emitted notice rest :=
  List.flatMap_cons

@[simp] theorem emitted_append (notice : List Text) (first second : List (Text × Rule)) :
    emitted notice (first ++ second) = emitted notice first ++ emitted notice second :=
  List.flatMap_append

@[simp] theorem marked_nil : marked [] = false := rfl

@[simp] theorem marked_cons (line : Text) (rule : Rule) (rest : List (Text × Rule)) :
    marked ((line, rule) :: rest) = (rule.marksChanged || marked rest) := List.any_cons

@[simp] theorem marked_append (first second : List (Text × Rule)) :
    marked (first ++ second) = (marked first || marked second) := List.any_append

/-- The trace that the scanner gives for the lines of a trail. -/
theorem traceFrom_eq {trail : List (Text × Rule)} (h : Trail table phase trail final)
    (notice : List Text) (source : String) (number : Nat) :
    Scanner.traceFrom ⟨notice, table⟩ source phase number (trail.map Prod.fst) =
      .ok ⟨emitted notice trail, marked trail, remarks source number trail, final⟩ := by
  induction h generalizing number with
  | nil phase => rfl
  | cons hrule _ ih =>
    simp only [List.map_cons, Scanner.traceFrom, hrule, ih, emitted_cons, marked_cons, remarks]

end Trail

/-- The standard rules have a trail for all lines, from every phase on. -/
theorem exists_trail_standard (lines : List Text) (phase : Phase) :
    ∃ trail final, Trail standard phase trail final ∧ trail.map Prod.fst = lines := by
  induction lines generalizing phase with
  | nil => exact ⟨[], phase, .nil phase, rfl⟩
  | cons line rest ih =>
    obtain ⟨rule, hrule⟩ := exists_firstMatch_standard phase line
    obtain ⟨trail, final, htrail, rfl⟩ := ih rule.next
    exact ⟨(line, rule) :: trail, final, .cons hrule htrail, rfl⟩

end RuleTable

open RuleTable

/-- The revision of a file read off the trail of its lines. -/
theorem revise_of_trail {lines : List Text} {trail : List (Text × Rule)} {final : Phase}
    (h : Trail standard .seekStart trail final) (hlines : trail.map Prod.fst = lines)
    (notice : List Text) (source : String) :
    revise notice source lines =
      Scanner.conclude source lines
        ⟨Trail.emitted notice trail, Trail.marked trail, Trail.remarks source 1 trail, final⟩ := by
  have hscan := scan_standard notice source lines
  have htrace : (Scanner.standard notice).traceFrom source .seekStart 1 (trail.map Prod.fst) = _ :=
    h.traceFrom_eq notice source 1
  rw [Scanner.scan, ← hlines, htrace, hlines] at hscan
  exact (Except.ok.inj hscan).symm

/-- A scan that comes to its end puts out what its rules do. -/
theorem revise_of_trail_done {lines : List Text} {trail : List (Text × Rule)} {final : Phase}
    (h : Trail standard .seekStart trail final) (hlines : trail.map Prod.fst = lines)
    (hfinal : final ≠ .seekEnd) (notice : List Text) (source : String) :
    (revise notice source lines).lines = Trail.emitted notice trail ∧
      (revise notice source lines).changed = Trail.marked trail ∧
      (revise notice source lines).finalPhase = final := by
  rw [revise_of_trail h hlines, Scanner.conclude, if_neg hfinal]
  exact ⟨rfl, rfl, rfl⟩

namespace Scanner

variable {sc : Scanner} {source : String} {lines : List Text} {d : Diagnostic}

theorem nonneg_line_of_remarks {number : Nat} {line : Text} {rule : Rule}
    (h : d ∈ remarks source number line rule) : 0 ≤ d.line := by
  rw [remarks] at h
  split at h
  · rw [List.mem_singleton.mp h]
    exact Int.natCast_nonneg number
  · cases h

theorem nonneg_line_of_traceFrom {phase : Phase} {number : Nat} {trace : Trace}
    (h : sc.traceFrom source phase number lines = .ok trace) (hd : d ∈ trace.diagnostics) :
    0 ≤ d.line := by
  induction lines generalizing phase number trace with
  | nil =>
    obtain rfl := Except.ok.inj h
    cases hd
  | cons line rest ih =>
    rw [traceFrom] at h
    split at h
    · cases h
    · split at h
      · cases h
      · rename_i later hlater
        obtain rfl := Except.ok.inj h
        rcases List.mem_append.mp hd with hd | hd
        · exact nonneg_line_of_remarks hd
        · exact ih hlater hd

/-- No scan makes a remark on a line before the first one, whatever its table. -/
theorem nonneg_line_of_scan {r : Revision} (h : sc.scan source lines = .ok r)
    (hd : d ∈ r.diagnostics) : 0 ≤ d.line := by
  rw [scan] at h
  split at h
  · rename_i trace htrace
    obtain rfl := Except.ok.inj h
    rw [conclude] at hd
    split at hd
    · rcases List.mem_append.mp hd with hd | hd
      · exact nonneg_line_of_traceFrom htrace hd
      · rw [List.mem_singleton.mp hd]
        exact Int.natCast_nonneg _
    · exact nonneg_line_of_traceFrom htrace hd
  · cases h

end Scanner

/-- In particular none of the standard scans. -/
theorem nonneg_line_of_mem_diagnostics {notice : List Text} {source : String} {lines : List Text}
    {d : Diagnostic} (h : d ∈ (revise notice source lines).diagnostics) : 0 ≤ d.line :=
  Scanner.nonneg_line_of_scan (scan_standard notice source lines) h

theorem mem_emit {action : Action} {notice : List Text} {line l : Text}
    (h : l ∈ action.emit notice line) : l = line ∨ l ∈ notice ∨ l = [] := by
  cases action with
  | pass => exact Or.inl (List.mem_singleton.mp h)
  | drop => cases h
  | replace => exact Or.inr (Or.inl h)
  | insert =>
    rcases List.mem_append.mp h with h | h
    · exact Or.inr (Or.inl h)
    · rcases List.mem_cons.mp h with h | h
      · exact Or.inr (Or.inr h)
      · exact Or.inl (List.mem_singleton.mp h)

/-- A revision is made of lines of the file, lines of the notice, and empty lines. -/
theorem mem_revise_lines {notice : List Text} {source : String} {lines : List Text} {l : Text}
    (h : l ∈ (revise notice source lines).lines) : l ∈ lines ∨ l ∈ notice ∨ l = [] := by
  obtain ⟨trail, final, htrail, hlines⟩ := exists_trail_standard lines .seekStart
  rw [revise_of_trail htrail hlines, Scanner.conclude] at h
  split at h
  · exact Or.inl h
  · obtain ⟨⟨line, rule⟩, hentry, hl⟩ := List.mem_flatMap.mp h
    rcases mem_emit hl with rfl | hl
    · exact Or.inl (hlines ▸ List.mem_map_of_mem hentry)
    · exact Or.inr hl

end Letterhead
