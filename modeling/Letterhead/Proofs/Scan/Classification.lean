import Letterhead.Proofs.Scan.Expression
import Letterhead.Proofs.Scan.Region

/-!
# How the rule tables sort lines

Before the header the first five rules exclude each other: what is left of a line when it is trimmed
tells which of them it can be. So each of them applies to just the lines that it describes, the last
rule applies to the others, and the order of the five does not matter. Inside the header the order
does matter: a line that closes the comment is not looked at any further, and a statement is
a statement only on a line that closes nothing.

## Main definitions

* `RuleTable.leadRules`, `RuleTable.reordered` — the five rules, and the table with them in another
  order

## Main results

* `firstMatch_seekStart_eq_iff`, `firstMatch_seekEnd` — which rule applies to a line
* `standard_classifies` — the same in terms of what the lines look like, and what follows for the
  order of the rules
-/

namespace Letterhead

namespace RuleTable

/-- The rules before the header that accept some lines only. -/
def leadRules : List Rule := [oneLineComment, commentOpen, docOpen, package, leadingBlank]

/-- The standard table with the five rules before the header in another order. -/
def reordered (order : List Rule) : RuleTable
  | .seekStart => some (order ++ [unexpected])
  | phase => standard phase

variable {line : Text} {rule : Rule} {order : List Rule}

/-! ### Before the header -/

/-- The only one of the five rules that can accept a line with the given trimmed form. -/
def leadRuleFor (trimmed : Text) : Rule :=
  if trimmed = [] then leadingBlank
  else if trimmed = Pattern.opening then commentOpen
  else if trimmed = Pattern.opening ++ [.scalar '*'] then docOpen
  else if Pattern.opening <+: trimmed then oneLineComment
  else package

theorem leadRuleFor_between (inside : Text) :
    leadRuleFor (Pattern.opening ++ (inside ++ Pattern.closing)) = oneLineComment := by
  -- Two marks have four characters, more than either form of an opening line.
  have hlength : (Pattern.opening ++ (inside ++ Pattern.closing)).length = inside.length + 4 := by
    simp [Pattern.opening, Pattern.closing]
  have hne (t : Text) (ht : t.length < 4) :
      Pattern.opening ++ (inside ++ Pattern.closing) ≠ t := by
    rintro rfl
    omega
  rw [leadRuleFor, if_neg (hne _ (by decide)), if_neg (hne _ (by decide)),
    if_neg (hne _ (by decide)), if_pos (List.prefix_append _ _)]

theorem leadRuleFor_letter (rest : Text) : leadRuleFor (.scalar 'p' :: rest) = package := by
  have hprefix : ¬ Pattern.opening <+: .scalar 'p' :: rest := by
    rintro ⟨tail, htail⟩
    exact absurd (List.cons.inj htail).1 (by decide)
  have hne (t : Text) : .scalar 'p' :: rest ≠ Pattern.opening ++ t :=
    fun h => hprefix ⟨t, h.symm⟩
  rw [leadRuleFor, if_neg (by simp), if_neg (by simpa using hne []), if_neg (hne _),
    if_neg hprefix]

/-- The trimmed form of a line tells which of the five rules accepts it, if any does. -/
theorem eq_leadRuleFor (hrule : rule ∈ leadRules) (h : rule.pattern.accepts line) :
    rule = leadRuleFor line.trim := by
  simp only [leadRules, List.mem_cons, List.not_mem_nil, or_false] at hrule
  rcases hrule with rfl | rfl | rfl | rfl | rfl
  · obtain ⟨inside, htrim, -⟩ := Pattern.isOneLineComment_iff.mp h
    rw [htrim, leadRuleFor_between]
  · have htrim : line.trim = Pattern.opening := eq_of_beq h
    rw [htrim]
    rfl
  · have htrim : line.trim = Pattern.opening ++ [.scalar '*'] := eq_of_beq h
    rw [htrim]
    rfl
  · obtain ⟨-, rest, htrim⟩ := Pattern.exists_trim_of_packageLine h
    rw [htrim, leadRuleFor_letter]
  · rw [Text.trim_of_isBlank h]
    rfl

/-- No line is accepted by two of the five rules. -/
theorem leadRules_exclusive {rule' : Rule} (hrule : rule ∈ leadRules) (hrule' : rule' ∈ leadRules)
    (h : rule.pattern.accepts line) (h' : rule'.pattern.accepts line) : rule = rule' :=
  (eq_leadRuleFor hrule h).trans (eq_leadRuleFor hrule' h').symm

/-- Whatever the order of the five rules, the one that accepts a line is found, and the rule behind
them where there is none. -/
theorem find?_append_unexpected (horder : order.Perm leadRules) :
    (order ++ [unexpected]).find? (·.pattern.accepts line) = some rule ↔
      (rule ∈ leadRules ∧ rule.pattern.accepts line) ∨
        (rule = unexpected ∧ ∀ r ∈ leadRules, r.pattern.accepts line = false) := by
  rw [List.find?_append]
  cases hfind : order.find? (·.pattern.accepts line) with
  | some found =>
    have hmem : found ∈ leadRules := horder.mem_iff.mp (List.mem_of_find?_eq_some hfind)
    have haccepts : found.pattern.accepts line := by simpa using List.find?_some hfind
    rw [Option.some_or, Option.some_inj]
    constructor
    · rintro rfl
      exact Or.inl ⟨hmem, haccepts⟩
    · rintro (⟨hrule, hline⟩ | ⟨-, hnone⟩)
      · -- Two rules that accept the line are one, so the first one found is the one there is.
        exact leadRules_exclusive hmem hrule haccepts hline
      · simp [hnone found hmem] at haccepts
  | none =>
    have hnone : ∀ r ∈ leadRules, r.pattern.accepts line = false := by
      intro r hr
      simpa using List.find?_eq_none.mp hfind r (horder.mem_iff.mpr hr)
    have hlast : unexpected.pattern.accepts line := rfl
    rw [Option.none_or, List.find?_singleton, if_pos hlast, Option.some_inj]
    constructor
    · rintro rfl
      exact Or.inr ⟨rfl, hnone⟩
    · rintro (⟨hrule, hline⟩ | ⟨rfl, -⟩)
      · simp [hnone rule hrule] at hline
      · rfl

theorem firstMatch_reordered_seekStart_eq_iff (horder : order.Perm leadRules) :
    (reordered order).firstMatch .seekStart line = .ok rule ↔
      (rule ∈ leadRules ∧ rule.pattern.accepts line) ∨
        (rule = unexpected ∧ ∀ r ∈ leadRules, r.pattern.accepts line = false) := by
  rw [← find?_append_unexpected horder, firstMatch, reordered]
  simp only
  split
  · rename_i found hfind
    rw [hfind, Except.ok.injEq, Option.some_inj]
  · rename_i hfind
    rw [hfind]
    constructor
    · intro h
      cases h
    · intro h
      cases h

/-- The standard table has the five rules in one of their orders. -/
theorem firstMatch_seekStart (line : Text) :
    standard.firstMatch .seekStart line = (reordered leadRules).firstMatch .seekStart line := rfl

/-- Which rule applies to a line before the header. -/
theorem firstMatch_seekStart_eq_iff : standard.firstMatch .seekStart line = .ok rule ↔
    (rule ∈ leadRules ∧ rule.pattern.accepts line) ∨
      (rule = unexpected ∧ ∀ r ∈ leadRules, r.pattern.accepts line = false) := by
  rw [firstMatch_seekStart, firstMatch_reordered_seekStart_eq_iff (List.Perm.refl _)]

/-- The order of the five rules does not matter. -/
theorem firstMatch_reordered (horder : order.Perm leadRules) (phase : Phase) (line : Text) :
    (reordered order).firstMatch phase line = standard.firstMatch phase line := by
  cases phase with
  | seekStart =>
    obtain ⟨rule, hrule⟩ := exists_firstMatch_standard .seekStart line
    rw [hrule, firstMatch_reordered_seekStart_eq_iff horder]
    exact firstMatch_seekStart_eq_iff.mp hrule
  | seekEnd => rfl
  | done => rfl

/-! ### Inside the header -/

/-- The rule for a line inside the header. -/
theorem firstMatch_seekEnd (line : Text) :
    standard.firstMatch .seekEnd line = .ok (if line.closes then commentClose else bodyRule line) := by
  cases hclose : line.closes with
  | true => exact firstMatch_of_commentClose hclose
  | false =>
    rw [if_neg Bool.false_ne_true, bodyRule]
    cases hstatement : line.isStatement with
    | true => exact firstMatch_of_statement hclose hstatement
    | false => exact firstMatch_of_body hclose hstatement

theorem firstMatch_seekEnd_eq_commentClose_iff :
    standard.firstMatch .seekEnd line = .ok commentClose ↔ line.closes := by
  rw [firstMatch_seekEnd, Except.ok.injEq, bodyRule]
  cases line.closes <;> cases line.isStatement <;> decide

theorem firstMatch_seekEnd_eq_strayStatement_iff :
    standard.firstMatch .seekEnd line = .ok strayStatement ↔
      line.closes = false ∧ line.isStatement := by
  rw [firstMatch_seekEnd, Except.ok.injEq, bodyRule]
  cases line.closes <;> cases line.isStatement <;> decide

theorem firstMatch_seekEnd_eq_commentBody_iff :
    standard.firstMatch .seekEnd line = .ok commentBody ↔
      line.closes = false ∧ line.isStatement = false := by
  rw [firstMatch_seekEnd, Except.ok.injEq, bodyRule]
  cases line.closes <;> cases line.isStatement <;> decide

end RuleTable

/-! ### Tables that agree -/

theorem Scanner.traceFrom_congr {table table' : RuleTable}
    (h : ∀ phase line, table.firstMatch phase line = table'.firstMatch phase line)
    (notice : List Text) (source : String) (phase : Phase) (number : Nat) (lines : List Text) :
    traceFrom ⟨notice, table⟩ source phase number lines =
      traceFrom ⟨notice, table'⟩ source phase number lines := by
  induction lines generalizing phase number with
  | nil => rfl
  | cons line rest ih => simp only [traceFrom, h, ih]

/-- Tables that find the same rule for every line make the same of every file. -/
theorem Scanner.scan_congr {table table' : RuleTable}
    (h : ∀ phase line, table.firstMatch phase line = table'.firstMatch phase line)
    (notice : List Text) (source : String) (lines : List Text) :
    scan ⟨notice, table⟩ source lines = scan ⟨notice, table'⟩ source lines := by
  rw [scan, scan, traceFrom_congr h]

open RuleTable

/-- Before the header each of the five rules applies to just the lines that it describes, no two of
them describe the same line, and the last rule applies to the others. Inside the header a line that
closes the comment is taken for that, another one for a statement if it is one, and the others are
left out. What is described is what the expressions of the rules find. So any order of the five rules
makes the same of every file. -/
theorem standard_classifies :
    (∀ line : Text,
      (∀ rule ∈ leadRules,
        standard.firstMatch .seekStart line = .ok rule ↔ rule.pattern.Describes line) ∧
      (standard.firstMatch .seekStart line = .ok unexpected ↔
        ∀ rule ∈ leadRules, ¬ rule.pattern.Describes line) ∧
      leadRules.Pairwise
        (fun rule rule' => ¬ (rule.pattern.Describes line ∧ rule'.pattern.Describes line)) ∧
      (standard.firstMatch .seekEnd line = .ok commentClose ↔
        Pattern.commentClose.Describes line) ∧
      (standard.firstMatch .seekEnd line = .ok strayStatement ↔
        ¬ Pattern.commentClose.Describes line ∧ Pattern.statement.Describes line) ∧
      (standard.firstMatch .seekEnd line = .ok commentBody ↔
        ¬ Pattern.commentClose.Describes line ∧ ¬ Pattern.statement.Describes line) ∧
      ∀ pattern : Pattern, pattern.expression.Finds line ↔ pattern.Describes line) ∧
    ∀ order : List Rule, order.Perm leadRules →
      ∀ (notice : List Text) (source : String) (lines : List Text),
        (⟨notice, reordered order⟩ : Scanner).scan source lines =
          (Scanner.standard notice).scan source lines := by
  refine ⟨fun line => ?_, fun order horder notice source lines => ?_⟩
  · have hnot (pattern : Pattern) : ¬ pattern.Describes line ↔ pattern.accepts line = false := by
      rw [← Pattern.accepts_iff_describes, Bool.not_eq_true]
    refine ⟨fun rule hrule => ?_, ?_, ?_, ?_, ?_, ?_, fun p => p.finds_iff_describes line⟩
    · -- The rule behind the five is none of them.
      have hne : rule ≠ unexpected := by
        rintro rfl
        exact absurd hrule (by decide)
      rw [firstMatch_seekStart_eq_iff, ← Pattern.accepts_iff_describes]
      simp [hrule, hne]
    · have hunexpected : unexpected ∉ leadRules := by decide
      rw [firstMatch_seekStart_eq_iff]
      simp [hunexpected, hnot]
    · have hdistinct : leadRules.Pairwise (· ≠ ·) := by decide
      refine hdistinct.imp_of_mem fun hrule hrule' hne hboth => hne ?_
      simp only [← Pattern.accepts_iff_describes] at hboth
      exact leadRules_exclusive hrule hrule' hboth.1 hboth.2
    · rw [firstMatch_seekEnd_eq_commentClose_iff, ← Pattern.accepts_iff_describes]
    · rw [firstMatch_seekEnd_eq_strayStatement_iff, hnot, ← Pattern.accepts_iff_describes]
    · rw [firstMatch_seekEnd_eq_commentBody_iff, hnot, hnot]
  · exact Scanner.scan_congr (firstMatch_reordered horder) notice source lines

/-- A comment without a word in it is told from the opening of a documentation comment, and with the
five rules turned around it is left alone just the same. -/
theorem standard_classifies_reversed :
    leadRules.reverse.Perm leadRules ∧ oneLineComment ∈ leadRules ∧
      (standard.firstMatch .seekStart (Text.ofString " /**/") = .ok oneLineComment ↔
        Pattern.oneLineComment.Describes (Text.ofString " /**/")) ∧
      (⟨[Text.ofString "N"], reordered leadRules.reverse⟩ : Scanner).scan "A.java"
          [Text.ofString " /**/"] =
        (Scanner.standard [Text.ofString "N"]).scan "A.java" [Text.ofString " /**/"] := by
  have horder : leadRules.reverse.Perm leadRules := List.reverse_perm leadRules
  have hrule : oneLineComment ∈ leadRules := by decide
  exact ⟨horder, hrule, (standard_classifies.1 (Text.ofString " /**/")).1 oneLineComment hrule,
    standard_classifies.2 leadRules.reverse horder [Text.ofString "N"] "A.java" _⟩

end Letterhead
