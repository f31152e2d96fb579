import Letterhead.Proofs.Text.Affix
import Letterhead.Scan.Rule

/-!
# The rule for a line

Which of the standard rules applies to a line, in each phase. Before the header the kinds of line
that the first five rules accept exclude each other: what is left of a line without its outer blanks
is nothing, an opening mark, or starts with a letter. Inside the header the order of the rules
matters, and after it there is but one rule.

## Main results

* `firstMatch_of_isBlank`, `firstMatch_of_commentOpen`, `firstMatch_of_packageLine` — the rule for a
  kind of line before the header
* `firstMatch_of_foreign`, `exists_firstMatch_of_foreign` — the rule for any other line there, which
  passes it on and ends the search
* `firstMatch_of_commentClose`, `firstMatch_of_statement`, `firstMatch_of_body` — the rules inside
  the header
-/

namespace Letterhead

namespace Pattern

/-- A package line starts with a letter, and so does what is left of it without its outer blanks. -/
theorem exists_trim_of_packageLine {line : Text} (h : packageLine.accepts line) :
    line.isBlank = false ∧ ∃ rest, line.trim = .scalar 'p' :: rest := by
  obtain ⟨rest, rfl⟩ := List.isPrefixOf_iff_prefix.mp h
  exact ⟨rfl, _, Text.trim_cons_of_not rfl _⟩

/-- A line that a comment opens on is no other kind of comment line. -/
theorem not_isOneLineComment_of_commentOpen {line : Text} (h : commentOpen.accepts line) :
    isOneLineComment line = false := by
  rw [isOneLineComment, eq_of_beq h]
  rfl

theorem not_isBlank_of_commentOpen {line : Text} (h : commentOpen.accepts line) :
    line.isBlank = false := by
  rw [← Bool.not_eq_true]
  intro hblank
  have htrim : line.trim = opening := eq_of_beq h
  rw [Text.trim_of_isBlank hblank] at htrim
  cases htrim

/-- What opens a comment starts with a slash, and a package line with a letter. -/
theorem not_packageLine_of_commentOpen {line : Text} (h : commentOpen.accepts line) :
    packageLine.accepts line = false := by
  rw [← Bool.not_eq_true]
  intro hpackage
  obtain ⟨-, rest, htrim⟩ := exists_trim_of_packageLine hpackage
  have hopening : line.trim = opening := eq_of_beq h
  rw [hopening] at htrim
  exact absurd (List.cons.inj htrim).1 (by decide)

end Pattern

namespace RuleTable

open Pattern

/-- The first rule that accepts a line applies to it. -/
theorem firstMatch_of_first {phase : Phase} {line : Text} (before : List Rule) (rule : Rule)
    (after : List Rule) (hrules : standard phase = some (before ++ rule :: after))
    (hbefore : ∀ r ∈ before, r.pattern.accepts line = false) (hrule : rule.pattern.accepts line) :
    standard.firstMatch phase line = .ok rule := by
  have hfind : (before ++ rule :: after).find? (·.pattern.accepts line) = some rule :=
    List.find?_eq_some_iff_append.mpr
      ⟨hrule, before, after, rfl, fun r hr => by simp [hbefore r hr]⟩
  rw [firstMatch, hrules]
  simp only [hfind]

/-! ### Before the header -/

/-- Without an opening mark a line is no comment of any kind. -/
theorem comment_rules_reject {line : Text} (h : opening.isPrefixOf line.trim = false) :
    ∀ r ∈ [oneLineComment, commentOpen, docOpen], r.pattern.accepts line = false := by
  have hne : ∀ rest : Text, line.trim ≠ opening ++ rest := by
    intro rest heq
    rw [heq, List.isPrefixOf_iff_prefix.mpr (List.prefix_append opening rest)] at h
    cases h
  simp only [List.forall_mem_cons, List.not_mem_nil, false_implies, implies_true, and_true]
  refine ⟨?_, ?_, ?_⟩
  · change isOneLineComment line = false
    rw [isOneLineComment]
    cases hprefix : opening.isPrefixOf? line.trim with
    | none => rfl
    | some rest => exact absurd (isPrefixOf?_eq_some_iff.mp hprefix) (hne rest)
  · exact beq_eq_false_iff_ne.mpr (hne [])
  · exact beq_eq_false_iff_ne.mpr (hne [.scalar '*'])

theorem firstMatch_of_isBlank {line : Text} (h : line.isBlank) :
    standard.firstMatch .seekStart line = .ok leadingBlank := by
  have htrim : opening.isPrefixOf line.trim = false := by rw [Text.trim_of_isBlank h]; rfl
  have hpackage : Pattern.packageLine.accepts line = false := by
    by_contra hline
    rw [(exists_trim_of_packageLine (Bool.of_not_eq_false hline)).1] at h
    cases h
  refine firstMatch_of_first ([oneLineComment, commentOpen, docOpen] ++ [package]) leadingBlank
    [unexpected] rfl (fun r hr => ?_) h
  rcases List.mem_append.mp hr with hr | hr
  · exact comment_rules_reject htrim r hr
  · rw [List.mem_singleton.mp hr]
    exact hpackage

theorem firstMatch_of_commentOpen {line : Text} (h : Pattern.commentOpen.accepts line) :
    standard.firstMatch .seekStart line = .ok commentOpen := by
  refine firstMatch_of_first [oneLineComment] commentOpen
    [docOpen, package, leadingBlank, unexpected] rfl (fun r hr => ?_) h
  rw [List.mem_singleton.mp hr]
  exact not_isOneLineComment_of_commentOpen h

theorem firstMatch_of_packageLine {line : Text} (h : Pattern.packageLine.accepts line) :
    standard.firstMatch .seekStart line = .ok package := by
  obtain ⟨-, rest, htrim⟩ := exists_trim_of_packageLine h
  exact firstMatch_of_first [oneLineComment, commentOpen, docOpen] package
    [leadingBlank, unexpected] rfl (comment_rules_reject (by rw [htrim]; rfl)) h

/-- The rule for a first line that is not blank, opens no comment and is no package line. -/
def foreignRule (line : Text) : Rule :=
  if Pattern.oneLineComment.accepts line then oneLineComment
  else if Pattern.docOpen.accepts line then docOpen
  else unexpected

theorem firstMatch_of_foreign {line : Text} (hblank : line.isBlank = false)
    (hopen : Pattern.commentOpen.accepts line = false)
    (hpackage : Pattern.packageLine.accepts line = false) :
    standard.firstMatch .seekStart line = .ok (foreignRule line) := by
  rw [foreignRule]
  cases hone : Pattern.oneLineComment.accepts line with
  | true =>
    exact firstMatch_of_first [] oneLineComment
      [commentOpen, docOpen, package, leadingBlank, unexpected] rfl (by simp) hone
  | false =>
    cases hdoc : Pattern.docOpen.accepts line with
    | true =>
      refine firstMatch_of_first [oneLineComment, commentOpen] docOpen
        [package, leadingBlank, unexpected] rfl ?_ hdoc
      simp only [List.forall_mem_cons, List.not_mem_nil, false_implies, implies_true, and_true]
      exact ⟨hone, hopen⟩
    | false =>
      refine firstMatch_of_first [oneLineComment, commentOpen, docOpen, package, leadingBlank]
        unexpected [] rfl ?_ rfl
      simp only [List.forall_mem_cons, List.not_mem_nil, false_implies, implies_true, and_true]
      exact ⟨hone, hopen, hdoc, hpackage, hblank⟩

theorem foreignRule_passes (line : Text) : (foreignRule line).action = .pass ∧
    (foreignRule line).next = .done ∧ (foreignRule line).marksChanged = false := by
  rw [foreignRule]
  split
  · exact ⟨rfl, rfl, rfl⟩
  · split <;> exact ⟨rfl, rfl, rfl⟩

/-- A line that is not blank, opens no comment and is no package line is passed on, and ends the
search for a header without a change. -/
theorem exists_firstMatch_of_foreign {line : Text} (hblank : line.isBlank = false)
    (hopen : Pattern.commentOpen.accepts line = false)
    (hpackage : Pattern.packageLine.accepts line = false) :
    ∃ rule, standard.firstMatch .seekStart line = .ok rule ∧ rule.action = .pass ∧
      rule.next = .done ∧ rule.marksChanged = false :=
  ⟨_, firstMatch_of_foreign hblank hopen hpackage, foreignRule_passes line⟩

/-! ### Inside the header, and after it -/

theorem firstMatch_of_commentClose {line : Text} (h : Pattern.commentClose.accepts line) :
    standard.firstMatch .seekEnd line = .ok commentClose :=
  firstMatch_of_first [] commentClose [strayStatement, commentBody] rfl (by simp) h

theorem firstMatch_of_statement {line : Text} (hclose : Pattern.commentClose.accepts line = false)
    (h : Pattern.statement.accepts line) :
    standard.firstMatch .seekEnd line = .ok strayStatement := by
  refine firstMatch_of_first [commentClose] strayStatement [commentBody] rfl (fun r hr => ?_) h
  rw [List.mem_singleton.mp hr]
  exact hclose

theorem firstMatch_of_body {line : Text} (hclose : Pattern.commentClose.accepts line = false)
    (h : Pattern.statement.accepts line = false) :
    standard.firstMatch .seekEnd line = .ok commentBody := by
  refine firstMatch_of_first [commentClose, strayStatement] commentBody [] rfl ?_ rfl
  simp only [List.forall_mem_cons, List.not_mem_nil, false_implies, implies_true, and_true]
  exact ⟨hclose, h⟩

theorem firstMatch_done (line : Text) : standard.firstMatch .done line = .ok passthrough :=
  firstMatch_of_first [] passthrough [] rfl (by simp) rfl

end RuleTable

end Letterhead
