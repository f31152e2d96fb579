import Letterhead.Proofs.Scan.Classification

/-!
# Where the remarks stand

Each remark on a file belongs to a line, and no line has two of them, but for the last one of a file
whose header comment is never closed. Which remarks there are is read off the lines: what the scanner
makes of a line depends on the line and on the phase that the lines before it lead to, and that phase
is known from their looks.

## Main definitions

* `Applies` — the rule for a line behind some others
* `EndsInComment` — lines that end inside a header comment
* `Located` — what holds of the remarks on a file

## Main results

* `RuleTable.Trail.final_cases` — the phase that some lines lead to
* `mem_diagnostics_iff` — the remarks on a file, one for each line with a rule that makes one
* `located_scan` — every scan with the standard rules gives remarks that stand where they belong
-/

namespace Letterhead

open RuleTable

namespace RuleTable.Trail

variable {table : RuleTable} {phase final : Phase} {source : String} {d : Diagnostic}

/-- A run can be cut behind any of its lines. -/
theorem split {first second : List (Text × Rule)} (h : Trail table phase (first ++ second) final) :
    ∃ middle, Trail table phase first middle ∧ Trail table middle second final := by
  induction first generalizing phase with
  | nil => exact ⟨phase, .nil phase, h⟩
  | cons entry first ih =>
    cases h with
    | cons hrule hrest =>
      obtain ⟨middle, hfirst, hsecond⟩ := ih hrest
      exact ⟨middle, .cons hrule hfirst, hsecond⟩

theorem remarks_append (source : String) (number : Nat) (first second : List (Text × Rule)) :
    remarks source number (first ++ second) =
      remarks source number first ++ remarks source (number + first.length) second := by
  induction first generalizing number with
  | nil => rfl
  | cons entry first ih =>
    rw [List.cons_append, remarks, remarks, ih, List.append_assoc, List.length_cons,
      Nat.add_assoc, Nat.add_comm 1]

/-- A stretch of lines with a rule that makes no remark. -/
theorem remarks_stretch {rule : Rule} (h : rule.remark = none) (source : String) (number : Nat)
    (lines : List Text) : remarks source number (lines.map fun line => (line, rule)) = [] := by
  induction lines generalizing number with
  | nil => rfl
  | cons line lines ih => rw [List.map_cons, remarks, Scanner.remarks, h, ih]; rfl

theorem mem_remarks_iff {number : Nat} {trail : List (Text × Rule)} :
    d ∈ remarks source number trail ↔ ∃ before line rule after,
      trail = before ++ (line, rule) :: after ∧
        d ∈ Scanner.remarks source (number + before.length) line rule := by
  constructor
  · intro h
    induction trail generalizing number with
    | nil => cases h
    | cons entry rest ih =>
      rcases List.mem_append.mp h with h | h
      · exact ⟨[], entry.1, entry.2, rest, rfl, h⟩
      · obtain ⟨before, line, rule, after, rfl, hd⟩ := ih h
        refine ⟨entry :: before, line, rule, after, rfl, ?_⟩
        rwa [List.length_cons, Nat.add_comm before.length, ← Nat.add_assoc]
  · rintro ⟨before, line, rule, after, rfl, hd⟩
    rw [remarks_append, remarks]
    exact List.mem_append_right _ (List.mem_append_left _ hd)

end RuleTable.Trail

theorem Scanner.mem_remarks_iff {source : String} {number : Nat} {line : Text} {rule : Rule}
    {d : Diagnostic} : d ∈ remarks source number line rule ↔
      ∃ remark, rule.remark = some remark ∧
        d = ⟨remark.severity, remark.message line, source, number⟩ := by
  rw [remarks]
  cases rule.remark with
  | none => simp
  | some remark => simp

/-! ### Numbers -/

namespace RuleTable.Trail

variable {source : String} {number : Nat} {trail : List (Text × Rule)} {d : Diagnostic}

/-- The number of a remark is that of a line of the trail. -/
theorem location_of_mem_remarks (h : d ∈ remarks source number trail) :
    d.source = source ∧ (number : Int) ≤ d.line ∧ d.line < number + trail.length := by
  obtain ⟨before, line, rule, after, rfl, hd⟩ := mem_remarks_iff.mp h
  obtain ⟨remark, -, rfl⟩ := Scanner.mem_remarks_iff.mp hd
  rw [List.length_append, List.length_cons]
  refine ⟨rfl, ?_, ?_⟩
  · change (number : Int) ≤ (number + before.length : Nat)
    omega
  · change ((number + before.length : Nat) : Int) < _
    omega

/-- No line has two remarks, and the remarks come in the order of their lines. -/
theorem pairwise_remarks (source : String) (number : Nat) (trail : List (Text × Rule)) :
    (remarks source number trail).Pairwise fun d d' => d.line < d'.line := by
  induction trail generalizing number with
  | nil => exact .nil
  | cons entry rest ih =>
    obtain ⟨line, rule⟩ := entry
    rw [remarks, List.pairwise_append]
    refine ⟨?_, ih (number + 1), ?_⟩
    · rw [Scanner.remarks]
      cases rule.remark with
      | none => exact .nil
      | some remark => exact List.pairwise_singleton _ _
    · intro d hd d' hd'
      obtain ⟨remark, -, rfl⟩ := Scanner.mem_remarks_iff.mp hd
      obtain ⟨-, hnumber, -⟩ := location_of_mem_remarks hd'
      simp at hnumber ⊢
      omega

end RuleTable.Trail

/-! ### The phase behind some lines -/

/-- The rule that applies to a line behind the lines `before`. -/
def Applies (before : List Text) (line : Text) (rule : Rule) : Prop :=
  ∃ trail phase, Trail standard .seekStart trail phase ∧ trail.map Prod.fst = before ∧
    standard.firstMatch phase line = .ok rule

/-- The first of the lines that is not blank opens a comment, and no line closes it. -/
def EndsInComment (lines : List Text) : Prop :=
  ∃ blanks opener body, lines = blanks ++ opener :: body ∧ (∀ line ∈ blanks, line.isBlank) ∧
    Pattern.commentOpen.accepts opener ∧ ∀ line ∈ body, line.closes = false

section Phases

variable {lines before after : List Text} {line : Text} {rule : Rule} {phase : Phase}
  {trail : List (Text × Rule)}

/-- The phases that lines can lead to, each with what the lines look like. -/
theorem RuleTable.Trail.final_cases (h : Trail standard .seekStart trail phase)
    (hlines : trail.map Prod.fst = lines) :
    (phase = .seekStart ∧ ∀ line ∈ lines, line.isBlank) ∨
      (phase = .seekEnd ∧ EndsInComment lines) ∨ phase = .done := by
  -- Lines have one run, so it is the one that is known for their kind of file.
  cases region lines with
  | blank hblanks =>
    obtain ⟨-, hphase⟩ := h.unique (trail_blanks hblanks) (hlines.trans (map_fst_map_pair ..).symm)
    exact Or.inl ⟨hphase, hblanks⟩
  | @package blanks rest line hblanks hline =>
    obtain ⟨-, hphase⟩ := h.unique (trail_lead hblanks (firstMatch_of_packageLine hline) rfl rest)
      (hlines.trans (map_fst_lead ..).symm)
    exact Or.inr (Or.inr hphase)
  | @header blanks body rest opener closer hblanks hheader =>
    obtain ⟨-, hphase⟩ := h.unique (trail_header hblanks hheader rest)
      (hlines.trans (map_fst_headerTrail ..).symm)
    exact Or.inr (Or.inr hphase)
  | @unclosed blanks body opener hblanks hopen hbody =>
    obtain ⟨-, hphase⟩ := h.unique (trail_unclosed hblanks hopen hbody)
      (hlines.trans (map_fst_lead ..).symm)
    exact Or.inr (Or.inl ⟨hphase, blanks, opener, body, rfl, hblanks, hopen, hbody⟩)
  | @foreign blanks rest line hblanks hline hopen hpackage =>
    obtain ⟨-, hnext, -⟩ := foreignRule_passes line
    obtain ⟨-, hphase⟩ := h.unique
      (trail_lead hblanks (firstMatch_of_foreign hline hopen hpackage) hnext rest)
      (hlines.trans (map_fst_lead ..).symm)
    exact Or.inr (Or.inr hphase)

/-- A rule that applies to a line is one of its phase. -/
theorem RuleTable.mem_of_firstMatch {rules : List Rule} (h : standard.firstMatch phase line = .ok rule)
    (hrules : standard phase = some rules) : rule ∈ rules := by
  rw [firstMatch, hrules] at h
  simp only at h
  split at h
  · rename_i found hfind
    obtain rfl := Except.ok.inj h
    exact List.mem_of_find?_eq_some hfind
  · cases h

/-- A rule for lines before the header applies behind blank lines only. -/
theorem applies_start_iff (hrule : rule ∈ startRules) : Applies before line rule ↔
    (∀ l ∈ before, l.isBlank) ∧ standard.firstMatch .seekStart line = .ok rule := by
  -- No two phases share a rule.
  have hother : ∀ r ∈ startRules, r ∉ endRules ∧ r ∉ doneRules := by decide
  constructor
  · rintro ⟨trail, phase, htrail, hbefore, hmatch⟩
    rcases htrail.final_cases hbefore with ⟨rfl, hblanks⟩ | ⟨rfl, -⟩ | rfl
    · exact ⟨hblanks, hmatch⟩
    · exact absurd (mem_of_firstMatch hmatch rfl) (hother rule hrule).1
    · exact absurd (mem_of_firstMatch hmatch rfl) (hother rule hrule).2
  · rintro ⟨hblanks, hmatch⟩
    exact ⟨_, _, trail_blanks hblanks, map_fst_map_pair .., hmatch⟩

/-- A rule for lines inside the header applies behind lines that end inside one. -/
theorem applies_end_iff (hrule : rule ∈ endRules) : Applies before line rule ↔
    EndsInComment before ∧ standard.firstMatch .seekEnd line = .ok rule := by
  have hother : ∀ r ∈ endRules, r ∉ startRules ∧ r ∉ doneRules := by decide
  constructor
  · rintro ⟨trail, phase, htrail, hbefore, hmatch⟩
    rcases htrail.final_cases hbefore with ⟨rfl, -⟩ | ⟨rfl, hcomment⟩ | rfl
    · exact absurd (mem_of_firstMatch hmatch rfl) (hother rule hrule).1
    · exact ⟨hcomment, hmatch⟩
    · exact absurd (mem_of_firstMatch hmatch rfl) (hother rule hrule).2
  · rintro ⟨⟨blanks, opener, body, rfl, hblanks, hopen, hbody⟩, hmatch⟩
    exact ⟨_, _, trail_unclosed hblanks hopen hbody, map_fst_lead .., hmatch⟩

theorem applies_package_iff : Applies before line package ↔
    (∀ l ∈ before, l.isBlank) ∧ Pattern.packageLine.accepts line := by
  have hlead : package ∈ leadRules ∧ package ≠ unexpected := by decide
  rw [applies_start_iff (by decide), firstMatch_seekStart_eq_iff]
  simp only [hlead, true_and, false_and, or_false]
  rfl

theorem applies_unexpected_iff : Applies before line unexpected ↔
    (∀ l ∈ before, l.isBlank) ∧ ∀ r ∈ leadRules, r.pattern.accepts line = false := by
  have hlead : unexpected ∉ leadRules := by decide
  rw [applies_start_iff (by decide), firstMatch_seekStart_eq_iff]
  simp only [hlead, false_and, true_and, false_or]

theorem applies_strayStatement_iff : Applies before line strayStatement ↔
    EndsInComment before ∧ line.closes = false ∧ line.isStatement := by
  rw [applies_end_iff (by decide), firstMatch_seekEnd_eq_strayStatement_iff]

end Phases

/-! ### The remarks on a file -/

/-- The remark on a file that ends on line `number` inside its header comment. -/
def Scanner.unterminated (source : String) (number : Nat) : Diagnostic :=
  ⟨.warning, Text.ofString unterminatedMessage, source, number⟩

section Remarks

variable {notice lines before after : List Text} {source : String} {line : Text} {rule : Rule}
  {remark : Remark} {trail : List (Text × Rule)} {final : Phase} {d : Diagnostic}

theorem finalPhase_of_trail (h : Trail standard .seekStart trail final)
    (hlines : trail.map Prod.fst = lines) : (revise notice source lines).finalPhase = final := by
  rw [revise_of_trail h hlines, Scanner.conclude]
  split <;> rfl

theorem diagnostics_of_trail (h : Trail standard .seekStart trail final)
    (hlines : trail.map Prod.fst = lines) :
    (revise notice source lines).diagnostics = Trail.remarks source 1 trail ++
      if final = .seekEnd then [Scanner.unterminated source lines.length] else [] := by
  rw [revise_of_trail h hlines, Scanner.conclude]
  split
  · rfl
  · exact (List.append_nil _).symm

/-- A remark on a file is that of the rule for one of its lines, or the one on its end. -/
theorem mem_diagnostics_iff : d ∈ (revise notice source lines).diagnostics ↔
    (∃ before line rule after, lines = before ++ line :: after ∧ Applies before line rule ∧
      d ∈ Scanner.remarks source (before.length + 1) line rule) ∨
    ((revise notice source lines).finalPhase = .seekEnd ∧
      d = Scanner.unterminated source lines.length) := by
  obtain ⟨trail, final, htrail, hlines⟩ := exists_trail_standard lines .seekStart
  rw [diagnostics_of_trail htrail hlines, finalPhase_of_trail htrail hlines, List.mem_append,
    Trail.mem_remarks_iff]
  refine or_congr ⟨?_, ?_⟩ ?_
  · rintro ⟨first, line, rule, second, rfl, hd⟩
    -- The run is cut before the line, and the rule is that of the phase in between.
    obtain ⟨phase, hfirst, hsecond⟩ := htrail.split
    cases hsecond with
    | cons hrule hrest =>
      refine ⟨first.map Prod.fst, line, rule, second.map Prod.fst, ?_, ⟨first, phase, hfirst, rfl,
        hrule⟩, ?_⟩
      · rw [← hlines, List.map_append, List.map_cons]
      · rwa [List.length_map, Nat.add_comm]
  · rintro ⟨before, line, rule, after, rfl, ⟨first, phase, hfirst, rfl, hrule⟩, hd⟩
    obtain ⟨second, phase', hsecond, rfl⟩ := exists_trail_standard after rule.next
    -- The lines have one run, so it is the one through the given rule.
    obtain ⟨rfl, -⟩ := htrail.unique (hfirst.append (.cons hrule hsecond))
      (hlines.trans (by rw [List.map_append, List.map_cons]))
    refine ⟨first, line, rule, second, rfl, ?_⟩
    rwa [List.length_map, Nat.add_comm] at hd
  · split
    · rename_i hfinal
      simp [hfinal]
    · rename_i hfinal
      simp [hfinal]

/-- The rules of all phases. -/
def RuleTable.standardRules : List Rule := startRules ++ endRules ++ doneRules

/-- The remarks that do not quote their line, and the one on the end of the file. -/
def fixedMessages : List String :=
  ["one-line comment found", "javadoc comment found", "no previous header comment",
    unterminatedMessage]

theorem mem_standardRules_of_applies (h : Applies before line rule) : rule ∈ standardRules := by
  obtain ⟨trail, phase, -, -, hrule⟩ := h
  rw [standardRules, List.mem_append, List.mem_append]
  cases phase with
  | seekStart => exact Or.inl (Or.inl (mem_of_firstMatch hrule rfl))
  | seekEnd => exact Or.inl (Or.inr (mem_of_firstMatch hrule rfl))
  | done => exact Or.inr (mem_of_firstMatch hrule rfl)

/-- Two rules quote their line, in the same words. Of the others one makes a remark that is no
warning. -/
theorem remark_cases (hrule : rule ∈ standardRules) (h : rule.remark = some remark) :
    (remark = unexpectedLine ∧ (rule = unexpected ∨ rule = strayStatement)) ∨
      (remark.quotesLine = false ∧ remark.wording ∈ fixedMessages ∧
        Text.ofString remark.wording ≠ Text.ofString unterminatedMessage ∧
          (remark.severity = .info → rule = package)) := by
  simp only [standardRules, startRules, endRules, doneRules, List.cons_append, List.nil_append,
    List.mem_cons, List.not_mem_nil, or_false] at hrule
  rcases hrule with rfl | rfl | rfl | rfl | rfl | rfl | rfl | rfl | rfl | rfl <;> cases h <;> decide

/-- No other remark begins with the words before a quoted line. -/
theorem ofString_ne_quotation {message : String} (h : message ∈ fixedMessages) (line : Text) :
    Text.ofString message ≠ Text.ofString "unexpected line: " ++ line := by
  have hno : ∀ m ∈ fixedMessages,
      (Text.ofString "unexpected line: ").isPrefixOf (Text.ofString m) = false := by decide
  intro heq
  have := hno message h
  rw [heq, List.isPrefixOf_iff_prefix.mpr (List.prefix_append _ line)] at this
  cases this

/-- A file that ends inside its header comment has a line to say so of. -/
theorem length_pos_of_finalPhase (h : (revise notice source lines).finalPhase = .seekEnd) :
    1 ≤ lines.length := by
  obtain ⟨trail, final, htrail, hlines⟩ := exists_trail_standard lines .seekStart
  rw [finalPhase_of_trail htrail hlines] at h
  subst h
  rcases htrail.final_cases hlines with ⟨h, -⟩ | ⟨-, blanks, opener, body, rfl, -⟩ | h
  · cases h
  · rw [List.length_append, List.length_cons]
    omega
  · cases h

theorem location_of_mem_diagnostics (h : d ∈ (revise notice source lines).diagnostics) :
    d.source = source ∧ 1 ≤ d.line ∧ d.line ≤ lines.length := by
  rcases mem_diagnostics_iff.mp h with ⟨before, line, rule, after, rfl, -, hd⟩ | ⟨hfinal, rfl⟩
  · obtain ⟨remark, -, rfl⟩ := Scanner.mem_remarks_iff.mp hd
    rw [List.length_append, List.length_cons]
    refine ⟨rfl, ?_, ?_⟩
    · change (1 : Int) ≤ (before.length + 1 : Nat)
      omega
    · change ((before.length + 1 : Nat) : Int) ≤ _
      omega
  · have := length_pos_of_finalPhase hfinal
    exact ⟨rfl, Int.ofNat_le.mpr this, Int.le_refl _⟩

/-- The remarks come one to a line, and then perhaps the one on the end of the file. -/
theorem exists_diagnostics_eq (notice : List Text) (source : String) (lines : List Text) :
    ∃ own : List Diagnostic, (revise notice source lines).diagnostics = own ++
        (if (revise notice source lines).finalPhase = .seekEnd
          then [Scanner.unterminated source lines.length] else []) ∧
      own.Pairwise fun d d' => d.line < d'.line := by
  obtain ⟨trail, final, htrail, hlines⟩ := exists_trail_standard lines .seekStart
  refine ⟨Trail.remarks source 1 trail, ?_, Trail.pairwise_remarks source 1 trail⟩
  rw [diagnostics_of_trail htrail hlines, finalPhase_of_trail htrail hlines]

theorem pairwise_diagnostics (notice : List Text) (source : String) (lines : List Text) :
    (revise notice source lines).diagnostics.Pairwise fun d d' => d.line ≤ d'.line := by
  obtain ⟨own, hown, hpairwise⟩ := exists_diagnostics_eq notice source lines
  have hmem : ∀ d ∈ own, d.line ≤ lines.length := fun d hd =>
    (location_of_mem_diagnostics (hown ▸ List.mem_append_left _ hd)).2.2
  rw [hown, List.pairwise_append]
  refine ⟨hpairwise.imp Int.le_of_lt, ?_, fun d hd d' hd' => ?_⟩
  · split <;> simp
  · split at hd'
    · rw [List.mem_singleton.mp hd']
      exact hmem d hd
    · cases hd'

theorem exists_info_iff : (∃ d ∈ (revise notice source lines).diagnostics, d.severity = .info) ↔
    ∃ before line after, lines = before ++ line :: after ∧ Applies before line package := by
  constructor
  · rintro ⟨d, hd, hinfo⟩
    rcases mem_diagnostics_iff.mp hd with ⟨before, line, rule, after, hlines, happlies, hd⟩ | ⟨-, rfl⟩
    · obtain ⟨remark, hremark, rfl⟩ := Scanner.mem_remarks_iff.mp hd
      rcases remark_cases (mem_standardRules_of_applies happlies) hremark with
        ⟨rfl, -⟩ | ⟨-, -, -, hpackage⟩
      · cases hinfo
      · exact ⟨before, line, after, hlines, hpackage hinfo ▸ happlies⟩
    · cases hinfo
  · rintro ⟨before, line, after, hlines, happlies⟩
    exact ⟨_, mem_diagnostics_iff.mpr (Or.inl ⟨before, line, package, after, hlines, happlies,
      Scanner.mem_remarks_iff.mpr ⟨_, rfl, rfl⟩⟩), rfl⟩

/-- The remark on a package line is the only one on its file. -/
theorem diagnostics_of_package (hlines : lines = before ++ line :: after)
    (h : Applies before line package) : (revise notice source lines).diagnostics =
      [⟨.info, Text.ofString "no previous header comment", source, (before.length + 1 : Nat)⟩] := by
  obtain ⟨hblanks, hline⟩ := applies_package_iff.mp h
  subst hlines
  rw [diagnostics_of_trail (trail_lead hblanks (firstMatch_of_packageLine hline) rfl after)
    (map_fst_lead ..), if_neg (by decide), List.append_nil, Trail.remarks_append,
    Trail.remarks_stretch rfl, Trail.remarks, Trail.remarks_stretch rfl, List.nil_append,
    List.append_nil, List.length_map, Nat.add_comm 1]
  rfl

/-- A line is quoted with a warning just if a rule that quotes its line applies to it. -/
theorem quotation_mem_diagnostics_iff {k : Nat} :
    ⟨.warning, Text.ofString "unexpected line: " ++ line, source, k⟩ ∈
        (revise notice source lines).diagnostics ↔
      ∃ before after, lines = before ++ line :: after ∧ k = before.length + 1 ∧
        (Applies before line unexpected ∨ Applies before line strayStatement) := by
  rw [mem_diagnostics_iff]
  constructor
  · rintro (⟨before, own, rule, after, rfl, happlies, hd⟩ | ⟨-, hd⟩)
    · obtain ⟨remark, hremark, hd⟩ := Scanner.mem_remarks_iff.mp hd
      obtain ⟨-, hmessage, -, hk⟩ := Diagnostic.mk.inj hd
      rcases remark_cases (mem_standardRules_of_applies happlies) hremark with
        ⟨rfl, hrule⟩ | ⟨hquotes, hfixed, -, -⟩
      · obtain rfl : line = own := List.append_cancel_left hmessage
        refine ⟨before, after, rfl, Int.ofNat.inj hk, ?_⟩
        rcases hrule with rfl | rfl
        · exact Or.inl happlies
        · exact Or.inr happlies
      · rw [Remark.message, hquotes, if_neg Bool.false_ne_true, List.append_nil] at hmessage
        exact absurd hmessage.symm (ofString_ne_quotation hfixed line)
    · exact absurd (Diagnostic.mk.inj hd).2.1.symm (ofString_ne_quotation (by decide) line)
  · rintro ⟨before, after, rfl, rfl, happlies⟩
    left
    rcases happlies with happlies | happlies
    · exact ⟨before, line, _, after, rfl, happlies, Scanner.mem_remarks_iff.mpr ⟨_, rfl, rfl⟩⟩
    · exact ⟨before, line, _, after, rfl, happlies, Scanner.mem_remarks_iff.mpr ⟨_, rfl, rfl⟩⟩

theorem exists_unterminated_iff : (∃ d ∈ (revise notice source lines).diagnostics,
    d.message = Text.ofString unterminatedMessage) ↔
      (revise notice source lines).finalPhase = .seekEnd := by
  constructor
  · rintro ⟨d, hd, hmessage⟩
    rcases mem_diagnostics_iff.mp hd with ⟨before, line, rule, after, -, happlies, hd⟩ | ⟨hfinal, -⟩
    · -- No rule makes a remark in these words.
      obtain ⟨remark, hremark, rfl⟩ := Scanner.mem_remarks_iff.mp hd
      rcases remark_cases (mem_standardRules_of_applies happlies) hremark with
        ⟨rfl, -⟩ | ⟨hquotes, -, hne, -⟩
      · exact absurd hmessage.symm (ofString_ne_quotation (by decide) line)
      · simp only [Remark.message, hquotes, Bool.false_eq_true, if_false, List.append_nil] at hmessage
        exact absurd hmessage hne
    · exact hfinal
  · intro hfinal
    exact ⟨_, mem_diagnostics_iff.mpr (Or.inr ⟨hfinal, rfl⟩), rfl⟩

end Remarks

/-! ### All of them -/

/-- The remarks of a revision stand where they belong in the lines of the file. -/
structure Located (source : String) (lines : List Text) (r : Revision) : Prop where
  /-- The numbers are those of lines of the file. -/
  in_file : ∀ d ∈ r.diagnostics, d.source = source ∧ 1 ≤ d.line ∧ d.line ≤ lines.length
  /-- The remarks come in the order of their lines. -/
  in_order : r.diagnostics.Pairwise fun d d' => d.line ≤ d'.line
  /-- No line has two remarks, but for the one on the end of a file that ends inside its header. -/
  one_each : ∃ own : List Diagnostic, r.diagnostics = own ++
      (if r.finalPhase = .seekEnd then [Scanner.unterminated source lines.length] else []) ∧
    own.Pairwise fun d d' => d.line < d'.line
  /-- There is a remark that is no warning just if the rule for a package line applies. -/
  info_iff : (∃ d ∈ r.diagnostics, d.severity = .info) ↔
    ∃ before line after, lines = before ++ line :: after ∧ Applies before line package
  /-- Such a rule applies to the first line that is not blank, and makes the only remark. -/
  info_once : ∀ before line after, lines = before ++ line :: after → Applies before line package →
    (∀ l ∈ before, l.isBlank) ∧ line.isBlank = false ∧ r.diagnostics =
      [⟨.info, Text.ofString "no previous header comment", source, (before.length + 1 : Nat)⟩]
  /-- A warning quotes a line, just as it is, if that line is the first one that is not blank and of
  no kind that is known there, or if it is a statement inside the header comment. -/
  unexpected_iff : ∀ (k : Nat) (line : Text),
    ⟨.warning, Text.ofString "unexpected line: " ++ line, source, k⟩ ∈ r.diagnostics ↔
      ∃ before after, lines = before ++ line :: after ∧ k = before.length + 1 ∧
        (((∀ l ∈ before, l.isBlank) ∧ ∀ rule ∈ leadRules, rule.pattern.accepts line = false) ∨
          (EndsInComment before ∧ line.closes = false ∧ line.isStatement))
  /-- A warning says that the header is never closed if the scan ends inside it. -/
  unterminated_iff : (∃ d ∈ r.diagnostics, d.message = Text.ofString unterminatedMessage) ↔
    r.finalPhase = .seekEnd

/-- Every scan with the standard rules gives remarks that stand where they belong. -/
theorem located_scan (notice : List Text) (source : String) (lines : List Text) :
    ∃ r, (Scanner.standard notice).scan source lines = .ok r ∧ Located source lines r := by
  refine ⟨revise notice source lines, scan_standard notice source lines, ?_⟩
  refine ⟨fun d hd => location_of_mem_diagnostics hd, pairwise_diagnostics notice source lines,
    exists_diagnostics_eq notice source lines, exists_info_iff, ?_, ?_, exists_unterminated_iff⟩
  · intro before line after hlines happlies
    obtain ⟨hblanks, hline⟩ := applies_package_iff.mp happlies
    exact ⟨hblanks, (Pattern.exists_trim_of_packageLine hline).1,
      diagnostics_of_package hlines happlies⟩
  · intro k line
    simp only [quotation_mem_diagnostics_iff, applies_unexpected_iff, applies_strayStatement_iff]

end Letterhead
