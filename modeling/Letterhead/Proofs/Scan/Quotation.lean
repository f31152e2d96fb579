import Letterhead.Proofs.Encoding.Proper
import Letterhead.Proofs.Scan.ClosedForm

/-!
# The lines that remarks quote

Some remarks of the scanner quote the line they are about. Which lines are quoted is read off the
same cuts as the new file: if the file begins with a comment, they are the statements before the
first line that closes it, and else the first line that is not blank, unless the scanner knows what
it is. A stray byte in such a line gets into the message of the remark.

## Main definitions

* `quotedLines` — the lines of a file that are quoted

## Main results

* `quoted_trail` — the rules that quote their lines are applied to the quoted lines
* `all_isProper_diagnostics` — the messages on a file are proper if the quoted lines are
-/

namespace Letterhead

open RuleTable

/-- The lines of a file that the remarks on it quote. -/
def quotedLines (lines : List Text) : List Text :=
  match lines.dropWhile Text.isBlank with
  | [] => []
  | line :: rest =>
    if Pattern.packageLine.accepts line then []
    else if Pattern.commentOpen.accepts line then
      (rest.takeWhile (!·.closes)).filter Text.isStatement
    else if Pattern.oneLineComment.accepts line || Pattern.docOpen.accepts line then []
    else [line]

/-- Whether the remark of a rule quotes the line. -/
def Rule.quotesLine (rule : Rule) : Bool := rule.remark.any (·.quotesLine)

namespace RuleTable.Trail

/-- The lines of a trail that the remarks of its rules quote. -/
def quoted (trail : List (Text × Rule)) : List Text :=
  (trail.filter (·.2.quotesLine)).map Prod.fst

@[simp] theorem quoted_append (first second : List (Text × Rule)) :
    quoted (first ++ second) = quoted first ++ quoted second := by
  rw [quoted, List.filter_append, List.map_append, quoted, quoted]

theorem quoted_cons (line : Text) (rule : Rule) (rest : List (Text × Rule)) :
    quoted ((line, rule) :: rest) = (if rule.quotesLine then [line] else []) ++ quoted rest := by
  rw [quoted, List.filter_cons]
  split <;> rfl

theorem quoted_map (rule : Text → Rule) (lines : List Text) :
    quoted (lines.map fun line => (line, rule line)) =
      lines.filter fun line => (rule line).quotesLine := by
  rw [quoted, List.filter_map, map_fst_map_pair]
  rfl

/-- A rule that quotes no line quotes none of a stretch. -/
theorem quoted_stretch {rule : Rule} (h : rule.quotesLine = false) (lines : List Text) :
    quoted (lines.map fun line => (line, rule)) = [] := by
  rw [quoted_map fun _ => rule, h]
  exact List.filter_eq_nil_iff.mpr fun _ _ => Bool.false_ne_true

end RuleTable.Trail

/-! ### The quoted lines of each kind of file -/

section Kinds

variable {blanks body rest : List Text} {line opener closer : Text}

theorem quotesLine_bodyRule (line : Text) : (bodyRule line).quotesLine = line.isStatement := by
  rw [bodyRule]
  cases line.isStatement <;> rfl

theorem quoted_body (body : List Text) :
    Trail.quoted (body.map fun line => (line, bodyRule line)) = body.filter Text.isStatement := by
  rw [Trail.quoted_map]
  exact congrArg (List.filter · body) (funext quotesLine_bodyRule)

theorem quotesLine_foreignRule (line : Text) : (foreignRule line).quotesLine =
    !(Pattern.oneLineComment.accepts line || Pattern.docOpen.accepts line) := by
  rw [foreignRule]
  cases Pattern.oneLineComment.accepts line <;> cases Pattern.docOpen.accepts line <;> rfl

theorem quotedLines_package (hblanks : ∀ line ∈ blanks, line.isBlank)
    (h : Pattern.packageLine.accepts line) : quotedLines (blanks ++ line :: rest) = [] := by
  rw [quotedLines, dropWhile_append_cons hblanks (Pattern.exists_trim_of_packageLine h).1]
  exact if_pos h

theorem quotedLines_open (hblanks : ∀ line ∈ blanks, line.isBlank)
    (hopen : Pattern.commentOpen.accepts opener) : quotedLines (blanks ++ opener :: rest) =
      (rest.takeWhile (!·.closes)).filter Text.isStatement := by
  rw [quotedLines, dropWhile_append_cons hblanks (Pattern.not_isBlank_of_commentOpen hopen)]
  simp only [Pattern.not_packageLine_of_commentOpen hopen, hopen, Bool.false_eq_true, if_false,
    if_true]

theorem quotedLines_foreign (hblanks : ∀ line ∈ blanks, line.isBlank)
    (hline : line.isBlank = false) (hopen : Pattern.commentOpen.accepts line = false)
    (hpackage : Pattern.packageLine.accepts line = false) :
    quotedLines (blanks ++ line :: rest) = if (foreignRule line).quotesLine then [line] else [] := by
  rw [quotedLines, dropWhile_append_cons hblanks hline, quotesLine_foreignRule]
  simp only [hopen, hpackage, Bool.false_eq_true, if_false]
  cases Pattern.oneLineComment.accepts line || Pattern.docOpen.accepts line <;> rfl

/-- The rules that quote their lines are applied to the quoted lines, whichever way a file begins. -/
theorem quoted_trail {lines : List Text} {trail : List (Text × Rule)} {final : Phase}
    (h : Trail standard .seekStart trail final) (hlines : trail.map Prod.fst = lines) :
    Trail.quoted trail = quotedLines lines := by
  -- The lines have no other trail than the one that is known for their kind of file.
  cases region lines with
  | blank hblanks =>
    obtain ⟨rfl, -⟩ := h.unique (trail_blanks hblanks) (hlines.trans (map_fst_map_pair ..).symm)
    rw [Trail.quoted_stretch rfl, quotedLines, List.dropWhile_eq_nil_iff.mpr hblanks]
  | @package blanks rest line hblanks hline =>
    obtain ⟨rfl, -⟩ := h.unique (trail_lead hblanks (firstMatch_of_packageLine hline) rfl rest)
      (hlines.trans (map_fst_lead ..).symm)
    rw [Trail.quoted_append, Trail.quoted_cons, Trail.quoted_stretch rfl, Trail.quoted_stretch rfl,
      quotedLines_package hblanks hline]
    rfl
  | @header blanks body rest opener closer hblanks hheader =>
    obtain ⟨rfl, -⟩ := h.unique (trail_header hblanks hheader rest)
      (hlines.trans (map_fst_headerTrail ..).symm)
    rw [quotedLines_open hblanks hheader.opens,
      takeWhile_append_cons (by simpa using hheader.body_open) (by simpa using hheader.closes),
      headerTrail, Trail.quoted_append, Trail.quoted_cons, Trail.quoted_append, Trail.quoted_cons,
      Trail.quoted_stretch rfl, Trail.quoted_stretch rfl, quoted_body]
    exact List.append_nil _
  | @unclosed blanks body opener hblanks hopen hbody =>
    obtain ⟨rfl, -⟩ := h.unique (trail_unclosed hblanks hopen hbody)
      (hlines.trans (map_fst_lead ..).symm)
    have hopened : body.takeWhile (!·.closes) = body :=
      List.takeWhile_eq_self_iff.mpr fun line hline => by simp [hbody line hline]
    rw [quotedLines_open hblanks hopen, hopened, Trail.quoted_append, Trail.quoted_cons,
      Trail.quoted_stretch rfl, quoted_body]
    rfl
  | @foreign blanks rest line hblanks hline hopen hpackage =>
    obtain ⟨-, hnext, -⟩ := foreignRule_passes line
    obtain ⟨rfl, -⟩ := h.unique
      (trail_lead hblanks (firstMatch_of_foreign hline hopen hpackage) hnext rest)
      (hlines.trans (map_fst_lead ..).symm)
    rw [Trail.quoted_append, Trail.quoted_cons, Trail.quoted_stretch rfl, Trail.quoted_stretch rfl,
      quotedLines_foreign hblanks hline hopen hpackage, List.nil_append, List.append_nil]

end Kinds

/-! ### The messages -/

theorem Remark.isProper_message (r : Remark) (line : Text) :
    (r.message line).isProper = (!r.quotesLine || line.isProper) := by
  rw [message]
  cases r.quotesLine <;> simp

/-- The remark of a rule on its line is proper, unless it quotes the line and the line is not. -/
theorem Scanner.all_isProper_remarks (source : String) (number : Nat) (line : Text) (rule : Rule) :
    (remarks source number line rule).all (·.message.isProper) =
      (!rule.quotesLine || line.isProper) := by
  rw [remarks, Rule.quotesLine]
  cases rule.remark with
  | none => rfl
  | some remark => simp [Remark.isProper_message]

theorem RuleTable.Trail.all_isProper_remarks (source : String) (trail : List (Text × Rule)) :
    ∀ number, (remarks source number trail).all (·.message.isProper) =
      (quoted trail).all Text.isProper := by
  induction trail with
  | nil => exact fun _ => rfl
  | cons entry rest ih =>
    intro number
    obtain ⟨line, rule⟩ := entry
    rw [remarks, List.all_append, ih, Scanner.all_isProper_remarks, quoted_cons, List.all_append]
    cases rule.quotesLine <;> simp

/-- The messages of the remarks on a file are proper if the lines that they quote are. -/
theorem all_isProper_diagnostics (notice : List Text) (source : String) (lines : List Text) :
    (revise notice source lines).diagnostics.all (·.message.isProper) =
      (quotedLines lines).all Text.isProper := by
  obtain ⟨trail, final, htrail, hlines⟩ := exists_trail_standard lines .seekStart
  rw [← quoted_trail htrail hlines, ← Trail.all_isProper_remarks source trail 1,
    revise_of_trail htrail hlines, Scanner.conclude]
  split
  · -- The remark on a comment that is never closed has a fixed wording.
    rw [List.all_append]
    simp
  · rfl

end Letterhead
