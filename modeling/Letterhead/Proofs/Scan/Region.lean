import Letterhead.Proofs.Scan.Trail
import Letterhead.Proofs.Text.Lines

/-!
# The leading region of a file

However a file begins, it reads in one of five ways: nothing but blank lines, a package line without
a header, a header comment that is closed, one that is not, or something the scanner does not touch.
For each of the five this module gives the trail of the scanner, and so the revision in closed form.

## Main definitions

* `Region` — the five ways

## Main results

* `region` — every file reads in one of the five ways
* `revise_blank`, `revise_package`, `revise_header`, `revise_unclosed`, `revise_foreign` — what
  becomes of the lines in each of them
-/

namespace Letterhead

open RuleTable

/-- Whether a line closes a comment. -/
abbrev Text.closes (line : Text) : Bool := Pattern.commentClose.accepts line

/-- Whether a line is a package or import statement. -/
abbrev Text.isStatement (line : Text) : Bool := Pattern.statement.accepts line

/-- A comment over several lines: one that it opens on, others on which it is not closed, and one
that closes it. -/
structure IsHeader (opener : Text) (body : List Text) (closer : Text) : Prop where
  opens : Pattern.commentOpen.accepts opener
  body_open : ∀ line ∈ body, line.closes = false
  closes : closer.closes

/-- The ways in which the lines of a file begin. -/
inductive Region : List Text → Prop
  /-- Only blank lines. -/
  | blank {blanks : List Text} : (∀ line ∈ blanks, line.isBlank) → Region blanks
  /-- A package line, and no comment before it. -/
  | package {blanks rest : List Text} {line : Text} :
      (∀ line ∈ blanks, line.isBlank) → Pattern.packageLine.accepts line →
        Region (blanks ++ line :: rest)
  /-- A header comment. -/
  | header {blanks body rest : List Text} {opener closer : Text} :
      (∀ line ∈ blanks, line.isBlank) → IsHeader opener body closer →
        Region (blanks ++ opener :: (body ++ closer :: rest))
  /-- A comment that is opened and never closed. -/
  | unclosed {blanks body : List Text} {opener : Text} :
      (∀ line ∈ blanks, line.isBlank) → Pattern.commentOpen.accepts opener →
        (∀ line ∈ body, line.closes = false) → Region (blanks ++ opener :: body)
  /-- A first line of another kind. -/
  | foreign {blanks rest : List Text} {line : Text} :
      (∀ line ∈ blanks, line.isBlank) → line.isBlank = false →
        Pattern.commentOpen.accepts line = false → Pattern.packageLine.accepts line = false →
          Region (blanks ++ line :: rest)

/-- Every file begins in one of the five ways. -/
theorem region (lines : List Text) : Region lines := by
  -- The first line that is not blank decides, and if it opens a comment, the first that closes it.
  rcases exists_split Text.isBlank lines with hblanks | ⟨blanks, line, rest, rfl, hblanks, hline⟩
  · exact .blank hblanks
  cases hpackage : Pattern.packageLine.accepts line with
  | true => exact .package hblanks hpackage
  | false =>
    cases hopen : Pattern.commentOpen.accepts line with
    | false => exact .foreign hblanks hline hopen hpackage
    | true =>
      rcases exists_split (fun l => !l.closes) rest with hbody | ⟨body, closer, rest, rfl, hbody, hc⟩
      · exact .unclosed hblanks hopen fun l hl => by simpa using hbody l hl
      · exact .header hblanks ⟨hopen, fun l hl => by simpa using hbody l hl, by simpa using hc⟩

/-! ### Trails of the parts -/

section Parts

variable {blanks body : List Text}

/-- The rule for a line inside the header that does not close it. -/
def bodyRule (line : Text) : Rule := if line.isStatement then strayStatement else commentBody

theorem trail_blanks (h : ∀ line ∈ blanks, line.isBlank) :
    Trail standard .seekStart (blanks.map fun line => (line, leadingBlank)) .seekStart :=
  Trail.stay (fun _ => leadingBlank) fun line hline => ⟨firstMatch_of_isBlank (h line hline), rfl⟩

theorem trail_body (h : ∀ line ∈ body, line.closes = false) :
    Trail standard .seekEnd (body.map fun line => (line, bodyRule line)) .seekEnd := by
  refine Trail.stay bodyRule fun line hline => ?_
  cases hstatement : line.isStatement with
  | true =>
    rw [bodyRule, if_pos hstatement]
    exact ⟨firstMatch_of_statement (h line hline) hstatement, rfl⟩
  | false =>
    rw [bodyRule, if_neg (by simp [hstatement])]
    exact ⟨firstMatch_of_body (h line hline) hstatement, rfl⟩

theorem trail_rest (rest : List Text) :
    Trail standard .done (rest.map fun line => (line, passthrough)) .done :=
  Trail.stay (fun _ => passthrough) fun line _ => ⟨firstMatch_done line, rfl⟩

@[simp] theorem emitted_blanks (notice blanks : List Text) :
    Trail.emitted notice (blanks.map fun line => (line, leadingBlank)) = [] := by
  induction blanks with
  | nil => rfl
  | cons line blanks ih =>
    rw [List.map_cons, Trail.emitted_cons, ih]
    rfl

@[simp] theorem emitted_body (notice body : List Text) :
    Trail.emitted notice (body.map fun line => (line, bodyRule line)) =
      body.filter Text.isStatement := by
  induction body with
  | nil => rfl
  | cons line body ih =>
    rw [List.map_cons, Trail.emitted_cons, ih, bodyRule]
    cases h : line.isStatement with
    | true =>
      rw [if_pos rfl, List.filter_cons_of_pos h]
      rfl
    | false =>
      rw [if_neg Bool.false_ne_true, List.filter_cons_of_neg (by simp [h])]
      rfl

@[simp] theorem emitted_rest (notice rest : List Text) :
    Trail.emitted notice (rest.map fun line => (line, passthrough)) = rest := by
  induction rest with
  | nil => rfl
  | cons line rest ih =>
    rw [List.map_cons, Trail.emitted_cons, ih]
    rfl

@[simp] theorem marked_blanks (blanks : List Text) :
    Trail.marked (blanks.map fun line => (line, leadingBlank)) = !blanks.isEmpty := by
  cases blanks <;> rfl

@[simp] theorem marked_rest (rest : List Text) :
    Trail.marked (rest.map fun line => (line, passthrough)) = false := by
  induction rest with
  | nil => rfl
  | cons line rest ih =>
    rw [List.map_cons, Trail.marked_cons, ih]
    rfl

@[simp] theorem map_fst_map_pair (lines : List Text) (rule : Text → Rule) :
    (lines.map fun line => (line, rule line)).map Prod.fst = lines := by
  rw [List.map_map]
  exact List.map_id lines

theorem map_fst_lead (blanks : List Text) (line : Text) (rule : Rule) (rest : List Text)
    (ruleAfter : Text → Rule) :
    (blanks.map (fun l => (l, leadingBlank)) ++ (line, rule) ::
      rest.map fun l => (l, ruleAfter l)).map Prod.fst = blanks ++ line :: rest := by
  rw [List.map_append, List.map_cons, map_fst_map_pair, map_fst_map_pair]

/-- The trail of a file whose first line that is not blank ends the search for a header. -/
theorem trail_lead {line : Text} {rule : Rule} (hblanks : ∀ line ∈ blanks, line.isBlank)
    (hrule : standard.firstMatch .seekStart line = .ok rule) (hnext : rule.next = .done)
    (rest : List Text) :
    Trail standard .seekStart (blanks.map (fun l => (l, leadingBlank)) ++ (line, rule) ::
      rest.map fun l => (l, passthrough)) .done := by
  refine (trail_blanks hblanks).append (.cons hrule ?_)
  rw [hnext]
  exact trail_rest rest

/-- The trail of a file that ends inside its first comment. -/
theorem trail_unclosed {opener : Text} (hblanks : ∀ line ∈ blanks, line.isBlank)
    (hopen : Pattern.commentOpen.accepts opener) (hbody : ∀ line ∈ body, line.closes = false) :
    Trail standard .seekStart (blanks.map (fun l => (l, leadingBlank)) ++ (opener, commentOpen) ::
      body.map fun l => (l, bodyRule l)) .seekEnd :=
  (trail_blanks hblanks).append (.cons (firstMatch_of_commentOpen hopen) (trail_body hbody))

/-- The trail of a file that begins with a header comment. -/
def headerTrail (blanks : List Text) (opener : Text) (body : List Text) (closer : Text)
    (rest : List Text) : List (Text × Rule) :=
  blanks.map (fun line => (line, leadingBlank)) ++ (opener, commentOpen) ::
    (body.map (fun line => (line, bodyRule line)) ++ (closer, commentClose) ::
      rest.map fun line => (line, passthrough))

theorem trail_header {opener closer : Text} (hblanks : ∀ line ∈ blanks, line.isBlank)
    (h : IsHeader opener body closer) (rest : List Text) :
    Trail standard .seekStart (headerTrail blanks opener body closer rest) .done :=
  (trail_blanks hblanks).append
    (.cons (firstMatch_of_commentOpen h.opens)
      ((trail_body h.body_open).append
        (.cons (firstMatch_of_commentClose h.closes) (trail_rest rest))))

theorem map_fst_headerTrail (blanks : List Text) (opener : Text) (body : List Text)
    (closer : Text) (rest : List Text) :
    (headerTrail blanks opener body closer rest).map Prod.fst =
      blanks ++ opener :: (body ++ closer :: rest) := by
  simp only [headerTrail, List.map_append, List.map_cons, map_fst_map_pair]

end Parts

/-! ### The revision in each of the five ways -/

section Revisions

variable {blanks body : List Text} {line opener closer : Text}

theorem revise_blank (h : ∀ line ∈ blanks, line.isBlank) (notice : List Text) (source : String) :
    (revise notice source blanks).lines = [] ∧
      (revise notice source blanks).changed = !blanks.isEmpty ∧
      (revise notice source blanks).finalPhase = .seekStart := by
  have := revise_of_trail_done (trail_blanks h) (map_fst_map_pair ..) (by decide) notice source
  rwa [emitted_blanks, marked_blanks] at this

theorem revise_package (hblanks : ∀ line ∈ blanks, line.isBlank)
    (h : Pattern.packageLine.accepts line) (notice : List Text) (source : String)
    (rest : List Text) :
    (revise notice source (blanks ++ line :: rest)).lines = notice ++ [] :: line :: rest ∧
      (revise notice source (blanks ++ line :: rest)).changed = true ∧
      (revise notice source (blanks ++ line :: rest)).finalPhase = .done := by
  have htrail := trail_lead hblanks (firstMatch_of_packageLine h) rfl rest
  have := revise_of_trail_done htrail (map_fst_lead ..) (by decide) notice source
  simpa [Action.emit, package] using this

theorem revise_header (hblanks : ∀ line ∈ blanks, line.isBlank) (h : IsHeader opener body closer)
    (notice : List Text) (source : String) (rest : List Text) :
    let r := revise notice source (blanks ++ opener :: (body ++ closer :: rest))
    r.lines = body.filter Text.isStatement ++ (notice ++ rest) ∧ r.changed = true ∧
      r.finalPhase = .done := by
  have := revise_of_trail_done (trail_header hblanks h rest) (map_fst_headerTrail ..) (by decide)
    notice source
  simpa [headerTrail, commentOpen, commentClose, Action.emit] using this

theorem revise_unclosed (hblanks : ∀ line ∈ blanks, line.isBlank)
    (hopen : Pattern.commentOpen.accepts opener) (hbody : ∀ line ∈ body, line.closes = false)
    (notice : List Text) (source : String) :
    (revise notice source (blanks ++ opener :: body)).lines = blanks ++ opener :: body ∧
      (revise notice source (blanks ++ opener :: body)).changed = false ∧
      (revise notice source (blanks ++ opener :: body)).finalPhase = .seekEnd := by
  rw [revise_of_trail (trail_unclosed hblanks hopen hbody) (map_fst_lead ..)]
  exact ⟨rfl, rfl, rfl⟩

theorem revise_foreign (hblanks : ∀ line ∈ blanks, line.isBlank) (hline : line.isBlank = false)
    (hopen : Pattern.commentOpen.accepts line = false)
    (hpackage : Pattern.packageLine.accepts line = false) (notice : List Text) (source : String)
    (rest : List Text) :
    (revise notice source (blanks ++ line :: rest)).lines = line :: rest ∧
      (revise notice source (blanks ++ line :: rest)).changed = !blanks.isEmpty ∧
      (revise notice source (blanks ++ line :: rest)).finalPhase = .done := by
  obtain ⟨rule, hrule, hpass, hnext, hmarks⟩ := exists_firstMatch_of_foreign hline hopen hpackage
  have htrail := trail_lead hblanks hrule hnext rest
  have := revise_of_trail_done htrail (map_fst_lead ..) (by decide) notice source
  simpa [hpass, hmarks, Action.emit] using this

end Revisions

/-- A file that is left as it is keeps its lines. -/
theorem revise_of_not_changed {notice : List Text} {source : String} {lines : List Text}
    (h : (revise notice source lines).changed = false) :
    (revise notice source lines).lines = lines := by
  cases region lines with
  | blank hblanks =>
    obtain ⟨hlines, hchanged, -⟩ := revise_blank hblanks notice source
    rw [hchanged, Bool.not_eq_false', List.isEmpty_iff] at h
    rw [hlines, h]
  | @package blanks rest line hblanks hline =>
    rw [(revise_package hblanks hline notice source rest).2.1] at h
    cases h
  | @header blanks body rest opener closer hblanks hheader =>
    rw [(revise_header hblanks hheader notice source rest).2.1] at h
    cases h
  | unclosed hblanks hopen hbody => exact (revise_unclosed hblanks hopen hbody notice source).1
  | @foreign blanks rest line hblanks hline hopen hpackage =>
    obtain ⟨hlines, hchanged, -⟩ :=
      revise_foreign hblanks hline hopen hpackage notice source rest
    rw [hchanged, Bool.not_eq_false', List.isEmpty_iff] at h
    rw [hlines, h]
    rfl

end Letterhead
