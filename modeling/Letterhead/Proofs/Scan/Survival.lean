import Letterhead.Proofs.Scan.Rescan

/-!
# Notices that survive

Which notices a scanned file can be scanned again with, and stay as it is. Where the first scan has
kept no statement from inside an old header, only the notice itself can be in the way, when it comes
to stand first: it may begin like a package line, and then the notice is put in above it; or it may
open a comment, and then the second scan replaces everything up to the first line that closes one.
That must be the notice, the whole of it and nothing else.

## Main definitions

* `KeepsNoStatement` — no statement is kept from inside a header comment
* `IsStable` — a notice that the scanner leaves alone, or takes for one header

## Main results

* `isStable_iff_rescan` — a notice is stable just if no second scan changes anything
-/

namespace Letterhead

open RuleTable

/-- The rule for stray statements applies to no line of a scan. -/
def KeepsNoStatement (lines : List Text) : Prop :=
  ∃ trail final, Trail standard .seekStart trail final ∧ trail.map Prod.fst = lines ∧
    strayStatement ∉ trail.map Prod.snd

/-- A notice, by its first line and the others. It does not begin like a package line, and if it opens
a comment on its first line, then the first line after it that closes one is the last line of the
notice, and no line before that is a statement. -/
def IsStable (first : Text) (others : List Text) : Prop :=
  Pattern.packageLine.accepts first = false ∧
    (Pattern.commentOpen.accepts first → ∃ body closer, others = body ++ [closer] ∧
      closer.closes ∧ (∀ line ∈ body, line.closes = false) ∧
        ∀ line ∈ first :: body, line.isStatement = false)

/-! ### Statements in the first scan -/

theorem KeepsNoStatement.not_keepsPackageLine {lines : List Text} (h : KeepsNoStatement lines) :
    ¬ KeepsPackageLine lines := by
  rintro ⟨trail, htrail, rfl, -, first, more, hstrays, -⟩
  obtain ⟨trail', final, htrail', hlines, hnone⟩ := h
  obtain ⟨rfl, -⟩ := htrail'.unique htrail hlines
  have hfirst : first ∈ strays trail' := by simp [hstrays]
  obtain ⟨entry, hentry, -⟩ := List.mem_map.mp hfirst
  obtain ⟨hmem, hrule⟩ := List.mem_filter.mp hentry
  rw [decide_eq_true_eq] at hrule
  exact hnone (hrule ▸ List.mem_map_of_mem hmem)

/-- Where a package line comes first, no header is looked for behind it. -/
theorem keepsNoStatement_of_packageLine {line : Text} (h : Pattern.packageLine.accepts line)
    (rest : List Text) : KeepsNoStatement (line :: rest) := by
  have htrail := trail_lead noBlanks (firstMatch_of_packageLine h) rfl rest
  refine ⟨_, .done, htrail, map_fst_lead .., ?_⟩
  rw [mem_rules_lead_iff (by decide) (by decide)]
  decide

/-- A statement starts with a letter, so no comment is opened on its line. -/
theorem commentOpen_of_isStatement {line : Text} (h : line.isStatement) :
    Pattern.commentOpen.accepts line = false := by
  rw [← Bool.not_eq_true]
  intro hopen
  have hforeign := foreign_of_isStatement h (Pattern.not_packageLine_of_commentOpen hopen)
  rw [hforeign.2] at hopen
  cases hopen

/-! ### A notice that stands first -/

section Notice

variable {first : Text} {others : List Text}

/-- A stable notice that stands first is left alone, or replaced by itself. -/
theorem IsStable.revise_lines (h : IsStable first others) (hblank : first.isBlank = false)
    (source : String) (rest : List Text) :
    (revise (first :: others) source (first :: others ++ rest)).lines = first :: others ++ rest := by
  obtain ⟨hpackage, hcomment⟩ := h
  cases hopen : Pattern.commentOpen.accepts first with
  | false => exact (revise_foreign noBlanks hblank hopen hpackage (first :: others) source _).1
  | true =>
    obtain ⟨body, closer, rfl, hcloses, hbody, hstatements⟩ := hcomment hopen
    refine revise_isClean ⟨first, body, closer, rfl, ⟨hopen, hbody, hcloses⟩, ?_⟩ source rest
    intro line hline
    exact hstatements line (List.mem_cons_of_mem _ hline)

/-- The package line that breaking inputs are made with. It is a statement too, so that a comment that
is opened above it keeps it. -/
def samplePackageLine : Text := Text.ofString "package a;"

/-- A comment that the notice leaves open runs on into the file, to the next line that closes one. A
package line on the way is kept, so that a statement comes first then. -/
theorem revise_open_notice (hopen : Pattern.commentOpen.accepts first)
    (hnone : ∀ line ∈ others, line.closes = false) (source : String) :
    ∃ line kept, line.isStatement ∧
      (revise (first :: others) source
        (first :: others ++ [] :: samplePackageLine :: [Pattern.closing])).lines = line :: kept := by
  have hheader : IsHeader first (others ++ [[], samplePackageLine]) Pattern.closing := by
    refine ⟨hopen, fun line hline => ?_, by decide⟩
    rcases List.mem_append.mp hline with hline | hline
    · exact hnone line hline
    · have hlast : ∀ line ∈ ([[], samplePackageLine] : List Text), line.closes = false := by decide
      exact hlast line hline
  -- For the second scan the notice and the package line are one header, down to the closing line.
  have hshape : first :: others ++ [] :: samplePackageLine :: [Pattern.closing] =
      [] ++ first :: ((others ++ [[], samplePackageLine]) ++ Pattern.closing :: []) := by simp
  rw [hshape, (revise_header noBlanks hheader _ source []).1]
  have hkept : samplePackageLine ∈ (others ++ [[], samplePackageLine]).filter Text.isStatement :=
    List.mem_filter.mpr ⟨by simp, by decide⟩
  cases hfilter : (others ++ [[], samplePackageLine]).filter Text.isStatement with
  | nil => rw [hfilter] at hkept; cases hkept
  | cons line kept =>
    have hline : line ∈ (others ++ [[], samplePackageLine]).filter Text.isStatement := by
      simp [hfilter]
    exact ⟨line, _, (List.mem_filter.mp hline).2, rfl⟩

/-- A notice that stands above a package line and is left as it is, whatever comes after that, is
stable. -/
theorem isStable_of_revise_lines (source : String)
    (h : ∀ rest, (revise (first :: others) source
        (first :: others ++ [] :: samplePackageLine :: rest)).lines =
      first :: others ++ [] :: samplePackageLine :: rest) : IsStable first others := by
  refine ⟨?_, fun hopen => ?_⟩
  · -- The notice would come in once more above its own package line.
    rw [← Bool.not_eq_true]
    intro hpackage
    have hlines := h []
    rw [List.cons_append, revise_of_packageLine hpackage] at hlines
    have := congrArg List.length hlines
    simp only [List.length_append, List.length_cons] at this
    omega
  have hfirst : first.isStatement = false := by
    rw [← Bool.not_eq_true]
    intro hstatement
    rw [commentOpen_of_isStatement hstatement] at hopen
    cases hopen
  rcases exists_split (fun line => !line.closes) others with
    hnone | ⟨body, closer, tail, rfl, hbody, hcloser⟩
  · -- The first line would be a statement that was kept.
    obtain ⟨line, kept, hline, hlines⟩ :=
      revise_open_notice hopen (fun line hline => by simpa using hnone line hline) source
    rw [h] at hlines
    rw [(List.cons.inj hlines).1, hline] at hfirst
    cases hfirst
  · have hheader : IsHeader first body closer :=
      ⟨hopen, fun line hline => by simpa using hbody line hline, by simpa using hcloser⟩
    -- The header that the notice begins is the notice, so nothing is left of it behind the closer.
    obtain ⟨hfilter, rfl⟩ := (revise_notice_iff rfl hheader source _).mp (h [])
    refine ⟨body, closer, rfl, hheader.closes, hheader.body_open, ?_⟩
    rw [List.forall_mem_cons]
    refine ⟨hfirst, fun line hline => ?_⟩
    exact Bool.eq_false_iff.mpr (List.filter_eq_nil_iff.mp hfilter line hline)

end Notice

/-- A notice that is not blank on its first line is stable just if a second scan leaves all lines as
the first one made them, unless that one kept a statement from inside an old header. -/
theorem isStable_iff_rescan {first : Text} {others : List Text} (hblank : first.isBlank = false)
    (source : String) :
    (∀ lines, KeepsNoStatement lines →
        (revise (first :: others) source (revise (first :: others) source lines).lines).lines =
          (revise (first :: others) source lines).lines) ↔
      IsStable first others := by
  constructor
  · intro h
    refine isStable_of_revise_lines source fun rest => ?_
    have hpackage : Pattern.packageLine.accepts samplePackageLine := by decide
    have hlines := h _ (keepsNoStatement_of_packageLine hpackage rest)
    rwa [revise_of_packageLine hpackage] at hlines
  · intro hstable lines hkeeps
    cases leaves (first :: others) source lines with
    | settled _ _ hstays => exact hstays (first :: others) source
    | @notice rest _ _ hlines => rw [hlines, hstable.revise_lines hblank source rest]
    | package hpackage => exact absurd hpackage hkeeps.not_keepsPackageLine

/-- A notice that closes its comment before its last line does not survive. -/
theorem isStable_iff_rescan_inner_closer :
    Text.isBlank (Text.ofString "/*") = false ∧
      ((∀ lines, KeepsNoStatement lines →
        (revise (["/*", "a */", "*/"].map Text.ofString) "A"
            (revise (["/*", "a */", "*/"].map Text.ofString) "A" lines).lines).lines =
          (revise (["/*", "a */", "*/"].map Text.ofString) "A" lines).lines) ↔
        IsStable (Text.ofString "/*") (["a */", "*/"].map Text.ofString)) :=
  ⟨by decide, isStable_iff_rescan (by decide) "A"⟩

end Letterhead
