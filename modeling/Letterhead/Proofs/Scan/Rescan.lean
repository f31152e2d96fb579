import Letterhead.Proofs.Scan.Region

/-!
# Scanning what was scanned before

A scanned file may be scanned again, with the same notice. The second scan finds the notice where the
first one put it. Whether it then leaves the lines as they are depends on two things only. A notice
that is itself a comment may close before its last line, or hold statements, and is then not taken
for one header. And a package line kept from inside an old header comes to stand first, so that the
notice is put in once more above it. A third scan never changes what a second one made with a notice
that is one header.

## Main definitions

* `IsClean`, `IsBlock` — notices that are one header comment, and that look like one at both ends
* `KeepsPackageLine`, `LeadsWithNotice` — what the first scan does, by the rules that apply in it
* `Leaves` — what the first scan leaves for the second

## Main results

* `rescan_eq_iff_of_isBlock` — when a second scan changes nothing
* `rescan_of_isClean` — the same for a notice that is one header, and what a third scan does
-/

namespace Letterhead

open RuleTable

/-- A notice that opens a comment on its first line and closes one on its last. -/
def IsBlock (notice : List Text) : Prop :=
  ∃ opener middle last, notice = opener :: (middle ++ [last]) ∧
    Pattern.commentOpen.accepts opener ∧ last.closes

/-- A notice that is one header comment, closed on its last line only and without a statement. -/
def IsClean (notice : List Text) : Prop :=
  ∃ opener body closer, notice = opener :: (body ++ [closer]) ∧ IsHeader opener body closer ∧
    ∀ line ∈ body, line.isStatement = false

/-- The statements that a run keeps from inside a header comment. -/
def strays (trail : List (Text × Rule)) : List Text :=
  (trail.filter (·.2 = strayStatement)).map Prod.fst

/-- The scan closes a header comment, and the first of the statements kept from inside it starts
like a package line. -/
def KeepsPackageLine (lines : List Text) : Prop :=
  ∃ trail, Trail standard .seekStart trail .done ∧ trail.map Prod.fst = lines ∧
    commentClose ∈ trail.map Prod.snd ∧
      ∃ first more, strays trail = first :: more ∧ Pattern.packageLine.accepts first

/-- The scan puts the notice first: above a package line, or in the place of a header comment that
no statement is kept from. -/
def LeadsWithNotice (lines : List Text) : Prop :=
  ∃ trail, Trail standard .seekStart trail .done ∧ trail.map Prod.fst = lines ∧
    (package ∈ trail.map Prod.snd ∨ commentClose ∈ trail.map Prod.snd ∧ strays trail = [])

theorem IsClean.isBlock {notice : List Text} (h : IsClean notice) : IsBlock notice := by
  obtain ⟨opener, body, closer, rfl, hheader, -⟩ := h
  exact ⟨opener, body, closer, rfl, hheader.opens, hheader.closes⟩

/-! ### What the first scan does -/

section FirstScan

variable {blanks body rest : List Text} {line opener closer : Text}

theorem strays_append (first second : List (Text × Rule)) :
    strays (first ++ second) = strays first ++ strays second := by
  rw [strays, List.filter_append, List.map_append]
  rfl

theorem strays_cons_of_ne {rule : Rule} (h : rule ≠ strayStatement) (line : Text)
    (trail : List (Text × Rule)) : strays ((line, rule) :: trail) = strays trail := by
  rw [strays, List.filter_cons_of_neg (by simpa using h)]
  rfl

theorem strays_map_of_ne {rule : Rule} (h : rule ≠ strayStatement) (lines : List Text) :
    strays (lines.map fun line => (line, rule)) = [] := by
  induction lines with
  | nil => rfl
  | cons line lines ih => rw [List.map_cons, strays_cons_of_ne h, ih]

theorem strays_body (body : List Text) :
    strays (body.map fun line => (line, bodyRule line)) = body.filter Text.isStatement := by
  induction body with
  | nil => rfl
  | cons line body ih =>
    rw [List.map_cons, bodyRule]
    cases h : line.isStatement with
    | true =>
      rw [if_pos rfl, strays, List.filter_cons_of_pos (by simp), List.map_cons,
        List.filter_cons_of_pos h, ← ih]
      rfl
    | false =>
      rw [if_neg Bool.false_ne_true, strays_cons_of_ne (by decide), ih,
        List.filter_cons_of_neg (by simp [h])]

theorem strays_headerTrail (blanks : List Text) (opener : Text) (body : List Text) (closer : Text)
    (rest : List Text) :
    strays (headerTrail blanks opener body closer rest) = body.filter Text.isStatement := by
  rw [headerTrail, strays_append, strays_map_of_ne (by decide), strays_cons_of_ne (by decide),
    strays_append, strays_body, strays_cons_of_ne (by decide), strays_map_of_ne (by decide),
    List.append_nil, List.nil_append]

/-- The rules that apply outside a header comment are those for blank lines, for the first other
line, and for the rest. -/
theorem mem_rules_lead_iff {rule first : Rule} (hblank : rule ≠ leadingBlank)
    (hrest : rule ≠ passthrough) (blanks : List Text) (line : Text) (rest : List Text) :
    rule ∈ (blanks.map (fun l => (l, leadingBlank)) ++ (line, first) ::
      rest.map fun l => (l, passthrough)).map Prod.snd ↔ rule = first := by
  simp only [List.map_append, List.map_cons, List.map_map, List.mem_append, List.mem_cons,
    List.mem_map, Function.comp_apply]
  constructor
  · rintro (⟨_, -, h⟩ | h | ⟨_, -, h⟩)
    · exact absurd h.symm hblank
    · exact h
    · exact absurd h.symm hrest
  · exact fun h => Or.inr (Or.inl h)

theorem commentClose_mem_headerTrail (blanks : List Text) (opener : Text) (body : List Text)
    (closer : Text) (rest : List Text) :
    commentClose ∈ (headerTrail blanks opener body closer rest).map Prod.snd := by
  simp [headerTrail]

theorem package_not_mem_headerTrail (blanks : List Text) (opener : Text) (body : List Text)
    (closer : Text) (rest : List Text) :
    package ∉ (headerTrail blanks opener body closer rest).map Prod.snd := by
  simp only [headerTrail, List.map_append, List.map_cons, List.map_map, List.mem_append,
    List.mem_cons, List.mem_map, Function.comp_apply]
  rintro (⟨_, -, h⟩ | h | ⟨_, -, h⟩ | h | ⟨_, -, h⟩)
  · exact absurd h (by decide)
  · exact absurd h (by decide)
  · rw [bodyRule] at h
    split at h <;> exact absurd h (by decide)
  · exact absurd h (by decide)
  · exact absurd h (by decide)

theorem not_keepsPackageLine_of_lead {first : Rule} (hfirst : first ≠ commentClose)
    (h : Trail standard .seekStart (blanks.map (fun l => (l, leadingBlank)) ++ (line, first) ::
      rest.map fun l => (l, passthrough)) .done) : ¬ KeepsPackageLine (blanks ++ line :: rest) := by
  rw [KeepsPackageLine, h.exists_iff (map_fst_lead ..),
    mem_rules_lead_iff (by decide) (by decide)]
  exact fun hclose => hfirst hclose.2.1.symm

theorem leadsWithNotice_lead_iff {first : Rule} (hfirst : first ≠ commentClose)
    (h : Trail standard .seekStart (blanks.map (fun l => (l, leadingBlank)) ++ (line, first) ::
      rest.map fun l => (l, passthrough)) .done) :
    LeadsWithNotice (blanks ++ line :: rest) ↔ first = package := by
  rw [LeadsWithNotice, h.exists_iff (map_fst_lead ..), mem_rules_lead_iff (by decide) (by decide),
    mem_rules_lead_iff (by decide) (by decide)]
  constructor
  · rintro ⟨-, hpackage | ⟨hclose, -⟩⟩
    · exact hpackage.symm
    · exact absurd hclose.symm hfirst
  · exact fun hpackage => ⟨rfl, Or.inl hpackage.symm⟩

theorem keepsPackageLine_header_iff (hblanks : ∀ line ∈ blanks, line.isBlank)
    (h : IsHeader opener body closer) (rest : List Text) :
    KeepsPackageLine (blanks ++ opener :: (body ++ closer :: rest)) ↔
      ∃ first more, body.filter Text.isStatement = first :: more ∧
        Pattern.packageLine.accepts first := by
  rw [KeepsPackageLine, (trail_header hblanks h rest).exists_iff (map_fst_headerTrail ..),
    strays_headerTrail]
  exact ⟨fun hkeeps => hkeeps.2.2, fun hkeeps => ⟨rfl, commentClose_mem_headerTrail .., hkeeps⟩⟩

theorem leadsWithNotice_header_iff (hblanks : ∀ line ∈ blanks, line.isBlank)
    (h : IsHeader opener body closer) (rest : List Text) :
    LeadsWithNotice (blanks ++ opener :: (body ++ closer :: rest)) ↔
      body.filter Text.isStatement = [] := by
  rw [LeadsWithNotice, (trail_header hblanks h rest).exists_iff (map_fst_headerTrail ..),
    strays_headerTrail]
  constructor
  · rintro ⟨-, hpackage | ⟨-, hstrays⟩⟩
    · exact absurd hpackage (package_not_mem_headerTrail blanks opener body closer rest)
    · exact hstrays
  · exact fun hstrays => ⟨rfl, Or.inr ⟨commentClose_mem_headerTrail .., hstrays⟩⟩

/-- A scan that does not come to the rest of the file neither keeps statements nor puts the notice
in. -/
theorem not_keeps_and_not_leads_of_ne_done {lines : List Text} {trail : List (Text × Rule)}
    {final : Phase} (h : Trail standard .seekStart trail final) (hlines : trail.map Prod.fst = lines)
    (hfinal : final ≠ .done) : ¬ KeepsPackageLine lines ∧ ¬ LeadsWithNotice lines := by
  rw [KeepsPackageLine, LeadsWithNotice, h.exists_iff hlines, h.exists_iff hlines]
  exact ⟨fun hkeeps => hfinal hkeeps.1, fun hleads => hfinal hleads.1⟩

end FirstScan

/-! ### What a second scan does -/

section SecondScan

variable {notice : List Text}

theorem noBlanks : ∀ line ∈ ([] : List Text), line.isBlank := List.forall_mem_nil _

/-- A statement that does not start like a package line starts with a letter all the same, and so is
foreign to the scanner where it comes first. -/
theorem foreign_of_isStatement {line : Text} (h : line.isStatement)
    (hpackage : Pattern.packageLine.accepts line = false) :
    line.isBlank = false ∧ Pattern.commentOpen.accepts line = false := by
  have himport : ∃ rest, line = Text.ofString "import" ++ rest := by
    change Pattern.isStatement line = true at h
    rw [Pattern.isStatement, Pattern.afterStatementWord?] at h
    cases hfirst : (Text.ofString "package").isPrefixOf? line with
    | some rest =>
      rw [isPrefixOf?_eq_some_iff.mp hfirst] at hpackage
      exact absurd (List.isPrefixOf_iff_prefix.mpr (List.prefix_append _ rest))
        (by rw [← Bool.not_eq_false] at *; exact fun hn => hn hpackage)
    | none =>
      cases hsecond : (Text.ofString "import").isPrefixOf? line with
      | some rest => exact ⟨rest, isPrefixOf?_eq_some_iff.mp hsecond⟩
      | none => rw [hfirst, hsecond] at h; cases h
  obtain ⟨rest, rfl⟩ := himport
  refine ⟨rfl, beq_eq_false_iff_ne.mpr ?_⟩
  have htrim : Text.trim (Text.ofString "import" ++ rest) = .scalar 'i' :: _ :=
    Text.trim_cons_of_not rfl _
  rw [htrim]
  exact fun heq => absurd (List.cons.inj heq).1 (by decide)

/-- A notice that begins with a header is found where it stands. The scanner leaves the lines as they
are just if the header is all of the notice and holds no statement. Otherwise the statements are kept
above the notice, or some of it stays behind, and the lines become more. -/
theorem revise_notice_iff {opener closer : Text} {body tail : List Text}
    (hnotice : notice = opener :: (body ++ closer :: tail)) (hheader : IsHeader opener body closer)
    (source : String) (rest : List Text) :
    (revise notice source (notice ++ rest)).lines = notice ++ rest ↔
      body.filter Text.isStatement = [] ∧ tail = [] := by
  have hshape : notice ++ rest = [] ++ opener :: (body ++ closer :: (tail ++ rest)) := by
    simp [hnotice]
  have hscan := (revise_header noBlanks hheader notice source (tail ++ rest)).1
  rw [← hshape] at hscan
  rw [hscan]
  constructor
  · intro heq
    have hlength := congrArg List.length heq
    simp only [List.length_append] at hlength
    exact ⟨List.eq_nil_of_length_eq_zero (by omega), List.eq_nil_of_length_eq_zero (by omega)⟩
  · rintro ⟨hfilter, rfl⟩
    simp [hfilter]

/-- A notice that is one header is found where it stands, and replaced by itself. -/
theorem revise_isClean (h : IsClean notice) (source : String) (rest : List Text) :
    (revise notice source (notice ++ rest)).lines = notice ++ rest := by
  obtain ⟨opener, body, closer, hnotice, hheader, hbody⟩ := h
  refine (revise_notice_iff hnotice hheader source rest).mpr ⟨?_, rfl⟩
  rw [List.filter_eq_nil_iff]
  intro line hline
  simp [hbody line hline]

/-- Where a notice that looks like a header stands first, the scanner leaves the lines as they are
just if the notice is one. -/
theorem revise_isBlock_iff (h : IsBlock notice) (source : String) (rest : List Text) :
    (revise notice source (notice ++ rest)).lines = notice ++ rest ↔ IsClean notice := by
  refine ⟨fun hlines => ?_, fun hclean => revise_isClean hclean source rest⟩
  obtain ⟨opener, middle, last, hnotice, hopen, hlast⟩ := h
  -- The scanner takes the header to end at the first line that closes one.
  rcases exists_split (fun l => !l.closes) (middle ++ [last]) with
    hnone | ⟨body, closer, tail, hsplit, hbody, hcloser⟩
  · have := hnone last (by simp)
    rw [hlast] at this
    cases this
  have hheader : IsHeader opener body closer :=
    ⟨hopen, fun l hl => by simpa using hbody l hl, by simpa using hcloser⟩
  rw [hsplit] at hnotice
  obtain ⟨hfilter, rfl⟩ := (revise_notice_iff hnotice hheader source rest).mp hlines
  refine ⟨opener, body, closer, hnotice, hheader, fun line hline => ?_⟩
  exact Bool.eq_false_iff.mpr (List.filter_eq_nil_iff.mp hfilter line hline)

/-- What a scan leaves for the next one. -/
inductive Leaves (notice : List Text) (source : String) (lines : List Text) : Prop
  /-- Lines that no notice changes. -/
  | settled (hkeeps : ¬ KeepsPackageLine lines) (hleads : ¬ LeadsWithNotice lines)
      (hstays : ∀ notice' source',
        (revise notice' source' (revise notice source lines).lines).lines =
          (revise notice source lines).lines)
  /-- The notice, and then other lines. -/
  | notice {rest : List Text} (hkeeps : ¬ KeepsPackageLine lines) (hleads : LeadsWithNotice lines)
      (hlines : (revise notice source lines).lines = notice ++ rest)
  /-- A package line, and then other lines. -/
  | package {line : Text} {rest : List Text} (hkeeps : KeepsPackageLine lines)
      (hleads : ¬ LeadsWithNotice lines) (hlines : (revise notice source lines).lines = line :: rest)
      (hline : Pattern.packageLine.accepts line)

/-- A closed header leaves what its first statement decides: without one the notice comes first, and
otherwise that statement does. -/
theorem leaves_header {blanks body rest : List Text} {opener closer : Text}
    (hblanks : ∀ line ∈ blanks, line.isBlank) (h : IsHeader opener body closer)
    (notice : List Text) (source : String) :
    Leaves notice source (blanks ++ opener :: (body ++ closer :: rest)) := by
  have hkeeps := keepsPackageLine_header_iff hblanks h rest
  have hleads := leadsWithNotice_header_iff hblanks h rest
  have hlines := (revise_header hblanks h notice source rest).1
  cases hstrays : body.filter Text.isStatement with
  | nil =>
    rw [hstrays] at hkeeps hleads hlines
    exact .notice (fun hk => by simpa using hkeeps.mp hk) (hleads.mpr rfl) hlines
  | cons first more =>
    have hstatement : first ∈ body.filter Text.isStatement := by simp [hstrays]
    rw [hstrays] at hkeeps hleads hlines
    have hnot : ¬ LeadsWithNotice (blanks ++ opener :: (body ++ closer :: rest)) := by
      rw [hleads]
      exact List.cons_ne_nil first more
    cases hpackage : Pattern.packageLine.accepts first with
    | true => exact .package (hkeeps.mpr ⟨first, more, rfl, hpackage⟩) hnot hlines hpackage
    | false =>
      obtain ⟨hblank, hopen⟩ := foreign_of_isStatement (List.mem_filter.mp hstatement).2 hpackage
      refine .settled (fun hk => ?_) hnot fun notice' source' => ?_
      · obtain ⟨_, _, heq, haccepts⟩ := hkeeps.mp hk
        rw [← (List.cons.inj heq).1, hpackage] at haccepts
        cases haccepts
      · rw [hlines]
        exact (revise_foreign noBlanks hblank hopen hpackage notice' source' _).1

/-- Every scan leaves one of the three. -/
theorem leaves (notice : List Text) (source : String) (lines : List Text) :
    Leaves notice source lines := by
  cases region lines with
  | blank hblanks =>
    obtain ⟨hkeeps, hleads⟩ := not_keeps_and_not_leads_of_ne_done (trail_blanks hblanks)
      (map_fst_map_pair ..) (by decide)
    refine .settled hkeeps hleads fun notice' source' => ?_
    rw [(revise_blank hblanks notice source).1, (revise_blank noBlanks notice' source').1]
  | @package blanks rest line hblanks hline =>
    have htrail := trail_lead hblanks (firstMatch_of_packageLine hline) rfl rest
    exact .notice (not_keepsPackageLine_of_lead (by decide) htrail)
      ((leadsWithNotice_lead_iff (by decide) htrail).mpr rfl)
      (revise_package hblanks hline notice source rest).1
  | header hblanks hheader => exact leaves_header hblanks hheader notice source
  | @unclosed blanks body opener hblanks hopen hbody =>
    obtain ⟨hkeeps, hleads⟩ := not_keeps_and_not_leads_of_ne_done
      (trail_unclosed hblanks hopen hbody) (map_fst_lead ..) (by decide)
    refine .settled hkeeps hleads fun notice' source' => ?_
    rw [(revise_unclosed hblanks hopen hbody notice source).1]
    exact (revise_unclosed hblanks hopen hbody notice' source').1
  | @foreign blanks rest line hblanks hline hopen hpackage =>
    obtain ⟨rule, hrule, hpass, hnext, -⟩ := exists_firstMatch_of_foreign hline hopen hpackage
    have htrail := trail_lead hblanks hrule hnext rest
    -- The rule passes the line on, so it neither closes a header nor puts the notice in.
    have hclose : rule ≠ commentClose := by
      rintro rfl
      cases hpass
    have hinsert : rule ≠ package := by
      rintro rfl
      cases hpass
    refine .settled (not_keepsPackageLine_of_lead hclose htrail) (fun hleads => ?_)
      fun notice' source' => ?_
    · exact hinsert ((leadsWithNotice_lead_iff hclose htrail).mp hleads)
    · rw [(revise_foreign hblanks hline hopen hpackage notice source rest).1]
      exact (revise_foreign noBlanks hline hopen hpackage notice' source' rest).1

/-- Above a package line that stands first the notice is put in. -/
theorem revise_of_packageLine {line : Text} (h : Pattern.packageLine.accepts line)
    (notice : List Text) (source : String) (rest : List Text) :
    (revise notice source (line :: rest)).lines = notice ++ [] :: line :: rest :=
  (revise_package noBlanks h notice source rest).1

/-- When a second scan leaves the lines as the first one made them, for a notice that looks like a
header. -/
theorem rescan_eq_iff_of_isBlock (h : IsBlock notice) (source : String) (lines : List Text) :
    (revise notice source (revise notice source lines).lines).lines =
        (revise notice source lines).lines ↔
      ¬ KeepsPackageLine lines ∧ (LeadsWithNotice lines → IsClean notice) := by
  cases leaves notice source lines with
  | settled hkeeps hleads hstays =>
    exact iff_of_true (hstays notice source) ⟨hkeeps, fun hl => absurd hl hleads⟩
  | notice hkeeps hleads hlines =>
    rw [hlines, revise_isBlock_iff h]
    exact ⟨fun hclean => ⟨hkeeps, fun _ => hclean⟩, fun hboth => hboth.2 hleads⟩
  | package hkeeps hleads hlines hline =>
    -- The notice comes in once more, so the lines become more.
    rw [hlines, revise_of_packageLine hline]
    refine iff_of_false (fun heq => ?_) fun hboth => hboth.1 hkeeps
    have := congrArg List.length heq
    simp only [List.length_append, List.length_cons] at this
    omega

end SecondScan

/-- For a notice that is one header, a second scan leaves the lines as they are unless the first one
kept a package line from inside a header comment and put it first. A third scan always does. -/
theorem rescan_of_isClean {notice : List Text} (h : IsClean notice) (source : String)
    (lines : List Text) :
    let first := revise notice source lines
    let second := revise notice source first.lines
    let third := revise notice source second.lines
    (second.lines = first.lines ↔ ¬ KeepsPackageLine lines) ∧ third.lines = second.lines := by
  intro first second third
  have hiff : second.lines = first.lines ↔ ¬ KeepsPackageLine lines := by
    rw [rescan_eq_iff_of_isBlock h.isBlock]
    exact and_iff_left fun _ => h
  refine ⟨hiff, ?_⟩
  by_cases hkeeps : KeepsPackageLine lines
  · -- The second scan has put the notice first, where the third one finds it.
    cases leaves notice source lines with
    | settled hnot | notice hnot => exact absurd hkeeps hnot
    | @package line rest _ _ hlines hline =>
      have hsecond : second.lines = notice ++ [] :: line :: rest := by
        change (revise notice source first.lines).lines = _
        rw [hlines, revise_of_packageLine hline]
      change (revise notice source second.lines).lines = second.lines
      rw [hsecond, revise_isClean h]
  · have hsecond := hiff.mpr hkeeps
    change (revise notice source second.lines).lines = second.lines
    rw [hsecond]
    exact hsecond

/-- A package line inside the old header is kept, and the notice comes in a second time. -/
theorem rescan_of_isClean_stray_package :
    IsClean [Text.ofString "/*", Text.ofString "*/"] ∧
      (let notice := [Text.ofString "/*", Text.ofString "*/"]
       let lines := [Text.ofString "/*", Text.ofString "package a;", Text.ofString "*/"]
       let first := revise notice "A" lines
       let second := revise notice "A" first.lines
       let third := revise notice "A" second.lines
       (second.lines = first.lines ↔ ¬ KeepsPackageLine lines) ∧ third.lines = second.lines) := by
  have hclean : IsClean [Text.ofString "/*", Text.ofString "*/"] :=
    ⟨_, [], _, rfl, ⟨by decide, by simp, by decide⟩, by simp⟩
  exact ⟨hclean, rescan_of_isClean hclean "A" _⟩

end Letterhead
