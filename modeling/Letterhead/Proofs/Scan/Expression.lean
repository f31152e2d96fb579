import Letterhead.Proofs.Text.Trim
import Letterhead.Scan.Pattern

/-!
# Kinds of line, by expression and in words

A kind of line can be given by an expression: a list of parts that are to be matched one after the
other, from some place in the line on. A part that repeats takes as much or as little as it likes,
and a line is of the kind if there is any way to match all parts. It can also be described outright,
by what the line is put together from or what is left of it when it is trimmed. This module gives
both for every kind, and shows that they come to what the scanner tests.

## Main definitions

* `Expression`, `Expression.Finds` — expressions, and the texts that they are found in
* `Pattern.expression`, `Pattern.Describes` — the expression and the description of a kind of line

## Main results

* `Pattern.accepts_iff_describes` — the scanner takes a line for one of a kind just if it is
  described by it
* `Pattern.finds_iff_describes` — the expression of a kind is found just in the lines described
-/

namespace Letterhead

/-- The classes of characters that an expression asks for. -/
inductive CharClass
  /-- White space. -/
  | blank
  /-- Anything but white space. -/
  | solid
  /-- Anything but a line feed. -/
  | inLine
  deriving DecidableEq, Repr

/-- Whether a code point is of a class. -/
def CharClass.contains : CharClass → CodePoint → Bool
  | blank, p => p.isBlank
  | solid, p => !p.isBlank
  | inLine, p => p != Text.lineFeed

/-- One part of an expression. -/
inductive ExpressionPart
  /-- The start of the text. -/
  | start
  /-- The end of the text, or the place before a line feed that ends it. -/
  | finish
  /-- One of some words. -/
  | oneOf (words : List Text)
  /-- Any number of characters of a class. -/
  | many (c : CharClass)
  /-- At least one character of a class. -/
  | atLeastOne (c : CharClass)
  deriving DecidableEq, Repr

/-- Parts that are to be matched one after the other. -/
abbrev Expression := List ExpressionPart

/-- A part matches `matched` where `left` stands before it and `right` behind it. -/
def ExpressionPart.Matches (left matched right : Text) : ExpressionPart → Prop
  | start => left = [] ∧ matched = []
  | finish => matched = [] ∧ (right = [] ∨ right = [Text.lineFeed])
  | oneOf words => matched ∈ words
  | many c => ∀ p ∈ matched, c.contains p
  | atLeastOne c => matched ≠ [] ∧ ∀ p ∈ matched, c.contains p

namespace Expression

/-- The parts match, one after the other, what stands at the beginning of `right`. -/
def MatchesAt : Expression → Text → Text → Prop
  | [], _, _ => True
  | part :: parts, left, right => ∃ matched rest, right = matched ++ rest ∧
      part.Matches left matched rest ∧ MatchesAt parts (left ++ matched) rest

/-- The parts match from some place in the text on. -/
def Finds (e : Expression) (t : Text) : Prop :=
  ∃ left right, t = left ++ right ∧ MatchesAt e left right

variable {parts : Expression} {left right t word : Text}

/-- An expression that begins with the start of the text is matched there or nowhere. -/
theorem finds_start : Finds (.start :: parts) t ↔ MatchesAt parts [] t := by
  constructor
  · rintro ⟨_, _, rfl, _, rest, rfl, ⟨rfl, rfl⟩, hrest⟩
    exact hrest
  · intro h
    exact ⟨[], t, rfl, [], t, rfl, ⟨rfl, rfl⟩, h⟩

theorem matchesAt_word : MatchesAt (.oneOf [word] :: parts) left right ↔
    ∃ rest, right = word ++ rest ∧ MatchesAt parts (left ++ word) rest := by
  constructor
  · rintro ⟨matched, rest, rfl, hword, hrest⟩
    obtain rfl := List.mem_singleton.mp hword
    exact ⟨rest, rfl, hrest⟩
  · rintro ⟨rest, rfl, hrest⟩
    exact ⟨word, rest, rfl, List.mem_singleton_self word, hrest⟩

theorem matchesAt_many_blank : MatchesAt (.many .blank :: parts) left right ↔
    ∃ blanks rest, right = blanks ++ rest ∧ blanks.isBlank ∧
      MatchesAt parts (left ++ blanks) rest := by
  simp only [Text.isBlank_iff]
  rfl

/-- Blanks up to the end are blanks only. A last line feed is one of them, so it does not matter
which of the two ends is meant. -/
theorem matchesAt_blank_finish : MatchesAt [.many .blank, .finish] left right ↔ right.isBlank := by
  rw [matchesAt_many_blank]
  constructor
  · rintro ⟨blanks, rest, rfl, hblanks, _, _, rfl, ⟨rfl, hend⟩, -⟩
    rw [Text.isBlank, List.all_append, Bool.and_eq_true]
    refine ⟨hblanks, ?_⟩
    obtain rfl | rfl : _ ∨ _ := hend <;> rfl
  · intro h
    exact ⟨right, [], (List.append_nil right).symm, h, [], [], rfl, ⟨rfl, Or.inl rfl⟩, trivial⟩

end Expression

namespace Pattern

open Expression

/-- The expression of a kind of line. -/
def expression : Pattern → Expression
  | oneLineComment =>
    [.start, .many .blank, .oneOf [opening], .many .inLine, .oneOf [closing], .many .blank, .finish]
  | commentOpen => [.start, .many .blank, .oneOf [opening], .many .blank, .finish]
  | docOpen => [.start, .many .blank, .oneOf [opening ++ [.scalar '*']], .many .blank, .finish]
  | packageLine => [.start, .oneOf [Text.ofString "package"]]
  | blank => [.start, .many .blank, .finish]
  | commentClose => [.oneOf [closing], .many .blank, .finish]
  | statement =>
    [.start, .oneOf [Text.ofString "package", Text.ofString "import"], .atLeastOne .blank,
      .atLeastOne .solid, .oneOf [[.scalar ';']]]
  | any => []

/-- What the lines of a kind look like. -/
def Describes : Pattern → Text → Prop
  | oneLineComment, line => ∃ before inside after : Text,
      line = before ++ (opening ++ (inside ++ (closing ++ after))) ∧
        before.isBlank ∧ Text.lineFeed ∉ inside ∧ after.isBlank
  | commentOpen, line => line.trim = opening
  | docOpen, line => line.trim = opening ++ [.scalar '*']
  | packageLine, line => Text.ofString "package" <+: line
  | blank, line => line.trim = []
  | commentClose, line => closing <:+ line.trimRight
  | statement, line => ∃ word gap name rest : Text,
      line = word ++ (gap ++ (name ++ .scalar ';' :: rest)) ∧
        (word = Text.ofString "package" ∨ word = Text.ofString "import") ∧
          (gap ≠ [] ∧ gap.isBlank) ∧ name ≠ [] ∧ ∀ p ∈ name, p.isBlank = false
  | any, _ => True

/-! ### What the scanner tests -/

theorem beforeClosing?_eq_some_iff {t inside : Text} :
    beforeClosing? t = some inside ↔ t = inside ++ closing := by
  rw [beforeClosing?, Option.map_eq_some_iff]
  simp only [isPrefixOf?_eq_some_iff]
  constructor
  · rintro ⟨rest, hrest, rfl⟩
    rw [← List.reverse_inj, hrest, List.reverse_append, List.reverse_reverse]
  · rintro rfl
    exact ⟨inside.reverse, List.reverse_append, List.reverse_reverse inside⟩

theorem isOneLineComment_iff {line : Text} : isOneLineComment line ↔
    ∃ inside, line.trim = opening ++ (inside ++ closing) ∧ Text.lineFeed ∉ inside := by
  rw [isOneLineComment]
  constructor
  · intro h
    split at h
    · rename_i inside hinside
      obtain ⟨rest, hrest, hbefore⟩ := Option.bind_eq_some_iff.mp hinside
      refine ⟨inside, ?_, by simpa using h⟩
      rw [isPrefixOf?_eq_some_iff.mp hrest, beforeClosing?_eq_some_iff.mp hbefore]
    · cases h
  · rintro ⟨inside, htrim, hfeed⟩
    rw [isPrefixOf?_eq_some_iff.mpr htrim, Option.bind_some, beforeClosing?_eq_some_iff.mpr rfl]
    simpa using hfeed

/-- The trimmed form of a one-line comment begins and ends with a slash, so there are just blanks
around it. -/
theorem isOneLineComment_iff_describes {line : Text} :
    isOneLineComment line ↔ oneLineComment.Describes line := by
  rw [isOneLineComment_iff]
  have htrim (inside : Text) := Text.trim_eq_iff (t := line) (s := opening ++ (inside ++ closing))
    (by simp [opening, CodePoint.isBlank, Letterhead.blank])
    (by simp [closing, CodePoint.isBlank, Letterhead.blank])
  simp only [htrim]
  constructor
  · rintro ⟨inside, ⟨before, after, rfl, hbefore, hafter⟩, hfeed⟩
    exact ⟨before, inside, after, by simp, hbefore, hfeed, hafter⟩
  · rintro ⟨before, inside, after, rfl, hbefore, hfeed, hafter⟩
    exact ⟨inside, ⟨before, after, by simp, hbefore, hafter⟩, hfeed⟩

/-- The two marks of a one-line comment share no star. -/
example : ["/**/", "/*/", " /* a */\n"].map (isOneLineComment ∘ Text.ofString) =
    [true, false, true] := by decide

/-- The rest of a line after the word that it starts with. A line does not start with both words. -/
theorem afterStatementWord?_eq_some_iff {line rest : Text} : afterStatementWord? line = some rest ↔
    ∃ word, (word = Text.ofString "package" ∨ word = Text.ofString "import") ∧
      line = word ++ rest := by
  rw [afterStatementWord?]
  cases hpackage : (Text.ofString "package").isPrefixOf? line with
  | some tail =>
    obtain rfl := isPrefixOf?_eq_some_iff.mp hpackage
    rw [Option.some_or, Option.some_inj]
    constructor
    · rintro rfl
      exact ⟨_, Or.inl rfl, rfl⟩
    · rintro ⟨word, rfl | rfl, hline⟩
      · exact List.append_cancel_left hline
      · exact absurd (List.cons.inj hline).1 (by decide)
  | none =>
    rw [Option.none_or, isPrefixOf?_eq_some_iff]
    constructor
    · rintro rfl
      exact ⟨_, Or.inr rfl, rfl⟩
    · rintro ⟨word, rfl | rfl, hline⟩
      · rw [isPrefixOf?_eq_some_iff.mpr hline] at hpackage
        cases hpackage
      · exact hline

/-- The first run of characters that are not blank has a semicolon in it, and not as its first
character, just if it can be cut before a semicolon. -/
theorem contains_semicolon_iff {t : Text} :
    (((Text.trimLeft t).takeWhile fun p => !p.isBlank).drop 1).contains (.scalar ';') ↔
      ∃ gap name rest : Text, t = gap ++ (name ++ .scalar ';' :: rest) ∧ gap.isBlank ∧
        name ≠ [] ∧ ∀ p ∈ name, p.isBlank = false := by
  rw [List.contains_iff_mem]
  constructor
  · intro h
    set run := (Text.trimLeft t).takeWhile fun p => !p.isBlank with hrun
    obtain ⟨before, after, hsplit⟩ := List.append_of_mem h
    -- The run is not empty, for there is something behind its first character.
    obtain ⟨first, more, hcons⟩ : ∃ first more, run = first :: more := by
      cases hcase : run with
      | nil => rw [hcase] at h; cases h
      | cons first more => exact ⟨first, more, rfl⟩
    rw [hcons, List.drop_succ_cons, List.drop_zero] at hsplit
    refine ⟨t.takeWhile CodePoint.isBlank, first :: before,
      after ++ (Text.trimLeft t).dropWhile fun p => !p.isBlank, ?_, ?_, by simp, ?_⟩
    · calc t = t.takeWhile CodePoint.isBlank ++ Text.trimLeft t :=
            List.takeWhile_append_dropWhile.symm
        _ = t.takeWhile CodePoint.isBlank ++
              (run ++ (Text.trimLeft t).dropWhile fun p => !p.isBlank) := by
            rw [hrun, List.takeWhile_append_dropWhile]
        _ = _ := by rw [hcons, hsplit]; simp
    · exact Text.isBlank_iff.mpr fun p hp => List.mem_takeWhile_imp hp
    · intro p hp
      have hmem : p ∈ run := by
        rw [hcons, hsplit, ← List.cons_append]
        exact List.mem_append_left _ hp
      simpa using List.mem_takeWhile_imp hmem
  · rintro ⟨gap, name, rest, rfl, hgap, hne, hname⟩
    obtain ⟨first, more, rfl⟩ := List.exists_cons_of_ne_nil hne
    have hfirst : first.isBlank = false := hname first List.mem_cons_self
    rw [Text.trimLeft, List.dropWhile_append_of_pos (Text.isBlank_iff.mp hgap),
      List.cons_append, List.dropWhile_cons_of_neg (by simp [hfirst]),
      ← List.cons_append, List.takeWhile_append_of_pos (by simpa using hname), List.cons_append,
      List.drop_succ_cons, List.drop_zero, List.takeWhile_cons_of_pos (by decide)]
    exact List.mem_append_right _ List.mem_cons_self

theorem isStatement_iff_describes {line : Text} : isStatement line ↔ statement.Describes line := by
  rw [isStatement]
  constructor
  · intro h
    split at h
    · rename_i first tail hafter
      -- The first blank of the gap is tested by itself, and the others are trimmed.
      obtain ⟨word, hword, rfl⟩ := afterStatementWord?_eq_some_iff.mp hafter
      obtain ⟨hfirst, hrun⟩ := Bool.and_eq_true_iff.mp h
      obtain ⟨gap, name, rest, rfl, hgap, hne, hname⟩ := contains_semicolon_iff.mp hrun
      refine ⟨word, first :: gap, name, rest, rfl, hword, ⟨by simp, ?_⟩, hne, hname⟩
      rw [Text.isBlank, List.all_cons, hfirst]
      exact hgap
    · cases h
  · rintro ⟨word, gap, name, rest, rfl, hword, ⟨hgap, hblank⟩, hne, hname⟩
    obtain ⟨first, gap, rfl⟩ := List.exists_cons_of_ne_nil hgap
    rw [Text.isBlank, List.all_cons, Bool.and_eq_true] at hblank
    rw [afterStatementWord?_eq_some_iff.mpr ⟨word, hword, rfl⟩]
    refine Bool.and_eq_true_iff.mpr ⟨hblank.1, ?_⟩
    exact contains_semicolon_iff.mpr ⟨gap, name, rest, rfl, hblank.2, hne, hname⟩

theorem isBlank_iff_trim_eq_nil {line : Text} : line.isBlank ↔ line.trim = [] := by
  constructor
  · exact Text.trim_of_isBlank
  · intro h
    obtain ⟨before, after, rfl, hbefore, hafter⟩ :=
      (Text.trim_eq_iff (by simp) (by simp)).mp h
    rw [List.nil_append, Text.isBlank, List.all_append, Bool.and_eq_true]
    exact ⟨hbefore, hafter⟩

/-- The scanner takes a line for one of a kind just if it is described by it. -/
theorem accepts_iff_describes (pattern : Pattern) (line : Text) :
    pattern.accepts line ↔ pattern.Describes line := by
  cases pattern with
  | oneLineComment => exact isOneLineComment_iff_describes
  | commentOpen => exact beq_iff_eq
  | docOpen => exact beq_iff_eq
  | packageLine => exact List.isPrefixOf_iff_prefix
  | blank => exact isBlank_iff_trim_eq_nil
  | commentClose => exact List.isSuffixOf_iff_suffix
  | statement => exact isStatement_iff_describes
  | any => exact iff_of_true rfl trivial

/-! ### Where the expressions are found -/

/-- An expression for a word with just blanks around it. -/
theorem finds_framed_iff {line word : Text} :
    Finds [.start, .many .blank, .oneOf [word], .many .blank, .finish] line ↔
      ∃ before after, line = before ++ (word ++ after) ∧ before.isBlank ∧ after.isBlank := by
  rw [finds_start, matchesAt_many_blank]
  simp only [matchesAt_word, matchesAt_blank_finish]
  constructor
  · rintro ⟨before, _, rfl, hbefore, after, rfl, hafter⟩
    exact ⟨before, after, rfl, hbefore, hafter⟩
  · rintro ⟨before, after, rfl, hbefore, hafter⟩
    exact ⟨before, word ++ after, rfl, hbefore, after, rfl, hafter⟩

theorem finds_oneLineComment_iff {line : Text} :
    oneLineComment.expression.Finds line ↔ oneLineComment.Describes line := by
  rw [expression, finds_start, matchesAt_many_blank]
  simp only [matchesAt_word]
  constructor
  · rintro ⟨before, _, rfl, hbefore, _, rfl, inside, _, rfl, hinside, hclose⟩
    obtain ⟨after, rfl, hafter⟩ := matchesAt_word.mp hclose
    refine ⟨before, inside, after, rfl, hbefore, fun hfeed => ?_, matchesAt_blank_finish.mp hafter⟩
    simpa [CharClass.contains] using hinside _ hfeed
  · rintro ⟨before, inside, after, rfl, hbefore, hfeed, hafter⟩
    refine ⟨before, _, rfl, hbefore, _, rfl, inside, _, rfl, fun p hp => ?_,
      matchesAt_word.mpr ⟨after, rfl, matchesAt_blank_finish.mpr hafter⟩⟩
    simpa [CharClass.contains] using fun heq : p = Text.lineFeed => hfeed (heq ▸ hp)

theorem finds_statement_iff {line : Text} :
    statement.expression.Finds line ↔ statement.Describes line := by
  rw [expression, finds_start]
  constructor
  · rintro ⟨word, _, rfl, hword, gap, _, rfl, ⟨hgap, hblank⟩, name, _, rfl, ⟨hne, hname⟩, hend⟩
    obtain ⟨rest, rfl, -⟩ := matchesAt_word.mp hend
    exact ⟨word, gap, name, rest, rfl, by simpa [ExpressionPart.Matches] using hword,
      ⟨hgap, Text.isBlank_iff.mpr hblank⟩, hne, by simpa [CharClass.contains] using hname⟩
  · rintro ⟨word, gap, name, rest, rfl, hword, ⟨hgap, hblank⟩, hne, hname⟩
    exact ⟨word, _, rfl, by simpa [ExpressionPart.Matches] using hword, gap, _, rfl,
      ⟨hgap, Text.isBlank_iff.mp hblank⟩, name, _, rfl,
      ⟨hne, by simpa [CharClass.contains] using hname⟩, matchesAt_word.mpr ⟨rest, rfl, trivial⟩⟩

/-- The expression of a kind is found just in the lines that the kind describes. -/
theorem finds_iff_describes (pattern : Pattern) (line : Text) :
    pattern.expression.Finds line ↔ pattern.Describes line := by
  cases pattern with
  | oneLineComment => exact finds_oneLineComment_iff
  | commentOpen =>
    exact finds_framed_iff.trans (Text.trim_eq_iff (by decide) (by decide)).symm
  | docOpen =>
    exact finds_framed_iff.trans (Text.trim_eq_iff (by decide) (by decide)).symm
  | packageLine =>
    rw [expression, finds_start, matchesAt_word]
    constructor
    · rintro ⟨rest, rfl, -⟩
      exact List.prefix_append _ rest
    · rintro ⟨rest, rfl⟩
      exact ⟨rest, rfl, trivial⟩
  | blank =>
    rw [expression, finds_start, matchesAt_blank_finish]
    exact isBlank_iff_trim_eq_nil
  | commentClose =>
    rw [Describes, Text.isSuffix_trimRight_iff (by decide) (by decide)]
    constructor
    · rintro ⟨before, _, rfl, hmatch⟩
      obtain ⟨after, rfl, hafter⟩ := matchesAt_word.mp hmatch
      exact ⟨before, after, rfl, matchesAt_blank_finish.mp hafter⟩
    · rintro ⟨before, after, rfl, hafter⟩
      exact ⟨before, closing ++ after, rfl,
        matchesAt_word.mpr ⟨after, rfl, matchesAt_blank_finish.mpr hafter⟩⟩
  | statement => exact finds_statement_iff
  | any => exact iff_of_true ⟨[], line, rfl, trivial⟩ trivial

end Pattern

end Letterhead
