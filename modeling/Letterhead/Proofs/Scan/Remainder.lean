import Mathlib.Data.List.Infix
import Letterhead.Proofs.Scan.ClosedForm

/-!
# What comes behind the header

A comment ends at its first closing mark, wherever that stands on a line. The scanner takes a
comment to end on the first line that closes it with nothing behind. Where the two are the same
line, all that comes behind the header is kept as it is. Where there is something behind the first
closing mark, the scanner goes on to the next line that it takes for a closing one, and what stands
in between is lost.

## Main definitions

* `Text.HoldsClosing` — a closing mark stands somewhere on a line

## Main results

* `suffix_revise_iff` — when the lines behind the header are the last ones of the new file
* `suffix_revise_lost` — a file that loses some of them
-/

namespace Letterhead

/-- A closing mark stands somewhere on a line. -/
def Text.HoldsClosing (line : Text) : Prop := Pattern.closing <:+: line

theorem any_tails_iff_holdsClosing {line : Text} :
    line.tails.any (Pattern.closing.isPrefixOf ·) ↔ line.HoldsClosing := by
  simp only [List.any_eq_true, List.mem_tails, List.isPrefixOf_iff_prefix]
  rw [Text.HoldsClosing, List.infix_iff_prefix_suffix]
  exact exists_congr fun _ => and_comm

instance : DecidablePred Text.HoldsClosing :=
  fun _ => decidable_of_iff _ any_tails_iff_holdsClosing

theorem holdsClosing_of_closes {line : Text} (h : line.closes) : line.HoldsClosing := by
  have hsuffix : Pattern.closing <:+ line.trimRight := List.isSuffixOf_iff_suffix.mp h
  exact hsuffix.isInfix.trans (isPrefix_trimEnd _ line).isInfix

variable {notice blanks body rest : List Text} {opener closer : Text}

/-- A file whose first comment ends on the line `closer`, which is the first one behind the opening
line that a closing mark stands on. -/
structure EndsOn (blanks : List Text) (opener : Text) (body : List Text) (closer : Text) :
    Prop where
  blanks_blank : ∀ line ∈ blanks, line.isBlank
  opens : Pattern.commentOpen.accepts opener
  body_open : ∀ line ∈ body, ¬ line.HoldsClosing
  ends : closer.HoldsClosing

namespace EndsOn

variable (h : EndsOn blanks opener body closer)

include h

theorem body_not_closes : ∀ line ∈ body, line.closes = false := by
  intro line hline
  rw [← Bool.not_eq_true]
  exact fun hcloses => h.body_open line hline (holdsClosing_of_closes hcloses)

/-- Nothing but blanks behind the closing mark: the scanner and the comment end on the same line. -/
theorem revise_of_closes (hcloses : closer.closes) (source : String) :
    (revise notice source (blanks ++ opener :: (body ++ closer :: rest))).lines =
      body.filter Text.isStatement ++ (notice ++ rest) :=
  (revise_header h.blanks_blank ⟨h.opens, h.body_not_closes, hcloses⟩ notice source rest).1

/-- No line that the scanner takes for a closing one: the file is left as it is. -/
theorem revise_of_none (hcloser : closer.closes = false)
    (hrest : ∀ line ∈ rest, line.closes = false) (source : String) :
    (revise notice source (blanks ++ opener :: (body ++ closer :: rest))).lines =
      blanks ++ opener :: (body ++ closer :: rest) := by
  refine (revise_unclosed h.blanks_blank h.opens (fun line hline => ?_) notice source).1
  rcases List.mem_append.mp hline with hbody | hline
  · exact h.body_not_closes line hbody
  · rcases List.mem_cons.mp hline with rfl | hline
    · exact hcloser
    · exact hrest line hline

/-- The scanner closes the header on the later line `last`. Of the lines up to there it keeps the
statements. -/
theorem revise_of_later {between tail : List Text} {last : Text} (hcloser : closer.closes = false)
    (hbetween : ∀ line ∈ between, line.closes = false) (hlast : last.closes) (source : String) :
    (revise notice source
        (blanks ++ opener :: (body ++ closer :: (between ++ last :: tail)))).lines =
      (body ++ closer :: between).filter Text.isStatement ++ notice ++ tail := by
  have hheader : IsHeader opener (body ++ closer :: between) last := by
    refine ⟨h.opens, fun line hline => ?_, hlast⟩
    rcases List.mem_append.mp hline with hbody | hline
    · exact h.body_not_closes line hbody
    · rcases List.mem_cons.mp hline with rfl | hline
      · exact hcloser
      · exact hbetween line hline
  have hrevise := (revise_header h.blanks_blank hheader notice source tail).1
  rwa [List.append_assoc, List.cons_append, ← List.append_assoc (List.filter _ _)] at hrevise

end EndsOn

/-- The scanner closes the header on a line of `rest`, and the lines up to that one happen to be the
last ones that come out before the lines behind it. -/
def PutOutAnyway (notice body : List Text) (closer : Text) (rest : List Text) : Prop :=
  ∃ between last tail, rest = between ++ last :: tail ∧ (∀ line ∈ between, line.closes = false) ∧
    last.closes ∧
      between ++ [last] <:+ (body ++ closer :: between).filter Text.isStatement ++ notice

/-- The lines behind the end of the header are the last lines of the new file just if nothing stands
behind the closing mark of the header, or no later line is taken for a closing one. Otherwise all up
to that line goes, and the notice or statements that are kept would have to say the same. -/
theorem suffix_revise_iff (h : EndsOn blanks opener body closer) (notice : List Text)
    (source : String) (rest : List Text) :
    rest <:+ (revise notice source (blanks ++ opener :: (body ++ closer :: rest))).lines ↔
      closer.closes ∨ (∀ line ∈ rest, line.closes = false) ∨
        PutOutAnyway notice body closer rest := by
  cases hcloser : closer.closes with
  | true =>
    rw [h.revise_of_closes hcloser]
    refine iff_of_true ?_ (Or.inl rfl)
    exact (List.suffix_append notice rest).trans (List.suffix_append _ _)
  | false =>
    rcases exists_split (fun line => !line.closes) rest with
      hnone | ⟨between, last, tail, rfl, hbetween, hlast⟩
    · have hrest : ∀ line ∈ rest, line.closes = false := fun line hline => by
        simpa using hnone line hline
      rw [h.revise_of_none hcloser hrest]
      refine iff_of_true ?_ (Or.inr (Or.inl hrest))
      exact ⟨blanks ++ opener :: (body ++ [closer]), by simp⟩
    · have hcloses : last.closes = true := by simpa using hlast
      rw [h.revise_of_later hcloser (by simpa using hbetween) hcloses,
        List.append_cons between last tail, List.suffix_append_self_iff]
      constructor
      · intro hsuffix
        exact Or.inr (Or.inr ⟨between, last, tail, by simp, by simpa using hbetween, hcloses,
          hsuffix⟩)
      · rintro (hfirst | hrest | ⟨between', last', tail', hrest, hbetween', hlast', hsuffix⟩)
        · cases hfirst
        · have := hrest last (by simp)
          rw [hcloses] at this
          cases this
        · -- The first closing line is where it is.
          have hcut : between = between' := by
            have hopen : ∀ line ∈ between', (!line.closes) = true := by simpa using hbetween'
            have hcloses' : (!last'.closes) = false := by simpa using hlast'
            calc between = (between ++ last :: tail).takeWhile (!·.closes) :=
                  (takeWhile_append_cons hbetween hlast).symm
              _ = (between' ++ last' :: tail').takeWhile (!·.closes) := by rw [← hrest]; simp
              _ = between' := takeWhile_append_cons hopen hcloses'
          subst hcut
          rw [List.append_assoc, List.append_cancel_left_eq] at hrest
          obtain ⟨rfl, -⟩ := List.cons.inj hrest
          exact hsuffix

/-- Two declarations below a third one, which stands on the line that the header ends on. -/
def codeBehind : List Text := ["int b; /* b */", "int c;"].map Text.ofString

theorem endsOn_declaration :
    EndsOn [] (Text.ofString "/*") [Text.ofString " * old"] (Text.ofString " */ int a;") :=
  ⟨by simp, by decide, by decide, by decide⟩

theorem suffix_revise_iff_declaration :
    EndsOn [] (Text.ofString "/*") [Text.ofString " * old"] (Text.ofString " */ int a;") ∧
      (codeBehind <:+ (revise [Text.ofString "N"] "a.c" ([] ++ Text.ofString "/*" ::
          ([Text.ofString " * old"] ++ Text.ofString " */ int a;" :: codeBehind))).lines ↔
        (Text.ofString " */ int a;").closes ∨ (∀ line ∈ codeBehind, line.closes = false) ∨
          PutOutAnyway [Text.ofString "N"] [Text.ofString " * old"] (Text.ofString " */ int a;")
            codeBehind) :=
  ⟨endsOn_declaration, suffix_revise_iff endsOn_declaration _ "a.c" codeBehind⟩

/-- The code is lost up to the next line with a closing mark at its end. -/
theorem suffix_revise_lost :
    EndsOn [] (Text.ofString "/*") [Text.ofString " * old"] (Text.ofString " */ int a;") ∧
      (revise [Text.ofString "N"] "a.c" ([] ++ Text.ofString "/*" ::
        ([Text.ofString " * old"] ++ Text.ofString " */ int a;" :: codeBehind))).lines =
          [Text.ofString "N", Text.ofString "int c;"] ∧
      ¬ codeBehind <:+ [Text.ofString "N", Text.ofString "int c;"] :=
  ⟨endsOn_declaration, by decide, by decide⟩

end Letterhead
