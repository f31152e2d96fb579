import Mathlib.Data.List.Basic
import Letterhead.Update
import Letterhead.Proofs.Text.Cut

/-!
# The lines of a file, and the file of some lines

The line ends of a file are unified by two replacements over the whole text, first every CR LF and
then every CR that is left. One pass from left to right does the same. So the scanner is given the
pieces between the line ends of the file, and writing these down again gives the file back, except
that all its line ends are line feeds and that its last line is ended too.

## Main definitions

* `Text.replaceAll` — a text with another one in the place of each occurrence of a third
* `Text.normalized` — the text that is left of a file by the two replacements

## Main results

* `Text.unifyLineEnds_eq_normalized` — the two replacements are one pass
* `Text.unlines_lines` — a text cut into lines and put together again
* `Updater.lines_of_text` — what the lines of a file are, and how they are written
-/

namespace Letterhead

namespace Text

variable {old new t : Text}

/-! ### Replacing -/

/-- The text with `new` in the place of each occurrence of `old`, which must not be empty. The
occurrences are looked for from left to right, and none begins inside another. -/
def replaceAll (old new : Text) : Text → Text
  | [] => []
  | p :: t =>
    if old.isPrefixOf (p :: t) then new ++ replaceAll old new (t.drop (old.length - 1))
    else p :: replaceAll old new t
  termination_by t => t.length

theorem replaceAll_append (h : old ≠ []) (new t : Text) :
    replaceAll old new (old ++ t) = new ++ replaceAll old new t := by
  obtain ⟨p, more, rfl⟩ := List.exists_cons_of_ne_nil h
  have hprefix : (p :: more).isPrefixOf (p :: (more ++ t)) :=
    List.isPrefixOf_iff_prefix.mpr ⟨t, rfl⟩
  rw [List.cons_append, replaceAll, if_pos hprefix, List.length_cons, Nat.add_sub_cancel,
    List.drop_left]

theorem replaceAll_cons {p : CodePoint} (h : ¬ old <+: p :: t) :
    replaceAll old new (p :: t) = p :: replaceAll old new t := by
  rw [replaceAll, if_neg fun hprefix => h (List.isPrefixOf_iff_prefix.mp hprefix)]

/-- What is left of a text when every CR LF has been replaced by LF, and then every CR. -/
def normalized (t : Text) : Text :=
  replaceAll [carriageReturn] [lineFeed] (replaceAll [carriageReturn, lineFeed] [lineFeed] t)

/-- A character other than CR is passed over where what is looked for begins with a CR. -/
theorem replaceAll_carriageReturn {p : CodePoint} (h : p ≠ carriageReturn) (more t : Text) :
    replaceAll (carriageReturn :: more) new (p :: t) =
      p :: replaceAll (carriageReturn :: more) new t :=
  replaceAll_cons fun hprefix => h (List.cons_prefix_cons.mp hprefix).1.symm

theorem normalized_pair (t : Text) :
    normalized (carriageReturn :: lineFeed :: t) = lineFeed :: normalized t := by
  have hne : [carriageReturn, lineFeed] ≠ [] := List.cons_ne_nil _ _
  have hfirst : replaceAll [carriageReturn, lineFeed] [lineFeed] (carriageReturn :: lineFeed :: t) =
      lineFeed :: replaceAll [carriageReturn, lineFeed] [lineFeed] t :=
    replaceAll_append hne [lineFeed] t
  -- The line feed that the first replacement leaves is no CR.
  rw [normalized, hfirst, replaceAll_carriageReturn (by decide), normalized]

theorem normalized_carriageReturn (h : t.head? ≠ some lineFeed) :
    normalized (carriageReturn :: t) = lineFeed :: normalized t := by
  have hpair : ¬ [carriageReturn, lineFeed] <+: carriageReturn :: t := by
    rintro ⟨tail, htail⟩
    exact h (by rw [← (List.cons.inj htail).2]; rfl)
  have hne : [carriageReturn] ≠ [] := List.cons_ne_nil _ _
  rw [normalized, replaceAll_cons hpair, normalized]
  exact replaceAll_append hne [lineFeed] _

theorem normalized_cons {p : CodePoint} (h : p ≠ carriageReturn) (t : Text) :
    normalized (p :: t) = p :: normalized t := by
  rw [normalized, replaceAll_carriageReturn h, replaceAll_carriageReturn h, normalized]

/-- The two replacements are one pass. -/
theorem unifyLineEnds_eq_normalized (t : Text) : t.unifyLineEnds = t.normalized := by
  fun_induction unifyLineEnds t with
  | case1 rest ih => rw [ih, ← normalized_pair, carriageReturn, lineFeed]
  | case2 rest hfeed ih =>
    rw [ih, ← normalized_carriageReturn (head?_ne_of_forall hfeed), carriageReturn]
  | case3 p rest _ hreturn ih => rw [ih, normalized_cons hreturn]
  | case4 => rw [normalized, replaceAll, replaceAll]

/-! ### Cutting and putting together -/

/-- Some lines with their line feeds and what stands behind the last of these. -/
theorem intercalate_concat (pieces : List Text) (last : Text) :
    [lineFeed].intercalate (pieces ++ [last]) = unlines pieces ++ last := by
  induction pieces with
  | nil => simp
  | cons piece pieces ih =>
    rw [List.cons_append, List.intercalate_cons_of_ne_nil (by simp), ih, unlines_cons]
    simp

/-- A text cut into lines and put together again gets a line feed at its end, unless it has one or
holds nothing. -/
theorem unlines_lines (t : Text) :
    unlines t.lines = if t = [] ∨ t.getLast? = some lineFeed then t else t ++ [lineFeed] := by
  obtain ⟨pieces, last, hsplit⟩ :=
    (List.eq_nil_or_concat (t.splitOn lineFeed)).resolve_left (List.splitOn_ne_nil _ _)
  rw [List.concat_eq_append] at hsplit
  have hmem : last ∈ t.splitOn lineFeed := by simp [hsplit]
  have hlast : lineFeed ∉ last := not_mem_of_mem_splitOn hmem
  have ht : t = unlines pieces ++ last := by
    rw [← intercalate_concat, ← hsplit, List.intercalate_splitOn]
  rw [lines, hsplit, dropFinalEmpty_concat]
  by_cases hempty : last = []
  · -- The text ends with the line feed of its last line.
    rw [if_pos hempty, if_pos, ht, hempty, List.append_nil]
    rw [ht, hempty, List.append_nil]
    obtain rfl | ⟨pieces, piece, rfl⟩ := List.eq_nil_or_concat pieces
    · exact Or.inl rfl
    · exact Or.inr (by simp [unlines])
  · have hend : ¬ (t = [] ∨ t.getLast? = some lineFeed) := by
      rintro (rfl | hfeed)
      · exact hempty (List.append_eq_nil_iff.mp ht.symm).2
      · rw [ht, List.getLast?_append_of_ne_nil _ hempty] at hfeed
        exact hlast (List.mem_of_getLast? hfeed)
    rw [if_neg hempty, if_neg hend, ht]
    simp [unlines]

end Text

namespace Updater

open Text

/-- The scanner is given the pieces of a text between its line ends, without a last one that is
empty. Written down they give the text with its line ends unified, and with one at its end. Any
lines without line feeds are cut out of what is written of them. -/
theorem lines_of_text (u : Updater) (path : Path) (t : Text) :
    ∃ pieces ls, u.revisionOf path t = revise u.notice.toLines path.toString ls ∧
      ls = t.normalized.lines ∧
      (∀ cut, Cut lineEnds [] t cut ↔ cut = pieces) ∧
      ls = (if pieces.getLast? = some [] then pieces.dropLast else pieces) ∧
      (∀ line ∈ ls, carriageReturn ∉ line ∧ lineFeed ∉ line) ∧
      (∀ r : Revision, r.lines = ls → r.render =
        if t.normalized = [] ∨ t.normalized.getLast? = some lineFeed then t.normalized
        else t.normalized ++ [lineFeed]) ∧
      ∀ r : Revision, (∀ line ∈ r.lines, lineFeed ∉ line) → r.render.lines = r.lines := by
  refine ⟨t.unifyLineEnds.splitOn lineFeed, t.unifyLineEnds.lines, rfl, ?_, fun _ => cut_iff,
    dropFinalEmpty_eq _, ?_, ?_, ?_⟩
  · rw [unifyLineEnds_eq_normalized]
  · intro line hline
    refine whole_iff.mp ((cut_iff.mpr rfl : Cut lineEnds [] t _).whole line ?_)
    exact dropFinalEmpty_subset _ hline
  · intro r hr
    rw [Revision.render, hr, unifyLineEnds_eq_normalized, unlines_lines]
  · intro r hr
    exact lines_unlines hr

/-- CR CR LF ends two lines, and so does LF CR. -/
theorem lines_of_text_mixed :
    ∃ r : Revision, r.lines = (ofString "a\r\r\n\nb\n\r").normalized.lines ∧
      r.render = ofString "a\n\n\nb\n\n" ∧ r.render.lines = r.lines := by
  obtain ⟨pieces, ls, -, hls, -, -, hwhole, hrender, hlines⟩ :=
    lines_of_text ⟨⟨["/*", "Ours", "*/"]⟩, {}⟩ ⟨.relative, ["Main.java"]⟩
      (ofString "a\r\r\n\nb\n\r")
  refine ⟨⟨"Main.java", ls, false, [], .done⟩, hls, ?_, ?_⟩
  · rw [hrender _ rfl, ← unifyLineEnds_eq_normalized]
    decide
  · exact hlines _ fun line hline => (hwhole line hline).2

end Updater

end Letterhead
