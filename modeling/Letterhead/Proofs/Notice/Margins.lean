import Mathlib.Data.Option.Basic
import Letterhead.Proofs.Notice
import Letterhead.Proofs.Text.Trim

/-!
# The margins of a notice

The notice in a text is what is left of its lines without the blank ones above and below. Each
separator of lines is itself blank, so a text without a notice is one of blanks. Blank lines that are
added above or below are trimmed away again. That holds even where they meet the text in the middle
of a CR LF: the line end that was two is one, and the line that gets lost is blank.

## Main definitions

* `Notice.IsIn` — what the notice in a text is

## Main results

* `Notice.ofString?_eq_some_iff`, `Notice.ofString?_eq_none_iff` — loading finds the notice
* `Notice.ofString?_joined` — a notice is found in its own lines
* `Notice.ofString?_append` — blank lines around a text make no difference
* `Notice.ofString?_normalizes` — all this together
-/

namespace Letterhead

variable {above below cs line : List Char} {c : Char} {ls core : List (List Char)}

/-! ### Cutting a text in two -/

theorem blank_of_isLineSeparator (h : isLineSeparator c) : blank c := by
  simp only [isLineSeparator, blank, Bool.or_eq_true, Bool.and_eq_true, decide_eq_true_eq,
    beq_iff_eq] at h ⊢
  omega

/-- Nothing stands behind the last line end of a text. -/
def EndsInSeparator (cs : List Char) : Prop := ∀ c ∈ cs.getLast?, isLineSeparator c

/-- Nothing stands before the first line end of a text. -/
def BeginsWithSeparator (cs : List Char) : Prop := ∀ c ∈ cs.head?, isLineSeparator c

theorem EndsInSeparator.of_cons (h : EndsInSeparator (c :: cs)) : EndsInSeparator cs := by
  intro d hd
  refine h d ?_
  rw [List.getLast?_cons, Option.mem_def.mp hd]
  rfl

theorem separatedLinesFrom_cons (h : isLineSeparator c = false) (line cs : List Char) :
    separatedLinesFrom line (c :: cs) = separatedLinesFrom (c :: line) cs := by
  rw [separatedLinesFrom, if_neg (by simp [h])]
  rintro rest rfl -
  exact absurd h (by decide)

theorem separatedLinesFrom_pair (line cs : List Char) :
    separatedLinesFrom line ('\r' :: '\n' :: cs) = line.reverse :: separatedLines cs := by
  rw [separatedLinesFrom, separatedLines]

/-- A separator ends a line. The LF of a CR LF goes with it. -/
theorem exists_separatedLinesFrom_separator (h : isLineSeparator c) (line cs : List Char) :
    ∃ rest, separatedLinesFrom line (c :: cs) = line.reverse :: separatedLines rest ∧
      (rest = cs ∨ c = '\r' ∧ cs = '\n' :: rest) := by
  by_cases hpair : c = '\r' ∧ cs.head? = some '\n'
  · obtain ⟨rfl, hhead⟩ := hpair
    obtain ⟨rest, rfl⟩ := List.head?_eq_some_iff.mp hhead
    exact ⟨rest, separatedLinesFrom_pair line rest, Or.inr ⟨rfl, rfl⟩⟩
  · refine ⟨cs, ?_, Or.inl rfl⟩
    rw [separatedLinesFrom, if_pos h, separatedLines]
    rintro rest rfl rfl
    exact hpair ⟨rfl, rfl⟩

theorem separatedLinesFrom_lineFeed (line cs : List Char) :
    separatedLinesFrom line ('\n' :: cs) = line.reverse :: separatedLines cs := by
  obtain ⟨rest, hlines, rfl | ⟨hreturn, -⟩⟩ :=
    exists_separatedLinesFrom_separator (c := '\n') (by decide) line cs
  · exact hlines
  · exact absurd hreturn (by decide)

/-- What holds no separator goes on with the line. -/
theorem separatedLinesFrom_append_lineFeed (hwhole : noticeEnds.Whole line) (before cs : List Char) :
    separatedLinesFrom before (line ++ '\n' :: cs) =
      (before.reverse ++ line) :: separatedLines cs := by
  induction line generalizing before with
  | nil =>
    rw [List.nil_append, List.append_nil]
    exact separatedLinesFrom_lineFeed before cs
  | cons c line ih =>
    obtain ⟨hc, hmore⟩ := List.forall_mem_cons.mp hwhole
    rw [List.cons_append, separatedLinesFrom_cons hc, ih hmore]
    simp

/-- Lines that hold no separator are the lines of a text in which each of them is ended. -/
theorem separatedLines_flatMap (h : ∀ line ∈ ls, noticeEnds.Whole line) :
    separatedLines (ls.flatMap (· ++ ['\n'])) = ls := by
  induction ls with
  | nil => rfl
  | cons line ls ih =>
    obtain ⟨hwhole, hmore⟩ := List.forall_mem_cons.mp h
    rw [List.flatMap_cons, List.append_assoc, List.singleton_append, separatedLines,
      separatedLinesFrom_append_lineFeed hwhole, ih hmore]
    rfl

namespace Notice

/-! ### Blank lines -/

theorem isBlankLine_iff : isBlankLine line ↔ ∀ c ∈ line, blank c := List.all_eq_true

/-- The lines of a text are blank just if the text is, for what ends them is blank. -/
theorem forall_isBlankLine_iff :
    (∀ line ∈ separatedLines cs, isBlankLine line) ↔ ∀ c ∈ cs, blank c := by
  simp only [isBlankLine_iff]
  constructor
  · intro h c hc
    rcases isLineSeparator_or_exists_mem hc with hsep | ⟨line, hline, hmem⟩
    · exact blank_of_isLineSeparator hsep
    · exact h line hline c hmem
  · intro h line hline c hc
    exact h c (mem_of_mem_separatedLines hline hc)

/-- A line of blanks is left out, wherever the line end behind it begins. -/
theorem dropWhile_separatedLinesFrom_separator (h : isLineSeparator c)
    (hline : ∀ d ∈ line, blank d) (cs : List Char) :
    (separatedLinesFrom line (c :: cs)).dropWhile isBlankLine =
      (separatedLines cs).dropWhile isBlankLine := by
  have hreverse : isBlankLine line.reverse := by simpa [isBlankLine] using hline
  obtain ⟨rest, hlines, rfl | ⟨-, rfl⟩⟩ := exists_separatedLinesFrom_separator h line cs
  · rw [hlines, List.dropWhile_cons_of_pos hreverse]
  · -- By itself the LF of a CR LF ends an empty line.
    have hfeed : separatedLines ('\n' :: rest) = [] :: separatedLines rest :=
      separatedLinesFrom_lineFeed [] rest
    rw [hlines, hfeed, List.dropWhile_cons_of_pos hreverse]
    rfl

/-- Blank lines above a text are left out. -/
theorem dropWhile_separatedLinesFrom_append (line cs : List Char) (hline : ∀ c ∈ line, blank c)
    (habove : ∀ c ∈ above, blank c) (hend : EndsInSeparator above)
    (hempty : above = [] → line = []) :
    (separatedLinesFrom line (above ++ cs)).dropWhile isBlankLine =
      (separatedLines cs).dropWhile isBlankLine := by
  induction above generalizing line with
  | nil => rw [hempty rfl, List.nil_append, separatedLines]
  | cons c above ih =>
    obtain ⟨hc, habove⟩ := List.forall_mem_cons.mp habove
    rw [List.cons_append]
    cases hsep : isLineSeparator c with
    | true =>
      rw [dropWhile_separatedLinesFrom_separator hsep hline]
      exact ih [] (by simp) habove hend.of_cons fun _ => rfl
    | false =>
      rw [separatedLinesFrom_cons hsep]
      refine ih _ (List.forall_mem_cons.mpr ⟨hc, hline⟩) habove hend.of_cons ?_
      rintro rfl
      exact absurd (hend c rfl) (by simp [hsep])

/-- Blanks behind a text are blank lines if its last line is ended, by the text or by them. -/
theorem exists_separatedLinesFrom_append (line cs : List Char) (hbelow : ∀ c ∈ below, blank c)
    (hend : BeginsWithSeparator below ∨ EndsInSeparator cs ∧ (cs = [] → line = [])) :
    ∃ more, separatedLinesFrom line (cs ++ below) = separatedLinesFrom line cs ++ more ∧
      ∀ l ∈ more, isBlankLine l := by
  -- The induction follows the cut, so that it passes over a CR LF as a whole.
  fun_induction separatedLinesFrom line cs with
  | case1 line hempty =>
    obtain rfl := List.isEmpty_iff.mp hempty
    exact ⟨separatedLines below, rfl, forall_isBlankLine_iff.mpr hbelow⟩
  | case2 line hempty =>
    have hbegin : BeginsWithSeparator below :=
      hend.resolve_right fun h => hempty (by rw [h.2 rfl]; rfl)
    cases below with
    | nil => exact ⟨[], by simp [separatedLinesFrom, hempty], by simp⟩
    | cons c below =>
      obtain ⟨rest, hlines, hrest⟩ :=
        exists_separatedLinesFrom_separator (hbegin c rfl) line below
      refine ⟨separatedLines rest, hlines, forall_isBlankLine_iff.mpr fun d hd => hbelow d ?_⟩
      rcases hrest with rfl | ⟨-, rfl⟩
      · exact List.mem_cons_of_mem _ hd
      · exact List.mem_cons_of_mem _ (List.mem_cons_of_mem _ hd)
  | case3 line rest ih =>
    obtain ⟨more, hlines, hmore⟩ := ih (hend.imp_right fun h => ⟨h.1.of_cons.of_cons, fun _ => rfl⟩)
    refine ⟨more, ?_, hmore⟩
    rw [List.cons_append, List.cons_append, separatedLinesFrom_pair, separatedLines, hlines,
      List.cons_append]
  | case4 line c rest hpair hsep ih =>
    obtain ⟨behind, hlines, rfl | ⟨rfl, hbehind⟩⟩ :=
      exists_separatedLinesFrom_separator hsep line (rest ++ below)
    · obtain ⟨more, hrest, hmore⟩ := ih (hend.imp_right fun h => ⟨h.1.of_cons, fun _ => rfl⟩)
      refine ⟨more, ?_, hmore⟩
      rw [List.cons_append, hlines, separatedLines, hrest, List.cons_append]
    · -- The text ends in a CR, and what comes behind it begins with an LF.
      cases rest with
      | nil =>
        obtain rfl : below = '\n' :: behind := hbehind
        refine ⟨separatedLines behind, hlines, forall_isBlankLine_iff.mpr fun d hd => hbelow d ?_⟩
        exact List.mem_cons_of_mem _ hd
      | cons d rest =>
        obtain ⟨rfl, -⟩ := List.cons.inj hbehind
        exact absurd rfl (hpair rest rfl)
  | case5 line c rest hpair hsep ih =>
    rw [List.cons_append, separatedLinesFrom_cons (Bool.of_not_eq_true hsep)]
    refine ih (hend.imp_right fun h => ⟨h.1.of_cons, ?_⟩)
    rintro rfl
    exact absurd (h.1 c rfl) hsep

theorem trimBlankLines_eq_iff : trimBlankLines ls = core ↔ IsCore isBlankLine ls core :=
  trimEnd_dropWhile_eq_iff

theorem trimBlankLines_eq_nil_iff : trimBlankLines ls = [] ↔ ∀ line ∈ ls, isBlankLine line :=
  trimBlankLines_eq_iff.trans isCore_nil_iff

/-- Blank lines around a text are trimmed away. -/
theorem trimBlankLines_separatedLines_append (habove : ∀ c ∈ above, blank c)
    (hbelow : ∀ c ∈ below, blank c) (hend : EndsInSeparator above)
    (hmeet : BeginsWithSeparator below ∨ EndsInSeparator cs) :
    trimBlankLines (separatedLines (above ++ (cs ++ below))) =
      trimBlankLines (separatedLines cs) := by
  obtain ⟨more, hlines, hmore⟩ := exists_separatedLinesFrom_append [] cs hbelow
    (hmeet.imp_right fun h => ⟨h, fun _ => rfl⟩)
  have hdrop := dropWhile_separatedLinesFrom_append [] (cs ++ below) (by simp) habove hend fun _ => rfl
  calc
    _ = trimBlankLines (separatedLines (cs ++ below)) := congrArg (trimEnd isBlankLine) hdrop
    _ = trimBlankLines (separatedLines cs ++ more) := congrArg trimBlankLines hlines
    _ = trimBlankLines (separatedLines cs) :=
      trimBlankLines_eq_iff.mpr ((trimBlankLines_eq_iff.mp rfl).append hmore)

/-! ### Loading a notice -/

variable {s : String} {n : Notice}

/-- What the notice in a text is: the lines from the first to the last one that is not blank. -/
structure IsIn (n : Notice) (s : String) : Prop where
  lines_ne_nil : n.lines ≠ []
  head_not_blank : ∀ line ∈ n.lines.head?, isBlankLine line.toList = false
  last_not_blank : ∀ line ∈ n.lines.getLast?, isBlankLine line.toList = false
  exists_margins : ∃ before after,
    separatedLines s.toList = before ++ (n.lines.map String.toList ++ after) ∧
      (∀ line ∈ before, isBlankLine line) ∧ ∀ line ∈ after, isBlankLine line

theorem ofString?_eq_some_iff_trimBlankLines : ofString? s = some n ↔
    n.lines ≠ [] ∧ trimBlankLines (separatedLines s.toList) = n.lines.map String.toList := by
  rw [ofString?]
  constructor
  · intro h
    split at h
    · cases h
    · rename_i hne
      obtain rfl := Option.some.inj h
      exact ⟨fun hempty => hne (List.map_eq_nil_iff.mp hempty), by simp [Function.comp_def]⟩
  · rintro ⟨hne, hlines⟩
    rw [hlines]
    split
    · rename_i hempty
      exact absurd (List.map_eq_nil_iff.mp hempty) hne
    · simp [Function.comp_def]

/-- Loading finds the notice in a text. -/
theorem ofString?_eq_some_iff : ofString? s = some n ↔ n.IsIn s := by
  rw [ofString?_eq_some_iff_trimBlankLines, trimBlankLines_eq_iff]
  constructor
  · rintro ⟨hne, hmargins, hhead, hlast⟩
    rw [List.head?_map, Option.forall_mem_map] at hhead
    rw [List.getLast?_map, Option.forall_mem_map] at hlast
    exact ⟨hne, hhead, hlast, hmargins⟩
  · rintro ⟨hne, hhead, hlast, hmargins⟩
    refine ⟨hne, hmargins, ?_, ?_⟩
    · rwa [List.head?_map, Option.forall_mem_map]
    · rwa [List.getLast?_map, Option.forall_mem_map]

/-- There is no notice in a text of blanks, and in no other. -/
theorem ofString?_eq_none_iff : ofString? s = none ↔ ∀ c ∈ s.toList, blank c := by
  rw [← forall_isBlankLine_iff, ← trimBlankLines_eq_nil_iff, ofString?]
  constructor
  · intro h
    split at h
    · assumption
    · cases h
  · intro h
    rw [h]

/-- The notice in a text is the notice in its own lines. -/
theorem ofString?_joined (h : ofString? s = some n) :
    ofString? (String.join (n.lines.map (· ++ "\n"))) = some n := by
  obtain ⟨hne, hhead, hlast, -⟩ := ofString?_eq_some_iff.mp h
  have hwhole : ∀ line ∈ n.lines.map String.toList, noticeEnds.Whole line := by
    intro cs hcs c hc
    obtain ⟨line, hline, rfl⟩ := List.mem_map.mp hcs
    exact Bool.of_not_eq_true fun hsep => not_mem_of_separator h hline hsep hc
  refine ofString?_eq_some_iff.mpr ⟨hne, hhead, hlast, [], [], ?_, by simp, by simp⟩
  have hjoined : (String.join (n.lines.map (· ++ "\n"))).toList =
      (n.lines.map String.toList).flatMap (· ++ ['\n']) := by
    simp [List.flatMap_map]
  rw [hjoined, separatedLines_flatMap hwhole]
  simp

/-- Blank lines around a text make no difference. -/
theorem ofString?_append {above below : String} (habove : ∀ c ∈ above.toList, blank c)
    (hbelow : ∀ c ∈ below.toList, blank c) (hend : EndsInSeparator above.toList)
    (hmeet : BeginsWithSeparator below.toList ∨ EndsInSeparator s.toList) :
    ofString? (above ++ s ++ below) = ofString? s := by
  have htrim := trimBlankLines_separatedLines_append habove hbelow hend hmeet
  rw [ofString?, String.toList_append, String.toList_append, List.append_assoc, htrim, ofString?]

/-- Loading a notice fails on blanks alone, and else gives the lines from the first to the last one
that is not blank. They hold no line ends, they are found again when each of them is ended, and they
are the same with blank lines around the text. -/
theorem ofString?_normalizes (s : String) :
    (ofString? s = none ↔ ∀ c ∈ s.toList, blank c) ∧
    (∀ n, ofString? s = some n ↔ n.IsIn s) ∧
    (∀ n, ofString? s = some n →
      (∀ line ∈ n.lines, ∀ c, isLineSeparator c → c ∉ line.toList) ∧
      ofString? (String.join (n.lines.map (· ++ "\n"))) = some n) ∧
    ∀ above below : String, (∀ c ∈ above.toList, blank c) → (∀ c ∈ below.toList, blank c) →
      EndsInSeparator above.toList →
        BeginsWithSeparator below.toList ∨ EndsInSeparator s.toList →
          ofString? (above ++ s ++ below) = ofString? s := by
  refine ⟨ofString?_eq_none_iff, fun _ => ofString?_eq_some_iff, ?_, ?_⟩
  · intro n h
    exact ⟨fun line hline c hc => not_mem_of_separator h hline hc, ofString?_joined h⟩
  · intro above below habove hbelow hend hmeet
    exact ofString?_append habove hbelow hend hmeet

/-- A CR LF that the text shares with the lines above it, and separators of other kinds. -/
theorem ofString?_normalizes_mixed :
    (⟨[" /*", "", "Ours", " */"]⟩ : Notice).IsIn "\n /*\x0c\x0bOurs\u0085 */\u2028\t" ∧
      ofString? " /*\n\nOurs\n */\n" = some ⟨[" /*", "", "Ours", " */"]⟩ ∧
      ofString? (" \r" ++ "\n /*\x0c\x0bOurs\u0085 */\u2028\t" ++ "\n \x1c") =
        some ⟨[" /*", "", "Ours", " */"]⟩ := by
  obtain ⟨-, hin, hlines, hmargins⟩ :=
    ofString?_normalizes "\n /*\x0c\x0bOurs\u0085 */\u2028\t"
  have hload : ofString? "\n /*\x0c\x0bOurs\u0085 */\u2028\t" =
      some ⟨[" /*", "", "Ours", " */"]⟩ := by
    decide +kernel
  have hsame := hmargins " \r" "\n \x1c" (by simp [blank]) (by simp [blank])
    (by simp [EndsInSeparator, isLineSeparator])
    (Or.inl (by simp [BeginsWithSeparator, isLineSeparator]))
  exact ⟨(hin _).mp hload, (hlines _ hload).2, hsame.trans hload⟩

end Notice

end Letterhead
