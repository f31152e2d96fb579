import Mathlib.Data.List.TakeWhile
import Letterhead.Proofs.Text.Lines

/-!
# Cutting a text at its line ends

A text falls into pieces with one line end between each two. CR LF is one line end. Any other
character that ends a line is one by itself, a CR where no LF comes next, an LF where no CR comes
before. This says what the pieces are, but not how to find them: the two ways to cut a text into
lines come out as ways to find them, with the last piece left out where it is empty.

## Main definitions

* `LineEnds`, `LineEnds.IsEnd` — the characters that end a line, and the line ends in a text
* `Cut` — the pieces of a text

## Main results

* `Cut.unique` — a text has the same pieces however it is cut
* `Text.cut_iff` — the pieces of a file are found by unifying its line ends
* `exists_cut_separatedLines` — the lines of a notice are its pieces
* `not_mem_of_mem_separatedLines` — the lines of a notice hold no separator
* `mem_of_mem_separatedLines` — the lines of a notice hold nothing but what is in its text
-/

namespace Letterhead

variable {α : Type}

/-- The characters that end a line of some kind of text. Two of them are one line end when the one
stands right before the other. -/
structure LineEnds (α : Type) where
  carriageReturn : α
  lineFeed : α
  separates : α → Bool
  separates_carriageReturn : separates carriageReturn
  separates_lineFeed : separates lineFeed
  carriageReturn_ne_lineFeed : carriageReturn ≠ lineFeed

namespace LineEnds

variable (ends : LineEnds α)

/-- A line end, where `left` stands before it and `right` behind it. -/
inductive IsEnd : List α → List α → List α → Prop
  | pair (left right : List α) : IsEnd left [ends.carriageReturn, ends.lineFeed] right
  | single {left right : List α} {x : α} : ends.separates x →
      (x = ends.carriageReturn → right.head? ≠ some ends.lineFeed) →
        (x = ends.lineFeed → left.getLast? ≠ some ends.carriageReturn) → IsEnd left [x] right

/-- No character of a piece ends a line. -/
def Whole (piece : List α) : Prop := ∀ x ∈ piece, ends.separates x = false

end LineEnds

/-- The pieces that a text falls into behind some other text `left`. -/
inductive Cut (ends : LineEnds α) : List α → List α → List (List α) → Prop
  | last {left piece : List α} : ends.Whole piece → Cut ends left piece [piece]
  | next {left piece mark rest : List α} {pieces : List (List α)} : ends.Whole piece →
      ends.IsEnd (left ++ piece) mark rest → Cut ends (left ++ (piece ++ mark)) rest pieces →
        Cut ends left (piece ++ (mark ++ rest)) (piece :: pieces)

variable {ends : LineEnds α} {left right mark mark' rest rest' t piece piece' : List α}
  {pieces pieces' : List (List α)}

theorem LineEnds.IsEnd.separates (h : ends.IsEnd left mark right) :
    ∀ x ∈ mark, ends.separates x := by
  cases h with
  | pair => simp [ends.separates_carriageReturn, ends.separates_lineFeed]
  | single hx => simpa using hx

theorem LineEnds.IsEnd.exists_cons (h : ends.IsEnd left mark right) :
    ∃ x tail, mark = x :: tail ∧ ends.separates x := by
  cases h with
  | pair => exact ⟨_, _, rfl, ends.separates_carriageReturn⟩
  | single hx => exact ⟨_, _, rfl, hx⟩

/-- A piece goes up to the first line end. -/
theorem LineEnds.Whole.takeWhile (h : ends.Whole piece) (hmark : ends.IsEnd left mark rest) :
    (piece ++ (mark ++ rest)).takeWhile (!ends.separates ·) = piece := by
  obtain ⟨x, tail, rfl, hx⟩ := hmark.exists_cons
  rw [List.takeWhile_append_of_pos (by simpa [Whole] using h), List.cons_append,
    List.takeWhile_cons_of_neg (by simp [hx]), List.append_nil]

theorem LineEnds.Whole.takeWhile_self (h : ends.Whole piece) :
    piece.takeWhile (!ends.separates ·) = piece :=
  List.takeWhile_eq_self_iff.mpr (by simpa [Whole] using h)

/-- Two line ends at the same place are the same: where CR LF stands, neither is a line end by
itself. -/
theorem LineEnds.IsEnd.eq (h : ends.IsEnd left mark rest) (h' : ends.IsEnd left mark' rest')
    (heq : mark ++ rest = mark' ++ rest') : mark = mark' ∧ rest = rest' := by
  cases h with
  | pair =>
    cases h' with
    | pair => exact ⟨rfl, by simpa using heq⟩
    | single hx hreturn =>
      obtain ⟨hx, hrest⟩ := List.cons.inj heq
      exact absurd (congrArg List.head? hrest.symm) (hreturn hx.symm)
  | single hx hreturn =>
    cases h' with
    | pair =>
      obtain ⟨hx, hrest⟩ := List.cons.inj heq
      exact absurd (congrArg List.head? hrest) (hreturn hx)
    | single =>
      obtain ⟨rfl, rfl⟩ := List.cons.inj heq
      exact ⟨rfl, rfl⟩

/-- A text has the same pieces however it is cut. -/
theorem Cut.unique (h : Cut ends left t pieces) (h' : Cut ends left t pieces') :
    pieces = pieces' := by
  induction h generalizing pieces' with
  | @last left piece hpiece =>
    cases h' with
    | last => rfl
    | @next _ piece' mark rest _ hpiece' hmark =>
      -- A piece with a line end in it is not whole.
      have heq := hpiece.takeWhile_self.symm.trans (hpiece'.takeWhile hmark)
      obtain ⟨x, tail, rfl, -⟩ := hmark.exists_cons
      simp at heq
  | @next left piece mark rest pieces hpiece hmark _ ih =>
    generalize ht : piece ++ (mark ++ rest) = t at h'
    cases h' with
    | last hpiece' =>
      subst ht
      have heq := hpiece'.takeWhile_self.symm.trans (hpiece.takeWhile hmark)
      obtain ⟨x, tail, rfl, -⟩ := hmark.exists_cons
      simp at heq
    | @next _ piece' mark' rest' pieces' hpiece' hmark' hrest' =>
      -- Either piece goes up to the first line end.
      obtain rfl : piece = piece' := by rw [← hpiece.takeWhile hmark, ht, hpiece'.takeWhile hmark']
      obtain ⟨rfl, rfl⟩ := hmark.eq hmark' (List.append_cancel_left ht)
      rw [ih hrest']

/-! ### Finding the pieces -/

theorem head?_ne_of_forall {x : α} (h : ∀ tail, t = x :: tail → False) : t.head? ≠ some x := by
  intro hhead
  obtain ⟨tail, rfl⟩ := List.head?_eq_some_iff.mp hhead
  exact h tail rfl

theorem Cut.nil (ends : LineEnds α) (left : List α) : Cut ends left [] [[]] :=
  .last fun _ hx => absurd hx List.not_mem_nil

/-- A line end at the start cuts off an empty piece. -/
theorem Cut.of_isEnd (hmark : ends.IsEnd left mark rest) (h : Cut ends (left ++ mark) rest pieces) :
    Cut ends left (mark ++ rest) ([] :: pieces) := by
  have hempty : ends.Whole [] := fun _ hx => absurd hx List.not_mem_nil
  exact .next hempty (by rwa [List.append_nil]) h

theorem Cut.of_pair (h : Cut ends (left ++ [ends.carriageReturn, ends.lineFeed]) t pieces) :
    Cut ends left (ends.carriageReturn :: ends.lineFeed :: t) ([] :: pieces) :=
  Cut.of_isEnd (.pair left t) h

theorem Cut.of_separates {x : α} (hx : ends.separates x)
    (hreturn : x = ends.carriageReturn → t.head? ≠ some ends.lineFeed)
    (hfeed : x = ends.lineFeed → left.getLast? ≠ some ends.carriageReturn)
    (h : Cut ends (left ++ [x]) t pieces) : Cut ends left (x :: t) ([] :: pieces) := by
  have hmark : ends.IsEnd left [x] t := .single hx hreturn hfeed
  exact Cut.of_isEnd hmark h

/-- A character that ends no line joins the first piece. -/
theorem Cut.cons {x : α} (hx : ends.separates x = false)
    (h : Cut ends (left ++ [x]) t (piece :: pieces)) :
    Cut ends left (x :: t) ((x :: piece) :: pieces) := by
  have hcons {piece : List α} (hpiece : ends.Whole piece) : ends.Whole (x :: piece) :=
    List.forall_mem_cons.mpr ⟨hx, hpiece⟩
  cases h with
  | last hpiece => exact .last (hcons hpiece)
  | next hpiece hmark hrest =>
    refine .next (hcons hpiece) ?_ ?_
    · rwa [List.append_assoc] at hmark
    · rwa [List.append_assoc] at hrest

theorem Cut.exists_cons (h : Cut ends left t pieces) : ∃ piece more, pieces = piece :: more := by
  cases h with
  | last => exact ⟨_, _, rfl⟩
  | next => exact ⟨_, _, rfl⟩

/-- No piece holds a character that ends a line. -/
theorem Cut.whole (h : Cut ends left t pieces) : ∀ piece ∈ pieces, ends.Whole piece := by
  induction h with
  | last hpiece => simpa using hpiece
  | next hpiece _ _ ih => exact List.forall_mem_cons.mpr ⟨hpiece, ih⟩

theorem Cut.mem_of_mem (h : Cut ends left t pieces) : ∀ piece ∈ pieces, ∀ x ∈ piece, x ∈ t := by
  induction h with
  | last => simp
  | next _ _ _ ih =>
    refine List.forall_mem_cons.mpr ⟨fun x hx => List.mem_append_left _ hx, ?_⟩
    intro piece hpiece x hx
    exact List.mem_append_right _ (List.mem_append_right _ (ih piece hpiece x hx))

/-- What is in no piece is part of a line end. -/
theorem Cut.separates_or_exists_mem (h : Cut ends left t pieces) :
    ∀ x ∈ t, ends.separates x ∨ ∃ piece ∈ pieces, x ∈ piece := by
  induction h with
  | last =>
    intro x hx
    exact Or.inr ⟨_, List.mem_singleton_self _, hx⟩
  | next _ hmark _ ih =>
    intro x hx
    rcases List.mem_append.mp hx with hx | hx
    · exact Or.inr ⟨_, List.mem_cons_self, hx⟩
    rcases List.mem_append.mp hx with hx | hx
    · exact Or.inl (hmark.separates x hx)
    · rcases ih x hx with hsep | ⟨piece, hpiece, hmem⟩
      · exact Or.inl hsep
      · exact Or.inr ⟨piece, List.mem_cons_of_mem _ hpiece, hmem⟩

/-! ### The last piece -/

theorem dropFinalEmpty_concat (pieces : List (List α)) (last : List α) :
    Text.dropFinalEmpty (pieces ++ [last]) = if last = [] then pieces else pieces ++ [last] := by
  induction pieces with
  | nil => cases last <;> rfl
  | cons piece pieces ih =>
    rw [List.cons_append, Text.dropFinalEmpty_cons _ (by simp), ih]
    split <;> rfl

/-- The last piece is left out where it is empty. -/
theorem dropFinalEmpty_eq [DecidableEq α] (pieces : List (List α)) : Text.dropFinalEmpty pieces =
    if pieces.getLast? = some [] then pieces.dropLast else pieces := by
  obtain rfl | ⟨pieces, last, rfl⟩ := List.eq_nil_or_concat pieces
  · rfl
  · simp [dropFinalEmpty_concat]

theorem dropFinalEmpty_subset (pieces : List (List α)) : Text.dropFinalEmpty pieces ⊆ pieces := by
  obtain rfl | ⟨pieces, last, rfl⟩ := List.eq_nil_or_concat pieces
  · exact List.Subset.refl _
  · rw [List.concat_eq_append, dropFinalEmpty_concat]
    split
    · exact List.subset_append_left pieces [last]
    · exact List.Subset.refl _

theorem mem_dropFinalEmpty_of_ne_nil (h : piece ∈ pieces) (hne : piece ≠ []) :
    piece ∈ Text.dropFinalEmpty pieces := by
  obtain rfl | ⟨pieces, last, rfl⟩ := List.eq_nil_or_concat pieces
  · exact absurd h List.not_mem_nil
  · rw [List.concat_eq_append] at h ⊢
    rw [dropFinalEmpty_concat]
    split
    · rename_i hempty
      exact (List.mem_append.mp h).resolve_right fun hlast =>
        hne ((List.mem_singleton.mp hlast).trans hempty)
    · exact h

/-! ### The lines of a file -/

namespace Text

/-- The characters that end a line of a file. -/
def lineEnds : LineEnds CodePoint where
  carriageReturn := carriageReturn
  lineFeed := lineFeed
  separates p := p == carriageReturn || p == lineFeed
  separates_carriageReturn := by decide
  separates_lineFeed := by decide
  carriageReturn_ne_lineFeed := by decide

theorem whole_iff {line : Text} :
    lineEnds.Whole line ↔ carriageReturn ∉ line ∧ lineFeed ∉ line := by
  simp only [LineEnds.Whole, lineEnds, Bool.or_eq_false_iff, beq_eq_false_iff_ne]
  constructor
  · intro h
    exact ⟨fun hmem => (h _ hmem).1 rfl, fun hmem => (h _ hmem).2 rfl⟩
  · rintro ⟨hreturn, hfeed⟩ p hp
    exact ⟨fun heq => hreturn (heq ▸ hp), fun heq => hfeed (heq ▸ hp)⟩

theorem splitOn_lineFeed (t : Text) :
    (lineFeed :: t).splitOn lineFeed = [] :: t.splitOn lineFeed := by
  rw [List.splitOn_cons_eq_if_modifyHead, if_pos (BEq.refl lineFeed)]

/-- Where every line end has become a line feed, the text is cut at the line feeds. The text behind
`left` must not begin in the middle of a CR LF. -/
theorem cut_unifyLineEnds (left t : Text)
    (h : left.getLast? = some carriageReturn → t.head? ≠ some lineFeed) :
    Cut lineEnds left t (t.unifyLineEnds.splitOn lineFeed) := by
  fun_induction unifyLineEnds t generalizing left with
  | case1 rest ih =>
    -- An LF behind a CR LF ends a line of its own.
    rw [splitOn_lineFeed]
    refine Cut.of_pair (ih _ fun hlast => ?_)
    simp [lineEnds, lineFeed, carriageReturn] at hlast
  | case2 rest hfeed ih =>
    have hrest : rest.head? ≠ some lineFeed := head?_ne_of_forall hfeed
    rw [splitOn_lineFeed]
    exact Cut.of_separates (by decide) (fun _ => hrest) (fun heq => absurd heq (by decide))
      (ih _ fun _ => hrest)
  | case3 p rest _ hreturn ih =>
    have hp : p ≠ carriageReturn := hreturn
    have hcut := ih (left ++ [p]) fun hlast => by simp [hp] at hlast
    by_cases hfeed : p = lineFeed
    · subst hfeed
      rw [splitOn_lineFeed]
      exact Cut.of_separates (by decide) (fun heq => absurd heq (by decide))
        (fun _ hlast => h hlast rfl) hcut
    · obtain ⟨piece, more, hpieces⟩ := hcut.exists_cons
      rw [List.splitOn_cons_eq_if_modifyHead, if_neg (by simpa using hfeed), hpieces]
      rw [hpieces] at hcut
      exact hcut.cons (by simp [lineEnds, hp, hfeed])
  | case4 => exact Cut.nil _ _

/-- The pieces of a text are those between the line feeds that its line ends become. -/
theorem cut_iff {t : Text} {pieces : List Text} :
    Cut lineEnds [] t pieces ↔ pieces = t.unifyLineEnds.splitOn lineFeed := by
  have hcut := cut_unifyLineEnds [] t (by simp)
  constructor
  · exact fun h => h.unique hcut
  · rintro rfl
    exact hcut

end Text

/-! ### The lines of a notice -/

/-- The characters that end a line of a notice. -/
def noticeEnds : LineEnds Char where
  carriageReturn := '\r'
  lineFeed := '\n'
  separates := isLineSeparator
  separates_carriageReturn := by decide
  separates_lineFeed := by decide
  carriageReturn_ne_lineFeed := by decide

/-- The pieces behind what has been read of the first line, which goes on with the first of them. -/
theorem exists_cut_separatedLinesFrom (left line cs : List Char)
    (h : left.getLast? = some '\r' → cs.head? ≠ some '\n') :
    ∃ piece more, Cut noticeEnds left cs (piece :: more) ∧
      separatedLinesFrom line cs = Text.dropFinalEmpty ((line.reverse ++ piece) :: more) := by
  fun_induction separatedLinesFrom line cs generalizing left with
  | case1 line hempty =>
    obtain rfl := List.isEmpty_iff.mp hempty
    exact ⟨[], [], Cut.nil _ _, rfl⟩
  | case2 line hempty =>
    refine ⟨[], [], Cut.nil _ _, ?_⟩
    have hne : line.reverse ++ [] ≠ [] := by simpa using hempty
    rw [← List.nil_append [line.reverse ++ []], dropFinalEmpty_concat, if_neg hne]
    simp
  | case3 line rest ih =>
    obtain ⟨piece, more, hcut, hlines⟩ := ih (left ++ ['\r', '\n']) (by simp)
    refine ⟨[], piece :: more, hcut.of_pair, ?_⟩
    rw [Text.dropFinalEmpty_cons _ (by simp), hlines, List.append_nil]
    rfl
  | case4 line c rest hpair hsep ih =>
    have hrest : c = '\r' → rest.head? ≠ some '\n' := by
      rintro rfl
      exact head?_ne_of_forall fun tail => hpair tail rfl
    obtain ⟨piece, more, hcut, hlines⟩ := ih (left ++ [c]) (by simpa using hrest)
    refine ⟨[], piece :: more, hcut.of_separates hsep hrest ?_, ?_⟩
    · rintro rfl hlast
      exact h hlast rfl
    · rw [Text.dropFinalEmpty_cons _ (by simp), hlines, List.append_nil]
      rfl
  | case5 line c rest hpair hsep ih =>
    have hreturn : c ≠ '\r' := by
      rintro rfl
      exact hsep (by decide)
    obtain ⟨piece, more, hcut, hlines⟩ := ih (left ++ [c]) (by simp [hreturn])
    refine ⟨c :: piece, more, hcut.cons (Bool.of_not_eq_true hsep), ?_⟩
    rw [hlines, List.reverse_cons, List.append_assoc]
    rfl

/-- The lines of a notice are the pieces of its text, without a last one that is empty. -/
theorem exists_cut_separatedLines (cs : List Char) :
    ∃ pieces, Cut noticeEnds [] cs pieces ∧ separatedLines cs = Text.dropFinalEmpty pieces := by
  obtain ⟨piece, more, hcut, hlines⟩ := exists_cut_separatedLinesFrom [] [] cs (by simp)
  exact ⟨piece :: more, hcut, hlines⟩

theorem not_mem_of_mem_separatedLines {c : Char} (hc : isLineSeparator c) {cs line : List Char}
    (h : line ∈ separatedLines cs) : c ∉ line := by
  obtain ⟨pieces, hcut, hlines⟩ := exists_cut_separatedLines cs
  rw [hlines] at h
  intro hmem
  have hnot : isLineSeparator c = false :=
    hcut.whole line ((dropFinalEmpty_subset _) h) c hmem
  exact Bool.false_ne_true (hnot.symm.trans hc)

theorem mem_of_mem_separatedLines {c : Char} {cs line : List Char} (h : line ∈ separatedLines cs)
    (hc : c ∈ line) : c ∈ cs := by
  obtain ⟨pieces, hcut, hlines⟩ := exists_cut_separatedLines cs
  rw [hlines] at h
  exact hcut.mem_of_mem line ((dropFinalEmpty_subset _) h) c hc

/-- The characters of a text that no line holds are separators. -/
theorem isLineSeparator_or_exists_mem {c : Char} {cs : List Char} (hc : c ∈ cs) :
    isLineSeparator c ∨ ∃ line ∈ separatedLines cs, c ∈ line := by
  obtain ⟨pieces, hcut, hlines⟩ := exists_cut_separatedLines cs
  rcases hcut.separates_or_exists_mem c hc with hsep | ⟨piece, hpiece, hmem⟩
  · exact Or.inl hsep
  · refine Or.inr ⟨piece, ?_, hmem⟩
    rw [hlines]
    exact mem_dropFinalEmpty_of_ne_nil hpiece (List.ne_nil_of_mem hmem)

end Letterhead
