import Mathlib.Data.List.TakeWhile
import Letterhead.Proofs.Scan.Region

/-!
# The scan in closed form

What the scanner makes of a file can be said without going through the lines one by one. The file
is cut at its first line that is not blank and, if that one opens a comment, once more at the first
line behind it that closes one. What comes out is made of the pieces.

## Main definitions

* `closedForm` — the lines, the mark of a change and the last phase, read off the cuts
* `PutInOnce` — lines kept from a file, with the notice among them at one place at most

## Main results

* `scan_closedForm` — every scan with the standard rules comes to the closed form
-/

namespace Letterhead

/-- What a scan comes to: the lines of the new file, whether it counts as changed, and the phase
that the scan ends in. -/
def closedForm (notice lines : List Text) : List Text × Bool × Phase :=
  match lines.dropWhile Text.isBlank with
  | [] => ([], !lines.isEmpty, .seekStart)
  | line :: rest =>
    if Pattern.packageLine.accepts line then (notice ++ [] :: line :: rest, true, .done)
    else if Pattern.commentOpen.accepts line then
      match rest.dropWhile (!·.closes) with
      -- A comment that is never closed leaves the file as it is, blank lines included.
      | [] => (lines, false, .seekEnd)
      | _ :: tail =>
        ((rest.takeWhile (!·.closes)).filter Text.isStatement ++ (notice ++ tail), true, .done)
    else (line :: rest, !(lines.takeWhile Text.isBlank).isEmpty, .done)

/-- Lines that are kept from `lines`, none of them twice and in their old order, with the notice put
in at one place at most, and perhaps an empty line below it. -/
def PutInOnce (notice lines result : List Text) : Prop :=
  ∃ before inserted after, result = before ++ (inserted ++ after) ∧
    (before ++ after).Sublist lines ∧
      (inserted = [] ∨ inserted = notice ∨ inserted = notice ++ [[]])

/-! ### The cuts -/

section Cuts

variable {α : Type} {p : α → Bool} {before after : List α} {x : α}

theorem takeWhile_append_cons (hbefore : ∀ y ∈ before, p y) (hx : p x = false) :
    (before ++ x :: after).takeWhile p = before := by
  rw [List.takeWhile_append_of_pos hbefore, List.takeWhile_cons_of_neg (by simp [hx]),
    List.append_nil]

theorem dropWhile_append_cons (hbefore : ∀ y ∈ before, p y) (hx : p x = false) :
    (before ++ x :: after).dropWhile p = x :: after := by
  rw [List.dropWhile_append_of_pos hbefore, List.dropWhile_cons_of_neg (by simp [hx])]

end Cuts

/-! ### The closed form of each kind of file -/

section ClosedForm

variable {notice blanks body rest : List Text} {line opener closer : Text}

theorem closedForm_blank (h : ∀ line ∈ blanks, line.isBlank) :
    closedForm notice blanks = ([], !blanks.isEmpty, .seekStart) := by
  rw [closedForm, List.dropWhile_eq_nil_iff.mpr h]

theorem closedForm_package (hblanks : ∀ line ∈ blanks, line.isBlank)
    (h : Pattern.packageLine.accepts line) :
    closedForm notice (blanks ++ line :: rest) = (notice ++ [] :: line :: rest, true, .done) := by
  rw [closedForm, dropWhile_append_cons hblanks (Pattern.exists_trim_of_packageLine h).1]
  exact if_pos h

theorem closedForm_header (hblanks : ∀ line ∈ blanks, line.isBlank)
    (h : IsHeader opener body closer) :
    closedForm notice (blanks ++ opener :: (body ++ closer :: rest)) =
      (body.filter Text.isStatement ++ (notice ++ rest), true, .done) := by
  have hopen : ∀ line ∈ body, (!line.closes) = true := by simpa using h.body_open
  have hcloser : (!closer.closes) = false := by simpa using h.closes
  rw [closedForm, dropWhile_append_cons hblanks (Pattern.not_isBlank_of_commentOpen h.opens)]
  simp only [Pattern.not_packageLine_of_commentOpen h.opens, h.opens,
    dropWhile_append_cons hopen hcloser, takeWhile_append_cons hopen hcloser, Bool.false_eq_true,
    if_false, if_true]

theorem closedForm_unclosed (hblanks : ∀ line ∈ blanks, line.isBlank)
    (hopen : Pattern.commentOpen.accepts opener) (hbody : ∀ line ∈ body, line.closes = false) :
    closedForm notice (blanks ++ opener :: body) = (blanks ++ opener :: body, false, .seekEnd) := by
  have hnone : body.dropWhile (!·.closes) = [] :=
    List.dropWhile_eq_nil_iff.mpr fun line hline => by simp [hbody line hline]
  rw [closedForm, dropWhile_append_cons hblanks (Pattern.not_isBlank_of_commentOpen hopen)]
  simp only [Pattern.not_packageLine_of_commentOpen hopen, hopen, hnone, Bool.false_eq_true,
    if_false, if_true]

theorem closedForm_foreign (hblanks : ∀ line ∈ blanks, line.isBlank)
    (hline : line.isBlank = false) (hopen : Pattern.commentOpen.accepts line = false)
    (hpackage : Pattern.packageLine.accepts line = false) :
    closedForm notice (blanks ++ line :: rest) = (line :: rest, !blanks.isEmpty, .done) := by
  rw [closedForm, dropWhile_append_cons hblanks hline, takeWhile_append_cons hblanks hline]
  simp only [hopen, hpackage, Bool.false_eq_true, if_false]

/-- The revision of a file is the closed form, whichever way the file begins. -/
theorem revise_eq_closedForm (notice : List Text) (source : String) (lines : List Text) :
    ((revise notice source lines).lines, (revise notice source lines).changed,
      (revise notice source lines).finalPhase) = closedForm notice lines := by
  cases region lines with
  | blank hblanks =>
    obtain ⟨hlines, hchanged, hphase⟩ := revise_blank hblanks notice source
    rw [closedForm_blank hblanks, hlines, hchanged, hphase]
  | package hblanks hline =>
    obtain ⟨hlines, hchanged, hphase⟩ := revise_package hblanks hline notice source _
    rw [closedForm_package hblanks hline, hlines, hchanged, hphase]
  | header hblanks hheader =>
    obtain ⟨hlines, hchanged, hphase⟩ := revise_header hblanks hheader notice source _
    rw [closedForm_header hblanks hheader, hlines, hchanged, hphase]
  | unclosed hblanks hopen hbody =>
    obtain ⟨hlines, hchanged, hphase⟩ := revise_unclosed hblanks hopen hbody notice source
    rw [closedForm_unclosed hblanks hopen hbody, hlines, hchanged, hphase]
  | foreign hblanks hline hopen hpackage =>
    obtain ⟨hlines, hchanged, hphase⟩ := revise_foreign hblanks hline hopen hpackage notice source _
    rw [closedForm_foreign hblanks hline hopen hpackage, hlines, hchanged, hphase]

end ClosedForm

/-! ### What is kept -/

theorem PutInOnce.of_sublist {notice lines result : List Text} (h : result.Sublist lines) :
    PutInOnce notice lines result :=
  ⟨[], [], result, rfl, h, Or.inl rfl⟩

/-- The notice comes in at one place at most, and what stands around it is kept from the file. -/
theorem putInOnce_revise (notice : List Text) (source : String) (lines : List Text) :
    PutInOnce notice lines (revise notice source lines).lines := by
  cases region lines with
  | blank hblanks =>
    rw [(revise_blank hblanks notice source).1]
    exact .of_sublist (List.nil_sublist _)
  | @package blanks rest line hblanks hline =>
    refine ⟨[], notice ++ [[]], line :: rest, ?_, List.sublist_append_right _ _,
      Or.inr (Or.inr rfl)⟩
    rw [(revise_package hblanks hline notice source rest).1]
    simp
  | @header blanks body rest opener closer hblanks hheader =>
    refine ⟨body.filter Text.isStatement, notice, rest,
      (revise_header hblanks hheader notice source rest).1, ?_, Or.inr (Or.inl rfl)⟩
    have hbody : (body.filter Text.isStatement ++ rest).Sublist (body ++ closer :: rest) :=
      List.filter_sublist.append (List.sublist_cons_self closer rest)
    exact (hbody.cons opener).trans (List.sublist_append_right blanks _)
  | unclosed hblanks hopen hbody =>
    rw [(revise_unclosed hblanks hopen hbody notice source).1]
    exact .of_sublist (List.Sublist.refl _)
  | foreign hblanks hline hopen hpackage =>
    rw [(revise_foreign hblanks hline hopen hpackage notice source _).1]
    exact .of_sublist (List.sublist_append_right _ _)

/-- A scan with the standard rules never fails, and comes to the closed form. So the notice comes in
at one place at most, and no line of the file is doubled or moved past another. -/
theorem scan_closedForm (notice : List Text) (source : String) (lines : List Text) :
    ∃ r, (Scanner.standard notice).scan source lines = .ok r ∧
      (r.lines, r.changed, r.finalPhase) = closedForm notice lines ∧
        PutInOnce notice lines r.lines :=
  ⟨revise notice source lines, scan_standard notice source lines,
    revise_eq_closedForm notice source lines, putInOnce_revise notice source lines⟩

/-- A blank line goes, the header makes way for the notice, and a statement in it is kept. -/
example : closedForm [Text.ofString "N"]
    (["", "/*", "old", "import a;", "*/ ", "class A {}"].map Text.ofString) =
      (["import a;", "N", "class A {}"].map Text.ofString, true, .done) := by decide

end Letterhead
