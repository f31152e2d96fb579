import Letterhead.Text.Lines

/-!
# Pieces and lines

What cutting a list at a separator gives, and how lines are put together again. A text is cut into
lines one line end after the other, so facts about its lines are inductions on these.

## Main results

* `splitOn_append` — the pieces of two lists put together
* `Text.lines_unlines` — lines put together and cut again
* `Text.unifyLineEnds_append` — unifying line ends passes over what holds none
-/

namespace Letterhead

/-- The pieces between separators hold none. -/
theorem not_mem_of_mem_splitOn {α : Type} [BEq α] [LawfulBEq α] {a : α} {xs piece : List α}
    (h : piece ∈ xs.splitOn a) : a ∉ piece := by
  induction xs generalizing piece with
  | nil =>
    obtain rfl : piece = [] := by simpa using h
    exact List.not_mem_nil
  | cons x xs ih =>
    rw [List.splitOn_cons_eq_if_modifyHead] at h
    split at h
    · rcases List.mem_cons.mp h with rfl | h
      · exact List.not_mem_nil
      · exact ih h
    · -- The character joins the first of the later pieces.
      rename_i hx
      obtain ⟨first, more, hsplit⟩ := List.exists_cons_of_ne_nil (List.splitOn_ne_nil a xs)
      rw [hsplit, List.modifyHead_cons] at h
      rcases List.mem_cons.mp h with rfl | h
      · have := ih (hsplit ▸ List.mem_cons_self)
        simpa [this] using fun hax => hx (by simp [hax])
      · exact ih (hsplit ▸ List.mem_cons_of_mem _ h)

/-- Where two lists meet, the last piece of the one and the first of the other become one. -/
theorem splitOn_append {α : Type} [BEq α] [LawfulBEq α] {a : α} {xs ys last first : List α}
    {before after : List (List α)} (hxs : xs.splitOn a = before ++ [last])
    (hys : ys.splitOn a = first :: after) :
    (xs ++ ys).splitOn a = before ++ (last ++ first) :: after := by
  induction xs generalizing before last with
  | nil =>
    obtain ⟨rfl, rfl⟩ : before = [] ∧ last = [] := by
      simpa [List.singleton_eq_append_iff] using hxs
    exact hys
  | cons x xs ih =>
    obtain ⟨front, piece, hsplit⟩ :=
      (List.eq_nil_or_concat (xs.splitOn a)).resolve_left (List.splitOn_ne_nil a xs)
    rw [List.concat_eq_append] at hsplit
    rw [List.cons_append, List.splitOn_cons_eq_if_modifyHead, ih hsplit]
    rw [List.splitOn_cons_eq_if_modifyHead, hsplit] at hxs
    by_cases hx : x == a
    · rw [if_pos hx] at hxs ⊢
      obtain ⟨rfl, hlast⟩ := List.append_inj' ((List.cons_append ..).trans hxs) rfl
      cases hlast
      rfl
    · -- The element joins the first of the pieces, which may be the last one too.
      rw [if_neg hx] at hxs ⊢
      cases front with
      | nil =>
        obtain ⟨rfl, hlast⟩ := List.append_inj' ((List.nil_append _).trans hxs) rfl
        cases hlast
        rfl
      | cons next more =>
        obtain ⟨rfl, hlast⟩ := List.append_inj' ((List.cons_append ..).trans hxs) rfl
        cases hlast
        rfl

/-- A list falls into the longest stretch at its start on which `p` holds, and what comes after. -/
theorem exists_split {α : Type} (p : α → Bool) (xs : List α) :
    (∀ x ∈ xs, p x) ∨ ∃ before x after, xs = before ++ x :: after ∧ (∀ y ∈ before, p y) ∧
      p x = false := by
  cases hfind : xs.find? fun x => !p x with
  | none =>
    left
    intro x hx
    simpa using List.find?_eq_none.mp hfind x hx
  | some x =>
    right
    obtain ⟨hx, before, after, rfl, hbefore⟩ := List.find?_eq_some_iff_append.mp hfind
    exact ⟨before, x, after, rfl, fun y hy => by simpa using hbefore y hy, by simpa using hx⟩

namespace Text

variable {s t line : Text}

/-- The carriage return. -/
def carriageReturn : CodePoint := .scalar '\r'

/-! ### Cutting at line feeds -/

theorem dropFinalEmpty_cons {α : Type} (piece : List α) {pieces : List (List α)} (h : pieces ≠ []) :
    dropFinalEmpty (piece :: pieces) = piece :: dropFinalEmpty pieces := by
  cases pieces with
  | nil => exact absurd rfl h
  | cons next more => cases piece <;> rfl

/-- A line feed ends its line. -/
theorem lines_append_lineFeed (h : lineFeed ∉ line) (t : Text) :
    lines (line ++ lineFeed :: t) = line :: lines t := by
  rw [lines, List.splitOn_append_cons_self_of_not_mem h,
    dropFinalEmpty_cons _ (List.splitOn_ne_nil _ _)]
  rfl

/-- What stands behind the last line feed is a line, if it is anything. -/
theorem lines_of_not_mem (h : lineFeed ∉ line) : lines line = if line = [] then [] else [line] := by
  rw [lines, List.splitOn_eq_singleton h]
  cases line <;> rfl

theorem lines_unlines {ls : List Text} (h : ∀ l ∈ ls, lineFeed ∉ l) : lines (unlines ls) = ls := by
  induction ls with
  | nil => rfl
  | cons l ls ih =>
    rw [unlines_cons, lines_append_lineFeed (h l List.mem_cons_self),
      ih fun l' hl' => h l' (List.mem_cons_of_mem _ hl')]

/-! ### Unifying line ends -/

theorem unifyLineEnds_cons {p : CodePoint} (h : p ≠ carriageReturn) (t : Text) :
    unifyLineEnds (p :: t) = p :: unifyLineEnds t := by
  rw [unifyLineEnds]
  · exact fun _ hp _ => h hp
  · exact h

theorem unifyLineEnds_append (h : carriageReturn ∉ s) (t : Text) :
    unifyLineEnds (s ++ t) = s ++ unifyLineEnds t := by
  induction s with
  | nil => rfl
  | cons p s ih =>
    have hp : p ≠ carriageReturn := fun heq => h (heq ▸ List.mem_cons_self)
    rw [List.cons_append, unifyLineEnds_cons hp, ih fun hs => h (List.mem_cons_of_mem _ hs),
      List.cons_append]

theorem unifyLineEnds_of_not_mem (h : carriageReturn ∉ t) : unifyLineEnds t = t := by
  have := unifyLineEnds_append h []
  rwa [List.append_nil, unifyLineEnds, List.append_nil] at this

theorem unifyLineEnds_carriageReturn (h : t.head? ≠ some lineFeed) :
    unifyLineEnds (carriageReturn :: t) = lineFeed :: unifyLineEnds t := by
  cases t with
  | nil => rfl
  | cons p t =>
    have hp : p ≠ .scalar '\n' := fun heq => h (by rw [heq]; rfl)
    rw [carriageReturn, unifyLineEnds]
    exact fun _ heq => hp (List.cons.inj heq).1

end Text

end Letterhead
