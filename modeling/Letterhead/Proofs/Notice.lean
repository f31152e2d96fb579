import Mathlib.Data.List.Forall2
import Letterhead.Notice
import Letterhead.Proofs.Encoding.Lines
import Letterhead.Proofs.Scan.Rescan
import Letterhead.Proofs.Text.Cut

/-!
# Notices in files

What the lines of a notice are like once they stand in a file: they are read back as they are, and a
notice that is a block comment looks like a header there.

## Main results

* `Notice.not_mem_of_separator` — no line of a notice holds a line end of any kind
* `Notice.legible` — the lines of a notice that has bytes in a charset are read back
* `Notice.exists_header` — the bytes of a notice, line by line
* `Notice.isBlock` — a block comment looks like a header at both ends
-/

namespace Letterhead

namespace Notice

variable {n : Notice} {text : String} {charset : Charset} {bytes : List UInt8}

/-- The lines of a notice are among those of its text. -/
theorem mem_separatedLines (h : ofString? text = some n) {line : String} (hline : line ∈ n.lines) :
    line.toList ∈ separatedLines text.toList := by
  rw [ofString?] at h
  split at h
  · cases h
  · obtain rfl := Option.some.inj h
    obtain ⟨cs, hcs, rfl⟩ := List.mem_map.mp hline
    rw [String.toList_ofList]
    exact (List.dropWhile_sublist _).mem (mem_of_mem_trimEnd hcs)

/-- No line of a notice holds a separator of lines. -/
theorem not_mem_of_separator (h : ofString? text = some n) {line : String} (hline : line ∈ n.lines)
    {c : Char} (hc : isLineSeparator c) : c ∉ line.toList :=
  not_mem_of_mem_separatedLines hc (mem_separatedLines h hline)

/-- Each line of a notice that has bytes in a charset has bytes by itself. -/
theorem exists_spell? (hencode : charset.encode (Text.unlines n.toLines) = .ok bytes)
    {line : String} (hline : line ∈ n.lines) :
    ∃ own, charset.spell? (Text.ofString line) = some own := by
  obtain ⟨body, hbody, -⟩ := Charset.encode_eq_ok_iff.mp hencode
  refine Charset.exists_spell? fun p hp => ?_
  obtain ⟨first, hfirst, -⟩ := Charset.mem_spell? hbody
    (List.mem_flatMap.mpr ⟨_, List.mem_map_of_mem hline, List.mem_append_left _ hp⟩)
  exact ⟨first, hfirst⟩

/-- The lines of a notice that has bytes in a charset are read back in a file. -/
theorem legible (h : ofString? text = some n)
    (hencode : charset.encode (Text.unlines n.toLines) = .ok bytes) :
    ∀ line ∈ n.toLines, charset.Legible line := by
  intro line hline
  obtain ⟨given, hgiven, rfl⟩ := List.mem_map.mp hline
  obtain ⟨own, hown⟩ := exists_spell? hencode hgiven
  exact Charset.legible_of_spell? hown (not_mem_of_separator h hgiven (by decide))
    (not_mem_of_separator h hgiven (by decide))

/-- A notice that has bytes in a charset has them line by line, and they are read as its lines. -/
theorem exists_header (hencode : charset.encode (Text.unlines n.toLines) = .ok bytes) :
    ∃ header : List (List UInt8), header.map charset.decodeBody = n.toLines ∧
      List.Forall₂ (fun line own => charset.encode line = .ok (charset.mark ++ own)) n.toLines
        header := by
  have hspell : ∀ line ∈ n.lines, ∃ own, charset.spell? (Text.ofString line) = some own :=
    fun line hline => exists_spell? hencode hline
  rw [toLines]
  generalize n.lines = lines at hspell
  induction lines with
  | nil => exact ⟨[], rfl, .nil⟩
  | cons line lines ih =>
    obtain ⟨⟨own, hown⟩, hmore⟩ := List.forall_mem_cons.mp hspell
    obtain ⟨header, hread, hwritten⟩ := ih hmore
    refine ⟨own :: header, ?_, .cons (Charset.encode_eq_ok_iff.mpr ⟨own, hown, rfl⟩) hwritten⟩
    rw [List.map_cons, List.map_cons, hread]
    exact congrArg (· :: _) (Charset.decodeBody_spell hown)

/-- A block comment is opened on its first line and closed on its last. -/
theorem isBlock (h : n.isBlockComment) : IsBlock n.toLines := by
  rw [isBlockComment] at h
  split at h
  · rename_i first second rest hlines
    obtain ⟨hopen, hclose⟩ := Bool.and_eq_true_iff.mp h
    refine ⟨first, (second :: rest).dropLast, (second :: rest).getLast (by simp), ?_, hopen, hclose⟩
    rw [List.dropLast_concat_getLast, hlines]
  · cases h

end Notice

end Letterhead
