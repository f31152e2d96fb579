import Letterhead.Proofs.Encoding.ByteLines

/-!
# Lines that are read back

A line is legible in a charset if it is what some bytes without line ends are read as. All lines of
a file are legible, whatever bytes it holds, and so are the lines of a notice that the charset has
bytes for. A file made of legible lines is read as just these lines again.

## Main definitions

* `Charset.Legible` — lines that some bytes are read as

## Main results

* `Charset.legible_of_mem_lines` — the lines of a file are legible
* `Charset.exists_encode_unlines` — legible lines are read back
* `Charset.exists_encode_unlines_of_forall` — lines that can be written one by one can be together
-/

namespace Letterhead.Charset

open Text (unlines)

variable {charset : Charset} {bytes : List UInt8} {line : Text} {ls : List Text}

/-- A line that some bytes without line ends are read as. -/
def Legible (charset : Charset) (line : Text) : Prop :=
  ∃ bytes, charset.decodeBody bytes = line ∧ 0x0A ∉ bytes ∧ 0x0D ∉ bytes

theorem legible_nil (charset : Charset) : charset.Legible [] :=
  ⟨[], charset.decodeBody_nil, List.not_mem_nil, List.not_mem_nil⟩

/-- The lines of a file are legible, since each is read from a byte line. -/
theorem legible_of_mem_lines (charset : Charset) (bytes : List UInt8) :
    ∀ line ∈ (charset.decode bytes).unifyLineEnds.lines, charset.Legible line := by
  rw [lines_decode]
  intro line hline
  obtain ⟨own, hown, rfl⟩ := List.mem_map.mp hline
  obtain ⟨hfeed, hreturn⟩ := noLineEnd_of_mem_byteLines own hown
  exact ⟨own, rfl, hfeed, hreturn⟩

/-- Legible lines are read from some byte lines. -/
theorem exists_byteLines (h : ∀ line ∈ ls, charset.Legible line) :
    ∃ own : List (List UInt8), ls = own.map charset.decodeBody ∧ ∀ line ∈ own, NoLineEnd line := by
  induction ls with
  | nil => exact ⟨[], rfl, by simp⟩
  | cons line ls ih =>
    obtain ⟨first, rfl, hfeed, hreturn⟩ := h line List.mem_cons_self
    obtain ⟨own, rfl, hown⟩ := ih fun line' hline' => h line' (List.mem_cons_of_mem _ hline')
    exact ⟨first :: own, rfl, List.forall_mem_cons.mpr ⟨⟨hfeed, hreturn⟩, hown⟩⟩

/-- A byte of ASCII is read wherever it stands. -/
theorem ascii_mem_decodeBody (charset : Charset) {byte : UInt8} (h : byte.toNat < 0x80)
    (hmem : byte ∈ bytes) :
    .scalar (Char.ofNat byte.toNat) ∈ charset.decodeBody bytes := by
  obtain ⟨before, after, rfl⟩ := List.append_of_mem hmem
  rw [decodeBody_append_ascii charset h]
  exact List.mem_append_right _ List.mem_cons_self

/-- Characters that the charset has bytes for make a legible line, if no line end is among them. -/
theorem legible_of_spell? {cs : List Char} (h : charset.spell? (cs.map .scalar) = some bytes)
    (hfeed : '\n' ∉ cs) (hreturn : '\r' ∉ cs) : charset.Legible (cs.map .scalar) := by
  have hbody := decodeBody_spell h
  refine ⟨bytes, hbody, fun hmem => hfeed ?_, fun hmem => hreturn ?_⟩
  · have hscalar := charset.ascii_mem_decodeBody (by decide) hmem
    rw [hbody] at hscalar
    simpa using hscalar
  · have hscalar := charset.ascii_mem_decodeBody (by decide) hmem
    rw [hbody] at hscalar
    simpa using hscalar

/-- Legible lines are written, and what is written is read as these lines. -/
theorem exists_encode_unlines (h : ∀ line ∈ ls, charset.Legible line) :
    ∃ bytes, charset.encode (unlines ls) = .ok bytes ∧
      (charset.decode bytes).unifyLineEnds.lines = ls := by
  obtain ⟨own, rfl, hown⟩ := exists_byteLines h
  refine ⟨charset.mark ++ byteUnlines own,
    encode_eq_ok_iff.mpr ⟨byteUnlines own, charset.spell?_unlines own, rfl⟩, ?_⟩
  rw [decode_mark_append, lines_decodeBody, byteLines_byteUnlines hown]

/-! ### Lines that can be written -/

/-- A text can be written if each of its code points can. -/
theorem exists_encode_iff {t : Text} : (∃ bytes, charset.encode t = .ok bytes) ↔
    ∀ p ∈ t, ∃ first, charset.bytesOfLenient? p = some first := by
  constructor
  · rintro ⟨bytes, h⟩ p hp
    obtain ⟨body, hbody, -⟩ := encode_eq_ok_iff.mp h
    obtain ⟨first, hfirst, -⟩ := mem_spell? hbody hp
    exact ⟨first, hfirst⟩
  · intro h
    obtain ⟨body, hbody⟩ := exists_spell? h
    exact ⟨charset.mark ++ body, encode_eq_ok_iff.mpr ⟨body, hbody, rfl⟩⟩

/-- UTF-8 has bytes for every proper string. -/
theorem exists_encode_utf8 (s : String) : ∃ bytes, utf8.encode (Text.ofString s) = .ok bytes := by
  rw [exists_encode_iff]
  intro p hp
  obtain ⟨c, -, rfl⟩ := List.mem_map.mp hp
  exact ⟨_, bytesOfLenient?_scalar utf8 c⟩

theorem Legible.exists_encode (h : charset.Legible line) :
    ∃ bytes, charset.encode line = .ok bytes := by
  obtain ⟨bytes, rfl, -, -⟩ := h
  exact ⟨charset.mark ++ bytes, encode_eq_ok_iff.mpr ⟨bytes, spell?_decodeBody charset bytes, rfl⟩⟩

/-- Lines that can be written one by one can be written together. -/
theorem exists_encode_unlines_of_forall
    (h : ∀ line ∈ ls, ∃ bytes, charset.encode line = .ok bytes) :
    ∃ bytes, charset.encode (unlines ls) = .ok bytes := by
  rw [exists_encode_iff]
  intro p hp
  obtain ⟨line, hline, hmem⟩ := List.mem_flatMap.mp hp
  rcases List.mem_append.mp hmem with hmem | hmem
  · exact exists_encode_iff.mp (h line hline) p hmem
  · obtain rfl := List.mem_singleton.mp hmem
    exact ⟨_, charset.bytesOfLenient?_ascii (show (0x0A : UInt8).toNat < 0x80 by decide)⟩

end Letterhead.Charset
