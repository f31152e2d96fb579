import Letterhead.Proofs.Encoding.Decode
import Letterhead.Proofs.Text.Lines

/-!
# The lines of a file, byte by byte

A file can be cut into lines before it is read, at the bytes that end a line: CR LF, CR and LF. In
all charsets these bytes stand for the line ends alone, even next to bytes that are no characters,
or to a character that breaks off. So it makes no difference whether a file is cut first and its
lines are read one by one, or whether it is read first and its text is cut.

## Main definitions

* `byteLines`, `byteUnlines` — cutting bytes at line ends, and putting lines together again
* `Charset.bodyOf` — the bytes of a file behind a byte order mark

## Main results

* `lineEnd_induction` — induction on bytes, from one line end to the next
* `Charset.lines_decodeBody` — the lines of a file are its byte lines, read one by one
* `Charset.spell?_unlines` — lines that were read are written as the bytes they were read from
-/

namespace Letterhead

variable {bytes line rest : List UInt8} {ls : List (List UInt8)}

/-! ### Cutting bytes -/

/-- The lines of some bytes, each without its line end: CR LF, or a CR or LF by itself. What stands
behind the last line end is a line, if it is anything. -/
def byteLines : List UInt8 → List (List UInt8)
  | [] => []
  | 0x0D :: 0x0A :: rest => [] :: byteLines rest
  | byte :: rest =>
    if byte = 0x0A ∨ byte = 0x0D then [] :: byteLines rest
    else
      match byteLines rest with
      | [] => [[byte]]
      | line :: more => (byte :: line) :: more

/-- The lines one after the other, each ended by LF. -/
def byteUnlines (ls : List (List UInt8)) : List UInt8 := ls.flatMap (· ++ [0x0A])

@[simp] theorem byteUnlines_nil : byteUnlines [] = [] := rfl

@[simp] theorem byteUnlines_cons (line : List UInt8) (ls : List (List UInt8)) :
    byteUnlines (line :: ls) = line ++ 0x0A :: byteUnlines ls := by simp [byteUnlines]

example : byteLines [0x61, 0x0D, 0x0A, 0x0D, 0xC3, 0x0A, 0xA9] = [[0x61], [], [0xC3], [0xA9]] := by
  decide

/-- Bytes that end no line. -/
structure NoLineEnd (bytes : List UInt8) : Prop where
  noFeed : 0x0A ∉ bytes
  noReturn : 0x0D ∉ bytes

theorem byteLines_lf (rest : List UInt8) : byteLines (0x0A :: rest) = [] :: byteLines rest := by
  rw [byteLines, if_pos (Or.inl rfl)]
  simp

theorem byteLines_cr (h : rest.head? ≠ some 0x0A) :
    byteLines (0x0D :: rest) = [] :: byteLines rest := by
  rw [byteLines, if_pos (Or.inr rfl)]
  rintro left - rfl
  exact h rfl

theorem byteLines_crlf (rest : List UInt8) :
    byteLines (0x0D :: 0x0A :: rest) = [] :: byteLines rest := by
  rw [byteLines]

/-- A byte that ends no line stands before the first line of what follows. -/
theorem byteLines_cons {byte : UInt8} (hfeed : byte ≠ 0x0A) (hreturn : byte ≠ 0x0D)
    (rest : List UInt8) :
    byteLines (byte :: rest) = (byte :: (byteLines rest).headD []) :: (byteLines rest).tail := by
  rw [byteLines, if_neg (by simp [hfeed, hreturn])]
  · cases byteLines rest <;> rfl
  · exact fun _ h _ => hreturn h

theorem NoLineEnd.of_cons {byte : UInt8} (h : NoLineEnd (byte :: bytes)) :
    byte ≠ 0x0A ∧ byte ≠ 0x0D ∧ NoLineEnd bytes := by
  obtain ⟨hfeed, hreturn⟩ := h
  rw [List.mem_cons, not_or] at hfeed hreturn
  exact ⟨Ne.symm hfeed.1, Ne.symm hreturn.1, hfeed.2, hreturn.2⟩

/-- What ends no line is a line, if it is anything. -/
theorem byteLines_of_noLineEnd (h : NoLineEnd bytes) :
    byteLines bytes = if bytes = [] then [] else [bytes] := by
  induction bytes with
  | nil => rfl
  | cons byte bytes ih =>
    obtain ⟨hfeed, hreturn, hbytes⟩ := h.of_cons
    rw [byteLines_cons hfeed hreturn, ih hbytes]
    cases bytes <;> rfl

/-- What ends no line stands before a first line that is empty otherwise. -/
theorem byteLines_append (h : NoLineEnd line) (hrest : byteLines rest = [] :: ls) :
    byteLines (line ++ rest) = line :: ls := by
  induction line with
  | nil => exact hrest
  | cons byte line ih =>
    obtain ⟨hfeed, hreturn, hline⟩ := h.of_cons
    rw [List.cons_append, byteLines_cons hfeed hreturn, ih hline]
    rfl

/-- Induction on bytes, from one line end to the next. -/
theorem lineEnd_induction {motive : List UInt8 → Prop}
    (last : ∀ line, NoLineEnd line → motive line)
    (lf : ∀ line rest, NoLineEnd line → motive rest → motive (line ++ 0x0A :: rest))
    (crlf : ∀ line rest, NoLineEnd line → motive rest →
      motive (line ++ 0x0D :: 0x0A :: rest))
    (cr : ∀ line rest, NoLineEnd line → rest.head? ≠ some 0x0A → motive rest →
      motive (line ++ 0x0D :: rest)) (bytes : List UInt8) : motive bytes := by
  -- What stands behind the first line end is shorter by a byte at least.
  induction hlength : bytes.length using Nat.strong_induction_on generalizing bytes with
  | _ length ih =>
    rcases exists_split (fun byte => byte != 0x0A && byte != 0x0D) bytes with
      hnone | ⟨line, byte, rest, rfl, hline, hbyte⟩
    · exact last bytes ⟨fun h => by simpa using hnone _ h, fun h => by simpa using hnone _ h⟩
    have hends : NoLineEnd line :=
      ⟨fun h => by simpa using hline _ h, fun h => by simpa using hline _ h⟩
    rw [List.length_append, List.length_cons] at hlength
    by_cases hfeed : byte = 0x0A
    · subst hfeed
      exact lf line rest hends (ih rest.length (by omega) rest rfl)
    obtain rfl : byte = 0x0D := by simpa [hfeed] using hbyte
    cases rest with
    | nil => exact cr line [] hends (by simp) (ih 0 (by omega) [] rfl)
    | cons next rest =>
      rw [List.length_cons] at hlength
      by_cases hnext : next = 0x0A
      · subst hnext
        exact crlf line rest hends (ih rest.length (by omega) rest rfl)
      · exact cr line (next :: rest) hends (by simpa using hnext)
          (ih (next :: rest).length (by rw [List.length_cons]; omega) _ rfl)

/-- No byte line holds a line end. -/
theorem noLineEnd_of_mem_byteLines : ∀ line ∈ byteLines bytes, NoLineEnd line := by
  induction bytes using lineEnd_induction with
  | last line h =>
    rw [byteLines_of_noLineEnd h]
    split
    · simp
    · simpa using h
  | lf line rest h ih =>
    rw [byteLines_append h (byteLines_lf rest)]
    exact List.forall_mem_cons.mpr ⟨h, ih⟩
  | crlf line rest h ih =>
    rw [byteLines_append h (byteLines_crlf rest)]
    exact List.forall_mem_cons.mpr ⟨h, ih⟩
  | cr line rest h hhead ih =>
    rw [byteLines_append h (byteLines_cr hhead)]
    exact List.forall_mem_cons.mpr ⟨h, ih⟩

/-- Lines that are put together are cut again. -/
theorem byteLines_byteUnlines (h : ∀ line ∈ ls, NoLineEnd line) :
    byteLines (byteUnlines ls) = ls := by
  induction ls with
  | nil => rfl
  | cons line ls ih =>
    rw [byteUnlines_cons, byteLines_append (h line List.mem_cons_self) (byteLines_lf _),
      ih fun line' hline' => h line' (List.mem_cons_of_mem _ hline')]

namespace Charset

open Text (lineFeed carriageReturn unlines)

variable {charset : Charset} {left t : Text}

/-! ### Reading -/

/-- A character of ASCII is read only where its byte stands. -/
theorem mem_of_ascii_mem_decodeBody {byte : UInt8} (h : byte.toNat < 0x80)
    (hmem : .scalar (Char.ofNat byte.toNat) ∈ charset.decodeBody bytes) : byte ∈ bytes := by
  obtain ⟨first, hfirst, hsubset⟩ := mem_spell? (spell?_decodeBody charset bytes) hmem
  rw [bytesOfLenient?_ascii charset h] at hfirst
  obtain rfl := Option.some.inj hfirst
  exact hsubset byte List.mem_cons_self

theorem lineFeed_not_mem (charset : Charset) (h : NoLineEnd bytes) :
    lineFeed ∉ charset.decodeBody bytes := fun hmem =>
  h.noFeed (mem_of_ascii_mem_decodeBody (show (0x0A : UInt8).toNat < 0x80 by decide) hmem)

theorem carriageReturn_not_mem (charset : Charset) (h : NoLineEnd bytes) :
    carriageReturn ∉ charset.decodeBody bytes := fun hmem =>
  h.noReturn (mem_of_ascii_mem_decodeBody (show (0x0D : UInt8).toNat < 0x80 by decide) hmem)

theorem decodeBody_lineFeed (charset : Charset) (bytes rest : List UInt8) :
    charset.decodeBody (bytes ++ 0x0A :: rest) =
      charset.decodeBody bytes ++ lineFeed :: charset.decodeBody rest :=
  decodeBody_append_ascii charset (show (0x0A : UInt8).toNat < 0x80 by decide) bytes rest

theorem decodeBody_carriageReturn (charset : Charset) (bytes rest : List UInt8) :
    charset.decodeBody (bytes ++ 0x0D :: rest) =
      charset.decodeBody bytes ++ carriageReturn :: charset.decodeBody rest :=
  decodeBody_append_ascii charset (show (0x0D : UInt8).toNat < 0x80 by decide) bytes rest

@[simp] theorem decodeBody_nil (charset : Charset) : charset.decodeBody [] = [] :=
  decodeBody_eq_nil_iff.mpr rfl

theorem decodeBody_cons_lineFeed (charset : Charset) (rest : List UInt8) :
    charset.decodeBody (0x0A :: rest) = lineFeed :: charset.decodeBody rest := by
  have h := decodeBody_lineFeed charset [] rest
  rwa [decodeBody_nil] at h

/-- A line feed is read first only where one stands first. -/
theorem head?_of_decodeBody (h : (charset.decodeBody bytes).head? = some lineFeed) :
    bytes.head? = some 0x0A := by
  cases hbody : charset.decodeBody bytes with
  | nil => rw [hbody] at h; cases h
  | cons p t =>
    rw [hbody] at h
    obtain rfl := Option.some.inj h
    have hspell := spell?_decodeBody charset bytes
    rw [hbody] at hspell
    obtain ⟨first, more, hfirst, -, rfl⟩ := spell?_cons_eq_some hspell
    have hfeed : charset.bytesOfLenient? lineFeed = some [0x0A] :=
      bytesOfLenient?_ascii charset (show (0x0A : UInt8).toNat < 0x80 by decide)
    rw [hfeed] at hfirst
    obtain rfl := Option.some.inj hfirst
    rfl

/-- A line end cuts off what was read before it. -/
theorem lines_decodeBody_append (charset : Charset) (h : NoLineEnd line)
    (ht : t.unifyLineEnds = lineFeed :: left) :
    (charset.decodeBody line ++ t).unifyLineEnds.lines = charset.decodeBody line :: left.lines := by
  rw [Text.unifyLineEnds_append (charset.carriageReturn_not_mem h), ht,
    Text.lines_append_lineFeed (charset.lineFeed_not_mem h)]

/-- The lines of a file are its byte lines, read one by one. -/
theorem lines_decodeBody (charset : Charset) (bytes : List UInt8) :
    (charset.decodeBody bytes).unifyLineEnds.lines = (byteLines bytes).map charset.decodeBody := by
  induction bytes using lineEnd_induction with
  | last line h =>
    rw [Text.unifyLineEnds_of_not_mem (charset.carriageReturn_not_mem h),
      Text.lines_of_not_mem (charset.lineFeed_not_mem h), byteLines_of_noLineEnd h]
    by_cases hline : line = []
    · rw [if_pos hline, if_pos (decodeBody_eq_nil_iff.mpr hline)]
      rfl
    · rw [if_neg hline, if_neg (mt decodeBody_eq_nil_iff.mp hline)]
      rfl
  | lf line rest h ih =>
    rw [decodeBody_lineFeed, lines_decodeBody_append charset h
      (Text.unifyLineEnds_cons (by decide) _), ih, byteLines_append h (byteLines_lf rest)]
    rfl
  | crlf line rest h ih =>
    -- The two bytes are read as two characters, which are one line end as well.
    rw [decodeBody_carriageReturn, decodeBody_cons_lineFeed, lines_decodeBody_append charset h rfl,
      ih, byteLines_append h (byteLines_crlf rest)]
    rfl
  | cr line rest h hhead ih =>
    -- No line feed is read behind the CR, for no LF stands there.
    have hread : (charset.decodeBody rest).head? ≠ some lineFeed := mt head?_of_decodeBody hhead
    rw [decodeBody_carriageReturn, lines_decodeBody_append charset h
      (Text.unifyLineEnds_carriageReturn hread), ih, byteLines_append h (byteLines_cr hhead)]
    rfl

/-- The bytes of a file behind a byte order mark, where the charset has one. -/
def bodyOf : Charset → List UInt8 → List UInt8
  | utf8Marked, bytes => dropMark bytes
  | _, bytes => bytes

theorem decode_eq_decodeBody (charset : Charset) (bytes : List UInt8) :
    charset.decode bytes = charset.decodeBody (charset.bodyOf bytes) := by
  cases charset <;> rfl

theorem lines_decode (charset : Charset) (bytes : List UInt8) :
    (charset.decode bytes).unifyLineEnds.lines =
      (byteLines (charset.bodyOf bytes)).map charset.decodeBody := by
  rw [decode_eq_decodeBody, lines_decodeBody]

/-! ### Writing -/

theorem decodeBody_byteUnlines (charset : Charset) (ls : List (List UInt8)) :
    charset.decodeBody (byteUnlines ls) = unlines (ls.map charset.decodeBody) := by
  induction ls with
  | nil => exact decodeBody_nil charset
  | cons line ls ih =>
    rw [byteUnlines_cons, decodeBody_lineFeed, ih, List.map_cons, Text.unlines_cons]

/-- Lines that were read are written as the bytes that they were read from. -/
theorem spell?_unlines (charset : Charset) (ls : List (List UInt8)) :
    charset.spell? (unlines (ls.map charset.decodeBody)) = some (byteUnlines ls) := by
  rw [← decodeBody_byteUnlines, spell?_decodeBody]

end Charset

end Letterhead
