import Letterhead.Encoding.Decode
import Letterhead.Encoding.Encode
import Letterhead.Proofs.Encoding.Utf8
import Letterhead.Proofs.Text.Affix

/-!
# Decoding and encoding

The lenient reading loses nothing: whatever bytes a text was read from, it is written as those bytes
again. The other way round, what is written is read back as it was if it holds no stray bytes. A byte
of ASCII stands for itself in every charset and splits what is read at that place.

## Main definitions

* `Charset.decodeBody` — the reading of bytes without a byte order mark
* `Charset.spell?` — the writing of a text without a byte order mark

## Main results

* `Charset.spell?_decodeBody` — reading and writing again
* `Charset.decodeBody_spell` — writing and reading again
* `Charset.decodeBody_append_ascii` — reading is split by ASCII
* `Charset.exists_bytes_of_decodeStrict` — what the strict reading gives can be written
-/

namespace Letterhead.Charset

open Utf8

variable {charset : Charset} {bytes rest : List UInt8} {t : Text} {p : CodePoint}

/-! ### UTF-8 from one character to the next -/

theorem decodeUtf8From_append (taken more : List UInt8) :
    decodeUtf8From taken.length (taken ++ more) = decodeUtf8From 0 more := by
  induction taken with
  | nil => rfl
  | cons byte taken ih => exact ih

theorem decodeUtf8From_utf8EncodeChar (c : Char) (more : List UInt8) :
    decodeUtf8From 0 (String.utf8EncodeChar c ++ more) = .scalar c :: decodeUtf8From 0 more := by
  obtain ⟨lead, tail, hbytes, hread⟩ := readFirst_utf8EncodeChar c more
  rw [hbytes, List.cons_append, decodeUtf8From, hread]
  simp only
  rw [decodeUtf8From_append]

/-- Bytes of UTF-8 are nothing, a character before others, or a byte that starts no character. -/
theorem utf8_cases (bytes : List UInt8) :
    bytes = [] ∨ (∃ c more, bytes = String.utf8EncodeChar c ++ more) ∨
      ∃ lead more flaw, bytes = lead :: more ∧ readFirst lead more = .error flaw := by
  cases bytes with
  | nil => exact Or.inl rfl
  | cons lead more =>
    right
    cases hread : readFirst lead more with
    | error flaw => exact Or.inr ⟨lead, more, flaw, rfl, hread⟩
    | ok found =>
      obtain ⟨c, count⟩ := found
      obtain ⟨taken, left, rfl, -, hbytes⟩ := utf8EncodeChar_of_readFirst hread
      exact Or.inl ⟨c, left, by rw [hbytes]; rfl⟩

/-- Induction on bytes of UTF-8, one character or stray byte at a time. -/
theorem utf8_induction {motive : List UInt8 → Prop} (nil : motive [])
    (char : ∀ c more, motive more → motive (String.utf8EncodeChar c ++ more))
    (stray : ∀ lead more flaw, readFirst lead more = .error flaw → motive more →
      motive (lead :: more)) (bytes : List UInt8) : motive bytes := by
  induction hlength : bytes.length using Nat.strong_induction_on generalizing bytes with
  | _ length ih =>
    rcases utf8_cases bytes with rfl | ⟨c, more, rfl⟩ | ⟨lead, more, flaw, rfl, hread⟩
    · exact nil
    · refine char c more (ih more.length ?_ more rfl)
      rw [← hlength, List.length_append, String.length_utf8EncodeChar]
      have := Char.utf8Size_pos c
      omega
    · refine stray lead more flaw hread (ih more.length ?_ more rfl)
      rw [← hlength, List.length_cons]
      omega

theorem decodeUtf8From_stray {lead : UInt8} {more : List UInt8} {flaw : Flaw × Nat}
    (h : readFirst lead more = .error flaw) :
    decodeUtf8From 0 (lead :: more) = .stray lead :: decodeUtf8From 0 more := by
  rw [decodeUtf8From, h]

/-- A byte of ASCII is a character by itself. -/
theorem utf8EncodeChar_ofNat {byte : UInt8} (h : byte.toNat < 0x80) :
    String.utf8EncodeChar (Char.ofNat byte.toNat) = [byte] := by
  rw [utf8EncodeChar_one (toNat_ofNat_of_cases (Or.inl (by omega))) h, UInt8.ofNat_toNat]

theorem le_toNat_of_stray {lead : UInt8} {more : List UInt8} {flaw : Flaw × Nat}
    (h : readFirst lead more = .error flaw) : 0x80 ≤ lead.toNat := by
  by_contra hascii
  rw [readFirst, followers?, if_pos (by omega)] at h
  cases h

/-- ASCII follows no first byte of a longer character. -/
theorem followers?_low {lead value : Nat} {intervals : List (Nat × Nat)}
    (h : followers? lead = some (value, intervals)) : ∀ interval ∈ intervals, 0x80 ≤ interval.1 := by
  rw [followers?] at h
  split at h
  · obtain ⟨rfl, rfl⟩ := Prod.mk.inj (Option.some.inj h)
    simp
  split at h
  · cases h
  split at h
  · obtain ⟨-, rfl⟩ := Prod.mk.inj (Option.some.inj h)
    simp
  split at h
  · obtain ⟨-, rfl⟩ := Prod.mk.inj (Option.some.inj h)
    simp only [List.mem_cons, List.not_mem_nil, or_false, forall_eq_or_imp, forall_eq]
    split <;> omega
  split at h
  · obtain ⟨-, rfl⟩ := Prod.mk.inj (Option.some.inj h)
    simp only [List.mem_cons, List.not_mem_nil, or_false, forall_eq_or_imp, forall_eq]
    split <;> omega
  · cases h

/-- The bytes that follow a first one end before a byte of ASCII. -/
theorem readFollowers_of_append_ascii {byte : UInt8} (hbyte : byte.toNat < 0x80)
    {value number : Nat} {intervals : List (Nat × Nat)}
    (hlow : ∀ interval ∈ intervals, 0x80 ≤ interval.1) {more : List UInt8}
    (h : readFollowers value intervals (more ++ byte :: rest) = .ok number) :
    readFollowers value intervals more = .ok number := by
  induction intervals generalizing value more with
  | nil => exact h
  | cons interval intervals ih =>
    obtain ⟨low, high⟩ := interval
    obtain ⟨first, after, hsplit, hfirst, hhigh, hafter⟩ := readFollowers_eq_ok h
    have hlead : 0x80 ≤ low := hlow _ List.mem_cons_self
    cases more with
    | nil =>
      -- The byte of ASCII would have to lie in the interval.
      obtain ⟨rfl, -⟩ := List.cons.inj hsplit
      omega
    | cons next more =>
      obtain ⟨rfl, rfl⟩ := List.cons.inj hsplit
      rw [readFollowers, if_pos ⟨hfirst, hhigh⟩,
        ih (fun interval h => hlow interval (List.mem_cons_of_mem _ h)) hafter]

theorem readFirst_append_ascii {lead byte : UInt8} (hbyte : byte.toNat < 0x80) {more : List UInt8}
    {flaw : Flaw × Nat} (h : readFirst lead more = .error flaw) (rest : List UInt8) :
    ∃ flaw, readFirst lead (more ++ byte :: rest) = .error flaw := by
  cases hread : readFirst lead (more ++ byte :: rest) with
  | error flaw => exact ⟨flaw, rfl⟩
  | ok found =>
    obtain ⟨value, intervals, number, hlead, hrest, -, -⟩ := readFirst_eq_ok hread
    have hmore := readFollowers_of_append_ascii hbyte (followers?_low hlead) hrest
    rw [readFirst_of_followers hlead hmore] at h
    cases h

theorem decodeUtf8From_append_ascii {byte : UInt8} (h : byte.toNat < 0x80)
    (bytes rest : List UInt8) :
    decodeUtf8From 0 (bytes ++ byte :: rest) =
      decodeUtf8From 0 bytes ++ .scalar (Char.ofNat byte.toNat) :: decodeUtf8From 0 rest := by
  induction bytes using utf8_induction with
  | nil =>
    have hchar := decodeUtf8From_utf8EncodeChar (Char.ofNat byte.toNat) rest
    rw [utf8EncodeChar_ofNat h] at hchar
    exact hchar
  | char c more ih =>
    rw [List.append_assoc, decodeUtf8From_utf8EncodeChar, ih, decodeUtf8From_utf8EncodeChar,
      List.cons_append]
  | stray lead more flaw hread ih =>
    obtain ⟨flaw', hread'⟩ := readFirst_append_ascii h hread rest
    rw [List.cons_append, decodeUtf8From_stray hread', ih, decodeUtf8From_stray hread,
      List.cons_append]

/-! ### The charsets -/

/-- The text of some bytes that hold no byte order mark. -/
def decodeBody : Charset → List UInt8 → Text
  | utf8, bytes | utf8Marked, bytes => decodeUtf8From 0 bytes
  | latin1, bytes => decode latin1 bytes
  | ascii, bytes => decode ascii bytes

/-- The bytes of a text, apart from a byte order mark. -/
def spell? (charset : Charset) : Text → Option (List UInt8)
  | [] => some []
  | p :: rest =>
    match charset.bytesOfLenient? p, spell? charset rest with
    | some bytes, some more => some (bytes ++ more)
    | _, _ => none

theorem spell?_cons {first : List UInt8} (hp : charset.bytesOfLenient? p = some first)
    (ht : charset.spell? t = some bytes) : charset.spell? (p :: t) = some (first ++ bytes) := by
  rw [spell?, hp, ht]

theorem spell?_cons_eq_some (h : charset.spell? (p :: t) = some bytes) :
    ∃ first more, charset.bytesOfLenient? p = some first ∧ charset.spell? t = some more ∧
      bytes = first ++ more := by
  rw [spell?] at h
  cases hp : charset.bytesOfLenient? p with
  | none => rw [hp] at h; cases h
  | some first =>
    cases ht : charset.spell? t with
    | none => rw [hp, ht] at h; cases h
    | some more =>
      rw [hp, ht] at h
      exact ⟨first, more, rfl, rfl, (Option.some.inj h).symm⟩

/-- What has no bytes of its own has none in a longer text. -/
theorem mem_spell? (h : charset.spell? t = some bytes) (hp : p ∈ t) :
    ∃ first, charset.bytesOfLenient? p = some first ∧ ∀ byte ∈ first, byte ∈ bytes := by
  induction t generalizing bytes with
  | nil => cases hp
  | cons q t ih =>
    obtain ⟨first, more, hq, hmore, rfl⟩ := spell?_cons_eq_some h
    rcases List.mem_cons.mp hp with rfl | hp
    · exact ⟨first, hq, fun byte hbyte => List.mem_append_left _ hbyte⟩
    · obtain ⟨own, hown, hsubset⟩ := ih hmore hp
      exact ⟨own, hown, fun byte hbyte => List.mem_append_right _ (hsubset byte hbyte)⟩

/-- A text has bytes if each of its code points has. -/
theorem exists_spell? (h : ∀ p ∈ t, ∃ first, charset.bytesOfLenient? p = some first) :
    ∃ bytes, charset.spell? t = some bytes := by
  induction t with
  | nil => exact ⟨[], rfl⟩
  | cons p t ih =>
    obtain ⟨first, hfirst⟩ := h p List.mem_cons_self
    obtain ⟨more, hmore⟩ := ih fun q hq => h q (List.mem_cons_of_mem _ hq)
    exact ⟨first ++ more, spell?_cons hfirst hmore⟩

/-- Positions matter for messages only. -/
theorem encodeWith_eq_ok_iff (position : Nat) :
    encodeWith charset charset.bytesOfLenient? position t = .ok bytes ↔
      charset.spell? t = some bytes := by
  induction t generalizing position bytes with
  | nil => simp [encodeWith, spell?]
  | cons p t ih =>
    -- The later code points are encoded at a later position, so the induction is for all of them.
    rw [encodeWith, spell?]
    cases charset.bytesOfLenient? p with
    | none => simp
    | some first =>
      cases hmore : encodeWith charset charset.bytesOfLenient? (position + 1) t with
      | error e =>
        cases hspell : charset.spell? t with
        | none => simp
        | some more => rw [(ih (position + 1)).mpr hspell] at hmore; cases hmore
      | ok more => simp [(ih (position + 1)).mp hmore]

theorem encode_eq_ok_iff :
    charset.encode t = .ok bytes ↔
      ∃ body, charset.spell? t = some body ∧ bytes = charset.mark ++ body := by
  rw [encode]
  constructor
  · intro h
    cases hbody : encodeWith charset charset.bytesOfLenient? 0 t with
    | error e => rw [hbody] at h; cases h
    | ok body =>
      rw [hbody] at h
      exact ⟨body, (encodeWith_eq_ok_iff 0).mp hbody, (Except.ok.inj h).symm⟩
  · rintro ⟨body, hbody, rfl⟩
    rw [(encodeWith_eq_ok_iff 0).mpr hbody]

/-- A byte order mark that is written is dropped again. -/
theorem decode_mark_append (charset : Charset) (bytes : List UInt8) :
    charset.decode (charset.mark ++ bytes) = charset.decodeBody bytes := by
  cases charset with
  | utf8 | latin1 | ascii => rfl
  | utf8Marked =>
    have hdrop : byteOrderMark.isPrefixOf? (byteOrderMark ++ bytes) = some bytes :=
      isPrefixOf?_eq_some_iff.mpr rfl
    rw [decode, mark, dropMark, hdrop]
    rfl

/-! ### One code point -/

theorem bytesOfLenient?_stray (charset : Charset) {byte : UInt8} (h : 0x80 ≤ byte.toNat) :
    charset.bytesOfLenient? (.stray byte) = some [byte] := by
  have hnone : charset.bytesOf? (.stray byte) = none := by cases charset <;> rfl
  rw [bytesOfLenient?, hnone, CodePoint.strayByte?_stray h]
  rfl

theorem bytesOfLenient?_scalar (charset : Charset) (c : Char) :
    charset.bytesOfLenient? (.scalar c) = charset.bytesOf? (.scalar c) := by
  rw [bytesOfLenient?, CodePoint.strayByte?_scalar, Option.map_none, Option.or_none]

/-- ASCII is the same in all charsets. -/
theorem bytesOfLenient?_ascii (charset : Charset) {byte : UInt8} (h : byte.toNat < 0x80) :
    charset.bytesOfLenient? (.scalar (Char.ofNat byte.toNat)) = some [byte] := by
  have hnumber : (Char.ofNat byte.toNat).toNat = byte.toNat :=
    toNat_ofNat_of_cases (Or.inl (by omega))
  rw [bytesOfLenient?_scalar]
  cases charset with
  | utf8 | utf8Marked => rw [bytesOf?, utf8EncodeChar_ofNat h]
  | latin1 => rw [bytesOf?, hnumber, if_pos (by omega), UInt8.ofNat_toNat]
  | ascii => rw [bytesOf?, hnumber, if_pos h, UInt8.ofNat_toNat]

/-- The bytes of a character are read as that character, whatever comes behind them. -/
theorem decodeBody_append_of_scalar {c : Char} (h : charset.bytesOfLenient? (.scalar c) = some bytes)
    (rest : List UInt8) :
    charset.decodeBody (bytes ++ rest) = .scalar c :: charset.decodeBody rest := by
  rw [bytesOfLenient?_scalar] at h
  cases charset with
  | utf8 | utf8Marked =>
    obtain rfl := Option.some.inj h
    exact decodeUtf8From_utf8EncodeChar c rest
  | latin1 =>
    rw [bytesOf?] at h
    split at h
    · obtain rfl := Option.some.inj h
      rw [decodeBody, decode, List.cons_append, List.map_cons, toNat_ofNat_of_lt (by assumption),
        Char.ofNat_toNat]
      rfl
    · cases h
  | ascii =>
    rw [bytesOf?] at h
    split at h
    · rename_i hascii
      obtain rfl := Option.some.inj h
      rw [decodeBody, decode, List.cons_append, List.map_cons, toNat_ofNat_of_lt (by omega),
        if_pos hascii, Char.ofNat_toNat]
      rfl
    · cases h

/-! ### Reading and writing -/

/-- What was read is written as the bytes that it was read from. -/
theorem spell?_decodeBody (charset : Charset) (bytes : List UInt8) :
    charset.spell? (charset.decodeBody bytes) = some bytes := by
  cases charset with
  | utf8 | utf8Marked =>
    induction bytes using utf8_induction with
    | nil => rfl
    | char c more ih =>
      rw [decodeBody, decodeUtf8From_utf8EncodeChar]
      exact spell?_cons rfl ih
    | stray lead more flaw h ih =>
      rw [decodeBody, decodeUtf8From_stray h]
      exact spell?_cons (bytesOfLenient?_stray _ (le_toNat_of_stray h)) ih
  | latin1 =>
    induction bytes with
    | nil => rfl
    | cons byte bytes ih =>
      have := byte.toNat_lt
      have hbyte : bytesOfLenient? latin1 (.scalar (Char.ofNat byte.toNat)) = some [byte] := by
        rw [bytesOfLenient?_scalar, bytesOf?, toNat_ofNat_of_cases (Or.inl (by omega)),
          if_pos (by omega), UInt8.ofNat_toNat]
      exact spell?_cons hbyte ih
  | ascii =>
    induction bytes with
    | nil => rfl
    | cons byte bytes ih =>
      have hbyte : bytesOfLenient? ascii (if byte.toNat < 0x80 then .scalar (Char.ofNat byte.toNat)
          else .stray byte) = some [byte] := by
        split
        · exact bytesOfLenient?_ascii _ (by assumption)
        · exact bytesOfLenient?_stray _ (by omega)
      exact spell?_cons hbyte ih

/-- What is written without stray bytes is read as it was. -/
theorem decodeBody_spell {cs : List Char} (h : charset.spell? (cs.map .scalar) = some bytes) :
    charset.decodeBody bytes = cs.map .scalar := by
  induction cs generalizing bytes with
  | nil =>
    obtain rfl := Option.some.inj h
    cases charset <;> rfl
  | cons c cs ih =>
    obtain ⟨first, more, hc, hmore, rfl⟩ := spell?_cons_eq_some h
    rw [decodeBody_append_of_scalar hc, ih hmore, List.map_cons]

/-- Before and behind a byte of ASCII, bytes are read apart from each other. -/
theorem decodeBody_append_ascii (charset : Charset) {byte : UInt8} (h : byte.toNat < 0x80)
    (bytes rest : List UInt8) :
    charset.decodeBody (bytes ++ byte :: rest) =
      charset.decodeBody bytes ++ .scalar (Char.ofNat byte.toNat) :: charset.decodeBody rest := by
  have hbyte : ∀ more : List UInt8, charset.decodeBody (byte :: more) =
      .scalar (Char.ofNat byte.toNat) :: charset.decodeBody more :=
    decodeBody_append_of_scalar (bytesOfLenient?_ascii charset h)
  cases charset with
  | utf8 | utf8Marked => exact decodeUtf8From_append_ascii h bytes rest
  | latin1 | ascii =>
    rw [decodeBody, decode, List.map_append]
    exact congrArg _ (hbyte rest)

theorem decodeBody_eq_nil_iff : charset.decodeBody bytes = [] ↔ bytes = [] := by
  constructor
  · intro h
    have hspell := spell?_decodeBody charset bytes
    rw [h] at hspell
    exact (Option.some.inj hspell).symm
  · rintro rfl
    cases charset <;> rfl

/-! ### The strict reading -/

theorem toNat_lt_of_decodeAsciiStrictFrom {position : Nat} {cs : List Char}
    (h : decodeAsciiStrictFrom position bytes = .ok cs) : ∀ c ∈ cs, c.toNat < 0x80 := by
  induction bytes generalizing position cs with
  | nil =>
    obtain rfl := Except.ok.inj h
    simp
  | cons byte bytes ih =>
    rw [decodeAsciiStrictFrom] at h
    split at h
    · rename_i hbyte
      cases hmore : decodeAsciiStrictFrom (position + 1) bytes with
      | error e => rw [hmore] at h; cases h
      | ok more =>
        rw [hmore] at h
        obtain rfl := Except.ok.inj h
        refine List.forall_mem_cons.mpr ⟨?_, ih hmore⟩
        rwa [toNat_ofNat_of_cases (Or.inl (by omega))]
    · cases h

/-- The charset has bytes for every character that it gives for bytes. -/
theorem exists_bytes_of_decodeStrict {cs : List Char} (h : charset.decodeStrict bytes = .ok cs) :
    ∀ c ∈ cs, ∃ first, charset.bytesOfLenient? (.scalar c) = some first := by
  intro c hc
  rw [bytesOfLenient?_scalar]
  cases charset with
  | utf8 | utf8Marked => exact ⟨_, rfl⟩
  | latin1 =>
    obtain rfl := Except.ok.inj h
    obtain ⟨byte, -, rfl⟩ := List.mem_map.mp hc
    have := byte.toNat_lt
    refine ⟨_, if_pos ?_⟩
    rw [toNat_ofNat_of_cases (Or.inl (by omega))]
    omega
  | ascii => exact ⟨_, if_pos (toNat_lt_of_decodeAsciiStrictFrom h c hc)⟩

end Letterhead.Charset
