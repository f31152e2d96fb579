import Letterhead.Json.Token
import Letterhead.Json.Writer

/-!
# What is written as one token

A written string is cut out of a document up to its closing mark and no further, and a written whole
number if nothing behind it could belong to a number. What is cut out is what was written. Characters
are written as they are, by a mark behind a backslash, or by their number, and the reader undoes each
of the three.

## Main definitions

* `Json.EndsNumber` — the texts that may stand behind a number
* `Json.FirstToken` — the first token of a text, and what is left behind it

## Main results

* `Json.readString_flatMap_escape` — what is read of a written string
* `Json.firstToken_word`, `Json.firstToken_writeString`, `Json.firstToken_integer` — the tokens of
  written words, strings and whole numbers
-/

namespace Letterhead.Json

/-- Whether a whole number has no more digits than are read. -/
def Limits.Allows (limits : Limits) (n : Int) : Prop :=
  (Nat.toDigits 10 n.natAbs).length ≤ limits.digits

instance (limits : Limits) : DecidablePred limits.Allows := fun n =>
  inferInstanceAs (Decidable ((Nat.toDigits 10 n.natAbs).length ≤ limits.digits))

/-! ### Strings -/

theorem consEscaped_of_lt {n : Nat} (h : n < 0xD800) (rest : Text)
    (result : Except (Flaw × Nat) (Text × Nat)) :
    consEscaped n rest result = consContent (escapedPoint n) 6 result := by
  have hhigh : isHighSurrogate n = false := by simp [isHighSurrogate]; omega
  unfold consEscaped
  split
  · rw [hhigh, Bool.false_and, Bool.false_and, if_neg Bool.false_ne_true]
  · rfl

theorem escapedPoint_toNat (c : Char) : escapedPoint c.toNat = .scalar c := by
  rw [escapedPoint, ← CodePoint.value_scalar, CodePoint.ofNat?_value, Option.getD_some]

/-- The digits of a control character are read as its number. -/
theorem hexQuad?_hexDigits {n : Nat} (h : n < 0x20) :
    ∃ a b c d, Quoted.hexDigits 4 n = [a, b, c, d] ∧
      hexQuad? (.scalar a) (.scalar b) (.scalar c) (.scalar d) = some n := by
  have hall : ∀ n : Fin 0x20, hexQuad? (.scalar (Nat.digitChar (n.val / 16 / 16 / 16 % 16)))
      (.scalar (Nat.digitChar (n.val / 16 / 16 % 16))) (.scalar (Nat.digitChar (n.val / 16 % 16)))
      (.scalar (Nat.digitChar (n.val % 16))) = some n.val := by
    decide
  exact ⟨_, _, _, _, rfl, hall ⟨n, h⟩⟩

/-- A character is written in one of three ways: as a mark after a backslash, by its number, or as
it is. -/
theorem escapeChar_cases (c : Char) :
    (∃ mark, escapeChar c = ['\x5c', mark] ∧ simpleEscape? (.scalar mark) = some c) ∨
      (c.toNat < 0x20 ∧ escapeChar c = '\x5c' :: 'u' :: Quoted.hexDigits 4 c.toNat) ∨
      (¬ c.toNat < 0x20 ∧ c ≠ '\x22' ∧ c ≠ '\x5c' ∧ escapeChar c = [c]) := by
  unfold escapeChar
  by_cases hmark : c = '\x22' ∨ c = '\x5c'
  · rw [if_pos hmark]
    exact .inl ⟨c, rfl, by obtain rfl | rfl := hmark <;> rfl⟩
  rw [if_neg hmark]
  by_cases hfeed : c = '\n'
  · exact .inl ⟨'n', by rw [if_pos hfeed], by rw [hfeed]; rfl⟩
  rw [if_neg hfeed]
  by_cases hreturn : c = '\r'
  · exact .inl ⟨'r', by rw [if_pos hreturn], by rw [hreturn]; rfl⟩
  rw [if_neg hreturn]
  by_cases htab : c = '\t'
  · exact .inl ⟨'t', by rw [if_pos htab], by rw [htab]; rfl⟩
  rw [if_neg htab]
  by_cases hback : c = '\x08'
  · exact .inl ⟨'b', by rw [if_pos hback], by rw [hback]; rfl⟩
  rw [if_neg hback]
  by_cases hform : c = '\x0c'
  · exact .inl ⟨'f', by rw [if_pos hform], by rw [hform]; rfl⟩
  rw [if_neg hform]
  by_cases hcontrol : c.toNat < 0x20
  · exact .inr (.inl ⟨hcontrol, if_pos hcontrol⟩)
  · exact .inr (.inr ⟨hcontrol, not_or.mp hmark |>.1, not_or.mp hmark |>.2, if_neg hcontrol⟩)

/-- A written code point is read as the code point it was written for. -/
theorem readString_escape_append (p : CodePoint) {rest : Text} (hrest : rest ≠ [])
    (start here : Nat) :
    readString start here (escape p ++ rest) =
      consContent p (escape p).length (readString start (here + (escape p).length) rest) := by
  cases p with
  | surrogate offset =>
    rw [escape, List.singleton_append, readString, if_neg (by simp; omega),
      List.length_singleton]
    all_goals nofun
  | scalar c =>
    rw [escape]
    obtain ⟨mark, hwritten, hmark⟩ | ⟨hcontrol, hwritten⟩ | ⟨hcontrol, hquote, hslash, hwritten⟩ :=
      escapeChar_cases c
    · have hnumber : mark ≠ 'u' := by
        intro h
        rw [h] at hmark
        cases hmark
      simp [hwritten, readString, hmark, hnumber]
    · obtain ⟨x, y, z, w, hdigits, hquad⟩ := hexQuad?_hexDigits hcontrol
      have hempty : rest.isEmpty = false := List.isEmpty_eq_false_iff.mpr hrest
      simp only [hwritten, hdigits, List.map_cons, List.map_nil, List.cons_append, List.nil_append,
        readString, hquad, hempty, List.length_cons, List.length_nil]
      -- A control character is no half of a surrogate pair, so it stays as it is read.
      rw [if_neg Bool.false_ne_true, consEscaped_of_lt (by omega), escapedPoint_toNat]
    · rw [hwritten, List.map_singleton, List.singleton_append, readString, CodePoint.value_scalar,
        if_neg hcontrol, List.length_singleton]
      · simpa using hquote
      all_goals simp [hslash]

/-- What is read of a written string is its content. -/
theorem readString_flatMap_escape (t rest : Text) (start here : Nat) :
    readString start here (t.flatMap escape ++ .scalar '\x22' :: rest) =
      .ok (t, (t.flatMap escape).length + 1) := by
  induction t generalizing here with
  | nil => simp [readString]
  | cons p t ih =>
    rw [List.flatMap_cons, List.append_assoc, readString_escape_append p (by simp), ih,
      consContent, List.length_append]
    exact congrArg (fun count => Except.ok (p :: t, count)) (by omega)

/-! ### Words -/

/-- No word is the start of another. -/
theorem readScalar?_word {entry : Text × Json} (h : entry ∈ words) (limits : Limits) (rest : Text) :
    readScalar? limits (entry.1 ++ rest) = some (.scalar entry.2, entry.1.length) := by
  simp only [words, List.mem_cons, List.not_mem_nil, or_false] at h
  obtain rfl | rfl | rfl | rfl | rfl | rfl := h <;> rfl

theorem null_mem_words : (Text.ofString "null", null) ∈ words := .head _

theorem bool_mem_words (b : Bool) :
    (Text.ofString (if b then "true" else "false"), bool b) ∈ words := by
  cases b with
  | true => exact .tail _ (.head _)
  | false => exact .tail _ (.tail _ (.head _))

/-! ### Whole numbers -/

/-- The texts with nothing at the start that could belong to a number before them. -/
structure EndsNumber (t : Text) : Prop where
  digits : leadingDigits t = []
  fraction : readFraction t = []
  power : readPower? t = none

/-- The digits of a number as they are written. -/
def writtenDigits (n : Nat) : Text := (Nat.toDigits 10 n).map .scalar

theorem ofString_toString (n : Int) :
    Text.ofString (toString n) =
      if n < 0 then .scalar '-' :: writtenDigits n.natAbs else writtenDigits n.natAbs := by
  cases n with
  | ofNat m =>
    rw [if_neg (by simp)]
    exact congrArg (List.map _) Nat.toList_repr
  | negSucc m =>
    have hdigits : (toString (Int.negSucc m)).toList = '-' :: Nat.toDigits 10 (m + 1) := by
      change ("-" ++ (m + 1).repr).toList = _
      rw [String.toList_append, Nat.toList_repr]
      rfl
    rw [if_pos (Int.negSucc_lt_zero m), Text.ofString, hdigits]
    rfl

theorem leadingDigits_append {cs : List Char} (hcs : ∀ c ∈ cs, c.isDigit) {rest : Text}
    (hrest : leadingDigits rest = []) :
    leadingDigits (cs.map .scalar ++ rest) = cs.map (·.toNat - 48) := by
  induction cs with
  | nil => exact hrest
  | cons c cs ih =>
    rw [List.map_cons, List.cons_append, leadingDigits, digit?, if_pos (hcs c (.head cs)),
      ih fun d hd => hcs d (.tail c hd), List.map_cons]

theorem numberOf_map (cs : List Char) :
    numberOf (cs.map (·.toNat - 48)) = Nat.ofDigitChars 10 cs 0 := by
  rw [numberOf, List.foldl_map, Nat.ofDigitChars_eq_foldl]
  simp only [Nat.mul_comm 10]
  rfl

theorem toDigits_eq_cons (n : Nat) : ∃ c cs, Nat.toDigits 10 n = c :: cs ∧ c.isDigit := by
  obtain ⟨c, cs, hcs⟩ := List.exists_cons_of_ne_nil (Nat.toDigits_ne_nil (n := n) (b := 10))
  refine ⟨c, cs, hcs, Nat.isDigit_of_mem_toDigits (n := n) (b := 10) (by omega) (by omega) ?_⟩
  rw [hcs]
  exact .head cs

/-- A number other than zero is written without a zero in front. -/
theorem toDigits_ne_zero_cons {n : Nat} (h : n ≠ 0) (cs : List Char) :
    Nat.toDigits 10 n ≠ '0' :: cs := by
  induction n using Nat.strongRecOn generalizing cs with
  | ind n ih =>
    by_cases hsmall : n < 10
    · have hall : ∀ d : Fin 10, d.val ≠ 0 → Nat.digitChar d.val ≠ '0' := by decide
      rw [Nat.toDigits_of_lt_base hsmall]
      intro heq
      exact hall ⟨n, hsmall⟩ h (List.cons.inj heq).1
    · rw [Nat.toDigits_of_base_le (by omega) (by omega)]
      obtain ⟨c, ds, hds, -⟩ := toDigits_eq_cons (n / 10)
      rw [hds]
      intro heq
      have hzero : c = '0' := (List.cons.inj heq).1
      exact ih (n / 10) (by omega) (by omega) ds (hzero ▸ hds)

theorem readWhole_writtenDigits (n : Nat) {rest : Text} (hrest : EndsNumber rest) :
    readWhole (writtenDigits n ++ rest) = (Nat.toDigits 10 n).map (·.toNat - 48) := by
  by_cases hn : n = 0
  · subst hn
    rfl
  · have hdigit : ∀ c ∈ Nat.toDigits 10 n, c.isDigit := fun c hc =>
      Nat.isDigit_of_mem_toDigits (by omega) (by omega) hc
    rw [readWhole, writtenDigits, leadingDigits_append hdigit hrest.digits]
    -- The reader lets a zero stand alone, so the digits must not start with one.
    intro more hmore
    obtain ⟨c, cs, hcs, -⟩ := toDigits_eq_cons n
    rw [writtenDigits, hcs, List.map_cons, List.cons_append, List.cons.injEq,
      CodePoint.scalar.injEq] at hmore
    exact toDigits_ne_zero_cons hn cs (hmore.1 ▸ hcs)

theorem readUnsigned?_writtenDigits {limits : Limits} {n : Nat}
    (hn : (Nat.toDigits 10 n).length ≤ limits.digits) (negative : Bool) {rest : Text}
    (hrest : EndsNumber rest) :
    readUnsigned? limits negative (writtenDigits n ++ rest) =
      some (.scalar (.integer (if negative then -n else n)), (writtenDigits n).length) := by
  have hwhole := readWhole_writtenDigits n hrest
  have hlength : ((Nat.toDigits 10 n).map (·.toNat - 48)).length = (writtenDigits n).length := by
    rw [writtenDigits, List.length_map, List.length_map]
  have hnumber : numberOf ((Nat.toDigits 10 n).map (·.toNat - 48)) = n := by
    rw [numberOf_map, Nat.ofDigitChars_toDigits (by omega) (by omega)]
  have htoken : wholeToken limits negative ((Nat.toDigits 10 n).map (·.toNat - 48)) =
      .scalar (.integer (if negative then -n else n)) := by
    rw [wholeToken, hnumber, if_neg (by rw [List.length_map]; omega)]
  have hempty : ((Nat.toDigits 10 n).map (·.toNat - 48)).isEmpty = false := by
    simp [Nat.toDigits_ne_nil]
  unfold readUnsigned?
  simp only [hwhole, hempty, hlength, List.drop_left, hrest.fraction, List.isEmpty_nil, if_true,
    Nat.add_zero, hrest.power, htoken, Bool.false_eq_true, if_false]

theorem ne_of_isDigit {c d : Char} (hc : c.isDigit) (hd : d.isDigit = false) : c ≠ d := by
  intro h
  rw [h, hd] at hc
  cases hc

/-- No word starts with a digit, nor with a digit after a sign. -/
theorem find?_words_eq_none {c : Char} (hc : c.isDigit) (t : Text) :
    (words.find? fun entry => entry.1.isPrefixOf (.scalar c :: t)) = none ∧
      (words.find? fun entry => entry.1.isPrefixOf (.scalar '-' :: .scalar c :: t)) = none := by
  have hne (d : Char) (hd : d.isDigit = false) : (CodePoint.scalar d == CodePoint.scalar c) = false :=
    beq_false_of_ne fun heq => ne_of_isDigit hc hd (CodePoint.scalar.inj heq).symm
  simp [words, Text.ofString, List.isPrefixOf, hne]

theorem readScalar?_digit {c : Char} (hc : c.isDigit) (limits : Limits) (t : Text) :
    readScalar? limits (.scalar c :: t) = readUnsigned? limits false (.scalar c :: t) := by
  rw [readScalar?, (find?_words_eq_none hc t).1]
  simp [ne_of_isDigit hc]

theorem readScalar?_minus {c : Char} (hc : c.isDigit) (limits : Limits) (t : Text) :
    readScalar? limits (.scalar '-' :: .scalar c :: t) =
      (readUnsigned? limits true (.scalar c :: t)).map fun (token, width) => (token, width + 1) := by
  rw [readScalar?, (find?_words_eq_none hc t).2]

/-- A written whole number is read as the number it was written for. -/
theorem readScalar?_integer {limits : Limits} {n : Int}
    (hn : limits.Allows n) {rest : Text}
    (hrest : EndsNumber rest) :
    readScalar? limits (Text.ofString (toString n) ++ rest) =
      some (.scalar (.integer n), (Text.ofString (toString n)).length) := by
  have hread (negative : Bool) := readUnsigned?_writtenDigits hn negative hrest
  obtain ⟨c, cs, hcs, hc⟩ := toDigits_eq_cons n.natAbs
  have hwritten : writtenDigits n.natAbs = .scalar c :: cs.map .scalar := by
    rw [writtenDigits, hcs, List.map_cons]
  rw [ofString_toString]
  by_cases hnegative : n < 0
  · have hvalue : -(n.natAbs : Int) = n := by omega
    have hminus := hread true
    rw [if_pos rfl, hvalue, hwritten] at hminus
    rw [if_pos hnegative, hwritten, List.cons_append, List.cons_append, readScalar?_minus hc,
      ← List.cons_append, hminus]
    rfl
  · have hvalue : (n.natAbs : Int) = n := by omega
    have hplain := hread false
    rw [if_neg Bool.false_ne_true, hvalue, hwritten] at hplain
    rw [if_neg hnegative, hwritten, List.cons_append, readScalar?_digit hc, ← List.cons_append,
      hplain]

/-! ### The first token of a text -/

/-- A text starts with a token, and the rest is left behind it. -/
def FirstToken (limits : Limits) (text : Text) (token : Token) (rest : Text) : Prop :=
  ∀ here, ∃ here',
    tokensFrom limits here 0 text = (here, token) :: tokensFrom limits here' 0 rest

theorem tokensFrom_skip (limits : Limits) (here skip : Nat) (t : Text) :
    tokensFrom limits here skip t = tokensFrom limits (here + skip) 0 (t.drop skip) := by
  induction skip generalizing here t with
  | zero => rfl
  | succ skip ih =>
    cases t with
    | nil => rw [tokensFrom, List.drop_nil, tokensFrom]
    | cons p rest => rw [tokensFrom, ih, List.drop_succ_cons, Nat.add_right_comm]; rfl

theorem tokensFrom_gap {p : CodePoint} (hp : isGap p) (limits : Limits) (here : Nat) (t : Text) :
    tokensFrom limits here 0 (p :: t) = tokensFrom limits (here + 1) 0 t := by
  rw [tokensFrom, if_pos hp]

/-- The code points that neither stand between tokens nor are a token of their own nor start a
string. -/
structure StartsScalar (p : CodePoint) : Prop where
  gap : isGap p = false
  quote : (p == .scalar '\x22') = false
  mark : punctuation? p = none

theorem firstToken_mark {p : CodePoint} {token : Token} (h : punctuation? p = some token)
    (limits : Limits) (rest : Text) : FirstToken limits (p :: rest) token rest := by
  intro here
  refine ⟨here + 1, ?_⟩
  have hgap : isGap p = false ∧ (p == .scalar '\x22') = false := by
    unfold punctuation? at h
    split at h <;> first | exact ⟨rfl, rfl⟩ | cases h
  rw [tokensFrom, hgap.1, hgap.2, if_neg Bool.false_ne_true, if_neg Bool.false_ne_true, h]

theorem firstToken_writeString (limits : Limits) (t rest : Text) :
    FirstToken limits (writeString t ++ rest) (.text t) rest := by
  intro here
  have hdrop : (t.flatMap escape ++ .scalar '\x22' :: rest).drop ((t.flatMap escape).length + 1) =
      rest := by
    rw [← List.drop_drop, List.drop_left, List.drop_one, List.tail_cons]
  refine ⟨here + 1 + ((t.flatMap escape).length + 1), ?_⟩
  rw [writeString, List.cons_append, List.cons_append, List.append_assoc, List.singleton_append,
    tokensFrom, if_neg (by decide), if_pos (by decide), readString_flatMap_escape]
  simp only
  rw [tokensFrom_skip, hdrop]

theorem firstToken_scalar {limits : Limits} {p : CodePoint} (hp : StartsScalar p) {t rest : Text}
    {token : Token} (h : readScalar? limits (p :: t ++ rest) = some (token, (p :: t).length)) :
    FirstToken limits (p :: t ++ rest) token rest := by
  intro here
  refine ⟨here + 1 + t.length, ?_⟩
  rw [List.cons_append] at h ⊢
  rw [tokensFrom, hp.gap, hp.quote, if_neg Bool.false_ne_true, if_neg Bool.false_ne_true, hp.mark,
    h]
  simp only [List.length_cons, Nat.add_sub_cancel]
  rw [tokensFrom_skip, List.drop_left]

theorem firstToken_word {entry : Text × Json} (h : entry ∈ words) (limits : Limits) (rest : Text) :
    FirstToken limits (entry.1 ++ rest) (.scalar entry.2) rest := by
  have hread := readScalar?_word h limits rest
  -- Every word starts with a letter or a sign.
  simp only [words, List.mem_cons, List.not_mem_nil, or_false] at h
  obtain rfl | rfl | rfl | rfl | rfl | rfl := h <;>
    exact firstToken_scalar ⟨rfl, rfl, rfl⟩ hread

theorem startsScalar_digit {c : Char} (hc : c.isDigit) : StartsScalar (.scalar c) where
  gap := by simp [isGap, ne_of_isDigit hc]
  quote := by simp [ne_of_isDigit hc]
  mark := by
    rw [punctuation?]
    all_goals exact fun h => ne_of_isDigit hc rfl (CodePoint.scalar.inj h)

theorem firstToken_integer {limits : Limits} {n : Int}
    (hn : limits.Allows n) {rest : Text}
    (hrest : EndsNumber rest) :
    FirstToken limits (Text.ofString (toString n) ++ rest) (.scalar (.integer n)) rest := by
  have hread := readScalar?_integer hn hrest
  obtain ⟨c, cs, hcs, hc⟩ := toDigits_eq_cons n.natAbs
  rw [ofString_toString] at hread ⊢
  by_cases hnegative : n < 0
  · rw [if_pos hnegative] at hread ⊢
    exact firstToken_scalar ⟨rfl, rfl, rfl⟩ hread
  · rw [if_neg hnegative, writtenDigits, hcs, List.map_cons] at hread ⊢
    exact firstToken_scalar (startsScalar_digit hc) hread

/-- No token starts with a byte order mark. -/
theorem tokensFrom_byteOrderMark (limits : Limits) (here : Nat) (t : Text) :
    tokensFrom limits here 0 (.scalar '\ufeff' :: t) = [(here, .other)] := rfl

end Letterhead.Json
