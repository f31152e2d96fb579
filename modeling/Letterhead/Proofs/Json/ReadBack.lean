import Letterhead.Json.Reader
import Letterhead.Proofs.Json.Sorted
import Letterhead.Proofs.Json.Tokens

/-!
# Reading what was written

The text of a value, wherever it stands in a document, takes the reader from a place where a value
is wanted to the place behind that value, with the members sorted. So a document that fits in the
limits of the reader is read as the sorted form of the value it was written for.

## Main definitions

* `Json.FitsIn` — the plain values that the limits of the reader leave room for
* `Json.Place`, `Json.Place.LeadsTo` — places in a document, and how the reader gets from one to
  another

## Main results

* `Json.FitsIn.leadsTo` — a written value leads to the place behind it
* `Json.FitsIn.readWithin_writeDocument` — what is read of a document
* `Json.IsPlain.writeDocument_eq_iff` — one document for the same values, and for no others
-/

namespace Letterhead.Json

/-- The plain values with room in some limits, if they stand inside so many containers. -/
inductive FitsIn (limits : Limits) : Nat → Json → Prop
  | null {outer : Nat} : FitsIn limits outer null
  | bool {outer : Nat} (b : Bool) : FitsIn limits outer (bool b)
  | integer {outer : Nat} {n : Int} (h : limits.Allows n) : FitsIn limits outer (integer n)
  | string {outer : Nat} (t : Text) : FitsIn limits outer (string t)
  | array {outer : Nat} {items : List Json} (hdepth : outer < limits.depth)
      (h : ∀ item ∈ items, FitsIn limits (outer + 1) item) : FitsIn limits outer (array items)
  | object {outer : Nat} {members : List (Text × Json)} (hdepth : outer < limits.depth)
      (hkeys : (members.map (·.1)).Nodup)
      (h : ∀ member ∈ members, FitsIn limits (outer + 1) member.2) :
      FitsIn limits outer (object members)

/-- A place in a document that is being read: the containers that are open, what may come next, and
what is left of the document. -/
structure Place where
  stack : List Frame
  expected : Expectation
  left : Text

namespace Place

/-- Whether the reader finds the same at one place as at another, however much stands before it. -/
def LeadsTo (limits : Limits) (p q : Place) : Prop :=
  ∀ length here, ∃ here',
    readTokens limits length p.stack p.expected (tokensFrom limits here 0 p.left) =
      readTokens limits length q.stack q.expected (tokensFrom limits here' 0 q.left)

variable {limits : Limits} {stack stack' : List Frame} {expected expected' : Expectation}
  {text rest : Text}

theorem LeadsTo.trans {p q r : Place} (hpq : p.LeadsTo limits q) (hqr : q.LeadsTo limits r) :
    p.LeadsTo limits r := by
  intro length here
  obtain ⟨here', hp⟩ := hpq length here
  obtain ⟨here'', hq⟩ := hqr length here'
  exact ⟨here'', hp.trans hq⟩

instance : Trans (LeadsTo limits) (LeadsTo limits) (LeadsTo limits) := ⟨LeadsTo.trans⟩

/-- The reader passes over what may stand between tokens. -/
theorem leadsTo_gaps {gaps : Text} (hgaps : ∀ p ∈ gaps, isGap p) :
    LeadsTo limits ⟨stack, expected, gaps ++ rest⟩ ⟨stack, expected, rest⟩ := by
  induction gaps with
  | nil => exact fun length here => ⟨here, rfl⟩
  | cons p gaps ih =>
    intro length here
    obtain ⟨here', hrest⟩ := ih (fun q hq => hgaps q (.tail p hq)) length (here + 1)
    refine ⟨here', ?_⟩
    rw [← hrest, List.cons_append, tokensFrom_gap (hgaps p (.head gaps))]

/-- The reader takes the first token of a text. -/
theorem leadsTo_of_step {token : Token} (htoken : FirstToken limits text token rest)
    (hstep : ∀ place, step limits stack (place, token) expected = .ok (expected', stack')) :
    LeadsTo limits ⟨stack, expected, text⟩ ⟨stack', expected', rest⟩ := by
  intro length here
  -- Where the token stands matters only for flaws, so `hstep` holds of every place.
  obtain ⟨here', htokens⟩ := htoken here
  refine ⟨here', ?_⟩
  rw [htokens, readTokens, hstep here]

end Place

open Place

/-! ### Where a value is wanted -/

/-- Whether a value may come next. -/
def Expectation.WantsValue : Expectation → Prop
  | .value | .firstItem => True
  | _ => False

section Steps

variable {limits : Limits} {stack : List Frame} {expected : Expectation}

theorem step_of_wantsValue (hwants : expected.WantsValue) {token : Nat × Token}
    (htoken : token.2 ≠ .closeArray) :
    step limits stack token expected = startValue limits stack token := by
  cases expected with
  | value => rfl
  | firstItem =>
    rw [step]
    intro _ _ hclose
    exact absurd hclose htoken
  | _ => exact hwants.elim

theorem step_scalar (hwants : expected.WantsValue) (value : Json) (place : Nat) :
    step limits stack (place, .scalar value) expected = .ok (.after value, stack) := by
  rw [step_of_wantsValue hwants (by simp), startValue]

theorem step_text (hwants : expected.WantsValue) (t : Text) (place : Nat) :
    step limits stack (place, .text t) expected = .ok (.after (.string t), stack) := by
  rw [step_of_wantsValue hwants (by simp), startValue]

theorem step_openArray (hwants : expected.WantsValue) (hdepth : stack.length < limits.depth)
    (place : Nat) :
    step limits stack (place, .openArray) expected = .ok (.firstItem, .array [] :: stack) := by
  rw [step_of_wantsValue hwants (by simp), startValue, isFull, if_neg (by simpa using hdepth)]

theorem step_openObject (hwants : expected.WantsValue) (hdepth : stack.length < limits.depth)
    (place : Nat) :
    step limits stack (place, .openObject) expected = .ok (.firstKey, stack) := by
  rw [step_of_wantsValue hwants (by simp), startValue, isFull, if_neg (by simpa using hdepth)]

end Steps

/-! ### Written containers -/

theorem isGap_of_mem_lineBreak (indent : Option Int) (depth : Nat) :
    ∀ p ∈ lineBreak indent depth, isGap p := by
  intro p hp
  cases indent with
  | none => cases hp
  | some width =>
    obtain rfl | hspace := List.mem_cons.mp hp
    · rfl
    · rw [List.eq_of_mem_replicate hspace]
      rfl

/-- What stands between two items is a comma and a gap. -/
theorem separator_eq (indent : Option Int) :
    ∃ gaps : Text, separator indent = .scalar ',' :: gaps ∧ ∀ p ∈ gaps, isGap p := by
  cases indent with
  | none => exact ⟨[.scalar ' '], rfl, by decide⟩
  | some width => exact ⟨[], rfl, nofun⟩

theorem writeItems_eq (indent : Option Int) (depth : Nat) (items : List Json) :
    writeItems indent depth items = items.map (write indent depth) := by
  induction items with
  | nil => rw [writeItems, List.map_nil]
  | cons item rest ih => rw [writeItems, ih, List.map_cons]

theorem writeMembers_eq (indent : Option Int) (depth : Nat) (members : List (Text × Json)) :
    writeMembers indent depth members = members.map (Prod.map id (write indent depth)) := by
  induction members with
  | nil => rw [writeMembers, List.map_nil]
  | cons member rest ih => rw [writeMembers, ih, List.map_cons]; rfl

/-- The text of a member. -/
def writeMember (indent : Option Int) (depth : Nat) (member : Text × Json) : Text :=
  writeString member.1 ++ Text.ofString ": " ++ write indent depth member.2

theorem write_array (indent : Option Int) (depth : Nat) (items : List Json) :
    write indent depth (array items) =
      enclose indent depth '[' ']' (items.map (write indent (depth + 1))) := by
  rw [write, writeItems_eq]

theorem write_object (indent : Option Int) (depth : Nat) (members : List (Text × Json)) :
    write indent depth (object members) =
      enclose indent depth '\x7b' '\x7d'
        ((members.mergeSort memberLe).map (writeMember indent (depth + 1))) := by
  -- The writer sorts the members with the values written already, which leaves the keys alone.
  have hsort := List.map_mergeSort (r := memberLe) (s := keyLe) (l := members)
    (f := Prod.map id (write indent (depth + 1))) fun _ _ _ _ => rfl
  rw [write, writeMembers_eq, ← hsort, List.map_map]
  rfl

/-- What comes after the first item of a container: the other items, the closing mark, and what
stands behind it. -/
def others (indent : Option Int) (depth : Nat) (closing : Char) (items : List Text) (rest : Text) :
    Text :=
  items.flatMap (fun item => separator indent ++ lineBreak indent (depth + 1) ++ item) ++
    (lineBreak indent depth ++ .scalar closing :: rest)

theorem enclose_cons_append (indent : Option Int) (depth : Nat) (opening closing : Char)
    (first : Text) (items : List Text) (rest : Text) :
    enclose indent depth opening closing (first :: items) ++ rest =
      .scalar opening :: (lineBreak indent (depth + 1) ++
        (first ++ others indent depth closing items rest)) := by
  simp [enclose, others]

theorem endsNumber_cons {c : Char} (hc : c ∈ [',', ']', '\x7d', '\n']) (t : Text) :
    EndsNumber (.scalar c :: t) := by
  simp only [List.mem_cons, List.not_mem_nil, or_false] at hc
  obtain rfl | rfl | rfl | rfl := hc <;> exact ⟨rfl, rfl, rfl⟩

theorem endsNumber_others (indent : Option Int) (depth : Nat) {closing : Char}
    (hclosing : closing ∈ [']', '\x7d']) (items : List Text) (rest : Text) :
    EndsNumber (others indent depth closing items rest) := by
  cases items with
  | nil =>
    cases indent with
    | none => exact endsNumber_cons (by simp at hclosing ⊢; tauto) rest
    | some width => exact endsNumber_cons (by simp) _
  | cons item items =>
    obtain ⟨gaps, hseparator, -⟩ := separator_eq indent
    rw [others, List.flatMap_cons, hseparator]
    exact endsNumber_cons (by simp) _

section Containers

variable {limits : Limits} {indent : Option Int} {depth : Nat} {stack stack' : List Frame}
  {expected expected' : Expectation} {opening closing : Char} {token : Token} {items : List Text}
  {item rest : Text}

theorem leadsTo_empty {between : Expectation} {inner : List Frame} {openToken closeToken : Token}
    (hopening : punctuation? (.scalar opening) = some openToken)
    (hopen : ∀ place, step limits stack (place, openToken) expected = .ok (between, inner))
    (hclosing : punctuation? (.scalar closing) = some closeToken)
    (hclose : ∀ place, step limits inner (place, closeToken) between = .ok (expected', stack')) :
    LeadsTo limits ⟨stack, expected, enclose indent depth opening closing [] ++ rest⟩
      ⟨stack', expected', rest⟩ :=
  (leadsTo_of_step (firstToken_mark hopening limits _) hopen).trans
    (leadsTo_of_step (firstToken_mark hclosing limits rest) hclose)

theorem leadsTo_first (hopening : punctuation? (.scalar opening) = some token)
    (hstep : ∀ place, step limits stack (place, token) expected = .ok (expected', stack')) :
    LeadsTo limits
      ⟨stack, expected, enclose indent depth opening closing (item :: items) ++ rest⟩
      ⟨stack', expected', item ++ others indent depth closing items rest⟩ := by
  rw [enclose_cons_append]
  exact (leadsTo_of_step (firstToken_mark hopening limits _) hstep).trans
    (leadsTo_gaps (isGap_of_mem_lineBreak indent (depth + 1)))

theorem leadsTo_next
    (hstep : ∀ place, step limits stack (place, .comma) expected = .ok (expected', stack')) :
    LeadsTo limits ⟨stack, expected, others indent depth closing (item :: items) rest⟩
      ⟨stack', expected', item ++ others indent depth closing items rest⟩ := by
  obtain ⟨gaps, hseparator, hgaps⟩ := separator_eq indent
  have htext : others indent depth closing (item :: items) rest = .scalar ',' ::
      (gaps ++ (lineBreak indent (depth + 1) ++
        (item ++ others indent depth closing items rest))) := by
    simp [others, hseparator]
  rw [htext]
  calc
    LeadsTo limits _ ⟨stack', expected', gaps ++ _⟩ :=
      leadsTo_of_step (firstToken_mark rfl limits _) hstep
    LeadsTo limits _ ⟨stack', expected', lineBreak indent (depth + 1) ++ _⟩ := leadsTo_gaps hgaps
    LeadsTo limits _ _ := leadsTo_gaps (isGap_of_mem_lineBreak indent (depth + 1))

theorem leadsTo_end (hclosing : punctuation? (.scalar closing) = some token)
    (hstep : ∀ place, step limits stack (place, token) expected = .ok (expected', stack')) :
    LeadsTo limits ⟨stack, expected, others indent depth closing [] rest⟩
      ⟨stack', expected', rest⟩ :=
  (leadsTo_gaps (isGap_of_mem_lineBreak indent depth)).trans
    (leadsTo_of_step (firstToken_mark hclosing limits rest) hstep)

end Containers

/-! ### Written values -/

/-- Whether a text is read as a value inside so many containers, wherever a value is wanted and
nothing behind the text could belong to a number. -/
def ReadsAs (limits : Limits) (outer : Nat) (text : Text) (value : Json) : Prop :=
  ∀ ⦃stack : List Frame⦄ ⦃expected : Expectation⦄ ⦃rest : Text⦄, stack.length = outer →
    expected.WantsValue → EndsNumber rest →
      LeadsTo limits ⟨stack, expected, text ++ rest⟩ ⟨stack, .after value, rest⟩

section Values

variable {limits : Limits} {indent : Option Int} {depth outer : Nat} {stack : List Frame}

theorem leadsTo_items {items : List Json}
    (hitems : ∀ item ∈ items, ReadsAs limits (outer + 1) (write indent (depth + 1) item) item.sorted)
    (hstack : stack.length = outer) (before : List Json) (value : Json) (rest : Text) :
    LeadsTo limits
      ⟨.array before :: stack, .after value,
        others indent depth ']' (items.map (write indent (depth + 1))) rest⟩
      ⟨stack, .after (.array ((value :: before).reverse ++ items.map sorted)), rest⟩ := by
  -- The items that have been read are in the open array, last first, but for the last of them, which
  -- the reader still holds.
  induction items generalizing before value with
  | nil =>
    rw [List.map_nil, List.map_nil, List.append_nil]
    exact leadsTo_end rfl fun place => rfl
  | cons item items ih =>
    have hitem := hitems item (.head items)
    have hlater := ih (fun other hother => hitems other (.tail item hother)) (value :: before)
      item.sorted
    rw [List.reverse_cons, List.append_assoc, List.singleton_append] at hlater
    calc
      LeadsTo limits _ ⟨.array (value :: before) :: stack, .value, _⟩ :=
        leadsTo_next fun place => rfl
      LeadsTo limits _ ⟨.array (value :: before) :: stack, .after item.sorted, _⟩ :=
        hitem (by rw [List.length_cons, hstack]) trivial (endsNumber_others indent depth (by simp) _ _)
      LeadsTo limits _ _ := hlater

theorem readsAs_array {items : List Json} (hdepth : outer < limits.depth)
    (hitems : ∀ item ∈ items,
      ReadsAs limits (outer + 1) (write indent (depth + 1) item) item.sorted) :
    ReadsAs limits outer (write indent depth (.array items)) (Json.array items).sorted := by
  intro stack expected rest hstack hwants hrest
  have hopen := step_openArray hwants (hstack ▸ hdepth)
  rw [write_array, sorted_array]
  cases items with
  | nil => exact leadsTo_empty rfl hopen rfl fun place => rfl
  | cons first items =>
    calc
      LeadsTo limits _ ⟨.array [] :: stack, .firstItem, _⟩ := leadsTo_first rfl hopen
      LeadsTo limits _ ⟨.array [] :: stack, .after first.sorted, _⟩ :=
        hitems first (.head items) (by rw [List.length_cons, hstack]) trivial
          (endsNumber_others indent depth (by simp) _ _)
      LeadsTo limits _ _ :=
        leadsTo_items (fun item hitem => hitems item (.tail first hitem)) hstack [] first.sorted rest

theorem insertMember_of_notMem {key : Text} {members : List (Text × Json)}
    (h : key ∉ members.map (·.1)) (value : Json) :
    insertMember key value members = members ++ [(key, value)] := by
  induction members with
  | nil => rfl
  | cons member rest ih =>
    rw [List.map_cons, List.mem_cons, not_or] at h
    rw [insertMember, if_neg (Ne.symm h.1), ih h.2, List.cons_append]

/-- A written member is read where a key is wanted. -/
theorem leadsTo_member {member : Text × Json} {expected : Expectation}
    {before : List (Text × Json)}
    (hmember : ReadsAs limits (outer + 1) (write indent depth member.2) member.2.sorted)
    (hstack : stack.length = outer)
    (hstep : ∀ place, step limits stack (place, .text member.1) expected =
      .ok (.colon, .object before member.1 :: stack))
    {rest : Text} (hrest : EndsNumber rest) :
    LeadsTo limits ⟨stack, expected, writeMember indent depth member ++ rest⟩
      ⟨.object before member.1 :: stack, .after member.2.sorted, rest⟩ := by
  have htext : writeMember indent depth member ++ rest = writeString member.1 ++
      (.scalar ':' :: ([.scalar ' '] ++ (write indent depth member.2 ++ rest))) := by
    simp [writeMember, Text.ofString]
  rw [htext]
  calc
    LeadsTo limits _ ⟨.object before member.1 :: stack, .colon, _⟩ :=
      leadsTo_of_step (firstToken_writeString limits member.1 _) hstep
    LeadsTo limits _ ⟨.object before member.1 :: stack, .value, [.scalar ' '] ++ _⟩ :=
      leadsTo_of_step (firstToken_mark rfl limits _) fun place => rfl
    LeadsTo limits _ ⟨.object before member.1 :: stack, .value, _⟩ := leadsTo_gaps (by decide)
    LeadsTo limits _ _ := hmember (by rw [List.length_cons, hstack]) trivial hrest

theorem leadsTo_members {members : List (Text × Json)}
    (hmembers : ∀ member ∈ members,
      ReadsAs limits (outer + 1) (write indent (depth + 1) member.2) member.2.sorted)
    (hstack : stack.length = outer) (before : List (Text × Json)) (key : Text) (value : Json)
    (hkeys : ((insertMember key value before ++ members).map (·.1)).Nodup) (rest : Text) :
    LeadsTo limits
      ⟨.object before key :: stack, .after value,
        others indent depth '\x7d' (members.map (writeMember indent (depth + 1))) rest⟩
      ⟨stack, .after (.object (insertMember key value before ++ members.map (Prod.map id sorted))),
        rest⟩ := by
  -- As no key comes twice, the member that is put in is always a new one and goes to the end.
  induction members generalizing before key value with
  | nil =>
    rw [List.map_nil, List.map_nil, List.append_nil]
    exact leadsTo_end rfl fun place => rfl
  | cons member members ih =>
    have hnew : member.1 ∉ (insertMember key value before).map (·.1) := by
      rw [List.map_append, List.map_cons] at hkeys
      exact fun hmem => (List.nodup_append.mp hkeys).2.2 _ hmem _ (.head _) rfl
    have hinsert := insertMember_of_notMem hnew member.2.sorted
    have hlater := ih (fun other hother => hmembers other (.tail member hother))
      (insertMember key value before) member.1 member.2.sorted
    rw [hinsert, List.append_assoc, List.append_assoc, List.singleton_append] at hlater
    calc
      LeadsTo limits _ ⟨stack, .key (insertMember key value before), _⟩ :=
        leadsTo_next fun place => rfl
      LeadsTo limits _ ⟨.object (insertMember key value before) member.1 :: stack,
          .after member.2.sorted, _⟩ :=
        leadsTo_member (hmembers member (.head members)) hstack (fun place => rfl)
          (endsNumber_others indent depth (by simp) _ _)
      LeadsTo limits _ _ := hlater (by simpa using hkeys)

theorem readsAs_object {members : List (Text × Json)} (hdepth : outer < limits.depth)
    (hkeys : (members.map (·.1)).Nodup)
    (hmembers : ∀ member ∈ members,
      ReadsAs limits (outer + 1) (write indent (depth + 1) member.2) member.2.sorted) :
    ReadsAs limits outer (write indent depth (.object members)) (Json.object members).sorted := by
  intro stack expected rest hstack hwants hrest
  have hopen := step_openObject hwants (hstack ▸ hdepth)
  -- The members are written in the order of their keys, and the reader keeps them in that order.
  have hperm := List.mergeSort_perm members memberLe
  have hkeys' : ((members.mergeSort memberLe).map (·.1)).Nodup := (hperm.map _).nodup_iff.mpr hkeys
  have hmembers' := fun member hmem => hmembers member (hperm.mem_iff.mp hmem)
  rw [write_object, sorted_object, mergeSort_map_snd]
  generalize members.mergeSort memberLe = members' at hkeys' hmembers'
  cases members' with
  | nil => exact leadsTo_empty rfl hopen rfl fun place => rfl
  | cons first members' =>
    calc
      LeadsTo limits _ ⟨stack, .firstKey, _⟩ := leadsTo_first rfl hopen
      LeadsTo limits _ ⟨.object [] first.1 :: stack, .after first.2.sorted, _⟩ :=
        leadsTo_member (hmembers' first (.head members')) hstack (fun place => rfl)
          (endsNumber_others indent depth (by simp) _ _)
      LeadsTo limits _ _ :=
        leadsTo_members (fun member hmem => hmembers' member (.tail first hmem)) hstack [] first.1
          first.2.sorted (by simpa [insertMember] using hkeys') rest

end Values

/-- The text of a value that fits in the limits is read as the sorted form of the value. -/
theorem FitsIn.readsAs {limits : Limits} {outer : Nat} {value : Json}
    (h : FitsIn limits outer value) (indent : Option Int) (depth : Nat) :
    ReadsAs limits outer (write indent depth value) value.sorted := by
  induction h generalizing depth with
  | null =>
    intro stack expected rest _ hwants _
    rw [write, sorted_null]
    exact leadsTo_of_step (firstToken_word null_mem_words limits rest) (step_scalar hwants _)
  | bool b =>
    intro stack expected rest _ hwants _
    rw [write, sorted_bool]
    exact leadsTo_of_step (firstToken_word (bool_mem_words b) limits rest) (step_scalar hwants _)
  | integer hdigits =>
    intro stack expected rest _ hwants hrest
    rw [write, sorted_integer]
    exact leadsTo_of_step (firstToken_integer hdigits hrest) (step_scalar hwants _)
  | string t =>
    intro stack expected rest _ hwants _
    rw [write, sorted_string]
    exact leadsTo_of_step (firstToken_writeString limits t rest) (step_text hwants t)
  | array hdepth _ ih => exact readsAs_array hdepth fun item hitem => ih item hitem (depth + 1)
  | object hdepth hkeys _ ih =>
    exact readsAs_object hdepth hkeys fun member hmember => ih member hmember (depth + 1)

/-! ### Documents -/

/-- A document is read as the sorted form of the value that it was written for. -/
theorem FitsIn.readWithin_writeDocument {limits : Limits} {value : Json}
    (h : FitsIn limits 0 value) (indent : Option Int) :
    readWithin limits (value.writeDocument indent) = .ok value.sorted := by
  have hend : EndsNumber [Text.lineFeed] := endsNumber_cons (by simp) []
  have hleads : LeadsTo limits ⟨[], .value, value.writeDocument indent⟩
      ⟨[], .after value.sorted, [Text.lineFeed]⟩ :=
    h.readsAs indent 0 rfl trivial hend
  have hread (length : Nat) : readTokens limits length [] .value
      (tokensFrom limits 0 0 (value.writeDocument indent)) = .ok value.sorted := by
    obtain ⟨here', hsame⟩ := hleads length 0
    exact hsame
  -- The reader stops at a byte order mark, so the document cannot start with one.
  have hmark : (value.writeDocument indent).head? ≠ some (.scalar '\ufeff') := by
    intro hhead
    obtain ⟨rest, hrest⟩ := List.head?_eq_some_iff.mp hhead
    have hstop := hread 0
    rw [hrest, tokensFrom_byteOrderMark] at hstop
    cases hstop
  rw [readWithin, if_neg hmark]
  exact hread _

theorem FitsIn.read_writeDocument {value : Json} (h : FitsIn {} 0 value) (indent : Option Int) :
    read (value.writeDocument indent) = .ok value.sorted := by
  rw [read, h.readWithin_writeDocument indent]

theorem exists_forall_mem {α : Type} {P : Nat → α → Prop} (hmono : ∀ a n m, n ≤ m → P n a → P m a)
    {items : List α} (h : ∀ item ∈ items, ∃ n, P n item) : ∃ n, ∀ item ∈ items, P n item := by
  induction items with
  | nil => exact ⟨0, nofun⟩
  | cons item items ih =>
    obtain ⟨n, hn⟩ := h item (.head items)
    obtain ⟨m, hm⟩ := ih fun other hother => h other (.tail item hother)
    refine ⟨max n m, fun other hother => ?_⟩
    obtain rfl | hother := List.mem_cons.mp hother
    · exact hmono other n _ (Nat.le_max_left n m) hn
    · exact hmono other m _ (Nat.le_max_right n m) (hm other hother)

/-- Every plain value fits in all limits that are large enough. -/
theorem IsPlain.exists_fitsIn {value : Json} (h : value.IsPlain) (outer : Nat) :
    ∃ size, ∀ limits : Limits, size ≤ limits.digits → size ≤ limits.depth →
      FitsIn limits outer value := by
  induction h generalizing outer with
  | null => exact ⟨0, fun _ _ _ => .null⟩
  | bool b => exact ⟨0, fun _ _ _ => .bool b⟩
  | integer n => exact ⟨(Nat.toDigits 10 n.natAbs).length, fun _ hdigits _ => .integer hdigits⟩
  | string t => exact ⟨0, fun _ _ _ => .string t⟩
  | array _ ih =>
    obtain ⟨size, hsize⟩ := exists_forall_mem
      (fun _ n m hnm h limits hdigits hdepth => h limits (by omega) (by omega))
      fun item hitem => ih item hitem (outer + 1)
    refine ⟨max size (outer + 1), fun limits hdigits hdepth => .array (by omega) ?_⟩
    exact fun item hitem => hsize item hitem limits (by omega) (by omega)
  | object hkeys _ ih =>
    obtain ⟨size, hsize⟩ := exists_forall_mem
      (fun _ n m hnm h limits hdigits hdepth => h limits (by omega) (by omega))
      fun member hmember => ih member hmember (outer + 1)
    refine ⟨max size (outer + 1), fun limits hdigits hdepth => .object (by omega) hkeys ?_⟩
    exact fun member hmember => hsize member hmember limits (by omega) (by omega)

theorem FitsIn.isPlain {limits : Limits} {outer : Nat} {value : Json}
    (h : FitsIn limits outer value) : value.IsPlain := by
  induction h with
  | null => exact .null
  | bool b => exact .bool b
  | integer _ => exact .integer _
  | string t => exact .string t
  | array _ _ ih => exact .array ih
  | object _ hkeys _ ih => exact .object hkeys ih

/-- A value and its sorted form are written alike. -/
theorem IsPlain.write_sorted {value : Json} (h : value.IsPlain) (indent : Option Int)
    (depth : Nat) : write indent depth value.sorted = write indent depth value := by
  induction h generalizing depth with
  | array _ ih =>
    rw [sorted_array, write_array, write_array, List.map_map]
    exact congrArg _ (List.map_congr_left fun item hitem => ih item hitem (depth + 1))
  | @object members hkeys _ ih =>
    rw [sorted_object, write_object, write_object, mergeSort_mergeSort, mergeSort_map_snd,
      List.map_map]
    refine congrArg _ (List.map_congr_left fun member hmember => ?_)
    have hmem := (List.mergeSort_perm members memberLe).mem_iff.mp hmember
    simp only [Function.comp_apply, writeMember, Prod.map, id_eq, ih member hmem]
  | _ => simp

/-- Plain values have one document if they are the same, and different ones if not. -/
theorem IsPlain.writeDocument_eq_iff {a b : Json} (ha : a.IsPlain) (hb : b.IsPlain)
    (indent : Option Int) : a.writeDocument indent = b.writeDocument indent ↔ a.Same b := by
  rw [ha.same_iff hb]
  constructor
  · intro h
    obtain ⟨size, hfits⟩ := ha.exists_fitsIn 0
    obtain ⟨size', hfits'⟩ := hb.exists_fitsIn 0
    -- Both documents are read within limits that have room for both values.
    have hread := (hfits ⟨max size size', max size size'⟩ (Nat.le_max_left size size')
      (Nat.le_max_left size size')).readWithin_writeDocument indent
    have hread' := (hfits' ⟨max size size', max size size'⟩ (Nat.le_max_right size size')
      (Nat.le_max_right size size')).readWithin_writeDocument indent
    rw [h, hread'] at hread
    exact (Except.ok.inj hread).symm
  · intro h
    rw [writeDocument, writeDocument, ← ha.write_sorted, ← hb.write_sorted, h]

end Letterhead.Json
