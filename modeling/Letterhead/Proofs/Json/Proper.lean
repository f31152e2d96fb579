import Letterhead.Json.Writer
import Letterhead.Proofs.Encoding.Proper
import Letterhead.Request

/-!
# Documents without surrogates

The writer of JSON neither takes surrogates out nor brings any in, so the text of a value can be put
out just if all strings and keys in the value can. In the report of a run the messages of the remarks
are the only strings that need not be proper.

## Main definitions

* `Json.isProper` — the values without surrogates

## Main results

* `Json.isProper_writeDocument` — a document is proper if the value is
* `Report.isProper_toJson` — a report is proper if the messages of its remarks are
-/

namespace Letterhead

namespace Json

/-! ### Values -/

mutual

/-- Whether no string and no key in a value holds a surrogate. -/
def isProper : Json → Bool
  | null | bool _ | integer _ | real _ => true
  | string t => t.isProper
  | array items => areProperItems items
  | object members => areProperMembers members

/-- Whether items are all proper. -/
def areProperItems : List Json → Bool
  | [] => true
  | item :: rest => isProper item && areProperItems rest

/-- Whether members are all proper, with their keys. -/
def areProperMembers : List (Text × Json) → Bool
  | [] => true
  | (key, value) :: rest => key.isProper && isProper value && areProperMembers rest

end

@[simp] theorem isProper_string (t : Text) : (string t).isProper = t.isProper := by rw [isProper]

@[simp] theorem isProper_ofString (s : String) : (ofString s).isProper = true := by
  rw [ofString, isProper_string, Text.isProper_ofString]

@[simp] theorem isProper_bool (b : Bool) : (bool b).isProper = true := by rw [isProper]

@[simp] theorem isProper_integer (n : Int) : (integer n).isProper = true := by rw [isProper]

@[simp] theorem isProper_array (items : List Json) :
    (array items).isProper = items.all isProper := by
  rw [isProper]
  induction items with
  | nil => rw [areProperItems, List.all_nil]
  | cons item rest ih => rw [areProperItems, ih, List.all_cons]

@[simp] theorem isProper_ofFields (fields : List (String × Json)) :
    (ofFields fields).isProper = fields.all fun field => field.2.isProper := by
  rw [ofFields, isProper]
  induction fields with
  | nil => rw [List.map_nil, areProperMembers, List.all_nil]
  | cons field rest ih =>
    rw [List.map_cons, areProperMembers, ih, Text.isProper_ofString, Bool.true_and, List.all_cons]

/-! ### The writer -/

theorem isProper_escape (p : CodePoint) : (escape p).isProper = p.isScalar := by
  cases p with
  | scalar c => exact Text.isProper_map_scalar (escapeChar c)
  | surrogate offset => rfl

@[simp] theorem isProper_writeString (t : Text) : (writeString t).isProper = t.isProper := by
  simp only [writeString, Text.isProper_append, Text.isProper_cons, Text.isProper_flatMap,
    isProper_escape, CodePoint.isScalar, Text.isProper_nil, Bool.true_and, Bool.and_true]
  rfl

@[simp] theorem isProper_lineBreak (indent : Option Int) (depth : Nat) :
    (lineBreak indent depth).isProper = true := by
  cases indent with
  | none => rfl
  | some width => simp [lineBreak, Text.isProper, Text.lineFeed, CodePoint.isScalar]

@[simp] theorem isProper_separator (indent : Option Int) : (separator indent).isProper = true := by
  cases indent <;> exact Text.isProper_ofString _

theorem isProper_enclose (indent : Option Int) (depth : Nat) (opening closing : Char)
    (items : List Text) :
    (enclose indent depth opening closing items).isProper = items.all Text.isProper := by
  cases items with
  | nil => rfl
  | cons first rest => simp [enclose, CodePoint.isScalar]

mutual

/-- Surrogates are neither taken out nor brought in when a value is written. -/
theorem isProper_write (indent : Option Int) (depth : Nat) (value : Json) :
    (write indent depth value).isProper = value.isProper := by
  cases value with
  | null => rw [write, isProper, Text.isProper_ofString]
  | bool b => rw [write, isProper, Text.isProper_ofString]
  | integer n => rw [write, isProper, Text.isProper_ofString]
  | real x => rw [write, isProper, Text.isProper_ofString]
  | string t => rw [write, isProper, isProper_writeString]
  | array items => rw [write, isProper, isProper_enclose, all_writeItems]
  | object members =>
    -- The members are sorted by key, but they stay the same members.
    rw [write, isProper, isProper_enclose, ← all_writeMembers indent (depth + 1) members,
      List.all_map, (List.mergeSort_perm _ keyLe).all_eq]
    refine congrArg (List.all _) (funext fun member => ?_)
    simp

theorem all_writeItems (indent : Option Int) (depth : Nat) (items : List Json) :
    (writeItems indent depth items).all Text.isProper = areProperItems items := by
  cases items with
  | nil => rw [writeItems, areProperItems, List.all_nil]
  | cons item rest =>
    rw [writeItems, areProperItems, List.all_cons, isProper_write, all_writeItems]

theorem all_writeMembers (indent : Option Int) (depth : Nat) (members : List (Text × Json)) :
    ((writeMembers indent depth members).all fun member =>
      member.1.isProper && member.2.isProper) = areProperMembers members := by
  cases members with
  | nil => rw [writeMembers, areProperMembers, List.all_nil]
  | cons member rest =>
    rw [writeMembers, areProperMembers, List.all_cons, isProper_write, all_writeMembers]

end

theorem isProper_writeDocument (indent : Option Int) (value : Json) :
    (writeDocument indent value).isProper = value.isProper := by
  rw [writeDocument, Text.isProper_append, isProper_write]
  exact Bool.and_true _

end Json

/-! ### Reports -/

theorem Diagnostic.isProper_toJson (d : Diagnostic) : d.toJson.isProper = d.message.isProper := by
  simp [toJson]

theorem Outcome.isProper_toJson (o : Outcome) :
    o.toJson.isProper = o.diagnostics.all (·.message.isProper) := by
  have herror : (if o.error = "" then [] else [("error", Json.ofString o.error)]).all
      (fun field => field.2.isProper) = true := by
    split <;> simp
  rw [toJson, Json.isProper_ofFields, List.all_append, herror]
  simp [Function.comp_def, Diagnostic.isProper_toJson]

theorem Config.isProper_toJson (c : Config) : c.toJson.isProper = true := by
  have hsuffix : (suffixJson c.backupSuffix).isProper = true := by
    cases c.backupSuffix <;> simp [suffixJson]
  simp [toJson, hsuffix]

theorem Report.isProper_summary (r : Report) : r.summary.isProper = true := by
  simp [summary]

/-- All else in the report of a run is made of proper strings. -/
theorem Report.isProper_toJson {r : Report} {stamp : Stamp} {c : Config}
    (hinfo : r.info = RunInfo.of stamp c) :
    r.toJson.isProper = r.outcomes.all fun o => o.diagnostics.all (·.message.isProper) := by
  simp [toJson, hinfo, RunInfo.of, Config.isProper_toJson, isProper_summary, Function.comp_def,
    Outcome.isProper_toJson]

end Letterhead
