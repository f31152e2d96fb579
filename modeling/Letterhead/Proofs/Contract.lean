import Letterhead.Request

/-!
# Reports meet the contract

What a schema accepts is said rule by rule, then for records, and then for the parts of a report from
the inside out. A report of a run can only be against the contract by a remark on a line before the
first one, or by a run without a name or a time.

## Main definitions

* `Schema.Accepts` — a value breaks no rule of a schema

## Main results

* `Contract.accepts_record` — which objects a record accepts
* `Contract.accepts_report`, `Contract.check_toJson` — a report of a run is accepted
-/

namespace Letterhead

namespace Schema

/-- A value that breaks no rule of a schema. -/
def Accepts (schema : Schema) (value : Json) : Prop := schema.violations value = []

theorem breachIf_eq_nil_iff {broken : Bool} {breach : Breach} :
    breachIf broken breach = [] ↔ broken = false := by
  cases broken <;> simp [breachIf]

theorem accepts_kind_iff {k : JsonKind} {value : Json} :
    (kind k).Accepts value ↔ k.holds value = true := by
  rw [Accepts, violations, breachIf_eq_nil_iff, Bool.not_eq_false']

@[simp] theorem accepts_string (t : Text) : (kind .string).Accepts (.string t) :=
  accepts_kind_iff.mpr rfl

@[simp] theorem accepts_ofString (s : String) : (kind .string).Accepts (Json.ofString s) :=
  accepts_kind_iff.mpr rfl

@[simp] theorem accepts_boolean (b : Bool) : (kind .boolean).Accepts (.bool b) :=
  accepts_kind_iff.mpr rfl

@[simp] theorem accepts_object (fields : List (String × Json)) :
    (kind .object).Accepts (Json.ofFields fields) :=
  accepts_kind_iff.mpr rfl

theorem accepts_all_iff {parts : List Schema} {value : Json} :
    (all parts).Accepts value ↔ ∀ part ∈ parts, part.Accepts value := by
  rw [Accepts, violations]
  induction parts with
  | nil => simp [partViolations]
  | cons part rest ih => simp [partViolations, ih, Accepts]

theorem accepts_named_iff {name : String} {schema : Schema} {value : Json} :
    (named name schema).Accepts value ↔ schema.Accepts value := by
  rw [Accepts, violations, Accepts]

theorem accepts_items_iff {item : Schema} {values : List Json} :
    (items item).Accepts (.array values) ↔ ∀ value ∈ values, item.Accepts value := by
  have h : ∀ index, itemViolations item index values = [] ↔ ∀ value ∈ values, item.Accepts value := by
    induction values with
    | nil => simp [itemViolations]
    | cons value rest ih => simp [itemViolations, ih, Accepts]
  rw [Accepts, violations, h]

theorem accepts_properties_iff {fields : List (String × Schema)} {members : List (Text × Json)} :
    (properties fields).Accepts (.object members) ↔
      ∀ field ∈ fields, ∀ value ∈ members.lookup (Text.ofString field.1), field.2.Accepts value := by
  rw [Accepts, violations]
  induction fields with
  | nil => simp [fieldViolations]
  | cons field rest ih =>
    obtain ⟨name, schema⟩ := field
    rw [fieldViolations, List.append_eq_nil_iff, ih, List.forall_mem_cons]
    refine and_congr_left' ?_
    cases members.lookup (Text.ofString name) <;> simp [Accepts]

theorem otherKeys_eq_nil_iff {names : List String} {members : List (Text × Json)} :
    otherKeys names members = [] ↔ ∀ key ∈ members.map (·.1), key ∈ names.map Text.ofString := by
  rw [otherKeys, ← List.length_eq_zero_iff, List.length_mergeSort, List.length_eq_zero_iff,
    List.filter_eq_nil_iff]
  simp

theorem accepts_nonNegative_iff {n : Int} : nonNegative.Accepts (.integer n) ↔ 0 ≤ n := by
  rw [Accepts, violations, breachIf_eq_nil_iff, decide_eq_false_iff_not, Int.not_lt]

theorem accepts_nonEmpty_iff {t : Text} : nonEmpty.Accepts (.string t) ↔ t ≠ [] := by
  rw [Accepts, violations, breachIf_eq_nil_iff, List.isEmpty_eq_false_iff]

theorem accepts_constant_ofString (word : String) :
    (constant word).Accepts (Json.ofString word) := by
  rw [Json.ofString, Accepts, violations, breachIf_eq_nil_iff, bne_self_eq_false]

theorem accepts_oneOf_ofString {words : List String} {s : String} (h : s ∈ words) :
    (oneOf words).Accepts (Json.ofString s) := by
  rw [Json.ofString, Accepts, violations, breachIf_eq_nil_iff]
  simpa using ⟨s, h, rfl⟩

end Schema

/-- Keys that are proper strings are looked up as the strings they are. -/
theorem lookup_ofString (members : List (String × Json)) (name : String) :
    (members.map fun (key, value) => (Text.ofString key, value)).lookup (Text.ofString name) =
      members.lookup name := by
  induction members with
  | nil => rfl
  | cons member rest ih =>
    have hkey : (Text.ofString name == Text.ofString member.1) = (name == member.1) := by
      rw [Bool.eq_iff_iff, beq_iff_eq, beq_iff_eq, Text.ofString_injective.eq_iff]
    rw [List.map_cons, List.lookup_cons, List.lookup_cons, hkey, ih]

namespace Contract

open Schema

/-- A record accepts members whose names it has, if none is missing and each obeys its schema. -/
theorem accepts_record {fields : List (String × Schema)} {optional : List String}
    {members : List (String × Json)} (hnames : ∀ member ∈ members, member.1 ∈ fields.map (·.1))
    (hfields : ∀ field ∈ fields, match members.lookup field.1 with
      | some value => field.2.Accepts value
      | none => field.1 ∈ optional) :
    (record fields optional).Accepts (Json.ofFields members) := by
  rw [record, accepts_all_iff]
  simp only [List.forall_mem_cons]
  refine ⟨accepts_kind_iff.mpr rfl, ?_, ?_, ?_, by simp⟩
  · rw [Accepts, Json.ofFields, violations, breachIf_eq_nil_iff, bne_eq_false_iff_eq,
      otherKeys_eq_nil_iff]
    intro key hkey
    obtain ⟨member, hmember, rfl⟩ : ∃ member ∈ members, Text.ofString member.1 = key := by
      simpa using hkey
    exact List.mem_map_of_mem (hnames member hmember)
  · rw [Accepts, Json.ofFields, violations, List.map_eq_nil_iff, List.filter_eq_nil_iff]
    intro name hname
    obtain ⟨hname, hwanted⟩ := List.mem_filter.mp hname
    obtain ⟨field, hfield, rfl⟩ := List.mem_map.mp hname
    have h := hfields field hfield
    rw [lookup_ofString]
    cases hlookup : members.lookup field.1 with
    | some value => simp
    | none =>
      rw [hlookup] at h
      simp [h] at hwanted
  · rw [Json.ofFields, accepts_properties_iff]
    intro field hfield value hvalue
    have h := hfields field hfield
    rw [lookup_ofString] at hvalue
    rwa [Option.mem_def.mp hvalue] at h

theorem accepts_count {n : Int} (h : 0 ≤ n) : count.Accepts (.integer n) := by
  rw [count, accepts_all_iff]
  simp only [List.forall_mem_cons]
  exact ⟨accepts_kind_iff.mpr rfl, accepts_nonNegative_iff.mpr h, by simp⟩

theorem accepts_filled {s : String} (h : s ≠ "") : filled.Accepts (Json.ofString s) := by
  rw [filled, accepts_all_iff]
  simp only [List.forall_mem_cons]
  refine ⟨accepts_kind_iff.mpr rfl, accepts_nonEmpty_iff.mpr fun hs => h ?_, by simp⟩
  exact Text.ofString_injective hs

theorem accepts_items_named {name : String} {item : Schema} {values : List Json}
    (h : ∀ value ∈ values, item.Accepts value) :
    (Schema.all [.kind .array, .items (.named name item)]).Accepts (.array values) := by
  rw [accepts_all_iff]
  simp only [List.forall_mem_cons]
  refine ⟨accepts_kind_iff.mpr rfl, accepts_items_iff.mpr fun value hvalue => ?_, by simp⟩
  exact accepts_named_iff.mpr (h value hvalue)

theorem accepts_diagnostic {d : Diagnostic} (h : 0 ≤ d.line) : diagnostic.Accepts d.toJson := by
  have hseverity : d.severity.label ∈ ["info", "warning"] := by cases d.severity <;> decide
  refine accepts_record (by simp) ?_
  simp [List.lookup_cons, List.lookup_nil, accepts_oneOf_ofString hseverity, accepts_count h]

theorem accepts_file {o : Outcome} (h : ∀ d ∈ o.diagnostics, 0 ≤ d.line) :
    file.Accepts o.toJson := by
  have hstatus : o.status.label ∈ ["updated", "unchanged", "skipped", "failed"] := by
    cases o.status <;> decide
  have hdiagnostics : (Schema.all [.kind .array, .items (.named "diagnostic" diagnostic)]).Accepts
      (.array (o.diagnostics.map Diagnostic.toJson)) :=
    accepts_items_named (by simpa using fun d hd => accepts_diagnostic (h d hd))
  rw [Outcome.toJson]
  by_cases herror : o.error = ""
  · refine accepts_record (by simp [herror]) ?_
    simp [herror, List.lookup_cons, List.lookup_nil, accepts_oneOf_ofString hstatus, hdiagnostics]
  · refine accepts_record (by simp [herror]) ?_
    simp [herror, List.lookup_cons, List.lookup_nil, accepts_oneOf_ofString hstatus, hdiagnostics]

theorem accepts_summary (r : Report) : summary.Accepts r.summary := by
  have hcount : ∀ n : Nat, count.Accepts (.integer n) := fun n => accepts_count (Int.natCast_nonneg n)
  refine accepts_record (by simp) ?_
  simp only [List.forall_mem_cons]
  refine ⟨hcount _, accepts_record ?_ ?_, accepts_record ?_ ?_, by simp⟩
  · simp [FileStatus.all, FileStatus.label]
  · simp [List.lookup_cons, List.lookup_nil, FileStatus.all, FileStatus.label, hcount]
  · simp [Severity.all, Severity.label]
  · simp [List.lookup_cons, List.lookup_nil, Severity.all, Severity.label, hcount]

/-- A report of a run meets the contract. -/
theorem accepts_report {r : Report} {stamp : Stamp} {c : Config} (hinfo : r.info = RunInfo.of stamp c)
    (hid : stamp.runId ≠ "") (htime : stamp.createdAt ≠ "")
    (hlines : ∀ o ∈ r.outcomes, ∀ d ∈ o.diagnostics, 0 ≤ d.line) :
    report.Accepts r.toJson := by
  refine accepts_record (by simp) ?_
  simp only [List.forall_mem_cons]
  refine ⟨accepts_constant_ofString _, accepts_record ?_ ?_, accepts_summary r, ?_, by simp⟩
  · simp
  · simp [List.lookup_cons, List.lookup_nil, hinfo, RunInfo.of, accepts_filled hid,
      accepts_filled htime, Config.toJson]
  · refine accepts_items_named ?_
    simpa using fun o ho => accepts_file (hlines o ho)

theorem check_toJson {r : Report} {stamp : Stamp} {c : Config} (hinfo : r.info = RunInfo.of stamp c)
    (hid : stamp.runId ≠ "") (htime : stamp.createdAt ≠ "")
    (hlines : ∀ o ∈ r.outcomes, ∀ d ∈ o.diagnostics, 0 ≤ d.line) :
    check r.toJson = .ok () := by
  rw [check, worst?, accepts_report hinfo hid htime hlines]

end Contract

end Letterhead
