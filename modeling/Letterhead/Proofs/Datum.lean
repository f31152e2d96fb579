import Letterhead.Datum
import Letterhead.Proofs.Json.ReadBack
import Letterhead.Request

/-!
# Documents of data and of reports

The JSON form of data without binary numbers is plain: no object in it has a key twice, whatever the
keys of the maps. So two such data have one document just if they have the same JSON form, and from
the document of a report the report is read again.

## Main definitions

* `Datum.IsExact` — the data without binary numbers
* `Report.FitsIn` — the reports that the limits of a reader leave room for

## Main results

* `Datum.IsExact.isPlain_toJson` — the JSON form of exact data is plain
* `Report.FitsIn.read_writeDocument` — a report is read again from its document
* `Datum.writeDocument_canonical` — one document for one JSON form, and reports read again
-/

namespace Letterhead

/-! ### Members of objects -/

namespace Json

theorem mem_insertMember {key : Text} {value : Json} {members : List (Text × Json)}
    {member : Text × Json} (h : member ∈ insertMember key value members) :
    member.2 = value ∨ member ∈ members := by
  induction members with
  | nil =>
    rw [List.mem_singleton.mp h]
    exact .inl rfl
  | cons first rest ih =>
    rw [insertMember] at h
    by_cases hkey : first.1 = key
    · rw [if_pos hkey] at h
      obtain rfl | hrest := List.mem_cons.mp h
      · exact .inl rfl
      · exact .inr (.tail first hrest)
    · rw [if_neg hkey] at h
      obtain rfl | hrest := List.mem_cons.mp h
      · exact .inr (.head rest)
      · exact (ih hrest).imp_right (.tail first)

/-- A member that is put in brings its key only if it is new. -/
theorem keys_insertMember (key : Text) (value : Json) (members : List (Text × Json)) :
    (insertMember key value members).map (·.1) =
      if key ∈ members.map (·.1) then members.map (·.1) else members.map (·.1) ++ [key] := by
  by_cases hkey : key ∈ members.map (·.1)
  · rw [if_pos hkey]
    induction members with
    | nil => cases hkey
    | cons first rest ih =>
      rw [insertMember]
      by_cases hfirst : first.1 = key
      · rw [if_pos hfirst, List.map_cons, List.map_cons]
      · rw [if_neg hfirst, List.map_cons, List.map_cons,
          ih ((List.mem_cons.mp hkey).resolve_left (Ne.symm hfirst))]
  · rw [if_neg hkey, insertMember_of_notMem hkey, List.map_append, List.map_singleton]

theorem nodup_keys_insertMember {key : Text} {value : Json} {members : List (Text × Json)}
    (h : (members.map (·.1)).Nodup) : ((insertMember key value members).map (·.1)).Nodup := by
  rw [keys_insertMember]
  by_cases hkey : key ∈ members.map (·.1)
  · rwa [if_pos hkey]
  · rw [if_neg hkey, List.nodup_append]
    refine ⟨h, List.nodup_singleton key, fun other hother new hnew heq => hkey ?_⟩
    rwa [← List.mem_singleton.mp hnew, ← heq]

theorem isPlain_insertMember {key : Text} {value : Json} {members : List (Text × Json)}
    (h : (object members).IsPlain) (hvalue : value.IsPlain) :
    (object (insertMember key value members)).IsPlain := by
  rw [isPlain_object_iff] at h ⊢
  refine ⟨nodup_keys_insertMember h.1, fun member hmember => ?_⟩
  obtain hnew | hold := mem_insertMember hmember
  · rwa [hnew]
  · exact h.2 member hold

theorem isPlain_ofString (s : String) : (ofString s).IsPlain := .string _

theorem nodup_keys_ofFields {fields : List (String × Json)} (hnames : (fields.map (·.1)).Nodup) :
    ((fields.map fun (name, value) => (Text.ofString name, value)).map (·.1)).Nodup := by
  rw [List.map_map]
  have hmap := hnames.map Text.ofString_injective
  rwa [List.map_map] at hmap

theorem isPlain_ofFields {fields : List (String × Json)} (hnames : (fields.map (·.1)).Nodup)
    (h : ∀ field ∈ fields, field.2.IsPlain) : (ofFields fields).IsPlain := by
  refine .object (nodup_keys_ofFields hnames) fun member hmember => ?_
  obtain ⟨field, hfield, rfl⟩ := List.mem_map.mp hmember
  exact h field hfield

end Json

/-! ### Exact data -/

namespace Datum

/-- The data without binary numbers. A record has no two fields of one name. -/
inductive IsExact : Datum → Prop
  | null : IsExact null
  | bool (b : Bool) : IsExact (bool b)
  | integer (n : Int) : IsExact (integer n)
  | text (t : Text) : IsExact (text t)
  | bytes (bs : List UInt8) : IsExact (bytes bs)
  | path (p : Path) : IsExact (path p)
  | constant (family name : String) {value : Datum} (h : IsExact value) :
      IsExact (constant family name value)
  | list {items : List Datum} (h : ∀ item ∈ items, IsExact item) : IsExact (list items)
  | tuple {items : List Datum} (h : ∀ item ∈ items, IsExact item) : IsExact (tuple items)
  | set {items : List Datum} (h : ∀ item ∈ items, IsExact item) : IsExact (set items)
  | fixedSet {items : List Datum} (h : ∀ item ∈ items, IsExact item) : IsExact (fixedSet items)
  | map {entries : List (Datum × Datum)} (h : ∀ entry ∈ entries, IsExact entry.2) :
      IsExact (map entries)
  | record (name : String) {fields : List (String × Datum)} (hnames : (fields.map (·.1)).Nodup)
      (h : ∀ field ∈ fields, IsExact field.2) : IsExact (record name fields)

theorem mem_insertEntry {entry other : KeyedEntry} {kept : List KeyedEntry}
    (h : other ∈ insertEntry entry kept) :
    other.value = entry.value ∨ other ∈ kept := by
  induction kept with
  | nil =>
    rw [List.mem_singleton.mp h]
    exact .inl rfl
  | cons first rest ih =>
    rw [insertEntry] at h
    by_cases hsame : sameIdentity first.identity entry.identity
    · rw [if_pos hsame] at h
      obtain rfl | hrest := List.mem_cons.mp h
      · exact .inl rfl
      · exact .inr (.tail first hrest)
    · rw [if_neg hsame] at h
      obtain rfl | hrest := List.mem_cons.mp h
      · exact .inr (.head rest)
      · exact (ih hrest).imp_right (.tail first)

theorem isPlain_insertEntries {entries : List KeyedEntry}
    (h : ∀ entry ∈ entries, entry.value.IsPlain) :
    ∀ entry ∈ entries.foldl (fun kept entry => insertEntry entry kept) [], entry.value.IsPlain := by
  refine List.foldlRecOn (motive := fun kept => ∀ entry : KeyedEntry, entry ∈ kept →
    entry.value.IsPlain) entries _ nofun fun kept hkept entry hentry other hother => ?_
  obtain hvalue | hmem := mem_insertEntry hother
  · rw [hvalue]
    exact h entry hentry
  · exact hkept other hmem

/-- The object made of some entries has no key twice, and its values are among those of the
entries. -/
theorem isPlain_membersOf {entries : List KeyedEntry} (h : ∀ entry ∈ entries, entry.value.IsPlain) :
    (Json.object (membersOf entries)).IsPlain :=
  List.foldlRecOn (motive := fun members => (Json.object members).IsPlain) _ _
    (.object .nil nofun) fun _ hmembers entry hentry =>
      Json.isPlain_insertMember hmembers (isPlain_insertEntries h entry hentry)

theorem allToJson_eq (items : List Datum) : allToJson items = items.map toJson := by
  induction items with
  | nil => rw [allToJson, List.map_nil]
  | cons item rest ih => rw [allToJson, ih, List.map_cons]

theorem entriesToJson_eq (entries : List (Datum × Datum)) :
    entriesToJson entries =
      entries.map fun entry => ⟨identity? entry.1, keyText entry.1, toJson entry.2⟩ := by
  induction entries with
  | nil => rw [entriesToJson, List.map_nil]
  | cons entry rest ih => rw [entriesToJson, ih, List.map_cons]

theorem fieldsToJson_eq (fields : List (String × Datum)) :
    fieldsToJson fields =
      (fields.map (Prod.map id toJson)).map fun (name, value) => (Text.ofString name, value) := by
  induction fields with
  | nil => rw [fieldsToJson, List.map_nil, List.map_nil]
  | cons field rest ih => rw [fieldsToJson, ih, List.map_cons, List.map_cons]; rfl

theorem isPlain_allToJson {items : List Datum} (h : ∀ item ∈ items, item.toJson.IsPlain) :
    (Json.array (allToJson items)).IsPlain := by
  rw [allToJson_eq]
  exact .array (List.forall_mem_map.mpr h)

/-- The JSON form of exact data is plain. -/
theorem IsExact.isPlain_toJson {d : Datum} (h : d.IsExact) : d.toJson.IsPlain := by
  induction h with
  | null => rw [toJson]; exact .null
  | bool b => rw [toJson]; exact .bool b
  | integer n => rw [toJson]; exact .integer n
  | text t => rw [toJson]; exact .string t
  | bytes bs => rw [toJson]; exact Json.isPlain_ofString _
  | path p => rw [toJson]; exact Json.isPlain_ofString _
  | constant family name _ ih => rwa [toJson]
  | list _ ih | tuple _ ih | set _ ih | fixedSet _ ih =>
    rw [toJson]
    exact isPlain_allToJson ih
  | map _ ih =>
    rw [toJson, entriesToJson_eq]
    exact isPlain_membersOf (List.forall_mem_map.mpr ih)
  | record name hnames _ ih =>
    rw [toJson, fieldsToJson_eq]
    refine Json.isPlain_ofFields ?_ (List.forall_mem_map.mpr ih)
    rwa [List.map_map]

end Datum

/-! ### Reports -/

namespace Json

variable {limits : Limits} {outer : Nat}

@[simp] theorem fitsIn_string (t : Text) : FitsIn limits outer (string t) := .string t

@[simp] theorem fitsIn_ofString (s : String) : FitsIn limits outer (ofString s) := .string _

@[simp] theorem fitsIn_integer_iff {n : Int} :
    FitsIn limits outer (integer n) ↔ limits.Allows n := by
  constructor
  · intro h
    cases h with
    | integer hallows => exact hallows
  · exact .integer

theorem fitsIn_array_map (hdepth : outer < limits.depth) {α : Type} {toJson : α → Json}
    {items : List α} (h : ∀ item ∈ items, FitsIn limits (outer + 1) (toJson item)) :
    FitsIn limits outer (array (items.map toJson)) :=
  .array hdepth (List.forall_mem_map.mpr h)

theorem fitsIn_ofFields (hdepth : outer < limits.depth) {fields : List (String × Json)}
    (hnames : (fields.map (·.1)).Nodup)
    (h : ∀ field ∈ fields, FitsIn limits (outer + 1) field.2) :
    FitsIn limits outer (ofFields fields) :=
  .object hdepth (nodup_keys_ofFields hnames) (List.forall_mem_map.mpr h)

end Json

open Json (fitsIn_array_map fitsIn_ofFields)

variable {limits : Json.Limits} {outer : Nat}

theorem Diagnostic.fitsIn_toJson (hdepth : outer < limits.depth) {d : Diagnostic}
    (hline : limits.Allows d.line) : d.toJson.FitsIn limits outer := by
  refine fitsIn_ofFields hdepth (by simp) ?_
  simpa using hline

theorem Outcome.fitsIn_toJson (hdepth : outer + 2 < limits.depth) {o : Outcome}
    (hlines : ∀ d ∈ o.diagnostics, limits.Allows d.line) : o.toJson.FitsIn limits outer := by
  have hremarks : (Json.array (o.diagnostics.map Diagnostic.toJson)).FitsIn limits (outer + 1) :=
    fitsIn_array_map (by omega) fun d hd => Diagnostic.fitsIn_toJson hdepth (hlines d hd)
  unfold toJson
  by_cases herror : o.error = ""
  · rw [if_pos herror]
    exact fitsIn_ofFields (by omega) (by simp) (by simpa using hremarks)
  · rw [if_neg herror]
    exact fitsIn_ofFields (by omega) (by simp) (by simpa using hremarks)

/-- The values that are filed about a run. -/
def RunInfo.values (info : RunInfo) : List Json :=
  [info.runId, info.createdAt, info.toolVersion, info.checkOnly, info.config]

namespace Report

/-- The whole numbers in a report, apart from what is filed about the run: the counts, and the lines
of the remarks. -/
def numbers (r : Report) : List Int :=
  (r.outcomes.length : Int) :: FileStatus.all.map (fun s => (r.statusCount s : Int)) ++
    Severity.all.map (fun s => (r.severityCount s : Int)) ++
    r.outcomes.flatMap fun o => o.diagnostics.map (·.line)

/-- The reports that the limits of a reader leave room for. -/
structure FitsIn (limits : Json.Limits) (r : Report) : Prop where
  depth : 5 ≤ limits.depth
  info : ∀ value ∈ r.info.values, value.FitsIn limits 2
  numbers : ∀ n ∈ r.numbers, limits.Allows n

theorem FitsIn.allows_line {r : Report} (h : r.FitsIn limits) :
    ∀ o ∈ r.outcomes, ∀ d ∈ o.diagnostics, limits.Allows d.line := by
  intro o ho d hd
  refine h.numbers _ (List.mem_append_right _ (List.mem_flatMap.mpr ⟨o, ho, ?_⟩))
  exact List.mem_map_of_mem hd

theorem FitsIn.summary {r : Report} (h : r.FitsIn limits) : r.summary.FitsIn limits 1 := by
  have hdepth := h.depth
  have htotal : limits.Allows r.outcomes.length := h.numbers _ (by simp [Report.numbers])
  have hstatus : (Json.ofFields (FileStatus.all.map fun s =>
      (s.label, .integer (r.statusCount s)))).FitsIn limits 2 := by
    refine fitsIn_ofFields (by omega) (by simp [FileStatus.all, FileStatus.label])
      (List.forall_mem_map.mpr fun s hs => .integer (h.numbers _ ?_))
    exact List.mem_append_left _ (List.mem_append_left _
      (List.mem_cons_of_mem _ (List.mem_map_of_mem hs)))
  have hseverity : (Json.ofFields (Severity.all.map fun s =>
      (s.label, .integer (r.severityCount s)))).FitsIn limits 2 := by
    refine fitsIn_ofFields (by omega) (by simp [Severity.all, Severity.label])
      (List.forall_mem_map.mpr fun s hs => .integer (h.numbers _ ?_))
    exact List.mem_append_left _ (List.mem_append_right _ (List.mem_map_of_mem hs))
  exact fitsIn_ofFields (by omega) (by simp) (by simpa using ⟨htotal, hstatus, hseverity⟩)

theorem FitsIn.toJson {r : Report} (h : r.FitsIn limits) : r.toJson.FitsIn limits 0 := by
  have hdepth := h.depth
  have hfiles : (Json.array (r.outcomes.map Outcome.toJson)).FitsIn limits 1 :=
    fitsIn_array_map (by omega) fun o ho => Outcome.fitsIn_toJson (by omega) (h.allows_line o ho)
  have hrun : (Json.ofFields [("run_id", r.info.runId), ("created_at", r.info.createdAt),
      ("tool_version", r.info.toolVersion), ("check_only", r.info.checkOnly),
      ("config", r.info.config)]).FitsIn limits 1 :=
    fitsIn_ofFields (by omega) (by simp) (by simpa [RunInfo.values] using h.info)
  exact fitsIn_ofFields (by omega) (by simp) (by simpa using ⟨hrun, h.summary, hfiles⟩)

/-- There is room for every report without a binary number among what is filed about the run. -/
theorem exists_fitsIn {r : Report} (hinfo : ∀ value ∈ r.info.values, value.IsPlain) :
    ∃ limits, r.FitsIn limits := by
  obtain ⟨size, hsize⟩ := Json.exists_forall_mem
    (fun _ n m hnm h limits hdigits hdepth => h limits (by omega) (by omega))
    fun value hvalue => (hinfo value hvalue).exists_fitsIn 2
  obtain ⟨digits, hdigits⟩ := Json.exists_forall_mem
    (P := fun digits n => (Nat.toDigits 10 (Int.natAbs n)).length ≤ digits)
    (fun _ _ _ hnm h => Nat.le_trans h hnm) fun n (_ : n ∈ r.numbers) => ⟨_, Nat.le_refl _⟩
  -- Room for what is filed about the run, for the numbers, and for the remarks of an outcome.
  refine ⟨⟨max size digits, max size 5⟩, ?_, fun value hvalue => ?_, fun n hn => ?_⟩
  · exact Nat.le_max_right size 5
  · exact hsize value hvalue _ (Nat.le_max_left size digits) (Nat.le_max_left size 5)
  · exact Nat.le_trans (hdigits n hn) (Nat.le_max_right size digits)

/-- A report is read again from its document. -/
theorem FitsIn.readWithin_writeDocument {r : Report} (h : r.FitsIn limits) (indent : Option Int) :
    ∃ value, Json.readWithin limits (r.toJson.writeDocument indent) = .ok value ∧
      value.Same r.toJson :=
  ⟨_, h.toJson.readWithin_writeDocument indent, h.toJson.isPlain.sorted_same⟩

theorem FitsIn.read_writeDocument {r : Report} (h : r.FitsIn {}) (indent : Option Int) :
    ∃ value, Json.read (r.toJson.writeDocument indent) = .ok value ∧ value.Same r.toJson :=
  ⟨_, h.toJson.read_writeDocument indent, h.toJson.isPlain.sorted_same⟩

end Report

/-- What a run files about itself are strings and lists of strings, so there is room for it wherever
there is room for the lists. -/
theorem RunInfo.fitsIn_of (hdepth : 4 ≤ limits.depth) (stamp : Stamp) (c : Config) :
    ∀ value ∈ (RunInfo.of stamp c).values, value.FitsIn limits 2 := by
  have hnames (names : List String) :
      (Json.array (names.map Json.ofString)).FitsIn limits 3 :=
    fitsIn_array_map (by omega) fun name _ => Json.fitsIn_ofString name
  have hsuffix : (suffixJson c.backupSuffix).FitsIn limits 3 := by
    cases c.backupSuffix with
    | none => exact .array (by omega) nofun
    | some suffix => exact Json.fitsIn_ofString suffix
  have hconfig : c.toJson.FitsIn limits 2 :=
    fitsIn_ofFields (by omega) (by simp) (by simp [hsuffix, hnames])
  simp [values, RunInfo.of, hconfig, Json.FitsIn.bool]

theorem RunInfo.isPlain_of (stamp : Stamp) (c : Config) :
    ∀ value ∈ (RunInfo.of stamp c).values, value.IsPlain := by
  intro value hvalue
  have hdepth : 4 ≤ ({} : Json.Limits).depth := by decide
  exact (RunInfo.fitsIn_of hdepth stamp c value hvalue).isPlain

/-! ### One document for one JSON form -/

/-- Exact data have one document, whatever the indent, just if they have the same JSON form, members
compared by key. The document of a report is read as the report within all limits that have room for
the report, such limits there are, and if those of the tool are among them, the tool reads it so. -/
theorem Datum.writeDocument_canonical {x y : Datum} (hx : x.IsExact) (hy : y.IsExact) {r : Report}
    (hr : ∀ value ∈ r.info.values, value.IsPlain) (indent : Option Int) :
    (x.writeDocument indent = y.writeDocument indent ↔ x.toJson.Same y.toJson) ∧
      (∃ limits, r.FitsIn limits) ∧
      (∀ limits, r.FitsIn limits →
        ∃ value, Json.readWithin limits (r.toJson.writeDocument indent) = .ok value ∧
          value.Same r.toJson) ∧
      (r.FitsIn {} →
        ∃ value, Json.read (r.toJson.writeDocument indent) = .ok value ∧ value.Same r.toJson) := by
  refine ⟨?_, Report.exists_fitsIn hr, fun limits hfits => ?_, fun hfits => ?_⟩
  · exact hx.isPlain_toJson.writeDocument_eq_iff hy.isPlain_toJson indent
  · exact hfits.readWithin_writeDocument indent
  · exact hfits.read_writeDocument indent

/-- The report of a run on one file, with one remark. -/
def remarkedReport : Report :=
  { info := RunInfo.of ⟨"ci-0", Stamp.fixedTime⟩ {}
    outcomes :=
      [{ path := "A.java", status := .updated
         diagnostics := [⟨.warning, Text.ofString "javadoc comment found", "A.java", 1⟩] }] }

theorem Datum.writeDocument_canonical_swapped :
    (map [(ofString "a", integer 1), (ofString "b", bool true)]).writeDocument (some 2) =
        (map [(ofString "b", bool true), (ofString "a", integer 1)]).writeDocument (some 2) ∧
      ∃ value, Json.read (remarkedReport.toJson.writeDocument (some 2)) = .ok value ∧
        value.Same remarkedReport.toJson := by
  have hx : (map [(ofString "a", integer 1), (ofString "b", bool true)]).IsExact :=
    .map (by simp [IsExact.integer, IsExact.bool])
  have hy : (map [(ofString "b", bool true), (ofString "a", integer 1)]).IsExact :=
    .map (by simp [IsExact.integer, IsExact.bool])
  have hr : ∀ value ∈ remarkedReport.info.values, value.IsPlain := RunInfo.isPlain_of _ _
  have hfits : remarkedReport.FitsIn {} :=
    ⟨by decide, RunInfo.fitsIn_of (by decide) _ _, by decide⟩
  obtain ⟨hiff, -, -, hread⟩ := writeDocument_canonical hx hy hr (some 2)
  refine ⟨hiff.mpr ?_, hread hfits⟩
  -- The two keys are not one, so either order makes an object with both members.
  have hab : sameIdentity (identity? (ofString "a")) (identity? (ofString "b")) = false := by
    decide +kernel
  have hba : sameIdentity (identity? (ofString "b")) (identity? (ofString "a")) = false := by
    decide +kernel
  have hxJson : (map [(ofString "a", integer 1), (ofString "b", bool true)]).toJson =
      .object [(Text.ofString "a", .integer 1), (Text.ofString "b", .bool true)] := by
    simp only [toJson, entriesToJson, membersOf, List.foldl, insertEntry, hab]
    rfl
  have hyJson : (map [(ofString "b", bool true), (ofString "a", integer 1)]).toJson =
      .object [(Text.ofString "b", .bool true), (Text.ofString "a", .integer 1)] := by
    simp only [toJson, entriesToJson, membersOf, List.foldl, insertEntry, hba]
    rfl
  have hplain := hx.isPlain_toJson
  rw [hxJson] at hplain ⊢
  rw [hyJson]
  exact hplain.same_of_perm (.swap _ _ [])

end Letterhead
