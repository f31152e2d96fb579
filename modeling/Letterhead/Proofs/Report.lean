import Mathlib.Data.List.Perm.Basic
import Mathlib.Logic.Function.Basic
import Letterhead.Proofs.Contract
import Letterhead.Proofs.Scan.Trail

/-!
# The counts of a report

A report counts its outcomes by their results and its remarks by their severity. All counts can be
made in one pass, which adds one for each outcome and one for each of its remarks; what they come to
is the lengths of the parts that the outcomes fall into. As no remark of a scan is about a line before
the first one, a report of such outcomes also meets the contract.

## Main definitions

* `Tally`, `Report.tally` — the counts, and the pass over the outcomes
* `Diagnostic.IsScanned` — the remarks that scans make
* `Report.Balanced` — the counts in a report are those of its outcomes

## Main results

* `Report.tally_eq` — what the pass comes to
* `Report.meets_contract_balanced` — reports of scans are accepted, and their counts are right
-/

namespace Letterhead

/-! ### Remarks of scans -/

/-- A remark that some scan makes. -/
def Diagnostic.IsScanned (d : Diagnostic) : Prop :=
  ∃ (sc : Scanner) (source : String) (lines : List Text) (r : Revision),
    sc.scan source lines = .ok r ∧ d ∈ r.diagnostics

theorem Diagnostic.IsScanned.nonneg_line {d : Diagnostic} (h : d.IsScanned) : 0 ≤ d.line := by
  obtain ⟨sc, source, lines, r, hr, hd⟩ := h
  exact Scanner.nonneg_line_of_scan hr hd

/-! ### Counting in one pass -/

/-- How often each result and each severity came up. -/
structure Tally where
  status : FileStatus → Nat
  severity : Severity → Nat

namespace Tally

/-- Nothing has been counted. -/
def zero : Tally := ⟨fun _ => 0, fun _ => 0⟩

/-- One more remark. -/
def addRemark (t : Tally) (d : Diagnostic) : Tally :=
  { t with severity := Function.update t.severity d.severity (t.severity d.severity + 1) }

/-- One more outcome, with its remarks. -/
def addOutcome (t : Tally) (o : Outcome) : Tally :=
  o.diagnostics.foldl addRemark
    { t with status := Function.update t.status o.status (t.status o.status + 1) }

theorem foldl_addRemark (t : Tally) (ds : List Diagnostic) :
    ds.foldl addRemark t =
      { t with severity := fun v => t.severity v + ds.countP (·.severity = v) } := by
  induction ds generalizing t with
  | nil => rfl
  | cons d ds ih =>
    rw [List.foldl_cons, ih, addRemark]
    congr 1
    funext v
    by_cases hv : d.severity = v
    · subst hv
      simp [Nat.add_assoc, Nat.add_comm 1]
    · simp [hv, Function.update_of_ne (Ne.symm hv)]

theorem foldl_addOutcome (t : Tally) (os : List Outcome) :
    os.foldl addOutcome t =
      { status := fun s => t.status s + os.countP (·.status = s)
        severity := fun v =>
          t.severity v + (os.flatMap (·.diagnostics)).countP (·.severity = v) } := by
  induction os generalizing t with
  | nil => rfl
  | cons o os ih =>
    rw [List.foldl_cons, ih, addOutcome, foldl_addRemark]
    congr 1
    · funext s
      by_cases hs : o.status = s
      · subst hs
        simp [Nat.add_assoc, Nat.add_comm 1]
      · simp [hs, Function.update_of_ne (Ne.symm hs)]
    · funext v
      simp [Nat.add_assoc]

end Tally

namespace Report

/-- The counts of a report, made in one pass over its outcomes. -/
def tally (r : Report) : Tally := r.outcomes.foldl Tally.addOutcome .zero

theorem tally_eq (r : Report) : r.tally = ⟨r.statusCount, r.severityCount⟩ := by
  rw [tally, Tally.foldl_addOutcome]
  congr 1
  · funext s
    rw [Tally.zero, Nat.zero_add, statusCount, withStatus, List.countP_eq_length_filter]
  · funext v
    rw [Tally.zero, Nat.zero_add, severityCount]

end Report

/-! ### The parts of a list -/

/-- The members with each of some values are together all members that have one of the values. -/
theorem perm_flatMap_filter {α β : Type} [DecidableEq β] (f : α → β) {values : List β}
    (hnodup : values.Nodup) {l : List α} (h : ∀ a ∈ l, f a ∈ values) :
    (values.flatMap fun b => l.filter (f · = b)).Perm l := by
  induction values generalizing l with
  | nil =>
    rw [List.eq_nil_iff_forall_not_mem.mpr fun a ha => List.not_mem_nil (h a ha)]
    rfl
  | cons b rest ih =>
    obtain ⟨hb, hrest⟩ := List.nodup_cons.mp hnodup
    -- Those with another value are found among those without the first one.
    have hother : (rest.flatMap fun b' => l.filter (f · = b')) =
        rest.flatMap fun b' => (l.filter fun a => !decide (f a = b)).filter (f · = b') := by
      refine List.flatMap_congr fun b' hb' => ?_
      rw [List.filter_filter]
      refine List.filter_congr fun a _ => ?_
      by_cases hab : f a = b'
      · have hne : f a ≠ b := fun heq => hb (by rwa [← heq, hab])
        simp [hab, hab ▸ hne]
      · simp [hab]
    rw [List.flatMap_cons, hother]
    refine ((ih hrest ?_).append_left _).trans (List.filter_append_perm _ l)
    intro a ha
    obtain ⟨ha, hne⟩ := List.mem_filter.mp ha
    exact (List.mem_cons.mp (h a ha)).resolve_left (by simpa using hne)

theorem FileStatus.mem_all (s : FileStatus) : s ∈ all := by cases s <;> decide

theorem FileStatus.nodup_all : all.Nodup := by decide

theorem Severity.mem_all (v : Severity) : v ∈ all := by cases v <;> decide

theorem Severity.nodup_all : all.Nodup := by decide

/-! ### Reports -/

namespace Report

/-- All remarks in a report, in order. -/
def remarks (r : Report) : List Diagnostic := r.outcomes.flatMap (·.diagnostics)

/-- The counts in a report are those of its outcomes and their remarks. -/
structure Balanced (r : Report) : Prop where
  /-- The summary holds the number of outcomes, and all counts of the pass over them. -/
  summary : r.toJson.member? "summary" = some (Json.ofFields
    [("files_total", .integer r.outcomes.length),
      ("by_status",
        Json.ofFields (FileStatus.all.map fun s => (s.label, .integer (r.tally.status s)))),
      ("by_severity",
        Json.ofFields (Severity.all.map fun v => (v.label, .integer (r.tally.severity v))))])
  /-- There are so many files in the report. -/
  files : ∃ files, r.toJson.member? "files" = some (.array files) ∧
    files.length = r.outcomes.length
  /-- The count of a result is the number of outcomes with it. -/
  status : ∀ s, r.tally.status s = (r.withStatus s).length
  /-- The outcomes with a result keep their order. -/
  in_order : ∀ s, (r.withStatus s).Sublist r.outcomes ∧ ∀ o ∈ r.withStatus s, o.status = s
  /-- Every outcome is among those with one result, as often as it is in the report. -/
  parts : (FileStatus.all.flatMap r.withStatus).Perm r.outcomes
  status_sum : r.tally.status .updated + r.tally.status .unchanged + r.tally.status .skipped +
    r.tally.status .failed = r.outcomes.length
  /-- The count of a severity is the number of remarks of it. -/
  severity : ∀ v, r.tally.severity v = (r.remarks.filter (·.severity = v)).length
  severity_sum : r.tally.severity .info + r.tally.severity .warning = r.remarks.length

theorem tally_status (r : Report) : r.tally.status = fun s => (r.withStatus s).length := by
  rw [tally_eq]
  rfl

theorem tally_severity (r : Report) :
    r.tally.severity = fun v => (r.remarks.filter (·.severity = v)).length := by
  funext v
  rw [tally_eq, ← List.countP_eq_length_filter]
  rfl

theorem perm_withStatus (r : Report) : (FileStatus.all.flatMap r.withStatus).Perm r.outcomes :=
  perm_flatMap_filter Outcome.status FileStatus.nodup_all fun o _ => o.status.mem_all

theorem perm_severity (r : Report) :
    (Severity.all.flatMap fun v => r.remarks.filter (·.severity = v)).Perm r.remarks :=
  perm_flatMap_filter Diagnostic.severity Severity.nodup_all fun d _ => d.severity.mem_all

theorem balanced (r : Report) : r.Balanced where
  summary := by rw [tally_eq]; rfl
  files := ⟨_, rfl, List.length_map _⟩
  status s := by rw [tally_status]
  in_order s := ⟨List.filter_sublist, fun o ho => by simpa using (List.mem_filter.mp ho).2⟩
  parts := r.perm_withStatus
  status_sum := by
    rw [tally_status, ← r.perm_withStatus.length_eq]
    simp [FileStatus.all, Nat.add_assoc]
  severity v := by rw [tally_severity]
  severity_sum := by
    rw [tally_severity, ← r.perm_severity.length_eq]
    simp [Severity.all]

/-- A report of outcomes with remarks of scans meets the contract, whatever the settings and whatever
became of the files, and the counts in it are right. -/
theorem meets_contract_balanced {r : Report} {stamp : Stamp} {c : Config}
    (hinfo : r.info = RunInfo.of stamp c) (hid : stamp.runId ≠ "") (htime : stamp.createdAt ≠ "")
    (hscanned : ∀ o ∈ r.outcomes, ∀ d ∈ o.diagnostics, d.IsScanned) :
    Contract.check r.toJson = .ok () ∧ r.Balanced :=
  ⟨Contract.check_toJson hinfo hid htime fun o ho d hd => (hscanned o ho d hd).nonneg_line,
    r.balanced⟩

/-- A report on a file that gets its first header and on one that cannot be updated. -/
def mixedReport : Report :=
  { info := RunInfo.of ⟨"ci-0", Stamp.fixedTime⟩ {}
    outcomes :=
      [{ path := "A.java", status := .updated
         diagnostics := (revise [] "A.java" [Text.ofString "package a;"]).diagnostics },
        { path := "B.java", status := .failed, error := "backup already exists: B.java.bak" }] }

theorem meets_contract_balanced_mixed :
    ("ci-0" ≠ "" ∧ Stamp.fixedTime ≠ "" ∧
      ∀ o ∈ mixedReport.outcomes, ∀ d ∈ o.diagnostics, d.IsScanned) ∧
    Contract.check mixedReport.toJson = .ok () ∧ mixedReport.Balanced := by
  have hscanned : ∀ o ∈ mixedReport.outcomes, ∀ d ∈ o.diagnostics, d.IsScanned := by
    simp only [mixedReport, List.forall_mem_cons]
    refine ⟨fun d hd => ⟨_, _, _, _, scan_standard [] "A.java" _, hd⟩, ?_, by simp⟩
    exact fun d hd => absurd hd List.not_mem_nil
  have hid : "ci-0" ≠ "" := by decide
  have htime : Stamp.fixedTime ≠ "" := by decide
  exact ⟨⟨hid, htime, hscanned⟩, meets_contract_balanced rfl hid htime hscanned⟩

end Report

end Letterhead
