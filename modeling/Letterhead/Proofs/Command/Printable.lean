import Letterhead.Command
import Letterhead.Proofs.Batch.Rehearsal
import Letterhead.Proofs.Batch.Visits
import Letterhead.Proofs.Command.Gate
import Letterhead.Proofs.Json.Proper
import Letterhead.Proofs.Scan.Quotation

/-!
# Reports that cannot be put out

A command that shows its report as JSON puts out the whole document or nothing, and nothing it is if
the document holds a stray byte. Such a byte can only come from a line that a remark quotes, so it is
the files that decide: the document is lost if a file that the run comes to, and does not fail at, has
a stray byte in a line that is quoted. By then a command that writes has written.

## Main definitions

* `ComesTo` — the files as a run finds them when it comes to a target
* `QuotesStray` — a file with a stray byte in a quoted line
* `Report.document` — the text that is put out

## Main results

* `mem_outcomes_iff` — the outcomes of a run are those of its visits
* `diagnostics_of_visit` — the remarks of a visit are those on the file as it is found
* `json_document_proper_iff` — when the document can be put out, and what becomes of it
-/

namespace Letterhead

open FileSystem (SameShape)

variable {u : Updater} {fs fs' before after : FileSystem} {t : Target} {ts : List Target}
  {o : Outcome} {outcomes : List Outcome}

/-! ### The visits of a run -/

/-- A run through some targets, begun with given files, comes to a target when the files are
`before`. -/
inductive ComesTo (u : Updater) : FileSystem → List Target → Target → FileSystem → Prop
  | first {fs : FileSystem} {t : Target} {ts : List Target} : ComesTo u fs (t :: ts) t fs
  | later {fs fs₁ before : FileSystem} {t t' : Target} {ts : List Target} {o : Outcome}
      (hvisit : Yields (processTarget u t) fs (.ok o) fs₁) (hrest : ComesTo u fs₁ ts t' before) :
      ComesTo u fs (t :: ts) t' before

theorem ComesTo.homeReached (h : ComesTo u fs ts t before) (hhome : fs.HomeReached) :
    before.HomeReached := by
  induction h with
  | first => exact hhome
  | later hvisit _ ih =>
    obtain ⟨r, fs₂, hvisit', hconfined⟩ := exists_confined u hhome _
    obtain ⟨-, rfl⟩ := hvisit.unique hvisit'
    exact ih (hconfined.sameShape.homeReached hhome)

/-- The outcomes of a run are those of its visits, each made with the files as it finds them. -/
theorem mem_outcomes_iff (hhome : fs.HomeReached)
    (h : Yields (ts.mapM (processTarget u)) fs (.ok outcomes) fs') :
    o ∈ outcomes ↔ ∃ t before after, ComesTo u fs ts t before ∧
      Yields (processTarget u t) before (.ok o) after := by
  induction ts generalizing fs outcomes with
  | nil =>
    obtain ⟨hnil, -⟩ := h.unique (Yields.pure (a := []))
    rw [Except.ok.inj hnil]
    refine ⟨nofun, ?_⟩
    rintro ⟨t, before, after, hcomes, -⟩
    cases hcomes
  | cons t ts ih =>
    -- A run that has come to an end has been through its first visit and through all others.
    obtain ⟨r, fs₁, hvisit, hconfined⟩ := exists_confined u hhome t
    cases r with
    | error fault => cases (h.unique (yields_mapM_cons_error hvisit ts)).1
    | ok first =>
      have hhome₁ := hconfined.sameShape.homeReached hhome
      obtain ⟨r, fs₂, hrest, -⟩ := exists_confined_run u ts fs₁ hhome₁
      cases r with
      | error fault => cases (h.unique (yields_mapM_cons hvisit hrest)).1
      | ok more =>
        obtain ⟨houtcomes, rfl⟩ := h.unique (yields_mapM_cons hvisit hrest)
        rw [Except.ok.inj houtcomes, List.mem_cons, ih hhome₁ hrest]
        constructor
        · rintro (rfl | ⟨t', before, after, hcomes, hlater⟩)
          · exact ⟨t, fs, fs₁, .first, hvisit⟩
          · exact ⟨t', before, after, .later hvisit hcomes, hlater⟩
        · rintro ⟨t', before, after, hcomes, hlater⟩
          -- A visit that finds the same files comes to the same, and leaves the same files.
          cases hcomes with
          | first => exact Or.inl (Except.ok.inj (hlater.unique hvisit).1)
          | later hvisit' hcomes' =>
            obtain ⟨-, rfl⟩ := hvisit'.unique hvisit
            exact Or.inr ⟨t', before, after, hcomes', hlater⟩

/-- A file that is processed, to report only or to write, fails or comes to the verdict on it. -/
theorem exists_yields_processFile (u : Updater) (hhome : fs.HomeReached) (path : Path) :
    (∃ fault fs', Yields (processFile u path) fs (.error fault) fs') ∨
      ∃ o fs', Yields (processFile u path) fs (.ok o) fs' ∧ u.verdict fs path = .ok o := by
  rw [processFile]
  split
  · have hcheck := u.yields_check path fs
    cases hverdict : u.verdict fs path with
    | error fault =>
      rw [hverdict] at hcheck
      exact Or.inl ⟨fault, fs, hcheck⟩
    | ok o =>
      rw [hverdict] at hcheck
      exact Or.inr ⟨o, fs, hcheck, rfl⟩
  · rcases u.update_verdict hhome path with ⟨fault, h⟩ | ⟨o, fs', h, hverdict, -⟩
    · exact Or.inl ⟨fault, fs, h⟩
    · exact Or.inr ⟨o, fs', h, hverdict⟩

/-- The remarks of a visit are those on the text of the file as it is found. There are none if the
file is skipped or fails. -/
theorem diagnostics_of_visit (hhome : before.HomeReached)
    (h : Yields (processTarget u t) before (.ok o) after) :
    ((o.status = .skipped ∨ o.status = .failed) ∧ o.diagnostics = []) ∨
      ((o.status = .updated ∨ o.status = .unchanged) ∧ ∃ content text,
        Updater.contentAt before t.path = .ok content ∧ u.textOf content = .ok text ∧
          o.diagnostics = (u.revisionOf t.path text).diagnostics) := by
  cases hreadable : t.readable with
  | false =>
    obtain ⟨ho, -⟩ := h.unique (yields_processTarget_unreadable u hreadable before)
    rw [Except.ok.inj ho]
    exact Or.inl ⟨Or.inl rfl, rfl⟩
  | true =>
    rcases exists_yields_processFile u hhome t.path with
      ⟨fault, fs', hfile⟩ | ⟨o', fs', hfile, hverdict⟩
    · obtain ⟨ho, -⟩ := h.unique (yields_processTarget hreadable hfile)
      rw [settle, failure] at ho
      split at ho
      · rw [Except.ok.inj ho]
        exact Or.inl ⟨Or.inr rfl, rfl⟩
      · cases ho
    · obtain ⟨ho, -⟩ := h.unique (yields_processTarget hreadable hfile)
      rw [Except.ok.inj ho]
      obtain ⟨i, rendered, hinspection, rfl⟩ := Updater.exists_report_of_verdict hverdict
      obtain ⟨content, text, hcontent, htext, rfl⟩ := Updater.exists_text_of_inspection hinspection
      refine Or.inr ⟨?_, content, text, hcontent, htext, rfl⟩
      rw [Updater.report]
      split <;> simp

theorem nonneg_line_of_mem_outcomes (hhome : fs.HomeReached)
    (h : Yields (ts.mapM (processTarget u)) fs (.ok outcomes) fs') :
    ∀ o ∈ outcomes, ∀ d ∈ o.diagnostics, 0 ≤ d.line := by
  intro o ho d hd
  obtain ⟨t, before, after, hcomes, hvisit⟩ := (mem_outcomes_iff hhome h).mp ho
  rcases diagnostics_of_visit (hcomes.homeReached hhome) hvisit with
    ⟨-, hnone⟩ | ⟨-, content, text, -, -, hdiagnostics⟩
  · rw [hnone] at hd
    cases hd
  · rw [hdiagnostics] at hd
    exact nonneg_line_of_mem_diagnostics hd

/-! ### Stray bytes in a report -/

/-- The content of a file in UTF-8 has a stray byte in a line that the remarks on the file quote. -/
def QuotesStray (content : List UInt8) : Prop :=
  ∃ line ∈ quotedLines (Charset.utf8.decode content).unifyLineEnds.lines, line.isProper = false

/-- A target is visited when the files are `before`, the visit does not fail, and the file has a stray
byte in a line that is quoted. -/
def QuotedInVisit (u : Updater) (t : Target) (before : FileSystem) : Prop :=
  ∃ o after content, Yields (processTarget u t) before (.ok o) after ∧
    (o.status = .updated ∨ o.status = .unchanged) ∧
      Updater.contentAt before t.path = .ok content ∧ QuotesStray content

theorem quotesStray_iff (notice : List Text) (source : String) (content : List UInt8) :
    QuotesStray content ↔
      (revise notice source (Charset.utf8.decode content).unifyLineEnds.lines).diagnostics.all
        (·.message.isProper) = false := by
  rw [all_isProper_diagnostics, List.all_eq_false, QuotesStray]
  simp

/-- The remarks of a visit hold a stray byte if the file has one in a line that is quoted. -/
theorem improper_visit_iff (hcharset : u.config.charsetName = "utf-8") (hhome : before.HomeReached)
    (h : Yields (processTarget u t) before (.ok o) after) :
    o.diagnostics.all (·.message.isProper) = false ↔ QuotedInVisit u t before := by
  have htext : ∀ content, u.textOf content = .ok (Charset.utf8.decode content) :=
    Updater.textOf_of_named (by rw [hcharset]; decide +kernel) (by rw [hcharset]; decide)
  rcases diagnostics_of_visit hhome h with
    ⟨hstatus, hnone⟩ | ⟨hstatus, content, text, hcontent, hdecoded, hdiagnostics⟩
  · -- Without remarks there are no stray bytes in them, and the file was not reported on either.
    rw [hnone]
    refine ⟨nofun, ?_⟩
    rintro ⟨o', after', content, h', hstatus', -⟩
    obtain ⟨ho, -⟩ := h.unique h'
    rw [Except.ok.inj ho] at hstatus
    rcases hstatus with hs | hs <;> rcases hstatus' with hs' | hs' <;> cases hs.symm.trans hs'
  · obtain rfl := Except.ok.inj ((htext content).symm.trans hdecoded)
    rw [hdiagnostics, Updater.revisionOf, ← quotesStray_iff]
    constructor
    · exact fun hstray => ⟨o, after, content, h, hstatus, hcontent, hstray⟩
    · rintro ⟨-, -, content', -, -, hcontent', hstray⟩
      rwa [Except.ok.inj (hcontent.symm.trans hcontent')]

/-- The outcomes of a run are free of stray bytes just if the visits are. -/
theorem proper_outcomes_iff (hcharset : u.config.charsetName = "utf-8") (hhome : fs.HomeReached)
    (h : Yields (ts.mapM (processTarget u)) fs (.ok outcomes) fs') :
    (outcomes.all fun o => o.diagnostics.all (·.message.isProper)) = true ↔
      ∀ t before, ComesTo u fs ts t before → ¬ QuotedInVisit u t before := by
  rw [List.all_eq_true]
  constructor
  · intro hproper t before hcomes hquoted
    obtain ⟨o, after, -, hvisit, -⟩ := id hquoted
    have ho := hproper o ((mem_outcomes_iff hhome h).mpr ⟨t, before, after, hcomes, hvisit⟩)
    rw [(improper_visit_iff hcharset (hcomes.homeReached hhome) hvisit).mpr hquoted] at ho
    cases ho
  · intro hquoted o ho
    obtain ⟨t, before, after, hcomes, hvisit⟩ := (mem_outcomes_iff hhome h).mp ho
    rw [← Bool.not_eq_false, improper_visit_iff hcharset (hcomes.homeReached hhome) hvisit]
    exact hquoted t before hcomes

/-! ### The command -/

/-- The text of a report that is put out. -/
def Report.document (r : Report) : Text := r.toJson.writeDocument (some 2)

theorem Report.isProper_document {r : Report} {stamp : Stamp} {c : Config}
    (hinfo : r.info = RunInfo.of stamp c) :
    r.document.isProper = r.outcomes.all fun o => o.diagnostics.all (·.message.isProper) := by
  rw [document, Json.isProper_writeDocument, isProper_toJson hinfo]

/-- The document of a report is put out as a whole, or nothing of it if it holds a stray byte. -/
structure Report.WholeOrNothing (r : Report) (o : Options) (transcript : Transcript) : Prop where
  whole : r.document.isProper = true →
    transcript.ending = .finished (r.exitCode o.check) ∧
      Text.ofString transcript.output = r.document
  nothing : r.document.isProper = false →
    (∃ error, transcript.ending = .unprintable error) ∧ transcript.output = ""

theorem Report.wholeOrNothing (r : Report) {o : Options} (hjson : o.json = true)
    (messages : String) : r.WholeOrNothing o (r.transcript o messages) where
  whole hproper := by
    obtain ⟨bytes, hbytes⟩ := Charset.exists_encodeStrict_utf8_iff.mpr hproper
    rw [← Text.isSome_toString?, Option.isSome_iff_exists] at hproper
    obtain ⟨s, hs⟩ := hproper
    rw [document] at hbytes hs
    simp only [transcript, hjson, if_true, hbytes, hs, Option.getD_some, true_and]
    exact Text.ofString_of_toString? hs
  nothing hproper := by
    cases hencode : Charset.utf8.encodeStrict r.document with
    | ok bytes =>
      rw [Charset.exists_encodeStrict_utf8_iff.mp ⟨bytes, hencode⟩] at hproper
      cases hproper
    | error error =>
      rw [document] at hencode
      simp only [transcript, hjson, if_true, hencode, and_true]
      exact ⟨error, rfl⟩

theorem Options.charsetName_config {o : Options} {environment : Option String} {c : Config}
    (h : o.config environment = .ok c) : c.charsetName = "utf-8" := by
  rw [config] at h
  cases hsuffixes : o.suffixes.mapM suffixWord with
  | error fault => rw [hsuffixes] at h; cases h
  | ok suffixes =>
    rw [hsuffixes] at h
    obtain rfl := Except.ok.inj h
    split <;> rfl

/-- A command line whose batch comes to an end shows the report of the batch. -/
theorem Command.run_of_batch {o : Options} {environment : Option String} {c : Config}
    {fresh : Stamp} {words : List String} {notice : Notice} {files : FileSystem}
    (hwords : Options.parse words = .ok o) (hconfig : o.config environment = .ok c)
    (hnotice : Yields (loadNotice c.noticeFile c.charsetName) files (.ok notice) files)
    (hbatch : Yields (runBatch ⟨notice, c⟩ (o.paths.map Path.parse)) files (.ok outcomes) fs')
    (hid : fresh.runId ≠ "") (htime : fresh.createdAt ≠ "")
    (hlines : ∀ o ∈ outcomes, ∀ d ∈ o.diagnostics, 0 ≤ d.line) :
    ∃ messages, Command.run environment fresh words files =
      (Report.transcript
        ⟨RunInfo.of ((o.requestWith c).stamp notice fresh) c, outcomes⟩ o messages, fs') := by
  rw [Command.run, hwords]
  simp only [Command.obey, Options.request, hconfig]
  exact Command.carryOut_of_batch hnotice hbatch hid htime hlines

/-- A command that is to show its report as JSON puts out the whole document, or nothing if the
document holds a stray byte. The document holds one just if the run comes to a file that it does not
fail at, and that has a stray byte in a line that is quoted. Either way the files stay as the batch has
left them. -/
theorem json_document_proper_iff {environment : Option String} {fresh : Stamp}
    {words : List String} {o : Options} {c : Config} {notice : Notice} {files fs' : FileSystem}
    {outcomes : List Outcome} (hwords : Options.parse words = .ok o)
    (hjson : o.json = true) (hconfig : o.config environment = .ok c)
    (hid : fresh.runId ≠ "") (htime : fresh.createdAt ≠ "") (hhome : files.HomeReached)
    (hnotice : Yields (loadNotice c.noticeFile c.charsetName) files (.ok notice) files)
    (hbatch : Yields (runBatch ⟨notice, c⟩ (o.paths.map Path.parse)) files (.ok outcomes) fs') :
    ∃ (ts : List Target) (report : Report) (transcript : Transcript),
      Yields (targets c (o.paths.map Path.parse)) files (.ok ts) files ∧
      report = ⟨RunInfo.of ((o.requestWith c).stamp notice fresh) c, outcomes⟩ ∧
      Command.run environment fresh words files = (transcript, fs') ∧
      report.WholeOrNothing o transcript ∧
      (report.document.isProper = true ↔
        ∀ t before, ComesTo ⟨notice, c⟩ files ts t before → ¬ QuotedInVisit ⟨notice, c⟩ t before) := by
  have hcharset := Options.charsetName_config hconfig
  -- The batch visits the targets that the search finds in the first tree.
  obtain ⟨r, fs₁, -, hplanned, hvisited⟩ :=
    yields_discover c (keepsShape_visits ⟨notice, c⟩ hhome) (o.paths.map Path.parse)
  obtain ⟨hended, rfl⟩ := hbatch.unique hvisited
  obtain ⟨hsearch, rfl⟩ := endWith_eq_ok_iff.mp hended.symm
  obtain ⟨messages, hrun⟩ := Command.run_of_batch hwords hconfig hnotice hbatch hid htime
    (nonneg_line_of_mem_outcomes hhome hplanned)
  have hproper := proper_outcomes_iff (u := ⟨notice, c⟩) hcharset hhome hplanned
  rw [← Report.isProper_document (r := ⟨RunInfo.of _ c, outcomes⟩) rfl] at hproper
  exact ⟨_, _, _, yields_targets_of_end hsearch, rfl, hrun, Report.wholeOrNothing _ hjson messages, hproper⟩

/-- A file that begins with an empty line and a line that is one stray byte, and the file with the
notice. -/
def strayFiles : FileSystem :=
  gateFiles.put ["work", "A.java"] (.file 0o644 [0x0A, 0xFF, 0x0A])

theorem homeReached_strayFiles : strayFiles.HomeReached :=
  homeReached_gateFiles.put (by decide +kernel) _

/-- A command line that asks for a report as JSON. -/
def strayWords : List String := ["--json", "--ci", "A.java"]

/-- The options of that command line: one file to update, with the report as JSON, in a reproducible
run. -/
def strayOptions : Options := { paths := ["A.java"], json := true, reproducible := true }

/-- The one outcome of the run: the file is updated, and a warning quotes its second line, which is the
stray byte. -/
def strayOutcomes : List Outcome :=
  [{ path := "A.java"
     status := .updated
     diagnostics :=
      [⟨.warning, Text.ofString "unexpected line: " ++ [.stray 0xFF], "A.java", 2⟩] }]

theorem strayFiles_notice :
    Yields (loadNotice ⟨.relative, ["COPYRIGHT"]⟩ "utf-8") strayFiles
      (.ok Updater.sampleUpdater.notice) strayFiles := by
  obtain ⟨r, h⟩ := looks_loadNotice ⟨.relative, ["COPYRIGHT"]⟩ "utf-8" strayFiles
  exact h.of_exec (by decide +kernel)

/-- The empty line is left out of the file, and the stray byte is kept. -/
theorem strayFiles_batch : ∃ fs', fs'.node? ["work", "A.java"] = some (.file 0o644 [0xFF, 0x0A]) ∧
    Yields (runBatch Updater.sampleUpdater [⟨.relative, ["A.java"]⟩]) strayFiles
      (.ok strayOutcomes) fs' := by
  obtain ⟨r, fs', -, h⟩ := exists_runBatch_writing Updater.sampleUpdater homeReached_strayFiles
    [⟨.relative, ["A.java"]⟩]
  obtain ⟨s', hexec, rfl⟩ := Yields.exec_eq (s := ⟨strayFiles, []⟩) h
  refine ⟨s'.files, ?_, h.of_exec (by decide +kernel)⟩
  have hfile : (exec (runBatch (Updater.sampleUpdater.inMode false) [⟨.relative, ["A.java"]⟩])
      ⟨strayFiles, []⟩).2.files.node? ["work", "A.java"] = some (.file 0o644 [0xFF, 0x0A]) := by
    decide +kernel
  rwa [hexec] at hfile

theorem json_document_proper_iff_stray : ∃ fs',
    Options.parse strayWords = .ok strayOptions ∧ strayOptions.json = true ∧
    strayOptions.config none = .ok {} ∧ ("r" : String) ≠ "" ∧ ("t" : String) ≠ "" ∧
    strayFiles.HomeReached ∧
    Yields (loadNotice ⟨.relative, ["COPYRIGHT"]⟩ "utf-8") strayFiles
      (.ok Updater.sampleUpdater.notice) strayFiles ∧
    Yields (runBatch Updater.sampleUpdater [⟨.relative, ["A.java"]⟩]) strayFiles
      (.ok strayOutcomes) fs' ∧
    ∃ (ts : List Target) (report : Report) (transcript : Transcript),
      Yields (targets {} [⟨.relative, ["A.java"]⟩]) strayFiles (.ok ts) strayFiles ∧
      report = ⟨RunInfo.of (.reproducible [⟨.relative, ["A.java"]⟩] Updater.sampleUpdater.notice) {},
        strayOutcomes⟩ ∧
      Command.run none ⟨"r", "t"⟩ strayWords strayFiles = (transcript, fs') ∧
      report.WholeOrNothing strayOptions transcript ∧
      (report.document.isProper = true ↔ ∀ t before,
        ComesTo Updater.sampleUpdater strayFiles ts t before →
          ¬ QuotedInVisit Updater.sampleUpdater t before) := by
  obtain ⟨fs', -, hbatch⟩ := strayFiles_batch
  exact ⟨fs', rfl, rfl, rfl, by decide, by decide, homeReached_strayFiles, strayFiles_notice, hbatch,
    json_document_proper_iff (o := strayOptions) rfl rfl rfl (by decide) (by decide)
      homeReached_strayFiles strayFiles_notice hbatch⟩

/-- The file is rewritten, and nothing of the report is put out. -/
theorem json_document_lost :
    (∃ error, (Command.run none ⟨"r", "t"⟩ strayWords strayFiles).1.ending = .unprintable error) ∧
    (Command.run none ⟨"r", "t"⟩ strayWords strayFiles).1.output = "" ∧
    (Command.run none ⟨"r", "t"⟩ strayWords strayFiles).2.node? ["work", "A.java"] =
      some (.file 0o644 [0xFF, 0x0A]) := by
  obtain ⟨fs', hfile, hbatch⟩ := strayFiles_batch
  obtain ⟨messages, hrun⟩ : ∃ messages,
      Command.run none ⟨"r", "t"⟩ strayWords strayFiles =
        (Report.transcript ⟨RunInfo.of ((strayOptions.requestWith {}).stamp
          Updater.sampleUpdater.notice ⟨"r", "t"⟩) {}, strayOutcomes⟩ strayOptions messages, fs') :=
    Command.run_of_batch rfl rfl strayFiles_notice hbatch (by decide) (by decide) (by decide)
  have himproper (stamp : Stamp) :
      (⟨RunInfo.of stamp {}, strayOutcomes⟩ : Report).document.isProper = false := by
    rw [Report.isProper_document rfl]
    rfl
  obtain ⟨hending, houtput⟩ :=
    (Report.wholeOrNothing _ (o := strayOptions) rfl messages).nothing (himproper _)
  rw [hrun]
  exact ⟨hending, houtput, hfile⟩

end Letterhead
