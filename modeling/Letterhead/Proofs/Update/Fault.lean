import Letterhead.Proofs.Encoding.Lines
import Letterhead.Proofs.FileSystem.Tree
import Letterhead.Proofs.Scan.Trail
import Letterhead.Proofs.Update.Check

/-!
# The faults of an update

A batch goes on after a fault that concerns one file. Of the faults that do not, a file that can be
read gives none, as long as the settings are in order: the notice can be written in the charset of the
files, and what is added to the name of a backup can be part of a name. Then all that can go wrong is
that the file system refuses something, or that something is in the way of the backup.

## Main definitions

* `Contained` — a computation that stops only on faults that concern one file
* `Updater.Spells` — the charset of the files has bytes for the notice
* `Updater.InOrder` — settings under which files that can be read are updated

## Main results

* `contained_withBackup` — what is done under a backup is contained if the work is
* `Updater.InOrder.exists_verdict` — a check of a file that can be read has no fault
* `Updater.InOrder.concernsOneFile_of_update` — an update of it has none that ends a batch
-/

namespace Letterhead

variable {α β : Type} {fs : FileSystem} {path : Path}

/-- A computation that stops on no faults but those that concern one file. -/
def Contained (m : SessionM α) : Prop :=
  ∀ s fault s', exec m s = (.error fault, s') → fault.concernsOneFile = true

/-! ### Work under a backup -/

section Backup

variable {P : Fault → Prop} {target backup : Path} (hfile : ∀ error, P (.file error))
  (hexists : ∀ backup, P (.backupExists backup))

include hfile hexists

theorem stopsOn_refuseExisting (backup : Path) : StopsOn P (refuseExisting backup) := by
  refine (StopsOn.ask hfile backup _).bind fun holds => ?_
  split
  · exact .throw_bind (hexists backup)
  · refine (StopsOn.ask hfile backup _).bind fun link => ?_
    split
    · exact .throw (hexists backup)
    · exact .pure _

/-- What is done under a backup stops as the work does, or because of the backup. -/
theorem stopsOn_withBackup {suffix : String} {work : Path → SessionM α}
    (hname : ∀ error, target.backup suffix = .error error → P (.badName error))
    (hnul : ∀ backup, target.backup suffix = .ok backup →
      target.hasNul = true ∨ backup.hasNul = true → P .embeddedNul)
    (hwork : ∀ backup, target.backup suffix = .ok backup → StopsOn P (work backup)) :
    StopsOn P (withBackup target suffix work) := by
  rw [withBackup, backupOf]
  cases hbackup : target.backup suffix with
  | error error => exact .throw_bind (hname error hbackup)
  | ok backup =>
    have hnames := hnul backup hbackup
    -- Moving the backup back can fail as well, which is a fault of the file system.
    have hrestore (fault : Fault) (hfault : P fault) :
        StopsOn P (restore target backup fault : SessionM α) :=
      (StopsOn.note _ _).bind fun _ =>
        (StopsOn.changeBoth hfile (fun h => hnames h.symm) _).bind fun _ => .throw hfault
    have hdiscard : StopsOn P (discard backup) := by
      refine (StopsOn.ask hfile backup _).bind fun holds => ?_
      split
      · exact .change hfile (fun h => hnames (Or.inr h)) _
      · exact .pure _
    change StopsOn P (pure backup >>= _)
    rw [pure_bind]
    refine (stopsOn_refuseExisting hfile hexists backup).bind fun _ =>
      (StopsOn.changeBoth hfile hnames _).bind fun _ => ?_
    exact ((hwork backup hbackup).tryCatch hrestore).bind fun result =>
      hdiscard.bind fun _ => .pure result

end Backup

theorem contained_withBackup {target backup : Path} {suffix : String} {work : Path → SessionM α}
    (hbackup : target.backup suffix = .ok backup) (hnul : target.hasNul = false)
    (hnul' : backup.hasNul = false) (hwork : Contained (work backup)) :
    Contained (withBackup target suffix work) := by
  refine stopsOn_withBackup (fun _ => rfl) (fun _ => rfl) (fun error herror => ?_)
    (fun other hother hnames => ?_) fun other hother => ?_
  · rw [hbackup] at herror
    cases herror
  · obtain rfl := Except.ok.inj (hbackup.symm.trans hother)
    simp [hnul, hnul'] at hnames
  · obtain rfl := Except.ok.inj (hbackup.symm.trans hother)
    exact hwork

namespace Updater

variable {P : Fault → Prop} {u : Updater} {i : Inspection} {bytes : List UInt8}
  {target backup : Path} {charset : Charset}

theorem stopsOn_encoded {t : Text} (h : u.bytesOf t = .ok bytes) : StopsOn P (u.encoded t) := by
  intro s fault s' hexec
  obtain ⟨s'', hexec', -⟩ := (u.yields_encoded t s.files).exec_eq
  rw [hexec', h] at hexec
  cases hexec

theorem stopsOn_outcome (h : u.bytesOf i.revision.render = .ok bytes) (path : Path) :
    StopsOn P (u.outcome path i) :=
  (stopsOn_encoded h).bind fun _ => .pure _

section Files

variable (hfile : ∀ error, P (.file error))

include hfile

theorem stopsOn_install (h : u.bytesOf i.revision.render = .ok bytes)
    (hnul : target.hasNul = true ∨ backup.hasNul = true → P .embeddedNul) :
    StopsOn P (u.install i target backup) := by
  have hback := fun h => hnul (Or.symm h)
  have hown := fun h => hnul (Or.inl h)
  rw [install]
  split
  · refine StopsOn.bind ?_ fun _ => .changeBoth hfile hback _
    exact (StopsOn.change hfile hown _).bind fun _ =>
      (stopsOn_encoded h).bind fun _ => .change hfile hown _
  · exact .changeBoth hfile hback _

theorem stopsOn_targetOf (hnul : path.hasNul = true → P .embeddedNul) :
    StopsOn P (targetOf path) := by
  refine (StopsOn.ask hfile path _).bind fun link => ?_
  split
  · exact .askNamed hfile hnul _
  · exact .pure _

end Files

/-! ### Files that can be kept -/

/-- The files are kept in a charset that has bytes for every line of the notice. -/
structure Spells (u : Updater) (charset : Charset) : Prop where
  named : Charset.ofName? u.config.charsetName = some charset
  noNul : '\x00' ∉ u.config.charsetName.toList
  notice : ∀ line ∈ u.notice.lines, ∃ bytes, charset.encode (Text.ofString line) = .ok bytes

namespace Spells

variable (h : u.Spells charset)

include h

theorem textOf (content : List UInt8) : u.textOf content = .ok (charset.decode content) :=
  textOf_of_named h.named h.noNul content

/-- The revision of a file, whatever the file holds, can be written. -/
theorem exists_encode_revise (source : String) (content : List UInt8) :
    ∃ rendered, charset.encode
      (revise u.notice.toLines source (charset.decode content).unifyLineEnds.lines).render =
        .ok rendered := by
  refine Charset.exists_encode_unlines_of_forall fun line hline => ?_
  -- A line of the revision is one of the file, which has come from bytes, or one of the notice, or the
  -- empty line between the two.
  rcases mem_revise_lines hline with hfile | hnotice | rfl
  · exact (charset.legible_of_mem_lines content line hfile).exists_encode
  · obtain ⟨given, hgiven, rfl⟩ := List.mem_map.mp hnotice
    exact h.notice given hgiven
  · exact charset.legible_nil.exists_encode

theorem exists_bytesOf (path : Path) (content : List UInt8) :
    ∃ rendered, u.bytesOf (u.revisionOf path (charset.decode content)).render = .ok rendered := by
  obtain ⟨rendered, hrendered⟩ := h.exists_encode_revise path.toString content
  exact ⟨rendered, bytesOf_eq_ok_iff.mpr ⟨charset, h.named, hrendered⟩⟩

/-- Whatever is read from a file, its revision can be written. -/
theorem gives_inspect (path : Path) :
    Gives (fun i => ∃ rendered, u.bytesOf i.revision.render = .ok rendered) (u.inspect path) := by
  intro s i s' hexec
  obtain ⟨content, between, -, hdecoded⟩ := exists_of_exec_bind hexec
  obtain ⟨s'', hexec', -⟩ := ((u.yields_decoded content between.files).bind_still
    fun t => Yields.pure (a := (⟨content, u.revisionOf path t⟩ : Inspection))).exec_eq
  rw [hdecoded, h.textOf] at hexec'
  cases hexec'
  exact h.exists_bytesOf path content

theorem stopsOn_inspect {P : Fault → Prop} (hfile : ∀ error, P (.file error))
    (hnul : path.hasNul = true → P .embeddedNul) : StopsOn P (u.inspect path) := by
  refine (StopsOn.askNamed hfile hnul _).bind fun content => StopsOn.bind ?_ fun t => .pure _
  intro s fault s' hexec
  obtain ⟨s'', hexec', -⟩ := (u.yields_decoded content s.files).exec_eq
  rw [hexec, h.textOf] at hexec'
  cases hexec'

end Spells

/-- What is written for a file that can be read has a proper name. -/
theorem WrittenAs.proper (htree : fs.IsTree) (h : WrittenAs fs path target) (hproper : path.Proper)
    (hreadable : fs.isReadable path = true) :
    target.Proper ∧ target.names ≠ [] ∧ target.hasNul = false := by
  obtain ⟨hnul, place, node, hfind, hnode⟩ := FileSystem.isReadable_eq_true_iff.mp hreadable
  rcases h with ⟨-, rfl⟩ | ⟨-, hreal⟩
  · exact ⟨hproper, htree.names_ne_nil hreadable, hnul⟩
  · -- The names of the file itself, in the tree.
    obtain ⟨hlocate, hplace⟩ := FileSystem.find_eq_ok_iff.mp hfind
    have hnames := htree.names_of_node? hplace
    rw [FileSystem.realPath, hlocate] at hreal
    obtain rfl := Except.ok.inj hreal
    refine ⟨fun name hname => ?_, ?_, ?_⟩
    · obtain ⟨hisName, -⟩ := hnames name hname
      exact ⟨hisName.ne_empty, hisName.ne_dot, hisName.no_slash⟩
    · rintro rfl
      cases hplace
      cases hnode
    · rw [Path.hasNul, List.any_eq_false]
      intro name hname
      simpa using (hnames name hname).2

/-- Settings in order: the notice can be written in the charset of the files, and what is added to the
name of a backup can be part of a name. -/
structure InOrder (u : Updater) : Prop where
  spells : ∃ charset, u.Spells charset
  suffix : ∃ suffix, u.config.backupSuffix = some suffix ∧ '/' ∉ suffix.toList ∧
    '\x00' ∉ suffix.toList

namespace InOrder

variable (h : u.InOrder)

include h

/-- A file that can be read is read and scanned, and its revision can be written. -/
theorem exists_inspect (hreadable : fs.isReadable path = true) :
    ∃ i rendered, Yields (u.inspect path) fs (.ok i) fs ∧
      u.bytesOf i.revision.render = .ok rendered := by
  obtain ⟨charset, hspells⟩ := h.spells
  obtain ⟨hnul, place, node, hfind, hnode⟩ := FileSystem.isReadable_eq_true_iff.mp hreadable
  cases node with
  | file mode content =>
    obtain ⟨rendered, hrendered⟩ := hspells.exists_bytesOf path content
    have hread : fs.read path = .ok content :=
      FileSystem.read_eq_ok_iff.mpr ⟨place, mode, hfind, hnode⟩
    exact ⟨_, rendered, yields_inspect hnul hread (hspells.textOf content), hrendered⟩
  | directory | link => cases hnode

/-- A check of a file that can be read has no fault. -/
theorem exists_verdict (hreadable : fs.isReadable path = true) :
    ∃ o, u.verdict fs path = .ok o := by
  obtain ⟨i, rendered, hinspect, hrendered⟩ := h.exists_inspect hreadable
  have hcheck : Yields (u.check path) fs (.ok (report path i rendered)) fs :=
    hinspect.bind (yields_outcome i hrendered path fs)
  exact ⟨_, ((u.yields_check path fs).unique hcheck).1⟩

/-- A fault of an update of a file that can be read concerns that file. -/
theorem concernsOneFile_of_update {s s' : Session} {fault : Fault} (htree : s.files.IsTree)
    (hproper : path.Proper) (hreadable : s.files.isReadable path = true)
    (hexec : exec (u.update path) s = (.error fault, s')) : fault.concernsOneFile = true := by
  obtain ⟨suffix, hsuffix, hslash, hnul⟩ := h.suffix
  obtain ⟨i, rendered, hinspect, hrendered⟩ := h.exists_inspect hreadable
  obtain ⟨s₁, hinspected, hfiles⟩ := hinspect.exec_eq
  rw [Updater.update, exec_bind_of_ok hinspected] at hexec
  have hpath := (FileSystem.isReadable_eq_true_iff.mp hreadable).1
  rcases yields_targetOf_or_fails path s.files with ⟨fault', hfails⟩ | ⟨target, hwritten⟩
  · -- What the link stands for is not found, which is a fault of this file.
    obtain ⟨s₂, hfailed, -⟩ := hfails s₁ hfiles
    rw [exec_bind_of_error hfailed] at hexec
    cases hexec
    exact stopsOn_targetOf (P := fun fault => fault.concernsOneFile = true) (fun _ => rfl)
      (by simp [hpath]) _ _ _ hfailed
  · obtain ⟨s₂, htarget, -⟩ := yields_targetOf hwritten hpath s₁ hfiles
    rw [exec_bind_of_ok htarget, backupSuffix, hsuffix] at hexec
    obtain ⟨htargetProper, hnames, htargetNul⟩ := hwritten.proper htree hproper hreadable
    obtain ⟨backup, hbackup, hbackupNul⟩ := htargetProper.exists_backup hnames htargetNul hslash hnul
    have hinstall : Contained (u.install i target backup) :=
      stopsOn_install (fun _ => rfl) hrendered (by simp [htargetNul, hbackupNul])
    have hcontained : Contained (do
        withBackup target suffix (u.install i target)
        u.outcome path i) :=
      StopsOn.bind (contained_withBackup hbackup htargetNul hbackupNul hinstall)
        fun _ => stopsOn_outcome hrendered path
    exact hcontained s₂ fault s' hexec

end InOrder

end Updater

end Letterhead
