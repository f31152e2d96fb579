import Letterhead.FileSystem.Change
import Letterhead.Proofs.FileSystem.Leads

/-!
# A file and the place beside it

Work under a backup touches two locations, each of which holds a file or nothing. Every file system
that comes up on the way is the first one with these two set anew, and so the operations on a file
system are operations on the two.

## Main definitions

* `FileSystem.stage` — a file system with two locations set anew
* `FileSystem.Bracket` — a file, and an empty place that it can be moved to and back

## Main results

* `stage_self`, `stage_eq_put` — the file back in its place, with its content or another
* `Bracket.rename_aside`, `Bracket.rename_back`, `Bracket.write`, `Bracket.copyMode`,
  `Bracket.holds`, `Bracket.unlink` — what the operations do
* `bracket_of_rename` — a file that has been moved was in such a state before
-/

namespace Letterhead.FileSystem

variable {fs fs' : FileSystem} {place spare other : Location}

/-- File systems with the same working directory and the same nodes are equal. -/
theorem ext_nodes (hhome : fs.workingDirectory = fs'.workingDirectory)
    (hnodes : ∀ other : Location, fs.nodes[other]? = fs'.nodes[other]?) : fs = fs' := by
  cases fs
  cases fs'
  obtain rfl := hhome
  congr
  exact Std.ExtTreeMap.ext_getElem? hnodes

/-! ### One location -/

/-- A file at a location, by its permission bits and its content, or nothing. -/
abbrev Slot := Option (Nat × List UInt8)

/-- The node that is in a slot. -/
def Slot.node? : Slot → Option Node := Option.map fun f => .file f.1 f.2

/-- The file system with a file, or nothing, at a location. -/
def setSlot (fs : FileSystem) (place : Location) : Slot → FileSystem
  | some (mode, bytes) => fs.put place (.file mode bytes)
  | none => fs.remove place

@[simp] theorem setSlot_workingDirectory (fs : FileSystem) (place : Location) (slot : Slot) :
    (fs.setSlot place slot).workingDirectory = fs.workingDirectory := by
  cases slot <;> rfl

theorem getElem?_setSlot (fs : FileSystem) (place other : Location) (slot : Slot) :
    (fs.setSlot place slot).nodes[other]? = if place = other then slot.node? else fs.nodes[other]? := by
  cases slot with
  | none => simp [setSlot, remove, Slot.node?, Std.ExtTreeMap.getElem?_erase]
  | some f => simp [setSlot, put, Slot.node?, Std.ExtTreeMap.getElem?_insert]

theorem node?_setSlot (hplace : place ≠ []) (slot : Slot) :
    (fs.setSlot place slot).node? other = if place = other then slot.node? else fs.node? other := by
  by_cases hother : other = []
  · subst hother
    simp [hplace]
  · rw [node?_of_ne_nil _ hother, node?_of_ne_nil _ hother, getElem?_setSlot]

theorem Slot.isFile_of_node? {slot : Slot} {node : Node} (h : slot.node? = some node) :
    node.isFile := by
  obtain ⟨f, -, rfl⟩ := Option.map_eq_some_iff.mp h
  rfl

/-- Setting a slot where there is at most a file leaves directories and links as they are. -/
theorem agree_setSlot (hplace : place ≠ [])
    (hfile : ∀ node, fs.node? place = some node → node.isFile) (slot : Slot) :
    AgreeOffFiles fs (fs.setSlot place slot) := by
  refine ⟨setSlot_workingDirectory .., fun other node hnode => ?_⟩
  rw [node?_setSlot hplace]
  split
  · rename_i heq
    subst heq
    constructor
    · intro h
      rw [Slot.isFile_of_node? h] at hnode
      cases hnode
    · intro h
      rw [hfile node h] at hnode
      cases hnode
  · exact Iff.rfl

/-! ### Two locations -/

/-- The file system with `work` at one location and `kept` at another. -/
def stage (fs : FileSystem) (place spare : Location) (work kept : Slot) : FileSystem :=
  (fs.setSlot place work).setSlot spare kept

variable {work kept slot : Slot}

@[simp] theorem stage_workingDirectory :
    (fs.stage place spare work kept).workingDirectory = fs.workingDirectory := by
  rw [stage, setSlot_workingDirectory, setSlot_workingDirectory]

theorem getElem?_stage : (fs.stage place spare work kept).nodes[other]? =
    if spare = other then kept.node? else if place = other then work.node?
      else fs.nodes[other]? := by
  rw [stage, getElem?_setSlot, getElem?_setSlot]

theorem stage_setSlot_spare :
    (fs.stage place spare work kept).setSlot spare slot = fs.stage place spare work slot := by
  refine ext_nodes (by simp) fun other => ?_
  rw [getElem?_setSlot, getElem?_stage, getElem?_stage]
  split <;> rfl

theorem stage_setSlot_place (hne : place ≠ spare) :
    (fs.stage place spare work kept).setSlot place slot = fs.stage place spare slot kept := by
  refine ext_nodes (by simp) fun other => ?_
  rw [getElem?_setSlot, getElem?_stage, getElem?_stage]
  by_cases hspare : spare = other
  · rw [if_neg (fun hplace => hne (hplace.trans hspare.symm)), if_pos hspare, if_pos hspare]
  · rw [if_neg hspare, if_neg hspare]
    split <;> rfl

/-- Two locations set to what they hold. -/
theorem stage_self (hplace : place ≠ []) (hspare : spare ≠ []) (hwork : fs.node? place = work.node?)
    (hkept : fs.node? spare = kept.node?) : fs.stage place spare work kept = fs := by
  refine ext_nodes (by simp) fun other => ?_
  rw [getElem?_stage]
  split
  · rename_i heq
    rw [← hkept, ← heq, node?_of_ne_nil _ hspare]
  · split
    · rename_i heq
      rw [← hwork, ← heq, node?_of_ne_nil _ hplace]
    · rfl

/-- Another file in its place, and nothing where nothing was. -/
theorem stage_eq_put (hspare : spare ≠ []) (hne : place ≠ spare) (hkept : fs.node? spare = none)
    (mode : Nat) (bytes : List UInt8) :
    fs.stage place spare (some (mode, bytes)) none = fs.put place (.file mode bytes) := by
  refine ext_nodes (by simp [put]) fun other => ?_
  change _ = (fs.setSlot place (some (mode, bytes))).nodes[other]?
  rw [getElem?_stage, getElem?_setSlot]
  split
  · rename_i heq
    subst heq
    rw [if_neg hne, ← node?_of_ne_nil _ hspare, hkept]
    rfl
  · rfl

/-! ### Moving a file aside and back -/

/-- A file keeps its content when it is given other bits. -/
theorem withMode_of_file {mode old : Nat} {bytes : List UInt8} (hplace : place ≠ [])
    (hnode : fs.node? place = some (.file old bytes)) :
    fs.withMode place mode = fs.put place (.file mode bytes) := by
  cases place with
  | nil => exact absurd rfl hplace
  | cons name rest => simp only [withMode, hnode]

theorem AgreeOffFiles.permitsChange (h : AgreeOffFiles fs fs') (hplace : fs.permitsChange place) :
    fs'.permitsChange place :=
  h.has (fun hnode => Node.isDirectory_of_isSearchable (Node.isSearchable_of_isChangeable hnode))
    hplace

/-- What is no directory may take the place of anything but a directory, between directories that
may be changed. -/
theorem refusesMove_eq_none_iff {node : Node} (hkind : node.isDirectory = false) :
    fs.refusesMove place spare node = none ↔ spare.isPrefixOf place = false ∧
      (fs.permitsChange place ∧ fs.permitsChange spare) ∧ ¬ fs.has Node.isDirectory spare := by
  rw [refusesMove, hkind, if_neg (by simp)]
  by_cases hbelow : spare.isPrefixOf place = true
  · simp [hbelow]
  rw [if_neg hbelow]
  by_cases hpermits : fs.permitsChange place ∧ fs.permitsChange spare
  · rw [if_neg (not_not_intro hpermits), if_neg (by simp)]
    simp [hbelow, hpermits]
  · simp [hpermits]

/-- What is no directory is moved over anything but a directory, if neither path ends in dots. -/
theorem rename_eq_ok {source target : Path} {node : Node}
    (hsource : fs.locate .entry source = .ok place) (htarget : fs.locate .entry target = .ok spare)
    (hdots : source.endsInDots = false) (hdots' : target.endsInDots = false)
    (hnode : fs.node? place = some node) (hkind : node.isDirectory = false)
    (hover : ¬ fs.has Node.isDirectory spare) (hne : place ≠ spare)
    (hbelow : spare.isPrefixOf place = false)
    (hpermits : fs.permitsChange place ∧ fs.permitsChange spare) :
    fs.rename source target = .ok ((fs.remove place).put spare node) := by
  have hmoves : fs.refusesMove place spare node = none :=
    (refusesMove_eq_none_iff hkind).mpr ⟨hbelow, hpermits, hover⟩
  rw [rename, hsource, htarget]
  simp only [hdots, hdots', hnode, hmoves, Bool.or_self, Bool.false_eq_true, if_false, if_neg hne]
  rw [move, hkind, if_neg Bool.false_ne_true]

/-- A file at `place`, which `target` denotes, and nothing at `spare`, which `backup` denotes. Both are
in directories that may be changed, and neither is below the other, so the file can be moved to and
fro. -/
structure Bracket (fs : FileSystem) (target backup : Path) (place spare : Location) (mode : Nat)
    (content : List UInt8) : Prop where
  target_noNul : target.hasNul = false
  backup_noNul : backup.hasNul = false
  locate_target : fs.locate .entry target = .ok place
  locate_backup : fs.locate .entry backup = .ok spare
  target_noDots : target.endsInDots = false
  backup_noDots : backup.endsInDots = false
  node?_place : fs.node? place = some (.file mode content)
  node?_spare : fs.node? spare = none
  not_above : place.isPrefixOf spare = false
  not_below : spare.isPrefixOf place = false
  permits : fs.permitsChange place ∧ fs.permitsChange spare

namespace Bracket

variable {target backup : Path} {mode : Nat} {content : List UInt8} {aim : Aim}
  (b : fs.Bracket target backup place spare mode content)

include b

theorem place_ne_nil : place ≠ [] := by
  rintro rfl
  have := b.node?_place
  cases this

theorem spare_ne_nil : spare ≠ [] := by
  rintro rfl
  have := b.node?_spare
  cases this

theorem place_ne_spare : place ≠ spare := by
  rintro rfl
  have hself : place.isPrefixOf place = true := List.isPrefixOf_iff_prefix.mpr (List.prefix_refl _)
  rw [b.not_above] at hself
  cases hself

theorem node?_stage_place :
    (fs.stage place spare work kept).node? place = work.node? := by
  rw [stage, node?_setSlot b.spare_ne_nil, if_neg b.place_ne_spare.symm,
    node?_setSlot b.place_ne_nil, if_pos rfl]

theorem node?_stage_spare :
    (fs.stage place spare work kept).node? spare = kept.node? := by
  rw [stage, node?_setSlot b.spare_ne_nil, if_pos rfl]

theorem agree (work kept : Slot) : AgreeOffFiles fs (fs.stage place spare work kept) := by
  have hplace : ∀ node, fs.node? place = some node → node.isFile := by
    intro node hnode
    rw [b.node?_place] at hnode
    cases hnode
    rfl
  refine (agree_setSlot b.place_ne_nil hplace work).trans (agree_setSlot b.spare_ne_nil ?_ kept)
  intro node hnode
  rw [node?_setSlot b.place_ne_nil, if_neg b.place_ne_spare, b.node?_spare] at hnode
  cases hnode

/-- Every look-up of the file, or of its place, comes there. -/
theorem locate_target_stage (work kept : Slot) :
    (fs.stage place spare work kept).locate aim target = .ok place := by
  refine (b.agree work kept).locate ?_
  cases aim with
  | entry => exact b.locate_target
  | target | file =>
    exact locate_changeAim b.locate_target rfl (by simp [b.node?_place]) fun _ =>
      not_has_of_node? b.node?_place rfl

/-- Every look-up of the backup, or of its place, comes there. -/
theorem locate_backup_stage (work kept : Slot) :
    (fs.stage place spare work kept).locate aim backup = .ok spare := by
  refine (b.agree work kept).locate ?_
  cases aim with
  | entry => exact b.locate_backup
  | target | file =>
    exact locate_changeAim b.locate_backup rfl (by simp [b.node?_spare]) fun _ =>
      not_has_of_none b.node?_spare _

/-- Neither of the directories changes. -/
theorem permits_stage (work kept : Slot) :
    (fs.stage place spare work kept).permitsChange place ∧
      (fs.stage place spare work kept).permitsChange spare :=
  b.permits.imp (b.agree work kept).permitsChange (b.agree work kept).permitsChange

theorem eq_stage : fs = fs.stage place spare (some (mode, content)) none :=
  (stage_self b.place_ne_nil b.spare_ne_nil b.node?_place b.node?_spare).symm

theorem put_self : fs.put place (.file mode content) = fs := by
  rw [← stage_eq_put b.spare_ne_nil b.place_ne_spare b.node?_spare, ← b.eq_stage]

/-- The file is moved aside. -/
theorem rename_aside : fs.rename target backup =
    .ok (fs.stage place spare none (some (mode, content))) :=
  rename_eq_ok b.locate_target b.locate_backup b.target_noDots b.backup_noDots b.node?_place rfl
    (not_has_of_none b.node?_spare _) b.place_ne_spare b.not_below b.permits

/-- What is kept at the spare place is moved back, over whatever has come to stand there. -/
theorem rename_back (work : Slot) (f : Nat × List UInt8) :
    (fs.stage place spare work (some f)).rename backup target =
      .ok (fs.stage place spare (some f) none) := by
  have hnode : (fs.stage place spare work (some f)).node? spare = some (.file f.1 f.2) :=
    b.node?_stage_spare
  have hover : ¬ (fs.stage place spare work (some f)).has Node.isDirectory place := by
    rw [has, b.node?_stage_place]
    cases work <;> simp [Slot.node?, Node.isDirectory]
  rw [rename_eq_ok (b.locate_backup_stage _ _) (b.locate_target_stage _ _) b.backup_noDots
    b.target_noDots hnode rfl hover b.place_ne_spare.symm b.not_above (b.permits_stage _ _).symm]
  congr 1
  calc ((fs.stage place spare work (some f)).remove spare).put place (.file f.1 f.2)
      = ((fs.stage place spare work (some f)).setSlot spare none).setSlot place (some f) := rfl
    _ = fs.stage place spare (some f) none := by
      rw [stage_setSlot_spare, stage_setSlot_place b.place_ne_spare]

/-- A new file is made, or the file that has been made is written again. -/
theorem write (hwork : ∀ f ∈ work, f.1 = newFileMode) (kept : Slot) (bytes : List UInt8) :
    (fs.stage place spare work kept).write target bytes =
      .ok (fs.stage place spare (some (newFileMode, bytes)) kept) := by
  have hput : (fs.stage place spare work kept).put place (.file newFileMode bytes) =
      fs.stage place spare (some (newFileMode, bytes)) kept := by
    change (fs.stage place spare work kept).setSlot place (some (newFileMode, bytes)) = _
    exact stage_setSlot_place b.place_ne_spare
  rw [FileSystem.write, b.locate_target_stage]
  simp only
  rw [b.node?_stage_place]
  cases work with
  | none =>
    simp only [Slot.node?, Option.map_none]
    rw [if_pos (b.permits_stage none kept).1, hput]
  | some f =>
    obtain ⟨made, old⟩ := f
    obtain rfl : made = newFileMode := hwork _ rfl
    have hwritable : (Node.file newFileMode old).isWritableFile = true := by rfl
    have hmode : writtenMode newFileMode = newFileMode := by rfl
    simp only [Slot.node?, Option.map_some, hwritable, if_true, hmode, hput]

/-- The file at the place is given the bits of the one that is kept. -/
theorem copyMode (made : Nat) (bytes : List UInt8) (f : Nat × List UInt8) :
    (fs.stage place spare (some (made, bytes)) (some f)).copyMode backup target =
      .ok (fs.stage place spare (some (f.1, bytes)) (some f)) := by
  have hspare : (fs.stage place spare (some (made, bytes)) (some f)).node? spare =
      some (.file f.1 f.2) := b.node?_stage_spare
  have hplace : (fs.stage place spare (some (made, bytes)) (some f)).node? place =
      some (.file made bytes) := b.node?_stage_place
  rw [FileSystem.copyMode, find, find, b.locate_backup_stage, b.locate_target_stage]
  simp only [hspare, hplace]
  rw [withMode_of_file b.place_ne_nil hplace]
  change Except.ok ((fs.stage place spare _ _).setSlot place (some (f.1, bytes))) = _
  rw [stage_setSlot_place b.place_ne_spare]

/-- Whether there is still something at the spare place. -/
theorem holds (work kept : Slot) :
    (fs.stage place spare work kept).holds backup = .ok kept.isSome := by
  rw [FileSystem.holds, test, b.backup_noNul, find, b.locate_backup_stage]
  simp only [Bool.false_eq_true, if_false]
  rw [b.node?_stage_spare]
  cases kept <;> rfl

/-- What is kept is removed. -/
theorem unlink (work : Slot) (f : Nat × List UInt8) :
    (fs.stage place spare work (some f)).unlink backup = .ok (fs.stage place spare work none) := by
  have hspare : (fs.stage place spare work (some f)).node? spare = some (.file f.1 f.2) :=
    b.node?_stage_spare
  rw [FileSystem.unlink, find, b.locate_backup_stage]
  simp only [hspare]
  rw [if_neg (Bool.not_eq_true _ ▸ b.backup_noDots),
    if_neg (not_not_intro (b.permits_stage work (some f)).2), if_neg (by simp [Node.isDirectory])]
  change Except.ok ((fs.stage place spare work (some f)).setSlot spare none) = _
  rw [stage_setSlot_spare]

end Bracket

/-! ### How a bracket comes about -/

theorem read_eq_ok_iff {path : Path} {bytes : List UInt8} :
    fs.read path = .ok bytes ↔ ∃ place mode,
      fs.find .target path = .ok (place, .file mode bytes) ∧
        (Node.file mode bytes).isReadableFile := by
  rw [read]
  cases hfind : fs.find .target path with
  | error problem => simp
  | ok found =>
    obtain ⟨place, node⟩ := found
    cases node with
    | directory | link => simp
    | file mode content =>
      simp only [Except.ok.injEq, Prod.mk.injEq, Node.file.injEq]
      by_cases hmode : (Node.file mode content).isReadableFile
      · rw [if_pos hmode]
        constructor
        · rintro ⟨rfl⟩
          exact ⟨place, mode, ⟨rfl, rfl, rfl⟩, hmode⟩
        · rintro ⟨_, _, ⟨-, -, rfl⟩, -⟩
          rfl
      · rw [if_neg hmode]
        constructor
        · exact fun h => nomatch h
        · rintro ⟨_, _, ⟨-, rfl, rfl⟩, hreadable⟩
          exact absurd hreadable hmode

theorem isLink_of_find {path : Path} {node : Node} (hnul : path.hasNul = false)
    (hfind : fs.find .entry path = .ok (place, node)) : fs.isLink path = .ok node.isLink := by
  rw [isLink, test, hnul, hfind]
  rfl

/-- Nothing is found where there is nothing, links followed or not. -/
theorem test_of_absent {path : Path} {aim : Aim} {sort : Node → Bool} (haim : aim ≠ .file)
    (hlocate : fs.locate .entry path = .ok place) (hnone : fs.node? place = none) :
    fs.test aim sort path = .ok false := by
  have hlocate' : fs.locate aim path = .ok place := by
    cases aim with
    | entry => exact hlocate
    | target => exact locate_changeAim hlocate rfl (by simp [hnone]) nofun
    | file => exact absurd rfl haim
  rw [test, find, hlocate']
  simp only [hnone]
  cases path.hasNul <;> rfl

/-- What is no link is found whether or not links are followed. -/
theorem find_target_of_entry {path : Path} {node : Node}
    (h : fs.find .entry path = .ok (place, node)) (hlink : node.isLink = false) :
    fs.find .target path = .ok (place, node) := by
  obtain ⟨hlocate, hnode⟩ := find_eq_ok_iff.mp h
  refine find_eq_ok_iff.mpr ⟨locate_changeAim hlocate rfl (fun target heq => ?_) nofun, hnode⟩
  obtain rfl := Option.some.inj (hnode.symm.trans heq)
  cases hlink

/-- What is at a path that leads to nothing is a link. -/
theorem isLink_of_not_holds {path : Path} {node : Node} (hnul : path.hasNul = false)
    (hholds : fs.holds path = .ok false) (hfind : fs.find .entry path = .ok (place, node)) :
    node.isLink = true := by
  rw [← Bool.not_eq_false]
  intro hlink
  rw [holds, test, hnul, find_target_of_entry hfind hlink] at hholds
  cases hholds

/-- Nothing is at a path that neither leads to something nor is a link. -/
theorem node?_eq_none_of_refused {path : Path} (hnul : path.hasNul = false)
    (hholds : fs.holds path = .ok false) (hlink : fs.isLink path = .ok false)
    (hlocate : fs.locate .entry path = .ok place) : fs.node? place = none := by
  cases hnode : fs.node? place with
  | none => rfl
  | some node =>
    have hfind : fs.find .entry path = .ok (place, node) := find_eq_ok_iff.mpr ⟨hlocate, hnode⟩
    rw [isLink_of_find hnul hfind, isLink_of_not_holds hnul hholds hfind] at hlink
    cases hlink

theorem exists_locate_of_rename {source target : Path} (h : fs.rename source target = .ok fs') :
    ∃ place, fs.locate .entry source = .ok place := by
  cases hsource : fs.locate .entry source with
  | ok place => exact ⟨place, rfl⟩
  | error problem =>
    rw [rename, hsource] at h
    cases h

/-- A file that has been moved to where nothing was can be moved to and fro. -/
theorem bracket_of_rename (hhome : fs.HomeReached) {target backup : Path} {mode : Nat}
    {content : List UInt8} (htarget : target.hasNul = false) (hbackup : backup.hasNul = false)
    (hlocate : fs.locate .entry target = .ok place)
    (hnode : fs.node? place = some (.file mode content)) (hholds : fs.holds backup = .ok false)
    (hlink : fs.isLink backup = .ok false) (hrename : fs.rename target backup = .ok fs') :
    ∃ spare, fs.Bracket target backup place spare mode content := by
  rw [rename, hlocate] at hrename
  cases hspare : fs.locate .entry backup with
  | error problem => rw [hspare] at hrename; cases hrename
  | ok spare =>
    have hnone : fs.node? spare = none := node?_eq_none_of_refused hbackup hholds hlink hspare
    rw [hspare] at hrename
    simp only at hrename
    split at hrename
    · cases hrename
    rename_i hdots
    obtain ⟨htargetDots, hbackupDots⟩ := Bool.or_eq_false_iff.mp (Bool.not_eq_true _ ▸ hdots)
    rw [hnode] at hrename
    simp only at hrename
    have hne : place ≠ spare := by
      rintro rfl
      rw [hnode] at hnone
      cases hnone
    rw [if_neg hne] at hrename
    cases hmoves : fs.refusesMove place spare (.file mode content) with
    | some problem =>
      rw [hmoves] at hrename
      cases hrename
    | none =>
      obtain ⟨hbelow, hpermits, -⟩ := (refusesMove_eq_none_iff rfl).mp hmoves
      have hfile : ¬ fs.has Node.isDirectory place := not_has_of_node? hnode rfl
      exact ⟨spare, htarget, hbackup, hlocate, hspare, htargetDots, hbackupDots, hnode, hnone,
        (reached_of_locate hhome hspare).not_isPrefixOf hfile hne, hbelow, hpermits⟩

end Letterhead.FileSystem
