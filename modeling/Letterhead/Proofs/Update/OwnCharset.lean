import Letterhead.Proofs.Notice
import Letterhead.Proofs.Update.Fault
import Letterhead.Request

/-!
# A notice in the charset of the files

The notice is loaded in the charset that the files are kept in. The strict reading of the notice gives
only characters that the charset has bytes for, and the lenient reading of a file gives such characters
and stray bytes. A revision is made of lines of both, so it can always be written, and no file, whatever
bytes it holds, stops a batch because of its text.

## Main definitions

* `Fault.concernsText` — the faults of reading and writing text

## Main results

* `gives_loadNotice` — what a loaded notice has been read from
* `spells_of_loadNotice` — the charset of the files has bytes for the loaded notice
* `loaded_notice_never_stops_on_text` — with it, checks and updates stop on no fault of text
-/

namespace Letterhead

variable {path : Path} {charsetName : String}

/-- Whether a fault is one of reading or writing text. -/
def Fault.concernsText : Fault → Bool
  | unknownCharset _ | nulInCharset | undecodable _ | unencodable _ => true
  | _ => false

/-- A fault that does not lie in reading or writing text. -/
def Fault.OtherThanText (fault : Fault) : Prop := fault.concernsText = false

/-! ### The notice -/

/-- What has been read in a charset of this name. -/
def ReadIn (charsetName : String) (characters : List Char) : Prop :=
  '\x00' ∉ charsetName.toList ∧ ∃ charset bytes,
    Charset.ofName? charsetName = some charset ∧ charset.decodeStrict bytes = .ok characters

theorem gives_readNotice (path : Path) (charsetName : String) :
    Gives (ReadIn charsetName) (readNotice path charsetName) := by
  have hrefuse : Gives (fun _ => '\x00' ∉ charsetName.toList) (refuseNul charsetName) := by
    rw [refuseNul]
    split
    · exact .throw _
    · rename_i hnul
      exact .pure (by simpa using hnul)
  have hcharset : Gives (fun charset => Charset.ofName? charsetName = some charset)
      (charsetNamed charsetName) := by
    rw [charsetNamed]
    split
    · rename_i charset hname
      exact .pure hname
    · exact .throw _
  refine hrefuse.bind fun _ hnul => .bind_last _ fun bytes => hcharset.bind fun charset hname => ?_
  split
  · rename_i characters hread
    exact .pure ⟨hnul, charset, bytes, hname, hread⟩
  · exact .throw _

/-- A loaded notice is the one in a text that has been read in the charset. -/
theorem gives_loadNotice (path : Path) (charsetName : String) :
    Gives (fun notice => ∃ characters, ReadIn charsetName characters ∧
      Notice.ofString? (String.ofList characters) = some notice) (loadNotice path charsetName) := by
  have hread : Gives (ReadIn charsetName)
      (tryCatch (readNotice path charsetName) (blameNotice path)) := by
    refine (gives_readNotice path charsetName).tryCatch fun fault => ?_
    unfold blameNotice
    split <;> exact .throw _
  refine hread.bind fun characters hcharacters => ?_
  split
  · exact .throw _
  · rename_i notice hnotice
    have hgiven := Gives.pure (P := fun notice => ∃ characters, ReadIn charsetName characters ∧
      Notice.ofString? (String.ofList characters) = some notice) ⟨characters, hcharacters, hnotice⟩
    dsimp only
    split
    · exact .bind_last _ fun _ => .bind_last _ fun _ => hgiven
    · exact .bind_last _ fun _ => hgiven

namespace Updater

/-- The charset that a notice was loaded in has bytes for each of its lines. -/
theorem spells_of_loadNotice {config : Config} {notice : Notice} {s : Session}
    (h : (exec (loadNotice path config.charsetName) s).1 = .ok notice) :
    ∃ charset, Spells ⟨notice, config⟩ charset := by
  obtain ⟨characters, ⟨hnul, charset, bytes, hname, hread⟩, hnotice⟩ :=
    gives_loadNotice path config.charsetName s notice _ (Prod.ext h rfl)
  refine ⟨charset, hname, hnul, fun line hline => Charset.exists_encode_iff.mpr fun p hp => ?_⟩
  -- A character of a line is one of the text, which has been read strictly.
  obtain ⟨c, hc, rfl⟩ := List.mem_map.mp hp
  have hmem := mem_of_mem_separatedLines (Notice.mem_separatedLines hnotice hline) hc
  rw [String.toList_ofList] at hmem
  exact Charset.exists_bytes_of_decodeStrict hread c hmem

/-! ### Checks and updates -/

variable {u : Updater} {charset : Charset}

theorem Spells.stopsOn_check (h : u.Spells charset) (path : Path) :
    StopsOn Fault.OtherThanText (u.check path) := by
  have hinspect : StopsOn Fault.OtherThanText (u.inspect path) :=
    h.stopsOn_inspect (fun _ => rfl) fun _ => rfl
  refine hinspect.bind_of_gives (h.gives_inspect path) fun i hi => ?_
  obtain ⟨rendered, hrendered⟩ := hi
  exact stopsOn_outcome hrendered path

theorem Spells.stopsOn_update (h : u.Spells charset) (path : Path) :
    StopsOn Fault.OtherThanText (u.update path) := by
  have hinspect : StopsOn Fault.OtherThanText (u.inspect path) :=
    h.stopsOn_inspect (fun _ => rfl) fun _ => rfl
  have htarget : StopsOn Fault.OtherThanText (targetOf path) :=
    stopsOn_targetOf (fun _ => rfl) fun _ => rfl
  have hsuffix : StopsOn Fault.OtherThanText u.backupSuffix := by
    rw [backupSuffix]
    split
    · exact .pure _
    · exact .throw rfl
  refine hinspect.bind_of_gives (h.gives_inspect path) fun i hi => ?_
  obtain ⟨rendered, hrendered⟩ := hi
  refine htarget.bind fun target => hsuffix.bind fun suffix => ?_
  have hinstall (backup : Path) : StopsOn Fault.OtherThanText (u.install i target backup) :=
    stopsOn_install (fun _ => rfl) hrendered fun _ => rfl
  have hwork : StopsOn Fault.OtherThanText (withBackup target suffix (u.install i target)) :=
    stopsOn_withBackup (fun _ => rfl) (fun _ => rfl) (fun _ _ => rfl) (fun _ _ _ => rfl)
      fun backup _ => hinstall backup
  exact hwork.bind fun _ => stopsOn_outcome hrendered path

end Updater

/-- A notice that was loaded in the charset of the files gives no fault of text: whatever bytes a file
holds, its revision can be written, and neither a check nor an update of it stops because of the text. -/
theorem loaded_notice_never_stops_on_text {config : Config} {notice : Notice} {s : Session}
    (h : (exec (loadNotice path config.charsetName) s).1 = .ok notice) :
    ∃ charset, Charset.ofName? config.charsetName = some charset ∧
      (∀ source content, ∃ rendered, charset.encode
        (revise notice.toLines source (charset.decode content).unifyLineEnds.lines).render =
          .ok rendered) ∧
      ∀ target,
        StopsOn Fault.OtherThanText (Updater.check ⟨notice, config⟩ target) ∧
        StopsOn Fault.OtherThanText (Updater.update ⟨notice, config⟩ target) := by
  obtain ⟨charset, hspells⟩ := Updater.spells_of_loadNotice h
  exact ⟨charset, hspells.named, hspells.exists_encode_revise,
    fun target => ⟨hspells.stopsOn_check target, hspells.stopsOn_update target⟩⟩

/-- A notice that is kept in Latin-1 and holds a character that is not one of ASCII. -/
def latinFiles : FileSystem :=
  (FileSystem.empty ["work"]).put ["work", "COPYRIGHT"]
    (.file 0o644 [0x2F, 0x2A, 0x0A, 0xA9, 0x0A, 0x2A, 0x2F, 0x0A])

/-- The settings for files in Latin-1. -/
def latinConfig : Config := { charsetName := "latin-1" }

theorem latin_notice_never_stops_on_text :
    (exec (loadNotice latinConfig.noticeFile latinConfig.charsetName) ⟨latinFiles, []⟩).1 =
        .ok ⟨["/*", "©", "*/"]⟩ ∧
      ∃ charset, Charset.ofName? latinConfig.charsetName = some charset ∧
        (∀ source content, ∃ rendered, charset.encode
          (revise (Notice.toLines ⟨["/*", "©", "*/"]⟩) source
            (charset.decode content).unifyLineEnds.lines).render = .ok rendered) ∧
        ∀ target,
          StopsOn Fault.OtherThanText (Updater.check ⟨⟨["/*", "©", "*/"]⟩, latinConfig⟩ target) ∧
          StopsOn Fault.OtherThanText (Updater.update ⟨⟨["/*", "©", "*/"]⟩, latinConfig⟩ target) := by
  have hloaded : (exec (loadNotice latinConfig.noticeFile latinConfig.charsetName)
      ⟨latinFiles, []⟩).1 = .ok ⟨["/*", "©", "*/"]⟩ := by decide +kernel
  exact ⟨hloaded, loaded_notice_never_stops_on_text hloaded⟩

end Letterhead
