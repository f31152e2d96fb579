import Letterhead.Proofs.Update.ReadBack

/-!
# The bytes that an update keeps

An update works on text, and yet what it does can be said of the bytes of the file alone. The bytes
are cut into lines, some lines are left out, the bytes of the notice are put in, and every line that
is kept is kept byte for byte, even where its bytes are no characters. Only what a line is read as
decides what becomes of it.

## Main definitions

* `Spliced` — how the byte lines of a file become those of the updated file

## Main results

* `exists_spliced` — what the scanner does to the lines of a file, done to its byte lines
* `Updater.update_splices` — the bytes of an updated file
-/

namespace Letterhead

variable {charset : Charset} {header old new : List (List UInt8)}

/-- How the byte lines of a file become those of the updated file, when `header` is the notice in
bytes. The new lines are lines of the file, in their order, lines of the notice and at most one
empty line. -/
inductive Spliced (charset : Charset) (header : List (List UInt8)) :
    List (List UInt8) → List (List UInt8) → Prop
  /-- A file of blank lines loses them. -/
  | blank {blanks : List (List UInt8)}
      (hblanks : ∀ line ∈ blanks, (charset.decodeBody line).isBlank) :
      Spliced charset header blanks []
  /-- The notice and an empty line are put above a package line, in place of blank lines. -/
  | package {blanks rest : List (List UInt8)} {line : List UInt8}
      (hblanks : ∀ line ∈ blanks, (charset.decodeBody line).isBlank)
      (hpackage : Pattern.packageLine.accepts (charset.decodeBody line)) :
      Spliced charset header (blanks ++ line :: rest) (header ++ [] :: line :: rest)
  /-- The notice takes the place of a header comment. Statements inside the comment stay above it.
  -/
  | header {blanks body rest : List (List UInt8)} {opener closer : List UInt8}
      (hblanks : ∀ line ∈ blanks, (charset.decodeBody line).isBlank)
      (hheader : IsHeader (charset.decodeBody opener) (body.map charset.decodeBody)
        (charset.decodeBody closer)) :
      Spliced charset header (blanks ++ opener :: (body ++ closer :: rest))
        (body.filter (fun line => (charset.decodeBody line).isStatement) ++ (header ++ rest))
  /-- Blank lines are left out above any other line. -/
  | foreign {blanks rest : List (List UInt8)} {line : List UInt8}
      (hblanks : ∀ line ∈ blanks, (charset.decodeBody line).isBlank)
      (hline : (charset.decodeBody line).isBlank = false)
      (hopen : Pattern.commentOpen.accepts (charset.decodeBody line) = false)
      (hpackage : Pattern.packageLine.accepts (charset.decodeBody line) = false) :
      Spliced charset header (blanks ++ line :: rest) (line :: rest)

/-- What the scanner does to the lines of a file that it changes can be done to the byte lines. -/
theorem exists_spliced (charset : Charset) (header old : List (List UInt8)) (source : String)
    (hchanged : (revise (header.map charset.decodeBody) source
      (old.map charset.decodeBody)).changed = true) :
    ∃ new, Spliced charset header old new ∧
      (revise (header.map charset.decodeBody) source (old.map charset.decodeBody)).lines =
        new.map charset.decodeBody := by
  generalize hlines : old.map charset.decodeBody = lines at hchanged ⊢
  -- The byte lines fall into the same parts as the lines that they are read as.
  cases region lines with
  | blank hblanks =>
    subst hlines
    refine ⟨[], .blank (List.forall_mem_map.mp hblanks), ?_⟩
    exact (revise_blank hblanks _ source).1
  | package hblanks hpackage =>
    obtain ⟨blanks, _, rfl, rfl, htail⟩ := List.map_eq_append_iff.mp hlines
    obtain ⟨line, rest, rfl, rfl, rfl⟩ := List.map_eq_cons_iff.mp htail
    refine ⟨_, .package (List.forall_mem_map.mp hblanks) hpackage, ?_⟩
    rw [(revise_package hblanks hpackage _ source _).1]
    simp
  | header hblanks hheader =>
    obtain ⟨blanks, _, rfl, rfl, htail⟩ := List.map_eq_append_iff.mp hlines
    obtain ⟨opener, _, rfl, rfl, hafter⟩ := List.map_eq_cons_iff.mp htail
    obtain ⟨body, _, rfl, rfl, hlast⟩ := List.map_eq_append_iff.mp hafter
    obtain ⟨closer, rest, rfl, rfl, rfl⟩ := List.map_eq_cons_iff.mp hlast
    refine ⟨_, .header (List.forall_mem_map.mp hblanks) hheader, ?_⟩
    rw [(revise_header hblanks hheader _ source _).1]
    simp [List.filter_map, Function.comp_def]
  | unclosed hblanks hopen hbody =>
    rw [(revise_unclosed hblanks hopen hbody _ source).2.1] at hchanged
    cases hchanged
  | foreign hblanks hline hopen hpackage =>
    obtain ⟨blanks, _, rfl, rfl, htail⟩ := List.map_eq_append_iff.mp hlines
    obtain ⟨line, rest, rfl, rfl, rfl⟩ := List.map_eq_cons_iff.mp htail
    refine ⟨_, .foreign (List.forall_mem_map.mp hblanks) hline hopen hpackage, ?_⟩
    exact (revise_foreign hblanks hline hopen hpackage _ source _).1

namespace Updater

variable {u : Updater} {path : Path} {i : Inspection}

/-- A file whose revision is put in place has the bytes of the notice and, byte for byte, lines of
its own; each ends with LF. A byte order mark, where the charset has one, stands in front once, and
one that stood there before is not kept. -/
theorem update_splices {bytes : List UInt8} {s s₁ : Session} {outcome : Outcome}
    (hcharset : Charset.ofName? u.config.charsetName = some charset)
    (hencode : charset.encode (Text.unlines u.notice.toLines) = .ok bytes)
    (hhome : s.files.HomeReached) (hscan : Yields (u.inspect path) s.files (.ok i) s.files)
    (hchanged : i.revision.changed) (hupdate : exec (u.update path) s = (.ok outcome, s₁)) :
    ∃ header new,
      List.Forall₂ (fun line own => charset.encode line = .ok (charset.mark ++ own))
          u.notice.toLines header ∧
        Spliced charset header (byteLines (charset.bodyOf i.content)) new ∧
          i.revision.lines = new.map charset.decodeBody ∧
            s₁.files.read path = .ok (charset.mark ++ byteUnlines new) := by
  obtain ⟨header, hread, hwritten⟩ := Notice.exists_header hencode
  obtain ⟨hinspection, -⟩ := hscan.unique (u.yields_inspection path s.files)
  -- Both the notice and the lines of the file are read from bytes, line by line.
  have hrevision := revision_of_inspection hcharset hinspection.symm
  rw [revisionOf, Charset.lines_decode, ← hread] at hrevision
  have hmarked := hchanged
  rw [hrevision] at hmarked
  obtain ⟨new, hspliced, hnew⟩ := exists_spliced charset header _ path.toString hmarked
  rw [← hrevision] at hnew
  refine ⟨header, new, hwritten, hspliced, hnew, ?_⟩
  obtain ⟨target, backup, place, spare, mode, rendered, hready, hrendered⟩ :=
    ready_again hcharset hhome hinspection.symm hupdate
  -- Lines that were read from bytes are written as these bytes.
  rw [Revision.render, hnew] at hrendered
  have hsplice : charset.encode (Text.unlines (new.map charset.decodeBody)) =
      .ok (charset.mark ++ byteUnlines new) :=
    Charset.encode_eq_ok_iff.mpr ⟨_, charset.spell?_unlines new, rfl⟩
  rw [hready.read, newContent, if_pos hchanged, Except.ok.inj (hrendered.symm.trans hsplice)]

/-- A header comment around a statement and a character that breaks off at a CR LF, and below it a
byte that is no character. -/
def strayContent : List UInt8 :=
  "/*\rimport a;".toUTF8.toList ++ [0xC3, 0x0D, 0x0A] ++ "*/\nint ".toUTF8.toList ++ [0xFF, 0x3B]

def strayFiles : FileSystem := sampleFiles.put ["work", "A.java"] (.file 0o640 strayContent)

theorem update_splices_stray :
    ∃ i outcome s₁ header new,
      Yields (sampleUpdater.inspect ⟨.relative, ["A.java"]⟩) strayFiles (.ok i) strayFiles ∧
        i.revision.changed ∧
        exec (sampleUpdater.update ⟨.relative, ["A.java"]⟩) ⟨strayFiles, []⟩ = (.ok outcome, s₁) ∧
        List.Forall₂ (fun line own => Charset.encode .utf8 line = .ok (Charset.mark .utf8 ++ own))
            sampleUpdater.notice.toLines header ∧
          Spliced .utf8 header (byteLines (Charset.bodyOf .utf8 i.content)) new ∧
            i.revision.lines = new.map (Charset.decodeBody .utf8) ∧
              s₁.files.read ⟨.relative, ["A.java"]⟩ =
                .ok (Charset.mark .utf8 ++ byteUnlines new) := by
  have hread : strayFiles.read ⟨.relative, ["A.java"]⟩ = .ok strayContent := by rfl
  have htext : sampleUpdater.textOf strayContent = .ok (Charset.decode .utf8 strayContent) := by
    decide +kernel
  have hscan := yields_inspect rfl hread htext
  have hchanged : (sampleUpdater.revisionOf ⟨.relative, ["A.java"]⟩
      (Charset.decode .utf8 strayContent)).changed := by decide +kernel
  have hencode : ∃ bytes, Charset.encode .utf8 (Text.unlines sampleUpdater.notice.toLines) =
      .ok bytes := ⟨_, rfl⟩
  obtain ⟨bytes, hbytes⟩ := hencode
  have hhome : strayFiles.HomeReached := homeReached_sampleFiles.put (by decide +kernel) _
  have hsome : (exec (sampleUpdater.update ⟨.relative, ["A.java"]⟩)
      ⟨strayFiles, []⟩).1.toOption.isSome := by decide +kernel
  rcases hupdate : exec (sampleUpdater.update ⟨.relative, ["A.java"]⟩) ⟨strayFiles, []⟩ with
    ⟨fault | outcome, s₁⟩
  · rw [hupdate] at hsome
    cases hsome
  · obtain ⟨header, new, hspliced⟩ :=
      update_splices (by decide +kernel) hbytes hhome hscan hchanged hupdate
    exact ⟨_, outcome, s₁, header, new, hscan, hchanged, rfl, hspliced⟩

end Updater

end Letterhead
