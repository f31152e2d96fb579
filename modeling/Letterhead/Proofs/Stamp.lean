import Mathlib.Data.List.Basic
import Letterhead.Proofs.Encoding.Lines
import Letterhead.Stamp

/-!
# What a reproducible identifier is made of

The identifier of a reproducible run is a digest of bytes, and these bytes tell the whole request. They
are cut at the zero bytes: what lies behind the last of these are the lines, and all before it are the
paths. The lines are then cut at the line feeds. Neither counts nor lengths are needed for this, since
no path holds the zero character, and no line holds it or a line feed. So requests that differ share an
identifier only where the digests of different bytes begin alike.

## Main definitions

* `RequestedPath` — a path as it is handed over, by a string or as it is

## Main results

* `splitOn_flatMap_concat` — pieces with a mark behind each are found again
* `Stamp.decodeBody_utf8` — a string is read back from its bytes
* `Stamp.material_determines_request` — the bytes tell the paths and the lines
-/

namespace Letterhead

/-! ### Pieces with a mark behind each -/

/-- Pieces with a mark behind each, and what follows them, are what lies between the marks. -/
theorem splitOn_flatMap_concat {α : Type} [BEq α] [LawfulBEq α] {mark : α} {pieces : List (List α)}
    {rest : List α} (h : ∀ piece ∈ pieces, mark ∉ piece) (hrest : mark ∉ rest) :
    (pieces.flatMap (· ++ [mark]) ++ rest).splitOn mark = pieces ++ [rest] := by
  induction pieces with
  | nil => exact List.splitOn_eq_singleton hrest
  | cons piece more ih =>
    obtain ⟨hpiece, hmore⟩ := List.forall_mem_cons.mp h
    rw [List.flatMap_cons, List.append_assoc, List.append_assoc, List.singleton_append,
      List.splitOn_append_cons_self_of_not_mem hpiece, ih hmore, List.cons_append]

/-- What lies between pieces does not matter for a member that is none of it. -/
theorem mem_intercalate_iff {α : Type} {a : α} {between : List α} (h : a ∉ between)
    (pieces : List (List α)) :
    a ∈ between.intercalate pieces ↔ ∃ piece ∈ pieces, a ∈ piece := by
  induction pieces with
  | nil => simp
  | cons piece more ih =>
    cases more with
    | nil => simp
    | cons next more =>
      rw [List.intercalate_cons_cons, List.mem_append, List.mem_append, ih]
      simp [h]

/-! ### Characters that no path may hold -/

namespace Path

theorem hasNul_iff {p : Path} : p.hasNul = true ↔ ∃ name ∈ p.names, '\x00' ∈ name.toList := by
  simp [hasNul]

/-- What a path is written with besides its names is no character that a name cannot have. -/
theorem mem_toString_iff {p : Path} : '\x00' ∈ p.toString.toList ↔ p.hasNul = true := by
  rw [hasNul_iff, toString]
  split
  · rename_i hdot
    simp [hdot.2]
  · have hanchor : '\x00' ∉ p.anchor.text.toList := by cases p.anchor <;> decide
    rw [String.toList_append, List.mem_append, String.toList_intercalate,
      mem_intercalate_iff (by decide)]
    simp [hanchor]

/-- A string holds such a character if its path does. -/
theorem hasNul_parse (s : String) : (parse s).hasNul = s.toList.contains '\x00' := by
  have hpieces : ['/'].intercalate (s.toList.splitOn '/') = s.toList := List.intercalate_splitOn '/'
  have hnot : '\x00' ∉ ['/'] := by decide
  rw [Bool.eq_iff_iff, hasNul_iff, List.contains_iff_mem, ← hpieces, mem_intercalate_iff hnot, parse,
    slashPieces]
  constructor
  · rintro ⟨name, hname, hmem⟩
    obtain ⟨piece, hpiece, rfl⟩ := List.mem_map.mp (List.mem_filter.mp hname).1
    exact ⟨piece, hpiece, by rwa [String.toList_ofList] at hmem⟩
  · rintro ⟨piece, hpiece, hmem⟩
    have htext : '\x00' ∈ (String.ofList piece).toList := by rwa [String.toList_ofList]
    -- The pieces that are left out, empty ones and single dots, have no such character.
    have hkept : (String.ofList piece != "" && String.ofList piece != ".") = true := by
      rw [Bool.and_eq_true, bne_iff_ne, bne_iff_ne]
      constructor <;> intro heq <;> rw [heq] at htext <;> revert htext <;> decide
    exact ⟨_, List.mem_filter.mpr ⟨List.mem_map_of_mem hpiece, hkept⟩, htext⟩

end Path

/-- A path as it is requested: by a string, or as it is. -/
inductive RequestedPath
  | text (s : String)
  | path (p : Path)

namespace RequestedPath

/-- The path that is requested. -/
def toPath : RequestedPath → Path
  | text s => Path.parse s
  | path p => p

/-- Whether a path that is requested holds a character that no name can have. -/
def hasNul : RequestedPath → Bool
  | text s => s.toList.contains '\x00'
  | path p => p.hasNul

theorem hasNul_toPath (requested : RequestedPath) : requested.toPath.hasNul = requested.hasNul := by
  cases requested with
  | text s => exact Path.hasNul_parse s
  | path p => rfl

end RequestedPath

namespace Stamp

/-! ### The bytes of a string -/

theorem spell?_utf8 (s : String) : Charset.utf8.spell? (Text.ofString s) = some (utf8 s) := by
  rw [Text.ofString, utf8]
  induction s.toList with
  | nil => rfl
  | cons c cs ih => exact Charset.spell?_cons (Charset.bytesOfLenient?_scalar .utf8 c) ih

theorem decodeBody_utf8 (s : String) : Charset.utf8.decodeBody (utf8 s) = Text.ofString s :=
  Charset.decodeBody_spell (spell?_utf8 s)

theorem utf8_injective : Function.Injective utf8 := by
  intro s s' h
  refine Text.ofString_injective ?_
  rw [← decodeBody_utf8, ← decodeBody_utf8, h]

/-- A byte of ASCII stands for its character alone. -/
theorem not_mem_utf8 {byte : UInt8} (hbyte : byte.toNat < 0x80) {s : String}
    (h : Char.ofNat byte.toNat ∉ s.toList) : byte ∉ utf8 s := by
  intro hmem
  have hread := Charset.utf8.ascii_mem_decodeBody hbyte hmem
  rw [decodeBody_utf8, Text.ofString] at hread
  exact h (by simpa using hread)

/-! ### Cutting the bytes -/

variable {paths paths' : List Path} {lines lines' : List String}

/-- The bytes of the lines, each ended by a line feed. -/
def lineMaterial (lines : List String) : List UInt8 := lines.flatMap fun line => utf8 line ++ [0x0A]

/-- The bytes are cut at the zero bytes into the paths, and all lines together. -/
theorem splitOn_material (hpaths : ∀ path ∈ paths, path.hasNul = false)
    (hlines : ∀ line ∈ lines, '\x00' ∉ line.toList) :
    (material paths lines).splitOn 0x00 =
      paths.map (fun path => utf8 path.toString) ++ [lineMaterial lines] := by
  have hpieces : ∀ piece ∈ paths.map (fun path => utf8 path.toString), 0x00 ∉ piece := by
    intro piece hpiece
    obtain ⟨path, hpath, rfl⟩ := List.mem_map.mp hpiece
    refine not_mem_utf8 (by decide) fun hmem => ?_
    exact Bool.false_ne_true ((hpaths path hpath).symm.trans (Path.mem_toString_iff.mp hmem))
  have hrest : 0x00 ∉ lineMaterial lines := by
    intro hmem
    obtain ⟨line, hline, hmem⟩ := List.mem_flatMap.mp hmem
    rcases List.mem_append.mp hmem with hmem | hmem
    · exact not_mem_utf8 (by decide) (hlines line hline) hmem
    · exact absurd hmem (by decide)
  rw [← splitOn_flatMap_concat hpieces hrest, List.flatMap_map]
  rfl

/-- The bytes of the lines are cut at the line feeds. -/
theorem splitOn_lineMaterial (h : ∀ line ∈ lines, '\n' ∉ line.toList) :
    (lineMaterial lines).splitOn 0x0A = lines.map utf8 ++ [[]] := by
  have hpieces : ∀ piece ∈ lines.map utf8, 0x0A ∉ piece := by
    intro piece hpiece
    obtain ⟨line, hline, rfl⟩ := List.mem_map.mp hpiece
    exact not_mem_utf8 (by decide) (h line hline)
  rw [← splitOn_flatMap_concat hpieces List.not_mem_nil, List.flatMap_map, List.append_nil]
  rfl

theorem material_inj (hpaths : ∀ path ∈ paths, path.hasNul = false)
    (hpaths' : ∀ path ∈ paths', path.hasNul = false)
    (hlines : ∀ line ∈ lines, '\x00' ∉ line.toList ∧ '\n' ∉ line.toList)
    (hlines' : ∀ line ∈ lines', '\x00' ∉ line.toList ∧ '\n' ∉ line.toList)
    (h : material paths lines = material paths' lines') :
    paths.map Path.toString = paths'.map Path.toString ∧ lines = lines' := by
  have hsplit := congrArg (List.splitOn 0x00) h
  rw [splitOn_material hpaths fun line hline => (hlines line hline).1,
    splitOn_material hpaths' fun line hline => (hlines' line hline).1] at hsplit
  obtain ⟨hfront, hlast⟩ := List.append_inj' hsplit rfl
  have hfeeds := congrArg (List.splitOn 0x0A) (List.singleton_inj.mp hlast)
  rw [splitOn_lineMaterial fun line hline => (hlines line hline).2,
    splitOn_lineMaterial fun line hline => (hlines' line hline).2] at hfeeds
  have hmap : Function.Injective (List.map utf8) := List.map_injective_iff.mpr utf8_injective
  refine ⟨hmap ?_, hmap (List.append_cancel_right hfeeds)⟩
  simpa only [List.map_map, Function.comp_def] using hfront

theorem digits_of_reproducibleId (h : reproducibleId paths lines = reproducibleId paths' lines') :
    (Sha256.hexDigest (material paths lines)).toList.take 12 =
      (Sha256.hexDigest (material paths' lines')).toList.take 12 := by
  rw [reproducibleId, reproducibleId, String.append_right_inj] at h
  exact String.ofList_injective h

/-- The bytes of an identifier tell the request, as long as no path holds the zero character, and no
line holds it or a line feed. So two requests that share an identifier are the same, or they are a
collision of the digests, as far as these are taken. -/
theorem material_determines_request {paths paths' : List RequestedPath} {lines lines' : List String}
    (hpaths : ∀ path ∈ paths ++ paths', path.hasNul = false)
    (hlines : ∀ line ∈ lines ++ lines', '\x00' ∉ line.toList ∧ '\n' ∉ line.toList) :
    (material (paths.map (·.toPath)) lines = material (paths'.map (·.toPath)) lines' ↔
      paths.map (·.toPath.toString) = paths'.map (·.toPath.toString) ∧ lines = lines') ∧
    (reproducibleId (paths.map (·.toPath)) lines = reproducibleId (paths'.map (·.toPath)) lines' →
      paths.map (·.toPath.toString) = paths'.map (·.toPath.toString) ∧ lines = lines' ∨
      material (paths.map (·.toPath)) lines ≠ material (paths'.map (·.toPath)) lines' ∧
        (Sha256.hexDigest (material (paths.map (·.toPath)) lines)).toList.take 12 =
          (Sha256.hexDigest (material (paths'.map (·.toPath)) lines')).toList.take 12) := by
  obtain ⟨hp, hp'⟩ := List.forall_mem_append.mp hpaths
  obtain ⟨hl, hl'⟩ := List.forall_mem_append.mp hlines
  have hnul : ∀ paths : List RequestedPath, (∀ path ∈ paths, path.hasNul = false) →
      ∀ path ∈ paths.map (·.toPath), path.hasNul = false := by
    intro paths h path hpath
    obtain ⟨requested, hrequested, rfl⟩ := List.mem_map.mp hpath
    rw [requested.hasNul_toPath, h requested hrequested]
  have hmaterial : material (paths.map (·.toPath)) lines = material (paths'.map (·.toPath)) lines' ↔
      paths.map (·.toPath.toString) = paths'.map (·.toPath.toString) ∧ lines = lines' := by
    constructor
    · intro h
      simpa only [List.map_map, Function.comp_def] using
        material_inj (hnul paths hp) (hnul paths' hp') hl hl' h
    · rintro ⟨htexts, rfl⟩
      have hbytes : ∀ paths : List RequestedPath, material (paths.map (·.toPath)) lines =
          (paths.map (·.toPath.toString)).flatMap (fun text => utf8 text ++ [0x00]) ++
            lineMaterial lines := by
        intro paths
        rw [material, List.flatMap_map, List.flatMap_map, lineMaterial]
      rw [hbytes, hbytes, htexts]
  refine ⟨hmaterial, fun h => ?_⟩
  by_cases hsame : material (paths.map (·.toPath)) lines = material (paths'.map (·.toPath)) lines'
  · exact Or.inl (hmaterial.mp hsame)
  · exact Or.inr ⟨hsame, digits_of_reproducibleId h⟩

/-- A line feed in a path is not taken for the end of a line. -/
theorem material_determines_request_lineFeed :
    (∀ path ∈ [RequestedPath.text "a\nb"] ++ [RequestedPath.path ⟨.relative, ["a"]⟩],
      path.hasNul = false) ∧
    (∀ line ∈ [] ++ ["", "b"], '\x00' ∉ line.toList ∧ '\n' ∉ line.toList) ∧
    material [Path.parse "a\nb"] [] ≠ material [⟨.relative, ["a"]⟩] ["", "b"] := by
  have hpaths : ∀ path ∈ [RequestedPath.text "a\nb"] ++ [RequestedPath.path ⟨.relative, ["a"]⟩],
      path.hasNul = false := by decide
  have hlines : ∀ line ∈ [] ++ ["", "b"], '\x00' ∉ line.toList ∧ '\n' ∉ line.toList := by decide
  refine ⟨hpaths, hlines, fun h => ?_⟩
  obtain ⟨-, hsame⟩ := (material_determines_request hpaths hlines).1.mp h
  cases hsame

end Stamp

end Letterhead
