import Letterhead.Discovery
import Letterhead.Proofs.FileSystem.Home
import Letterhead.Proofs.FileSystem.Shape
import Letterhead.Proofs.Text.Affix

/-!
# Names in a tree

In a tree as a system has it, every name is one that a node can have. So the paths that a batch
comes to have proper names, and a backup can be named beside each of them. A look-up of such a path
can fail because nothing is there, or it is barred: by a name or a path that is too long, or by a
directory that may not be searched.

## Main definitions

* `Path.Proper` — a path of proper names
* `Problem.Bars`, `FileSystem.Barred` — where it stays open what a path denotes
* `FileSystem.IsTree` — a file system as a system has it

## Main results

* `Path.Proper.exists_backup` — the name of a backup
* `FileSystem.test_eq_error_iff` — when a question about a path has no answer
-/

namespace Letterhead

namespace Path

/-- A path whose names are proper: none is empty or a single dot, and none is cut at a slash. -/
def Proper (p : Path) : Prop :=
  ∀ name ∈ p.names, name ≠ "" ∧ name ≠ "." ∧ '/' ∉ name.toList

theorem proper_parse (s : String) : (parse s).Proper := by
  intro name hname
  obtain ⟨hpiece, hkept⟩ := List.mem_filter.mp hname
  rw [Bool.and_eq_true, bne_iff_ne, bne_iff_ne] at hkept
  exact ⟨hkept.1, hkept.2, FileSystem.no_slash_of_mem_slashPieces hpiece⟩

theorem parse_of_proper {name : String} (hempty : name ≠ "") (hdot : name ≠ ".")
    (hslash : '/' ∉ name.toList) : parse name = ⟨.relative, [name]⟩ := by
  rw [parse, FileSystem.slashPieces_of_no_slash hslash]
  have hanchor : anchorOf name.toList = .relative := by
    unfold anchorOf
    split
    · rename_i h; rw [h] at hslash; simp at hslash
    · rename_i h; rw [h] at hslash; simp at hslash
    · rename_i h; rw [h] at hslash; simp at hslash
    · rfl
  simp [hanchor, hempty, hdot]

theorem isSingleName_of_proper {name : String} (hempty : name ≠ "") (hdot : name ≠ ".")
    (hslash : '/' ∉ name.toList) : isSingleName name = true := by
  have hlast : name.toList.getLast? ≠ some '/' := fun h => hslash (List.mem_of_getLast? h)
  simp [isSingleName, parse_of_proper hempty hdot hslash, hempty, hlast]

/-- A path with a proper last name has a backup beside it, if what is added is part of a name. -/
theorem Proper.exists_backup {p : Path} (h : p.Proper) (hnames : p.names ≠ [])
    (hnul : p.hasNul = false) {suffix : String} (hslash : '/' ∉ suffix.toList)
    (hsuffix : '\x00' ∉ suffix.toList) :
    ∃ backup, p.backup suffix = .ok backup ∧ backup.hasNul = false := by
  obtain ⟨front, last, hlast⟩ := (List.eq_nil_or_concat p.names).resolve_left hnames
  have hname : p.name = last := by simp [Path.name, hlast]
  obtain ⟨hempty, hdot, hnoslash⟩ := h last (by simp [hlast])
  have hsingle : isSingleName (last ++ suffix) = true := by
    refine isSingleName_of_proper ?_ ?_ ?_
    · simp [String.append_eq_empty_iff, hempty]
    · -- A dot alone would be the name already.
      intro hjoined
      have hchars : last.toList ++ suffix.toList = ['.'] := by
        rw [← String.toList_append, hjoined]
        rfl
      rcases List.append_eq_singleton_iff.mp hchars with ⟨hnil, -⟩ | ⟨hchar, -⟩
      · exact hempty (String.toList_eq_nil_iff.mp hnil)
      · exact hdot (String.toList_inj.mp hchar)
    · simp [hnoslash, hslash]
  refine ⟨{ p with names := front ++ [last ++ suffix] }, ?_, ?_⟩
  · rw [backup, withName, hname, if_neg hempty, if_pos hsingle, hlast]
    simp
  · rw [hasNul, hlast, List.concat_eq_append] at hnul
    rw [hasNul]
    simpa [hsuffix] using hnul

end Path

/-- The problems that leave it open what a path denotes: a name or the whole path is too long for the
system, or a directory on the way may not be searched. -/
def Problem.Bars (problem : Problem) : Prop :=
  problem = .nameTooLong ∨ problem = .permissionDenied

instance : DecidablePred Problem.Bars := fun _ => inferInstanceAs (Decidable (_ ∨ _))

theorem Problem.Bars.meansAbsent {problem : Problem} (h : problem.Bars) :
    problem.meansAbsent = false := by
  rcases h with rfl | rfl <;> rfl

namespace FileSystem

variable {fs fs' : FileSystem} {aim : Aim} {path : Path}

/-! ### Trees -/

/-- A file system as a system has it: the working directory is a directory that is reached from the
root, and every name in the tree is one that a node can have. -/
structure IsTree (fs : FileSystem) : Prop where
  homeReached : fs.HomeReached
  home : fs.has Node.isDirectory fs.workingDirectory
  names : ∀ place ∈ fs.nodes.keys, ∀ name ∈ place, IsName name ∧ '\x00' ∉ name.toList

/-- For a tree that is given, what a name may be is a matter of evaluation. -/
theorem HomeReached.isTree (h : fs.HomeReached) (hhome : fs.has Node.isDirectory fs.workingDirectory)
    (hnames : ∀ place ∈ fs.nodes.keys, ∀ name ∈ place,
      (name ≠ "" ∧ name ≠ "." ∧ name ≠ ".." ∧ '/' ∉ name.toList) ∧ '\x00' ∉ name.toList) :
    fs.IsTree where
  homeReached := h
  home := hhome
  names place hplace name hname := by
    obtain ⟨⟨hempty, hdot, hdots, hslash⟩, hnul⟩ := hnames place hplace name hname
    exact ⟨⟨hempty, hdot, hdots, hslash⟩, hnul⟩

theorem SameShape.isTree (h : SameShape fs fs') (htree : fs.IsTree) : fs'.IsTree where
  homeReached := h.homeReached htree.homeReached
  home := by
    rw [h.workingDirectory]
    exact h.agree.isDirectory htree.home
  names := by
    have hkeys : fs'.nodes.keys = fs.nodes.keys := by
      have hhollow : fs'.hollow.nodes.keys = fs.hollow.nodes.keys := by rw [h]
      rwa [hollow, hollow, Std.ExtTreeMap.keys_map, Std.ExtTreeMap.keys_map] at hhollow
    rw [hkeys]
    exact htree.names

/-- A tree in which a node has been put, under a name that a node can have, where no directory
was. -/
theorem IsTree.put (htree : fs.IsTree) {place : Location} (hdir : ¬ fs.has Node.isDirectory place)
    (hnames : ∀ name ∈ place, IsName name ∧ '\x00' ∉ name.toList) (node : Node) :
    (fs.put place node).IsTree where
  homeReached := htree.homeReached.put hdir node
  home := has_put hdir node id htree.home
  names other hother name hname := by
    rw [FileSystem.put, Std.ExtTreeMap.mem_keys, Std.ExtTreeMap.mem_insert] at hother
    rcases hother with heq | hother
    · rw [← Std.LawfulEqCmp.eq_of_compare heq] at hname
      exact hnames name hname
    · exact htree.names other (Std.ExtTreeMap.mem_keys.mpr hother) name hname

/-- The names of a node are proper. -/
theorem IsTree.names_of_node? (htree : fs.IsTree) {place : Location} {node : Node}
    (h : fs.node? place = some node) : ∀ name ∈ place, IsName name ∧ '\x00' ∉ name.toList := by
  cases place with
  | nil => exact fun name hname => absurd hname List.not_mem_nil
  | cons first rest =>
    refine htree.names _ ?_
    rw [node?_of_ne_nil _ (List.cons_ne_nil _ _)] at h
    rw [Std.ExtTreeMap.mem_keys, Std.ExtTreeMap.mem_iff_isSome_getElem?, h]
    rfl

/-- A location is listed below a directory by the names that lead on from there. -/
theorem listed_eq_some_iff {place other : Location} {names : List String} :
    (match place.isPrefixOf? other with
      | some path => if path ≠ [] ∧ fs.lists place path then some path else none
      | none => none) = some names ↔
      other = place ++ names ∧ names ≠ [] ∧ fs.lists place names = true := by
  constructor
  · intro h
    split at h
    · rename_i hprefix
      split at h
      · rename_i hpath
        obtain rfl := Option.some.inj h
        exact ⟨isPrefixOf?_eq_some_iff.mp hprefix, hpath⟩
      · cases h
    · cases h
  · rintro ⟨rfl, hpath⟩
    rw [isPrefixOf?_eq_some_iff.mpr rfl]
    exact if_pos hpath

/-- What is listed below a directory has proper names. -/
theorem IsTree.names_of_mem_entriesBelow (htree : fs.IsTree) {place : Location}
    {names : List String} (h : names ∈ fs.entriesBelow place) : ∀ name ∈ names, IsName name := by
  obtain ⟨other, hother, hnames⟩ := List.mem_filterMap.mp h
  obtain ⟨rfl, -⟩ := listed_eq_some_iff.mp hnames
  exact fun name hname => (htree.names _ hother name (List.mem_append_right _ hname)).1

/-! ### Problems of a look-up -/

/-- Unless a file is to be made, what keeps a walk from coming to a place is that nothing is there,
that a name is too long, or that a directory may not be searched. -/
theorem walk_eq_error {expand : Location → List String → Except Problem Location}
    (hexpand : ∀ here names problem, expand here names = .error problem →
      problem.meansAbsent ∨ problem.Bars)
    (haim : aim ≠ .file) (names : List String) :
    ∀ here problem, fs.walk aim expand here names = .error problem →
      problem.meansAbsent ∨ problem.Bars := by
  induction names with
  | nil =>
    intro here problem h
    rw [walk] at h
    cases h
  | cons name rest ih =>
    intro here problem h
    rw [walk] at h
    split at h
    · cases h
      exact Or.inl rfl
    split at h
    · exact ih _ _ h
    split at h
    · cases h
      exact Or.inr (Or.inr rfl)
    split at h
    · exact ih _ _ h
    split at h
    · exact ih _ _ h
    split at h
    · rename_i hfile
      exact absurd hfile.1 haim
    split at h
    · cases h
      exact Or.inr (Or.inl rfl)
    split at h
    · split at h
      · cases h
      · exact hexpand _ _ _ h
    · exact ih _ _ h
    · split at h
      · cases h
      · cases h
        exact Or.inl rfl

theorem locate_eq_error (haim : aim ≠ .file) {problem : Problem}
    (h : fs.locate aim path = .error problem) :
    problem.meansAbsent ∨ problem.Bars := by
  have hfollow : ∀ links here names problem, fs.follow aim links here names = .error problem →
      problem.meansAbsent ∨ problem.Bars := by
    intro links
    induction links with
    | zero =>
      refine fun here names => walk_eq_error (fun _ _ _ h => ?_) haim names here
      cases h
      exact Or.inl rfl
    | succ links ih => exact fun here names => walk_eq_error ih haim names here
  rw [locate] at h
  split at h
  · cases h
    exact Or.inr (Or.inl rfl)
  · exact hfollow _ _ _ _ h

/-- The look-up of a path is barred, so that it stays open what the path denotes. -/
def Barred (fs : FileSystem) (path : Path) : Prop :=
  ∃ problem : Problem, problem.Bars ∧ fs.locate .target path = .error problem

/-- A question about a path has no answer just where its look-up is barred. -/
theorem test_eq_error_iff (haim : aim ≠ .file) {sort : Node → Bool} {problem : Problem} :
    fs.test aim sort path = .error problem ↔
      path.hasNul = false ∧ fs.locate aim path = .error problem ∧ problem.Bars := by
  rw [test, find]
  cases hnul : path.hasNul with
  | true => simp
  | false =>
    cases hlocate : fs.locate aim path with
    | ok place => cases hnode : fs.node? place <;> simp [hnode, Problem.meansAbsent]
    | error found =>
      rcases locate_eq_error haim hlocate with habsent | hbars
      · have hne : found = problem → ¬ problem.Bars := by
          rintro rfl hbars
          rw [hbars.meansAbsent] at habsent
          cases habsent
        simpa [habsent] using hne
      · simp only [hbars.meansAbsent, Bool.false_eq_true, if_false, Except.error.injEq, true_and]
        exact (and_iff_left_of_imp fun heq => heq ▸ hbars).symm

/-- The answer to a question about a path is yes just where the path denotes such a node. -/
theorem test_eq_true_iff {sort : Node → Bool} : fs.test aim sort path = .ok true ↔
    path.hasNul = false ∧ ∃ place node, fs.find aim path = .ok (place, node) ∧ sort node = true := by
  rw [test]
  cases path.hasNul with
  | true => simp
  | false =>
    cases fs.find aim path with
    | ok found =>
      obtain ⟨place, node⟩ := found
      simp [and_assoc]
    | error problem => cases habsent : problem.meansAbsent <;> simp [habsent]

theorem isDirectory_eq_error_iff {problem : Problem} : fs.isDirectory path = .error problem ↔
    path.hasNul = false ∧ fs.locate .target path = .error problem ∧ problem.Bars :=
  test_eq_error_iff (by decide)

theorem isDirectory_eq_true_iff : fs.isDirectory path = .ok true ↔
    path.hasNul = false ∧ ∃ place mode, fs.find .target path = .ok (place, .directory mode) := by
  rw [isDirectory, test_eq_true_iff]
  refine and_congr_right fun _ => exists_congr fun place => ⟨?_, ?_⟩
  · rintro ⟨node, hfind, hnode⟩
    cases node with
    | directory mode => exact ⟨mode, hfind⟩
    | file | link => cases hnode
  · rintro ⟨mode, hfind⟩
    exact ⟨_, hfind, rfl⟩

/-! ### Files that can be read -/

theorem isReadable_eq_true_iff : fs.isReadable path = true ↔
    path.hasNul = false ∧ ∃ place node, fs.find .target path = .ok (place, node) ∧
      node.isReadableFile = true := by
  rw [← test_eq_true_iff, isReadable]
  cases fs.test .target Node.isReadableFile path <;> simp

theorem isPlainFile_eq_true_iff : fs.isPlainFile path = true ↔
    fs.isLink path = .ok false ∧ fs.isFile path = .ok true := by
  rw [isPlainFile]
  split
  · rename_i found hlink hfile
    simp [hlink, hfile]
  · rename_i hother
    simpa using fun hlink hfile => hother true hlink hfile

theorem Leads.eq_of_dot {links : Nat} {here place : Location}
    (h : Leads fs aim links here ["."] place) : place = here := by
  generalize hnames : ["."] = names at h
  cases h with
  | done => cases hnames
  | stay _ _ hrest =>
    cases hnames
    cases hrest
    rfl
  | up => simp at hnames
  | enter henters | follow henters | stop henters | absent henters =>
    cases hnames
    exact absurd rfl henters.ne_dot

/-- A path without names, which is written as a dot or as the root, leads to where it starts. -/
theorem locate_of_names_nil (hnames : path.names = []) {place : Location}
    (h : fs.locate aim path = .ok place) : place = fs.startOf path := by
  obtain ⟨-, hleads⟩ := locate_eq_ok_iff.mp h
  rw [Path.steps, hnames, List.flatMap_nil] at hleads
  split at hleads
  · exact hleads.eq_of_dot
  · cases hleads
    rfl

/-- A path without names denotes a directory, and so no file. -/
theorem IsTree.names_ne_nil (htree : fs.IsTree) (h : fs.isReadable path = true) :
    path.names ≠ [] := by
  intro hnames
  obtain ⟨-, place, node, hfind, hnode⟩ := isReadable_eq_true_iff.mp h
  obtain ⟨hlocate, hplace⟩ := find_eq_ok_iff.mp hfind
  obtain rfl := locate_of_names_nil hnames hlocate
  have hdir : fs.has Node.isDirectory (fs.startOf path) := by
    rw [startOf]
    split
    · exact htree.home
    · rfl
  rw [has_of_node? hplace] at hdir
  cases node with
  | directory => cases hnode
  | file | link => cases hdir

end FileSystem

/-! ### Names that are too long -/

/-- A name of so many letters. -/
def letters (count : Nat) : String := String.ofList (List.replicate count 'a')

theorem utf8ByteSize_letters (count : Nat) : (letters count).utf8ByteSize = count := by
  induction count with
  | zero => rfl
  | succ count ih =>
    have hletter : ('a').utf8Size = 1 := by decide
    rw [letters, List.replicate_succ, String.ofList_cons, String.utf8ByteSize_append, ← letters, ih,
      String.utf8ByteSize_singleton, hletter, Nat.add_comm]

theorem not_mem_letters {c : Char} (hne : c ≠ 'a') (count : Nat) : c ∉ (letters count).toList := by
  rw [letters, String.toList_ofList]
  exact fun h => hne (List.eq_of_mem_replicate h)

theorem ne_of_long {name short : String} (hlong : FileSystem.nameLimit < name.utf8ByteSize)
    (hshort : short.utf8ByteSize ≤ FileSystem.nameLimit) : name ≠ short := by
  rintro rfl
  omega

/-- A link to a name that no system takes is not followed. -/
theorem FileSystem.locate_link_of_long {fs : FileSystem} {name target : String}
    (hhome : fs.has Node.isSearchable fs.workingDirectory) (hname : IsName name)
    (hfits : name.utf8ByteSize ≤ nameLimit)
    (hlink : fs.node? (fs.workingDirectory ++ [name]) = some (.link target))
    (hlong : nameLimit < target.utf8ByteSize) (hslash : '/' ∉ target.toList) :
    fs.locate .target ⟨.relative, [name]⟩ = .error .nameTooLong := by
  have hsteps : (⟨.relative, [name]⟩ : Path).steps = [name] := by
    rw [Path.steps_of_names (List.cons_ne_nil _ _), List.flatMap_singleton,
      slashPieces_of_no_slash hname.no_slash]
  have hroom : ¬ pathLimit ≤ (⟨.relative, [name]⟩ : Path).toString.utf8ByteSize := by
    have htext : (⟨.relative, [name]⟩ : Path).toString = name := by
      simp [Path.toString, Anchor.text]
    have hlimits : nameLimit < pathLimit := by decide
    rw [htext]
    omega
  have henters : fs.Enters .target fs.workingDirectory name [] :=
    ⟨hhome, hname.ne_empty, hname.ne_dot, hname.ne_dots, by simp, hfits⟩
  have hstart : fs.has Node.isSearchable (linkStart fs.workingDirectory target) := by
    rw [linkStart]
    split
    · exact hhome
    · rfl
  have hne {short : String} (hshort : short.utf8ByteSize ≤ nameLimit) : target ≠ short :=
    ne_of_long hlong hshort
  -- The walk comes to the link, and from there to the long name.
  rw [locate, if_neg hroom, if_pos rfl, hsteps, follow_eq_walk, henters.walk_eq, hlink]
  change fs.follow .target (linkLimit - 1) (linkStart fs.workingDirectory target)
    (slashPieces target ++ []) = _
  rw [slashPieces_of_no_slash hslash, follow_eq_walk, List.append_nil, walk,
    if_neg (not_not_intro (has_mono Node.isDirectory_of_isSearchable hstart)),
    if_neg (hne (by decide)), if_neg (not_not_intro hstart), if_neg (hne (by decide)),
    if_neg (hne (by decide)), if_neg (by simp), if_pos hlong]

end Letterhead
