import Letterhead.Proofs.FileSystem.Tree

/-!
# Spellings of a path

A relative path can as well be spelt from the root on. Both spellings are looked up alike, for the
names of the working directory lead through directories only, except that one of them may be too
long for the system and the other not, and that a directory above the working directory may not be
searched. A backup beside the one is the backup beside the other.

## Main definitions

* `FileSystem.Passable` — names that can be looked up one after the other
* `FileSystem.Alike` — two paths that are looked up alike

## Main results

* `Path.parse_toString` — a path that is written is read as it was
* `Path.eq_or_absolute` — paths that are the same from the root on are spellings of each other
* `FileSystem.IsTree.alike` — when two spellings of a path are looked up alike
* `FileSystem.IsTree.exists_alike_backup` — when backups beside them are
-/

namespace Letterhead

namespace Path

variable {p q backup : Path} {names : List String} {suffix : String} {home : Location}

/-! ### Reading what was written -/

theorem slashPieces_slash (s : String) : slashPieces ("/" ++ s) = "" :: slashPieces s := by
  have hslash : ("/" ++ s).toList = [] ++ '/' :: s.toList := by
    rw [String.toList_append]
    rfl
  rw [slashPieces, hslash, List.splitOn_append_cons_self_of_not_mem List.not_mem_nil]
  rfl

/-- Proper names that are joined by slashes are the pieces that are kept between the slashes. -/
theorem filter_slashPieces_intercalate
    (h : ∀ name ∈ names, name ≠ "" ∧ name ≠ "." ∧ '/' ∉ name.toList) :
    (slashPieces (String.intercalate "/" names)).filter (fun piece => piece != "" && piece != ".") =
      names := by
  cases names with
  | nil => decide
  | cons first rest =>
    have hpieces : slashPieces (String.intercalate "/" (first :: rest)) = first :: rest := by
      rw [slashPieces, String.toList_intercalate]
      have hslash : "/".toList = ['/'] := by decide
      rw [hslash, List.splitOn_intercalate '/' _ (by simp), List.map_map]
      · simp [Function.comp_def]
      · intro chars hchars
        obtain ⟨name, hname, rfl⟩ := List.mem_map.mp hchars
        exact (h name hname).2.2
    rw [hpieces, List.filter_eq_self]
    intro name hname
    obtain ⟨hempty, hdot, -⟩ := h name hname
    simp [hempty, hdot]

/-- What is written of proper names does not begin with a slash. -/
theorem head?_intercalate (h : ∀ name ∈ names, name ≠ "" ∧ name ≠ "." ∧ '/' ∉ name.toList) :
    (String.intercalate "/" names).toList.head? ≠ some '/' := by
  cases names with
  | nil => decide
  | cons first rest =>
    obtain ⟨hempty, -, hslash⟩ := h first List.mem_cons_self
    obtain ⟨c, cs, hchars⟩ := List.exists_cons_of_ne_nil (mt String.toList_eq_nil_iff.mp hempty)
    have hhead : (String.intercalate "/" (first :: rest)).toList.head? = some c := by
      cases rest with
      | nil => rw [String.intercalate_singleton, hchars]; rfl
      | cons next more =>
        rw [String.intercalate_cons_cons, String.toList_append, String.toList_append, hchars]
        rfl
    rw [hhead]
    rintro heq
    rw [Option.some.inj heq] at hchars
    exact hslash (hchars ▸ List.mem_cons_self)

theorem anchorOf_text_append (anchor : Anchor) {cs : List Char} (h : cs.head? ≠ some '/') :
    anchorOf (anchor.text.toList ++ cs) = anchor := by
  cases cs with
  | nil => cases anchor <;> decide
  | cons c cs =>
    have hc : c ≠ '/' := fun heq => h (by rw [heq]; rfl)
    cases anchor with
    | relative =>
      change anchorOf (c :: cs) = _
      unfold anchorOf
      split <;> simp_all
    | root =>
      change anchorOf ('/' :: c :: cs) = _
      unfold anchorOf
      split <;> simp_all
    | doubleRoot =>
      change anchorOf ('/' :: '/' :: c :: cs) = _
      unfold anchorOf
      split
      · simp_all
      · rfl
      · rename_i tail hne heq
        exact absurd (List.cons.inj heq).2.symm (hne (c :: cs))
      · simp_all

/-- A path of proper names that is written is read as it was. -/
theorem parse_toString (h : p.Proper) : parse p.toString = p := by
  obtain ⟨anchor, names⟩ := p
  rw [toString]
  split
  · -- A path without anchor and names is written as a dot, which is no name.
    rename_i hdot
    obtain ⟨rfl, rfl⟩ := hdot
    decide
  · -- The slashes of the anchor set off empty pieces, which are not kept.
    have hanchor := anchorOf_text_append anchor (head?_intercalate h)
    have hnames := filter_slashPieces_intercalate h
    rw [parse, String.toList_append, hanchor]
    congr 1
    cases anchor with
    | relative => simpa [Anchor.text] using hnames
    | root => simpa [Anchor.text, slashPieces_slash] using hnames
    | doubleRoot =>
      have htext : Anchor.doubleRoot.text = "/" ++ "/" := by decide
      rw [htext, String.append_assoc, slashPieces_slash, slashPieces_slash]
      simpa using hnames

/-! ### The path from the root -/

theorem absolute_of_relative (h : p.anchor = .relative) :
    p.absolute home = ⟨.root, home ++ p.names⟩ := by
  rw [absolute, h]

theorem absolute_of_ne_relative (h : p.anchor ≠ .relative) : p.absolute home = p := by
  rw [absolute]
  cases hanchor : p.anchor with
  | relative => exact absurd hanchor h
  | root | doubleRoot => rfl

/-- Paths that are the same from the root on are equal, unless one of them is relative and the other
is what it is from the root on. -/
theorem eq_or_absolute (h : p.absolute home = q.absolute home) :
    p = q ∨ p.anchor = .relative ∧ q = p.absolute home ∨
      q.anchor = .relative ∧ p = q.absolute home := by
  by_cases hp : p.anchor = .relative
  · by_cases hq : q.anchor = .relative
    · left
      rw [absolute_of_relative hp, absolute_of_relative hq, Path.mk.injEq] at h
      exact congrArg₂ Path.mk (hp.trans hq.symm) (List.append_cancel_left h.2)
    · rw [absolute_of_ne_relative hq] at h
      exact Or.inr (Or.inl ⟨hp, h.symm⟩)
  · rw [absolute_of_ne_relative hp] at h
    by_cases hq : q.anchor = .relative
    · exact Or.inr (Or.inr ⟨hq, h⟩)
    · rw [absolute_of_ne_relative hq] at h
      exact Or.inl h

theorem backup_eq_ok_iff : p.backup suffix = .ok backup ↔
    p.name ≠ "" ∧ isSingleName (p.name ++ suffix) = true ∧
      backup = { p with names := p.names.dropLast ++ [p.name ++ suffix] } := by
  rw [Path.backup, withName]
  split
  · rename_i hname
    simp [hname]
  · rename_i hname
    split
    · rename_i hsingle
      simp [hname, hsingle, eq_comm]
    · rename_i hsingle
      simp [hsingle]

theorem exists_names_of_name (h : p.name ≠ "") : ∃ front, p.names = front ++ [p.name] := by
  rw [name] at h ⊢
  rcases List.eq_nil_or_concat p.names with hnil | ⟨front, last, hnames⟩
  · rw [hnil] at h
    exact absurd rfl h
  · exact ⟨front, by rw [hnames]; simp⟩

/-- The name of a backup is written behind the rest of the path. -/
theorem toString_backup (h : p.backup suffix = .ok backup) :
    backup.toString = p.toString ++ suffix := by
  obtain ⟨hname, -, rfl⟩ := backup_eq_ok_iff.mp h
  obtain ⟨front, hnames⟩ := exists_names_of_name hname
  have hne : ¬ (p.anchor = .relative ∧ p.names = []) := by simp [hnames]
  rw [toString, toString, if_neg (by simp), if_neg hne]
  -- The suffix goes behind the last name, whether a slash stands before that name or not.
  generalize p.name = last at hnames
  rw [hnames, List.dropLast_concat, String.append_assoc]
  congr 1
  cases front with
  | nil => simp
  | cons first rest =>
    rw [String.intercalate_append_of_ne_nil (by simp) (by simp),
      String.intercalate_append_of_ne_nil (by simp) (by simp), String.intercalate_singleton,
      String.intercalate_singleton, String.append_assoc, String.append_assoc, String.append_assoc]

theorem name_absolute (h : p.names ≠ []) : (p.absolute home).name = p.name := by
  rw [absolute]
  cases p.anchor with
  | relative => simp [name, List.getLast?_append, List.getLast?_eq_some_getLast h]
  | root | doubleRoot => rfl

/-- Beside a path and its spelling from the root on, backups are the same from the root on. -/
theorem backup_absolute (home : Location) (h : p.backup suffix = .ok backup) :
    (p.absolute home).backup suffix = .ok (backup.absolute home) := by
  obtain ⟨hname, hsingle, rfl⟩ := backup_eq_ok_iff.mp h
  obtain ⟨front, hnames⟩ := exists_names_of_name hname
  have hne : p.names ≠ [] := by simp [hnames]
  rw [backup_eq_ok_iff, name_absolute hne]
  refine ⟨hname, hsingle, ?_⟩
  by_cases hp : p.anchor = .relative
  · rw [absolute_of_relative hp]
    refine (absolute_of_relative (by exact hp)).trans ?_
    simp [List.dropLast_append_of_ne_nil hne]
  · rw [absolute_of_ne_relative hp]
    exact absolute_of_ne_relative hp

theorem exists_backup_of_absolute (hne : p.names ≠ [])
    (h : (p.absolute home).backup suffix = .ok q) :
    ∃ backup, p.backup suffix = .ok backup ∧ q = backup.absolute home := by
  obtain ⟨hname, hsingle, -⟩ := backup_eq_ok_iff.mp h
  rw [name_absolute hne] at hname hsingle
  have hbackup := backup_eq_ok_iff.mpr ⟨hname, hsingle, rfl⟩
  exact ⟨_, hbackup, Except.ok.inj (h.symm.trans (backup_absolute home hbackup))⟩

end Path

namespace FileSystem

variable {fs : FileSystem} {aim : Aim} {here : Location} {names rest : List String} {p q : Path}

/-! ### Looking up from the root -/

/-- Names can be looked up one after the other from a directory on: the system takes them, and each
is looked for in a directory that may be searched. -/
def Passable (fs : FileSystem) : Location → List String → Prop
  | _, [] => True
  | here, name :: rest =>
    fs.has Node.isSearchable here ∧ name.utf8ByteSize ≤ nameLimit ∧
      fs.Passable (here ++ [name]) rest

theorem passable_iff : fs.Passable here names ↔
    (∀ name ∈ names, name.utf8ByteSize ≤ nameLimit) ∧
      ∀ count < names.length, fs.has Node.isSearchable (here ++ names.take count) := by
  induction names generalizing here with
  | nil => simp [Passable]
  | cons name rest ih =>
    have hcount : (∀ count < (name :: rest).length,
        fs.has Node.isSearchable (here ++ (name :: rest).take count)) ↔
          fs.has Node.isSearchable here ∧
            ∀ count < rest.length, fs.has Node.isSearchable (here ++ [name] ++ rest.take count) := by
      rw [List.length_cons, Nat.forall_lt_succ_left]
      simp
    rw [Passable, ih, hcount, List.forall_mem_cons]
    exact ⟨fun ⟨hsearch, hfit, hfits, hrest⟩ => ⟨⟨hfit, hfits⟩, hsearch, hrest⟩,
      fun ⟨⟨hfit, hfits⟩, hsearch, hrest⟩ => ⟨hsearch, hfit, hfits, hrest⟩⟩

/-- A walk enters a directory by its name. -/
theorem walk_directory (haim : aim ≠ .file)
    (expand : Location → List String → Except Problem Location) {name : String}
    (hhere : fs.has Node.isSearchable here) (hname : IsName name)
    (hfit : name.utf8ByteSize ≤ nameLimit) (hnext : fs.has Node.isDirectory (here ++ [name]))
    (rest : List String) :
    fs.walk aim expand here (name :: rest) = fs.walk aim expand (here ++ [name]) rest := by
  have henters : fs.Enters aim here name rest :=
    ⟨hhere, hname.ne_empty, hname.ne_dot, hname.ne_dots, fun h => haim h.1, hfit⟩
  obtain ⟨node, hnode, hdir⟩ := has_eq_true_iff.mp hnext
  rw [henters.walk_eq, hnode]
  cases node with
  | directory => rfl
  | file | link => cases hdir

/-- The first of some names behind a directory is that of a directory too, if only since there are
more names behind it. -/
theorem Reached.isDirectory_next {name : String} (h : fs.Reached (here ++ name :: names))
    (hdir : names = [] → fs.has Node.isDirectory (here ++ [name])) :
    fs.has Node.isDirectory (here ++ [name]) := by
  cases names with
  | nil => exact hdir rfl
  | cons next more => exact (h (here ++ [name]) next more (by simp)).1

/-- A walk along a location passes through its directories. -/
theorem walk_reached (haim : aim ≠ .file)
    (expand : Location → List String → Except Problem Location) (names rest : List String) :
    ∀ here, fs.Reached (here ++ names) → fs.has Node.isDirectory (here ++ names) →
      fs.Passable here names →
        fs.walk aim expand here (names ++ rest) = fs.walk aim expand (here ++ names) rest := by
  induction names with
  | nil => simp
  | cons name names ih =>
    rintro here hreached hdir ⟨hsearch, hfit, hpass⟩
    have hname := (hreached here name names rfl).2
    have hnext := hreached.isDirectory_next (by rintro rfl; exact hdir)
    have happend : here ++ name :: names = here ++ [name] ++ names := by simp
    rw [happend] at hreached hdir ⊢
    rw [List.cons_append, walk_directory haim expand hsearch hname hfit hnext]
    exact ih (here ++ [name]) hreached hdir hpass

/-- A walk along a location that cannot be passed is barred on the way. -/
theorem walk_reached_barred (haim : aim ≠ .file)
    (expand : Location → List String → Except Problem Location) (names rest : List String) :
    ∀ here, fs.Reached (here ++ names) → ¬ fs.Passable here names →
      ∃ problem, problem.Bars ∧ fs.walk aim expand here (names ++ rest) = .error problem := by
  induction names with
  | nil => exact fun here _ hpass => absurd trivial hpass
  | cons name names ih =>
    intro here hreached hpass
    obtain ⟨hhere, hname⟩ := hreached here name names rfl
    by_cases hsearch : fs.has Node.isSearchable here
    · by_cases hfit : nameLimit < name.utf8ByteSize
      · refine ⟨.nameTooLong, Or.inl rfl, ?_⟩
        rw [List.cons_append, walk, if_neg (not_not_intro hhere), if_neg hname.ne_empty,
          if_neg (not_not_intro hsearch), if_neg hname.ne_dot, if_neg hname.ne_dots,
          if_neg (fun h => haim h.1), if_pos hfit]
      · -- The obstacle is further on, so there are more names.
        have hrest : ¬ fs.Passable (here ++ [name]) names := fun h =>
          hpass ⟨hsearch, Nat.not_lt.mp hfit, h⟩
        have hnext := hreached.isDirectory_next (by rintro rfl; exact absurd trivial hrest)
        rw [List.cons_append, walk_directory haim expand hsearch hname (Nat.not_lt.mp hfit) hnext]
        exact ih (here ++ [name]) (by simpa using hreached) hrest
    · refine ⟨.permissionDenied, Or.inr rfl, ?_⟩
      rw [List.cons_append, walk, if_neg (not_not_intro hhere), if_neg hname.ne_empty,
        if_pos hsearch]

/-- A relative path that is short enough is followed from the working directory. -/
theorem locate_relative (hp : p.anchor = .relative) (hshort : p.toString.utf8ByteSize < pathLimit) :
    fs.locate aim p = fs.walk aim (fs.followLink aim linkLimit) fs.workingDirectory p.steps := by
  rw [locate, if_neg (Nat.not_le.mpr hshort), if_pos hp, follow_eq_walk]

/-- A path spelt from the root on leads through the working directory. -/
theorem HomeReached.steps_append (hhome : fs.HomeReached) (names : List String) :
    (⟨.root, fs.workingDirectory ++ names⟩ : Path).steps =
      fs.workingDirectory ++ names.flatMap slashPieces := by
  have hroot : ¬ (Anchor.root = .relative ∧ fs.workingDirectory ++ names = []) := by
    rintro ⟨h, -⟩
    cases h
  rw [Path.steps, if_neg hroot, List.flatMap_append]
  congr 1
  exact flatMap_slashPieces fun name hname => (Reached.isName hhome name hname).no_slash

/-- A walk over the names of a path passes through the working directory, and so does one over a dot
if the path has no names. -/
theorem walk_steps (hp : p.anchor = .relative) (hhome : fs.has Node.isDirectory here)
    (hdot : p.names = [] → fs.has Node.isSearchable here)
    (expand : Location → List String → Except Problem Location) :
    fs.walk aim expand here (p.names.flatMap slashPieces) = fs.walk aim expand here p.steps := by
  by_cases hnames : p.names = []
  · rw [Path.steps, if_pos ⟨hp, hnames⟩, hnames, List.flatMap_nil,
      walk_stay hhome (Or.inr ⟨rfl, hdot hnames⟩)]
  · rw [Path.steps_of_names hnames]

/-- A path and its spelling from the root on are looked up alike, if both are short enough or
neither is, and the names of the working directory can be passed. The working directory itself, which
is spelt as a dot, has to be searchable for that. -/
theorem IsTree.locate_absolute (htree : fs.IsTree) (haim : aim ≠ .file)
    (hpass : fs.Passable [] fs.workingDirectory)
    (hdot : p.names = [] → fs.has Node.isSearchable fs.workingDirectory)
    (hroom : (p.absolute fs.workingDirectory).toString.utf8ByteSize < pathLimit ↔
      p.toString.utf8ByteSize < pathLimit) :
    fs.locate aim (p.absolute fs.workingDirectory) = fs.locate aim p := by
  by_cases hp : p.anchor = .relative
  · rw [Path.absolute_of_relative hp] at hroom ⊢
    rw [locate, locate]
    by_cases hlong : pathLimit ≤ p.toString.utf8ByteSize
    · rw [if_pos hlong, if_pos (by omega)]
    · -- From the root on, the walk goes to the working directory first.
      rw [if_neg hlong, if_neg (by omega), htree.homeReached.steps_append, if_pos hp,
        follow_eq_walk, ← walk_steps hp htree.home hdot]
      exact walk_reached haim _ fs.workingDirectory _ [] htree.homeReached htree.home hpass
  · rw [Path.absolute_of_ne_relative hp]

/-- If a look-up from the root on is not barred, the names of the working directory can be passed. -/
theorem IsTree.passable_of_not_barred (htree : fs.IsTree) (hp : p.anchor = .relative)
    (h : ¬ fs.Barred (p.absolute fs.workingDirectory)) : fs.Passable [] fs.workingDirectory := by
  by_contra hpass
  refine h ?_
  rw [Barred, Path.absolute_of_relative hp, locate]
  split
  · exact ⟨.nameTooLong, Or.inl rfl, rfl⟩
  · rw [htree.homeReached.steps_append, follow_eq_walk]
    exact walk_reached_barred (by decide) _ fs.workingDirectory _ [] htree.homeReached hpass

/-- If the look-up of a dot is not barred, the working directory may be searched. -/
theorem IsTree.isSearchable_of_not_barred (htree : fs.IsTree) (hp : p.anchor = .relative)
    (h : ¬ fs.Barred p) (hnames : p.names = []) : fs.has Node.isSearchable fs.workingDirectory := by
  by_contra hsearch
  have hshort : p.toString.utf8ByteSize < pathLimit := by
    rw [Path.toString, if_pos ⟨hp, hnames⟩]
    decide
  refine h ⟨.permissionDenied, Or.inr rfl, ?_⟩
  rw [locate_relative hp hshort, Path.steps, if_pos ⟨hp, hnames⟩, walk,
    if_neg (not_not_intro htree.home), if_neg (by decide), if_pos hsearch]

/-! ### Paths that are looked up alike -/

/-- Two paths that are looked up alike, however they are spelt. -/
structure Alike (fs : FileSystem) (p q : Path) : Prop where
  hasNul : q.hasNul = p.hasNul
  endsInDots : q.endsInDots = p.endsInDots
  locate : ∀ aim, aim ≠ .file → fs.locate aim q = fs.locate aim p

namespace Alike

variable {fs' : FileSystem}

theorem refl (fs : FileSystem) (p : Path) : fs.Alike p p := ⟨rfl, rfl, fun _ _ => rfl⟩

variable (h : fs.Alike p q)

include h

theorem symm : fs.Alike q p :=
  ⟨h.hasNul.symm, h.endsInDots.symm, fun aim haim => (h.locate aim haim).symm⟩

theorem trans {r : Path} (h' : fs.Alike q r) : fs.Alike p r :=
  ⟨h'.hasNul.trans h.hasNul, h'.endsInDots.trans h.endsInDots,
    fun aim haim => (h'.locate aim haim).trans (h.locate aim haim)⟩

theorem sameShape (hshape : SameShape fs fs') : fs'.Alike p q :=
  ⟨h.hasNul, h.endsInDots, fun aim haim => by rw [hshape.locate, hshape.locate, h.locate aim haim]⟩

theorem find (haim : aim ≠ .file) : fs.find aim q = fs.find aim p := by
  rw [FileSystem.find, FileSystem.find, h.locate aim haim]

theorem test (haim : aim ≠ .file) (sort : Node → Bool) :
    fs.test aim sort q = fs.test aim sort p := by
  rw [FileSystem.test, FileSystem.test, h.find haim, h.hasNul]

theorem isDirectory : fs.isDirectory q = fs.isDirectory p := h.test (by decide) _

theorem isLink : fs.isLink q = fs.isLink p := h.test (by decide) _

theorem isReadable : fs.isReadable q = fs.isReadable p := by
  rw [FileSystem.isReadable, FileSystem.isReadable, h.test (by decide)]

theorem realPath : fs.realPath q = fs.realPath p := by
  rw [FileSystem.realPath, FileSystem.realPath, h.locate .target (by decide)]

end Alike

theorem IsTree.hasNul_absolute (htree : fs.IsTree) (p : Path) :
    (p.absolute fs.workingDirectory).hasNul = p.hasNul := by
  by_cases hp : p.anchor = .relative
  · have hhome : fs.workingDirectory.any (·.toList.contains '\x00') = false := by
      obtain ⟨node, hnode, -⟩ := has_eq_true_iff.mp htree.home
      rw [List.any_eq_false]
      intro name hname
      simpa using (htree.names_of_node? hnode name hname).2
    rw [Path.absolute_of_relative hp, Path.hasNul, Path.hasNul, List.any_append, hhome,
      Bool.false_or]
  · rw [Path.absolute_of_ne_relative hp]

theorem HomeReached.endsInDots_absolute (hhome : fs.HomeReached) (hp : p.names ≠ []) :
    (p.absolute fs.workingDirectory).endsInDots = p.endsInDots := by
  by_cases hanchor : p.anchor = .relative
  · have hsteps : p.names.flatMap slashPieces ≠ [] := by
      obtain ⟨first, rest, hnames⟩ := List.exists_cons_of_ne_nil hp
      rw [hnames, List.flatMap_cons, slashPieces]
      simp [List.splitOn_ne_nil]
    rw [Path.absolute_of_relative hanchor, Path.endsInDots, Path.endsInDots, hhome.steps_append,
      List.getLast?_append, Path.steps_of_names hp, List.getLast?_eq_some_getLast hsteps]
    rfl
  · rw [Path.absolute_of_ne_relative hanchor]

/-- Two spellings of a path are looked up alike, if both are short enough or neither is, and the
names of the working directory can be passed. -/
theorem IsTree.locate_eq (htree : fs.IsTree)
    (hsame : p.absolute fs.workingDirectory = q.absolute fs.workingDirectory)
    (hpass : p ≠ q → fs.Passable [] fs.workingDirectory)
    (hdot : p.anchor = .relative → p.names = [] → fs.has Node.isSearchable fs.workingDirectory)
    (hdot' : q.anchor = .relative → q.names = [] → fs.has Node.isSearchable fs.workingDirectory)
    (hroom : p.toString.utf8ByteSize < pathLimit ↔ q.toString.utf8ByteSize < pathLimit)
    (haim : aim ≠ .file) : fs.locate aim q = fs.locate aim p := by
  by_cases heq : p = q
  · rw [heq]
  rcases Path.eq_or_absolute hsame with heq' | ⟨hp, rfl⟩ | ⟨hq, rfl⟩
  · exact absurd heq' heq
  · exact htree.locate_absolute haim (hpass heq) (hdot hp) hroom.symm
  · exact (htree.locate_absolute haim (hpass heq) (hdot' hq) hroom).symm

theorem IsTree.hasNul_eq (htree : fs.IsTree)
    (hsame : p.absolute fs.workingDirectory = q.absolute fs.workingDirectory) :
    q.hasNul = p.hasNul := by
  rw [← htree.hasNul_absolute q, ← hsame, htree.hasNul_absolute]

theorem IsTree.endsInDots_eq (htree : fs.IsTree)
    (hsame : p.absolute fs.workingDirectory = q.absolute fs.workingDirectory) (hp : p.names ≠ [])
    (hq : q.names ≠ []) : q.endsInDots = p.endsInDots := by
  rw [← htree.homeReached.endsInDots_absolute hq, ← hsame, htree.homeReached.endsInDots_absolute hp]

theorem IsTree.alike (htree : fs.IsTree)
    (hsame : p.absolute fs.workingDirectory = q.absolute fs.workingDirectory) (hp : p.names ≠ [])
    (hq : q.names ≠ [])
    (hpass : p ≠ q → fs.Passable [] fs.workingDirectory)
    (hroom : p.toString.utf8ByteSize < pathLimit ↔ q.toString.utf8ByteSize < pathLimit) :
    fs.Alike p q where
  hasNul := htree.hasNul_eq hsame
  endsInDots := htree.endsInDots_eq hsame hp hq
  locate _ haim := htree.locate_eq hsame hpass (fun _ h => absurd h hp) (fun _ h => absurd h hq)
    hroom haim

/-- If neither look-up of two spellings of a path is barred, the names of the working directory can be
passed. -/
theorem IsTree.passable_of_spellings (htree : fs.IsTree)
    (hsame : p.absolute fs.workingDirectory = q.absolute fs.workingDirectory)
    (hp : ¬ fs.Barred p) (hq : ¬ fs.Barred q) (hne : p ≠ q) :
    fs.Passable [] fs.workingDirectory := by
  rcases Path.eq_or_absolute hsame with heq | ⟨hanchor, rfl⟩ | ⟨hanchor, rfl⟩
  · exact absurd heq hne
  · exact htree.passable_of_not_barred hanchor hq
  · exact htree.passable_of_not_barred hanchor hp

theorem lt_pathLimit_of_locate (h : fs.locate aim p ≠ .error .nameTooLong) :
    p.toString.utf8ByteSize < pathLimit := by
  rw [locate] at h
  split at h
  · exact absurd rfl h
  · rename_i hshort
    exact Nat.not_le.mp hshort

theorem lt_pathLimit_of_not_barred (h : ¬ fs.Barred p) : p.toString.utf8ByteSize < pathLimit :=
  lt_pathLimit_of_locate fun hlong => h ⟨.nameTooLong, Or.inl rfl, hlong⟩

/-- Backups beside two spellings of a path are looked up alike, if both or neither are short
enough. -/
theorem IsTree.exists_alike_backup (htree : fs.IsTree)
    (hsame : p.absolute fs.workingDirectory = q.absolute fs.workingDirectory) (hq : q.names ≠ [])
    (hpass : p ≠ q → fs.Passable [] fs.workingDirectory)
    {suffix : String} {backup : Path} (hbackup : p.backup suffix = .ok backup)
    (hroom : p.toString.utf8ByteSize + suffix.utf8ByteSize < pathLimit ↔
      q.toString.utf8ByteSize + suffix.utf8ByteSize < pathLimit) :
    ∃ other, q.backup suffix = .ok other ∧ fs.Alike backup other := by
  have hshared := Path.backup_absolute fs.workingDirectory hbackup
  rw [hsame] at hshared
  obtain ⟨other, hother, hbackups⟩ := Path.exists_backup_of_absolute hq hshared
  have hnames {p backup : Path} (h : p.backup suffix = .ok backup) : backup.names ≠ [] := by
    obtain ⟨-, -, rfl⟩ := Path.backup_eq_ok_iff.mp h
    simp
  -- The backups are two spellings of one path themselves, and are as long as paths with suffixes.
  refine ⟨other, hother, htree.alike hbackups (hnames hbackup) (hnames hother) (fun hne => ?_) ?_⟩
  · refine hpass fun heq => hne ?_
    rw [heq] at hbackup
    exact Except.ok.inj (hbackup.symm.trans hother)
  · rw [Path.toString_backup hbackup, Path.toString_backup hother, String.utf8ByteSize_append,
      String.utf8ByteSize_append, hroom]

end FileSystem

end Letterhead
