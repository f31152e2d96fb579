import Letterhead.FileSystem.Lookup
import Letterhead.Proofs.Text.Lines

/-!
# Where names lead

A look-up as a relation: names lead from a directory to a location, over a bounded number of links.
The relation has one constructor for each thing that can become of a name, so facts about look-ups
are inductions on it. Only directories and links decide where names lead; what the files hold, and
whether they are there at all, does not matter.

## Main definitions

* `FileSystem.Enters` — a name is looked for in a directory
* `FileSystem.Leads` — names lead from a directory to a location
* `FileSystem.AgreeOffFiles` — two file systems have the same directories and links
* `FileSystem.Reached`, `FileSystem.HomeReached` — a location stands in the tree

## Main results

* `locate_eq_ok_iff` — a look-up succeeds exactly where the names lead somewhere
* `Leads.agree` — file systems that agree apart from files lead to the same places
* `Leads.changeAim` — at a place that holds no link, the aim of a look-up does not matter
* `Reached.locate_eq` — a location, taken as a path, is looked up at itself
-/

namespace Letterhead.FileSystem

/-- A name, before `rest`, is looked for in the directory `here`. -/
structure Enters (fs : FileSystem) (aim : Aim) (here : Location) (name : String)
    (rest : List String) : Prop where
  isSearchable : fs.has Node.isSearchable here
  ne_empty : name ≠ ""
  ne_dot : name ≠ "."
  ne_dots : name ≠ ".."
  asksFile : ¬ (aim = .file ∧ rest ≠ [] ∧ rest.all (· == ""))
  fits : name.utf8ByteSize ≤ nameLimit

/-- The directory that a link in the directory `here` is followed from. -/
def linkStart (here : Location) (target : String) : Location :=
  if Path.anchorOf target.toList = .relative then here else []

/-- Names lead from a directory to a location when so many links may be followed on the way. -/
inductive Leads (fs : FileSystem) (aim : Aim) : Nat → Location → List String → Location → Prop
  | done {links : Nat} {here : Location} : Leads fs aim links here [] here
  /-- An empty name, or a dot, stays in the directory. For a dot it is searched. -/
  | stay {links : Nat} {here place : Location} {name : String} {rest : List String}
      (hdir : fs.has Node.isDirectory here)
      (hname : name = "" ∨ name = "." ∧ fs.has Node.isSearchable here)
      (hrest : Leads fs aim links here rest place) : Leads fs aim links here (name :: rest) place
  /-- Double dots go to the parent. -/
  | up {links : Nat} {here place : Location} {rest : List String}
      (hsearch : fs.has Node.isSearchable here)
      (hrest : Leads fs aim links here.dropLast rest place) :
      Leads fs aim links here (".." :: rest) place
  /-- A name of a directory or file goes there. -/
  | enter {links : Nat} {here place : Location} {name : String} {rest : List String} {node : Node}
      (henters : fs.Enters aim here name rest) (hnode : fs.node? (here ++ [name]) = some node)
      (hlink : node.isLink = false) (hrest : Leads fs aim links (here ++ [name]) rest place) :
      Leads fs aim links here (name :: rest) place
  /-- A link is replaced by what it stands for. -/
  | follow {links : Nat} {here place : Location} {name target : String} {rest : List String}
      (henters : fs.Enters aim here name rest)
      (hnode : fs.node? (here ++ [name]) = some (.link target))
      (hlast : rest = [] → aim.followsLast)
      (hrest : Leads fs aim links (linkStart here target) (slashPieces target ++ rest) place) :
      Leads fs aim (links + 1) here (name :: rest) place
  /-- A link in last place may itself be meant. -/
  | stop {links : Nat} {here : Location} {name target : String}
      (henters : fs.Enters aim here name [])
      (hnode : fs.node? (here ++ [name]) = some (.link target)) (haim : aim.followsLast = false) :
      Leads fs aim links here [name] (here ++ [name])
  /-- A last name need not be there. -/
  | absent {links : Nat} {here : Location} {name : String} (henters : fs.Enters aim here name [])
      (hnode : fs.node? (here ++ [name]) = none) : Leads fs aim links here [name] (here ++ [name])

variable {fs fs' : FileSystem} {aim aim' : Aim} {links : Nat} {here place : Location}
  {names : List String}

/-! ### The relation and the function -/

/-- What becomes of a link when so many more may be followed. -/
def followLink (fs : FileSystem) (aim : Aim) :
    Nat → Location → List String → Except Problem Location
  | 0 => fun _ _ => .error .tooManyLinks
  | links + 1 => fs.follow aim links

theorem follow_eq_walk (fs : FileSystem) (aim : Aim) (links : Nat) :
    fs.follow aim links = fs.walk aim (fs.followLink aim links) := by
  cases links <;> rfl

theorem Enters.isDirectory {name : String} {rest : List String} (h : fs.Enters aim here name rest) :
    fs.has Node.isDirectory here := has_mono Node.isDirectory_of_isSearchable h.isSearchable

theorem walk_stay {expand : Location → List String → Except Problem Location} {name : String}
    (hdir : fs.has Node.isDirectory here)
    (hname : name = "" ∨ name = "." ∧ fs.has Node.isSearchable here) (rest : List String) :
    fs.walk aim expand here (name :: rest) = fs.walk aim expand here rest := by
  rw [walk, if_neg (not_not_intro hdir)]
  rcases hname with rfl | ⟨rfl, hsearch⟩
  · rw [if_pos rfl]
  · rw [if_neg (by decide), if_neg (not_not_intro hsearch), if_pos rfl]

theorem walk_up {expand : Location → List String → Except Problem Location}
    (hsearch : fs.has Node.isSearchable here) (rest : List String) :
    fs.walk aim expand here (".." :: rest) = fs.walk aim expand here.dropLast rest := by
  rw [walk, if_neg (not_not_intro (has_mono Node.isDirectory_of_isSearchable hsearch)),
    if_neg (by decide), if_neg (not_not_intro hsearch), if_neg (by decide), if_pos rfl]

theorem Enters.walk_eq {name : String} {rest : List String} (h : fs.Enters aim here name rest)
    (expand : Location → List String → Except Problem Location) :
    fs.walk aim expand here (name :: rest) =
      match fs.node? (here ++ [name]) with
      | some (.link target) =>
        if rest = [] ∧ !aim.followsLast then .ok (here ++ [name])
        else expand (linkStart here target) (slashPieces target ++ rest)
      | some _ => fs.walk aim expand (here ++ [name]) rest
      | none => if rest = [] then .ok (here ++ [name]) else .error .noEntry := by
  rw [walk, if_neg (not_not_intro h.isDirectory), if_neg h.ne_empty,
    if_neg (not_not_intro h.isSearchable), if_neg h.ne_dot, if_neg h.ne_dots, if_neg h.asksFile,
    if_neg (Nat.not_lt.mpr h.fits)]
  rfl

/-- A name that a walk gets past is nothing, goes up, or is looked for. -/
theorem walk_cons_cases {expand : Location → List String → Except Problem Location}
    {name : String} {rest : List String}
    (h : fs.walk aim expand here (name :: rest) = .ok place) :
    (fs.has Node.isDirectory here ∧ (name = "" ∨ name = "." ∧ fs.has Node.isSearchable here) ∧
        fs.walk aim expand here rest = .ok place) ∨
      (name = ".." ∧ fs.has Node.isSearchable here ∧
        fs.walk aim expand here.dropLast rest = .ok place) ∨
      fs.Enters aim here name rest := by
  rw [walk] at h
  split at h
  · cases h
  rename_i hdir
  have hdir := Decidable.not_not.mp hdir
  split at h
  · rename_i hempty
    exact Or.inl ⟨hdir, Or.inl hempty, h⟩
  rename_i hempty
  split at h
  · cases h
  rename_i hsearch
  have hsearch := Decidable.not_not.mp hsearch
  split at h
  · rename_i hdot
    exact Or.inl ⟨hdir, Or.inr ⟨hdot, hsearch⟩, h⟩
  rename_i hdot
  split at h
  · rename_i hdots
    exact Or.inr (Or.inl ⟨hdots, hsearch, h⟩)
  rename_i hdots
  split at h
  · cases h
  rename_i hfile
  split at h
  · cases h
  rename_i hsize
  exact Or.inr (Or.inr ⟨hsearch, hempty, hdot, hdots, hfile, Nat.not_lt.mp hsize⟩)

/-- A walk that comes to a place, when links lead where the relation says. -/
theorem leads_of_walk {expand : Location → List String → Except Problem Location}
    (hexpand : ∀ start steps, expand start steps = .ok place →
      ∃ fewer, links = fewer + 1 ∧ Leads fs aim fewer start steps place)
    (h : fs.walk aim expand here names = .ok place) : Leads fs aim links here names place := by
  induction names generalizing here with
  | nil =>
    obtain rfl : here = place := by simpa [walk] using h
    exact .done
  | cons name rest ih =>
    obtain ⟨hdir, hname, hrest⟩ | ⟨rfl, hsearch, hrest⟩ | henters := walk_cons_cases h
    · exact .stay hdir hname (ih hrest)
    · exact .up hsearch (ih hrest)
    · rw [henters.walk_eq] at h
      split at h
      · rename_i target hnode
        split at h
        · rename_i hlast
          obtain ⟨rfl, haim⟩ := hlast
          cases h
          exact .stop henters hnode (by simpa using haim)
        · rename_i hlast
          obtain ⟨fewer, rfl, hleads⟩ := hexpand _ _ h
          refine .follow henters hnode (fun hrest => ?_) hleads
          simpa [hrest] using hlast
      · rename_i node hlink hnode
        refine .enter henters hnode ?_ (ih h)
        cases node with
        | link target => exact absurd rfl (hlink target)
        | file | directory => rfl
      · rename_i hnode
        split at h
        · rename_i hrest
          subst hrest
          cases h
          exact .absent henters hnode
        · cases h

/-- The induction is on the links that may be followed, and within each on the names. -/
theorem leads_of_follow (h : fs.follow aim links here names = .ok place) :
    Leads fs aim links here names place := by
  induction links generalizing here names with
  | zero =>
    rw [follow_eq_walk] at h
    refine leads_of_walk (fun start steps hstart => ?_) h
    cases hstart
  | succ links ih => exact leads_of_walk (fun _ _ hstart => ⟨links, rfl, ih hstart⟩) h

theorem Leads.follow_eq (h : Leads fs aim links here names place) :
    fs.follow aim links here names = .ok place := by
  induction h with
  | done => rw [follow_eq_walk, walk]
  | stay hdir hname _ ih =>
    rw [follow_eq_walk] at ih ⊢
    rw [walk_stay hdir hname, ih]
  | up hsearch _ ih =>
    rw [follow_eq_walk] at ih ⊢
    rw [walk_up hsearch, ih]
  | enter henters hnode hlink _ ih =>
    rw [follow_eq_walk] at ih ⊢
    rw [henters.walk_eq, hnode]
    split
    · rename_i heq
      cases heq
      cases hlink
    · exact ih
    · rename_i heq
      cases heq
  | follow henters hnode hlast _ ih =>
    rw [follow_eq_walk, henters.walk_eq, hnode]
    simp only
    rw [if_neg (fun hstop => by simp [hlast hstop.1] at hstop)]
    exact ih
  | stop henters hnode haim =>
    rw [follow_eq_walk, henters.walk_eq, hnode]
    simp [haim]
  | absent henters hnode =>
    rw [follow_eq_walk, henters.walk_eq, hnode]
    simp

theorem follow_eq_ok_iff :
    fs.follow aim links here names = .ok place ↔ Leads fs aim links here names place :=
  ⟨leads_of_follow, Leads.follow_eq⟩

/-- The directory that a path is looked up from. -/
def startOf (fs : FileSystem) (path : Path) : Location :=
  if path.anchor = .relative then fs.workingDirectory else []

/-- A look-up succeeds exactly where the names of a path that is not too long lead somewhere. -/
theorem locate_eq_ok_iff {path : Path} :
    fs.locate aim path = .ok place ↔
      path.toString.utf8ByteSize < pathLimit ∧
        Leads fs aim linkLimit (fs.startOf path) path.steps place := by
  rw [locate]
  split
  · rename_i hlong
    simp [Nat.not_lt.mpr hlong]
  · rename_i hshort
    rw [follow_eq_ok_iff]
    exact (and_iff_right (Nat.not_le.mp hshort)).symm

theorem find_eq_ok_iff {path : Path} {node : Node} :
    fs.find aim path = .ok (place, node) ↔
      fs.locate aim path = .ok place ∧ fs.node? place = some node := by
  rw [find]
  cases fs.locate aim path with
  | error problem => simp
  | ok other =>
    simp only [Except.ok.injEq]
    constructor
    · intro h
      split at h
      · cases h
        exact ⟨rfl, by assumption⟩
      · cases h
    · rintro ⟨rfl, hnode⟩
      rw [hnode]

/-! ### What does not matter -/

/-- The file systems have the same directories and links, and the same working directory. -/
structure AgreeOffFiles (fs fs' : FileSystem) : Prop where
  workingDirectory : fs'.workingDirectory = fs.workingDirectory
  node? : ∀ place node, node.isFile = false →
    (fs'.node? place = some node ↔ fs.node? place = some node)

namespace AgreeOffFiles

theorem refl (fs : FileSystem) : AgreeOffFiles fs fs := ⟨rfl, fun _ _ _ => Iff.rfl⟩

theorem symm (h : AgreeOffFiles fs fs') : AgreeOffFiles fs' fs :=
  ⟨h.workingDirectory.symm, fun place node hnode => (h.node? place node hnode).symm⟩

theorem trans {fs'' : FileSystem} (h : AgreeOffFiles fs fs') (h' : AgreeOffFiles fs' fs'') :
    AgreeOffFiles fs fs'' :=
  ⟨h'.workingDirectory.trans h.workingDirectory, fun place node hnode =>
    (h'.node? place node hnode).trans (h.node? place node hnode)⟩

/-- What a directory permits is the same in both. -/
theorem has (h : AgreeOffFiles fs fs') {sort : Node → Bool}
    (hsort : ∀ {node}, sort node → node.isDirectory) (hplace : fs.has sort place) :
    fs'.has sort place := by
  obtain ⟨node, hnode, hnode'⟩ := has_eq_true_iff.mp hplace
  have hfile := Node.isFile_eq_false_of_isDirectory (hsort hnode')
  exact has_eq_true_iff.mpr ⟨node, (h.node? place node hfile).mpr hnode, hnode'⟩

theorem isDirectory (h : AgreeOffFiles fs fs') (hdir : fs.has Node.isDirectory place) :
    fs'.has Node.isDirectory place := h.has id hdir

theorem isSearchable (h : AgreeOffFiles fs fs') (hsearch : fs.has Node.isSearchable place) :
    fs'.has Node.isSearchable place := h.has Node.isDirectory_of_isSearchable hsearch

theorem isLink (h : AgreeOffFiles fs fs') {target : String}
    (hlink : fs.node? place = some (.link target)) : fs'.node? place = some (.link target) :=
  (h.node? place _ rfl).mpr hlink

/-- Where there is at most a file in the one, there is at most a file in the other. -/
theorem absent_or_file (h : AgreeOffFiles fs fs')
    (hfile : ∀ node, fs.node? place = some node → node.isFile) :
    fs'.node? place = none ∨ ∃ node, fs'.node? place = some node ∧ node.isLink = false := by
  cases hnode : fs'.node? place with
  | none => exact Or.inl rfl
  | some node =>
    refine Or.inr ⟨node, rfl, ?_⟩
    cases node with
    | link target =>
      have := hfile _ ((h.node? place _ rfl).mp hnode)
      cases this
    | file | directory => rfl

theorem enters (h : AgreeOffFiles fs fs') {name : String} {rest : List String}
    (henters : fs.Enters aim here name rest) : fs'.Enters aim here name rest :=
  { henters with isSearchable := h.isSearchable henters.isSearchable }

theorem startOf (h : AgreeOffFiles fs fs') (path : Path) : fs'.startOf path = fs.startOf path := by
  rw [FileSystem.startOf, FileSystem.startOf, h.workingDirectory]

end AgreeOffFiles

/-- From a place that is no directory, no name leads further. -/
theorem Leads.of_not_directory (h : Leads fs aim links here names place)
    (hdir : ¬ fs.has Node.isDirectory here) : names = [] ∧ here = place := by
  cases h with
  | done => exact ⟨rfl, rfl⟩
  | stay hhere _ _ => exact absurd hhere hdir
  | up hsearch _ => exact absurd (has_mono Node.isDirectory_of_isSearchable hsearch) hdir
  | enter henters _ _ _ | follow henters _ _ _ | stop henters _ _ | absent henters _ =>
    exact absurd henters.isDirectory hdir

/-- A last name that is looked for in a directory leads to its place, if that holds no link. -/
theorem Enters.leads {name : String} (henters : fs.Enters aim here name [])
    (h : fs.node? (here ++ [name]) = none ∨
      ∃ node, fs.node? (here ++ [name]) = some node ∧ node.isLink = false) :
    Leads fs aim links here [name] (here ++ [name]) := by
  rcases h with hnone | ⟨node, hnode, hlink⟩
  · exact .absent henters hnone
  · exact .enter henters hnode hlink .done

/-- A name stands in the directory it is looked for in, whatever is there. -/
theorem Enters.leads_entry {name : String} (h : fs.Enters .entry here name []) :
    Leads fs .entry links here [name] (here ++ [name]) := by
  cases hnode : fs.node? (here ++ [name]) with
  | none => exact .absent h hnode
  | some node =>
    cases node with
    | file | directory => exact .enter h hnode rfl .done
    | link target => exact .stop h hnode rfl

/-- File systems that agree apart from files lead to the same places. -/
theorem Leads.agree (hagree : AgreeOffFiles fs fs') (h : Leads fs aim links here names place) :
    Leads fs' aim links here names place := by
  induction h with
  | done => exact .done
  | stay hdir hname _ ih =>
    exact .stay (hagree.isDirectory hdir) (hname.imp_right (.imp_right hagree.isSearchable)) ih
  | up hsearch _ ih => exact .up (hagree.isSearchable hsearch) ih
  | @enter links here place name rest node henters hnode hlink hrest ih =>
    by_cases hfile : node.isFile
    · -- Behind a file there are no more names, whether or not the other tree has a file there.
      have hdir : ¬ fs.has Node.isDirectory (here ++ [name]) := by
        cases node with
        | file => exact not_has_of_node? hnode rfl
        | directory | link => cases hfile
      obtain ⟨rfl, rfl⟩ := hrest.of_not_directory hdir
      refine (hagree.enters henters).leads (hagree.absent_or_file fun other hother => ?_)
      obtain rfl : node = other := Option.some.inj (hnode.symm.trans hother)
      exact hfile
    · have hsame := (hagree.node? (here ++ [name]) node (by simpa using hfile)).mpr hnode
      exact .enter (hagree.enters henters) hsame hlink ih
  | follow henters hnode hlast _ ih =>
    exact .follow (hagree.enters henters) (hagree.isLink hnode) hlast ih
  | stop henters hnode haim => exact .stop (hagree.enters henters) (hagree.isLink hnode) haim
  | absent henters hnode =>
    refine (hagree.enters henters).leads (hagree.absent_or_file fun node hnode' => ?_)
    rw [hnode] at hnode'
    cases hnode'

/-- A look-up finds the same place in file systems that agree apart from files. -/
theorem AgreeOffFiles.locate {path : Path} (hagree : AgreeOffFiles fs fs')
    (h : fs.locate aim path = .ok place) : fs'.locate aim path = .ok place := by
  rw [locate_eq_ok_iff] at h ⊢
  exact ⟨h.1, hagree.startOf path ▸ h.2.agree hagree⟩

/-- Names that end in an empty one lead to a directory. -/
theorem Leads.isDirectory_of_trailing (h : Leads fs aim links here names place)
    (hlast : names.getLast? = some "") : fs.has Node.isDirectory place := by
  induction h with
  | done => cases hlast
  | @stay links here place name rest hdir hname hrest ih =>
    cases rest with
    | nil =>
      cases hrest
      exact hdir
    | cons next more => exact ih (by simpa using hlast)
  | @up links here place rest hdir hrest ih =>
    cases rest with
    | nil => simp at hlast
    | cons next more => exact ih (by simpa using hlast)
  | @enter links here place name rest node henters _ _ hrest ih =>
    cases rest with
    | nil => exact absurd (by simpa using hlast) henters.ne_empty
    | cons next more => exact ih (by simpa using hlast)
  | @follow links here place name target rest henters _ _ hrest ih =>
    cases rest with
    | nil => exact absurd (by simpa using hlast) henters.ne_empty
    | cons next more => exact ih (by simpa [List.getLast?_append] using hlast)
  | stop henters | absent henters => exact absurd (by simpa using hlast) henters.ne_empty

/-- A look-up that follows a link in last place comes to where another one does, unless that is a
link, or a file is asked for and that is a directory. -/
theorem Leads.changeAim (h : Leads fs aim links here names place) (hfollows : aim'.followsLast)
    (hlink : ∀ target, fs.node? place ≠ some (.link target))
    (hdir : aim' = .file → ¬ fs.has Node.isDirectory place) :
    Leads fs aim' links here names place := by
  have henters {here start : Location} {name : String} {rest : List String} {links : Nat}
      (before : List String) (hin : fs.Enters aim here name rest)
      (hrest : Leads fs aim links start (before ++ rest) place) :
      fs.Enters aim' here name rest := by
    refine { hin with asksFile := ?_ }
    rintro ⟨haim, hne, hall⟩
    -- The empty names behind a slash would lead to a directory.
    have hlast : (before ++ rest).getLast? = some "" := by
      rw [List.getLast?_append, List.getLast?_eq_some_getLast hne]
      simpa using List.all_eq_true.mp hall _ (List.getLast_mem hne)
    exact hdir haim (hrest.isDirectory_of_trailing hlast)
  induction h with
  | done => exact .done
  | stay hhere hname _ ih => exact .stay hhere hname (ih hlink hdir henters)
  | up hhere _ ih => exact .up hhere (ih hlink hdir henters)
  | enter hin hnode hnolink hrest ih =>
    exact .enter (henters [] hin hrest) hnode hnolink (ih hlink hdir henters)
  | follow hin hnode hlast hrest ih =>
    exact .follow (henters _ hin hrest) hnode (fun _ => hfollows) (ih hlink hdir henters)
  | stop hin hnode haim => exact absurd hnode (hlink _)
  | absent hin hnode => exact .absent { hin with asksFile := by simp } hnode

/-- Where names lead through all links, they lead too when a last link is not followed: to the same
place, or to that link. -/
theorem Leads.entry (h : Leads fs .target links here names place) :
    ∃ entry, Leads fs .entry links here names entry ∧
      (entry = place ∨ ∃ target, fs.node? entry = some (.link target)) := by
  have henters {here : Location} {name : String} {rest : List String}
      (hin : fs.Enters .target here name rest) : fs.Enters .entry here name rest :=
    { hin with asksFile := by simp }
  -- Only a link in last place makes a difference: there the other look-up stops.
  induction h with
  | done => exact ⟨_, .done, Or.inl rfl⟩
  | stay hhere hname _ ih =>
    obtain ⟨entry, hleads, hentry⟩ := ih
    exact ⟨entry, .stay hhere hname hleads, hentry⟩
  | up hhere _ ih =>
    obtain ⟨entry, hleads, hentry⟩ := ih
    exact ⟨entry, .up hhere hleads, hentry⟩
  | enter hin hnode hlink _ ih =>
    obtain ⟨entry, hleads, hentry⟩ := ih
    exact ⟨entry, .enter (henters hin) hnode hlink hleads, hentry⟩
  | @follow _ _ _ _ target rest hin hnode _ _ ih =>
    cases rest with
    | nil => exact ⟨_, .stop (henters hin) hnode rfl, Or.inr ⟨target, hnode⟩⟩
    | cons next more =>
      obtain ⟨entry, hleads, hentry⟩ := ih
      exact ⟨entry, .follow (henters hin) hnode (by simp) hleads, hentry⟩
  | stop _ _ haim => cases haim
  | absent hin hnode => exact ⟨_, .absent (henters hin) hnode, Or.inl rfl⟩

theorem locate_changeAim {path : Path} (h : fs.locate aim path = .ok place)
    (hfollows : aim'.followsLast) (hlink : ∀ target, fs.node? place ≠ some (.link target))
    (hdir : aim' = .file → ¬ fs.has Node.isDirectory place) :
    fs.locate aim' path = .ok place := by
  rw [locate_eq_ok_iff] at h ⊢
  exact ⟨h.1, h.2.changeAim hfollows hlink hdir⟩

theorem exists_locate_entry {path : Path} (h : fs.locate .target path = .ok place) :
    ∃ entry, fs.locate .entry path = .ok entry ∧
      (entry = place ∨ ∃ target, fs.node? entry = some (.link target)) := by
  obtain ⟨hshort, hleads⟩ := locate_eq_ok_iff.mp h
  obtain ⟨entry, hentry, hplace⟩ := hleads.entry
  exact ⟨entry, locate_eq_ok_iff.mpr ⟨hshort, hentry⟩, hplace⟩

/-! ### Locations as paths -/

/-- A string that can be the name of a node in a directory. -/
structure IsName (name : String) : Prop where
  ne_empty : name ≠ ""
  ne_dot : name ≠ "."
  ne_dots : name ≠ ".."
  no_slash : '/' ∉ name.toList

/-- A location that is reached from the root by names, through directories. -/
def Reached (fs : FileSystem) (place : Location) : Prop :=
  ∀ before name after, place = before ++ name :: after →
    fs.has Node.isDirectory before ∧ IsName name

namespace Reached

theorem nil (fs : FileSystem) : fs.Reached [] := by
  intro before name after h
  simp at h

theorem dropLast (h : fs.Reached place) : fs.Reached place.dropLast := by
  intro before name after hplace
  rcases List.eq_nil_or_concat place with rfl | ⟨front, last, rfl⟩
  · simp at hplace
  · refine h before name (after ++ [last]) ?_
    rw [List.concat_eq_append, List.dropLast_concat] at hplace
    simp [hplace]

theorem isName (h : fs.Reached place) : ∀ name ∈ place, IsName name := by
  intro name hname
  obtain ⟨before, after, hplace⟩ := List.append_of_mem hname
  exact (h before name after hplace).2

/-- Above a reached location there is a directory. -/
theorem isDirectory_dropLast (h : fs.Reached place) :
    fs.has Node.isDirectory place.dropLast := by
  rcases List.eq_nil_or_concat place with rfl | ⟨front, last, rfl⟩
  · rfl
  · rw [List.concat_eq_append, List.dropLast_concat]
    exact (h front last [] List.concat_eq_append).1

theorem concat (h : fs.Reached place) (hdir : fs.has Node.isDirectory place) {name : String}
    (hname : IsName name) : fs.Reached (place ++ [name]) := by
  intro before other after hplace
  rcases List.eq_nil_or_concat after with rfl | ⟨front, last, rfl⟩
  · obtain ⟨rfl, hlast⟩ := List.append_inj' hplace rfl
    obtain rfl : name = other := by simpa using hlast
    exact ⟨hdir, hname⟩
  · refine h before other front ?_
    rw [List.concat_eq_append, ← List.cons_append, ← List.append_assoc] at hplace
    exact (List.append_inj' hplace rfl).1

theorem agree (h : fs.Reached place) (hagree : AgreeOffFiles fs fs') : fs'.Reached place := by
  intro before name after hplace
  obtain ⟨hdir, hname⟩ := h before name after hplace
  exact ⟨hagree.isDirectory hdir, hname⟩

/-- Nothing is reached below a place that is no directory. -/
theorem not_isPrefixOf (h : fs.Reached place) {above : Location}
    (habove : ¬ fs.has Node.isDirectory above) (hne : above ≠ place) :
    above.isPrefixOf place = false := by
  rw [← Bool.not_eq_true, List.isPrefixOf_iff_prefix]
  rintro ⟨after, rfl⟩
  cases after with
  | nil => simp at hne
  | cons name after => exact habove (h above name after rfl).1

end Reached

theorem no_slash_of_mem_slashPieces {s name : String} (h : name ∈ slashPieces s) :
    '/' ∉ name.toList := by
  rw [slashPieces, List.mem_map] at h
  obtain ⟨piece, hpiece, rfl⟩ := h
  rw [String.toList_ofList]
  exact not_mem_of_mem_splitOn hpiece

theorem slashPieces_of_no_slash {name : String} (h : '/' ∉ name.toList) :
    slashPieces name = [name] := by
  rw [slashPieces, List.splitOn_eq_singleton h, List.map_singleton, String.ofList_toList]

theorem flatMap_slashPieces {names : List String} (h : ∀ name ∈ names, '/' ∉ name.toList) :
    names.flatMap slashPieces = names := by
  rw [List.flatMap_def, List.map_congr_left fun name hname => slashPieces_of_no_slash (h name hname),
    ← List.flatMap_def, List.flatMap_singleton']

/-- What can be looked up is reached. -/
theorem Leads.reached (h : Leads fs aim links here names place) (hhere : fs.Reached here)
    (hnames : ∀ name ∈ names, '/' ∉ name.toList) : fs.Reached place := by
  have hconcat {here : Location} {name : String} {rest : List String} (hhere : fs.Reached here)
      (hin : fs.Enters aim here name rest) (hname : '/' ∉ name.toList) :
      fs.Reached (here ++ [name]) :=
    hhere.concat hin.isDirectory ⟨hin.ne_empty, hin.ne_dot, hin.ne_dots, hname⟩
  induction h with
  | done => exact hhere
  | stay _ _ _ ih => exact ih hhere fun name h => hnames name (List.mem_cons_of_mem _ h)
  | up _ _ ih => exact ih hhere.dropLast fun name h => hnames name (List.mem_cons_of_mem _ h)
  | enter hin _ _ _ ih =>
    exact ih (hconcat hhere hin (hnames _ List.mem_cons_self))
      fun name h => hnames name (List.mem_cons_of_mem _ h)
  | follow hin _ _ _ ih =>
    refine ih ?_ fun name h => ?_
    · rw [linkStart]
      split
      · exact hhere
      · exact .nil fs
    · rcases List.mem_append.mp h with hpiece | hrest
      · exact no_slash_of_mem_slashPieces hpiece
      · exact hnames name (List.mem_cons_of_mem _ hrest)
  | stop hin _ _ | absent hin _ => exact hconcat hhere hin (hnames _ List.mem_cons_self)

/-- The names of a reached location lead to it, unless a last link is followed. -/
theorem Leads.eq_of_reached (h : Leads fs .entry links here names place)
    (hreached : fs.Reached (here ++ names)) : place = here ++ names := by
  induction h with
  | done => simp
  | stay _ hname _ _ =>
    obtain ⟨-, hproper⟩ := hreached _ _ _ rfl
    rcases hname with rfl | ⟨rfl, -⟩
    · exact absurd rfl hproper.ne_empty
    · exact absurd rfl hproper.ne_dot
  | up _ _ _ =>
    obtain ⟨-, hproper⟩ := hreached _ _ _ rfl
    exact absurd rfl hproper.ne_dots
  | enter _ _ _ _ ih => simpa using ih (by simpa using hreached)
  | @follow _ here _ name _ rest _ hnode hlast _ _ =>
    cases rest with
    | nil => exact absurd (hlast rfl) (by decide)
    | cons next more =>
      -- A link that is not last stands where the location has a directory.
      obtain ⟨hdir, -⟩ := hreached (here ++ [name]) next more (by simp)
      exact absurd hdir (not_has_of_node? hnode rfl)
  | stop | absent => rfl

/-- The working directory is where a tree has it: reached from the root through directories. -/
def HomeReached (fs : FileSystem) : Prop := fs.Reached fs.workingDirectory

theorem HomeReached.agree (h : fs.HomeReached) (hagree : AgreeOffFiles fs fs') :
    fs'.HomeReached := by
  rw [HomeReached, hagree.workingDirectory]
  exact Reached.agree h hagree

theorem HomeReached.startOf (h : fs.HomeReached) (path : Path) : fs.Reached (fs.startOf path) := by
  rw [FileSystem.startOf]
  split
  · exact h
  · exact .nil fs

theorem no_slash_of_mem_steps {path : Path} {name : String} (h : name ∈ path.steps) :
    '/' ∉ name.toList := by
  rw [Path.steps] at h
  split at h
  · rw [List.mem_singleton.mp h]
    decide
  · obtain ⟨given, -, hpiece⟩ := List.mem_flatMap.mp h
    exact no_slash_of_mem_slashPieces hpiece

theorem reached_of_locate (hhome : fs.HomeReached) {path : Path}
    (h : fs.locate aim path = .ok place) : fs.Reached place :=
  (locate_eq_ok_iff.mp h).2.reached (hhome.startOf path) fun _ => no_slash_of_mem_steps

/-- A reached location, taken as a path from the root, is looked up at itself. -/
theorem Reached.locate_eq (h : fs.Reached place) {other : Location}
    (hlocate : fs.locate .entry ⟨.root, place⟩ = .ok other) : other = place := by
  have hsteps : (⟨.root, place⟩ : Path).steps = place := by
    rw [Path.steps, if_neg (by simp)]
    exact flatMap_slashPieces fun name hname => (h.isName name hname).no_slash
  have hleads := (locate_eq_ok_iff.mp hlocate).2
  rw [hsteps] at hleads
  exact hleads.eq_of_reached h

end Letterhead.FileSystem
