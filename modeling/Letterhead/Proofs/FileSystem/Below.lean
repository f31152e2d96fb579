import Letterhead.Proofs.FileSystem.Spelling
import Letterhead.Proofs.FileSystem.Stage

/-!
# What is below a directory

The nodes below a directory are those that names lead to from it through directories. They are listed
in the order of these names, as far as the directories permit it. A path that denotes the directory,
with the names behind it, denotes the node: a path to the directory may go through links, but from
there on none is followed.

## Main definitions

* `FileSystem.Below` — a node below a directory
* `FileSystem.InReach` — a path that can be examined, with all that is below it

## Main results

* `FileSystem.mem_entriesBelow_iff` — what is listed below a directory
* `FileSystem.pairwise_entriesBelow` — the order it is listed in
* `FileSystem.Leads.exists_follow_append` — names are followed from where others lead
* `FileSystem.find_below` — the paths of what is listed
* `FileSystem.IsTree.isPlainFile_below_iff` — which of it is taken for a file
-/

namespace Letterhead.FileSystem

variable {fs : FileSystem} {aim : Aim} {links : Nat} {here place place' : Location}
  {names : List String} {node : Node} {root : Path}

/-- A node that names lead to from a directory, with a directory before each of them. -/
structure Below (fs : FileSystem) (place : Location) (names : List String) (node : Node) : Prop where
  ne_nil : names ≠ []
  through : ∀ count < names.length, fs.has Node.isDirectory (place ++ names.take count)
  holds : fs.node? (place ++ names) = some node

/-! ### The list -/

theorem lists_iff : fs.lists place names = true ↔ ∀ count < names.length,
    fs.has Node.isListable (place ++ names.take count) ∧
      (count + 1 < names.length → fs.has Node.isSearchable (place ++ names.take count)) := by
  rw [lists, List.all_eq_true]
  simp only [List.mem_range, Bool.and_eq_true, Bool.or_eq_true, beq_iff_eq]
  refine forall₂_congr fun count hcount => and_congr_right fun _ => ?_
  constructor
  · rintro (hlast | hsearch) hbefore
    · omega
    · exact hsearch
  · intro hsearch
    by_cases hlast : count + 1 = names.length
    · exact Or.inl hlast
    · exact Or.inr (hsearch (by omega))

/-- What is listed below a directory: the nodes with directories before them that may be listed, and
that may be searched but for the last. -/
theorem mem_entriesBelow_iff : names ∈ fs.entriesBelow place ↔
    (∃ node, fs.Below place names node) ∧ ∀ count < names.length,
      fs.has Node.isListable (place ++ names.take count) ∧
        (count + 1 < names.length → fs.has Node.isSearchable (place ++ names.take count)) := by
  rw [entriesBelow, List.mem_filterMap]
  constructor
  · rintro ⟨other, hother, hnames⟩
    obtain ⟨rfl, hne, hlists⟩ := listed_eq_some_iff.mp hnames
    have hlists := lists_iff.mp hlists
    rw [Std.ExtTreeMap.mem_keys, Std.ExtTreeMap.mem_iff_isSome_getElem?,
      Option.isSome_iff_exists] at hother
    obtain ⟨node, hnode⟩ := hother
    refine ⟨⟨node, hne, fun count hcount => ?_, ?_⟩, hlists⟩
    · exact has_mono Node.isDirectory_of_isListable (hlists count hcount).1
    · rwa [node?_of_ne_nil _ (by simp [hne])]
  · rintro ⟨⟨node, hne, -, hnode⟩, hlists⟩
    refine ⟨place ++ names, ?_, listed_eq_some_iff.mpr ⟨rfl, hne, lists_iff.mpr hlists⟩⟩
    rw [node?_of_ne_nil _ (by simp [hne])] at hnode
    rw [Std.ExtTreeMap.mem_keys, Std.ExtTreeMap.mem_iff_isSome_getElem?, hnode]
    rfl

theorem lt_of_compare {xs ys : List String} (h : compare xs ys = .lt) : xs < ys := by
  change List.compareLex compare xs ys = .lt at h
  induction xs generalizing ys with
  | nil =>
    cases ys with
    | nil => cases h
    | cons y ys => exact List.nil_lt_cons y ys
  | cons x xs ih =>
    cases ys with
    | nil => cases h
    | cons y ys =>
      rw [List.compareLex_cons_cons, Ordering.then_eq_lt] at h
      rw [List.cons_lt_cons_iff]
      rcases h with hlt | ⟨heq, hlt⟩
      · exact Or.inl (compareOfLessAndEq_eq_lt.mp hlt)
      · exact Or.inr ⟨Std.LawfulEqOrd.eq_of_compare heq, ih hlt⟩

theorem lt_of_append_lt {xs ys zs : List String} (h : xs ++ ys < xs ++ zs) : ys < zs := by
  induction xs with
  | nil => exact h
  | cons x xs ih =>
    rcases List.cons_lt_cons_iff.mp h with hlt | ⟨-, hlt⟩
    · exact absurd hlt (String.lt_irrefl x)
    · exact ih hlt

/-- What is below a directory is listed in the order of the lists of names. -/
theorem pairwise_entriesBelow (fs : FileSystem) (place : Location) :
    (fs.entriesBelow place).Pairwise (· < ·) := by
  refine fs.nodes.ordered_keys.filterMap _ fun other other' hlt names hnames names' hnames' => ?_
  obtain ⟨rfl, -⟩ := listed_eq_some_iff.mp hnames
  obtain ⟨rfl, -⟩ := listed_eq_some_iff.mp hnames'
  exact lt_of_append_lt (lt_of_compare hlt)

/-! ### The paths -/

/-- Names behind others are followed from the directory that those lead to, if fewer links may be
followed from there. -/
theorem Leads.exists_follow_append (h : Leads fs .target links here names place)
    (hdir : fs.has Node.isDirectory place) (haim : aim ≠ .file) :
    ∃ fewer, ∀ more, more ≠ [] →
      fs.follow aim links here (names ++ more) = fs.follow aim fewer place more := by
  have henters {here : Location} {name : String} {rest more : List String}
      (hin : fs.Enters .target here name rest) : fs.Enters aim here name (rest ++ more) :=
    { hin with asksFile := fun h => haim h.1 }
  -- Each step goes the same way with more names behind it, but that a link is now followed.
  induction h with
  | @done links _ => exact ⟨links, fun more _ => rfl⟩
  | stay hhere hname _ ih =>
    obtain ⟨fewer, hmore⟩ := ih hdir
    refine ⟨fewer, fun more hne => ?_⟩
    rw [← hmore more hne, follow_eq_walk, List.cons_append, walk_stay hhere hname]
  | up hsearch _ ih =>
    obtain ⟨fewer, hmore⟩ := ih hdir
    refine ⟨fewer, fun more hne => ?_⟩
    rw [← hmore more hne, follow_eq_walk, List.cons_append, walk_up hsearch]
  | @enter links here _ name rest node hin hnode hlink _ ih =>
    obtain ⟨fewer, hmore⟩ := ih hdir
    refine ⟨fewer, fun more hne => ?_⟩
    rw [← hmore more hne, follow_eq_walk, List.cons_append, (henters hin).walk_eq, hnode]
    cases node with
    | link => cases hlink
    | file | directory => rfl
  | @follow links here _ name target rest hin hnode _ _ ih =>
    obtain ⟨fewer, hmore⟩ := ih hdir
    refine ⟨fewer, fun more hne => ?_⟩
    rw [← hmore more hne, follow_eq_walk, List.cons_append, (henters hin).walk_eq, hnode]
    simp only
    rw [if_neg (by simp [hne]), ← List.append_assoc]
    rfl
  | stop _ _ haim => cases haim
  | absent _ hnone => exact absurd hdir (not_has_of_none hnone _)

/-- The directory comes before the first name, and the others go on from there. -/
theorem Below.cons {name : String} {rest : List String}
    (h : fs.Below place (name :: rest) node) :
    fs.has Node.isDirectory place ∧ (rest = [] ∧ fs.node? (place ++ [name]) = some node ∨
      fs.Below (place ++ [name]) rest node) := by
  obtain ⟨-, hthrough, hnode⟩ := h
  refine ⟨by simpa using hthrough 0 (by simp), ?_⟩
  by_cases hrest : rest = []
  · subst hrest
    exact Or.inl ⟨rfl, hnode⟩
  · refine Or.inr ⟨hrest, fun count hcount => ?_, by simpa using hnode⟩
    simpa using hthrough (count + 1) (by simpa using hcount)

/-- Names that a node below a directory has lead to it, if they can be passed. -/
theorem Below.leads (h : fs.Below place names node) (hnames : ∀ name ∈ names, IsName name)
    (hpass : fs.Passable place names) :
    Leads fs .entry links place names (place ++ names) := by
  induction names generalizing place with
  | nil => exact absurd rfl h.ne_nil
  | cons name rest ih =>
    obtain ⟨hname, hnames⟩ := List.forall_mem_cons.mp hnames
    obtain ⟨hsearch, hfit, hpass⟩ := hpass
    have henters (rest : List String) : fs.Enters .entry place name rest :=
      ⟨hsearch, hname.ne_empty, hname.ne_dot, hname.ne_dots, by simp, hfit⟩
    obtain ⟨-, ⟨rfl, hnode⟩ | hbelow⟩ := h.cons
    · exact (henters []).leads_entry
    · have hnext : fs.has Node.isDirectory (place ++ [name]) := by
        simpa using hbelow.through 0 (List.length_pos_iff.mpr hbelow.ne_nil)
      obtain ⟨next, hnode, hdir⟩ := has_eq_true_iff.mp hnext
      have hlink : next.isLink = false := by
        cases next with
        | directory => rfl
        | file | link => cases hdir
      rw [List.append_cons]
      exact .enter (henters rest) hnode hlink (ih hbelow hnames hpass)

/-- What is below a directory has proper names. -/
theorem IsTree.names_of_below (htree : fs.IsTree) (h : fs.Below place names node) :
    ∀ name ∈ names, IsName name :=
  fun name hname => (htree.names_of_node? h.holds name (List.mem_append_right _ hname)).1

theorem steps_below (root : Path) (hne : names ≠ []) (hnames : ∀ name ∈ names, IsName name) :
    (root.below names).steps = root.names.flatMap slashPieces ++ names := by
  have hall : (root.below names).names ≠ [] := List.append_ne_nil_of_right_ne_nil _ hne
  rw [Path.steps_of_names hall, Path.below, List.flatMap_append,
    flatMap_slashPieces fun name hname => (hnames name hname).no_slash]

/-- Where a path leads, its names do, though the path be written as a dot. -/
theorem Leads.of_steps (h : Leads fs aim links here root.steps place) :
    Leads fs aim links here (root.names.flatMap slashPieces) place := by
  rw [Path.steps] at h
  split at h
  · rename_i hdot
    rw [h.eq_of_dot, hdot.2]
    exact .done
  · exact h

/-- A path of a directory, with names behind it, is followed from the directory. -/
theorem exists_locate_below {mode : Nat} (hroot : fs.find .target root = .ok (place, .directory mode))
    (haim : aim ≠ .file) (hne : names ≠ []) (hnames : ∀ name ∈ names, IsName name)
    (hroom : (root.below names).toString.utf8ByteSize < pathLimit) :
    ∃ fewer, fs.locate aim (root.below names) = fs.follow aim fewer place names := by
  obtain ⟨hlocate, hnode⟩ := find_eq_ok_iff.mp hroot
  have hdir : fs.has Node.isDirectory place := has_of_node? hnode _
  obtain ⟨fewer, hmore⟩ :=
    (locate_eq_ok_iff.mp hlocate).2.of_steps.exists_follow_append hdir haim
  refine ⟨fewer, ?_⟩
  rw [locate, if_neg (Nat.not_le.mpr hroom), steps_below root hne hnames]
  exact hmore names hne

/-- What is below a directory is denoted by a path of the directory with the names behind it, if they
can be passed. -/
theorem find_below {mode : Nat} (hroot : fs.find .target root = .ok (place, .directory mode))
    (hbelow : fs.Below place names node) (hnames : ∀ name ∈ names, IsName name)
    (hpass : fs.Passable place names)
    (hroom : (root.below names).toString.utf8ByteSize < pathLimit) :
    fs.find .entry (root.below names) = .ok (place ++ names, node) := by
  obtain ⟨fewer, hlocate⟩ := exists_locate_below hroot (show Aim.entry ≠ .file by decide)
    hbelow.ne_nil hnames hroom
  exact find_eq_ok_iff.mpr ⟨hlocate.trans (hbelow.leads hnames hpass).follow_eq, hbelow.holds⟩

theorem Below.reached (h : fs.Below place names node) (hplace : fs.Reached place)
    (hnames : ∀ name ∈ names, IsName name) : fs.Reached (place ++ names) := by
  induction names generalizing place with
  | nil => simpa using hplace
  | cons name rest ih =>
    obtain ⟨hname, hnames⟩ := List.forall_mem_cons.mp hnames
    obtain ⟨hhere, ⟨rfl, -⟩ | hbelow⟩ := h.cons
    · exact hplace.concat hhere hname
    · rw [List.append_cons]
      exact ih hbelow (hplace.concat hhere hname) hnames

/-- What is below a directory is found by a path of the directory with its names behind it, or every
look-up of that path is barred. -/
theorem IsTree.find_below_cases (htree : fs.IsTree) {mode : Nat}
    (hroot : fs.find .target root = .ok (place, .directory mode)) (hbelow : fs.Below place names node)
    (haim : aim ≠ .file) :
    (fs.Passable place names ∧ (root.below names).toString.utf8ByteSize < pathLimit) ∧
        fs.find .entry (root.below names) = .ok (place ++ names, node) ∨
      ¬ (fs.Passable place names ∧ (root.below names).toString.utf8ByteSize < pathLimit) ∧
        ∃ problem : Problem, problem.Bars ∧ fs.locate aim (root.below names) = .error problem := by
  have hnames := htree.names_of_below hbelow
  by_cases hroom : (root.below names).toString.utf8ByteSize < pathLimit
  · by_cases hpass : fs.Passable place names
    · exact Or.inl ⟨⟨hpass, hroom⟩, find_below hroot hbelow hnames hpass hroom⟩
    · -- The path leads to its directory, and from there the walk is barred at one of the names.
      refine Or.inr ⟨fun h => hpass h.1, ?_⟩
      have hplace := reached_of_locate htree.homeReached (find_eq_ok_iff.mp hroot).1
      obtain ⟨fewer, hfollow⟩ := exists_locate_below hroot haim hbelow.ne_nil hnames hroom
      obtain ⟨problem, hbars, herror⟩ := walk_reached_barred haim (fs.followLink aim fewer) names []
        place (hbelow.reached hplace hnames) hpass
      rw [List.append_nil, ← follow_eq_walk, ← hfollow] at herror
      exact ⟨problem, hbars, herror⟩
  · refine Or.inr ⟨fun h => hroom h.2, .nameTooLong, Or.inl rfl, ?_⟩
    rw [locate, if_pos (Nat.not_lt.mp hroom)]

/-- If a path of a directory, with the names of a node behind it, leads anywhere, it denotes the
node. -/
theorem IsTree.find_below_of_locate (htree : fs.IsTree) {mode : Nat}
    (hroot : fs.find .target root = .ok (place, .directory mode)) (hbelow : fs.Below place names node)
    (hlocate : fs.locate .target (root.below names) = .ok place') :
    fs.find .entry (root.below names) = .ok (place ++ names, node) := by
  rcases htree.find_below_cases hroot hbelow (show Aim.target ≠ .file by decide) with
    ⟨-, hfind⟩ | ⟨-, problem, -, herror⟩
  · exact hfind
  · rw [hlocate] at herror
    cases herror

/-- A path that can be examined, with no name listed below it that is too long, and no directory too
deep to be opened or with too long a path. -/
structure InReach (fs : FileSystem) (path : Path) : Prop where
  looked : path.hasNul = true ∨ ¬ fs.Barred path
  fits : ∀ place, fs.locate .target path = .ok place → ∀ names ∈ fs.entriesBelow place,
    ∀ name ∈ names, name.utf8ByteSize ≤ nameLimit
  opens : ∀ place, fs.locate .target path = .ok place → ∀ names ∈ fs.entriesBelow place,
    fs.has Node.isDirectory (place ++ names) →
      names.length ≤ nestingLimit ∧ (path.below names).toString.utf8ByteSize < pathLimit

/-- A path that has been looked up, with nothing out of reach below the place that it denotes. -/
theorem InReach.of_locate (h : fs.locate .target root = .ok place)
    (hfits : ∀ names ∈ fs.entriesBelow place, ∀ name ∈ names, name.utf8ByteSize ≤ nameLimit)
    (hopens : ∀ names ∈ fs.entriesBelow place, fs.has Node.isDirectory (place ++ names) →
      names.length ≤ nestingLimit ∧ (root.below names).toString.utf8ByteSize < pathLimit) :
    fs.InReach root where
  looked := by
    refine Or.inr ?_
    rintro ⟨problem, -, herror⟩
    rw [h] at herror
    cases herror
  fits place' h' := by
    obtain rfl := Except.ok.inj (h.symm.trans h')
    exact hfits
  opens place' h' := by
    obtain rfl := Except.ok.inj (h.symm.trans h')
    exact hopens

/-- A listing leaves open only whether the last directory on the way may be searched. -/
theorem searchable_of_mem_entriesBelow (hlisted : names ∈ fs.entriesBelow place)
    (hlast : fs.has Node.isSearchable (place ++ names.dropLast)) :
    ∀ count < names.length, fs.has Node.isSearchable (place ++ names.take count) := by
  intro count hcount
  by_cases heq : count = names.length - 1
  · rwa [heq, ← List.dropLast_eq_take]
  · exact ((mem_entriesBelow_iff.mp hlisted).2 count hcount).2 (by omega)

/-- What is listed can be passed just if its own directory may be searched, as those above it may, and
the system takes the names. -/
theorem passable_of_mem_entriesBelow (hlisted : names ∈ fs.entriesBelow place)
    (hfits : ∀ name ∈ names, name.utf8ByteSize ≤ nameLimit) :
    fs.Passable place names ↔ fs.has Node.isSearchable (place ++ names.dropLast) := by
  obtain ⟨⟨node, hbelow⟩, -⟩ := mem_entriesBelow_iff.mp hlisted
  have hlength := List.length_pos_iff.mpr hbelow.ne_nil
  rw [passable_iff, and_iff_right hfits]
  refine ⟨fun hsearch => ?_, searchable_of_mem_entriesBelow hlisted⟩
  rw [List.dropLast_eq_take]
  exact hsearch (names.length - 1) (by omega)

/-- What is listed below a directory is taken for a plain file just if it is a file there, in a
directory that may be searched, and its path is short enough. -/
theorem IsTree.isPlainFile_below_iff (htree : fs.IsTree) (hnul : root.hasNul = false) {mode : Nat}
    (hroot : fs.find .target root = .ok (place, .directory mode))
    (hlisted : names ∈ fs.entriesBelow place)
    (hfits : ∀ name ∈ names, name.utf8ByteSize ≤ nameLimit) (hbelow : fs.Below place names node) :
    fs.isPlainFile (root.below names) = true ↔ node.isFile = true ∧
      fs.has Node.isSearchable (place ++ names.dropLast) ∧
        (root.below names).toString.utf8ByteSize < pathLimit := by
  have hnul' : (root.below names).hasNul = false := by
    rw [Path.hasNul, Path.below, List.any_append, Bool.or_eq_false_iff]
    refine ⟨hnul, List.any_eq_false.mpr fun name hname => ?_⟩
    simpa using (htree.names_of_node? hbelow.holds name (List.mem_append_right _ hname)).2
  rw [isPlainFile_eq_true_iff, ← passable_of_mem_entriesBelow hlisted hfits]
  rcases htree.find_below_cases hroot hbelow (show Aim.entry ≠ .file by decide) with
    ⟨hopen, hfind⟩ | ⟨hshut, problem, hbars, herror⟩
  · rw [and_iff_left hopen, isLink_of_find hnul' hfind]
    cases node with
    | link =>
      refine iff_of_false (fun h => ?_) Bool.false_ne_true
      cases h.1
    | file | directory =>
      -- Whether the last name is followed does not matter, since it is not that of a link.
      rw [isFile, test, hnul', find_target_of_entry hfind rfl]
      simp [Node.isLink]
  · -- The question whether it is a link has no answer, and so it is left out.
    rw [isLink, (test_eq_error_iff (by decide)).mpr ⟨hnul', herror, hbars⟩]
    refine iff_of_false (fun h => ?_) fun h => hshut h.2
    cases h.1

end Letterhead.FileSystem
