import Letterhead.FileSystem.Change
import Letterhead.Proofs.FileSystem.Leads

/-!
# The working directory in its tree

A tree is built from its working directory on: the directories above that come first, and then other
nodes, where no directory is. However a tree has been built, its working directory is reached.

## Main results

* `HomeReached.put` — a node put where no directory is leaves the working directory reached
* `homeReached_empty` — the working directory of a new tree is reached
-/

namespace Letterhead.FileSystem

variable {fs fs' : FileSystem} {place other : Location}

/-- A node put where no directory is leaves all directories as they are, with what they permit. -/
theorem has_put (hdir : ¬ fs.has Node.isDirectory place) (node : Node) {sort : Node → Bool}
    (hsort : ∀ {node}, sort node → node.isDirectory) (hother : fs.has sort other) :
    (fs.put place node).has sort other := by
  have hplace : place ≠ [] := by
    rintro rfl
    exact hdir rfl
  have hne : place ≠ other := by
    rintro rfl
    exact hdir (has_mono hsort hother)
  rwa [has, node?_put _ _ hplace, if_neg hne]

theorem HomeReached.put (h : fs.HomeReached) (hdir : ¬ fs.has Node.isDirectory place)
    (node : Node) : (fs.put place node).HomeReached := by
  intro before name after hhome
  obtain ⟨hbefore, hname⟩ := h before name after hhome
  exact ⟨has_put hdir node id hbefore, hname⟩

/-! ### New trees -/

/-- One tree has come of another of directories alone, by adding directories. -/
structure Grown (fs fs' : FileSystem) : Prop where
  workingDirectory : fs'.workingDirectory = fs.workingDirectory
  keeps : ∀ other, fs.has Node.isDirectory other → fs'.has Node.isDirectory other
  only : ∀ other node, fs'.node? other = some node → node.isDirectory

theorem Grown.trans {fs'' : FileSystem} (h : Grown fs fs') (h' : Grown fs' fs'') :
    Grown fs fs'' where
  workingDirectory := h'.workingDirectory.trans h.workingDirectory
  keeps other hother := h'.keeps other (h.keeps other hother)
  only := h'.only

/-- Making one directory, unless something is there, leaves one there. -/
theorem grown_makeDirectory (honly : ∀ other node, fs.node? other = some node → node.isDirectory)
    (place : Location) (mode : Nat) :
    Grown fs (if (fs.node? place).isNone then fs.put place (.directory mode) else fs) ∧
      (if (fs.node? place).isNone then fs.put place (.directory mode) else fs).has Node.isDirectory
        place := by
  cases hnode : fs.node? place with
  | some node =>
    have hdir : fs.has Node.isDirectory place := has_eq_true_iff.mpr ⟨node, hnode, honly _ _ hnode⟩
    exact ⟨⟨rfl, fun _ hother => hother, honly⟩, hdir⟩
  | none =>
    have hdir : ¬ fs.has Node.isDirectory place := not_has_of_none hnode _
    have hplace : place ≠ [] := by
      rintro rfl
      exact hdir rfl
    rw [Option.isNone_none, if_pos rfl]
    refine ⟨⟨rfl, fun other => has_put hdir _ id, fun other node hother => ?_⟩, ?_⟩
    · rw [node?_put _ _ hplace] at hother
      split at hother
      · cases hother
        rfl
      · exact honly other node hother
    · rw [has, node?_put _ _ hplace, if_pos rfl]
      rfl

/-- The directories above a location are all there once they have been made, one after the other. -/
theorem grown_makeParents (honly : ∀ other node, fs.node? other = some node → node.isDirectory)
    (place : Location) :
    Grown fs (fs.makeParents place) ∧
      ∀ count < place.length, (fs.makeParents place).has Node.isDirectory (place.take count) := by
  simp only [makeParents, ← List.mem_range]
  generalize List.range place.length = counts
  induction counts generalizing fs with
  | nil => exact ⟨⟨rfl, fun _ hother => hother, honly⟩, by simp⟩
  | cons count rest ih =>
    obtain ⟨hstep, hmade⟩ := grown_makeDirectory honly (place.take count) newDirectoryMode
    obtain ⟨hrest, hthere⟩ := ih hstep.only
    refine ⟨hstep.trans hrest, fun later hlater => ?_⟩
    rcases List.mem_cons.mp hlater with rfl | hlater
    · exact hrest.keeps _ hmade
    · exact hthere later hlater

/-- The working directory of a new tree is reached, if it has proper names. -/
theorem homeReached_empty {home : Location} (h : ∀ name ∈ home, IsName name) :
    (FileSystem.empty home).HomeReached := by
  have honly : ∀ other node, (⟨∅, home⟩ : FileSystem).node? other = some node →
      node.isDirectory := by
    intro other node hother
    cases other with
    | nil =>
      cases hother
      rfl
    | cons name rest => simp [node?] at hother
  obtain ⟨hgrown, hthere⟩ := grown_makeParents honly home
  intro before name after hhome
  have hhome' : home = before ++ name :: after := hgrown.workingDirectory.symm.trans hhome
  refine ⟨?_, h name (by simp [hhome'])⟩
  have hlength : before.length < home.length := by simp [hhome']
  have hbefore : home.take before.length = before := by simp [hhome']
  have hne : home ≠ [] := by simp [hhome']
  have hother : home ≠ before := by simp [hhome']
  rw [empty, has, node?_put _ _ hne, if_neg hother, ← hbefore]
  exact hthere before.length hlength

end Letterhead.FileSystem
