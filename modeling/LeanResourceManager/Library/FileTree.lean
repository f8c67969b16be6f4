import Mathlib.Data.List.Infix
import Mathlib.Logic.Function.Basic

/-!
Trees of directories and files. A path lists its names from the innermost out, so
the parent of `name :: parent` is `parent` and the directories above a path are its
proper suffixes.
-/

namespace LeanFileTree

variable {ν β : Type}

inductive Node (β : Type) where
  | directory
  | file (content : β)
  deriving DecidableEq

@[ext]
structure FileTree (ν β : Type) where
  entry : List ν → Option (Node β)
  root : entry [] = some .directory
  closed : ∀ name parent, entry (name :: parent) ≠ none → entry parent = some .directory

namespace FileTree

def bare : FileTree ν β where
  entry
    | [] => some .directory
    | _ => none
  root := rfl
  closed _ _ occupied := absurd rfl occupied

def contentAt (tree : FileTree ν β) (path : List ν) : Option β :=
  match tree.entry path with
  | some (.file content) => some content
  | _ => none

theorem contentAt_eq_some_iff (tree : FileTree ν β) (path : List ν) (content : β) :
    tree.contentAt path = some content ↔ tree.entry path = some (.file content) := by
  simp only [contentAt]
  split <;> simp_all

theorem ne_nil_of_file {tree : FileTree ν β} {path : List ν} {content : β}
    (isFile : tree.entry path = some (.file content)) : path ≠ [] := by
  intro atRoot
  rw [atRoot, tree.root] at isFile
  simp at isFile

variable [DecidableEq ν]

/-- A new node in an existing directory, under a name that is still free. -/
def attach (tree : FileTree ν β) (name : ν) (parent : List ν) (node : Node β)
    (inDirectory : tree.entry parent = some .directory)
    (free : tree.entry (name :: parent) = none) : FileTree ν β where
  entry := Function.update tree.entry (name :: parent) (some node)
  root := by rw [Function.update_of_ne (by simp), tree.root]
  closed := by
    intro child above occupied
    by_cases new : child :: above = name :: parent
    · have same : above = parent := (List.cons.inj new).2
      rw [same, Function.update_of_ne (List.cons_ne_self name parent).symm, inDirectory]
    · rw [Function.update_of_ne new] at occupied
      have directory := tree.closed child above occupied
      have different : above ≠ name :: parent := by
        intro same
        rw [same, free] at directory
        simp at directory
      rw [Function.update_of_ne different, directory]

/-- Replaces or removes a file. -/
def replace (tree : FileTree ν β) (path : List ν) (content : Option β)
    (isFile : (tree.contentAt path).isSome = true) : FileTree ν β where
  entry := Function.update tree.entry path (content.map .file)
  root := by
    obtain ⟨old, found⟩ := Option.isSome_iff_exists.mp isFile
    have notRoot := ne_nil_of_file ((tree.contentAt_eq_some_iff path old).mp found)
    rw [Function.update_of_ne notRoot.symm, tree.root]
  closed := by
    intro child above occupied
    obtain ⟨old, found⟩ := Option.isSome_iff_exists.mp isFile
    have file := (tree.contentAt_eq_some_iff path old).mp found
    have present : tree.entry (child :: above) ≠ none := by
      by_cases same : child :: above = path
      · rw [same, file]
        simp
      · rwa [Function.update_of_ne same] at occupied
    have directory := tree.closed child above present
    have different : above ≠ path := by
      intro same
      rw [same, file] at directory
      simp at directory
    rw [Function.update_of_ne different, directory]

def write (tree : FileTree ν β) (path : List ν) (content : β) : FileTree ν β :=
  if isFile : (tree.contentAt path).isSome = true then tree.replace path (some content) isFile
  else tree

def remove (tree : FileTree ν β) (path : List ν) : FileTree ν β :=
  if isFile : (tree.contentAt path).isSome = true then tree.replace path none isFile else tree

theorem write_entry {tree : FileTree ν β} {path : List ν} {old : β}
    (isFile : tree.entry path = some (.file old)) (content : β) :
    (tree.write path content).entry =
      Function.update tree.entry path (some (.file content)) := by
  have found := (tree.contentAt_eq_some_iff path old).mpr isFile
  simp [write, found, replace]

theorem remove_entry {tree : FileTree ν β} {path : List ν} {old : β}
    (isFile : tree.entry path = some (.file old)) :
    (tree.remove path).entry = Function.update tree.entry path none := by
  have found := (tree.contentAt_eq_some_iff path old).mpr isFile
  simp [remove, found, replace]

variable [DecidableEq β]

def make (tree : FileTree ν β) (node : Node β) : List ν → Option (FileTree ν β)
  | [] => none
  | name :: parent =>
      if possible : tree.entry parent = some .directory ∧ tree.entry (name :: parent) = none then
        some (tree.attach name parent node possible.1 possible.2)
      else none

/-- The missing directories of a path, outermost first; one that fails or whose
place is taken leaves those below it missing. -/
def makeDirectories (tree : FileTree ν β) (fails : List ν → Bool) : List ν → FileTree ν β
  | [] => tree
  | name :: parent =>
      let above := tree.makeDirectories fails parent
      if fails (name :: parent) then above
      else (above.make .directory (name :: parent)).getD above

theorem make_eq_some {tree made : FileTree ν β} {node : Node β} {path : List ν}
    (done : tree.make node path = some made) :
    tree.entry path = none ∧ made.entry = Function.update tree.entry path (some node) := by
  cases path with
  | nil => simp [make] at done
  | cons name parent =>
      simp only [make] at done
      split at done
      · rename_i possible
        rw [← Option.some.inj done]
        exact ⟨possible.2, rfl⟩
      · simp at done

theorem makeDirectories_entry (tree : FileTree ν β) (fails : List ν → Bool) (path other : List ν) :
    (tree.makeDirectories fails path).entry other = tree.entry other ∨
      (tree.entry other = none ∧ other <:+ path ∧
        (tree.makeDirectories fails path).entry other = some .directory) := by
  induction path with
  | nil => exact .inl rfl
  | cons name parent ih =>
      have above : (tree.makeDirectories fails parent).entry other = tree.entry other ∨
          (tree.entry other = none ∧ other <:+ name :: parent ∧
            (tree.makeDirectories fails parent).entry other = some .directory) := by
        rcases ih with kept | ⟨missing, onPath, added⟩
        · exact .inl kept
        · exact .inr ⟨missing, onPath.trans (List.suffix_cons name parent), added⟩
      simp only [makeDirectories]
      split
      · exact above
      · cases making : (tree.makeDirectories fails parent).make .directory (name :: parent) with
        | none => exact above
        | some made =>
            obtain ⟨free, updated⟩ := make_eq_some making
            rw [Option.getD_some, updated]
            by_cases same : other = name :: parent
            · subst other
              rw [Function.update_self]
              rcases above with kept | ⟨missing, onPath, _⟩
              · exact .inr ⟨by rw [← kept, free], List.suffix_refl _, rfl⟩
              · exact .inr ⟨missing, onPath, rfl⟩
            · rw [Function.update_of_ne same]
              exact above

end FileTree

end LeanFileTree
