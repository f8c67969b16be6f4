import LeanResourceManager.Library.Relocation
import LeanResourceManager.MoveFileOutcomes

/-!
Any number of calls of `MoveFile` in one file system: as long as no failure goes
unnoticed, contents only change places.
-/

namespace LeanResourceManager

open LeanFileTree LeanMachine LeanRelocation

structure MoveRequest (α : Type) [IoCount α] where
  environment : MoveEnvironment α
  fuel : Nat
  fromPath : Path
  toPath : Path

variable {α : Type} [IoCount α]

def moveStep [DecidableLE α] [DecidableLT α] (files : FileSystem) (request : MoveRequest α) :
    FileSystem × Option Bool :=
  let outcome := moveFile request.environment request.fuel files request.fromPath request.toPath
  (outcome.files, outcome.returned)

/-- The place that a call reports to have filled, and the one that it took from. -/
def MoveRequest.moved : MoveRequest α × Option Bool → Option (Path × Path)
  | (request, some true) => some (request.fromPath, request.toPath)
  | _ => none

/-- No `Read` fails, and a `Write` that fails says so by a value that is not positive. -/
def MoveRequest.Reliable (request : MoveRequest α) : Prop :=
  request.environment.schedule.Delivers ∧
    ∀ index, (request.environment.schedule.writes index).Caught

def FileSystem.Fits (files : FileSystem) (bound : Nat) : Prop :=
  ∀ path content, files.contentAt path = some content → content.length ≤ bound

theorem created_contentAt (environment : MoveEnvironment α) (files : FileSystem)
    (toPath path : Path) :
    (environment.created files toPath).contentAt path = files.contentAt path := by
  rcases created_entry environment files toPath path with same | ⟨missing, _, directory⟩
  · simp only [FileTree.contentAt, same]
  · simp only [FileTree.contentAt, missing, directory]

theorem created_directory (environment : MoveEnvironment α) (files : FileSystem)
    (toPath path : Path) :
    (files.entry path = some .directory →
      (environment.created files toPath).entry path = some .directory) ∧
    ((environment.created files toPath).entry path = some .directory →
      files.entry path = some .directory ∨ path <:+ pathName toPath) := by
  rcases created_entry environment files toPath path with same | ⟨missing, above, directory⟩
  · rw [same]
    exact ⟨id, .inl⟩
  · rw [missing, directory]
    exact ⟨by simp, fun _ => .inr above⟩

theorem fits_bare (bound : Nat) : FileSystem.Fits .bare bound := by
  intro path content found
  cases path <;> simp [FileTree.contentAt, FileTree.bare] at found

theorem FileSystem.Fits.make {files : FileSystem} {bound : Nat}
    (fits : FileSystem.Fits files bound) {content : Bytes} (short : content.length ≤ bound)
    (path : Path) : FileSystem.Fits ((files.make (.file content) path).getD files) bound := by
  cases making : files.make (.file content) path with
  | none => exact fits
  | some made =>
      obtain ⟨_, updated⟩ := FileTree.make_eq_some making
      intro other found present
      rw [Option.getD_some, FileTree.contentAt_eq_some_iff, updated] at present
      by_cases same : other = path
      · rw [same, Function.update_self] at present
        rw [← Node.file.inj (Option.some.inj present)]
        exact short
      · rw [Function.update_of_ne same] at present
        exact fits other found ((files.contentAt_eq_some_iff other found).mpr present)

section Calls

variable [DecidableLE α] [DecidableLT α] [LawfulIoCount α]

/-- One call that succeeds exchanges its two places, the one being free; one that fails
moves nothing. -/
theorem moveStep_entries (files : FileSystem) {request : MoveRequest α}
    (reliable : request.Reliable) (fits : FileSystem.Fits files request.fuel) :
    let created := request.environment.created files request.toPath
    ((moveStep files request).2 = some false ∧
      (moveStep files request).1.entry = created.entry) ∨
    ∃ content, (moveStep files request).2 = some true ∧
      created.entry request.fromPath = some (.file content) ∧
      created.entry request.toPath = none ∧
      (moveStep files request).1.entry = Function.update
        (Function.update created.entry request.toPath (some (.file content)))
        request.fromPath none := by
  intro created
  cases start : startTransfer request.environment files request.fromPath request.toPath with
  | none =>
      have refused : moveFile request.environment request.fuel files request.fromPath
        request.toPath = _ := moveFile_refused start
      simp only [moveStep, refused]
      exact .inl ⟨trivial, rfl⟩
  | some begun =>
      obtain ⟨content, opened⟩ := begun
      have started := startTransfer_started _ _ _ _ start
      have enough := fits request.fromPath content
        ((files.contentAt_eq_some_iff _ _).mpr started.source)
      obtain ⟨result, after, ended, copied⟩ := transferLoop_exact request.environment.memory
        reliable.1 reliable.2 enough
      obtain ⟨returned, _, entries⟩ := moveFile_ended start ended
      cases result with
      | false => exact .inl ⟨returned, entries⟩
      | true =>
          obtain ⟨accurate, atEnd⟩ := copied
          rw [if_pos rfl, accurate.destination, atEnd, List.take_length] at entries
          exact .inr ⟨content, returned, started.kept, started.free, entries⟩

theorem moveStep_relocates (files : FileSystem) {request : MoveRequest α}
    (reliable : request.Reliable) (fits : FileSystem.Fits files request.fuel) :
    Relocates moveStep MoveRequest.moved FileTree.contentAt files request := by
  intro path
  rw [← created_contentAt request.environment files request.toPath]
  rcases moveStep_entries files reliable fits with
    ⟨failed, entries⟩ | ⟨content, succeeded, source, free, entries⟩
  · rw [failed]
    simp only [FileTree.contentAt, entries]
    rfl
  · rw [succeeded]
    have swapped : swaps (MoveRequest.moved (request, some true)).toList path =
        Equiv.swap request.fromPath request.toPath path := by simp [swaps, MoveRequest.moved]
    simp only [swapped, FileTree.contentAt, entries]
    by_cases atSource : path = request.fromPath
    · subst path
      rw [Function.update_self, Equiv.swap_apply_left, free]
    · rw [Function.update_of_ne atSource]
      by_cases atDestination : path = request.toPath
      · subst path
        rw [Function.update_self, Equiv.swap_apply_right, source]
      · rw [Function.update_of_ne atDestination,
          Equiv.swap_apply_of_ne_of_ne atSource atDestination]

theorem moveStep_fits {files : FileSystem} {request : MoveRequest α} (reliable : request.Reliable)
    (enough : FileSystem.Fits files request.fuel) {bound : Nat}
    (fits : FileSystem.Fits files bound) : FileSystem.Fits (moveStep files request).1 bound := by
  intro path content found
  rw [moveStep_relocates files reliable enough] at found
  exact fits _ content found

theorem moveStep_directory (files : FileSystem) {request : MoveRequest α}
    (reliable : request.Reliable) (fits : FileSystem.Fits files request.fuel) (path : Path) :
    (moveStep files request).1.entry path = some .directory ↔
      (request.environment.created files request.toPath).entry path = some .directory := by
  rcases moveStep_entries files reliable fits with
    ⟨_, entries⟩ | ⟨content, _, source, free, entries⟩
  · rw [entries]
  · rw [entries]
    by_cases atSource : path = request.fromPath
    · subst path
      rw [Function.update_self, source]
      simp
    · rw [Function.update_of_ne atSource]
      by_cases atDestination : path = request.toPath
      · subst path
        rw [Function.update_self, free]
        simp
      · rw [Function.update_of_ne atDestination]

/-! Runs. -/

def MoveRequest.Sufficient (request : MoveRequest α) (bound : Nat) : Prop :=
  request.Reliable ∧ bound ≤ request.fuel

theorem FileSystem.Fits.mono {files : FileSystem} {bound larger : Nat}
    (fits : FileSystem.Fits files bound) (le : bound ≤ larger) : FileSystem.Fits files larger :=
  fun path content found => (fits path content found).trans le

theorem moveStep_sound {bound : Nat} (files : FileSystem) (request : MoveRequest α)
    (sufficient : request.Sufficient bound) (fits : FileSystem.Fits files bound) :
    FileSystem.Fits (moveStep files request).1 bound ∧
      Relocates moveStep MoveRequest.moved FileTree.contentAt files request := by
  have enough := fits.mono sufficient.2
  exact ⟨moveStep_fits sufficient.1 enough fits,
    moveStep_relocates files sufficient.1 enough⟩

theorem moveStep_returns {files : FileSystem} {request : MoveRequest α}
    (reliable : request.Reliable) (fits : FileSystem.Fits files request.fuel) :
    (moveStep files request).2.isSome = true := by
  rcases moveStep_entries files reliable fits with ⟨failed, _⟩ | ⟨_, succeeded, _⟩
  · rw [failed]
    rfl
  · rw [succeeded]
    rfl

/-- What holds of the directories after some calls. -/
structure DirectoriesGrew (before : FileSystem) (history : List (MoveRequest α × Option Bool))
    (after : FileSystem) : Prop where
  kept : ∀ path, before.entry path = some .directory → after.entry path = some .directory
  made : ∀ path, after.entry path = some .directory →
    before.entry path = some .directory ∨
      ∃ call ∈ history, path <:+ pathName call.1.toPath

theorem DirectoriesGrew.step {before files : FileSystem}
    {history : List (MoveRequest α × Option Bool)} (grew : DirectoriesGrew before history files)
    {request : MoveRequest α} (reliable : request.Reliable)
    (fits : FileSystem.Fits files request.fuel) :
    DirectoriesGrew before (history ++ [(request, (moveStep files request).2)])
      (moveStep files request).1 where
  kept path directory := by
    rw [moveStep_directory files reliable fits path]
    exact (created_directory request.environment files request.toPath path).1
      (grew.kept path directory)
  made path directory := by
    rw [moveStep_directory files reliable fits path] at directory
    rcases (created_directory request.environment files request.toPath path).2 directory with
      present | above
    · rcases grew.made path present with original | ⟨call, member, above⟩
      · exact .inl original
      · exact .inr ⟨call, List.mem_append_left _ member, above⟩
    · exact .inr ⟨_, List.mem_append_right _ (List.mem_singleton_self _), above⟩

/-- Whatever is moved where, in any number of calls: every call returns, the contents
found in the end are those of the start under a permutation of the paths, the one that
the successful calls report, and directories are only added, above destinations. -/
theorem moves_permute_contents (files : FileSystem) (requests : List (MoveRequest α))
    (bound : Nat) (fits : FileSystem.Fits files bound)
    (sufficient : ∀ request ∈ requests, request.Sufficient bound) :
    let final := runState moveStep files requests
    let history := runHistory moveStep files requests
    (∀ call ∈ history, call.2.isSome = true) ∧
      (∀ path, final.contentAt path =
        files.contentAt (swaps (history.filterMap MoveRequest.moved) path)) ∧
      DirectoriesGrew files history final := by
  intro final history
  let related (past : List (MoveRequest α × Option Bool)) (state : FileSystem) : Prop :=
    FileSystem.Fits state bound ∧ (∀ call ∈ past, call.2.isSome = true) ∧
      DirectoriesGrew files past state
  have preserved : ∀ past (state : FileSystem) (request : MoveRequest α),
      request.Sufficient bound → related past state →
      related (past ++ [(request, (moveStep state request).2)]) (moveStep state request).1 := by
    rintro past state request allowed ⟨bounded, returned, grew⟩
    have enough := bounded.mono allowed.2
    refine ⟨moveStep_fits allowed.1 enough bounded, ?_, grew.step allowed.1 enough⟩
    intro call member
    rcases List.mem_append.mp member with before | last
    · exact returned call before
    · rw [List.mem_singleton.mp last]
      exact moveStep_returns allowed.1 enough
  have initial : related [] files := ⟨fits, by simp, ⟨fun _ kept => kept, fun _ => .inl⟩⟩
  obtain ⟨_, returned, grew⟩ := runHistory_invariant preserved initial sufficient
  exact ⟨returned, run_relocates moveStep_sound fits sufficient, grew⟩

def threeBytes : FileSystem := (FileTree.bare.make (.file [1, 2, 3]) ["from"]).getD .bare

theorem threeBytes_fits : FileSystem.Fits threeBytes 3 := (fits_bare 3).make (by decide) ["from"]

def inPieces (fromPath toPath : Path) : MoveRequest Int where
  environment := .faultless { reads := fun _ => .bytes 2, writes := fun _ => .bytes 1 }
  fuel := 3
  fromPath := fromPath
  toPath := toPath

theorem inPieces_sufficient (fromPath toPath : Path) : (inPieces fromPath toPath).Sufficient 3 :=
  ⟨⟨fun _ => ⟨2, by decide, rfl⟩, fun _ => trivial⟩, Nat.le_refl 3⟩

theorem moves_permute_contents_taken_place :
    let requests := [inPieces ["from"] ["to", "made"], inPieces ["from"] ["from"],
      inPieces ["to", "made"] ["from"]]
    let final := runState moveStep threeBytes requests
    let history := runHistory moveStep threeBytes requests
    (∀ call ∈ history, call.2.isSome = true) ∧
      (∀ path, final.contentAt path =
        threeBytes.contentAt (swaps (history.filterMap MoveRequest.moved) path)) ∧
      DirectoriesGrew threeBytes history final := by
  intro requests
  refine moves_permute_contents threeBytes requests 3 threeBytes_fits ?_
  intro request member
  simp only [requests, List.mem_cons, List.not_mem_nil, or_false] at member
  rcases member with rfl | rfl | rfl
  all_goals exact inPieces_sufficient _ _

/-- Moving the files back, the last one first, restores every content. -/
theorem moves_back_restore_contents (files : FileSystem) (there back : List (MoveRequest α))
    (bound : Nat) (fits : FileSystem.Fits files bound)
    (sufficient : ∀ request ∈ there ++ back, request.Sufficient bound)
    (returned : (runHistory moveStep (runState moveStep files there) back).filterMap
        MoveRequest.moved =
      ((runHistory moveStep files there).filterMap MoveRequest.moved).reverse.map Prod.swap) :
    ∀ path, (runState moveStep files (there ++ back)).contentAt path = files.contentAt path :=
  run_restores moveStep_sound fits sufficient returned

theorem moves_back_restore_contents_two_steps :
    let there := [inPieces ["from"] ["to", "made"], inPieces ["to", "made"] ["last"]]
    let back := [inPieces ["last"] ["to", "made"], inPieces ["to", "made"] ["from"]]
    ∀ path, (runState moveStep threeBytes (there ++ back)).contentAt path =
      threeBytes.contentAt path := by
  intro there back
  refine moves_back_restore_contents threeBytes there back 3 threeBytes_fits ?_ (by decide)
  intro request member
  simp only [there, back, List.cons_append, List.nil_append, List.mem_cons, List.not_mem_nil,
    or_false] at member
  rcases member with rfl | rfl | rfl | rfl
  all_goals exact inPieces_sufficient _ _

end Calls

end LeanResourceManager
