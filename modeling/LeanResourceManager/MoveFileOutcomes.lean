import Mathlib.Data.Option.Basic
import LeanResourceManager.MoveFileTransfer

/-!
`MoveFile` as a whole: what it leaves in the file system, whether it succeeds or fails.
-/

namespace LeanResourceManager

open LeanFileTree

structure Started (files : FileSystem) (created opened : FileSystem) (fromPath toPath : Path)
    (content : Bytes) : Prop where
  source : files.entry fromPath = some (.file content)
  absent : files.entry toPath = none
  kept : created.entry fromPath = some (.file content)
  free : created.entry toPath = none
  opened : opened.entry = Function.update created.entry toPath (some (.file []))

theorem Started.different {files created opened : FileSystem} {fromPath toPath : Path}
    {content : Bytes} (started : Started files created opened fromPath toPath content) :
    fromPath ≠ toPath := by
  intro same
  have occupied := started.source
  rw [same, started.absent] at occupied
  simp at occupied

def MoveEnvironment.faultless {α : Type} [IoCount α] (schedule : Schedule α) :
    MoveEnvironment α where
  mkdirFails _ := false
  openFails := false
  createFails := false
  schedule := schedule
  memory _ := 0

section Start

variable {α : Type} [IoCount α] (environment : MoveEnvironment α) (files : FileSystem)
  (fromPath toPath : Path)

def MoveEnvironment.created : FileSystem :=
  files.makeDirectories environment.mkdirFails (pathName toPath)

theorem created_entry (path : Path) :
    (environment.created files toPath).entry path = files.entry path ∨
      (files.entry path = none ∧ path <:+ pathName toPath ∧
        (environment.created files toPath).entry path = some .directory) :=
  files.makeDirectories_entry environment.mkdirFails (pathName toPath) path

theorem startTransfer_started {content : Bytes} {opened : FileSystem}
    (start : startTransfer environment files fromPath toPath = some (content, opened)) :
    Started files (environment.created files toPath) opened fromPath toPath content := by
  simp only [startTransfer, Option.bind_eq_bind, Option.bind_eq_some_iff, Option.pure_def,
    Option.some.injEq, Prod.mk.injEq, Option.guard_eq_some'] at start
  obtain ⟨_, checked, _, _, source, found, _, _, made, making, sameSource, sameMade⟩ := start
  subst source
  subst made
  have kept := ((environment.created files toPath).contentAt_eq_some_iff fromPath content).mp found
  obtain ⟨free, opened⟩ := FileTree.make_eq_some making
  simp only [Bool.and_eq_true, Bool.not_eq_true', Option.isSome_eq_false_iff,
    Option.isNone_iff_eq_none] at checked
  refine ⟨?_, checked.2, kept, free, opened⟩
  rcases created_entry environment files toPath fromPath with same | ⟨_, _, directory⟩
  · rw [← same, kept]
  · rw [kept] at directory
    simp at directory

variable {environment files fromPath toPath} [DecidableLE α] [DecidableLT α] {fuel : Nat}

theorem moveFile_refused (start : startTransfer environment files fromPath toPath = none) :
    moveFile environment fuel files fromPath toPath =
      { returned := some false, files := environment.created files toPath, log := [] } := by
  simp only [moveFile, start]
  rfl

theorem moveFile_log {content : Bytes} {opened : FileSystem}
    (start : startTransfer environment files fromPath toPath = some (content, opened)) :
    (moveFile environment fuel files fromPath toPath).log =
      (transferLoop environment.schedule fuel (.opened content environment.memory)).2.log := by
  simp only [moveFile, start]
  split
  all_goals rfl

theorem moveFile_returned {content : Bytes} {opened : FileSystem}
    (start : startTransfer environment files fromPath toPath = some (content, opened)) :
    (moveFile environment fuel files fromPath toPath).returned =
      (transferLoop environment.schedule fuel (.opened content environment.memory)).1 := by
  simp only [moveFile, start]
  split
  all_goals simp_all

/-- How the loops end decides what `MoveFile` returns and which file it destroys. -/
theorem moveFile_ended {content : Bytes} {opened : FileSystem} {result : Bool}
    {transfer : Transfer α}
    (start : startTransfer environment files fromPath toPath = some (content, opened))
    (ended : transferLoop environment.schedule fuel (.opened content environment.memory) =
      (some result, transfer)) :
    let outcome := moveFile environment fuel files fromPath toPath
    outcome.returned = some result ∧ outcome.log = transfer.log ∧
      outcome.files.entry =
        if result then
          Function.update (Function.update (environment.created files toPath).entry toPath
            (some (.file transfer.destination))) fromPath none
        else (environment.created files toPath).entry := by
  have started := startTransfer_started environment files fromPath toPath start
  have written : (opened.write toPath transfer.destination).entry =
      Function.update (environment.created files toPath).entry toPath
        (some (.file transfer.destination)) := by
    have empty : opened.entry toPath = some (.file []) := by
      rw [started.opened, Function.update_self]
    rw [FileTree.write_entry empty, started.opened, Function.update_idem]
  cases result with
  | true =>
      have present : (opened.write toPath transfer.destination).entry fromPath =
          some (.file content) := by
        rw [written, Function.update_of_ne started.different, started.kept]
      simp only [moveFile, start, ended, if_true, FileTree.remove_entry present, written, and_self]
  | false =>
      have present : (opened.write toPath transfer.destination).entry toPath =
          some (.file transfer.destination) := by
        rw [written, Function.update_self]
      have restored : Function.update (environment.created files toPath).entry toPath none =
          (environment.created files toPath).entry :=
        Function.update_eq_self_iff.mpr started.free.symm
      simp only [moveFile, start, ended, Bool.false_eq_true, if_false,
        FileTree.remove_entry present, written, Function.update_idem, restored, and_self]

end Start

/-- A `Write` of signed results: its bytes come next in the source and were just read,
and its count leaves a length that is not negative. -/
structure WriteCall.AsksNext (content : Bytes) (call : WriteCall Int) : Prop where
  len : 0 < call.len
  inside : call.ptr + call.len.toNat ≤ call.stored
  stored : call.stored ≤ bufLen
  next : call.destination ++ span call.memory call.ptr call.len.toNat <+: content
  left : 0 ≤ call.len - call.count

theorem WriteCall.count_le (call : WriteCall Int) (positive : 0 < call.len) :
    call.count ≤ call.len := by
  have length : IoCount.bytes call.len = call.len.toNat := rfl
  cases answer : call.answer with
  | bytes wanted =>
      have count : call.count = ((min wanted call.len.toNat : Nat) : Int) := by
        rw [WriteCall.count, answer, length]
        rfl
      omega
  | error value reported =>
      have count : call.count = value := by
        rw [WriteCall.count, answer]
        rfl
      have failed : value ≤ 0 := reported
      omega

theorem WriteCall.Within.asksNext {content : Bytes} {call : WriteCall Int} {remaining : Nat}
    (within : call.Within content remaining) : call.AsksNext content := by
  have len : call.len = (remaining : Int) := within.len
  have positive : 0 < call.len := by
    have bytesLeft := within.positive
    omega
  have length : call.len.toNat = remaining := by rw [len, Int.toNat_natCast]
  refine ⟨positive, ?_, within.stored, ?_, ?_⟩
  · rw [length, within.inside]
  · rw [length]
    exact within.next
  · have bounded := call.count_le positive
    omega

theorem IoAnswer.caught_signed (answer : IoAnswer Int) : answer.Caught := by
  cases answer with
  | bytes wanted => exact trivial
  | error value reported => exact reported

/-- Once the transfer has started, error-free reads end both loops, `MoveFile` returns
true exactly if no write failed, and then the file has moved. -/
theorem moveFile_copies_exactly (environment : MoveEnvironment Int) (files : FileSystem)
    (fromPath toPath : Path) (content : Bytes)
    (source : files.entry fromPath = some (.file content))
    (started : (startTransfer environment files fromPath toPath).isSome = true)
    (delivers : environment.schedule.Delivers) (fuel : Nat) (enough : content.length ≤ fuel) :
    let outcome := moveFile environment fuel files fromPath toPath
    ∃ result, outcome.returned = some result ∧
      (∀ call, .write call ∈ outcome.log → call.AsksNext content) ∧
      (result = true ↔ ∀ call, .write call ∈ outcome.log → 0 < call.count) ∧
      (result = true → outcome.files.entry toPath = some (.file content) ∧
        outcome.files.entry fromPath = none) := by
  obtain ⟨⟨read, opened⟩, start⟩ := Option.isSome_iff_exists.mp started
  have begun := startTransfer_started environment files fromPath toPath start
  have same : read = content := by
    have found := begun.source
    rw [source] at found
    exact (Node.file.inj (Option.some.inj found)).symm
  subst read
  obtain ⟨result, after, ended, copied⟩ := transferLoop_exact
    environment.memory delivers (fun index => (environment.schedule.writes index).caught_signed)
    enough
  obtain ⟨returned, log, entries⟩ := moveFile_ended start ended
  refine ⟨result, returned, ?_⟩
  rw [log, entries]
  cases result with
  | true =>
      obtain ⟨accurate, atEnd⟩ := copied
      refine ⟨?_, ?_, ?_⟩
      · intro call member
        obtain ⟨remaining, within⟩ := accurate.within call member
        exact within.asksNext
      · simpa using fun call member => Int.not_le.mp (accurate.succeeded call member)
      · intro _
        rw [accurate.destination, atEnd, List.take_length, if_pos rfl]
        rw [Function.update_of_ne begun.different.symm, Function.update_self, Function.update_self]
        exact ⟨rfl, rfl⟩
  | false =>
      refine ⟨?_, ?_, by simp⟩
      · intro call member
        obtain ⟨remaining, within⟩ := copied.within call member
        exact within.asksNext
      · obtain ⟨call, member, failed⟩ := copied.failed
        simp only [Bool.false_eq_true, false_iff, not_forall]
        exact ⟨call, member, Int.not_lt.mpr failed⟩

theorem moveFile_copies_exactly_three_bytes :
    let files : FileSystem := (FileTree.bare.make (.file [1, 2, 3]) ["from"]).getD .bare
    let environment : MoveEnvironment Int :=
      .faultless { reads := fun _ => .bytes 2, writes := fun _ => .bytes 1 }
    let outcome := moveFile environment 3 files ["from"] ["to", "made"]
    ∃ result, outcome.returned = some result ∧
      (∀ call, .write call ∈ outcome.log → call.AsksNext [1, 2, 3]) ∧
      (result = true ↔ ∀ call, .write call ∈ outcome.log → 0 < call.count) ∧
      (result = true → outcome.files.entry ["to", "made"] = some (.file [1, 2, 3]) ∧
        outcome.files.entry ["from"] = none) := by
  intro files environment
  exact moveFile_copies_exactly environment files ["from"] ["to", "made"] [1, 2, 3] (by decide)
    (by decide) (fun _ => ⟨2, by decide, rfl⟩) 3 (by decide)

/-! A failed call: the files are as they were, and so are the directories except for
those that `CreatePath` made. -/

theorem moveFile_failed_files {α : Type} [IoCount α] [DecidableLE α] [DecidableLT α]
    {environment : MoveEnvironment α} {fuel : Nat} {files : FileSystem} {fromPath toPath : Path}
    (failed : (moveFile environment fuel files fromPath toPath).returned = some false) :
    (moveFile environment fuel files fromPath toPath).files.entry =
      (environment.created files toPath).entry := by
  cases start : startTransfer environment files fromPath toPath with
  | none => rw [moveFile_refused start]
  | some begun =>
      obtain ⟨content, opened⟩ := begun
      cases ended : transferLoop environment.schedule fuel
          (.opened content environment.memory) with
      | mk result transfer =>
          cases result with
          | none => simp [moveFile, start, ended] at failed
          | some result =>
              obtain ⟨returned, _, entries⟩ := moveFile_ended start ended
              rw [returned] at failed
              rw [entries, Option.some.inj failed, if_neg Bool.false_ne_true]

theorem moveFile_failed_adds_only_directories {α : Type} [IoCount α] [DecidableLE α]
    [DecidableLT α] (environment : MoveEnvironment α) (fuel : Nat) (files : FileSystem)
    (fromPath toPath : Path)
    (failed : (moveFile environment fuel files fromPath toPath).returned = some false) :
    let after := (moveFile environment fuel files fromPath toPath).files
    after.entry toPath = files.entry toPath ∧
      ∀ path, after.entry path = files.entry path ∨
        (files.entry path = none ∧ path <:+ pathName toPath ∧
          after.entry path = some .directory) := by
  intro after
  have entries : after.entry = (environment.created files toPath).entry :=
    moveFile_failed_files failed
  rw [entries]
  refine ⟨?_, created_entry environment files toPath⟩
  rcases created_entry environment files toPath toPath with same | ⟨missing, within, _⟩
  · exact same
  · cases toPath with
    | nil =>
        rw [files.root] at missing
        simp at missing
    | cons name parent =>
        have shorter := within.length_le
        simp only [pathName, List.tail_cons, List.length_cons] at shorter
        omega

theorem moveFile_failed_adds_only_directories_missing_source :
    let environment : MoveEnvironment Int :=
      .faultless { reads := fun _ => .bytes 2, writes := fun _ => .bytes 1 }
    let after := (moveFile environment 0 .bare ["from"] ["to", "made"]).files
    after.entry ["to", "made"] = FileTree.bare.entry ["to", "made"] ∧
      ∀ path, after.entry path = FileTree.bare.entry path ∨
        (FileTree.bare.entry path = (none : Option (Node Bytes)) ∧
          path <:+ pathName ["to", "made"] ∧ after.entry path = some .directory) := by
  intro environment
  exact moveFile_failed_adds_only_directories environment 0 .bare ["from"] ["to", "made"]
    (by decide)

/-- With its source missing, the call fails and leaves the destination's directory. -/
theorem moveFile_failed_leaves_directory :
    let environment : MoveEnvironment Int :=
      .faultless { reads := fun _ => .bytes 2, writes := fun _ => .bytes 1 }
    let outcome := moveFile environment 0 .bare ["from"] ["to", "made"]
    outcome.returned = some false ∧
      outcome.files.entry ["made"] ≠ FileTree.bare.entry ["made"] := by
  decide

end LeanResourceManager
