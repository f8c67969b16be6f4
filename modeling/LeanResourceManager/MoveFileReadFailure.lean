import LeanResourceManager.MoveFileOutcomes

/-!
A `Read` that fails: the outer loop leaves as at the end of the source.
-/

namespace LeanResourceManager

open LeanFileTree LeanLoop

variable {α : Type} [IoCount α]

def ReadsSucceed (log : List (IoEvent α)) : Prop :=
  ∀ call : ReadCall α, .read call ∈ log → ¬call.len ≤ 0

theorem readsSucceed_write {log : List (IoEvent α)} (succeed : ReadsSucceed log)
    (call : WriteCall α) : ReadsSucceed (log ++ [.write call]) := by
  intro other member
  rcases List.mem_append.mp member with before | last
  · exact succeed other before
  · simp at last

section Loops

variable [DecidableLE α] [DecidableLT α] {schedule : Schedule α}

theorem writePass_readsSucceed {state : WriteState α} (succeed : ReadsSucceed state.transfer.log) :
    (writePass schedule state).Meets (fun next => ReadsSucceed next.transfer.log)
      (fun ended => ReadsSucceed ended.2.log) := by
  have grown := readsSucceed_write succeed
    (state.transfer.writeCall schedule state.ptr state.len)
  refine (writePass_log state).mono ?_ ?_
  · intro next log
    rw [log]
    exact grown
  · intro ended log
    rw [log]
    exact grown

theorem readPass_readsSucceed {transfer : Transfer α} (succeed : ReadsSucceed transfer.log)
    (fuel : Nat) :
    (readPass schedule fuel transfer).Meets (fun next => ReadsSucceed next.log)
      (fun ended => ended.1 = some true ∨ ReadsSucceed ended.2.log) := by
  refine readPass_meets (fun _ => .inl rfl) ?_
  intro received
  have grown : ReadsSucceed (transfer.read schedule).2.log := by
    intro call member
    rcases List.mem_append.mp member with before | last
    · exact succeed call before
    · rw [IoEvent.read.inj (List.mem_singleton.mp last)]
      exact received
  let filled : WriteState α :=
    { ptr := 0, len := (transfer.read schedule).1, transfer := (transfer.read schedule).2 }
  have left : (loop (writePass schedule) (fuel + 1) filled).Meets
      (fun next => ReadsSucceed next.transfer.log) (fun ended => ReadsSucceed ended.2.log) :=
    loop_meets (fun _ => writePass_readsSucceed) (fuel + 1) grown
  refine left.mono (fun _ unfinished => .inr unfinished) ?_
  rintro ⟨written, after⟩ ended
  cases written with
  | true => exact ended
  | false => exact .inr ended

theorem transferLoop_failedRead {content : Bytes} {memory : Nat → UInt8} {fuel : Nat}
    {call : ReadCall α}
    (member : .read call ∈ (transferLoop schedule fuel (.opened content memory)).2.log)
    (failed : call.len ≤ 0) :
    (transferLoop schedule fuel (.opened content memory)).1 = some true := by
  have initial : ReadsSucceed (Transfer.opened content memory : Transfer α).log := by
    simp [ReadsSucceed, Transfer.opened]
  have left : (loop (readPass schedule fuel) (fuel + 1) (.opened content memory)).Meets
      (fun next => ReadsSucceed next.log)
      (fun ended => ended.1 = some true ∨ ReadsSucceed ended.2.log) :=
    loop_meets (fun _ succeed => readPass_readsSucceed succeed fuel) (fuel + 1) initial
  have ended : (transferLoop schedule fuel (.opened content memory)).1 = some true ∨
      ReadsSucceed (transferLoop schedule fuel (.opened content memory)).2.log :=
    transferLoop_meets (left.mono (fun _ unfinished => .inr unfinished) fun _ ended => ended)
  rcases ended with succeeded | succeed
  · exact succeeded
  · exact absurd failed (succeed call member)

end Loops

def ReadCall.FailsEarly (content : Bytes) (call : ReadCall α) : Prop :=
  call.len ≤ 0 ∧ call.position < content.length

/-- What must hold after a `Read` has failed early. -/
def KeepsSource (outcome : MoveOutcome α) (fromPath : Path) (content : Bytes) : Prop :=
  outcome.returned = some false ∧ outcome.files.entry fromPath = some (.file content)

/-- Whenever a `Read` fails before all bytes are delivered, `MoveFile` reports success
and has destroyed the source. -/
theorem moveFile_loses_source_after_failed_read [DecidableLE α] [DecidableLT α]
    (environment : MoveEnvironment α) (fuel : Nat) (files : FileSystem) (fromPath toPath : Path)
    (content : Bytes)
    (failed : ∃ call, .read call ∈ (moveFile environment fuel files fromPath toPath).log ∧
      call.FailsEarly content) :
    let outcome := moveFile environment fuel files fromPath toPath
    ¬KeepsSource outcome fromPath content ∧
      outcome.returned = some true ∧ outcome.files.entry fromPath = none := by
  intro outcome
  obtain ⟨call, member, nonPositive, _⟩ := failed
  have gone : outcome.returned = some true ∧ outcome.files.entry fromPath = none := by
    cases start : startTransfer environment files fromPath toPath with
    | none =>
        rw [moveFile_refused start] at member
        simp at member
    | some begun =>
        obtain ⟨read, opened⟩ := begun
        rw [moveFile_log start] at member
        have succeeded := transferLoop_failedRead member nonPositive
        obtain ⟨returned, _, entries⟩ := moveFile_ended start (Prod.ext succeeded rfl)
        rw [returned, entries, if_pos rfl, Function.update_self]
        exact ⟨rfl, rfl⟩
  refine ⟨?_, gone⟩
  rintro ⟨returned, _⟩
  rw [gone.1] at returned
  simp at returned

def IoAnswer.minusOne : IoAnswer Int := .error (-1) (show (-1 : Int) ≤ 0 by decide)

theorem moveFile_loses_source_after_failed_read_at_two :
    let files : FileSystem := (FileTree.bare.make (.file [1, 2, 3]) ["from"]).getD .bare
    let environment : MoveEnvironment Int :=
      .faultless
        { reads := fun index => if index = 0 then .bytes 2 else .minusOne
          writes := fun _ => .bytes 1 }
    let outcome := moveFile environment 3 files ["from"] ["to"]
    ¬KeepsSource outcome ["from"] [1, 2, 3] ∧
      outcome.returned = some true ∧ outcome.files.entry ["from"] = none := by
  intro files environment
  refine moveFile_loses_source_after_failed_read environment 3 files ["from"] ["to"] [1, 2, 3]
    ?_
  refine ⟨{ position := 2, available := 1, answer := .minusOne }, ?_, ?_⟩
  · exact .tail _ (.tail _ (.tail _ (.head _)))
  · exact ⟨by decide, by decide⟩

theorem moveFile_reports_success_after_failed_read :
    let files : FileSystem := (FileTree.bare.make (.file [1, 2, 3]) ["from"]).getD .bare
    let environment : MoveEnvironment Int :=
      .faultless
        { reads := fun index => if index = 0 then .bytes 2 else .minusOne
          writes := fun _ => .bytes 1 }
    let outcome := moveFile environment 3 files ["from"] ["to"]
    files.entry ["from"] = some (.file [1, 2, 3]) ∧
      (∃ call, .read call ∈ outcome.log ∧ call.FailsEarly [1, 2, 3]) ∧
      ¬KeepsSource outcome ["from"] [1, 2, 3] := by
  refine ⟨by decide, ?_, ?_⟩
  · refine ⟨{ position := 2, available := 1, answer := .minusOne }, ?_, by decide, by decide⟩
    exact .tail _ (.tail _ (.tail _ (.head _)))
  · rintro ⟨returned, _⟩
    exact absurd returned (by decide)

end LeanResourceManager
