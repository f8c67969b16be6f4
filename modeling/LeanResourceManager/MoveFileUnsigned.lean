import LeanResourceManager.MoveFileOutcomes

/-!
`MoveFile` with the unsigned results of `Core::File`: an error is the largest value,
which no comparison of the loops takes for a failure.
-/

namespace LeanResourceManager

open LeanFileTree LeanLoop

/-- The call stays in what the last `Read` stored and has not been written yet, and its
count neither moves the pointer out of the buffer nor wraps the length. -/
structure WriteCall.Safe (call : WriteCall UInt32) : Prop where
  asked : call.ptr + call.len.toNat ≤ call.stored
  stored : call.stored ≤ bufLen
  inside : call.ptr + call.count.toNat ≤ bufLen
  unwrapped : call.count.toNat ≤ call.len.toNat

def WriteCall.Failed (call : WriteCall UInt32) : Prop := call.count = 0 ∨ call.count = posixError

structure ArithmeticSafe (outcome : MoveOutcome UInt32) : Prop where
  calls : ∀ call, .write call ∈ outcome.log → call.Safe
  failure : ∀ call, .write call ∈ outcome.log → call.Failed → outcome.returned = some false

def ErrorFree (log : List (IoEvent UInt32)) : Prop :=
  ∀ event ∈ log, event.answer.isError = false

structure Broken (log : List (IoEvent UInt32)) : Prop where
  erroneous : ∃ event ∈ log, event.answer.isError = true
  violation : ∃ call, .write call ∈ log ∧ ¬call.Safe

theorem Broken.append {log : List (IoEvent UInt32)} (broken : Broken log)
    (later : List (IoEvent UInt32)) : Broken (log ++ later) := by
  obtain ⟨⟨event, met, isError⟩, call, made, notSafe⟩ := broken
  exact ⟨⟨event, List.mem_append_left _ met, isError⟩, call, List.mem_append_left _ made, notSafe⟩

theorem ErrorFree.append_single {log : List (IoEvent UInt32)} (errorFree : ErrorFree log)
    {event : IoEvent UInt32} (noError : event.answer.isError = false) :
    ErrorFree (log ++ [event]) := by
  intro other member
  rcases List.mem_append.mp member with before | last
  · exact errorFree other before
  · rw [List.mem_singleton.mp last]
    exact noError

theorem IoAnswer.value_of_error {answer : IoAnswer UInt32} (isError : answer.isError = true)
    (available : Nat) : answer.value available = posixError := by
  cases answer with
  | bytes wanted => simp [IoAnswer.isError] at isError
  | error value reported => exact reported

theorem WriteCall.not_safe_of_length {call : WriteCall UInt32} (len : call.len = posixError) :
    ¬call.Safe := by
  intro safe
  have asked := safe.asked
  have stored := safe.stored
  have length : call.len.toNat = 4294967295 := by rw [len]; rfl
  simp only [bufLen] at stored
  omega

theorem WriteCall.not_safe_of_count {call : WriteCall UInt32} (count : call.count = posixError) :
    ¬call.Safe := by
  intro safe
  have inside := safe.inside
  have counted : call.count.toNat = 4294967295 := by rw [count]; rfl
  simp only [bufLen] at inside
  omega

theorem WriteCall.Within.count {content : Bytes} {call : WriteCall UInt32} {remaining : Nat}
    (within : call.Within content remaining) (noError : call.answer.isError = false) :
    call.len.toNat = remaining ∧ call.count.toNat ≤ remaining := by
  have bound : remaining ≤ bufLen := by
    have inside := within.inside
    have stored := within.stored
    omega
  have length : call.len.toNat = remaining := by
    rw [within.len]
    exact toNat_ofBytes remaining bound
  refine ⟨length, ?_⟩
  cases answer : call.answer with
  | error value reported => simp [answer, IoAnswer.isError] at noError
  | bytes wanted =>
      have counted : call.count = UInt32.ofNat (min wanted remaining) := by
        rw [← length, WriteCall.count, answer]
        rfl
      rw [counted, toNat_ofBytes _ (by omega)]
      omega

theorem WriteCall.Within.safe {content : Bytes} {call : WriteCall UInt32} {remaining : Nat}
    (within : call.Within content remaining) (noError : call.answer.isError = false) :
    call.Safe := by
  obtain ⟨length, count⟩ := within.count noError
  have inside := within.inside
  have stored := within.stored
  exact ⟨by omega, stored, by omega, by omega⟩

section Passes

variable {schedule : Schedule UInt32} {content : Bytes}

def WriteInvariant (content : Bytes) (state : WriteState UInt32) : Prop :=
  (ErrorFree state.transfer.log ∧ ∃ remaining, state.Exact content remaining) ∨
    Broken state.transfer.log

def WriteOutcome (content : Bytes) (ended : Bool × Transfer UInt32) : Prop :=
  (ErrorFree ended.2.log ∧ if ended.1 then ended.2.Exact content else ended.2.Refused content) ∨
    Broken ended.2.log

theorem writePass_broken {state : WriteState UInt32}
    (broken : Broken (state.transfer.write schedule state.ptr state.len).2.log) :
    (writePass schedule state).Meets (WriteInvariant content) (WriteOutcome content) := by
  refine (writePass_log state).mono ?_ ?_
  · intro next log
    exact .inr (by rw [log]; exact broken)
  · intro ended log
    exact .inr (by rw [log]; exact broken)

theorem writePass_tracked (state : WriteState UInt32) (tracked : WriteInvariant content state) :
    (writePass schedule state).Meets (WriteInvariant content) (WriteOutcome content) := by
  rcases tracked with ⟨errorFree, remaining, accurate⟩ | broken
  · cases isError : (schedule.writes state.transfer.writes).isError with
    | true =>
        let call := state.transfer.writeCall schedule state.ptr state.len
        have count : call.count = posixError := IoAnswer.value_of_error isError _
        have last : .write call ∈ (state.transfer.write schedule state.ptr state.len).2.log :=
          List.mem_append_right _ (List.mem_singleton_self _)
        exact writePass_broken ⟨⟨_, last, isError⟩, call, last, call.not_safe_of_count count⟩
    | false =>
        have caught : (schedule.writes state.transfer.writes).Caught := by
          cases answer : schedule.writes state.transfer.writes with
          | bytes wanted => exact trivial
          | error value reported => simp [answer, IoAnswer.isError] at isError
        have grown : ErrorFree (state.transfer.write schedule state.ptr state.len).2.log :=
          errorFree.append_single isError
        refine ((writePass_exact accurate caught).and (writePass_log state)).mono ?_ ?_
        · rintro next ⟨⟨left, _, nextAccurate, _⟩, log⟩
          exact .inl ⟨by rw [log]; exact grown, left, nextAccurate⟩
        · rintro ⟨written, after⟩ ⟨outcome, log⟩
          refine .inl ⟨by rw [log]; exact grown, ?_⟩
          cases written with
          | true => exact outcome.1
          | false => exact outcome
  · exact writePass_broken (broken.append _)

def ReadInvariant (content : Bytes) (transfer : Transfer UInt32) : Prop :=
  (ErrorFree transfer.log ∧ transfer.Exact content) ∨ Broken transfer.log

def ReadOutcome (content : Bytes) (ended : Option Bool × Transfer UInt32) : Prop :=
  (ErrorFree ended.2.log ∧
    (∀ call, .write call ∈ ended.2.log → ∃ remaining, call.Within content remaining) ∧
    (ended.1 ≠ some false → ∀ call, .write call ∈ ended.2.log → ¬call.count ≤ 0)) ∨
  Broken ended.2.log

theorem writeLoop_tracked (fuel : Nat) {state : WriteState UInt32}
    (first : (writePass schedule state).Meets (WriteInvariant content) (WriteOutcome content)) :
    (loop (writePass schedule) (fuel + 1) state).Meets
      (WriteInvariant content) (WriteOutcome content) :=
  loop_succ_meets writePass_tracked fuel first

/-- A `Read` that reports an error makes the first `Write` ask for the largest length. -/
theorem readPass_first {transfer : Transfer UInt32} (tracked : ReadInvariant content transfer)
    (received : ¬(transfer.read schedule).1 ≤ 0) :
    let filled : WriteState UInt32 :=
      { ptr := 0, len := (transfer.read schedule).1, transfer := (transfer.read schedule).2 }
    (writePass schedule filled).Meets (WriteInvariant content) (WriteOutcome content) := by
  intro filled
  rcases tracked with ⟨errorFree, accurate⟩ | broken
  · cases answer : schedule.reads transfer.reads with
    | error value reported =>
        let call := filled.transfer.writeCall schedule filled.ptr filled.len
        have len : call.len = posixError := by
          change (transfer.read schedule).1 = posixError
          simp only [Transfer.read, ReadCall.len, Transfer.readCall, answer, IoAnswer.value]
          exact reported
        have met : IoEvent.read (transfer.readCall schedule) ∈
            (filled.transfer.write schedule filled.ptr filled.len).2.log := by
          simp [filled, Transfer.read, Transfer.write]
        have isError : (IoEvent.read (transfer.readCall schedule)).answer.isError = true := by
          simp [IoEvent.answer, Transfer.readCall, answer, IoAnswer.isError]
        have last : .write call ∈
            (filled.transfer.write schedule filled.ptr filled.len).2.log :=
          List.mem_append_right _ (List.mem_singleton_self _)
        exact writePass_broken ⟨⟨_, met, isError⟩, call, last, call.not_safe_of_length len⟩
    | bytes wanted =>
        obtain ⟨stored, _, filledAccurate⟩ := accurate.read answer received
        have grown : ErrorFree filled.transfer.log := by
          apply errorFree.append_single
          simp [IoEvent.answer, Transfer.readCall, answer, IoAnswer.isError]
        exact writePass_tracked filled (.inl ⟨grown, stored, filledAccurate⟩)
  · exact writePass_tracked filled (.inr (broken.append _))

theorem read_finished {transfer : Transfer UInt32} (tracked : ReadInvariant content transfer)
    (finished : (transfer.read schedule).1 ≤ 0) :
    ReadOutcome content (some true, (transfer.read schedule).2) := by
  rcases tracked with ⟨errorFree, accurate⟩ | broken
  · have noError : (schedule.reads transfer.reads).isError = false := by
      cases answer : schedule.reads transfer.reads with
      | bytes wanted => rfl
      | error value reported =>
          have len : (transfer.read schedule).1 = posixError := by
            simp only [Transfer.read, ReadCall.len, Transfer.readCall, answer, IoAnswer.value]
            exact reported
          rw [len] at finished
          exact absurd finished (by decide)
    refine .inl ⟨errorFree.append_single noError, ?_, ?_⟩
    · intro call member
      exact accurate.within call (write_mem_log_read.mp member)
    · intro _ call member
      exact accurate.succeeded call (write_mem_log_read.mp member)
  · exact .inr (broken.append _)

theorem readPass_tracked (fuel : Nat) (transfer : Transfer UInt32)
    (tracked : ReadInvariant content transfer) :
    (readPass schedule fuel transfer).Meets (ReadInvariant content) (ReadOutcome content) := by
  refine readPass_meets (read_finished tracked) ?_
  intro received
  refine (writeLoop_tracked fuel (readPass_first tracked received)).mono ?_ ?_
  · rintro unfinished (⟨errorFree, remaining, accurate⟩ | broken)
    · exact .inl ⟨errorFree, accurate.within, fun _ => accurate.succeeded⟩
    · exact .inr broken
  · rintro ⟨written, after⟩ left
    cases written with
    | true => exact left
    | false =>
        rcases left with ⟨errorFree, refused⟩ | broken
        · exact .inl ⟨errorFree, refused.within, fun running => absurd rfl running⟩
        · exact .inr broken

theorem transferLoop_tracked (fuel : Nat) (memory : Nat → UInt8) :
    ReadOutcome content (transferLoop schedule fuel (.opened content memory)) := by
  have initial : ReadInvariant content (Transfer.opened content memory : Transfer UInt32) :=
    .inl ⟨by simp [ErrorFree, Transfer.opened], opened_exact content memory⟩
  have left : (loop (readPass schedule fuel) (fuel + 1) (.opened content memory)).Meets
      (ReadInvariant content) (ReadOutcome content) :=
    loop_meets (readPass_tracked fuel) (fuel + 1) initial
  refine transferLoop_meets (left.mono ?_ fun _ ended => ended)
  rintro unfinished (⟨errorFree, accurate⟩ | broken)
  · exact .inl ⟨errorFree, accurate.within, fun _ => accurate.succeeded⟩
  · exact .inr broken

end Passes

/-- The arithmetic is safe and a failed `Write` is reported exactly in the transfers
whose calls report no error. -/
theorem moveFile_arithmeticSafe_iff (environment : MoveEnvironment UInt32) (fuel : Nat)
    (files : FileSystem) (fromPath toPath : Path) :
    ArithmeticSafe (moveFile environment fuel files fromPath toPath) ↔
      ErrorFree (moveFile environment fuel files fromPath toPath).log := by
  cases start : startTransfer environment files fromPath toPath with
  | none =>
      rw [moveFile_refused start]
      exact iff_of_true ⟨by simp, by simp⟩ (by simp [ErrorFree])
  | some begun =>
      obtain ⟨content, opened⟩ := begun
      have tracked : ReadOutcome content
          (transferLoop environment.schedule fuel (.opened content environment.memory)) :=
        transferLoop_tracked fuel environment.memory
      have log : (moveFile environment fuel files fromPath toPath).log = _ := moveFile_log start
      have returned : (moveFile environment fuel files fromPath toPath).returned = _ :=
        moveFile_returned start
      rw [ReadOutcome, ← log, ← returned] at tracked
      rcases tracked with ⟨errorFree, within, succeeded⟩ | ⟨⟨event, met, isError⟩, call, made, bad⟩
      · have safe : ∀ call, .write call ∈
            (moveFile environment fuel files fromPath toPath).log → call.Safe := by
          intro call member
          obtain ⟨remaining, inside⟩ := within call member
          exact inside.safe (errorFree _ member)
        refine iff_of_true ⟨safe, ?_⟩ errorFree
        intro call member failed
        by_contra running
        have received := succeeded running call member
        rcases failed with zero | error
        · rw [zero] at received
          exact received (by decide)
        · exact call.not_safe_of_count error (safe call member)
      · refine iff_of_false (fun safe => bad (safe.calls call made)) ?_
        intro errorFree
        rw [errorFree event met] at isError
        simp at isError

/-- A one-byte file whose first `Write` fails: the length wraps from 1 to 2. -/
theorem moveFile_arithmetic_unsafe_after_failed_write :
    let files : FileSystem := (FileTree.bare.make (.file [7]) ["from"]).getD .bare
    let environment : MoveEnvironment UInt32 :=
      .faultless
        { reads := fun _ => .bytes 1
          writes := fun index => if index = 0 then .error posixError rfl else .bytes 2 }
    let outcome := moveFile environment 1 files ["from"] ["to"]
    ¬ArithmeticSafe outcome ∧ outcome.returned = some true := by
  refine ⟨?_, by decide⟩
  intro safe
  let call : WriteCall UInt32 :=
    { ptr := 0
      len := 1
      stored := 1
      destination := []
      memory := fill (fun _ => 0) [7]
      answer := .error posixError rfl }
  have unwrapped := (safe.calls call (.tail _ (.head _))).unwrapped
  exact absurd unwrapped (by decide)

end LeanResourceManager
