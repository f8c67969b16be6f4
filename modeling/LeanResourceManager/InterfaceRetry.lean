import Mathlib.Data.ENat.Lattice
import LeanResourceManager.Library.Loop

/-!
The retry loop of `createInterface` with its queries, its waits and its `int` counter.
-/

namespace LeanResourceManager

open LeanLoop

abbrev CInt := { value : Int // -2147483648 ≤ value ∧ value ≤ 2147483647 }

theorem zero_inRange : -2147483648 ≤ (0 : Int) ∧ (0 : Int) ≤ 2147483647 := by decide

def CInt.zero : CInt := ⟨0, zero_inRange⟩

/-- `count++`, undefined at the largest `int`. -/
def CInt.increment (count : CInt) : Option CInt :=
  if bound : count.val + 1 ≤ 2147483647 then
    some ⟨count.val + 1, by have lower := count.property.1; omega, bound⟩
  else none

inductive RetryEvent
  | query (answer : Option Nat)
  | usleep (microseconds : UInt32)
  deriving DecidableEq

inductive RetryEnd
  | returned (interface : Option Nat)
  | overflow
  deriving DecidableEq

def RetryEvent.acquires : RetryEvent → Bool
  | .query (some _) => true
  | _ => false

structure RetryState where
  count : CInt
  queries : Nat
  log : List RetryEvent
  deriving DecidableEq

/-- The body of `do .. while (count < retry_count)`; `answers` gives the interface that
each query finds. -/
def queryPass (answers : Nat → Option Nat) (retryCount : CInt) (retryInterval : UInt32)
    (state : RetryState) : Pass RetryState (RetryEnd × List RetryEvent) :=
  let pluginInterface := answers state.queries
  let log := state.log ++ [.query pluginInterface]
  match pluginInterface with
  | some interface => .leave (.returned (some interface), log)
  | none =>
      match state.count.increment with
      | none => .leave (.overflow, log)
      | some count =>
          let log := log ++ [.usleep (retryInterval * 1000)]
          if count.val < retryCount.val then
            .again { count := count, queries := state.queries + 1, log := log }
          else .leave (.returned none, log)

def RetryState.initial : RetryState where
  count := .zero
  queries := 0
  log := []

def retryLoop (answers : Nat → Option Nat) (retryCount : CInt) (retryInterval : UInt32)
    (fuel : Nat) : Pass RetryState (RetryEnd × List RetryEvent) :=
  loop (queryPass answers retryCount retryInterval) fuel .initial

def createInterfaceLogged (service : Option Nat) (answers : Nat → Option Nat)
    (retryCount : CInt) (retryInterval : UInt32) (fuel : Nat) :
    Pass RetryState (RetryEnd × List RetryEvent) :=
  match service with
  | none => .leave (.returned none, [])
  | some _ => retryLoop answers retryCount retryInterval fuel

/-- The position of the first answer, counted from one; `⊤` if there is none. -/
noncomputable def firstAnswer (answers : Nat → Option Nat) : ℕ∞ :=
  ⨅ index : Nat, if (answers index).isSome then (index + 1 : ℕ∞) else ⊤

def attemptsAllowed (retryCount : CInt) : Nat := (max 1 retryCount.val).toNat

def attemptLog (answers : Nat → Option Nat) (retryInterval : UInt32) (attempts : Nat) :
    List RetryEvent :=
  (List.range attempts).flatMap fun index =>
    .query (answers index) ::
      if (answers index).isNone then [.usleep (retryInterval * 1000)] else []

theorem firstAnswer_eq {answers : Nat → Option Nat} {index : Nat}
    (before : ∀ earlier < index, answers earlier = none) (found : (answers index).isSome = true) :
    firstAnswer answers = index + 1 := by
  apply le_antisymm
  · refine iInf_le_of_le index ?_
    rw [if_pos found]
  · refine le_iInf fun other => ?_
    by_cases early : other < index
    · rw [before other early]
      simp
    · split
      · have later : (index : ℕ∞) ≤ other := by exact_mod_cast Nat.not_lt.mp early
        gcongr
      · exact le_top

theorem lt_firstAnswer {answers : Nat → Option Nat} {attempts : Nat}
    (null : ∀ earlier < attempts, answers earlier = none) : attempts < firstAnswer answers := by
  have next : ((attempts + 1 : Nat) : ℕ∞) ≤ firstAnswer answers := by
    refine le_iInf fun other => ?_
    split
    · rename_i found
      have later : attempts ≤ other := by
        by_contra early
        simp [null other (by omega)] at found
      exact_mod_cast Nat.succ_le_succ later
    · exact le_top
  have step : (attempts : ℕ∞) < (attempts + 1 : Nat) := by exact_mod_cast Nat.lt_succ_self attempts
  exact step.trans_le next

theorem attemptLog_succ (answers : Nat → Option Nat) (retryInterval : UInt32) (attempts : Nat) :
    attemptLog answers retryInterval (attempts + 1) =
      attemptLog answers retryInterval attempts ++ .query (answers attempts) ::
        if (answers attempts).isNone then [.usleep (retryInterval * 1000)] else [] := by
  simp [attemptLog, List.range_succ]

structure RetryState.Waiting (answers : Nat → Option Nat) (retryCount : CInt)
    (retryInterval : UInt32) (state : RetryState) : Prop where
  count : state.count.val = state.queries
  allowed : state.queries < attemptsAllowed retryCount
  null : ∀ earlier < state.queries, answers earlier = none
  log : state.log = attemptLog answers retryInterval state.queries

structure RetryEnded (answers : Nat → Option Nat) (retryCount : CInt) (retryInterval : UInt32)
    (ended : RetryEnd × List RetryEvent) (last : Nat) : Prop where
  allowed : last < attemptsAllowed retryCount
  null : ∀ earlier < last, answers earlier = none
  stops : (answers last).isSome = true ∨ last + 1 = attemptsAllowed retryCount
  returned : ended.1 = .returned (answers last)
  log : ended.2 = attemptLog answers retryInterval (last + 1)

theorem queryPass_waiting {answers : Nat → Option Nat} {retryCount : CInt}
    {retryInterval : UInt32} {state : RetryState}
    (waiting : state.Waiting answers retryCount retryInterval) :
    (queryPass answers retryCount retryInterval state).Meets
      (fun next => next.Waiting answers retryCount retryInterval ∧
        next.queries = state.queries + 1)
      (fun ended => RetryEnded answers retryCount retryInterval ended state.queries) := by
  have bound := retryCount.property.2
  have allowed := waiting.allowed
  have count := waiting.count
  have grown := attemptLog_succ answers retryInterval state.queries
  simp only [queryPass]
  cases answer : answers state.queries with
  | some interface =>
      rw [answer] at grown
      refine ⟨allowed, waiting.null, .inl (by rw [answer]; rfl), by rw [answer], ?_⟩
      simp [grown, waiting.log]
  | none =>
      rw [answer] at grown
      have room : state.count.val + 1 ≤ 2147483647 := by
        simp only [attemptsAllowed] at allowed
        omega
      have incremented : state.count.increment =
          some ⟨state.count.val + 1, by omega, room⟩ := by
        rw [CInt.increment, dif_pos room]
      simp only [incremented]
      have null : ∀ earlier < state.queries + 1, answers earlier = none := by
        intro earlier before
        by_cases last : earlier = state.queries
        · rw [last, answer]
        · exact waiting.null earlier (by omega)
      by_cases more : state.count.val + 1 < retryCount.val
      · rw [if_pos more]
        refine ⟨⟨?_, ?_, null, by simp [grown, waiting.log]⟩, rfl⟩
        · simp only [count]
          omega
        · simp only [attemptsAllowed]
          omega
      · rw [if_neg more]
        refine ⟨allowed, waiting.null, .inr ?_, by rw [answer], by simp [grown, waiting.log]⟩
        simp only [attemptsAllowed] at allowed ⊢
        omega

theorem retryLoop_ends (answers : Nat → Option Nat) (retryCount : CInt) (retryInterval : UInt32)
    {fuel : Nat} (enough : attemptsAllowed retryCount ≤ fuel) :
    (retryLoop answers retryCount retryInterval fuel).Leaves fun ended =>
      ∃ last, RetryEnded answers retryCount retryInterval ended last := by
  have initial : RetryState.initial.Waiting answers retryCount retryInterval := by
    refine ⟨rfl, ?_, by simp [RetryState.initial], rfl⟩
    simp only [RetryState.initial, attemptsAllowed]
    omega
  have preserved : ∀ state : RetryState, state.Waiting answers retryCount retryInterval →
      (queryPass answers retryCount retryInterval state).Meets
        (fun next => next.Waiting answers retryCount retryInterval ∧
          attemptsAllowed retryCount - 1 - next.queries <
            attemptsAllowed retryCount - 1 - state.queries)
        (fun ended => ∃ last, RetryEnded answers retryCount retryInterval ended last) := by
    intro state waiting
    have allowed := waiting.allowed
    refine (queryPass_waiting waiting).mono ?_ fun ended finished => ⟨state.queries, finished⟩
    rintro next ⟨nextWaiting, counted⟩
    have nextAllowed := nextWaiting.allowed
    exact ⟨nextWaiting, by omega⟩
  have positive : 0 < attemptsAllowed retryCount := by
    simp only [attemptsAllowed]
    omega
  refine loop_leaves preserved initial ?_
  simp only [RetryState.initial]
  omega

theorem RetryEnded.first {answers : Nat → Option Nat} {retryCount : CInt}
    {retryInterval : UInt32} {ended : RetryEnd × List RetryEvent} {last : Nat}
    (finished : RetryEnded answers retryCount retryInterval ended last) :
    ((last + 1 : Nat) : ℕ∞) = min (firstAnswer answers) (attemptsAllowed retryCount) ∧
      answers last = (if firstAnswer answers ≤ attemptsAllowed retryCount then
        answers ((firstAnswer answers).toNat - 1) else none) ∧
      ((answers last).isSome = true ↔ firstAnswer answers ≤ attemptsAllowed retryCount) := by
  have allowed := finished.allowed
  cases answer : answers last with
  | some interface =>
      have first : firstAnswer answers = ((last + 1 : Nat) : ℕ∞) := by
        rw [firstAnswer_eq finished.null (by rw [answer]; rfl)]
        norm_cast
      have within : ((last + 1 : Nat) : ℕ∞) ≤ attemptsAllowed retryCount := by
        exact_mod_cast allowed
      rw [first, min_eq_left within, if_pos within, ENat.toNat_natCast, Nat.add_sub_cancel, answer]
      exact ⟨rfl, rfl, iff_of_true rfl within⟩
  | none =>
      have exhausted : last + 1 = attemptsAllowed retryCount := by
        rcases finished.stops with found | exhausted
        · simp [answer] at found
        · exact exhausted
      have null : ∀ earlier < attemptsAllowed retryCount, answers earlier = none := by
        intro earlier before
        by_cases isLast : earlier = last
        · rw [isLast, answer]
        · exact finished.null earlier (by omega)
      have beyond := lt_firstAnswer null
      rw [min_eq_right beyond.le, if_neg beyond.not_ge, exhausted]
      exact ⟨rfl, rfl, iff_of_false (by simp) beyond.not_ge⟩

theorem firstAnswer_congr {answers others : Nat → Option Nat}
    (same : ∀ index, (answers index).isSome = (others index).isSome) :
    firstAnswer answers = firstAnswer others := by
  simp only [firstAnswer, same]

theorem acquisitions_attemptLog {answers : Nat → Option Nat} (retryInterval : UInt32)
    {attempts : Nat} (null : ∀ earlier < attempts, answers earlier = none) :
    (attemptLog answers retryInterval (attempts + 1)).countP RetryEvent.acquires =
      if (answers attempts).isSome then 1 else 0 := by
  have before : (attemptLog answers retryInterval attempts).countP RetryEvent.acquires = 0 := by
    induction attempts with
    | zero => rfl
    | succ attempts ih =>
        have none : answers attempts = none := null attempts (by omega)
        rw [attemptLog_succ, List.countP_append, ih fun earlier early => null earlier (by omega),
          none]
        rfl
  rw [attemptLog_succ, List.countP_append, before]
  cases answers attempts with
  | some interface => rfl
  | none => rfl

end LeanResourceManager
