import LeanResourceManager.ImplementationGuards
import LeanResourceManager.Library.CriticalSection

/-!
Client threads calling one instance at the same time, their calls interleaved access
by access under `_adminLock`.
-/

namespace LeanResourceManager

open LeanCriticalSection LeanMachine LeanProgram

def threadStep {ι : Type} (policy : EssPolicy) (world : World) (entry : ι × Call) :
    World × Response :=
  callStep policy world entry.2

/-- Once all calls have completed, the threads have seen, and the stores and the
requests sent are, what running the calls one at a time in the order in which they
acquired the lock gives. A null iterator is the one call answered without the lock. -/
theorem calls_serializable {ι : Type} [DecidableEq ι] (policy : EssPolicy)
    (calls : ι → List Call) (world : World) (schedule : List ι)
    (completed : (runSchedule (Call.program policy) (initial calls world) schedule).Completed) :
    let final := runSchedule (Call.program policy) (initial calls world) schedule
    ∃ order : List (ι × Call),
      (order.filter fun entry => (entry.2.program policy).takesLock) = final.acquired ∧
      (∀ who, callsOf who order = calls who) ∧
      final.shared = runState (threadStep policy) world order ∧
      ∀ who, (final.clients who).answers =
        answersOf who (runHistory (threadStep policy) world order) :=
  serializable (program_guarded policy) calls world schedule completed

theorem calls_serializable_toggle :
    let policy : EssPolicy := fun _ _ => true
    let world := World.boot (fun _ => ⟨[], 0⟩) (some 0) fallbackGetRFCParameter
      fallbackGetRFCParameter
    let calls : Bool → List Call := fun blocked => [.setAVBlocked [97] blocked none]
    let schedule := (List.replicate 16 [true, false]).flatten
    let final := runSchedule (Call.program policy) (initial calls world) schedule
    ∃ order : List (Bool × Call),
      (order.filter fun entry => (entry.2.program policy).takesLock) = final.acquired ∧
      (∀ who, callsOf who order = calls who) ∧
      final.shared = runState (threadStep policy) world order ∧
      ∀ who, (final.clients who).answers =
        answersOf who (runHistory (threadStep policy) world order) := by
  intro policy world calls schedule
  have idle : ∀ who : Bool,
      ((runSchedule (Call.program policy) (initial calls world) schedule).clients
        who).pending.isEmpty = true ∧
      ((runSchedule (Call.program policy) (initial calls world) schedule).clients
        who).current.isNone = true := by decide +kernel
  refine calls_serializable policy calls world schedule ?_
  intro who
  exact ⟨List.isEmpty_iff.mp (idle who).1, Option.isNone_iff_eq_none.mp (idle who).2⟩

end LeanResourceManager
