import LeanResourceManager.Library.Machine
import LeanResourceManager.InterfaceRefCore

/-!
`createInterface` of the builder: its attempts and the reference that it returns, and how
long it waits with the values that a chain of `with..` calls leaves.
-/

namespace LeanResourceManager

open LeanMachine LeanLoop

/-- For every retry count, the loop queries until the first answer or the last attempt
allowed, waits after each null answer, and the builder's reference holds the answer. -/
theorem createInterface_attempts (answers : Nat → Option Nat) (retryCount : CInt)
    (retryInterval : UInt32) :
    let first := firstAnswer answers
    let allowed := attemptsAllowed retryCount
    (∀ service, ∃ attempts : Nat, attempts = min first allowed ∧
      ∀ fuel ≥ allowed,
        createInterfaceLogged (some service) answers retryCount retryInterval fuel =
          .leave (.returned (if first ≤ allowed then answers (first.toNat - 1) else none),
            attemptLog answers retryInterval attempts)) ∧
    (∀ fuel, createInterfaceLogged none answers retryCount retryInterval fuel =
      .leave (.returned none, [])) ∧
    ∀ (builder : PluginInterfaceBuilder) (target : Nat) (world : InterfaceWorld),
      let asked := { builder with retryCount := retryCount, retryInterval := retryInterval }
      let after := buildInterface target asked (fun index => (answers index).isSome) world
      ∃ reference, after.objects target = some reference ∧
        (reference.toBool = true ↔ builder.service.isSome = true ∧ first ≤ allowed) ∧
        (reference.toBool = true → reference.interface = some world.acquired ∧
          after.acquired = world.acquired + 1) ∧
        (reference.toBool = false → after.acquired = world.acquired) ∧
        after.released = world.released := by
  intro first allowed
  refine ⟨?_, fun _ => rfl, ?_⟩
  · intro service
    obtain ⟨_, _, last, finished⟩ :=
      (retryLoop_ends answers retryCount retryInterval (Nat.le_refl _)).exists
    refine ⟨last + 1, finished.first.1, ?_⟩
    intro fuel enough
    obtain ⟨⟨ended, log⟩, left, other, alsoFinished⟩ :=
      (retryLoop_ends answers retryCount retryInterval enough).exists
    have same : other + 1 = last + 1 := by
      have equal := alsoFinished.first.1.trans finished.first.1.symm
      exact_mod_cast equal
    have returned : ended = .returned (answers other) := alsoFinished.returned
    have logged : log = attemptLog answers retryInterval (other + 1) := alsoFinished.log
    change retryLoop answers retryCount retryInterval fuel = _
    rw [left, returned, logged, alsoFinished.first.2.1, same]
  · intro builder target world asked after
    have same : firstAnswer (world.found fun index => (answers index).isSome) = first := by
      refine firstAnswer_congr fun index => ?_
      cases answer : answers index <;> simp [InterfaceWorld.found, answer]
    have acquires := createInterface_acquires asked (fun index => (answers index).isSome) world
    rw [same] at acquires
    by_cases finds : builder.service.isSome = true ∧ first ≤ allowed
    · rw [if_pos finds] at acquires
      refine ⟨{ interface := some world.acquired, service := builder.service }, ?_⟩
      simp [after, asked, buildInterface, acquires, PluginInterfaceRef.moveConstruct,
        PluginInterfaceRef.reset, InterfaceWorld.setObject, InterfaceWorld.releaseAll,
        PluginInterfaceRef.toBool, finds]
    · rw [if_neg finds] at acquires
      refine ⟨{ interface := none, service := builder.service }, ?_⟩
      simp [after, asked, buildInterface, acquires, PluginInterfaceRef.moveConstruct,
        PluginInterfaceRef.reset, InterfaceWorld.setObject, InterfaceWorld.releaseAll,
        PluginInterfaceRef.toBool, finds]

/-! Chains of calls. -/

/-- `answers` gives the shell's answers to the queries for a callsign. -/
def PluginInterfaceBuilder.createInterfaceLogged (builder : PluginInterfaceBuilder)
    (answers : List UInt8 → Nat → Option Nat) (fuel : Nat) :
    Pass RetryState (RetryEnd × List RetryEvent) :=
  LeanResourceManager.createInterfaceLogged builder.service (answers builder.callsign)
    builder.retryCount builder.retryInterval fuel

def RetryEvent.microseconds : RetryEvent → Nat
  | .query _ => 0
  | .usleep microseconds => microseconds.toNat

end LeanResourceManager
