import LeanResourceManager.ImplementationGuards
import LeanResourceManager.Library.Machine

/-!
Failure atomicity of `SetAVBlocked`: the manager is asked first and the map written
second, with one `catch` block for both.
-/

namespace LeanResourceManager

open LeanMachine LeanProgram

/-- A `SetAVBlocked` call that reports a failure left both stores as they were and
released the lock. -/
def FailureAtomic (policy : EssPolicy) (world : World) : Call → Prop
  | .setAVBlocked appid blocked raised =>
      let outcome := callStep policy world (.setAVBlocked appid blocked raised)
      outcome.2.code ≠ errorNone →
        outcome.2.success = false ∧
        outcome.1.essRMgr.blacklist = world.essRMgr.blacklist ∧
        outcome.1.implementation.mAppsAVBlacklistStatus =
          world.implementation.mAppsAVBlacklistStatus ∧
        (setAVBlocked policy appid blocked raised).heldAfter world false = false
  | _ => True

/-- An exception raised after the manager granted the request finds that the stores
already held what the call has written so far. -/
def InterruptionHarmless (policy : EssPolicy) (world : World) : Call → Prop
  | .setAVBlocked appid blocked raised =>
      let status := world.implementation.mAppsAVBlacklistStatus
      let managed := cStr appid ∈ world.essRMgr.blacklist ↔ blocked = true
      world.implementation.blacklistEnabled = true →
        policy world.essRMgr.requests (essRequest appid blocked) = true →
          (raised = some .printStatus ∨ raised = some .insertEntry ∧ appid ∉ status → managed) ∧
          (raised = some .printUpdated → managed ∧ status[appid]? = some blocked)
  | _ => True

theorem asked_blacklist (policy : EssPolicy) (world : World) (appid : AppId) (blocked : Bool) :
    (world.essRMgr.handle policy (essRequest appid blocked)).2.blacklist =
        world.essRMgr.blacklist ↔
      (policy world.essRMgr.requests (essRequest appid blocked) = true →
        (cStr appid ∈ world.essRMgr.blacklist ↔ blocked = true)) := by
  have applied := (essRequest appid blocked).apply_eq_iff world.essRMgr.blacklist
  rw [essRequest_name, essRequest_blocked] at applied
  rw [EssRMgr.handle]
  cases granted : policy world.essRMgr.requests (essRequest appid blocked) with
  | false => simp
  | true => simpa using applied

theorem failureAtomic_iff (policy : EssPolicy) (world : World) (call : Call) :
    FailureAtomic policy world call ↔ InterruptionHarmless policy world call := by
  cases call with
  | setAVBlocked appid blocked raised =>
      have released : (setAVBlocked policy appid blocked raised).heldAfter world false = false :=
        (program_guarded policy (.setAVBlocked appid blocked raised)).heldAfter world
      have ends := setAVBlocked_ends policy appid blocked raised world
      have asked := asked_blacklist policy world appid blocked
      simp only [FailureAtomic, InterruptionHarmless, callStep, Call.program, released, and_true]
      generalize (setAVBlocked policy appid blocked raised).run world = outcome at ends
      cases ends with
      | skipped disabled => simp [disabled, succeeded]
      | skippedRaised disabled => simp [disabled, failed]
      | raisedEarly enabled early => simp [early, failed]
      | refused enabled _ refusal => simp [asked, refusal, failed]
      | lost enabled granted interrupted =>
          rcases interrupted with printing | inserting
          · simp [asked, granted, enabled, printing, failed, errorNone, errorGeneral]
          · simp [asked, granted, enabled, inserting, failed, errorNone, errorGeneral]
      | written enabled granted early printed updated inserted =>
          have completed : ¬(raised = some .insertEntry ∧
              appid ∉ world.implementation.mAppsAVBlacklistStatus) :=
            fun interrupted => interrupted.2 (inserted interrupted.1)
          simp [granted, printed, updated, completed, succeeded]
      | writtenRaised enabled granted updated =>
          simp [asked, granted, enabled, updated, failed, errorNone, errorGeneral,
            insert_eq_self_iff]
  | _ => exact Iff.rfl

/-- Over a whole run, all failing calls are atomic exactly if no call of the run is
interrupted, after a granted request, with a store already changed. -/
theorem failureAtomic_run_iff (policy : EssPolicy) (world : World) (calls : List Call) :
    StepsMeet (callStep policy) (FailureAtomic policy) world calls ↔
      StepsMeet (callStep policy) (InterruptionHarmless policy) world calls :=
  stepsMeet_congr (failureAtomic_iff policy) world calls

theorem failureAtomic_fails_on_insertion :
    let policy : EssPolicy := fun _ _ => true
    let world := World.boot (fun _ => ⟨[], 0⟩) (some 0) fallbackGetRFCParameter
      fallbackGetRFCParameter
    ¬StepsMeet (callStep policy) (FailureAtomic policy) world
      [.setAVBlocked [97] true (some .insertEntry)] := by
  intro policy world met
  have unchanged := (met.1 (by decide)).2.1
  exact absurd unchanged (by decide)

end LeanResourceManager
