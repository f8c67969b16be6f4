import LeanResourceManager.ImplementationRuns

/-!
The shape of the API calls: each is one critical section of `_adminLock`, and only
`SetAVBlocked` changes the instance and the manager it talks to.
-/

namespace LeanResourceManager

open LeanProgram

section Confinement

variable {allowed : World → World → Prop}

structure ReserveAllowed (allowed : World → World → Prop) : Prop where
  refl : ∀ world, allowed world world
  token : ∀ world statics, allowed world { world with securityToken := statics }
  send : ∀ world request, allowed world (world.sendSetACL request)
  iterator : ∀ world reference iterator, allowed world (world.setIterator reference iterator)

theorem confined_throwIf (raised : Bool) : (throwIf raised).run.Confined allowed := by
  cases raised with
  | false => exact confined_pure _
  | true => exact confined_throw _

theorem confined_callSetACL (changes : ReserveAllowed allowed) (outcome : ReserveOutcome)
    (params : JsonObject) : (callSetACL outcome params).run.Confined allowed := by
  apply Confined.andThen (confined_access fun world => changes.token world _)
  intro client
  apply Confined.andThen (confined_throwIf _)
  intro _
  by_cases made : outcome.client = true
  · rw [if_pos made]
    apply Confined.andThen (confined_throwIf _)
    intro _
    apply Confined.andThen (confined_modify fun world => changes.send world _)
    intro _
    apply Confined.andThen (confined_throwIf _)
    intro _
    exact Confined.andThen (confined_throwIf _) fun _ => confined_pure _
  · rw [if_neg made]
    exact Confined.andThen (confined_throwIf _) fun _ => confined_pure _

theorem confined_reserveTTSResourceTry (changes : ReserveAllowed allowed) (appid : AppId)
    (outcome : ReserveOutcome) : (reserveTTSResourceTry appid outcome).run.Confined allowed := by
  apply Confined.andThen (confined_read changes.refl)
  intro world
  split
  · exact confined_pure _
  · exact Confined.andThen (confined_throwIf _) fun _ => confined_callSetACL changes _ _

theorem iteratorNext_allowed (changes : ReserveAllowed allowed) (reference : Nat) (world : World) :
    allowed world (iteratorNext reference world).2 := by
  simp only [iteratorNext]
  split
  · exact changes.refl world
  · exact changes.iterator world _ _

theorem confined_readApps (changes : ReserveAllowed allowed) (reference : Nat)
    (raised : Option ReserveStep) (fuel : Nat) (apps : List AppId) :
    (readApps reference raised fuel apps).run.Confined allowed := by
  induction fuel generalizing apps with
  | zero => exact confined_pure _
  | succ fuel ih =>
      apply Confined.andThen (confined_access (iteratorNext_allowed changes reference))
      intro next
      cases next with
      | none => exact confined_pure _
      | some app => exact Confined.andThen (confined_throwIf _) fun _ => ih (apps ++ [app])

theorem confined_reserveTTSResourceForAppsTry (changes : ReserveAllowed allowed) (reference : Nat)
    (outcome : ReserveOutcome) :
    (reserveTTSResourceForAppsTry reference outcome).run.Confined allowed := by
  apply Confined.andThen (confined_read changes.refl)
  intro world
  split
  · exact confined_pure _
  · apply Confined.andThen (confined_readApps changes _ _ _ _)
    intro apps
    apply Confined.andThen (confined_modify fun world => changes.iterator world _ _)
    intro _
    exact Confined.andThen (confined_throwIf _) fun _ => confined_callSetACL changes _ _

theorem confined_visitEntries (refl : ∀ world, allowed world world)
    (raised : Option GetBlockedStep) (fuel : Nat) (last : Option AppId) (blockedApps : List AppId) :
    (visitEntries raised fuel last blockedApps).run.Confined allowed := by
  induction fuel generalizing last blockedApps with
  | zero => exact confined_pure _
  | succ fuel ih =>
      apply Confined.andThen (confined_read refl)
      intro world
      split
      · exact confined_pure _
      · exact ih _ _
      · exact Confined.andThen (confined_throwIf _) fun _ => ih _ _

theorem confined_getBlockedAVApplicationsTry (refl : ∀ world, allowed world world)
    (raised : Option GetBlockedStep) :
    (getBlockedAVApplicationsTry raised).run.Confined allowed := by
  apply Confined.andThen (confined_read refl)
  intro world
  split
  · apply Confined.andThen (confined_visitEntries refl _ _ _ _)
    intro apps
    exact Confined.andThen (confined_throwIf _) fun _ => confined_pure _
  · exact confined_pure _

theorem confined_writeStatus (free : ∀ first second, allowed first second) (appid : AppId)
    (blocked fails : Bool) : (writeStatus appid blocked fails).run.Confined allowed := by
  refine Confined.andThen ?_ fun _ => confined_modify fun _ => free _ _
  apply Confined.andThen (confined_read fun _ => free _ _)
  intro world
  split
  · exact confined_pure _
  · exact Confined.andThen (confined_throwIf _) fun _ => confined_modify fun _ => free _ _

theorem confined_setAVBlockedTry (free : ∀ first second, allowed first second)
    (policy : EssPolicy) (appid : AppId) (blocked : Bool) (raised : Option SetAVBlockedStep) :
    (setAVBlockedTry policy appid blocked raised).run.Confined allowed := by
  apply Confined.andThen (confined_read fun _ => free _ _)
  intro world
  split
  · apply Confined.andThen (confined_throwIf _)
    intro _
    apply Confined.andThen (confined_access fun _ => free _ _)
    intro granted
    apply Confined.andThen (confined_throwIf _)
    intro _
    split
    · apply Confined.andThen (confined_writeStatus free _ _ _)
      intro _
      exact Confined.andThen (confined_throwIf _) fun _ => confined_pure _
    · exact confined_pure _
  · apply Confined.andThen (confined_throwIf _)
    intro _
    exact Confined.andThen (confined_throwIf _) fun _ => confined_pure _

end Confinement

/-- Every access of a call to the shared state lies between its acquisition and
its release of `_adminLock`. -/
theorem program_guarded (policy : EssPolicy) (call : Call) : (call.program policy).Guarded := by
  have anything : ReserveAllowed fun _ _ => True := ⟨by simp, by simp, by simp, by simp⟩
  cases call with
  | setAVBlocked appid blocked raised =>
      have body := confined_setAVBlockedTry (fun _ _ => trivial) policy appid blocked raised
      exact (body.tryCatch _).guarded
  | getBlockedAVApplications raised =>
      have body : (getBlockedAVApplicationsTry raised).run.Confined fun _ _ => True :=
        confined_getBlockedAVApplicationsTry anything.refl raised
      exact (body.tryCatch _).guarded
  | reserveTTSResource appid outcome =>
      exact ((confined_reserveTTSResourceTry anything appid outcome).tryCatch _).guarded
  | reserveTTSResourceForApps appids outcome =>
      cases appids with
      | none => exact trivial
      | some reference =>
          have body := confined_reserveTTSResourceForAppsTry anything reference outcome
          exact (body.tryCatch _).guarded

theorem reserve_frame {allowed : World → World → Prop} (changes : ReserveAllowed allowed)
    (trans : ∀ first second third, allowed first second → allowed second third →
      allowed first third) (policy : EssPolicy) (world : World) (call : Call)
    (reserves : ∀ appid blocked raised, call ≠ .setAVBlocked appid blocked raised) :
    allowed world (callStep policy world call).1 := by
  cases call with
  | setAVBlocked appid blocked raised => exact absurd rfl (reserves appid blocked raised)
  | getBlockedAVApplications raised =>
      have body := confined_getBlockedAVApplicationsTry changes.refl raised
      simpa [callStep, Call.program, getBlockedAVApplications] using
        (body.tryCatch _).run changes.refl trans world
  | reserveTTSResource appid outcome =>
      have body := confined_reserveTTSResourceTry changes appid outcome
      simpa [callStep, Call.program, reserveTTSResource] using
        (body.tryCatch _).run changes.refl trans world
  | reserveTTSResourceForApps appids outcome =>
      cases appids with
      | none => exact changes.refl world
      | some reference =>
          have body := confined_reserveTTSResourceForAppsTry changes reference outcome
          simpa [callStep, Call.program, reserveTTSResourceForApps] using
            (body.tryCatch _).run changes.refl trans world

/-- Only `SetAVBlocked` touches the instance and the manager it talks to. -/
theorem callStep_keeps (policy : EssPolicy) (world : World) (call : Call)
    (reserves : ∀ appid blocked raised, call ≠ .setAVBlocked appid blocked raised) :
    (callStep policy world call).1.implementation = world.implementation ∧
      (callStep policy world call).1.essRMgr = world.essRMgr := by
  let keeps (first second : World) : Prop :=
    second.implementation = first.implementation ∧ second.essRMgr = first.essRMgr
  have changes : ReserveAllowed keeps := by
    constructor <;> intros <;> exact ⟨rfl, rfl⟩
  have trans : ∀ first second third, keeps first second → keeps second third →
      keeps first third := by
    rintro first second third ⟨leftImplementation, leftManager⟩ ⟨implementation, manager⟩
    exact ⟨implementation.trans leftImplementation, manager.trans leftManager⟩
  exact reserve_frame changes trans policy world call reserves

end LeanResourceManager
