import LeanResourceManager.BlacklistHistory

/-!
The RFC gates over whole runs: a feature that its lookup leaves closed makes no
request to the service behind it, in any run of the instance.
-/

namespace LeanResourceManager

open LeanMachine LeanProgram

def Effect.isEssRequest : Effect → Bool
  | .essRequest _ _ => true
  | _ => false

def Effect.isSetACL : Effect → Bool
  | .setACL _ => true
  | _ => false

/-- Neither feature has reached its service, if its lookup says it must stay off. -/
def RfcGated (blacklist reserveTTS : RfcLookup) (world : World) : Prop :=
  (mustStayDisabled blacklist = true →
    world.effects.filter Effect.isEssRequest = [] ∧
    world.implementation.mAppsAVBlacklistStatus = ∅) ∧
  (mustStayDisabled reserveTTS = true → world.effects.filter Effect.isSetACL = [])

/-! A call with the blacklist disabled asks the manager nothing. -/

theorem callStep_essRequests (policy : EssPolicy) (world : World) (call : Call)
    (disabled : world.implementation.blacklistEnabled = false) :
    (callStep policy world call).1.effects.filter Effect.isEssRequest =
      world.effects.filter Effect.isEssRequest := by
  let keeps (first second : World) : Prop :=
    second.effects.filter Effect.isEssRequest = first.effects.filter Effect.isEssRequest
  have changes : ReserveAllowed keeps := by
    constructor
    · exact fun _ => rfl
    · exact fun _ _ => rfl
    · intro world request
      simp [keeps, World.sendSetACL, Effect.isEssRequest]
    · exact fun _ _ _ => rfl
  have trans : ∀ first second third, keeps first second → keeps second third →
      keeps first third := fun _ _ _ left right => Eq.trans right left
  cases call with
  | setAVBlocked appid blocked raised =>
      have ends := setAVBlocked_ends policy appid blocked raised world
      simp only [callStep, Call.program]
      generalize (setAVBlocked policy appid blocked raised).run world = outcome at ends
      cases ends <;> simp_all
  | _ => exact reserve_frame changes trans policy world _ (by simp)

/-! A call with the reservations disabled sends no `setACL`. -/

theorem reserveTTSResource_disabled (policy : EssPolicy) (world : World) (appid : AppId)
    (outcome : ReserveOutcome) (disabled : world.implementation.mDisableReserveTTS = true) :
    callStep policy world (.reserveTTSResource appid outcome) = (world, succeeded) := by
  simp only [callStep, Call.program, reserveTTSResource, run_critical, run_tryCatch,
    reserveTTSResourceTry, attempt_read_bind, disabled, if_true]
  rfl

theorem reserveTTSResourceForApps_disabled (policy : EssPolicy) (world : World)
    (appids : Option Nat) (outcome : ReserveOutcome)
    (disabled : world.implementation.mDisableReserveTTS = true) :
    (callStep policy world (.reserveTTSResourceForApps appids outcome)).1 = world := by
  cases appids with
  | none => rfl
  | some reference =>
      simp only [callStep, Call.program, reserveTTSResourceForApps, run_critical, run_tryCatch,
        reserveTTSResourceForAppsTry, attempt_read_bind, disabled, if_true]
      rfl

theorem callStep_setACL (policy : EssPolicy) (world : World) (call : Call)
    (disabled : world.implementation.mDisableReserveTTS = true) :
    (callStep policy world call).1.effects.filter Effect.isSetACL =
      world.effects.filter Effect.isSetACL := by
  cases call with
  | setAVBlocked appid blocked raised =>
      have ends := setAVBlocked_ends policy appid blocked raised world
      simp only [callStep, Call.program]
      generalize (setAVBlocked policy appid blocked raised).run world = outcome at ends
      cases ends <;> simp [callEssRMgr, assignStatus, World.setStatus, Effect.isSetACL]
  | getBlockedAVApplications raised =>
      simp only [callStep, Call.program, getBlockedAVApplications_run,
        attempt_getBlockedAVApplicationsTry]
      split <;> [split; skip] <;> rfl
  | reserveTTSResource appid outcome =>
      rw [reserveTTSResource_disabled policy world appid outcome disabled]
  | reserveTTSResourceForApps appids outcome =>
      rw [reserveTTSResourceForApps_disabled policy world appids outcome disabled]

theorem gate_run (policy : EssPolicy) {closed : World → Prop} {request : Effect → Bool}
    (stays : ∀ world call, closed world → closed (callStep policy world call).1)
    (silent : ∀ world call, closed world →
      (callStep policy world call).1.effects.filter request = world.effects.filter request)
    (world : World) (calls : List Call) (initial : closed world) :
    (runState (callStep policy) world calls).effects.filter request =
      world.effects.filter request := by
  induction calls generalizing world with
  | nil => rfl
  | cons call rest ih =>
      rw [runState_cons, ih _ (stays world call initial), silent world call initial]

theorem blacklistGate_run (policy : EssPolicy) (world : World) (calls : List Call)
    (disabled : world.implementation.blacklistEnabled = false) :
    (runState (callStep policy) world calls).effects.filter Effect.isEssRequest =
      world.effects.filter Effect.isEssRequest := by
  refine gate_run policy ?_ (callStep_essRequests policy) world calls disabled
  intro world call closed
  rw [(callStep_disabled policy world call closed).1]
  exact closed

theorem reserveTTSGate_run (policy : EssPolicy) (world : World) (calls : List Call)
    (disabled : world.implementation.mDisableReserveTTS = true) :
    (runState (callStep policy) world calls).effects.filter Effect.isSetACL =
      world.effects.filter Effect.isSetACL := by
  refine gate_run policy ?_ (callStep_setACL policy) world calls disabled
  intro world call closed
  rw [(callStep_configuration policy world call).2.2]
  exact closed

/-! An open gate lets a request through. -/

theorem reserveTTSResource_sends (policy : EssPolicy) (world : World) (appid : AppId)
    (outcome : ReserveOutcome) (enabled : world.implementation.mDisableReserveTTS = false)
    (uninterrupted : outcome.raised = none) (made : outcome.client = true) :
    ∃ request, (callStep policy world (.reserveTTSResource appid outcome)).1.effects =
      world.effects ++ [.setACL request] := by
  simp only [callStep, Call.program, reserveTTSResource, run_critical, run_tryCatch,
    reserveTTSResourceTry, attempt_read_bind, enabled, uninterrupted, callSetACL, made, if_true]
  exact ⟨_, rfl⟩

theorem blacklistGate_opens (world : World) (handle : Nat) (blacklist reserveTTS : RfcLookup)
    (found : getRFCConfig blacklist = true) (untyped : blacklist.param.type ≠ .boolean) :
    ¬RfcGated blacklist reserveTTS (runState (callStep fun _ _ => true)
      (world.restart (some handle) blacklist reserveTTS) [.setAVBlocked [] true none]) := by
  intro gated
  obtain ⟨closed, allowed⟩ := enabled_of_untyped blacklist found untyped
  have enabled : (world.restart (some handle) blacklist
      reserveTTS).implementation.blacklistEnabled = true := by
    simp [World.restart, construct, ResourceManagerImplementation.blacklistEnabled, allowed]
  have written := (setAVBlocked_completes (fun _ _ => true) _ [] true enabled).2
  have empty := (gated.1 closed).2
  rw [runState_cons, runState_nil, written, if_pos rfl] at empty
  have inserted : (∅ : AppMap).insert [] true = ∅ := empty
  have stored := (insert_eq_self_iff ∅ [] true).mp inserted
  simp at stored

theorem reserveTTSGate_opens (world : World) (handle : Option Nat)
    (blacklist reserveTTS : RfcLookup) (found : getRFCConfig reserveTTS = true)
    (untyped : reserveTTS.param.type ≠ .boolean) (outcome : ReserveOutcome)
    (uninterrupted : outcome.raised = none) (made : outcome.client = true) :
    ¬RfcGated blacklist reserveTTS (runState (callStep fun _ _ => true)
      (world.restart handle blacklist reserveTTS) [.reserveTTSResource [] outcome]) := by
  intro gated
  obtain ⟨closed, allowed⟩ := enabled_of_untyped reserveTTS found untyped
  obtain ⟨request, sent⟩ := reserveTTSResource_sends (fun _ _ => true)
    (world.restart handle blacklist reserveTTS) [] outcome allowed uninterrupted made
  have none := gated.2 closed
  rw [runState_cons, runState_nil, sent] at none
  simp [Effect.isSetACL] at none

/-- Both features stay off in every run exactly if a lookup that succeeds delivers a
record of boolean type (or, for the blacklist, there is no manager to reach). -/
theorem rfcGated_iff (handle : Option Nat) (blacklist reserveTTS : RfcLookup) :
    (∀ (policy : EssPolicy) (world : World) (calls : List Call),
      RfcGated blacklist reserveTTS (runState (callStep policy)
        (world.restart handle blacklist reserveTTS) calls)) ↔
    (handle = none ∨ getRFCConfig blacklist = false ∨ blacklist.param.type = .boolean) ∧
      (getRFCConfig reserveTTS = false ∨ reserveTTS.param.type = .boolean) := by
  constructor
  · intro gated
    have process := World.boot (fun _ => ⟨[], 0⟩) none blacklist reserveTTS
    constructor
    · by_contra failing
      push Not at failing
      obtain ⟨present, found, untyped⟩ := failing
      obtain ⟨number, same⟩ := Option.ne_none_iff_exists'.mp present
      subst same
      exact blacklistGate_opens process number blacklist reserveTTS (by simpa using found) untyped
        (gated _ _ _)
    · by_contra failing
      push Not at failing
      obtain ⟨found, untyped⟩ := failing
      exact reserveTTSGate_opens process handle blacklist reserveTTS (by simpa using found) untyped
        ⟨none, ⟨false, 0, [], []⟩, true, errorNone, []⟩ rfl rfl (gated _ _ _)
  · rintro ⟨blacklistTyped, reserveTTSTyped⟩ policy world calls
    constructor
    · intro closed
      have disabled : (world.restart handle blacklist
          reserveTTS).implementation.blacklistEnabled = false := by
        rcases blacklistTyped with missing | typed
        · simp [missing, World.restart, construct, ResourceManagerImplementation.blacklistEnabled]
        · have flag := disabledByRfc_of_mustStayDisabled blacklist closed typed
          simp [flag, World.restart, construct, ResourceManagerImplementation.blacklistEnabled]
      refine ⟨?_, ?_⟩
      · rw [blacklistGate_run policy _ calls disabled]
        rfl
      · rw [(runState_disabled policy _ calls disabled).1]
        rfl
    · intro closed
      have disabled := disabledByRfc_of_mustStayDisabled reserveTTS closed reserveTTSTyped
      rw [reserveTTSGate_run policy _ calls disabled]
      rfl

/-- The bundled lookup delivers a zero-initialised record, and both features are on. -/
theorem rfcGated_fails_with_fallback :
    let world := World.boot (fun _ => ⟨[], 0⟩) none fallbackGetRFCParameter fallbackGetRFCParameter
    mustStayDisabled fallbackGetRFCParameter = true ∧
      ¬RfcGated fallbackGetRFCParameter fallbackGetRFCParameter
        (runState (callStep fun _ _ => true)
          (world.restart (some 0) fallbackGetRFCParameter fallbackGetRFCParameter)
          [.setAVBlocked [97] true none]) := by
  intro world
  refine ⟨rfl, ?_⟩
  intro gated
  exact absurd (congrArg List.length (gated.1 rfl).1) (by decide)

end LeanResourceManager
