import LeanResourceManager.ImplementationGuards
import LeanResourceManager.Library.LastWrite
import LeanResourceManager.Library.Machine

/-!
The list of blocked applications as a function of the call history: what clients
were told by `SetAVBlocked` is what `GetBlockedAVApplications` lists.
-/

namespace LeanResourceManager

open LeanLastWrite LeanMachine LeanProgram

/-! The list is the set of keys that map to `true`, in byte order. -/

theorem compare_eq_lt_iff (first second : List UInt8) :
    compare first second = .lt ↔ first < second := by
  induction first generalizing second with
  | nil => cases second <;> simp [List.compare_nil_cons]
  | cons left lefts ih =>
      cases second with
      | nil => simp [List.compare_cons_nil]
      | cons right rights =>
          rw [List.compare_cons_cons, Ordering.then_eq_lt, List.cons_lt_cons_iff,
            Std.compare_eq_lt, ih, Std.compare_eq_iff_eq]

theorem mem_blockedList (status : AppMap) (app : AppId) :
    app ∈ blockedList status ↔ status[app]? = some true := by
  rw [← Std.ExtTreeMap.mem_toList_iff_getElem?_eq_some]
  simp [blockedList, blockedEntries]

theorem blockedList_sorted (status : AppMap) : (blockedList status).Pairwise (· < ·) := by
  have ordered : status.toList.Pairwise fun first second => compare first.1 second.1 = .lt :=
    Std.ExtTreeMap.ordered_keys_toList
  apply List.pairwise_map.mpr
  refine (ordered.filter _).imp ?_
  intro first second less
  exact (compare_eq_lt_iff first.1 second.1).mp less

/-! What one call does to the instance. -/

theorem callStep_configuration (policy : EssPolicy) (world : World) (call : Call) :
    (callStep policy world call).1.implementation.mEssRMgr = world.implementation.mEssRMgr ∧
      (callStep policy world call).1.implementation.mDisableBlacklist =
        world.implementation.mDisableBlacklist ∧
      (callStep policy world call).1.implementation.mDisableReserveTTS =
        world.implementation.mDisableReserveTTS := by
  cases call with
  | setAVBlocked appid blocked raised =>
      have ends := setAVBlocked_ends policy appid blocked raised world
      simp only [callStep, Call.program]
      generalize (setAVBlocked policy appid blocked raised).run world = outcome at ends
      cases ends <;> simp
  | _ =>
      rw [(callStep_keeps policy world _ (by simp)).1]
      simp

theorem callStep_enabled (policy : EssPolicy) (world : World) (call : Call) :
    (callStep policy world call).1.implementation.blacklistEnabled =
      world.implementation.blacklistEnabled := by
  obtain ⟨handle, flag, _⟩ := callStep_configuration policy world call
  rw [ResourceManagerImplementation.blacklistEnabled, handle, flag,
    ResourceManagerImplementation.blacklistEnabled]

theorem isSome_of_enabled {world : World} (enabled : world.implementation.blacklistEnabled = true) :
    world.implementation.mEssRMgr.isSome = true := by
  simp only [ResourceManagerImplementation.blacklistEnabled, Bool.and_eq_true] at enabled
  exact enabled.1

theorem runState_configuration (policy : EssPolicy) (world : World) (calls : List Call) :
    (runState (callStep policy) world calls).implementation.mEssRMgr =
        world.implementation.mEssRMgr ∧
      (runState (callStep policy) world calls).implementation.mDisableBlacklist =
        world.implementation.mDisableBlacklist ∧
      (runState (callStep policy) world calls).implementation.mDisableReserveTTS =
        world.implementation.mDisableReserveTTS := by
  induction calls generalizing world with
  | nil => simp
  | cons call rest ih =>
      have step := callStep_configuration policy world call
      rw [runState_cons, (ih _).1, (ih _).2.1, (ih _).2.2]
      exact step

/-- An enabled call that nothing interrupts passes its request to the manager, and
writes the map if the request is granted. -/
theorem setAVBlocked_completes (policy : EssPolicy) (world : World) (appid : AppId)
    (blocked : Bool) (enabled : world.implementation.blacklistEnabled = true) :
    (callStep policy world (.setAVBlocked appid blocked none)).1.essRMgr =
        (world.essRMgr.handle policy (essRequest appid blocked)).2 ∧
      (callStep policy world (.setAVBlocked appid blocked none)).1.implementation =
        { world.implementation with
          mAppsAVBlacklistStatus :=
            if policy world.essRMgr.requests (essRequest appid blocked) then
              world.implementation.mAppsAVBlacklistStatus.insert appid blocked
            else world.implementation.mAppsAVBlacklistStatus } := by
  have ends := setAVBlocked_ends policy appid blocked none world
  simp only [callStep, Call.program]
  generalize (setAVBlocked policy appid blocked none).run world = outcome at ends
  cases ends with
  | skipped disabled => simp [disabled] at enabled
  | skippedRaised disabled => simp [disabled] at enabled
  | raisedEarly _ raised => simp at raised
  | refused _ _ answer => simp [answer]
  | lost _ _ raised => simp at raised
  | written _ answer => simp [answer]
  | writtenRaised _ _ raised => simp at raised

theorem callStep_disabled (policy : EssPolicy) (world : World) (call : Call)
    (disabled : world.implementation.blacklistEnabled = false) :
    (callStep policy world call).1.implementation = world.implementation ∧
      (callStep policy world call).1.essRMgr = world.essRMgr := by
  cases call with
  | setAVBlocked appid blocked raised =>
      have ends := setAVBlocked_ends policy appid blocked raised world
      simp only [callStep, Call.program]
      generalize (setAVBlocked policy appid blocked raised).run world = outcome at ends
      cases ends <;> simp_all
  | _ => exact callStep_keeps policy world _ (by simp)

theorem runState_disabled (policy : EssPolicy) (world : World) (calls : List Call)
    (disabled : world.implementation.blacklistEnabled = false) :
    (runState (callStep policy) world calls).implementation = world.implementation ∧
      (runState (callStep policy) world calls).essRMgr = world.essRMgr := by
  induction calls generalizing world with
  | nil => simp
  | cons call rest ih =>
      obtain ⟨implementation, manager⟩ := callStep_disabled policy world call disabled
      have later := ih (callStep policy world call).1 (by rw [implementation]; exact disabled)
      rw [runState_cons, later.1, later.2]
      exact ⟨implementation, manager⟩

/-! The history of a run, as what clients were told about each application. -/

def Call.allocationsOnly : Call → Bool
  | .setAVBlocked _ _ raised =>
      raised = none || raised = some .insertEntry || raised = some .buildInfoMessage
  | _ => true

def toldStatus (entry : Call × Response) : Option (AppId × Bool) :=
  match entry.1 with
  | .setAVBlocked appid blocked _ => if entry.2.success then some (appid, blocked) else none
  | _ => none

def told (history : List (Call × Response)) : List (AppId × Bool) := history.filterMap toldStatus

def writeTold (status : AppMap) : Option (AppId × Bool) → AppMap
  | none => status
  | some (appid, blocked) => status.insert appid blocked

/-- With the blacklist enabled a call writes the map exactly if it says so. -/
theorem callStep_told (policy : EssPolicy) (world : World) (call : Call)
    (enabled : world.implementation.blacklistEnabled = true)
    (allocations : call.allocationsOnly = true) :
    (callStep policy world call).1.implementation.mAppsAVBlacklistStatus =
      writeTold world.implementation.mAppsAVBlacklistStatus
        (toldStatus (call, (callStep policy world call).2)) := by
  cases call with
  | setAVBlocked appid blocked raised =>
      have ends := setAVBlocked_ends policy appid blocked raised world
      simp only [callStep, Call.program]
      generalize (setAVBlocked policy appid blocked raised).run world = outcome at ends
      cases ends with
      | skipped disabled => simp [disabled] at enabled
      | skippedRaised disabled => simp [disabled] at enabled
      | raisedEarly => rfl
      | refused => rfl
      | lost => rfl
      | written => rfl
      | writtenRaised _ _ updated => simp [Call.allocationsOnly, updated] at allocations
  | _ => rw [(callStep_keeps policy world _ (by simp)).1]; rfl

theorem getElem?_writeTold {status : AppMap} {past : List (Call × Response)} {app : AppId}
    (entry : Call × Response) (stored : status[app]? = lastWrite (told past) app) :
    (writeTold status (toldStatus entry))[app]? = lastWrite (told (past ++ [entry])) app := by
  rw [told, List.filterMap_append]
  cases said : toldStatus entry with
  | none =>
      have silent : List.filterMap toldStatus [entry] = [] := by simp [said]
      rw [silent, List.append_nil]
      exact stored
  | some write =>
      obtain ⟨appid, blocked⟩ := write
      have grown : List.filterMap toldStatus [entry] = [(appid, blocked)] := by simp [said]
      rw [grown, lastWrite_append_single, writeTold, getElem?_insert]
      by_cases same : appid = app
      · rw [if_pos same, if_pos same]
      · rw [if_neg same, if_neg same]
        exact stored

def AgreesWithHistory (past : List (Call × Response)) (world : World) : Prop :=
  world.implementation.blacklistEnabled = true ∧
    ∀ app, world.implementation.mAppsAVBlacklistStatus[app]? = lastWrite (told past) app

theorem AgreesWithHistory.step {past : List (Call × Response)} {world : World}
    (agrees : AgreesWithHistory past world) (policy : EssPolicy) (call : Call)
    (allocations : call.allocationsOnly = true) :
    AgreesWithHistory (past ++ [(call, (callStep policy world call).2)])
      (callStep policy world call).1 := by
  obtain ⟨enabled, stored⟩ := agrees
  refine ⟨?_, ?_⟩
  · rw [callStep_enabled]
    exact enabled
  · intro app
    rw [callStep_told policy world call enabled allocations]
    exact getElem?_writeTold _ (stored app)

theorem agreesWithHistory_run (policy : EssPolicy) (world : World) (calls : List Call)
    (allocations : ∀ call ∈ calls, call.allocationsOnly = true)
    (enabled : world.implementation.blacklistEnabled = true)
    (empty : world.implementation.mAppsAVBlacklistStatus = ∅) :
    AgreesWithHistory (runHistory (callStep policy) world calls)
      (runState (callStep policy) world calls) := by
  have initial : AgreesWithHistory [] world := by
    refine ⟨enabled, ?_⟩
    intro app
    simp [empty, told]
  have preserved : ∀ past state (input : Call), input.allocationsOnly = true →
      AgreesWithHistory past state →
        AgreesWithHistory (past ++ [(input, (callStep policy state input).2)])
          (callStep policy state input).1 :=
    fun past state input allowed agrees => agrees.step policy input allowed
  exact runHistory_invariant preserved initial allocations

def World.ListingCompletes (world : World) (raised : Option GetBlockedStep) : Prop :=
  ∃ response, (attempt (getBlockedAVApplicationsTry raised) world).2 = .ok response

theorem World.listingCompletes_none (world : World) : world.ListingCompletes none := by
  rw [World.ListingCompletes, attempt_getBlockedAVApplicationsTry]
  by_cases available : world.implementation.mEssRMgr.isSome = true
  · simp [available, getBlockedFails, pushBackFails]
  · simp [available]

theorem World.ListingCompletes.answer {world : World} {raised : Option GetBlockedStep}
    (completes : world.ListingCompletes raised) (policy : EssPolicy) :
    (callStep policy world (.getBlockedAVApplications raised)).2 =
      if world.implementation.mEssRMgr.isSome then
        listing (blockedList world.implementation.mAppsAVBlacklistStatus)
      else unavailable := by
  obtain ⟨response, completed⟩ := completes
  rw [attempt_getBlockedAVApplicationsTry] at completed
  simp only [callStep, Call.program, getBlockedAVApplications_run,
    attempt_getBlockedAVApplicationsTry]
  by_cases available : world.implementation.mEssRMgr.isSome = true
  · rw [if_pos available] at completed ⊢
    rw [if_pos available]
    cases fails : getBlockedFails raised world.implementation.mAppsAVBlacklistStatus with
    | false => rfl
    | true => simp [fails] at completed
  · rw [if_neg available, if_neg available]
    rfl

/-- Whatever calls came before, a completed `GetBlockedAVApplications` lists, in
strictly increasing byte order, the applications that clients were last told are
blocked. -/
theorem getBlockedAVApplications_lists_history (policy : EssPolicy) (world : World)
    (handle : Option Nat) (blacklist reserveTTS : RfcLookup) (before : List Call)
    (raised : Option GetBlockedStep)
    (allocations : ∀ call ∈ before, call.allocationsOnly = true)
    (completes : (runState (callStep policy) (world.restart handle blacklist reserveTTS)
      before).ListingCompletes raised) :
    let start := world.restart handle blacklist reserveTTS
    let history := runHistory (callStep policy) start before
    let response := (callStep policy (runState (callStep policy) start before)
      (.getBlockedAVApplications raised)).2
    (handle = none → response = { code := errorUnavailable, success := false, clients := none }) ∧
    (handle ≠ none → start.implementation.mDisableBlacklist = false →
      ∃ apps, response = { code := errorNone, success := true, clients := some apps } ∧
        apps.Pairwise (· < ·) ∧
        ∀ app, app ∈ apps ↔ lastWrite (told history) app = some true) ∧
    (handle ≠ none → start.implementation.mDisableBlacklist = true →
      response = { code := errorNone, success := true, clients := some [] }) := by
  intro start history response
  have answer : response = _ := completes.answer policy
  have handleKept : (runState (callStep policy) start before).implementation.mEssRMgr = handle :=
    (runState_configuration policy start before).1
  rw [handleKept] at answer
  refine ⟨?_, ?_, ?_⟩
  · intro missing
    have unequal : ¬handle.isSome = true := by simp [missing]
    rw [if_neg unequal] at answer
    exact answer
  · intro present allowed
    have available : handle.isSome = true := Option.isSome_iff_ne_none.mpr present
    have enabled : start.implementation.blacklistEnabled = true := by
      have kept : start.implementation.mEssRMgr = handle := rfl
      simp [ResourceManagerImplementation.blacklistEnabled, kept, available, allowed]
    have agrees := agreesWithHistory_run policy start before allocations enabled rfl
    rw [if_pos available] at answer
    refine ⟨_, answer, blockedList_sorted _, ?_⟩
    intro app
    rw [mem_blockedList]
    exact Eq.congr (agrees.2 app) rfl
  · intro present denied
    have available : handle.isSome = true := Option.isSome_iff_ne_none.mpr present
    have disabled : start.implementation.blacklistEnabled = false := by
      simp [ResourceManagerImplementation.blacklistEnabled, denied]
    have kept := (runState_disabled policy start before disabled).1
    rw [if_pos available, kept] at answer
    exact answer

theorem getBlockedAVApplications_lists_history_unblocked :
    let policy : EssPolicy := fun _ _ => true
    let world := World.boot (fun _ => ⟨[], 0⟩) none fallbackGetRFCParameter fallbackGetRFCParameter
    let start := world.restart (some 0) fallbackGetRFCParameter fallbackGetRFCParameter
    let before : List Call := [.setAVBlocked [98] true none, .setAVBlocked [97] true none,
      .setAVBlocked [98] false (some .insertEntry)]
    ∃ apps, (callStep policy (runState (callStep policy) start before)
        (.getBlockedAVApplications none)).2 =
          { code := errorNone, success := true, clients := some apps } ∧
      apps.Pairwise (· < ·) ∧
      ∀ app, app ∈ apps ↔
        lastWrite (told (runHistory (callStep policy) start before)) app = some true := by
  intro policy world start before
  have listed := getBlockedAVApplications_lists_history policy world (some 0)
    fallbackGetRFCParameter fallbackGetRFCParameter before none (by decide)
    (World.listingCompletes_none _)
  exact listed.2.1 (by simp) rfl

end LeanResourceManager
