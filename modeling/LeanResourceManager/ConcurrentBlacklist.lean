import Mathlib.Data.Finset.Sort
import LeanResourceManager.BlacklistCache
import LeanResourceManager.ImplementationConcurrency
import LeanResourceManager.Library.Progress

/-!
The plugin without its map: whatever the interleaving of its callers, it answers as if
it asked the manager for the blacklist each time, and no caller waits forever.
-/

namespace LeanResourceManager

open LeanCriticalSection LeanMachine

/-- The names the manager blacklists, in byte order. -/
def EssRMgr.listing (manager : EssRMgr) : List AppId :=
  (manager.blacklist.image Subtype.val).sort (· ≤ ·)

/-- The two calls about the blacklist, by a plugin that keeps no map of its own. -/
def cachelessStep (policy : EssPolicy) (manager : EssRMgr) : Call → EssRMgr × Response
  | .setAVBlocked appid blocked _ =>
      let (granted, manager) := manager.handle policy (essRequest appid blocked)
      (manager, if granted then succeeded else failed)
  | _ => (manager, LeanResourceManager.listing manager.listing)

def Call.isBlacklist : Call → Bool
  | .setAVBlocked _ _ _ => true
  | .getBlockedAVApplications _ => true
  | _ => false

def Call.uninterrupted : Call → Bool
  | .setAVBlocked _ _ raised => raised = none
  | .getBlockedAVApplications raised => raised = none
  | _ => true

def Call.Plain (call : Call) : Prop := call.uninterrupted = true ∧ call.nulFreeApp

theorem Call.Plain.completes {call : Call} (plain : call.Plain) :
    call.updatesComplete = true := by
  cases call with
  | setAVBlocked appid blocked raised => exact plain.1
  | _ => rfl

structure Cached (world : World) (manager : EssRMgr) : Prop where
  manager : world.essRMgr = manager
  safe : NulFreeState world
  exact : CacheExact world

theorem Cached.listed {world : World} {manager : EssRMgr} (cached : Cached world manager) :
    blockedList world.implementation.mAppsAVBlacklistStatus = manager.listing := by
  have available := isSome_of_enabled cached.safe.1
  have names := cached.exact
  rw [CacheExact, listed_eq, if_pos available, cached.manager] at names
  have apps : manager.blacklist.image Subtype.val =
      (blockedList world.implementation.mAppsAVBlacklistStatus).toFinset := by
    rw [← names]
    ext app
    simp only [Finset.mem_image, List.mem_toFinset, List.mem_map]
    have kept : ∀ {other}, other ∈ blockedList world.implementation.mAppsAVBlacklistStatus →
        (cStr other).val = other := by
      intro other member
      exact cStr_of_nulFree (cached.safe.2 ((mem_blockedList _ other).mp member))
    constructor
    · rintro ⟨name, ⟨other, member, rfl⟩, rfl⟩
      rwa [kept member]
    · intro member
      exact ⟨cStr app, ⟨app, member, rfl⟩, kept member⟩
  have sorted := blockedList_sorted world.implementation.mAppsAVBlacklistStatus
  have nodup : (blockedList world.implementation.mAppsAVBlacklistStatus).Nodup := by
    refine sorted.imp ?_
    rintro first second less rfl
    exact List.lt_irrefl first less
  rw [EssRMgr.listing, apps]
  exact ((List.toFinset_sort (· ≤ ·) nodup).mpr (sorted.imp List.le_of_lt)).symm

theorem setAVBlocked_answer (policy : EssPolicy) (world : World) (appid : AppId) (blocked : Bool)
    (enabled : world.implementation.blacklistEnabled = true) :
    (callStep policy world (.setAVBlocked appid blocked none)).2 =
      if policy world.essRMgr.requests (essRequest appid blocked) then succeeded else failed := by
  have ends := setAVBlocked_ends policy appid blocked none world
  simp only [callStep, Call.program]
  generalize (setAVBlocked policy appid blocked none).run world = outcome at ends
  cases ends with
  | skipped disabled => simp [disabled] at enabled
  | skippedRaised disabled => simp [disabled] at enabled
  | raisedEarly _ raised => simp at raised
  | refused _ _ answer => simp [answer]
  | lost _ _ raised => simp at raised
  | written _ answer => simp [answer]
  | writtenRaised _ _ raised => simp at raised

theorem nulFreeState_of_empty {world : World}
    (enabled : world.implementation.blacklistEnabled = true)
    (empty : world.implementation.mAppsAVBlacklistStatus = ∅) : NulFreeState world := by
  refine ⟨enabled, ?_⟩
  intro app blocked
  simp [World.blockedApps, empty] at blocked

theorem NulFreeState.unshared {world : World} (safe : NulFreeState world) (policy : EssPolicy)
    {call : Call} (known : call.nulFreeApp) : NameUnshared policy world call := by
  cases call with
  | setAVBlocked appid blocked raised =>
      cases blocked with
      | true => trivial
      | false => exact fun _ => LeanProjection.erase_exact_of_injOn cStr_injOn safe.2 known
  | _ => trivial

theorem Cached.step {world : World} {manager : EssRMgr} (cached : Cached world manager)
    (policy : EssPolicy) {call : Call} (plain : call.Plain) :
    Cached (callStep policy world call).1 (callStep policy world call).1.essRMgr where
  manager := rfl
  safe := cached.safe.step policy call plain.completes plain.2
  exact := (cacheExact_step_iff policy world call plain.completes cached.safe.1
    cached.exact).mpr (cached.safe.unshared policy plain.2)

theorem Cached.hidden {world : World} {manager : EssRMgr} (cached : Cached world manager)
    (policy : EssPolicy) {call : Call} (plain : call.Plain) (other : call.isBlacklist = false) :
    Cached (callStep policy world call).1 manager := by
  have next := cached.step policy plain
  have kept : (callStep policy world call).1.essRMgr = world.essRMgr := by
    refine (callStep_keeps policy world call ?_).2
    rintro appid blocked raised rfl
    simp [Call.isBlacklist] at other
  rwa [kept, cached.manager] at next

theorem Cached.matched {world : World} {manager : EssRMgr} (cached : Cached world manager)
    (policy : EssPolicy) {call : Call} (plain : call.Plain) (visible : call.isBlacklist = true) :
    Cached (callStep policy world call).1 (cachelessStep policy manager call).1 ∧
      (callStep policy world call).2 = (cachelessStep policy manager call).2 := by
  have next := cached.step policy plain
  have enabled := cached.safe.1
  cases call with
  | setAVBlocked appid blocked raised =>
      have uninterrupted : raised = none := by simpa [Call.uninterrupted] using plain.1
      subst raised
      have asked := (setAVBlocked_completes policy world appid blocked enabled).1
      rw [asked, cached.manager] at next
      refine ⟨next, ?_⟩
      rw [setAVBlocked_answer policy world appid blocked enabled, cached.manager]
      rfl
  | getBlockedAVApplications raised =>
      have uninterrupted : raised = none := by simpa [Call.uninterrupted] using plain.1
      subst raised
      have kept := (callStep_keeps policy world (.getBlockedAVApplications none) (by simp)).2
      rw [kept, cached.manager] at next
      refine ⟨next, ?_⟩
      rw [world.listingCompletes_none.answer policy, if_pos (isSome_of_enabled enabled),
        cached.listed]
      rfl
  | reserveTTSResource appid outcome => simp [Call.isBlacklist] at visible
  | reserveTTSResourceForApps appids outcome => simp [Call.isBlacklist] at visible

/-! Any number of threads. -/

variable {ι : Type}

def cachelessThreadStep (policy : EssPolicy) (manager : EssRMgr) (entry : ι × Call) :
    EssRMgr × Response :=
  cachelessStep policy manager entry.2

def isBlacklistEntry (entry : ι × Call) : Bool := entry.2.isBlacklist

theorem cacheless_run {world : World} {manager : EssRMgr} (cached : Cached world manager)
    (policy : EssPolicy) {order : List (ι × Call)} (plain : ∀ entry ∈ order, entry.2.Plain) :
    Cached (runState (threadStep policy) world order)
        (runState (cachelessThreadStep policy) manager (order.filter isBlacklistEntry)) ∧
      (runHistory (threadStep policy) world order).filter (fun entry => isBlacklistEntry entry.1) =
        runHistory (cachelessThreadStep policy) manager (order.filter isBlacklistEntry) := by
  have hidden : ∀ (state : World) (shadow : EssRMgr) (entry : ι × Call), entry.2.Plain →
      isBlacklistEntry entry = false → Cached state shadow →
      Cached (threadStep policy state entry).1 shadow :=
    fun _ _ _ plain other before => before.hidden policy plain other
  have matched : ∀ (state : World) (shadow : EssRMgr) (entry : ι × Call), entry.2.Plain →
      isBlacklistEntry entry = true → Cached state shadow →
      Cached (threadStep policy state entry).1 (cachelessThreadStep policy shadow entry).1 ∧
        (threadStep policy state entry).2 = (cachelessThreadStep policy shadow entry).2 :=
    fun _ _ _ plain visible before => before.matched policy plain visible
  exact refinement hidden matched cached plain

theorem plain_of_called [DecidableEq ι] {calls : ι → List Call} {order : List (ι × Call)}
    (plain : ∀ who, ∀ call ∈ calls who, call.Plain)
    (within : ∀ who, callsOf who order ⊆ calls who) : ∀ entry ∈ order, entry.2.Plain := by
  intro entry member
  apply plain entry.1
  apply within entry.1
  simp only [callsOf, List.mem_map, List.mem_filter]
  exact ⟨entry, ⟨member, by simp⟩, rfl⟩

theorem callsOf_filter [DecidableEq ι] (who : ι) (order : List (ι × Call)) :
    callsOf who (order.filter isBlacklistEntry) = (callsOf who order).filter Call.isBlacklist := by
  simp only [callsOf, List.filter_map, List.filter_filter]
  congr 1
  exact List.filter_congr fun entry _ => Bool.and_comm _ _

theorem answersOf_filter [DecidableEq ι] (who : ι) (history : List ((ι × Call) × Response)) :
    answersOf who (history.filter fun entry => isBlacklistEntry entry.1) =
      (answersOf who history).filter fun entry => entry.1.isBlacklist := by
  simp only [answersOf, List.filter_map, List.filter_filter]
  congr 1
  exact List.filter_congr fun entry _ => Bool.and_comm _ _

/-- Whenever no call is inside the critical section, finished or not, the list is the
manager's blacklist. -/
theorem listed_exact_when_unlocked [DecidableEq ι] (policy : EssPolicy)
    (calls : ι → List Call) (world : World) (safe : NulFreeState world) (exact : CacheExact world)
    (plain : ∀ who, ∀ call ∈ calls who, call.Plain) (schedule : List ι)
    (unlocked : (runSchedule (Call.program policy) (initial calls world) schedule).holder = none) :
    CacheExact (runSchedule (Call.program policy) (initial calls world) schedule).shared := by
  obtain ⟨order, serial⟩ :=
    (initial_serial calls world).run (program_guarded policy) schedule
  have within : ∀ who, callsOf who order ⊆ calls who := by
    intro who call member
    rw [← serial.called who]
    simp [member]
  have plainOrder := plain_of_called plain within
  have shared : (runSchedule (Call.program policy) (initial calls world) schedule).shared =
      runState (threadStep policy) world order := by
    have settles := serial.shared
    rwa [settled, unlocked] at settles
  have cached : Cached world world.essRMgr := ⟨rfl, safe, exact⟩
  rw [shared]
  exact (cacheless_run cached policy plainOrder).1.exact

theorem listed_exact_when_unlocked_midway :
    let policy : EssPolicy := fun _ _ => true
    let world := World.boot (fun _ => ⟨[], 0⟩) (some 0) fallbackGetRFCParameter
      fallbackGetRFCParameter
    let calls : Bool → List Call := fun blocked => [.setAVBlocked [97] blocked none]
    let schedule := [true, false, true, true, true, true, true, true, true]
    CacheExact (runSchedule (Call.program policy) (initial calls world) schedule).shared := by
  intro policy world calls schedule
  have plain : ∀ who, ∀ call ∈ calls who, call.Plain := by
    intro who call member
    rw [List.mem_singleton.mp member]
    exact ⟨rfl, by simp [Call.nulFreeApp, nulFree]⟩
  exact listed_exact_when_unlocked policy calls world (nulFreeState_of_empty rfl rfl) (by decide)
    plain schedule (by decide)

/-- The map is invisible: in every interleaving the threads see what some serial run of
their calls by the plugin without a map answers, in an order that respects the time at
which the calls are made. -/
theorem concurrent_calls_cacheless [DecidableEq ι] (policy : EssPolicy)
    (calls : ι → List Call) (world : World) (safe : NulFreeState world) (exact : CacheExact world)
    (plain : ∀ who, ∀ call ∈ calls who, call.Plain) (schedule : List ι)
    (completed : (runSchedule (Call.program policy) (initial calls world) schedule).Completed) :
    let config := fun moment => runSchedule (Call.program policy) (initial calls world) moment
    ∃ order : List (ι × Call),
      (∀ who, callsOf who order = (calls who).filter Call.isBlacklist) ∧
      (config schedule).shared.essRMgr =
        runState (cachelessThreadStep policy) world.essRMgr order ∧
      (∀ who, (((config schedule).clients who).answers.filter fun entry => entry.1.isBlacklist) =
        answersOf who (runHistory (cachelessThreadStep policy) world.essRMgr order)) ∧
      ∀ past future, schedule = past ++ future → ∃ before after, order = before ++ after ∧
        ∀ who, (((config past).clients who).answers.map Prod.fst).filter Call.isBlacklist <+:
            callsOf who before ∧
          ((config past).clients who).pending.filter Call.isBlacklist <:+ callsOf who after := by
  intro config
  obtain ⟨order, ⟨called, shared, answered⟩, moments⟩ :=
    linearizable (program_guarded policy) calls world schedule completed
  have within : ∀ who, callsOf who order ⊆ calls who := by
    intro who
    rw [called who]
    exact List.Subset.refl _
  have plainOrder := plain_of_called plain within
  have cached : Cached world world.essRMgr := ⟨rfl, safe, exact⟩
  obtain ⟨ended, histories⟩ := cacheless_run cached policy plainOrder
  refine ⟨order.filter isBlacklistEntry, ?_, ?_, ?_, ?_⟩
  · intro who
    rw [callsOf_filter, called who]
  · have final : (config schedule).shared = runState (threadStep policy) world order := shared
    rw [final]
    exact ended.manager
  · intro who
    rw [answered who, ← histories, answersOf_filter]
    rfl
  · intro past future split
    obtain ⟨before, after, parts, seen⟩ := moments past future split
    refine ⟨before.filter isBlacklistEntry, after.filter isBlacklistEntry, ?_, ?_⟩
    · rw [parts, List.filter_append]
    · intro who
      rw [callsOf_filter, callsOf_filter]
      exact ⟨(seen who).1.filter _, (seen who).2.filter _⟩

theorem concurrent_calls_cacheless_toggle :
    let policy : EssPolicy := fun _ _ => true
    let world := World.boot (fun _ => ⟨[], 0⟩) (some 0) fallbackGetRFCParameter
      fallbackGetRFCParameter
    let calls : Bool → List Call := fun blocked =>
      [.setAVBlocked [97] blocked none, .getBlockedAVApplications none]
    let schedule := (List.replicate 24 [true, false]).flatten
    let config := fun moment => runSchedule (Call.program policy) (initial calls world) moment
    ∃ order : List (Bool × Call),
      (∀ who, callsOf who order = (calls who).filter Call.isBlacklist) ∧
      (config schedule).shared.essRMgr =
        runState (cachelessThreadStep policy) world.essRMgr order ∧
      (∀ who, (((config schedule).clients who).answers.filter fun entry =>
          entry.1.isBlacklist) =
        answersOf who (runHistory (cachelessThreadStep policy) world.essRMgr order)) ∧
      ∀ past future, schedule = past ++ future → ∃ before after, order = before ++ after ∧
        ∀ who, (((config past).clients who).answers.map Prod.fst).filter Call.isBlacklist <+:
            callsOf who before ∧
          ((config past).clients who).pending.filter Call.isBlacklist <:+ callsOf who after := by
  intro policy world calls schedule
  have plain : ∀ who, ∀ call ∈ calls who, call.Plain := by
    intro who call member
    rcases List.mem_pair.mp member with first | second
    · rw [first]
      exact ⟨rfl, by simp [Call.nulFreeApp, nulFree]⟩
    · rw [second]
      exact ⟨rfl, trivial⟩
  exact concurrent_calls_cacheless policy calls world (nulFreeState_of_empty rfl rfl)
    (by decide) plain schedule (Config.completed_of_idle (by decide +kernel))

/-- Threads that get their turns again and again all return: no call waits for
`_adminLock` forever, and the lock is free in the end. -/
theorem fair_calls_complete [DecidableEq ι] [Finite ι] (policy : EssPolicy)
    (calls : ι → List Call) (world : World) (schedule : Nat → ι) (fair : Fair schedule) :
    ∃ moment, let final := configAt (Call.program policy) (initial calls world) schedule moment
      final.Completed ∧ final.holder = none ∧
      ∀ who, (final.clients who).answers.map Prod.fst = calls who :=
  fair_completes (program_guarded policy) calls world fair

theorem fair_calls_complete_alternating :
    let policy : EssPolicy := fun _ _ => true
    let world := World.boot (fun _ => ⟨[], 0⟩) (some 0) fallbackGetRFCParameter
      fallbackGetRFCParameter
    let calls : Bool → List Call := fun blocked => [.setAVBlocked [97] blocked none]
    let schedule : Nat → Bool := fun turn => turn % 2 = 0
    ∃ moment, let final := configAt (Call.program policy) (initial calls world) schedule moment
      final.Completed ∧ final.holder = none ∧
      ∀ who, (final.clients who).answers.map Prod.fst = calls who := by
  intro policy world calls schedule
  refine fair_calls_complete policy calls world schedule ?_
  intro who moment
  cases who with
  | true => exact ⟨2 * moment, by omega, by simp [schedule]⟩
  | false => exact ⟨2 * moment + 1, by omega, by simp [schedule, Nat.add_mod]⟩

end LeanResourceManager
