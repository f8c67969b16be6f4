import LeanResourceManager.BlacklistHistory
import LeanResourceManager.Library.Projection

/-!
The map of the implementation as a cache of the blacklist that the Essos Resource
Manager keeps: while one instance runs, and across instances.
-/

namespace LeanResourceManager

open LeanLastWrite LeanMachine LeanProjection

def World.listed (world : World) : List AppId :=
  ((getBlockedAVApplications none).run world).2.clients.getD []

/-- As C strings, the listed applications are the names the manager blacklists. -/
def CacheExact (world : World) : Prop :=
  (world.listed.map cStr).toFinset = world.essRMgr.blacklist

instance (world : World) : Decidable (CacheExact world) :=
  inferInstanceAs (Decidable ((world.listed.map cStr).toFinset = world.essRMgr.blacklist))

theorem listed_eq (world : World) :
    world.listed = if world.implementation.mEssRMgr.isSome then
      blockedList world.implementation.mAppsAVBlacklistStatus else [] := by
  have answer := world.listingCompletes_none.answer fun _ _ => false
  simp only [World.listed]
  change ((getBlockedAVApplications none).run world).2 = _ at answer
  rw [answer]
  by_cases available : world.implementation.mEssRMgr.isSome = true
  · rw [if_pos available, if_pos available]
    rfl
  · rw [if_neg available, if_neg available]
    rfl

def World.blockedApps (world : World) : Set AppId :=
  {app | world.implementation.mAppsAVBlacklistStatus[app]? = some true}

theorem cacheExact_iff (world : World) (available : world.implementation.mEssRMgr.isSome = true) :
    CacheExact world ↔ cStr '' world.blockedApps = ↑world.essRMgr.blacklist := by
  rw [CacheExact, listed_eq, if_pos available, ← Finset.coe_inj]
  have image : cStr '' world.blockedApps = ↑((blockedList
      world.implementation.mAppsAVBlacklistStatus).map cStr).toFinset := by
    ext name
    simp [World.blockedApps, mem_blockedList]
  rw [image]

def Call.updatesComplete : Call → Bool
  | .setAVBlocked _ _ raised => raised = none
  | _ => true

/-- A granted request to unblock finds no other listed application of that name. -/
def NameUnshared (policy : EssPolicy) (world : World) : Call → Prop
  | .setAVBlocked appid false _ =>
      policy world.essRMgr.requests (essRequest appid false) = true →
        ∀ app, world.implementation.mAppsAVBlacklistStatus[app]? = some true →
          cStr app = cStr appid → app = appid
  | _ => True

theorem blockedApps_assignStatus (appid : AppId) (blocked : Bool) (world : World) :
    (assignStatus appid blocked world).blockedApps =
      if blocked then insert appid world.blockedApps else world.blockedApps \ {appid} := by
  ext app
  simp only [World.blockedApps, assignStatus_implementation, getElem?_insert, Set.mem_ofPred_eq]
  cases blocked with
  | true => by_cases same : appid = app <;> simp [same, eq_comm]
  | false => by_cases same : appid = app <;> simp [same, eq_comm]

theorem blacklist_granted (policy : EssPolicy) (world : World) (appid : AppId) (blocked : Bool)
    (granted : policy world.essRMgr.requests (essRequest appid blocked) = true) :
    ((world.essRMgr.handle policy (essRequest appid blocked)).2.blacklist : Set CString) =
      if blocked then insert (cStr appid) ↑world.essRMgr.blacklist
      else ↑world.essRMgr.blacklist \ {cStr appid} := by
  simp only [EssRMgr.handle, granted, if_true]
  cases blocked with
  | true => exact Finset.coe_insert _ _
  | false => exact Finset.coe_erase _ _

theorem granted_stores (policy : EssPolicy) (world : World) (appid : AppId) (blocked : Bool)
    (enabled : world.implementation.blacklistEnabled = true)
    (granted : policy world.essRMgr.requests (essRequest appid blocked) = true) :
    let after := (callStep policy world (.setAVBlocked appid blocked none)).1
    after.blockedApps =
      (if blocked then insert appid world.blockedApps else world.blockedApps \ {appid}) ∧
    (after.essRMgr.blacklist : Set CString) =
      if blocked then insert (cStr appid) ↑world.essRMgr.blacklist
      else ↑world.essRMgr.blacklist \ {cStr appid} := by
  obtain ⟨manager, implementation⟩ := setAVBlocked_completes policy world appid blocked enabled
  refine ⟨?_, ?_⟩
  · rw [← blockedApps_assignStatus, World.blockedApps, implementation, granted]
    rfl
  · rw [manager, blacklist_granted policy world appid blocked granted]

theorem cacheExact_congr {first second : World}
    (implementation : first.implementation = second.implementation)
    (blacklist : first.essRMgr.blacklist = second.essRMgr.blacklist) :
    CacheExact first ↔ CacheExact second := by
  rw [CacheExact, CacheExact, listed_eq, listed_eq, implementation, blacklist]

theorem cacheExact_of_other (policy : EssPolicy) (world : World) (call : Call)
    (other : ∀ appid blocked raised, call ≠ .setAVBlocked appid blocked raised)
    (cached : CacheExact world) : CacheExact (callStep policy world call).1 := by
  obtain ⟨implementation, manager⟩ := callStep_keeps policy world call other
  exact (cacheExact_congr implementation (by rw [manager])).mpr cached

theorem cacheExact_step_iff (policy : EssPolicy) (world : World) (call : Call)
    (completes : call.updatesComplete = true)
    (enabled : world.implementation.blacklistEnabled = true) (cached : CacheExact world) :
    CacheExact (callStep policy world call).1 ↔ NameUnshared policy world call := by
  cases call with
  | setAVBlocked appid blocked raised =>
      have uninterrupted : raised = none := by simpa [Call.updatesComplete] using completes
      subst raised
      cases granted : policy world.essRMgr.requests (essRequest appid blocked) with
      | false =>
          obtain ⟨manager, implementation⟩ :=
            setAVBlocked_completes policy world appid blocked enabled
          have unchanged : CacheExact (callStep policy world (.setAVBlocked appid blocked none)).1 :=
            (cacheExact_congr (by simp [implementation, granted])
              (by simp [manager, EssRMgr.handle, granted])).mpr cached
          cases blocked <;> simp [NameUnshared, unchanged, granted]
      | true =>
          have available := isSome_of_enabled enabled
          have stillAvailable : (callStep policy world
              (.setAVBlocked appid blocked none)).1.implementation.mEssRMgr.isSome = true :=
            isSome_of_enabled (by rw [callStep_enabled]; exact enabled)
          obtain ⟨apps, blacklist⟩ := granted_stores policy world appid blocked enabled granted
          rw [cacheExact_iff _ stillAvailable, apps, blacklist]
          rw [cacheExact_iff _ available] at cached
          cases blocked with
          | true => simpa [NameUnshared] using insert_exact cached appid
          | false =>
              simp only [NameUnshared, granted, true_implies, Bool.false_eq_true, if_false]
              exact erase_exact_iff cached appid
  | _ => exact iff_of_true (cacheExact_of_other policy world _ (by simp) cached) trivial

/-- The cache stays exact throughout a run exactly if no granted request to unblock
an application meets another listed application with the same C string. -/
theorem cacheExact_throughout_iff (policy : EssPolicy) (world : World)
    (enabled : world.implementation.blacklistEnabled = true)
    (emptyStatus : world.implementation.mAppsAVBlacklistStatus = ∅)
    (emptyBlacklist : world.essRMgr.blacklist = ∅) (calls : List Call)
    (complete : ∀ call ∈ calls, call.updatesComplete = true) :
    Throughout (callStep policy) CacheExact world calls ↔
      StepsMeet (callStep policy) (NameUnshared policy) world calls := by
  have preserved : ∀ state (call : Call), call.updatesComplete = true →
      state.implementation.blacklistEnabled = true →
        (callStep policy state call).1.implementation.blacklistEnabled = true := by
    intro state call _ enabledNow
    rw [callStep_enabled]
    exact enabledNow
  have cached : CacheExact world := by
    rw [CacheExact, listed_eq, if_pos (isSome_of_enabled enabled), emptyStatus, emptyBlacklist]
    rfl
  exact throughout_iff_stepsMeet preserved
    (fun state call completes enabledNow exact =>
      cacheExact_step_iff policy state call completes enabledNow exact)
    enabled cached complete

theorem cacheExact_throughout_iff_one_app :
    let policy : EssPolicy := fun _ _ => true
    let world := World.boot (fun _ => ⟨[], 0⟩) (some 0) fallbackGetRFCParameter
      fallbackGetRFCParameter
    let calls : List Call := [.setAVBlocked [97] true none, .setAVBlocked [97] false none]
    Throughout (callStep policy) CacheExact world calls ↔
      StepsMeet (callStep policy) (NameUnshared policy) world calls := by
  intro policy world calls
  exact cacheExact_throughout_iff policy world rfl rfl rfl calls (by decide)

/-- "a\0b" and "a\0c" are two keys of the map and one name of the manager. -/
theorem cacheExact_lost_for_shared_name :
    let world := World.boot (fun _ => ⟨[], 0⟩) (some 0) fallbackGetRFCParameter
      fallbackGetRFCParameter
    let calls : List Call := [.setAVBlocked [97, 0, 98] true none,
      .setAVBlocked [97, 0, 99] true none, .setAVBlocked [97, 0, 98] false none]
    world.implementation.blacklistEnabled = true ∧
      world.implementation.mAppsAVBlacklistStatus = ∅ ∧ world.essRMgr.blacklist = ∅ ∧
      (∀ call ∈ calls, call.updatesComplete = true) ∧
      ¬CacheExact (runState (callStep fun _ _ => true) world calls) := by
  refine ⟨rfl, rfl, rfl, by decide, by decide⟩

/-! Application ids without a NUL byte never share a name. -/

def nulFree : Set AppId := {appid | (0 : UInt8) ∉ appid}

theorem cStr_injOn : Set.InjOn cStr nulFree := by
  intro first firstFree second secondFree same
  rw [← cStr_of_nulFree firstFree, ← cStr_of_nulFree secondFree, same]

def Call.nulFreeApp : Call → Prop
  | .setAVBlocked appid _ _ => appid ∈ nulFree
  | _ => True

def NulFreeState (world : World) : Prop :=
  world.implementation.blacklistEnabled = true ∧ world.blockedApps ⊆ nulFree

theorem NulFreeState.step {world : World} (safe : NulFreeState world) (policy : EssPolicy)
    (call : Call) (completes : call.updatesComplete = true) (known : call.nulFreeApp) :
    NulFreeState (callStep policy world call).1 := by
  obtain ⟨enabled, within⟩ := safe
  refine ⟨by rw [callStep_enabled]; exact enabled, ?_⟩
  cases call with
  | setAVBlocked appid blocked raised =>
      have uninterrupted : raised = none := by simpa [Call.updatesComplete] using completes
      subst raised
      cases granted : policy world.essRMgr.requests (essRequest appid blocked) with
      | false =>
          have kept := (setAVBlocked_completes policy world appid blocked enabled).2
          simpa [World.blockedApps, kept, granted] using within
      | true =>
          rw [(granted_stores policy world appid blocked enabled granted).1]
          cases blocked with
          | true => exact Set.insert_subset known within
          | false => exact Set.sdiff_subset.trans within
  | _ =>
      rw [World.blockedApps, (callStep_keeps policy world _ (by simp)).1]
      exact within

/-- Runs over application ids without a NUL byte meet the condition at every step. -/
theorem nameUnshared_of_nulFree (policy : EssPolicy) (world : World)
    (enabled : world.implementation.blacklistEnabled = true)
    (emptyStatus : world.implementation.mAppsAVBlacklistStatus = ∅) (calls : List Call)
    (allowed : ∀ call ∈ calls, call.updatesComplete = true ∧ call.nulFreeApp) :
    StepsMeet (callStep policy) (NameUnshared policy) world calls := by
  have initial : NulFreeState world := by
    refine ⟨enabled, ?_⟩
    intro app blocked
    simp [World.blockedApps, emptyStatus] at blocked
  have meets : ∀ state (call : Call), call.updatesComplete = true ∧ call.nulFreeApp →
      NulFreeState state → NameUnshared policy state call := by
    intro state call allowedCall safe
    cases call with
    | setAVBlocked appid blocked raised =>
        cases blocked with
        | true => trivial
        | false => exact fun _ => erase_exact_of_injOn cStr_injOn safe.2 allowedCall.2
    | _ => trivial
  exact stepsMeet_of_invariant
    (fun state call allowedCall safe => NulFreeState.step safe policy call allowedCall.1 allowedCall.2)
    meets initial allowed

end LeanResourceManager
