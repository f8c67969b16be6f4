import LeanResourceManager.BlacklistCache

/-!
Applications that the plugin lists although the manager does not blacklist them, over the
runs of an instance whose calls may be interrupted by exceptions anywhere.
-/

namespace LeanResourceManager

open LeanMachine LeanProjection

/-- Every listed application is blacklisted by the manager, as a C string. -/
def NoPhantom (world : World) : Prop := ∀ app ∈ world.listed, cStr app ∈ world.essRMgr.blacklist

/-- A granted request to unblock a listed application is recorded, and finds no other listed
application of its name. -/
def UnblockRecorded (policy : EssPolicy) (world : World) : Call → Prop
  | .setAVBlocked appid false raised =>
      world.implementation.blacklistEnabled = true → raised ≠ some .printArguments →
        policy world.essRMgr.requests (essRequest appid false) = true →
          ∀ app ∈ world.blockedApps, cStr app = cStr appid →
            app = appid ∧ raised ≠ some .printStatus
  | _ => True

theorem noPhantom_iff {world : World} (available : world.implementation.mEssRMgr.isSome = true) :
    NoPhantom world ↔ cStr '' world.blockedApps ⊆ ↑world.essRMgr.blacklist := by
  rw [NoPhantom, listed_eq, if_pos available, Set.image_subset_iff]
  exact forall_congr' fun app => by simp [mem_blockedList, World.blockedApps]

theorem NoPhantom.unchanged {before after : World} (holds : NoPhantom before)
    (implementation : after.implementation = before.implementation)
    (blacklist : after.essRMgr.blacklist = before.essRMgr.blacklist) : NoPhantom after := by
  rw [NoPhantom, listed_eq, implementation, blacklist]
  rwa [NoPhantom, listed_eq] at holds

theorem noPhantom_lost_iff (policy : EssPolicy) (world : World) (appid : AppId) (blocked : Bool)
    (enabled : world.implementation.blacklistEnabled = true) (holds : NoPhantom world)
    (granted : policy world.essRMgr.requests (essRequest appid blocked) = true) :
    NoPhantom (callEssRMgr policy (essRequest appid blocked) world).2 ↔
      (blocked = false → ∀ app ∈ world.blockedApps, cStr app ≠ cStr appid) := by
  have available := isSome_of_enabled enabled
  have within := (noPhantom_iff available).mp holds
  have after : (callEssRMgr policy (essRequest appid blocked)
      world).2.implementation.mEssRMgr.isSome = true := available
  have apps : (callEssRMgr policy (essRequest appid blocked) world).2.blockedApps =
      world.blockedApps := rfl
  rw [noPhantom_iff after, apps, callEssRMgr_essRMgr,
    blacklist_granted policy world appid blocked granted]
  cases blocked with
  | true => simpa using within.trans (Set.subset_insert _ _)
  | false => simpa using subset_erase_iff within appid

theorem noPhantom_written_iff (policy : EssPolicy) (world : World) (appid : AppId)
    (blocked : Bool) (enabled : world.implementation.blacklistEnabled = true)
    (holds : NoPhantom world)
    (granted : policy world.essRMgr.requests (essRequest appid blocked) = true) :
    NoPhantom (assignStatus appid blocked
        (callEssRMgr policy (essRequest appid blocked) world).2) ↔
      (blocked = false → ∀ app ∈ world.blockedApps, cStr app = cStr appid → app = appid) := by
  have available := isSome_of_enabled enabled
  have within := (noPhantom_iff available).mp holds
  have after : (assignStatus appid blocked (callEssRMgr policy (essRequest appid blocked)
      world).2).implementation.mEssRMgr.isSome = true := available
  have apps : (callEssRMgr policy (essRequest appid blocked) world).2.blockedApps =
      world.blockedApps := rfl
  rw [noPhantom_iff after, blockedApps_assignStatus, apps, assignStatus_essRMgr,
    callEssRMgr_essRMgr, blacklist_granted policy world appid blocked granted]
  cases blocked with
  | true =>
      simp only [if_true, Bool.true_eq_false, false_implies, iff_true, Set.image_insert_eq]
      exact Set.insert_subset_insert within
  | false => simpa using erase_subset_iff within appid

theorem noPhantom_of_other (policy : EssPolicy) (world : World) (call : Call)
    (other : ∀ appid blocked raised, call ≠ .setAVBlocked appid blocked raised)
    (holds : NoPhantom world) : NoPhantom (callStep policy world call).1 := by
  obtain ⟨implementation, manager⟩ := callStep_keeps policy world call other
  exact holds.unchanged implementation (by rw [manager])

theorem noPhantom_step_iff (policy : EssPolicy) (world : World) (call : Call)
    (holds : NoPhantom world) :
    NoPhantom (callStep policy world call).1 ↔ UnblockRecorded policy world call := by
  cases call with
  | setAVBlocked appid blocked raised =>
      have ends := setAVBlocked_ends policy appid blocked raised world
      have lost := noPhantom_lost_iff policy world appid blocked
      have stored := noPhantom_written_iff policy world appid blocked
      simp only [callStep, Call.program]
      generalize (setAVBlocked policy appid blocked raised).run world = outcome at ends
      cases ends with
      | skipped disabled => cases blocked <;> simp [UnblockRecorded, disabled, holds]
      | skippedRaised disabled => cases blocked <;> simp [UnblockRecorded, disabled, holds]
      | raisedEarly _ early => cases blocked <;> simp [UnblockRecorded, early, holds]
      | refused _ _ refusal =>
          have kept : NoPhantom (callEssRMgr policy (essRequest appid blocked) world).2 :=
            holds.unchanged rfl (by simp [EssRMgr.handle, refusal])
          cases blocked <;> simp [UnblockRecorded, refusal, kept]
      | lost enabled granted interrupted =>
          rw [lost enabled holds granted]
          cases blocked with
          | true => simp [UnblockRecorded]
          | false =>
              simp only [UnblockRecorded, enabled, granted, true_implies]
              rcases interrupted with printing | ⟨inserting, absent⟩
              · simp [printing]
              · have unlisted : appid ∉ world.blockedApps := by
                  intro listed
                  exact absent (Std.ExtTreeMap.isSome_getElem?_iff_mem.mp (by rw [listed]; rfl))
                simp only [inserting]
                refine ⟨?_, ?_⟩
                · intro unnamed _ app member same
                  exact absurd same (unnamed app member)
                · intro recorded app member same
                  exact unlisted ((recorded (by simp) app member same).1 ▸ member)
      | written enabled granted early printed _ _ =>
          rw [stored enabled holds granted]
          cases blocked <;> simp [UnblockRecorded, enabled, granted, early, printed]
      | writtenRaised enabled granted updated =>
          rw [stored enabled holds granted]
          cases blocked <;> simp [UnblockRecorded, enabled, granted, updated]
  | _ => exact iff_of_true (noPhantom_of_other policy world _ (by simp) holds) trivial

/-- Whatever earlier instances did and wherever calls are interrupted, an instance lists
no application that the manager does not blacklist, at every moment of its run, exactly if
every granted request to unblock is recorded, if it is about a listed application, and finds
no other listed application of its name. Requests to block may be interrupted anywhere. -/
theorem noPhantom_throughout_iff (policy : EssPolicy) (world : World) (handle : Option Nat)
    (blacklist reserveTTS : RfcLookup) (calls : List Call) :
    Throughout (callStep policy) NoPhantom (world.restart handle blacklist reserveTTS) calls ↔
      StepsMeet (callStep policy) (UnblockRecorded policy)
        (world.restart handle blacklist reserveTTS) calls := by
  have empty : (world.restart handle blacklist reserveTTS).listed = [] := by
    rw [listed_eq]
    exact ite_self _
  have holds : NoPhantom (world.restart handle blacklist reserveTTS) := by
    simp [NoPhantom, empty]
  exact @throughout_iff_stepsMeet World Call Response (callStep policy) (fun _ => True)
    (fun _ => True) NoPhantom (UnblockRecorded policy) (fun _ _ _ _ => trivial)
    (fun state call _ _ listed => noPhantom_step_iff policy state call listed)
    _ trivial holds calls (fun _ _ => trivial)

def Call.unblockRecorded : Call → Bool
  | .setAVBlocked _ false raised => raised ≠ some .printStatus
  | _ => true

theorem blockedApps_nulFree (policy : EssPolicy) (world : World) (call : Call)
    (known : call.nulFreeApp) (within : world.blockedApps ⊆ nulFree) :
    (callStep policy world call).1.blockedApps ⊆ nulFree := by
  cases call with
  | setAVBlocked appid blocked raised =>
      have stored : (assignStatus appid blocked
          (callEssRMgr policy (essRequest appid blocked) world).2).blockedApps ⊆ nulFree := by
        have apps : (callEssRMgr policy (essRequest appid blocked) world).2.blockedApps =
            world.blockedApps := rfl
        rw [blockedApps_assignStatus, apps]
        cases blocked with
        | true => exact Set.insert_subset known within
        | false => exact Set.sdiff_subset.trans within
      have ends := setAVBlocked_ends policy appid blocked raised world
      simp only [callStep, Call.program]
      generalize (setAVBlocked policy appid blocked raised).run world = outcome at ends
      cases ends with
      | written => exact stored
      | writtenRaised => exact stored
      | _ => exact within
  | _ =>
      rw [World.blockedApps, (callStep_keeps policy world _ (by simp)).1]
      exact within

/-- With application ids without a NUL byte, an instance never lists an application that
the manager does not blacklist, unless an exception comes between the manager's grant of a
request to unblock and the map. -/
theorem noPhantom_of_nulFree (policy : EssPolicy) (world : World) (handle : Option Nat)
    (blacklist reserveTTS : RfcLookup) (calls : List Call)
    (allowed : ∀ call ∈ calls, call.nulFreeApp ∧ call.unblockRecorded = true) :
    Throughout (callStep policy) NoPhantom (world.restart handle blacklist reserveTTS) calls := by
  rw [noPhantom_throughout_iff]
  have initial : (world.restart handle blacklist reserveTTS).blockedApps ⊆ nulFree := by
    intro app listed
    simp [World.blockedApps, World.restart, construct] at listed
  have meets : ∀ state (call : Call), call.nulFreeApp ∧ call.unblockRecorded = true →
      state.blockedApps ⊆ nulFree → UnblockRecorded policy state call := by
    intro state call allowedCall within
    cases call with
    | setAVBlocked appid blocked raised =>
        cases blocked with
        | true => trivial
        | false =>
            intro _ _ _ app member sameName
            have known : appid ∈ nulFree := allowedCall.1
            have recorded : raised ≠ some .printStatus := by
              simpa [Call.unblockRecorded] using allowedCall.2
            exact ⟨cStr_injOn (within member) known sameName, recorded⟩
    | _ => trivial
  exact stepsMeet_of_invariant
    (fun state call allowedCall within => blockedApps_nulFree policy state call allowedCall.1 within)
    meets initial allowed

theorem noPhantom_of_nulFree_interrupted :
    let world := World.boot (fun _ => ⟨[], 0⟩) none fallbackGetRFCParameter
      fallbackGetRFCParameter
    let calls : List Call := [.setAVBlocked [97] true (some .insertEntry),
      .setAVBlocked [97] true none, .setAVBlocked [97] false (some .printUpdated)]
    Throughout (callStep fun _ _ => true) NoPhantom
      (world.restart (some 0) fallbackGetRFCParameter fallbackGetRFCParameter) calls := by
  intro world calls
  refine noPhantom_of_nulFree (fun _ _ => true) world (some 0) _ _ calls ?_
  intro call member
  simp only [calls, List.mem_cons, List.not_mem_nil, or_false] at member
  rcases member with rfl | rfl | rfl <;> exact ⟨by simp [Call.nulFreeApp, nulFree], rfl⟩

end LeanResourceManager
