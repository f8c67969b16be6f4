import LeanResourceManager.BlacklistCache

/-!
The blacklist across instances: the manager keeps its blacklist when an instance is
destroyed, the next instance starts with an empty map.
-/

namespace LeanResourceManager

open LeanLastWrite LeanMachine

structure Lifetime where
  handle : Option Nat
  blacklist : RfcLookup
  reserveTTS : RfcLookup
  calls : List Call

def Lifetime.Enabled (lifetime : Lifetime) : Prop :=
  (construct lifetime.handle lifetime.blacklist lifetime.reserveTTS).blacklistEnabled = true

def liveThrough (policy : EssPolicy) (world : World) (lifetime : Lifetime) : World × Unit :=
  (runState (callStep policy)
    (world.restart lifetime.handle lifetime.blacklist lifetime.reserveTTS) lifetime.calls, ())

def askEssRMgr (policy : EssPolicy) (requests : List (EssRequest × Bool)) :
    List Call → List (EssRequest × Bool)
  | [] => requests
  | .setAVBlocked appid blocked _ :: rest =>
      let request := essRequest appid blocked
      askEssRMgr policy (requests ++ [(request, policy requests request)]) rest
  | _ :: rest => askEssRMgr policy requests rest

theorem askEssRMgr_append (policy : EssPolicy) (requests : List (EssRequest × Bool))
    (first second : List Call) :
    askEssRMgr policy requests (first ++ second) =
      askEssRMgr policy (askEssRMgr policy requests first) second := by
  induction first generalizing requests with
  | nil => rfl
  | cons call rest ih => cases call <;> simp [askEssRMgr, ih]

theorem callStep_requests (policy : EssPolicy) (world : World) (call : Call)
    (enabled : world.implementation.blacklistEnabled = true)
    (completes : call.updatesComplete = true) :
    (callStep policy world call).1.essRMgr.requests =
      askEssRMgr policy world.essRMgr.requests [call] := by
  cases call with
  | setAVBlocked appid blocked raised =>
      have uninterrupted : raised = none := by simpa [Call.updatesComplete] using completes
      subst raised
      rw [(setAVBlocked_completes policy world appid blocked enabled).1]
      rfl
  | _ => rw [(callStep_keeps policy world _ (by simp)).2]; rfl

theorem runState_requests (policy : EssPolicy) (world : World) (calls : List Call)
    (enabled : world.implementation.blacklistEnabled = true)
    (complete : ∀ call ∈ calls, call.updatesComplete = true) :
    (runState (callStep policy) world calls).essRMgr.requests =
      askEssRMgr policy world.essRMgr.requests calls := by
  induction calls generalizing world with
  | nil => rfl
  | cons call rest ih =>
      have asked := callStep_requests policy world call enabled (complete call (by simp))
      have later := ih (callStep policy world call).1 (by rw [callStep_enabled]; exact enabled)
        (fun other member => complete other (by simp [member]))
      rw [runState_cons, later, asked]
      exact (askEssRMgr_append policy _ [call] rest).symm

theorem lifetimes_requests (policy : EssPolicy) (world : World) (lifetimes : List Lifetime)
    (enabled : ∀ lifetime ∈ lifetimes, lifetime.Enabled)
    (complete : ∀ lifetime ∈ lifetimes, ∀ call ∈ lifetime.calls, call.updatesComplete = true) :
    (runState (liveThrough policy) world lifetimes).essRMgr.requests =
      askEssRMgr policy world.essRMgr.requests (lifetimes.flatMap Lifetime.calls) := by
  induction lifetimes generalizing world with
  | nil => rfl
  | cons lifetime rest ih =>
      have lived := runState_requests policy
        (world.restart lifetime.handle lifetime.blacklist lifetime.reserveTTS) lifetime.calls
        (enabled lifetime (by simp)) (complete lifetime (by simp))
      rw [runState_cons, ih _ (fun other member => enabled other (by simp [member]))
        (fun other member => complete other (by simp [member])), liveThrough, lived,
        List.flatMap_cons, askEssRMgr_append]
      rfl

/-! The manager's blacklist is what its granted requests say, at every moment. -/

theorem callStep_faithful (policy : EssPolicy) (world : World) (call : Call)
    (faithful : world.essRMgr.Faithful) : (callStep policy world call).1.essRMgr.Faithful := by
  cases call with
  | setAVBlocked appid blocked raised =>
      have ends := setAVBlocked_ends policy appid blocked raised world
      have asked := faithful.handle policy (essRequest appid blocked)
      simp only [callStep, Call.program]
      generalize (setAVBlocked policy appid blocked raised).run world = outcome at ends
      cases ends with
      | skipped => exact faithful
      | skippedRaised => exact faithful
      | raisedEarly => exact faithful
      | refused => exact asked
      | lost => exact asked
      | written => exact asked
      | writtenRaised => exact asked
  | _ =>
      rw [(callStep_keeps policy world _ (by simp)).2]
      exact faithful

theorem lifetimes_faithful (policy : EssPolicy) (world : World) (lifetimes : List Lifetime)
    (faithful : world.essRMgr.Faithful) :
    (runState (liveThrough policy) world lifetimes).essRMgr.Faithful := by
  induction lifetimes generalizing world with
  | nil => exact faithful
  | cons lifetime rest ih =>
      apply ih
      have everyCall : ∀ state (call : Call), True → state.essRMgr.Faithful →
          (callStep policy state call).1.essRMgr.Faithful :=
        fun state call _ => callStep_faithful policy state call
      have restarted : (world.restart lifetime.handle lifetime.blacklist
        lifetime.reserveTTS).essRMgr.Faithful := faithful
      exact runState_invariant everyCall restarted (fun _ _ => trivial)

/-- A new instance lists what the manager blacklists exactly if every name that
earlier instances blocked was unblocked again by its last granted request. -/
theorem restart_cacheExact_iff (policy : EssPolicy) (world : World)
    (fresh : world.essRMgr = { requests := [], blacklist := ∅ }) (lifetimes : List Lifetime)
    (enabled : ∀ lifetime ∈ lifetimes, lifetime.Enabled)
    (complete : ∀ lifetime ∈ lifetimes, ∀ call ∈ lifetime.calls, call.updatesComplete = true)
    (handle : Nat) (blacklist reserveTTS : RfcLookup) :
    CacheExact ((runState (liveThrough policy) world lifetimes).restart (some handle) blacklist
        reserveTTS) ↔
      ∀ name, lastWrite (grants (askEssRMgr policy [] (lifetimes.flatMap Lifetime.calls))) name ≠
        some true := by
  have initial : world.essRMgr.Faithful := by
    intro name
    simp [fresh, grants]
  have faithful := lifetimes_faithful policy world lifetimes initial
  have asked := lifetimes_requests policy world lifetimes enabled complete
  rw [fresh] at asked
  rw [← asked]
  generalize runState (liveThrough policy) world lifetimes = final at faithful
  have unlisted : (final.restart (some handle) blacklist reserveTTS).listed = [] := listed_eq _
  rw [CacheExact, unlisted]
  constructor
  · intro empty name blocked
    have member := (faithful name).mpr blocked
    change ∅ = final.essRMgr.blacklist at empty
    simp [← empty] at member
  · intro unblocked
    apply Eq.symm
    apply Finset.eq_empty_of_forall_notMem
    intro name member
    exact unblocked name ((faithful name).mp member)

theorem restart_cacheExact_iff_unblocked :
    let policy : EssPolicy := fun _ _ => true
    let world := World.boot (fun _ => ⟨[], 0⟩) none fallbackGetRFCParameter fallbackGetRFCParameter
    let lifetimes : List Lifetime := [
      ⟨some 0, fallbackGetRFCParameter, fallbackGetRFCParameter, [.setAVBlocked [97] true none]⟩,
      ⟨some 1, fallbackGetRFCParameter, fallbackGetRFCParameter, [.setAVBlocked [97] false none]⟩]
    CacheExact ((runState (liveThrough policy) world lifetimes).restart (some 2)
        fallbackGetRFCParameter fallbackGetRFCParameter) ↔
      ∀ name, lastWrite (grants (askEssRMgr policy [] (lifetimes.flatMap Lifetime.calls))) name ≠
        some true := by
  intro policy world lifetimes
  refine restart_cacheExact_iff policy world rfl lifetimes ?_ (by decide) 2 _ _
  intro lifetime member
  rcases List.mem_pair.mp member with first | second
  · subst first
    rfl
  · subst second
    rfl

/-- "a" is blocked, the plugin restarts, and the list no longer shows it. -/
theorem restart_forgets_blocked_app :
    let world := World.boot (fun _ => ⟨[], 0⟩) none fallbackGetRFCParameter fallbackGetRFCParameter
    let lifetimes : List Lifetime := [
      ⟨some 0, fallbackGetRFCParameter, fallbackGetRFCParameter, [.setAVBlocked [97] true none]⟩]
    (∀ lifetime ∈ lifetimes, lifetime.Enabled ∧
        ∀ call ∈ lifetime.calls, call.updatesComplete = true ∧ call.nulFreeApp) ∧
      ¬CacheExact ((runState (liveThrough fun _ _ => true) world lifetimes).restart (some 1)
        fallbackGetRFCParameter fallbackGetRFCParameter) := by
  refine ⟨?_, by decide⟩
  intro lifetime member
  rw [List.mem_singleton.mp member]
  refine ⟨rfl, ?_⟩
  intro call called
  rw [List.mem_singleton.mp called]
  exact ⟨rfl, by simp [Call.nulFreeApp, nulFree]⟩

end LeanResourceManager
