import Mathlib.Data.List.Sort
import LeanResourceManager.BlacklistAtomicity
import LeanResourceManager.BlacklistCache

/-!
Applications do not interfere: what clients see of a set of names depends only on
the `SetAVBlocked` calls for these names.
-/

namespace LeanResourceManager

open LeanMachine LeanProgram

/-! The effect of `SetAVBlocked` as three decisions about the state it meets. -/

def asksEssRMgr (world : World) (raised : Option SetAVBlockedStep) : Bool :=
  world.implementation.blacklistEnabled && raised ≠ some .printArguments

def writesStatus (policy : EssPolicy) (world : World) (appid : AppId) (blocked : Bool)
    (raised : Option SetAVBlockedStep) : Bool :=
  asksEssRMgr world raised && policy world.essRMgr.requests (essRequest appid blocked) &&
    raised ≠ some .printStatus && !(raised = some .insertEntry &&
      world.implementation.mAppsAVBlacklistStatus[appid]?.isNone)

def succeeds (policy : EssPolicy) (world : World) (appid : AppId) (blocked : Bool)
    (raised : Option SetAVBlockedStep) : Bool :=
  if world.implementation.blacklistEnabled then
    writesStatus policy world appid blocked raised && raised ≠ some .printUpdated
  else raised ≠ some .buildInfoMessage && raised ≠ some .printInfoMessage

theorem setAVBlocked_decides (policy : EssPolicy) (world : World) (appid : AppId) (blocked : Bool)
    (raised : Option SetAVBlockedStep) :
    let outcome := callStep policy world (.setAVBlocked appid blocked raised)
    outcome.1.essRMgr = (if asksEssRMgr world raised then
      (world.essRMgr.handle policy (essRequest appid blocked)).2 else world.essRMgr) ∧
    outcome.1.implementation.mAppsAVBlacklistStatus =
      (if writesStatus policy world appid blocked raised then
        world.implementation.mAppsAVBlacklistStatus.insert appid blocked
      else world.implementation.mAppsAVBlacklistStatus) ∧
    outcome.2 = if succeeds policy world appid blocked raised then succeeded else failed := by
  have ends := setAVBlocked_ends policy appid blocked raised world
  simp only [callStep, Call.program, succeeds, writesStatus, asksEssRMgr]
  generalize (setAVBlocked policy appid blocked raised).run world = outcome at ends
  cases ends with
  | skipped disabled message =>
      obtain ⟨built, printed⟩ := not_or.mp message
      simp [disabled, built, printed]
  | skippedRaised disabled message =>
      rcases message with built | printed
      · simp [disabled, built]
      · simp [disabled, printed]
  | raisedEarly enabled early => simp [enabled, early]
  | refused enabled late refusal => simp [enabled, late, refusal]
  | lost enabled granted interrupted =>
      rcases interrupted with printing | ⟨inserting, absent⟩
      · simp [enabled, granted, printing]
      · simp [enabled, granted, inserting, absent]
  | written enabled granted early printed updated inserted =>
      by_cases inserting : raised = some .insertEntry
      · have present := inserted inserting
        simp [enabled, granted, inserting, present]
      · simp [enabled, granted, early, printed, updated, inserting]
  | writtenRaised enabled granted updated => simp [enabled, granted, updated]

/-! States that look alike as far as a set of names is concerned. -/

structure LooksAlike (names : Set CString) (left right : World) : Prop where
  handle : left.implementation.mEssRMgr = right.implementation.mEssRMgr
  flag : left.implementation.mDisableBlacklist = right.implementation.mDisableBlacklist
  status : ∀ app, cStr app ∈ names → left.implementation.mAppsAVBlacklistStatus[app]? =
    right.implementation.mAppsAVBlacklistStatus[app]?
  manager : left.essRMgr.AgreesOn names right.essRMgr

variable {names : Set CString} {left right : World}

theorem LooksAlike.symm (alike : LooksAlike names left right) : LooksAlike names right left where
  handle := alike.handle.symm
  flag := alike.flag.symm
  status app member := (alike.status app member).symm
  manager := alike.manager.symm

theorem LooksAlike.enabled (alike : LooksAlike names left right) :
    left.implementation.blacklistEnabled = right.implementation.blacklistEnabled := by
  rw [ResourceManagerImplementation.blacklistEnabled, alike.handle, alike.flag,
    ResourceManagerImplementation.blacklistEnabled]

def Call.concerns (names : Set CString) [DecidablePred (· ∈ names)] : Call → Bool
  | .setAVBlocked appid _ _ => cStr appid ∈ names
  | _ => false

theorem LooksAlike.hidden [DecidablePred (· ∈ names)] (alike : LooksAlike names left right)
    (policy : EssPolicy) (call : Call) (hidden : call.concerns names = false) :
    LooksAlike names (callStep policy left call).1 right := by
  obtain ⟨handle, flag, _⟩ := callStep_configuration policy left call
  refine ⟨handle.trans alike.handle, flag.trans alike.flag, ?_, ?_⟩
  · intro app member
    cases call with
    | setAVBlocked appid blocked raised =>
        have outside : cStr appid ∉ names := by simpa [Call.concerns] using hidden
        have other : appid ≠ app := fun same => outside (same ▸ member)
        rw [(setAVBlocked_decides policy left appid blocked raised).2.1]
        split
        · rw [getElem?_insert, if_neg other]
          exact alike.status app member
        · exact alike.status app member
    | _ =>
        rw [(callStep_keeps policy left _ (by simp)).1]
        exact alike.status app member
  · cases call with
    | setAVBlocked appid blocked raised =>
        have outside : (essRequest appid blocked).name ∉ names := by
          rw [essRequest_name]
          simpa [Call.concerns] using hidden
        rw [(setAVBlocked_decides policy left appid blocked raised).1]
        split
        · exact alike.manager.handleHidden policy outside
        · exact alike.manager
    | _ =>
        rw [(callStep_keeps policy left _ (by simp)).2]
        exact alike.manager

theorem LooksAlike.visible [DecidablePred (· ∈ names)] (alike : LooksAlike names left right)
    {policy : EssPolicy} (isLocal : policy.Local) (call : Call)
    (visible : call.concerns names = true) :
    LooksAlike names (callStep policy left call).1 (callStep policy right call).1 ∧
      (callStep policy left call).2 = (callStep policy right call).2 := by
  cases call with
  | setAVBlocked appid blocked raised =>
      have member : cStr appid ∈ names := by simpa [Call.concerns] using visible
      have named : (essRequest appid blocked).name ∈ names := by rwa [essRequest_name]
      have asks : asksEssRMgr left raised = asksEssRMgr right raised := by
        rw [asksEssRMgr, asksEssRMgr, alike.enabled]
      have writes : writesStatus policy left appid blocked raised =
          writesStatus policy right appid blocked raised := by
        rw [writesStatus, writesStatus, asks, alike.manager.policy_eq isLocal named,
          alike.status appid member]
      have answers : succeeds policy left appid blocked raised =
          succeeds policy right appid blocked raised := by
        rw [succeeds, succeeds, alike.enabled, writes]
      obtain ⟨leftManager, leftStatus, leftAnswer⟩ :=
        setAVBlocked_decides policy left appid blocked raised
      obtain ⟨rightManager, rightStatus, rightAnswer⟩ :=
        setAVBlocked_decides policy right appid blocked raised
      obtain ⟨leftHandle, leftFlag, _⟩ :=
        callStep_configuration policy left (.setAVBlocked appid blocked raised)
      obtain ⟨rightHandle, rightFlag, _⟩ :=
        callStep_configuration policy right (.setAVBlocked appid blocked raised)
      refine ⟨⟨?_, ?_, ?_, ?_⟩, ?_⟩
      · rw [leftHandle, rightHandle, alike.handle]
      · rw [leftFlag, rightFlag, alike.flag]
      · intro app inside
        rw [leftStatus, rightStatus, writes]
        split
        · rw [getElem?_insert, getElem?_insert, alike.status app inside]
        · exact alike.status app inside
      · rw [leftManager, rightManager, asks]
        split
        · exact alike.manager.handle isLocal named
        · exact alike.manager
      · rw [leftAnswer, rightAnswer, answers]
  | _ => simp [Call.concerns] at visible

theorem LooksAlike.listed [DecidablePred (· ∈ names)] (alike : LooksAlike names left right) :
    left.listed.filter (fun app => cStr app ∈ names) =
      right.listed.filter fun app => cStr app ∈ names := by
  rw [listed_eq, listed_eq, alike.handle]
  split
  · apply List.Pairwise.eq_of_mem_iff ((blockedList_sorted _).filter _)
      ((blockedList_sorted _).filter _)
    intro app
    simp only [List.mem_filter, mem_blockedList, decide_eq_true_eq]
    constructor
    · rintro ⟨blocked, member⟩
      exact ⟨by rw [← alike.status app member]; exact blocked, member⟩
    · rintro ⟨blocked, member⟩
      exact ⟨by rw [alike.status app member]; exact blocked, member⟩
  · rfl

/-- Two runs with the same `SetAVBlocked` calls for a set of names, whatever else is
called in between, answer these calls alike and end alike as far as the names are
concerned. -/
theorem calls_noninterfere (policy : EssPolicy) (isLocal : policy.Local) (names : Set CString)
    [DecidablePred (· ∈ names)] (left right : World) (handle : Option Nat)
    (leftBlacklist leftReserveTTS rightBlacklist rightReserveTTS : RfcLookup)
    (sameFlag : disabledByRfc leftBlacklist = disabledByRfc rightBlacklist)
    (sameManager : left.essRMgr.AgreesOn names right.essRMgr) (lefts rights : List Call)
    (sameCalls : lefts.filter (Call.concerns names) = rights.filter (Call.concerns names)) :
    let leftStart := left.restart handle leftBlacklist leftReserveTTS
    let rightStart := right.restart handle rightBlacklist rightReserveTTS
    let leftEnd := runState (callStep policy) leftStart lefts
    let rightEnd := runState (callStep policy) rightStart rights
    ((runHistory (callStep policy) leftStart lefts).filter fun entry => entry.1.concerns names) =
      ((runHistory (callStep policy) rightStart rights).filter
        fun entry => entry.1.concerns names) ∧
    (∀ name ∈ names, name ∈ leftEnd.essRMgr.blacklist ↔ name ∈ rightEnd.essRMgr.blacklist) ∧
    leftEnd.listed.filter (fun app => cStr app ∈ names) =
      rightEnd.listed.filter fun app => cStr app ∈ names := by
  intro leftStart rightStart leftEnd rightEnd
  have initial : LooksAlike names leftStart rightStart := {
    handle := rfl
    flag := sameFlag
    status := fun _ _ => rfl
    manager := sameManager
  }
  have hiddenLeft : ∀ first second call, Call.concerns names call = false →
      LooksAlike names first second → LooksAlike names (callStep policy first call).1 second :=
    fun _ _ call hidden alike => alike.hidden policy call hidden
  have hiddenRight : ∀ first second call, Call.concerns names call = false →
      LooksAlike names first second → LooksAlike names first (callStep policy second call).1 :=
    fun _ _ call hidden alike => (alike.symm.hidden policy call hidden).symm
  have matched : ∀ first second call, Call.concerns names call = true →
      LooksAlike names first second →
        LooksAlike names (callStep policy first call).1 (callStep policy second call).1 ∧
          (callStep policy first call).2 = (callStep policy second call).2 :=
    fun _ _ call visible alike => alike.visible isLocal call visible
  obtain ⟨alike, answers⟩ := unwinding hiddenLeft hiddenRight matched initial sameCalls
  exact ⟨answers, fun name member => (alike.manager name member).2, alike.listed⟩

theorem calls_noninterfere_one_app :
    let policy : EssPolicy := fun _ _ => true
    let names : Set CString := {cStr [97]}
    let world := World.boot (fun _ => ⟨[], 0⟩) none fallbackGetRFCParameter fallbackGetRFCParameter
    let start := world.restart (some 0) fallbackGetRFCParameter fallbackGetRFCParameter
    let leftEnd := runState (callStep policy) start
      [.setAVBlocked [98] true none, .setAVBlocked [97] true none]
    let rightEnd := runState (callStep policy) start
      [.setAVBlocked [97] true none, .setAVBlocked [99] true (some .insertEntry)]
    leftEnd.listed.filter (fun app => cStr app ∈ names) =
      rightEnd.listed.filter fun app => cStr app ∈ names := by
  intro policy names world start leftEnd rightEnd
  have isLocal : policy.Local := fun _ _ _ _ => rfl
  have sameManager : world.essRMgr.AgreesOn names world.essRMgr := fun _ _ => ⟨rfl, Iff.rfl⟩
  exact (calls_noninterfere policy isLocal names world world (some 0) fallbackGetRFCParameter
    fallbackGetRFCParameter fallbackGetRFCParameter fallbackGetRFCParameter rfl sameManager
    [.setAVBlocked [98] true none, .setAVBlocked [97] true none]
    [.setAVBlocked [97] true none, .setAVBlocked [99] true (some .insertEntry)] rfl).2.2

end LeanResourceManager
