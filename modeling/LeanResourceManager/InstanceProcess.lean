import LeanResourceManager.BlacklistHistory
import LeanResourceManager.Library.Ownership

/-!
The constructor and the destructor of `ResourceManagerImplementation`: a process in which
objects come and go at any address, each with a manager handle of its own, and the static
`_instance` that points to one of them.
-/

namespace LeanResourceManager

open LeanMachine LeanOwnership

/-- Handles are told apart by number, in the order of their creation. -/
inductive HandleEvent
  | created (handle : Nat)
  | requested (handle : Option Nat)
  | destroyed (handle : Nat)
  deriving DecidableEq

def HandleEvent.destroyedHandle : HandleEvent → Option Nat
  | .destroyed handle => some handle
  | _ => none

/-- The objects by their address, `_instance`, what all objects share, and what was done
with handles of the manager. -/
structure Process where
  objects : Nat → Option ResourceManagerImplementation
  staticInstance : Option Nat
  essRMgr : EssRMgr
  securityToken : SecurityToken
  iterators : Nat → StringIterator
  effects : List Effect
  created : Nat
  log : List HandleEvent

def Process.started (iterators : Nat → StringIterator) : Process where
  objects _ := none
  staticInstance := none
  essRMgr := { requests := [], blacklist := ∅ }
  securityToken := .initial
  iterators := iterators
  effects := []
  created := 0
  log := []

def Process.world (process : Process) (object : ResourceManagerImplementation) : World where
  implementation := object
  essRMgr := process.essRMgr
  securityToken := process.securityToken
  iterators := process.iterators
  effects := process.effects

/-- Every request of a call goes through the handle of the object it is made on. -/
def Process.leave (process : Process) (self : Nat) (handle : Option Nat) (world : World) :
    Process :=
  let count := world.essRMgr.requests.length - process.essRMgr.requests.length
  { process with
    objects := Function.update process.objects self (some world.implementation)
    essRMgr := world.essRMgr
    securityToken := world.securityToken
    iterators := world.iterators
    effects := world.effects
    log := process.log ++ List.replicate count (.requested handle) }

/-- `succeeds` says whether `EssRMgrCreate` returns a handle. -/
inductive ProcessStep
  | construct (self : Nat) (succeeds : Bool) (blacklist reserveTTS : RfcLookup)
  | destruct (self : Nat)
  | call (self : Nat) (call : Call)

def constructObject (self : Nat) (succeeds : Bool) (blacklist reserveTTS : RfcLookup)
    (process : Process) : Process :=
  let process := { process with staticInstance := some self }
  let (handle, process) :=
    if succeeds then
      (some process.created, { process with
        created := process.created + 1
        log := process.log ++ [.created process.created] })
    else (none, process)
  { process with
    objects := Function.update process.objects self
      (some (construct handle blacklist reserveTTS)) }

def destructObject (self : Nat) (object : ResourceManagerImplementation) (process : Process) :
    Process :=
  let process : Process :=
    match object.mEssRMgr with
    | none => process
    | some handle => { process with log := process.log ++ [.destroyed handle] }
  let process :=
    if process.staticInstance = some self then { process with staticInstance := none } else process
  { process with objects := Function.update process.objects self none }

/-- An address holds at most one object, and only objects are called or destroyed. -/
def processStep (policy : EssPolicy) (process : Process) :
    ProcessStep → Process × Option Response
  | .construct self succeeds blacklist reserveTTS =>
      match process.objects self with
      | some _ => (process, none)
      | none => (constructObject self succeeds blacklist reserveTTS process, none)
  | .destruct self =>
      match process.objects self with
      | none => (process, none)
      | some object => (destructObject self object process, none)
  | .call self call =>
      match process.objects self with
      | none => (process, none)
      | some object =>
          let (world, response) := callStep policy (process.world object) call
          (process.leave self object.mEssRMgr world, some response)

/-- The protocol of a handle: requests and its one destruction come after its creation,
and nothing comes after its destruction. -/
inductive WellUsed : List HandleEvent → Prop
  | start : WellUsed []
  | created {log : List HandleEvent} (handle : Nat) : WellUsed log →
      HandleEvent.destroyed handle ∉ log → WellUsed (log ++ [.created handle])
  | requested {log : List HandleEvent} (handle : Nat) : WellUsed log → .created handle ∈ log →
      HandleEvent.destroyed handle ∉ log → WellUsed (log ++ [.requested (some handle)])
  | destroyed {log : List HandleEvent} (handle : Nat) : WellUsed log → .created handle ∈ log →
      HandleEvent.destroyed handle ∉ log → WellUsed (log ++ [.destroyed handle])

def Process.ledger (process : Process) : Ledger Nat where
  held self := (process.objects self).bind ResourceManagerImplementation.mEssRMgr
  acquired := process.created
  released := process.log.filterMap HandleEvent.destroyedHandle

structure Process.Sound (process : Process) : Prop where
  known : process.ledger.Known
  exact : process.ledger.Exact
  logged : ∀ handle, .created handle ∈ process.log ↔ handle < process.created
  used : WellUsed process.log
  live : ∀ self, process.staticInstance = some self → (process.objects self).isSome = true

theorem mem_released (log : List HandleEvent) (handle : Nat) :
    handle ∈ log.filterMap HandleEvent.destroyedHandle ↔ HandleEvent.destroyed handle ∈ log := by
  simp only [List.mem_filterMap]
  constructor
  · rintro ⟨event, member, destroyed⟩
    cases event with
    | destroyed other =>
        rw [← Option.some.inj destroyed]
        exact member
    | _ => simp [HandleEvent.destroyedHandle] at destroyed
  · intro member
    exact ⟨.destroyed handle, member, rfl⟩

theorem mem_log_of_owned {process : Process} (sound : process.Sound) {self handle : Nat}
    {object : ResourceManagerImplementation} (present : process.objects self = some object)
    (holds : object.mEssRMgr = some handle) :
    .created handle ∈ process.log ∧ HandleEvent.destroyed handle ∉ process.log := by
  have held : process.ledger.held self = some handle := by simp [Process.ledger, present, holds]
  have bound := sound.known.held self handle held
  refine ⟨(sound.logged handle).mpr bound, ?_⟩
  rcases sound.exact handle bound with ⟨_, _, _, unreleased⟩ | ⟨unheld, _⟩
  · rw [← mem_released]
    exact List.count_eq_zero.mp unreleased
  · exact absurd held (unheld self)

theorem started_sound (iterators : Nat → StringIterator) : (Process.started iterators).Sound where
  known := ⟨by simp [Process.ledger, Process.started], by simp [Process.ledger, Process.started]⟩
  exact _ bound := absurd bound (Nat.not_lt_zero _)
  logged := by simp [Process.started]
  used := .start
  live := by simp [Process.started]

/-! Construction and destruction are the ledger's operations. -/

theorem held_update (process : Process) (self : Nat)
    (object : Option ResourceManagerImplementation) :
    (fun other => (Function.update process.objects self object other).bind
        ResourceManagerImplementation.mEssRMgr) =
      Function.update process.ledger.held self
        (object.bind ResourceManagerImplementation.mEssRMgr) := by
  funext other
  by_cases same : other = self
  · subst other
    simp
  · simp [Function.update_of_ne same, Process.ledger]

theorem held_update_self {process : Process} {self : Nat}
    {object : Option ResourceManagerImplementation}
    (same : object.bind ResourceManagerImplementation.mEssRMgr = process.ledger.held self) :
    (fun other => (Function.update process.objects self object other).bind
        ResourceManagerImplementation.mEssRMgr) = process.ledger.held := by
  rw [held_update, same, Function.update_eq_self]

theorem constructObject_ledger {process : Process} {self : Nat} (free : process.objects self = none)
    (succeeds : Bool) (blacklist reserveTTS : RfcLookup) :
    (constructObject self succeeds blacklist reserveTTS process).ledger =
      if succeeds then process.ledger.acquire self else process.ledger := by
  have empty : process.ledger.held self = none := by simp [Process.ledger, free]
  cases succeeds with
  | true =>
      have held := held_update process self
        (some (construct (some process.created) blacklist reserveTTS))
      simpa [constructObject, Process.ledger, Ledger.acquire, HandleEvent.destroyedHandle,
        construct] using held
  | false =>
      have held : (fun other => (Function.update process.objects self
          (some (construct none blacklist reserveTTS)) other).bind
            ResourceManagerImplementation.mEssRMgr) = process.ledger.held :=
        held_update_self (by rw [empty]; rfl)
      simpa [constructObject, Process.ledger] using held

theorem destructObject_fields (self : Nat) (object : ResourceManagerImplementation)
    (process : Process) :
    let after := destructObject self object process
    after.objects = Function.update process.objects self none ∧
      after.staticInstance =
        (if process.staticInstance = some self then none else process.staticInstance) ∧
      after.created = process.created ∧
      after.log = process.log ++ object.mEssRMgr.toList.map HandleEvent.destroyed := by
  intro after
  by_cases points : process.staticInstance = some self
  · cases handle : object.mEssRMgr <;> simp [after, destructObject, handle, points]
  · cases handle : object.mEssRMgr <;> simp [after, destructObject, handle, points]

theorem destructObject_ledger {process : Process} {self : Nat}
    {object : ResourceManagerImplementation} (present : process.objects self = some object) :
    (destructObject self object process).ledger = process.ledger.release self := by
  obtain ⟨objects, _, created, log⟩ := destructObject_fields self object process
  have emptied := held_update process self none
  simp only [Option.bind_none] at emptied
  have held : process.ledger.held self = object.mEssRMgr := by simp [Process.ledger, present]
  have destroyed : (object.mEssRMgr.toList.map HandleEvent.destroyed).filterMap
      HandleEvent.destroyedHandle = object.mEssRMgr.toList := by
    cases object.mEssRMgr <;> rfl
  simp only [Process.ledger, objects, created, log, List.filterMap_append, destroyed,
    Ledger.release, emptied]
  rw [← held]
  rfl

theorem filterMap_requested (count : Nat) (handle : Option Nat) :
    (List.replicate count (HandleEvent.requested handle)).filterMap
      HandleEvent.destroyedHandle = [] := by
  apply List.filterMap_eq_nil_iff.mpr
  intro event member
  rw [List.eq_of_mem_replicate member]
  rfl

theorem leave_ledger (policy : EssPolicy) {process : Process} {self : Nat}
    {object : ResourceManagerImplementation} (present : process.objects self = some object)
    (call : Call) :
    (process.leave self object.mEssRMgr (callStep policy (process.world object) call).1).ledger =
      process.ledger := by
  have handle := (callStep_configuration policy (process.world object) call).1
  have held : (fun other => (Function.update process.objects self
      (some (callStep policy (process.world object) call).1.implementation) other).bind
        ResourceManagerImplementation.mEssRMgr) = process.ledger.held := by
    apply held_update_self
    exact handle.trans (by simp [Process.ledger, present, Process.world])
  simpa [Process.leave, Process.ledger, filterMap_requested] using held

/-! What each step adds to the log. -/

theorem requests_used {log : List HandleEvent} (used : WellUsed log) {handle : Nat}
    (created : .created handle ∈ log) (alive : HandleEvent.destroyed handle ∉ log) (count : Nat) :
    WellUsed (log ++ List.replicate count (.requested (some handle))) := by
  induction count with
  | zero => simpa using used
  | succ count ih =>
      rw [List.replicate_succ', ← List.append_assoc]
      refine .requested handle ih (List.mem_append_left _ created) ?_
      intro member
      rcases List.mem_append.mp member with before | request
      · exact alive before
      · exact HandleEvent.noConfusion (List.eq_of_mem_replicate request)

theorem leave_used (policy : EssPolicy) {process : Process} (sound : process.Sound) {self : Nat}
    {object : ResourceManagerImplementation} (present : process.objects self = some object)
    (call : Call) :
    WellUsed (process.leave self object.mEssRMgr
      (callStep policy (process.world object) call).1).log := by
  simp only [Process.leave]
  cases holds : object.mEssRMgr with
  | none =>
      have disabled : (process.world object).implementation.blacklistEnabled = false := by
        simp [ResourceManagerImplementation.blacklistEnabled, Process.world, holds]
      have kept := (callStep_disabled policy (process.world object) call disabled).2
      have silent : (callStep policy (process.world object) call).1.essRMgr = process.essRMgr :=
        kept
      simpa [silent] using sound.used
  | some handle =>
      obtain ⟨created, alive⟩ := mem_log_of_owned sound present holds
      exact requests_used sound.used created alive _

theorem constructObject_sound {process : Process} (sound : process.Sound) {self : Nat}
    (free : process.objects self = none) (succeeds : Bool) (blacklist reserveTTS : RfcLookup) :
    (constructObject self succeeds blacklist reserveTTS process).Sound := by
  have empty : process.ledger.held self = none := by simp [Process.ledger, free]
  have ledger := constructObject_ledger free succeeds blacklist reserveTTS
  have live : ∀ other, some self = some other → (Function.update process.objects self
      (some (construct (if succeeds then some process.created else none) blacklist
        reserveTTS)) other).isSome = true := by
    intro other same
    rw [← Option.some.inj same, Function.update_self]
    rfl
  cases succeeds with
  | true =>
      rw [if_pos rfl] at ledger
      have undestroyed : HandleEvent.destroyed process.created ∉ process.log := by
        intro member
        have bound := sound.known.released _ ((mem_released _ _).mpr member)
        exact absurd bound (Nat.lt_irrefl _)
      refine ⟨?_, ?_, ?_, .created process.created sound.used undestroyed, live⟩
      · rw [ledger]
        exact sound.known.acquire self
      · rw [ledger]
        exact sound.exact.acquire sound.known empty
      · intro handle
        simp only [constructObject, if_true, List.mem_append, sound.logged, List.mem_singleton,
          HandleEvent.created.injEq]
        omega
  | false =>
      rw [if_neg Bool.false_ne_true] at ledger
      refine ⟨?_, ?_, sound.logged, sound.used, live⟩
      · rw [ledger]
        exact sound.known
      · rw [ledger]
        exact sound.exact

theorem destructObject_sound {process : Process} (sound : process.Sound) {self : Nat}
    {object : ResourceManagerImplementation} (present : process.objects self = some object) :
    (destructObject self object process).Sound := by
  have ledger := destructObject_ledger present
  obtain ⟨objects, staticInstance, created, log⟩ := destructObject_fields self object process
  refine ⟨?_, ?_, ?_, ?_, ?_⟩
  · rw [ledger]
    exact sound.known.release self
  · rw [ledger]
    exact sound.exact.release self
  · intro handle
    rw [log, created, ← sound.logged handle]
    simp
  · rw [log]
    cases holds : object.mEssRMgr with
    | none => simpa using sound.used
    | some handle =>
        obtain ⟨made, alive⟩ := mem_log_of_owned sound present holds
        exact .destroyed handle sound.used made alive
  · intro other points
    rw [staticInstance] at points
    split at points
    · simp at points
    · rename_i elsewhere
      have different : other ≠ self := by
        rintro rfl
        exact elsewhere points
      rw [objects, Function.update_of_ne different]
      exact sound.live other points

theorem leave_sound (policy : EssPolicy) {process : Process} (sound : process.Sound) {self : Nat}
    {object : ResourceManagerImplementation} (present : process.objects self = some object)
    (call : Call) :
    (process.leave self object.mEssRMgr
      (callStep policy (process.world object) call).1).Sound := by
  have ledger := leave_ledger policy present call
  refine ⟨?_, ?_, ?_, leave_used policy sound present call, ?_⟩
  · rw [ledger]
    exact sound.known
  · rw [ledger]
    exact sound.exact
  · intro handle
    simp only [Process.leave, List.mem_append, sound.logged, List.mem_replicate]
    simp
  · intro other points
    by_cases same : other = self
    · simp [Process.leave, same]
    · simpa [Process.leave, same] using sound.live other points

theorem processStep_sound (policy : EssPolicy) {process : Process} (sound : process.Sound)
    (step : ProcessStep) : (processStep policy process step).1.Sound := by
  cases step with
  | construct self succeeds blacklist reserveTTS =>
      simp only [processStep]
      cases free : process.objects self with
      | some object => exact sound
      | none => exact constructObject_sound sound free succeeds blacklist reserveTTS
  | destruct self =>
      simp only [processStep]
      cases present : process.objects self with
      | none => exact sound
      | some object => exact destructObject_sound sound present
  | call self call =>
      simp only [processStep]
      cases present : process.objects self with
      | none => exact sound
      | some object => exact leave_sound policy sound present call

/-- However objects come and go and are called, every request goes through a handle that
was created and is not destroyed, no handle is destroyed twice, the handles destroyed are
those that no object has any more, and `_instance` never dangles. -/
theorem handles_well_used (policy : EssPolicy) (iterators : Nat → StringIterator)
    (steps : List ProcessStep) :
    let final := runState (processStep policy) (.started iterators) steps
    WellUsed final.log ∧
      (∀ handle, .created handle ∈ final.log →
        (HandleEvent.destroyed handle ∈ final.log ↔
          ∀ self object, final.objects self = some object → object.mEssRMgr ≠ some handle)) ∧
      ∀ self, final.staticInstance = some self → (final.objects self).isSome = true := by
  intro final
  have preserved : ∀ (state : Process) (step : ProcessStep), True → state.Sound →
      (processStep policy state step).1.Sound :=
    fun _ step _ before => processStep_sound policy before step
  have sound : final.Sound :=
    runState_invariant preserved (started_sound iterators) fun _ _ => trivial
  refine ⟨sound.used, ?_, sound.live⟩
  intro handle created
  constructor
  · intro destroyed self object present holds
    exact (mem_log_of_owned sound present holds).2 destroyed
  · intro unheld
    rcases sound.exact handle ((sound.logged handle).mp created) with
      ⟨self, held, _⟩ | ⟨_, released⟩
    · obtain ⟨object, present, holds⟩ := Option.bind_eq_some_iff.mp held
      exact absurd holds (unheld self object present)
    · rw [← mem_released]
      have once : (final.log.filterMap HandleEvent.destroyedHandle).count handle = 1 := released
      exact List.count_pos_iff.mp (by rw [once]; exact Nat.one_pos)

end LeanResourceManager
