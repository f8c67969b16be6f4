import Mathlib.Tactic.Ring
import LeanResourceManager.PluginCore
import LeanResourceManager.Library.Balance
import LeanResourceManager.Library.Machine

/-!
Activation cycles of the plugin: whatever `Root`, the connection and `Terminate` do,
a cycle gives back what it took and leaves the plugin as constructed.
-/

namespace LeanResourceManager

open LeanBalance LeanMachine

inductive PluginResource
  | serviceReference (service : Nat)
  | notification (service : Nat)
  | stubs
  | implementation (pointer : Nat)
  | connection (pointer : Nat)
  deriving DecidableEq

def PluginEvent.acquires : PluginEvent → Option PluginResource
  | .addRef service => some (.serviceReference service)
  | .register service => some (.notification service)
  | .registerStubs _ => some .stubs
  | .root (some pointer) => some (.implementation pointer)
  | .remoteConnection _ (some pointer) => some (.connection pointer)
  | _ => none

def PluginEvent.releases : PluginEvent → Option PluginResource
  | .release service => some (.serviceReference service)
  | .unregister service => some (.notification service)
  | .unregisterStubs => some .stubs
  | .releaseImplementation pointer => some (.implementation pointer)
  | .releaseConnection pointer => some (.connection pointer)
  | _ => none

structure Cycle where
  service : Nat
  answer : RootAnswer
  notifications : List UInt32
  shutdown : Shutdown

def Cycle.activeCalls (cycle : Cycle) : List PluginCall :=
  .initializePlugin cycle.service cycle.answer :: cycle.notifications.map .deactivated

def Cycle.calls (cycle : Cycle) : List PluginCall :=
  cycle.activeCalls ++ [.deinitializePlugin cycle.service cycle.shutdown]

/-! The events of each part of a cycle. -/

def startEvents (service : Nat) (answer : RootAnswer) : List PluginEvent :=
  [.assertion true, .assertion true, .assertion true, .addRef service, .register service,
    .root answer.implementation] ++ answer.implementation.toList.map .registerStubs

def notifiedEvents (service : Nat) (connectionId : UInt32) (ids : List UInt32) :
    List PluginEvent :=
  ids.flatMap fun id => if id = connectionId then [.assertion true, .submit service] else []

def connectionEvents (shutdown : Shutdown) : List PluginEvent :=
  match shutdown.connection with
  | none => []
  | some connection =>
      [.terminate connection shutdown.terminateRaises, .releaseConnection connection]

def stopEvents (cycle : Cycle) : List PluginEvent :=
  [.assertion true, .unregister cycle.service] ++
    (match cycle.answer.implementation with
    | none => []
    | some implementation =>
        [.unregisterStubs,
          .remoteConnection cycle.answer.connectionId cycle.shutdown.connection,
          .releaseImplementation implementation, .assertion cycle.shutdown.destroyed] ++
        connectionEvents cycle.shutdown) ++
    [.release cycle.service]

def Cycle.activeEvents (cycle : Cycle) : List PluginEvent :=
  startEvents cycle.service cycle.answer ++
    notifiedEvents cycle.service cycle.answer.connectionId cycle.notifications

theorem initializePlugin_step (world : PluginWorld) (service : Nat) (answer : RootAnswer)
    (idle : world.plugin = .constructed) :
    pluginStep world (.initializePlugin service answer) = ({
      plugin := {
        service := some service
        connectionId := answer.connectionId
        resourceManager := answer.implementation }
      log := world.log ++ startEvents service answer
    }, some (if answer.implementation.isSome then ""
      else "ResourceManager plugin could not be initialised")) := by
  obtain ⟨implementation, connectionId⟩ := answer
  cases implementation <;>
    simp [pluginStep, initializePlugin, emit, modifyPlugin, onService, startEvents, idle,
      ResourceManager.constructed]

theorem deactivated_step (world : PluginWorld) (id : UInt32) {service : Nat}
    (active : world.plugin.service = some service) :
    (pluginStep world (.deactivated id)).1 = { world with
      log := world.log ++ notifiedEvents service world.plugin.connectionId [id] } := by
  by_cases same : id = world.plugin.connectionId
  · simp [pluginStep, deactivated, emit, onService, notifiedEvents, same, active]
  · simp [pluginStep, deactivated, emit, onService, notifiedEvents, same]

theorem notifications_run (world : PluginWorld) (ids : List UInt32) {service : Nat}
    (active : world.plugin.service = some service) :
    runState pluginStep world (ids.map .deactivated) = { world with
      log := world.log ++ notifiedEvents service world.plugin.connectionId ids } := by
  induction ids generalizing world with
  | nil => simp [notifiedEvents]
  | cons id rest ih =>
      have later := ih { world with
        log := world.log ++ notifiedEvents service world.plugin.connectionId [id] } active
      rw [List.map_cons, runState_cons, deactivated_step world id active, later]
      simp [notifiedEvents]

theorem activeCalls_run (world : PluginWorld) (cycle : Cycle)
    (idle : world.plugin = .constructed) :
    runState pluginStep world cycle.activeCalls = {
      plugin := {
        service := some cycle.service
        connectionId := cycle.answer.connectionId
        resourceManager := cycle.answer.implementation }
      log := world.log ++ cycle.activeEvents } := by
  rw [Cycle.activeCalls, runState_cons, initializePlugin_step world _ _ idle,
    notifications_run _ _ rfl]
  simp [Cycle.activeEvents]

theorem calls_run (world : PluginWorld) (cycle : Cycle) (idle : world.plugin = .constructed) :
    runState pluginStep world cycle.calls = {
      plugin := .constructed
      log := world.log ++ (cycle.activeEvents ++ stopEvents cycle) } := by
  rw [Cycle.calls, runState_append, activeCalls_run world cycle idle]
  obtain ⟨service, ⟨implementation, connectionId⟩, notifications, ⟨connection, raises, destroyed⟩⟩ :=
    cycle
  cases implementation <;> cases connection <;>
    simp [pluginStep, deinitializePlugin, emit, modifyPlugin, onService, stopEvents,
      connectionEvents, ResourceManager.constructed]

theorem mem_notifiedEvents {service : Nat} {connectionId : UInt32} {ids : List UInt32}
    {event : PluginEvent} (member : event ∈ notifiedEvents service connectionId ids) :
    event = .assertion true ∨ event = .submit service := by
  simp only [notifiedEvents, List.mem_flatMap] at member
  obtain ⟨id, _, emitted⟩ := member
  split at emitted
  · simpa using emitted
  · simp at emitted

theorem notifiedEvents_neutral (service : Nat) (connectionId : UInt32) (ids : List UInt32) :
    ∀ event ∈ notifiedEvents service connectionId ids,
      event.acquires = none ∧ event.releases = none := by
  intro event member
  rcases mem_notifiedEvents member with asserted | submitted
  · subst event
    exact ⟨rfl, rfl⟩
  · subst event
    exact ⟨rfl, rfl⟩

theorem activeEvents_acquisitions (cycle : Cycle) (resource : PluginResource) :
    acquisitions PluginEvent.acquires cycle.activeEvents resource =
      acquisitions PluginEvent.acquires (startEvents cycle.service cycle.answer) resource := by
  rw [Cycle.activeEvents, acquisitions_append, acquisitions_of_neutral fun event member =>
    (notifiedEvents_neutral _ _ _ event member).1, Nat.add_zero]

theorem activeEvents_releases (cycle : Cycle) (resource : PluginResource) :
    acquisitions PluginEvent.releases cycle.activeEvents resource = 0 := by
  rw [Cycle.activeEvents, acquisitions_append, acquisitions_of_neutral fun event member =>
    (notifiedEvents_neutral _ _ _ event member).2, Nat.add_zero]
  apply acquisitions_of_neutral
  intro event member
  simp only [startEvents, List.mem_append, List.mem_cons, List.not_mem_nil, or_false,
    List.mem_map] at member
  rcases member with (asserted | asserted | asserted | added | registered | answered) |
    ⟨implementation, _, stubs⟩ <;> subst event <;> rfl

theorem cycle_balanced (cycle : Cycle) :
    Balanced PluginEvent.acquires PluginEvent.releases (cycle.activeEvents ++ stopEvents cycle) := by
  intro resource
  rw [acquisitions_append, acquisitions_append, activeEvents_acquisitions, activeEvents_releases]
  obtain ⟨service, ⟨implementation, connectionId⟩, notifications, ⟨connection, raises, destroyed⟩⟩ :=
    cycle
  cases implementation <;> cases connection <;>
    simp [startEvents, stopEvents, connectionEvents, PluginEvent.acquires, PluginEvent.releases] <;>
    ring

def Cycle.events (cycle : Cycle) : List PluginEvent := cycle.activeEvents ++ stopEvents cycle

theorem cycles_run (world : PluginWorld) (cycles : List Cycle)
    (idle : world.plugin = .constructed) :
    runState pluginStep world (cycles.flatMap Cycle.calls) = {
      plugin := .constructed
      log := world.log ++ cycles.flatMap Cycle.events } := by
  induction cycles generalizing world with
  | nil =>
      rw [List.flatMap_nil, runState_nil, List.flatMap_nil, List.append_nil, ← idle]
  | cons cycle rest ih =>
      rw [List.flatMap_cons, runState_append, calls_run world cycle idle, ih _ rfl]
      simp [Cycle.events]

theorem notifiedEvents_submits (service other : Nat) (connectionId : UInt32) (ids : List UInt32) :
    (notifiedEvents service connectionId ids).count (.submit other) =
      if other = service then ids.count connectionId else 0 := by
  induction ids with
  | nil => simp [notifiedEvents]
  | cons id rest ih =>
      have split : notifiedEvents service connectionId (id :: rest) =
          notifiedEvents service connectionId [id] ++ notifiedEvents service connectionId rest := by
        simp [notifiedEvents]
      rw [split, List.count_append, ih]
      by_cases same : id = connectionId
      · by_cases target : other = service
        · simp [notifiedEvents, same, target, Nat.add_comm]
        · simp [notifiedEvents, same, target, Ne.symm target]
      · simp [notifiedEvents, same]

theorem events_sound (cycle : Cycle) : ∀ event ∈ cycle.events, event ≠ .nullDereference ∧
    (cycle.shutdown.destroyed = true → event ≠ .assertion false) := by
  have notified : ∀ event ∈ notifiedEvents cycle.service cycle.answer.connectionId
      cycle.notifications, event ≠ .nullDereference ∧
        (cycle.shutdown.destroyed = true → event ≠ .assertion false) := by
    intro event member
    rcases mem_notifiedEvents member with asserted | submitted
    · simp [asserted]
    · simp [submitted]
  rw [Cycle.events, Cycle.activeEvents, List.forall_mem_append, List.forall_mem_append]
  refine ⟨⟨?_, notified⟩, ?_⟩
  · cases present : cycle.answer.implementation <;> simp [startEvents, present]
  · obtain ⟨service, ⟨implementation, connectionId⟩, _, ⟨connection, raises, destroyed⟩⟩ := cycle
    cases implementation <;> cases connection <;> simp [stopEvents, connectionEvents]

/-- After any number of cycles the plugin is as constructed, everything it took is
given back, and in the next cycle the stubs are registered exactly if `Root` returns
an implementation. -/
theorem lifecycle_balanced (cycles : List Cycle) (service : Nat) (answer : RootAnswer)
    (ids : List UInt32) :
    let idle := runState pluginStep .constructed (cycles.flatMap Cycle.calls)
    let active := runState pluginStep idle
      (.initializePlugin service answer :: ids.map .deactivated)
    idle.plugin = .constructed ∧
    Balanced PluginEvent.acquires PluginEvent.releases idle.log ∧
    .nullDereference ∉ idle.log ∧
    ((∀ cycle ∈ cycles, cycle.shutdown.destroyed = true) → .assertion false ∉ idle.log) ∧
    (Outstanding PluginEvent.acquires PluginEvent.releases active.log .stubs ↔
      answer.implementation.isSome = true) ∧
    ((pluginStep idle (.initializePlugin service answer)).2 = some "" ↔
      answer.implementation.isSome = true) ∧
    ∀ other, active.log.count (.submit other) = idle.log.count (.submit other) +
      if other = service then ids.count answer.connectionId else 0 := by
  intro idle active
  have ended : idle = { plugin := .constructed, log := cycles.flatMap Cycle.events } :=
    cycles_run .constructed cycles rfl
  have started : active = {
      plugin := {
        service := some service
        connectionId := answer.connectionId
        resourceManager := answer.implementation }
      log := idle.log ++ (startEvents service answer ++
        notifiedEvents service answer.connectionId ids) } :=
    activeCalls_run idle ⟨service, answer, ids, ⟨none, false, true⟩⟩ (by rw [ended])
  have balanced : Balanced PluginEvent.acquires PluginEvent.releases idle.log := by
    rw [ended]
    exact balanced_flatMap cycle_balanced cycles
  refine ⟨by rw [ended], balanced, ?_, ?_, ?_, ?_, ?_⟩
  · rw [ended]
    intro member
    obtain ⟨cycle, _, emitted⟩ := List.mem_flatMap.mp member
    exact (events_sound cycle _ emitted).1 rfl
  · intro destroyed failing
    rw [ended] at failing
    obtain ⟨cycle, inside, emitted⟩ := List.mem_flatMap.mp failing
    exact (events_sound cycle _ emitted).2 (destroyed cycle inside) rfl
  · have acquired := activeEvents_acquisitions ⟨service, answer, ids, ⟨none, false, true⟩⟩ .stubs
    have released := activeEvents_releases ⟨service, answer, ids, ⟨none, false, true⟩⟩ .stubs
    have stubs : acquisitions PluginEvent.acquires (startEvents service answer) .stubs =
        if answer.implementation.isSome then 1 else 0 := by
      obtain ⟨implementation, connectionId⟩ := answer
      cases implementation <;> simp [startEvents, PluginEvent.acquires]
    simp only [Cycle.activeEvents] at acquired released
    rw [Outstanding, started, acquisitions_append idle.log, acquisitions_append idle.log, acquired,
      released, stubs, balanced .stubs]
    cases answer.implementation <;> simp
  · rw [initializePlugin_step idle service answer (by rw [ended])]
    cases answer.implementation <;> simp
  · intro other
    have silent : (startEvents service answer).count (.submit other) = 0 := by
      obtain ⟨implementation, connectionId⟩ := answer
      cases implementation <;> simp [startEvents]
    rw [started, List.count_append, List.count_append, silent, notifiedEvents_submits,
      Nat.zero_add]

end LeanResourceManager
