import LeanResourceManager.InstanceProcess
import LeanResourceManager.PluginLifecycle
import LeanResourceManager.Library.References

/-!
The plugin in one process with the implementations that `Root` makes for it: requests reach
an implementation through the registered stubs, other clients through references of their
own, which they get from the interface map of the plugin.
-/

namespace LeanResourceManager

open LeanMachine LeanReferences

def noteStubs (stubs : Option Nat) : PluginEvent → Option Nat
  | .registerStubs implementation => some implementation
  | .unregisterStubs => none
  | _ => stubs

/-- The stubs keep the pointer that they are registered with, without a reference. -/
def PluginWorld.stubs (world : PluginWorld) : Option Nat := world.log.foldl noteStubs none

structure Offer where
  self : Nat
  succeeds : Bool
  blacklist : RfcLookup
  reserveTTS : RfcLookup

/-- `references` is the count that each object keeps; `clients` has an entry for every
reference that a client holds. -/
structure PluginSystem where
  plugin : PluginWorld
  process : Process
  references : Nat → Nat
  clients : List Nat

def PluginSystem.started (iterators : Nat → StringIterator) : PluginSystem where
  plugin := .constructed
  process := .started iterators
  references _ := 0
  clients := []

def PluginSystem.pointer (system : PluginSystem) : Option Nat :=
  system.plugin.plugin.resourceManager

inductive SystemStep
  | initializePlugin (service : Nat) (connectionId : UInt32) (offer : Option Offer)
  | deactivated (connectionId : UInt32)
  | deinitializePlugin (connection : Option Nat) (terminateRaises : Bool)
  | request (call : Call)
  | queryInterface
  | clientQueryInterface (self : Nat)
  | clientCall (self : Nat) (call : Call)
  | clientRelease (self : Nat)

/-- `refused` is a step that its party cannot make, `dangling` a call on an object that is
gone. -/
inductive SystemAnswer
  | done
  | refused
  | answered (response : Response)
  | dangling
  deriving DecidableEq

def PluginSystem.create (policy : EssPolicy) (offer : Offer) (system : PluginSystem) :
    PluginSystem :=
  { system with
    process := (processStep policy system.process
      (.construct offer.self offer.succeeds offer.blacklist offer.reserveTTS)).1
    references := retain system.references offer.self }

/-- The last `Release` destroys the object. -/
def PluginSystem.release (policy : EssPolicy) (self : Nat) (system : PluginSystem) :
    PluginSystem :=
  let references := drop system.references self
  { system with
    references := references
    process :=
      if references self = 0 then (processStep policy system.process (.destruct self)).1
      else system.process }

def PluginSystem.callOn (policy : EssPolicy) (self : Nat) (call : Call) (system : PluginSystem) :
    PluginSystem × SystemAnswer :=
  let (process, response) := processStep policy system.process (.call self call)
  ({ system with process }, match response with
    | some response => .answered response
    | none => .dangling)

/-- Every `QueryInterface` that finds the object adds a reference to it. -/
def PluginSystem.lend (self : Nat) (system : PluginSystem) : PluginSystem :=
  { system with
    references := retain system.references self
    clients := self :: system.clients }

def PluginSystem.onPlugin (call : PluginCall) (system : PluginSystem) : PluginSystem :=
  { system with plugin := (pluginStep system.plugin call).1 }

/-- `Root` makes an object at an address that is free. The host initializes a plugin that is
idle and deinitializes it for the service that it runs with. -/
def systemStep (policy : EssPolicy) (system : PluginSystem) :
    SystemStep → PluginSystem × SystemAnswer
  | .initializePlugin service connectionId offer =>
      if system.plugin.plugin.service.isSome then (system, .refused)
      else
        match offer with
        | none => (system.onPlugin (.initializePlugin service ⟨none, connectionId⟩), .done)
        | some offer =>
            if (system.process.objects offer.self).isSome then (system, .refused)
            else ((system.create policy offer).onPlugin
              (.initializePlugin service ⟨some offer.self, connectionId⟩), .done)
  | .deactivated connectionId =>
      if system.plugin.plugin.service.isSome then
        (system.onPlugin (.deactivated connectionId), .done)
      else (system, .refused)
  | .deinitializePlugin connection terminateRaises =>
      match system.plugin.plugin.service with
      | none => (system, .refused)
      | some service =>
          let destroyed := system.pointer.all fun self => drop system.references self self = 0
          let stopped := system.onPlugin
            (.deinitializePlugin service ⟨connection, terminateRaises, destroyed⟩)
          match system.pointer with
          | none => (stopped, .done)
          | some self => (stopped.release policy self, .done)
  | .request call =>
      match system.plugin.stubs with
      | none => (system, .refused)
      | some self => system.callOn policy self call
  | .queryInterface =>
      match system.pointer with
      | none => (system, .refused)
      | some self => (system.lend self, .done)
  | .clientQueryInterface self =>
      if self ∈ system.clients then (system.lend self, .done) else (system, .refused)
  | .clientCall self call =>
      if self ∈ system.clients then system.callOn policy self call else (system, .refused)
  | .clientRelease self =>
      if self ∈ system.clients then
        ({ system with clients := system.clients.erase self }.release policy self, .done)
      else (system, .refused)

def PluginSystem.held (system : PluginSystem) : Multiset Nat :=
  (system.pointer.toList : Multiset Nat) + system.clients

def PluginSystem.alive (system : PluginSystem) (self : Nat) : Bool :=
  (system.process.objects self).isSome

structure PluginSystem.Sound (system : PluginSystem) : Prop where
  process : system.process.Sound
  idle : system.plugin.plugin.service = none → system.plugin.plugin = .constructed
  stubs : system.plugin.stubs = system.pointer
  counted : Counted system.references system.held system.alive

/-! What the steps of the process do to the objects that are alive. -/

theorem construct_alive (policy : EssPolicy) {process : Process} (offer : Offer)
    (free : process.objects offer.self = none) (other : Nat) :
    ((processStep policy process (.construct offer.self offer.succeeds offer.blacklist
      offer.reserveTTS)).1.objects other).isSome =
        if other = offer.self then true else (process.objects other).isSome := by
  by_cases same : other = offer.self
  · cases offer.succeeds <;> simp [processStep, free, constructObject, same]
  · cases offer.succeeds <;> simp [processStep, free, constructObject, same]

theorem destruct_alive (policy : EssPolicy) {process : Process} {self : Nat}
    (present : (process.objects self).isSome = true) (other : Nat) :
    ((processStep policy process (.destruct self)).1.objects other).isSome =
      if other = self then false else (process.objects other).isSome := by
  obtain ⟨object, found⟩ := Option.isSome_iff_exists.mp present
  have objects := (destructObject_fields self object process).1
  simp only [processStep, found, objects]
  by_cases same : other = self
  · simp [same]
  · simp [same]

theorem call_alive (policy : EssPolicy) {process : Process} {self : Nat}
    (present : (process.objects self).isSome = true) (call : Call) :
    (processStep policy process (.call self call)).2.isSome = true ∧
      ∀ other, ((processStep policy process (.call self call)).1.objects other).isSome =
        (process.objects other).isSome := by
  obtain ⟨object, found⟩ := Option.isSome_iff_exists.mp present
  simp only [processStep, found]
  refine ⟨rfl, ?_⟩
  intro other
  by_cases same : other = self
  · simp [Process.leave, same, found]
  · simp [Process.leave, same]

/-! What the steps of the plugin do to the stubs. -/

theorem deinitializePlugin_step (world : PluginWorld) {service : Nat}
    (active : world.plugin.service = some service) (shutdown : Shutdown) :
    (pluginStep world (.deinitializePlugin service shutdown)).1 = {
      plugin := .constructed
      log := world.log ++ stopEvents ⟨service,
        ⟨world.plugin.resourceManager, world.plugin.connectionId⟩, [], shutdown⟩ } := by
  obtain ⟨⟨held, connectionId, resourceManager⟩, log⟩ := world
  obtain ⟨connection, raises, destroyed⟩ := shutdown
  simp only at active
  subst held
  cases resourceManager <;> cases connection <;>
    simp [pluginStep, deinitializePlugin, emit, modifyPlugin, onService, stopEvents,
      connectionEvents, ResourceManager.constructed]

theorem stubs_started (service : Nat) (answer : RootAnswer) :
    (startEvents service answer).foldl noteStubs none = answer.implementation := by
  obtain ⟨implementation, connectionId⟩ := answer
  cases implementation <;> rfl

theorem stubs_notified (service : Nat) (connectionId : UInt32) (ids : List UInt32)
    (stubs : Option Nat) :
    (notifiedEvents service connectionId ids).foldl noteStubs stubs = stubs := by
  induction ids with
  | nil => rfl
  | cons id rest ih =>
      rw [notifiedEvents, List.flatMap_cons, List.foldl_append]
      split
      · exact ih
      · exact ih

theorem stubs_stopped (cycle : Cycle) :
    (stopEvents cycle).foldl noteStubs cycle.answer.implementation = none := by
  obtain ⟨service, ⟨implementation, connectionId⟩, _, ⟨connection, raises, destroyed⟩⟩ := cycle
  cases implementation <;> cases connection <;> rfl

theorem failed_assertion_iff (cycle : Cycle) :
    PluginEvent.assertion false ∈ stopEvents cycle ↔
      cycle.answer.implementation.isSome = true ∧ cycle.shutdown.destroyed = false := by
  obtain ⟨service, ⟨implementation, connectionId⟩, _, ⟨connection, raises, destroyed⟩⟩ := cycle
  cases implementation <;> cases connection <;> cases destroyed <;>
    simp [stopEvents, connectionEvents]

/-! What the steps of the system do to the references, whoever holds them. -/

section Counting

variable {system : PluginSystem} {held : Multiset Nat}

theorem create_counted (policy : EssPolicy)
    (counted : Counted system.references held system.alive) {offer : Offer}
    (free : system.process.objects offer.self = none) :
    Counted (system.create policy offer).references (offer.self ::ₘ held)
      (system.create policy offer).alive := by
  refine counted.retain ?_ ?_
  · rw [PluginSystem.alive, PluginSystem.create, construct_alive policy offer free, if_pos rfl]
  · intro other different
    rw [PluginSystem.alive, PluginSystem.create, construct_alive policy offer free,
      if_neg different]
    rfl

theorem release_counted (policy : EssPolicy)
    (counted : Counted system.references held system.alive) {self : Nat}
    (referenced : self ∈ held) :
    Counted (system.release policy self).references (held.erase self)
      (system.release policy self).alive := by
  have present : (system.process.objects self).isSome = true := (counted.alive self).mpr referenced
  refine counted.drop referenced ?_ ?_ ?_
  · intro last
    simp only [PluginSystem.alive, PluginSystem.release, if_pos last]
    rw [destruct_alive policy present, if_pos rfl]
  · intro more
    simp only [PluginSystem.alive, PluginSystem.release, if_neg more]
  · intro other different
    simp only [PluginSystem.alive, PluginSystem.release]
    split
    · rw [destruct_alive policy present, if_neg different]
    · rfl

theorem release_process (policy : EssPolicy) (sound : system.process.Sound) (self : Nat) :
    (system.release policy self).process.Sound := by
  simp only [PluginSystem.release]
  split
  · exact processStep_sound policy sound (.destruct self)
  · exact sound

end Counting

theorem callOn_sound (policy : EssPolicy) {system : PluginSystem} (sound : system.Sound)
    {self : Nat} (referenced : self ∈ system.held) (call : Call) :
    (system.callOn policy self call).1.Sound ∧
      (system.callOn policy self call).2 ≠ .dangling := by
  have present : (system.process.objects self).isSome = true :=
    (sound.counted.alive self).mpr referenced
  obtain ⟨answered, alive⟩ := call_alive policy present call
  refine ⟨⟨processStep_sound policy sound.process (.call self call), sound.idle, sound.stubs, ?_⟩,
    ?_⟩
  · have same : (system.callOn policy self call).1.alive = system.alive := funext alive
    rw [same]
    exact sound.counted
  · obtain ⟨response, found⟩ := Option.isSome_iff_exists.mp answered
    simp [PluginSystem.callOn, found]

theorem lend_sound {system : PluginSystem} (sound : system.Sound) {self : Nat}
    (referenced : self ∈ system.held) : (system.lend self).Sound := by
  have counted := sound.counted.retain ((sound.counted.alive self).mpr referenced) fun _ _ => rfl
  rw [PluginSystem.held, ← Multiset.add_cons, Multiset.cons_coe] at counted
  exact ⟨sound.process, sound.idle, sound.stubs, counted⟩

theorem initialized_sound {system : PluginSystem} (process : system.process.Sound)
    (idle : system.plugin.plugin = .constructed) (unregistered : system.plugin.stubs = none)
    (service : Nat) (answer : RootAnswer)
    (counted : Counted system.references ((answer.implementation.toList : Multiset Nat) +
      system.clients) system.alive) :
    (system.onPlugin (.initializePlugin service answer)).Sound := by
  have step := initializePlugin_step system.plugin service answer idle
  have stubs : (system.plugin.log ++ startEvents service answer).foldl noteStubs none =
      answer.implementation := by
    rw [List.foldl_append, show system.plugin.log.foldl noteStubs none = none from unregistered,
      stubs_started]
  constructor
  · exact process
  · intro absent
    simp [PluginSystem.onPlugin, step] at absent
  · simpa [PluginSystem.onPlugin, PluginWorld.stubs, PluginSystem.pointer, step] using stubs
  · rw [PluginSystem.held, PluginSystem.pointer, PluginSystem.onPlugin, step]
    exact counted

theorem notified_sound {system : PluginSystem} (sound : system.Sound) {service : Nat}
    (active : system.plugin.plugin.service = some service) (id : UInt32) :
    (system.onPlugin (.deactivated id)).Sound := by
  have step := deactivated_step system.plugin id active
  have stubs : (system.plugin.log ++
      notifiedEvents service system.plugin.plugin.connectionId [id]).foldl noteStubs none =
        system.plugin.stubs := by
    rw [List.foldl_append, stubs_notified]
    rfl
  constructor
  · exact sound.process
  · simpa [PluginSystem.onPlugin, step] using sound.idle
  · simpa [PluginSystem.onPlugin, PluginWorld.stubs, PluginSystem.pointer, step] using
      stubs.trans sound.stubs
  · rw [PluginSystem.held, PluginSystem.pointer, PluginSystem.onPlugin, step]
    exact sound.counted

theorem stopped_sound {system stopped : PluginSystem} (sound : system.Sound) {service : Nat}
    (active : system.plugin.plugin.service = some service) (shutdown : Shutdown)
    (plugin : stopped.plugin =
      (pluginStep system.plugin (.deinitializePlugin service shutdown)).1)
    (process : stopped.process.Sound)
    (counted : Counted stopped.references (stopped.clients : Multiset Nat) stopped.alive) :
    stopped.Sound := by
  have step := deinitializePlugin_step system.plugin active shutdown
  have stubs := stubs_stopped ⟨service, ⟨system.plugin.plugin.resourceManager,
    system.plugin.plugin.connectionId⟩, [], shutdown⟩
  have before : system.plugin.log.foldl noteStubs none = system.plugin.plugin.resourceManager :=
    sound.stubs
  rw [step] at plugin
  constructor
  · exact process
  · intro _
    rw [plugin]
  · rw [PluginWorld.stubs, PluginSystem.pointer, plugin, List.foldl_append, before]
    exact stubs
  · rw [PluginSystem.held, PluginSystem.pointer, plugin]
    exact counted

theorem systemStep_sound (policy : EssPolicy) {system : PluginSystem} (sound : system.Sound)
    (step : SystemStep) :
    (systemStep policy system step).1.Sound ∧ (systemStep policy system step).2 ≠ .dangling := by
  have held : ∀ self, self ∈ system.held ↔ self ∈ system.pointer.toList ∨ self ∈ system.clients :=
    fun self => by rw [PluginSystem.held, Multiset.mem_add, Multiset.mem_coe, Multiset.mem_coe]
  cases step with
  | initializePlugin service connectionId offer =>
      simp only [systemStep]
      by_cases active : system.plugin.plugin.service.isSome = true
      · rw [if_pos active]
        exact ⟨sound, by simp⟩
      rw [if_neg active]
      have idle := sound.idle (by simpa using active)
      have pointer : system.pointer = none := by
        rw [PluginSystem.pointer, idle]
        rfl
      have counted : Counted system.references (system.clients : Multiset Nat) system.alive := by
        simpa [PluginSystem.held, pointer] using sound.counted
      cases offer with
      | none =>
          refine ⟨initialized_sound sound.process idle (sound.stubs.trans pointer) service _ ?_,
            by simp⟩
          exact counted
      | some offer =>
          simp only
          by_cases taken : (system.process.objects offer.self).isSome = true
          · rw [if_pos taken]
            exact ⟨sound, by simp⟩
          rw [if_neg taken]
          have made := create_counted policy counted (by simpa using taken)
          have process : (system.create policy offer).process.Sound :=
            processStep_sound policy sound.process _
          exact ⟨initialized_sound process idle (sound.stubs.trans pointer) service
            ⟨some offer.self, connectionId⟩ made, by simp⟩
  | deactivated connectionId =>
      simp only [systemStep]
      cases active : system.plugin.plugin.service with
      | none => exact ⟨sound, by simp⟩
      | some service => exact ⟨notified_sound sound active connectionId, by simp⟩
  | deinitializePlugin connection terminateRaises =>
      simp only [systemStep]
      cases active : system.plugin.plugin.service with
      | none => exact ⟨sound, by simp⟩
      | some service =>
          cases pointer : system.pointer with
          | none =>
              have counted : Counted system.references (system.clients : Multiset Nat)
                  system.alive := by
                simpa [PluginSystem.held, pointer] using sound.counted
              exact ⟨stopped_sound sound active _ rfl sound.process counted, by simp⟩
          | some self =>
              have referenced : self ∈ system.held := (held self).mpr (.inl (by simp [pointer]))
              have released := release_counted policy sound.counted referenced
              have counted : Counted (system.release policy self).references
                  (system.clients : Multiset Nat) (system.release policy self).alive := by
                simpa [PluginSystem.held, pointer] using released
              exact ⟨stopped_sound sound active _ rfl
                (release_process policy sound.process self) counted, by simp⟩
  | request call =>
      simp only [systemStep, sound.stubs]
      cases pointer : system.pointer with
      | none => exact ⟨sound, by simp⟩
      | some self =>
          exact callOn_sound policy sound ((held self).mpr (.inl (by simp [pointer]))) call
  | queryInterface =>
      simp only [systemStep]
      cases pointer : system.pointer with
      | none => exact ⟨sound, by simp⟩
      | some self =>
          exact ⟨lend_sound sound ((held self).mpr (.inl (by simp [pointer]))), by simp⟩
  | clientQueryInterface self =>
      simp only [systemStep]
      by_cases holds : self ∈ system.clients
      · rw [if_pos holds]
        exact ⟨lend_sound sound ((held self).mpr (.inr holds)), by simp⟩
      · rw [if_neg holds]
        exact ⟨sound, by simp⟩
  | clientCall self call =>
      simp only [systemStep]
      by_cases holds : self ∈ system.clients
      · rw [if_pos holds]
        exact callOn_sound policy sound ((held self).mpr (.inr holds)) call
      · rw [if_neg holds]
        exact ⟨sound, by simp⟩
  | clientRelease self =>
      simp only [systemStep]
      by_cases holds : self ∈ system.clients
      · rw [if_pos holds]
        have released := release_counted policy sound.counted ((held self).mpr (.inr holds))
        rw [PluginSystem.held, Multiset.erase_add_right_pos _ holds, Multiset.coe_erase] at released
        exact ⟨⟨release_process policy sound.process self, sound.idle, sound.stubs, released⟩,
          by simp⟩
      · rw [if_neg holds]
        exact ⟨sound, by simp⟩

theorem system_started_sound (iterators : Nat → StringIterator) :
    (PluginSystem.started iterators).Sound where
  process := started_sound iterators
  idle _ := rfl
  stubs := rfl
  counted := ⟨fun _ => rfl, fun _ => by simp [PluginSystem.alive, PluginSystem.started,
    Process.started, PluginSystem.held, PluginSystem.pointer, PluginWorld.constructed,
    ResourceManager.constructed]⟩

theorem PluginSystem.Sound.alive_iff {system : PluginSystem} (sound : system.Sound) (self : Nat) :
    (system.process.objects self).isSome = true ↔
      system.pointer = some self ∨ self ∈ system.clients := by
  have alive : (system.process.objects self).isSome = true ↔ self ∈ system.held :=
    sound.counted.alive self
  simpa [PluginSystem.held] using alive

theorem PluginSystem.Sound.handles_destroyed {system : PluginSystem} (sound : system.Sound)
    (idle : system.plugin.plugin.service = none) (released : system.clients = []) {handle : Nat}
    (created : .created handle ∈ system.process.log) :
    HandleEvent.destroyed handle ∈ system.process.log := by
  have pointer : system.pointer = none := by
    rw [PluginSystem.pointer, sound.idle idle]
    rfl
  have gone : ∀ self, system.process.ledger.held self = none := by
    intro self
    have unreferenced : ¬(system.process.objects self).isSome = true := by
      rw [sound.alive_iff, pointer, released]
      simp
    simp only [Process.ledger, Option.not_isSome_iff_eq_none.mp unreferenced, Option.bind_none]
  have made : handle < system.process.created := (sound.process.logged handle).mp created
  have once := sound.process.exact.all_released gone handle made
  rw [← mem_released]
  exact List.count_pos_iff.mp (Nat.lt_of_lt_of_eq Nat.one_pos once.symm)

/-- Whatever the host, the requests and the clients do in whatever order: no call reaches an
object that is gone, an object lives exactly as long as the plugin or a client holds it,
its manager handle is used within its life, and all handles are destroyed when the plugin is
idle and the clients hold nothing. -/
theorem calls_reach_live_objects (policy : EssPolicy) (iterators : Nat → StringIterator)
    (steps : List SystemStep) :
    let final := runState (systemStep policy) (.started iterators) steps
    (∀ entry ∈ runHistory (systemStep policy) (.started iterators) steps, entry.2 ≠ .dangling) ∧
      (∀ self, (final.process.objects self).isSome = true ↔
        final.pointer = some self ∨ self ∈ final.clients) ∧
      final.plugin.stubs = final.pointer ∧ WellUsed final.process.log ∧
      (final.plugin.plugin.service = none → final.clients = [] →
        ∀ handle, .created handle ∈ final.process.log →
          HandleEvent.destroyed handle ∈ final.process.log) := by
  intro final
  let reached (past : List (SystemStep × SystemAnswer)) (system : PluginSystem) : Prop :=
    (∀ entry ∈ past, entry.2 ≠ .dangling) ∧ system.Sound
  have preserved : ∀ past system step, True → reached past system →
      reached (past ++ [(step, (systemStep policy system step).2)])
        (systemStep policy system step).1 := by
    rintro past system step _ ⟨answers, sound⟩
    obtain ⟨next, answer⟩ := systemStep_sound policy sound step
    refine ⟨?_, next⟩
    intro entry member
    rcases List.mem_append.mp member with old | new
    · exact answers entry old
    · rw [List.mem_singleton.mp new]
      exact answer
  have initial : reached [] (.started iterators) := ⟨by simp, system_started_sound iterators⟩
  have ended : reached ([] ++ runHistory (systemStep policy) (.started iterators) steps) final :=
    runHistory_invariant preserved initial fun _ _ => trivial
  obtain ⟨answers, sound⟩ := ended
  refine ⟨answers, sound.alive_iff, sound.stubs, sound.process.used, ?_⟩
  intro idle released handle created
  exact sound.handles_destroyed idle released created

/-! The assertion on the last `Release`. -/

/-- No client holds the implementation of a plugin that is deinitialized. -/
def ReleasedByClients (system : PluginSystem) : SystemStep → Prop
  | .deinitializePlugin _ _ => ∀ self, system.pointer = some self → self ∉ system.clients
  | _ => True

theorem last_reference_iff {system : PluginSystem} (sound : system.Sound) {self : Nat}
    (pointer : system.pointer = some self) :
    drop system.references self self = 0 ↔ self ∉ system.clients := by
  rw [sound.counted.last_iff, PluginSystem.held, pointer, Option.toList_some,
    Multiset.erase_add_left_pos _ (by simp)]
  simp

theorem onPlugin_asserts {system : PluginSystem} (asserted : .assertion false ∉ system.plugin.log)
    {call : PluginCall} {events : List PluginEvent}
    (log : (pluginStep system.plugin call).1.log = system.plugin.log ++ events) :
    .assertion false ∉ (system.onPlugin call).plugin.log ↔ .assertion false ∉ events := by
  rw [PluginSystem.onPlugin, log, List.mem_append, not_or]
  exact and_iff_right asserted

theorem started_asserts (service : Nat) (answer : RootAnswer) :
    .assertion false ∉ startEvents service answer := by
  obtain ⟨implementation, connectionId⟩ := answer
  cases implementation <;> simp [startEvents]

theorem notified_asserts (service : Nat) (connectionId : UInt32) (ids : List UInt32) :
    .assertion false ∉ notifiedEvents service connectionId ids := by
  intro member
  rcases mem_notifiedEvents member with asserted | submitted
  · simp at asserted
  · simp at submitted

theorem systemStep_asserts (policy : EssPolicy) {system : PluginSystem} (sound : system.Sound)
    (asserted : .assertion false ∉ system.plugin.log) (step : SystemStep) :
    .assertion false ∉ (systemStep policy system step).1.plugin.log ↔
      ReleasedByClients system step := by
  cases step with
  | initializePlugin service connectionId offer =>
      simp only [systemStep, ReleasedByClients, iff_true]
      by_cases active : system.plugin.plugin.service.isSome = true
      · rwa [if_pos active]
      rw [if_neg active]
      have idle := sound.idle (by simpa using active)
      have log : ∀ answer, (pluginStep system.plugin (.initializePlugin service answer)).1.log =
          system.plugin.log ++ startEvents service answer := by
        intro answer
        rw [initializePlugin_step system.plugin service answer idle]
      cases offer with
      | none => exact (onPlugin_asserts asserted (log _)).mpr (started_asserts _ _)
      | some offer =>
          simp only
          split
          · exact asserted
          · have made : .assertion false ∉ (system.create policy offer).plugin.log := asserted
            exact (onPlugin_asserts made (log _)).mpr (started_asserts _ _)
  | deactivated connectionId =>
      simp only [systemStep, ReleasedByClients, iff_true]
      cases active : system.plugin.plugin.service with
      | none => exact asserted
      | some service =>
          have log := congrArg PluginWorld.log (deactivated_step system.plugin connectionId active)
          exact (onPlugin_asserts asserted log).mpr (notified_asserts _ _ _)
  | deinitializePlugin connection terminateRaises =>
      simp only [systemStep, ReleasedByClients]
      cases active : system.plugin.plugin.service with
      | none =>
          have pointer : system.pointer = none := by
            rw [PluginSystem.pointer, sound.idle active]
            rfl
          simp [pointer, asserted]
      | some service =>
          have log : ∀ shutdown, (pluginStep system.plugin
              (.deinitializePlugin service shutdown)).1.log = system.plugin.log ++ stopEvents
                ⟨service, ⟨system.pointer, system.plugin.plugin.connectionId⟩, [], shutdown⟩ := by
            intro shutdown
            rw [deinitializePlugin_step system.plugin active shutdown]
            rfl
          have step := fun shutdown => (onPlugin_asserts asserted (log shutdown)).trans
            (not_congr (failed_assertion_iff _))
          cases pointer : system.pointer with
          | none =>
              refine (step _).trans ?_
              simp [pointer]
          | some self =>
              have last := last_reference_iff sound pointer
              refine (step _).trans ?_
              simp [pointer, last]
  | request call =>
      simp only [systemStep, ReleasedByClients, iff_true]
      split
      · exact asserted
      · exact asserted
  | queryInterface =>
      simp only [systemStep, ReleasedByClients, iff_true]
      split
      · exact asserted
      · exact asserted
  | clientQueryInterface self =>
      simp only [systemStep, ReleasedByClients, iff_true]
      split
      · exact asserted
      · exact asserted
  | clientCall self call =>
      simp only [systemStep, ReleasedByClients, iff_true]
      split
      · exact asserted
      · exact asserted
  | clientRelease self =>
      simp only [systemStep, ReleasedByClients, iff_true]
      split
      · exact asserted
      · exact asserted

/-- All assertions hold throughout a run exactly if no client holds the implementation at any
`Deinitialize`, whose `Release` then destroys it. -/
theorem destruction_asserted_iff (policy : EssPolicy) (iterators : Nat → StringIterator)
    (steps : List SystemStep) :
    Throughout (systemStep policy) (fun system => .assertion false ∉ system.plugin.log)
        (.started iterators) steps ↔
      StepsMeet (systemStep policy) ReleasedByClients (.started iterators) steps := by
  have preserved : ∀ (system : PluginSystem) (step : SystemStep), True → system.Sound →
      (systemStep policy system step).1.Sound :=
    fun _ step _ sound => (systemStep_sound policy sound step).1
  exact throughout_iff_stepsMeet preserved
    (fun _ step _ sound asserted => systemStep_asserts policy sound asserted step)
    (system_started_sound iterators) (by simp [PluginSystem.started, PluginWorld.constructed])
    fun _ _ => trivial

end LeanResourceManager
