/-!
The plugin `ResourceManager`: `Initialize`, the `Deactivated` notification and
`Deinitialize`, as changes of its three fields and the calls it makes outside.
-/

namespace LeanResourceManager

/-- Pointers are told apart by number, null is `none`. -/
structure ResourceManager where
  service : Option Nat
  connectionId : UInt32
  resourceManager : Option Nat
  deriving DecidableEq

def ResourceManager.constructed : ResourceManager where
  service := none
  connectionId := 0
  resourceManager := none

/-- What the plugin does to the outside, in the order in which it does it. -/
inductive PluginEvent
  | assertion (holds : Bool)
  | nullDereference
  | addRef (service : Nat)
  | register (service : Nat)
  | root (implementation : Option Nat)
  | registerStubs (implementation : Nat)
  | unregister (service : Nat)
  | unregisterStubs
  | remoteConnection (connectionId : UInt32) (connection : Option Nat)
  | releaseImplementation (implementation : Nat)
  | terminate (connection : Nat) (raised : Bool)
  | releaseConnection (connection : Nat)
  | release (service : Nat)
  | submit (service : Nat)
  deriving DecidableEq

structure PluginWorld where
  plugin : ResourceManager
  log : List PluginEvent
  deriving DecidableEq

def PluginWorld.constructed : PluginWorld where
  plugin := .constructed
  log := []

structure RootAnswer where
  implementation : Option Nat
  connectionId : UInt32

/-- What `Deinitialize` meets: the connection, whether `Terminate` raises an
exception, and whether the last `Release` destroyed the implementation. -/
structure Shutdown where
  connection : Option Nat
  terminateRaises : Bool
  destroyed : Bool

def emit (event : PluginEvent) : StateM PluginWorld Unit :=
  modify fun world => { world with log := world.log ++ [event] }

def modifyPlugin (update : ResourceManager → ResourceManager) : StateM PluginWorld Unit :=
  modify fun world => { world with plugin := update world.plugin }

def onService (event : Nat → PluginEvent) : StateM PluginWorld Unit := do
  match (← get).plugin.service with
  | none => emit .nullDereference
  | some service => emit (event service)

def initializePlugin (service : Nat) (answer : RootAnswer) : StateM PluginWorld String := do
  emit (.assertion ((← get).plugin.service = none))
  emit (.assertion ((← get).plugin.resourceManager = none))
  emit (.assertion ((← get).plugin.connectionId = 0))
  modifyPlugin fun plugin => { plugin with service := some service }
  onService .addRef
  onService .register
  onService fun _ => .root answer.implementation
  modifyPlugin fun plugin => { plugin with
    connectionId := answer.connectionId
    resourceManager := answer.implementation }
  match answer.implementation with
  | some implementation =>
      emit (.registerStubs implementation)
      return ""
  | none => return "ResourceManager plugin could not be initialised"

def deactivated (connectionId : UInt32) : StateM PluginWorld Unit := do
  if connectionId = (← get).plugin.connectionId then
    emit (.assertion (← get).plugin.service.isSome)
    onService .submit

def deinitializePlugin (service : Nat) (shutdown : Shutdown) : StateM PluginWorld Unit := do
  emit (.assertion ((← get).plugin.service = some service))
  onService .unregister
  match (← get).plugin.resourceManager with
  | none => pure ()
  | some implementation =>
      emit .unregisterStubs
      emit (.remoteConnection (← get).plugin.connectionId shutdown.connection)
      emit (.releaseImplementation implementation)
      modifyPlugin fun plugin => { plugin with resourceManager := none }
      emit (.assertion shutdown.destroyed)
      match shutdown.connection with
      | none => pure ()
      | some connection =>
          -- an exception of `Terminate` is caught and logged
          emit (.terminate connection shutdown.terminateRaises)
          emit (.releaseConnection connection)
  modifyPlugin fun plugin => { plugin with connectionId := 0 }
  onService .release
  modifyPlugin fun plugin => { plugin with service := none }

inductive PluginCall
  | initializePlugin (service : Nat) (answer : RootAnswer)
  | deactivated (connectionId : UInt32)
  | deinitializePlugin (service : Nat) (shutdown : Shutdown)

def pluginStep (world : PluginWorld) : PluginCall → PluginWorld × Option String
  | .initializePlugin service answer =>
      let outcome := Id.run ((LeanResourceManager.initializePlugin service answer).run world)
      (outcome.2, some outcome.1)
  | .deactivated connectionId =>
      let outcome := Id.run ((LeanResourceManager.deactivated connectionId).run world)
      (outcome.2, none)
  | .deinitializePlugin service shutdown =>
      let outcome := Id.run ((LeanResourceManager.deinitializePlugin service shutdown).run world)
      (outcome.2, none)

end LeanResourceManager
