import Mathlib.Logic.Function.Basic
import LeanResourceManager.InterfaceRetry

/-!
`PluginInterfaceRef` and `PluginInterfaceBuilder`, on objects named by their addresses.
-/

namespace LeanResourceManager

open LeanLoop

/-- `interface` is the number of the reference that a query added; pointers to the
same interface from two queries are two references. -/
structure PluginInterfaceRef where
  interface : Option Nat
  service : Option Nat
  deriving DecidableEq

structure PluginInterfaceBuilder where
  callsign : List UInt8
  service : Option Nat
  version : UInt32
  timeout : UInt32
  retryCount : CInt
  retryInterval : UInt32
  deriving DecidableEq

def PluginInterfaceBuilder.construct (callsign : List UInt8) : PluginInterfaceBuilder where
  callsign := callsign
  service := none
  version := 4294967295
  timeout := 3000
  retryCount := .zero
  retryInterval := 0

structure InterfaceWorld where
  objects : Nat → Option PluginInterfaceRef
  acquired : Nat
  released : List Nat

def InterfaceWorld.initial : InterfaceWorld where
  objects := fun _ => none
  acquired := 0
  released := []

def PluginInterfaceRef.default : PluginInterfaceRef where
  interface := none
  service := none

def PluginInterfaceRef.moveConstruct (other : PluginInterfaceRef) :
    PluginInterfaceRef × PluginInterfaceRef :=
  ({ interface := other.interface, service := other.service }, { interface := none, service := none })

/-- `operator=` with `this != &other`: the service stays where it is. -/
def PluginInterfaceRef.moveAssign (self other : PluginInterfaceRef) :
    PluginInterfaceRef × PluginInterfaceRef :=
  ({ self with interface := other.interface }, { other with interface := none })

def PluginInterfaceRef.reset (self : PluginInterfaceRef) : PluginInterfaceRef × List Nat :=
  match self.interface with
  | none => (self, [])
  | some reference => ({ self with interface := none }, [reference])

def PluginInterfaceRef.toBool (self : PluginInterfaceRef) : Bool := self.interface.isSome

/-- A query that finds the interface adds a reference to it. -/
def InterfaceWorld.found (world : InterfaceWorld) (answers : Nat → Bool) (index : Nat) :
    Option Nat :=
  if answers index then some world.acquired else none

def createInterface (builder : PluginInterfaceBuilder) (answers : Nat → Bool)
    (world : InterfaceWorld) : Option Nat × InterfaceWorld :=
  match createInterfaceLogged builder.service (world.found answers) builder.retryCount
      builder.retryInterval (attemptsAllowed builder.retryCount) with
  | .leave (.returned interface, log) =>
      (interface, { world with acquired := world.acquired + log.countP RetryEvent.acquires })
  | _ => (none, world) -- no run of the loop ends so (`retryLoop_ends`)

/-- The operations on objects. An operation names objects by address: a constructor
needs a free address, the others need live objects. -/
inductive InterfaceOp
  | createInterface (target : Nat) (builder : PluginInterfaceBuilder) (answers : Nat → Bool)
  | defaultConstruct (target : Nat)
  | moveConstruct (target source : Nat)
  | moveAssign (target source : Nat)
  | reset (target : Nat)
  | destroy (target : Nat)

def InterfaceWorld.setObject (world : InterfaceWorld) (address : Nat)
    (object : Option PluginInterfaceRef) : InterfaceWorld :=
  { world with objects := Function.update world.objects address object }

def InterfaceWorld.releaseAll (world : InterfaceWorld) (references : List Nat) : InterfaceWorld :=
  { world with released := world.released ++ references }

/-- `createInterface` of the builder: a temporary takes the pointer, the result is
move-constructed from it and the temporary is destroyed. -/
def buildInterface (target : Nat) (builder : PluginInterfaceBuilder) (answers : Nat → Bool)
    (world : InterfaceWorld) : InterfaceWorld :=
  let (interface, world) := createInterface builder answers world
  let temporary : PluginInterfaceRef := { interface := interface, service := builder.service }
  let (result, temporary) := temporary.moveConstruct
  (world.setObject target (some result)).releaseAll temporary.reset.2

def interfaceStep (world : InterfaceWorld) : InterfaceOp → InterfaceWorld × Unit
  | .createInterface target builder answers =>
      match world.objects target with
      | some _ => (world, ())
      | none => (buildInterface target builder answers world, ())
  | .defaultConstruct target =>
      match world.objects target with
      | some _ => (world, ())
      | none => (world.setObject target (some .default), ())
  | .moveConstruct target source =>
      match world.objects target, world.objects source with
      | none, some other =>
          let (object, left) := other.moveConstruct
          ((world.setObject target (some object)).setObject source (some left), ())
      | _, _ => (world, ())
  | .moveAssign target source =>
      match world.objects target, world.objects source with
      | some self, some other =>
          if target = source then (world, ())
          else
            let (object, left) := self.moveAssign other
            ((world.setObject target (some object)).setObject source (some left), ())
      | _, _ => (world, ())
  | .reset target =>
      match world.objects target with
      | none => (world, ())
      | some object =>
          ((world.setObject target (some object.reset.1)).releaseAll object.reset.2, ())
  | .destroy target =>
      match world.objects target with
      | none => (world, ())
      | some object => ((world.setObject target none).releaseAll object.reset.2, ())

theorem createInterface_acquires (builder : PluginInterfaceBuilder) (answers : Nat → Bool)
    (world : InterfaceWorld) :
    createInterface builder answers world =
      if builder.service.isSome = true ∧
          firstAnswer (world.found answers) ≤ attemptsAllowed builder.retryCount then
        (some world.acquired, { world with acquired := world.acquired + 1 })
      else (none, world) := by
  cases present : builder.service with
  | none => simp [createInterface, createInterfaceLogged, present]
  | some service =>
      obtain ⟨⟨ended, log⟩, left, last, finished⟩ :=
        (retryLoop_ends (world.found answers) builder.retryCount builder.retryInterval
          (Nat.le_refl _)).exists
      have returned : ended = .returned (world.found answers last) := finished.returned
      have acquired : log.countP RetryEvent.acquires = _ :=
        finished.log ▸ acquisitions_attemptLog builder.retryInterval finished.null
      obtain ⟨_, _, answered⟩ := finished.first
      simp only [createInterface, createInterfaceLogged, present, left, returned, acquired]
      cases answer : answers last with
      | true =>
          have found : world.found answers last = some world.acquired := by
            rw [InterfaceWorld.found, if_pos answer]
          have within := answered.mp (by rw [found]; rfl)
          simp [found, within]
      | false =>
          have missing : world.found answers last = none := by
            simp [InterfaceWorld.found, answer]
          have beyond := mt answered.mpr (by simp [missing])
          simp [missing, beyond]

end LeanResourceManager
