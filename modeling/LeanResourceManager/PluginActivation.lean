import LeanResourceManager.ImplementationCore
import LeanResourceManager.Library.Machine
import LeanResourceManager.Library.Ownership

/-!
`activatePlugin` of `UtilsController.h`: a call hands a job to the worker pool that
captures its arguments, its result and an event by reference, and sleeps until the job
has set the event. Calls are numbered; any number of them and of threads of the pool take
their steps in any order.
-/

namespace LeanResourceManager

open LeanMachine LeanOwnership

def errorAsyncFailed : HResult := 3

/-- What the job of a call refers to; it is gone when the call returns. -/
structure ActivationFrame where
  callsign : String
  result : HResult
  event : Bool

/-- The next step of a job; references to an `IShell` are numbered by the queries. -/
inductive JobStage
  | query
  | activate (interface : Nat)
  | release (interface : Nat)
  | setEvent
  deriving DecidableEq

inductive ActivationEvent
  | called (call : Nat) (callsign : String)
  | taken (call : Nat)
  | queried (call : Nat) (callsign : String) (interface : Option Nat)
  | activated (call interface : Nat) (status : HResult)
  | released (call interface : Nat)
  | eventSet (call : Nat)
  | returned (call : Nat) (result : HResult)
  | dangled (call : Nat)
  deriving DecidableEq

def ActivationEvent.call : ActivationEvent → Nat
  | .called call _ => call
  | .taken call => call
  | .queried call _ _ => call
  | .activated call _ _ => call
  | .released call _ => call
  | .eventSet call => call
  | .returned call _ => call
  | .dangled call => call

structure Activations (ω : Type) where
  calls : Nat
  frames : Nat → Option ActivationFrame
  queue : List Nat
  threads : ω → Option (Nat × JobStage)
  acquired : Nat
  released : List Nat
  log : List ActivationEvent

variable {ω : Type}

def Activations.started : Activations ω where
  calls := 0
  frames _ := none
  queue := []
  threads _ := none
  acquired := 0
  released := []
  log := []

structure ShellAnswer where
  found : Bool
  status : HResult
  state : Nat

/-- The last two steps of a thread: `run` is the next step of its job, `getServiceState`
one whole call on a thread that has no job. -/
inductive ActivationStep (ω : Type)
  | activatePlugin (callsign : String)
  | wake (call : Nat)
  | take (thread : ω) (call : Nat)
  | run (thread : ω) (answer : ShellAnswer)
  | getServiceState (thread : ω) (answer : ShellAnswer)

def Activations.onFrame (pool : Activations ω) (call : Nat)
    (access : ActivationFrame → Activations ω) : Activations ω :=
  match pool.frames call with
  | none => { pool with log := pool.log ++ [.dangled call] }
  | some frame => access frame

variable [DecidableEq ω]

def queryJob (pool : Activations ω) (thread : ω) (call : Nat) (answer : ShellAnswer) :
    Activations ω :=
  pool.onFrame call fun frame =>
    if answer.found then
      { pool with
        threads := Function.update pool.threads thread (some (call, .activate pool.acquired))
        acquired := pool.acquired + 1
        log := pool.log ++ [.queried call frame.callsign (some pool.acquired)] }
    else
      { pool with
        frames := Function.update pool.frames call (some { frame with result := errorUnavailable })
        threads := Function.update pool.threads thread (some (call, .setEvent))
        log := pool.log ++ [.queried call frame.callsign none] }

def runJob (pool : Activations ω) (thread : ω) (call : Nat) (answer : ShellAnswer) :
    JobStage → Activations ω
  | .query => queryJob pool thread call answer
  | .activate interface => pool.onFrame call fun frame =>
      { pool with
        frames := Function.update pool.frames call (some { frame with result := answer.status })
        threads := Function.update pool.threads thread (some (call, .release interface))
        log := pool.log ++ [.activated call interface answer.status] }
  | .release interface =>
      { pool with
        threads := Function.update pool.threads thread (some (call, .setEvent))
        released := pool.released ++ [interface]
        log := pool.log ++ [.released call interface] }
  | .setEvent => pool.onFrame call fun frame =>
      { pool with
        frames := Function.update pool.frames call (some { frame with event := true })
        threads := Function.update pool.threads thread none
        log := pool.log ++ [.eventSet call] }

def getServiceState (pool : Activations ω) (answer : ShellAnswer) :
    (HResult × Option Nat) × Activations ω :=
  if answer.found then
    let interface := pool.acquired
    let queried := { pool with acquired := pool.acquired + 1 }
    ((errorNone, some answer.state),
      { queried with released := queried.released ++ [interface] })
  else ((errorUnavailable, none), pool)

def activatePlugin (pool : Activations ω) (callsign : String) : Activations ω :=
  let call := pool.calls
  { pool with
    calls := pool.calls + 1
    frames := Function.update pool.frames call
      (some { callsign := callsign, result := errorAsyncFailed, event := false })
    queue := pool.queue ++ [call]
    log := pool.log ++ [.called call callsign] }

def wake (pool : Activations ω) (call : Nat) : Activations ω :=
  match pool.frames call with
  | none => pool
  | some frame =>
      if frame.event then
        { pool with
          frames := Function.update pool.frames call none
          log := pool.log ++ [.returned call frame.result] }
      else pool

def takeJob (pool : Activations ω) (thread : ω) (call : Nat) : Activations ω :=
  match pool.threads thread with
  | some _ => pool
  | none =>
      if call ∈ pool.queue then
        { pool with
          queue := pool.queue.erase call
          threads := Function.update pool.threads thread (some (call, .query))
          log := pool.log ++ [.taken call] }
      else pool

def activationStep (pool : Activations ω) :
    ActivationStep ω → Activations ω × Option (HResult × Option Nat)
  | .activatePlugin callsign => (activatePlugin pool callsign, none)
  | .wake call => (wake pool call, none)
  | .take thread call => (takeJob pool thread call, none)
  | .run thread answer =>
      match pool.threads thread with
      | none => (pool, none)
      | some (call, stage) => (runJob pool thread call answer stage, none)
  | .getServiceState thread answer =>
      match pool.threads thread with
      | some _ => (pool, none)
      | none =>
          let (result, pool) := getServiceState pool answer
          (pool, some result)

end LeanResourceManager
