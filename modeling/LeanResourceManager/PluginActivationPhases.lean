import Mathlib.Data.List.Basic
import LeanResourceManager.PluginActivation

/-!
Whatever the threads do, each call of `activatePlugin` goes through the phases that it
would go through alone.
-/

namespace LeanResourceManager

open LeanMachine LeanOwnership

/-- What a job got: nothing, or an interface and what its `Activate` returned. -/
abbrev CallOutcome := Option (Nat × HResult)

def CallOutcome.result : CallOutcome → HResult
  | none => errorUnavailable
  | some (_, status) => status

inductive CallPhase (ω : Type)
  | absent
  | queued (callsign : String)
  | querying (callsign : String) (thread : ω)
  | activating (callsign : String) (thread : ω) (interface : Nat)
  | releasing (callsign : String) (thread : ω) (interface : Nat) (status : HResult)
  | finishing (callsign : String) (thread : ω) (outcome : CallOutcome)
  | finished (callsign : String) (outcome : CallOutcome)
  | returned (callsign : String) (outcome : CallOutcome)

def shellTrace (call : Nat) (callsign : String) : CallOutcome → List ActivationEvent
  | none => [.called call callsign, .taken call, .queried call callsign none]
  | some (interface, status) =>
      [.called call callsign, .taken call, .queried call callsign (some interface),
        .activated call interface status, .released call interface]

/-- A call without any other. -/
def directTrace (call : Nat) (callsign : String) (outcome : CallOutcome) :
    List ActivationEvent :=
  shellTrace call callsign outcome ++ [.eventSet call, .returned call outcome.result]

namespace CallPhase

variable {ω : Type}

def frame : CallPhase ω → Option ActivationFrame
  | absent => none
  | queued callsign => some ⟨callsign, errorAsyncFailed, false⟩
  | querying callsign _ => some ⟨callsign, errorAsyncFailed, false⟩
  | activating callsign _ _ => some ⟨callsign, errorAsyncFailed, false⟩
  | releasing callsign _ _ status => some ⟨callsign, status, false⟩
  | finishing callsign _ outcome => some ⟨callsign, outcome.result, false⟩
  | finished callsign outcome => some ⟨callsign, outcome.result, true⟩
  | returned _ _ => none

def inQueue : CallPhase ω → Nat
  | queued _ => 1
  | _ => 0

def job : CallPhase ω → Option (ω × JobStage)
  | querying _ thread => some (thread, .query)
  | activating _ thread interface => some (thread, .activate interface)
  | releasing _ thread interface _ => some (thread, .release interface)
  | finishing _ thread _ => some (thread, .setEvent)
  | _ => none

def trace (call : Nat) : CallPhase ω → List ActivationEvent
  | absent => []
  | queued callsign => [.called call callsign]
  | querying callsign _ => [.called call callsign, .taken call]
  | activating callsign _ interface =>
      [.called call callsign, .taken call, .queried call callsign (some interface)]
  | releasing callsign _ interface status =>
      [.called call callsign, .taken call, .queried call callsign (some interface),
        .activated call interface status]
  | finishing callsign _ outcome => shellTrace call callsign outcome
  | finished callsign outcome => shellTrace call callsign outcome ++ [.eventSet call]
  | returned callsign outcome => directTrace call callsign outcome

theorem trace_begins (phase : CallPhase ω) (call : Nat) :
    ∃ callsign outcome, phase.trace call <+: directTrace call callsign outcome := by
  cases phase with
  | absent => exact ⟨"", none, List.nil_prefix⟩
  | queued callsign => exact ⟨callsign, none, _, rfl⟩
  | querying callsign thread => exact ⟨callsign, none, _, rfl⟩
  | activating callsign thread interface =>
      exact ⟨callsign, some (interface, errorNone), _, rfl⟩
  | releasing callsign thread interface status =>
      exact ⟨callsign, some (interface, status), _, rfl⟩
  | finishing callsign thread outcome => exact ⟨callsign, outcome, _, rfl⟩
  | finished callsign outcome =>
      refine ⟨callsign, outcome, [.returned call outcome.result], ?_⟩
      simp [trace, directTrace]
  | returned callsign outcome => exact ⟨callsign, outcome, List.prefix_refl _⟩

theorem returned_of_mem {phase : CallPhase ω} {call : Nat} {result : HResult}
    (member : .returned call result ∈ phase.trace call) :
    ∃ callsign outcome, phase = .returned callsign outcome := by
  cases phase with
  | returned callsign outcome => exact ⟨callsign, outcome, rfl⟩
  | finishing callsign thread outcome =>
      cases outcome <;> simp [CallPhase.trace, shellTrace] at member
  | finished callsign outcome =>
      cases outcome <;> simp [CallPhase.trace, shellTrace] at member
  | _ => simp [CallPhase.trace] at member

/-- The step of the thread that has the job of the call. -/
def ran (acquired : Nat) (answer : ShellAnswer) : CallPhase ω → CallPhase ω
  | querying callsign thread =>
      if answer.found then activating callsign thread acquired
      else finishing callsign thread none
  | activating callsign thread interface => releasing callsign thread interface answer.status
  | releasing callsign thread interface status =>
      finishing callsign thread (some (interface, status))
  | finishing callsign _ outcome => finished callsign outcome
  | phase => phase

theorem inQueue_of_job {phase : CallPhase ω} {job : ω × JobStage} (has : phase.job = some job) :
    phase.inQueue = 0 ∧ phase ≠ .absent := by
  cases phase with
  | absent => simp [CallPhase.job] at has
  | queued callsign => simp [CallPhase.job] at has
  | _ => exact ⟨rfl, by simp⟩

end CallPhase

variable {ω : Type}

def Activations.about (pool : Activations ω) (call : Nat) : List ActivationEvent :=
  pool.log.filter fun event => event.call = call

theorem mem_about {pool : Activations ω} {event : ActivationEvent} {call : Nat}
    (about : event.call = call) : event ∈ pool.log ↔ event ∈ pool.about call := by
  simp [Activations.about, about]

/-- Each call is in one place: in the queue, on one thread, or in neither. -/
structure Coupled (pool : Activations ω) (phase : Nat → CallPhase ω) : Prop where
  frames : ∀ call, pool.frames call = (phase call).frame
  queue : ∀ call, pool.queue.count call = (phase call).inQueue
  threads : ∀ thread call stage, pool.threads thread = some (call, stage) ↔
    (phase call).job = some (thread, stage)
  log : ∀ call, pool.about call = (phase call).trace call
  absent : ∀ call, phase call = .absent ↔ pool.calls ≤ call

theorem started_coupled : Coupled (.started : Activations ω) fun _ => .absent where
  frames _ := rfl
  queue _ := rfl
  threads _ _ _ := by simp [Activations.started, CallPhase.job]
  log _ := rfl
  absent _ := by simp [Activations.started]

theorem Coupled.move {pool next : Activations ω} {phase : Nat → CallPhase ω}
    (coupled : Coupled pool phase) {call : Nat} {after : CallPhase ω} {event : ActivationEvent}
    (log : next.log = pool.log ++ [event]) (about : event.call = call)
    (trace : after.trace call = (phase call).trace call ++ [event])
    (frames : next.frames = Function.update pool.frames call after.frame)
    (queue : ∀ other, next.queue.count other =
      if other = call then after.inQueue else pool.queue.count other)
    (threads : ∀ thread other stage, next.threads thread = some (other, stage) ↔
      (Function.update phase call after other).job = some (thread, stage))
    (absent : ∀ other, Function.update phase call after other = .absent ↔ next.calls ≤ other) :
    Coupled next (Function.update phase call after) where
  frames other := by
    rw [frames]
    by_cases same : other = call
    · subst other
      rw [Function.update_self, Function.update_self]
    · rw [Function.update_of_ne same, Function.update_of_ne same, coupled.frames]
  queue other := by
    rw [queue]
    by_cases same : other = call
    · subst other
      rw [if_pos rfl, Function.update_self]
    · rw [if_neg same, Function.update_of_ne same, coupled.queue]
  threads := threads
  log other := by
    have before := coupled.log other
    simp only [Activations.about, log, List.filter_append] at before ⊢
    rw [before]
    by_cases same : other = call
    · subst other
      simp [about, trace]
    · simp [about, Ne.symm same, Function.update_of_ne same]
  absent := absent

variable {pool : Activations ω} {phase : Nat → CallPhase ω} {call : Nat} {after : CallPhase ω}

theorem Coupled.absent_kept (coupled : Coupled pool phase) (present : phase call ≠ .absent)
    (still : after ≠ .absent) (other : Nat) :
    Function.update phase call after other = .absent ↔ pool.calls ≤ other := by
  by_cases same : other = call
  · subst other
    rw [Function.update_self, ← coupled.absent]
    exact iff_of_false still present
  · rw [Function.update_of_ne same, coupled.absent]

theorem Coupled.queue_kept (coupled : Coupled pool phase) (outside : (phase call).inQueue = 0)
    (still : after.inQueue = 0) (other : Nat) :
    pool.queue.count other = if other = call then after.inQueue else pool.queue.count other := by
  by_cases same : other = call
  · subst other
    rw [if_pos rfl, coupled.queue, outside, still]
  · rw [if_neg same]

theorem Coupled.threads_kept (coupled : Coupled pool phase) (idle : (phase call).job = none)
    (still : after.job = none) (thread : ω) (other : Nat) (stage : JobStage) :
    pool.threads thread = some (other, stage) ↔
      (Function.update phase call after other).job = some (thread, stage) := by
  by_cases same : other = call
  · subst other
    rw [Function.update_self, still, coupled.threads, idle]
  · rw [Function.update_of_ne same, coupled.threads]

theorem Coupled.finished_of_event
    (coupled : Coupled pool phase) {frame : ActivationFrame}
    (live : pool.frames call = some frame) (event : frame.event = true) :
    ∃ callsign outcome, phase call = .finished callsign outcome := by
  rw [coupled.frames] at live
  cases was : phase call with
  | finished callsign outcome => exact ⟨callsign, outcome, rfl⟩
  | absent => simp [was, CallPhase.frame] at live
  | returned callsign outcome => simp [was, CallPhase.frame] at live
  | _ =>
      simp only [was, CallPhase.frame, Option.some.injEq] at live
      simp [← live] at event

theorem Coupled.queued_of_mem
    (coupled : Coupled pool phase) (member : call ∈ pool.queue) :
    ∃ callsign, phase call = .queued callsign := by
  have counted := List.count_pos_iff.mpr member
  rw [coupled.queue] at counted
  cases was : phase call with
  | queued callsign => exact ⟨callsign, rfl⟩
  | _ => simp [was, CallPhase.inQueue] at counted

variable [DecidableEq ω] {thread : ω}

theorem Coupled.threads_moved (coupled : Coupled pool phase) (before now : Option JobStage)
    (was : pool.threads thread = before.map (Prod.mk call))
    (wasJob : (phase call).job = before.map (Prod.mk thread))
    (job : after.job = now.map (Prod.mk thread)) (worker : ω) (other : Nat) (stage : JobStage) :
    Function.update pool.threads thread (now.map (Prod.mk call)) worker = some (other, stage) ↔
      (Function.update phase call after other).job = some (worker, stage) := by
  by_cases sameThread : worker = thread
  · subst worker
    rw [Function.update_self]
    by_cases same : other = call
    · subst other
      rw [Function.update_self, job]
      simp
    · rw [Function.update_of_ne same, ← coupled.threads, was]
      simp [Ne.symm same]
  · rw [Function.update_of_ne sameThread, coupled.threads]
    by_cases same : other = call
    · subst other
      rw [Function.update_self, job, wasJob]
      simp [Ne.symm sameThread]
    · rw [Function.update_of_ne same]

theorem Coupled.run {next : Activations ω} (coupled : Coupled pool phase) {stage : JobStage}
    (running : pool.threads thread = some (call, stage)) (now : Option JobStage)
    {event : ActivationEvent} (log : next.log = pool.log ++ [event]) (about : event.call = call)
    (trace : after.trace call = (phase call).trace call ++ [event])
    (frames : next.frames = Function.update pool.frames call after.frame)
    (queue : next.queue = pool.queue) (calls : next.calls = pool.calls)
    (job : after.job = now.map (Prod.mk thread))
    (threads : next.threads = Function.update pool.threads thread (now.map (Prod.mk call)))
    (outside : after.inQueue = 0) (still : after ≠ .absent) :
    Coupled next (Function.update phase call after) := by
  have wasJob := (coupled.threads thread call stage).mp running
  have ⟨wasOutside, present⟩ := CallPhase.inQueue_of_job wasJob
  refine coupled.move log about trace frames ?_ ?_ ?_
  · rw [queue]
    exact coupled.queue_kept wasOutside outside
  · rw [threads]
    exact coupled.threads_moved (some stage) now running wasJob job
  · rw [calls]
    exact coupled.absent_kept present still

end LeanResourceManager
