import LeanResourceManager.PluginActivationPhases

/-!
Runs of `activatePlugin`: the steps as moves of phases, the references to an `IShell` as
resources, and what holds of every run.
-/

namespace LeanResourceManager

open LeanMachine LeanOwnership

variable {ω : Type} {pool : Activations ω} {phase : Nat → CallPhase ω} {call : Nat}

/-! The steps of the callers. -/

theorem activatePlugin_coupled (coupled : Coupled pool phase) (callsign : String) :
    Coupled (activatePlugin pool callsign)
      (Function.update phase pool.calls (.queued callsign)) := by
  have fresh : phase pool.calls = .absent := (coupled.absent _).mpr (Nat.le_refl _)
  refine coupled.move rfl rfl ?_ rfl ?_ ?_ ?_
  · rw [fresh]
    rfl
  · intro other
    have outside : pool.queue.count pool.calls = 0 := by
      rw [coupled.queue, fresh]
      rfl
    by_cases same : other = pool.calls
    · subst other
      simp [activatePlugin, outside, CallPhase.inQueue]
    · simp [activatePlugin, same, Ne.symm same]
  · exact coupled.threads_kept (by rw [fresh]; rfl) rfl
  · intro other
    simp only [activatePlugin]
    by_cases same : other = pool.calls
    · subst other
      simp
    · rw [Function.update_of_ne same, coupled.absent]
      omega

theorem wake_coupled (coupled : Coupled pool phase) {callsign : String} {outcome : CallOutcome}
    (finished : phase call = .finished callsign outcome) :
    Coupled (wake pool call) (Function.update phase call (.returned callsign outcome)) := by
  have frame := coupled.frames call
  rw [finished] at frame
  have woken : wake pool call =
      { pool with
        frames := Function.update pool.frames call none
        log := pool.log ++ [.returned call outcome.result] } := by
    simp [wake, frame, CallPhase.frame]
  rw [woken]
  refine coupled.move rfl rfl ?_ rfl ?_ ?_ ?_
  · rw [finished]
    simp [CallPhase.trace, directTrace]
  · exact coupled.queue_kept (by rw [finished]; rfl) rfl
  · exact coupled.threads_kept (by rw [finished]; rfl) rfl
  · exact coupled.absent_kept (by simp [finished]) (by simp)

theorem getServiceState_coupled (coupled : Coupled pool phase) (answer : ShellAnswer) :
    Coupled (getServiceState pool answer).2 phase := by
  simp only [getServiceState]
  split
  · exact ⟨coupled.frames, coupled.queue, coupled.threads, coupled.log, coupled.absent⟩
  · exact coupled

/-! The references to an `IShell`, held by the threads. -/

def JobStage.interface : JobStage → Option Nat
  | .activate interface => some interface
  | .release interface => some interface
  | _ => none

def heldInterface (job : Option (Nat × JobStage)) : Option Nat :=
  job.bind fun job => job.2.interface

def Activations.ledger (pool : Activations ω) : Ledger ω where
  held := heldInterface ∘ pool.threads
  acquired := pool.acquired
  released := pool.released

structure Activations.Sound (pool : Activations ω) : Prop where
  coupled : ∃ phase, Coupled pool phase
  known : pool.ledger.Known
  exact : pool.ledger.Exact

theorem wake_ledger (pool : Activations ω) (call : Nat) :
    (wake pool call).ledger = pool.ledger := by
  simp only [wake]
  split
  · rfl
  · split
    · rfl
    · rfl

theorem started_pool_sound : (.started : Activations ω).Sound where
  coupled := ⟨_, started_coupled⟩
  known := ⟨by simp [Activations.ledger, Activations.started, heldInterface],
    by simp [Activations.ledger, Activations.started]⟩
  exact _ bound := absurd bound (Nat.not_lt_zero _)

/-! The steps of the threads. -/

variable [DecidableEq ω] {thread : ω}

theorem takeJob_coupled (coupled : Coupled pool phase) {callsign : String}
    (queued : phase call = .queued callsign) (idle : pool.threads thread = none) :
    Coupled (takeJob pool thread call)
      (Function.update phase call (.querying callsign thread)) := by
  have one := coupled.queue call
  rw [queued] at one
  have member : call ∈ pool.queue := List.count_pos_iff.mp (by rw [one]; exact Nat.one_pos)
  have taken : takeJob pool thread call =
      { pool with
        queue := pool.queue.erase call
        threads := Function.update pool.threads thread (some (call, .query))
        log := pool.log ++ [.taken call] } := by
    simp [takeJob, idle, member]
  rw [taken]
  refine coupled.move rfl rfl ?_ ?_ ?_ ?_ ?_
  · rw [queued]
    rfl
  · have kept := coupled.frames call
    rw [queued] at kept
    exact (Function.update_eq_self_iff.mpr kept.symm).symm
  · intro other
    by_cases same : other = call
    · subst other
      rw [if_pos rfl, List.count_erase_self, one]
      rfl
    · rw [if_neg same, List.count_erase_of_ne same]
  · have job : (phase call).job = (none : Option JobStage).map (Prod.mk thread) := by
      rw [queued]
      rfl
    exact coupled.threads_moved none (some .query) idle job rfl
  · exact coupled.absent_kept (by simp [queued]) (by simp)

theorem runJob_coupled (coupled : Coupled pool phase) {stage : JobStage}
    (running : pool.threads thread = some (call, stage)) (answer : ShellAnswer) :
    Coupled (runJob pool thread call answer stage)
      (Function.update phase call ((phase call).ran pool.acquired answer)) := by
  have job := (coupled.threads thread call stage).mp running
  have frame := coupled.frames call
  cases was : phase call with
  | absent => simp [was, CallPhase.job] at job
  | queued callsign => simp [was, CallPhase.job] at job
  | finished callsign outcome => simp [was, CallPhase.job] at job
  | returned callsign outcome => simp [was, CallPhase.job] at job
  | querying callsign worker =>
      simp only [was, CallPhase.job, Option.some.injEq, Prod.mk.injEq] at job
      obtain ⟨rfl, rfl⟩ := job
      rw [was] at frame
      simp only [runJob, queryJob, Activations.onFrame, frame, CallPhase.frame, CallPhase.ran]
      by_cases found : answer.found = true
      · rw [if_pos found, if_pos found]
        refine coupled.run running (some (.activate pool.acquired)) rfl rfl (by rw [was]; rfl) ?_
          rfl rfl rfl rfl rfl (by simp)
        exact (Function.update_eq_self_iff.mpr frame.symm).symm
      · rw [if_neg found, if_neg found]
        exact coupled.run running (some .setEvent) rfl rfl (by rw [was]; rfl) rfl rfl rfl rfl rfl
          rfl (by simp)
  | activating callsign worker interface =>
      simp only [was, CallPhase.job, Option.some.injEq, Prod.mk.injEq] at job
      obtain ⟨rfl, rfl⟩ := job
      rw [was] at frame
      simp only [runJob, Activations.onFrame, frame, CallPhase.frame, CallPhase.ran]
      exact coupled.run running (some (.release interface)) rfl rfl (by rw [was]; rfl) rfl rfl rfl
        rfl rfl rfl (by simp)
  | releasing callsign worker interface status =>
      simp only [was, CallPhase.job, Option.some.injEq, Prod.mk.injEq] at job
      obtain ⟨rfl, rfl⟩ := job
      rw [was] at frame
      simp only [runJob, CallPhase.ran]
      refine coupled.run running (some .setEvent) rfl rfl (by rw [was]; rfl) ?_ rfl rfl rfl rfl
        rfl (by simp)
      exact (Function.update_eq_self_iff.mpr frame.symm).symm
  | finishing callsign worker outcome =>
      simp only [was, CallPhase.job, Option.some.injEq, Prod.mk.injEq] at job
      obtain ⟨rfl, rfl⟩ := job
      rw [was] at frame
      simp only [runJob, Activations.onFrame, frame, CallPhase.frame, CallPhase.ran]
      exact coupled.run running none rfl rfl (by rw [was]; rfl) rfl rfl rfl rfl rfl rfl (by simp)

theorem activationStep_coupled (coupled : Coupled pool phase) (step : ActivationStep ω) :
    ∃ next, Coupled (activationStep pool step).1 next := by
  cases step with
  | activatePlugin callsign => exact ⟨_, activatePlugin_coupled coupled callsign⟩
  | wake call =>
      simp only [activationStep]
      cases live : pool.frames call with
      | none => exact ⟨phase, by simpa [wake, live] using coupled⟩
      | some frame =>
          by_cases event : frame.event = true
          · obtain ⟨_, _, finished⟩ := coupled.finished_of_event live event
            exact ⟨_, wake_coupled coupled finished⟩
          · exact ⟨phase, by simpa [wake, live, event] using coupled⟩
  | take thread call =>
      simp only [activationStep]
      cases busy : pool.threads thread with
      | some job => exact ⟨phase, by simpa [takeJob, busy] using coupled⟩
      | none =>
          by_cases member : call ∈ pool.queue
          · obtain ⟨_, queued⟩ := coupled.queued_of_mem member
            exact ⟨_, takeJob_coupled coupled queued busy⟩
          · exact ⟨phase, by simpa [takeJob, busy, member] using coupled⟩
  | run thread answer =>
      simp only [activationStep]
      cases running : pool.threads thread with
      | none => exact ⟨phase, coupled⟩
      | some job => exact ⟨_, runJob_coupled coupled running answer⟩
  | getServiceState thread answer =>
      simp only [activationStep]
      split
      · exact ⟨phase, coupled⟩
      · exact ⟨phase, getServiceState_coupled coupled answer⟩

theorem held_moved {pool : Activations ω} {thread : ω} {job : Option (Nat × JobStage)}
    (same : heldInterface job = heldInterface (pool.threads thread)) :
    heldInterface ∘ Function.update pool.threads thread job = pool.ledger.held := by
  rw [Function.comp_update, same]
  exact Function.update_eq_self thread _

theorem runJob_ledger {pool : Activations ω} {thread : ω} {call : Nat} {stage : JobStage}
    (running : pool.threads thread = some (call, stage)) (answer : ShellAnswer) :
    let next := (runJob pool thread call answer stage).ledger
    next = pool.ledger ∨ (pool.ledger.held thread = none ∧ next = pool.ledger.acquire thread) ∨
      next = pool.ledger.release thread := by
  intro next
  have kept : ∀ now : JobStage, now.interface = stage.interface →
      heldInterface ∘ Function.update pool.threads thread (some (call, now)) =
        pool.ledger.held := by
    intro now same
    apply held_moved
    rw [running]
    exact same
  cases stage with
  | query =>
      simp only [next, runJob, queryJob, Activations.onFrame]
      cases pool.frames call with
      | none => exact .inl rfl
      | some frame =>
          by_cases found : answer.found = true
          · refine .inr (.inl ⟨by simp [Activations.ledger, running, heldInterface,
              JobStage.interface], ?_⟩)
            simp only [found, if_true, Activations.ledger, Ledger.acquire, Function.comp_update]
            rfl
          · left
            simp only [found, Bool.false_eq_true, if_false, Activations.ledger]
            rw [kept .setEvent rfl]
            rfl
  | activate interface =>
      left
      simp only [next, runJob, Activations.onFrame]
      cases pool.frames call with
      | none => rfl
      | some frame =>
          simp only [Activations.ledger]
          rw [kept (.release interface) rfl]
          rfl
  | release interface =>
      right
      right
      have held : pool.ledger.held thread = some interface := by
        simp [Activations.ledger, running, heldInterface, JobStage.interface]
      simp only [next, runJob, Activations.ledger, Ledger.release, Function.comp_update]
      simp only [Activations.ledger] at held
      rw [held]
      rfl
  | setEvent =>
      left
      simp only [next, runJob, Activations.onFrame]
      cases pool.frames call with
      | none => rfl
      | some frame =>
          have idle : heldInterface none = heldInterface (pool.threads thread) := by
            rw [running]
            rfl
          simp only [Activations.ledger]
          rw [held_moved idle]
          rfl

theorem takeJob_ledger (pool : Activations ω) (thread : ω) (call : Nat) :
    (takeJob pool thread call).ledger = pool.ledger := by
  simp only [takeJob]
  cases busy : pool.threads thread with
  | some job => rfl
  | none =>
      have idle : heldInterface (some (call, .query)) = heldInterface (pool.threads thread) := by
        rw [busy]
        rfl
      by_cases member : call ∈ pool.queue
      · rw [if_pos member]
        simp only [Activations.ledger]
        rw [held_moved idle]
        rfl
      · rw [if_neg member]

theorem getServiceState_ledger {pool : Activations ω} {thread : ω}
    (idle : pool.threads thread = none) (answer : ShellAnswer) :
    (getServiceState pool answer).2.ledger = pool.ledger ∨
      (getServiceState pool answer).2.ledger =
        (pool.ledger.acquire thread).release thread := by
  simp only [getServiceState]
  by_cases found : answer.found = true
  · right
    rw [if_pos found]
    have free : heldInterface none = heldInterface (pool.threads thread) := by rw [idle]
    simp only [Ledger.acquire, Ledger.release, Function.update_self, Function.update_idem]
    simp only [Activations.ledger, Option.toList]
    congr 1
    exact (Function.update_eq_self_iff.mpr (by simp [idle, heldInterface])).symm
  · left
    rw [if_neg found]

theorem activationStep_sound {pool : Activations ω} (sound : pool.Sound)
    (step : ActivationStep ω) : (activationStep pool step).1.Sound := by
  obtain ⟨phase, coupled⟩ := sound.coupled
  have moved := activationStep_coupled coupled step
  suffices kept : (activationStep pool step).1.ledger.Known ∧
      (activationStep pool step).1.ledger.Exact from ⟨moved, kept.1, kept.2⟩
  have unchanged : ∀ next : Activations ω, next.ledger = pool.ledger →
      next.ledger.Known ∧ next.ledger.Exact := by
    intro next same
    rw [same]
    exact ⟨sound.known, sound.exact⟩
  cases step with
  | activatePlugin callsign => exact unchanged _ rfl
  | wake call => exact unchanged _ (wake_ledger pool call)
  | take thread call => exact unchanged _ (takeJob_ledger pool thread call)
  | run thread answer =>
      simp only [activationStep]
      cases running : pool.threads thread with
      | none => exact unchanged _ rfl
      | some job =>
          rcases runJob_ledger running answer with same | ⟨free, acquired⟩ | released
          · exact unchanged _ same
          · rw [acquired]
            exact ⟨sound.known.acquire thread, sound.exact.acquire sound.known free⟩
          · rw [released]
            exact ⟨sound.known.release thread, sound.exact.release thread⟩
  | getServiceState thread answer =>
      simp only [activationStep]
      split
      · exact unchanged _ rfl
      · rename_i idle
        have free : pool.ledger.held thread = none := by
          simp [Activations.ledger, heldInterface, idle]
        rcases getServiceState_ledger idle answer with same | passed
        · exact unchanged _ same
        · rw [passed]
          exact ⟨(sound.known.acquire thread).release thread,
            (sound.exact.acquire sound.known free).release thread⟩

theorem run_sound (steps : List (ActivationStep ω)) :
    (runState activationStep (.started : Activations ω) steps).Sound := by
  have preserved : ∀ (pool : Activations ω) (step : ActivationStep ω), True → pool.Sound →
      (activationStep pool step).1.Sound := fun _ step _ sound => activationStep_sound sound step
  exact runState_invariant preserved started_pool_sound fun _ _ => trivial

/-- In whatever order the steps are taken, each call goes through what it would go through
alone and returns what its own job got, no job refers to a call that has returned, and
every reference to an `IShell` is released once or still held by one thread. -/
theorem activations_direct (steps : List (ActivationStep ω)) :
    let final := runState activationStep (.started : Activations ω) steps
    (∀ call, ∃ callsign outcome,
      final.about call <+: directTrace call callsign outcome ∧
      ∀ result, .returned call result ∈ final.log →
        final.about call = directTrace call callsign outcome ∧ result = outcome.result) ∧
    (∀ call, ActivationEvent.dangled call ∉ final.log) ∧
    final.ledger.Exact := by
  intro final
  have sound : final.Sound := run_sound steps
  obtain ⟨phase, coupled⟩ := sound.coupled
  refine ⟨?_, ?_, sound.exact⟩
  · intro call
    have log := coupled.log call
    obtain ⟨callsign, outcome, along⟩ := (phase call).trace_begins call
    by_cases ended : ∃ callsign outcome, phase call = .returned callsign outcome
    · obtain ⟨callsign, outcome, was⟩ := ended
      rw [was] at log
      refine ⟨callsign, outcome, by rw [log]; exact List.prefix_refl _, ?_⟩
      intro result member
      have mine : .returned call result ∈ final.about call := (mem_about rfl).mp member
      rw [log] at mine
      refine ⟨log, ?_⟩
      cases outcome <;> simpa [CallPhase.trace, directTrace, shellTrace] using mine
    · refine ⟨callsign, outcome, by rw [log]; exact along, ?_⟩
      intro result member
      have mine : .returned call result ∈ final.about call := (mem_about rfl).mp member
      rw [log] at mine
      exact absurd (CallPhase.returned_of_mem mine) ended
  · intro call dangled
    have mine : .dangled call ∈ final.about call := (mem_about rfl).mp dangled
    rw [coupled.log call] at mine
    obtain ⟨callsign, outcome, along⟩ := (phase call).trace_begins call
    have member := along.subset mine
    cases outcome <;> simp [directTrace, shellTrace] at member

end LeanResourceManager
