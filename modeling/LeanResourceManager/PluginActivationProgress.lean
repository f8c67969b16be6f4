import Mathlib.Algebra.Order.BigOperators.Group.Finset
import LeanResourceManager.Library.Fairness
import LeanResourceManager.PluginActivationRuns

/-!
Every call of `activatePlugin` returns, if the pool has a thread and the threads and
callers get their turns.
-/

namespace LeanResourceManager

open LeanMachine LeanFairness

inductive StepKind (ω : Type)
  | client
  | wake (call : Nat)
  | take (thread : ω) (call : Nat)
  | run (thread : ω)

variable {ω : Type}

def ActivationStep.kind : ActivationStep ω → StepKind ω
  | .activatePlugin _ => .client
  | .wake call => .wake call
  | .take thread call => .take thread call
  | .run thread _ => .run thread
  | .getServiceState _ _ => .client

def Activations.remaining (pool : Activations ω) : Nat :=
  ∑ call ∈ Finset.range pool.calls, (7 - (pool.about call).length)

def Activations.Completed (pool : Activations ω) : Prop :=
  ∀ call < pool.calls, ∃ result, .returned call result ∈ pool.log

def Advances (pool next : Activations ω) : Prop :=
  ∃ event, next.log = pool.log ++ [event] ∧ event.call < pool.calls ∧ next.calls = pool.calls

theorem CallPhase.trace_length_le (phase : CallPhase ω) (call : Nat) :
    (phase.trace call).length ≤ 7 := by
  obtain ⟨callsign, outcome, along⟩ := phase.trace_begins call
  refine along.length_le.trans ?_
  cases outcome <;> simp [directTrace, shellTrace]

theorem Advances.remaining_lt {pool next : Activations ω} (advances : Advances pool next)
    (sound : next.Sound) : next.remaining < pool.remaining := by
  obtain ⟨event, log, made, calls⟩ := advances
  obtain ⟨phase, coupled⟩ := sound.coupled
  have grown : ∀ call, next.about call =
      pool.about call ++ if event.call = call then [event] else [] := by
    intro call
    simp only [Activations.about, log, List.filter_append]
    by_cases same : event.call = call
    · simp [same]
    · simp [same]
  simp only [Activations.remaining, calls]
  apply Finset.sum_lt_sum
  · intro call _
    rw [grown, List.length_append]
    omega
  · refine ⟨event.call, Finset.mem_range.mpr made, ?_⟩
    have bound := (phase event.call).trace_length_le event.call
    rw [← coupled.log, grown, if_pos rfl, List.length_append, List.length_singleton] at bound
    rw [grown, if_pos rfl, List.length_append, List.length_singleton]
    omega

variable {pool : Activations ω} {phase : Nat → CallPhase ω} {call : Nat} {thread : ω}

theorem Coupled.made (coupled : Coupled pool phase) (present : phase call ≠ .absent) :
    call < pool.calls := by
  by_contra beyond
  exact present ((coupled.absent call).mpr (Nat.le_of_not_lt beyond))

theorem wake_advances (coupled : Coupled pool phase) {callsign : String} {outcome : CallOutcome}
    (finished : phase call = .finished callsign outcome) : Advances pool (wake pool call) := by
  have frame := coupled.frames call
  rw [finished] at frame
  have made : call < pool.calls := coupled.made (by simp [finished])
  refine ⟨.returned call outcome.result, ?_, made, ?_⟩
  all_goals simp [wake, frame, CallPhase.frame]

variable [DecidableEq ω]

theorem takeJob_advances (coupled : Coupled pool phase) (member : call ∈ pool.queue)
    (idle : pool.threads thread = none) : Advances pool (takeJob pool thread call) := by
  obtain ⟨callsign, queued⟩ := coupled.queued_of_mem member
  have made : call < pool.calls := coupled.made (by simp [queued])
  refine ⟨.taken call, ?_, made, ?_⟩
  all_goals simp [takeJob, idle, member]

theorem runJob_advances (coupled : Coupled pool phase) {stage : JobStage}
    (running : pool.threads thread = some (call, stage)) (answer : ShellAnswer) :
    Advances pool (runJob pool thread call answer stage) := by
  have job := (coupled.threads thread call stage).mp running
  have made := coupled.made (CallPhase.inQueue_of_job job).2
  have live : ∃ frame, pool.frames call = some frame := by
    rw [coupled.frames]
    cases was : phase call with
    | absent => simp [was, CallPhase.job] at job
    | returned callsign outcome => simp [was, CallPhase.job] at job
    | _ => exact ⟨_, rfl⟩
  obtain ⟨frame, live⟩ := live
  cases stage with
  | query =>
      by_cases found : answer.found = true
      · refine ⟨.queried call frame.callsign (some pool.acquired), ?_, made, ?_⟩
        all_goals simp [runJob, queryJob, Activations.onFrame, live, found]
      · refine ⟨.queried call frame.callsign none, ?_, made, ?_⟩
        all_goals simp [runJob, queryJob, Activations.onFrame, live, found]
  | activate interface =>
      refine ⟨.activated call interface answer.status, ?_, made, ?_⟩
      all_goals simp [runJob, Activations.onFrame, live]
  | release interface =>
      exact ⟨.released call interface, rfl, made, rfl⟩
  | setEvent =>
      refine ⟨.eventSet call, ?_, made, ?_⟩
      all_goals simp [runJob, Activations.onFrame, live]

theorem activationStep_advances (sound : pool.Sound) {step : ActivationStep ω}
    (internal : step.kind ≠ .client) :
    (activationStep pool step).1 = pool ∨ Advances pool (activationStep pool step).1 := by
  obtain ⟨phase, coupled⟩ := sound.coupled
  cases step with
  | activatePlugin callsign => exact absurd rfl internal
  | getServiceState thread answer => exact absurd rfl internal
  | wake call =>
      cases live : pool.frames call with
      | none => exact .inl (by simp [activationStep, wake, live])
      | some frame =>
          by_cases event : frame.event = true
          · obtain ⟨_, _, finished⟩ := coupled.finished_of_event live event
            exact .inr (wake_advances coupled finished)
          · exact .inl (by simp [activationStep, wake, live, event])
  | take thread call =>
      cases busy : pool.threads thread with
      | some job => exact .inl (by simp [activationStep, takeJob, busy])
      | none =>
          by_cases member : call ∈ pool.queue
          · exact .inr (takeJob_advances coupled member busy)
          · exact .inl (by simp [activationStep, takeJob, busy, member])
  | run thread answer =>
      simp only [activationStep]
      cases running : pool.threads thread with
      | none => exact .inl rfl
      | some job => exact .inr (runJob_advances coupled running answer)

/-- The next step of a call that has not returned: a busy thread runs its job, an idle
one takes the call from the queue, or the caller wakes. -/
theorem Activations.Sound.helped (sound : pool.Sound) (worker : ω)
    (unfinished : ¬pool.Completed) :
    ∃ kind, ((∃ thread, kind = .run thread) ∨
        ∃ call < pool.calls, kind = .take worker call ∨ kind = .wake call) ∧
      Helps (fun pool step => (activationStep pool step).1) ActivationStep.kind
        Activations.remaining pool kind := by
  obtain ⟨phase, coupled⟩ := sound.coupled
  simp only [Activations.Completed, not_forall, not_exists] at unfinished
  obtain ⟨call, made, waiting⟩ := unfinished
  have helps : ∀ kind, (∀ step : ActivationStep ω, step.kind = kind →
      Advances pool (activationStep pool step).1) →
      Helps (fun pool step => (activationStep pool step).1) ActivationStep.kind
        Activations.remaining pool kind :=
    fun kind advances step same =>
      (advances step same).remaining_lt (activationStep_sound sound step)
  have runs : ∀ thread call stage, pool.threads thread = some (call, stage) →
      ∀ step : ActivationStep ω, step.kind = .run thread →
        Advances pool (activationStep pool step).1 := by
    intro thread call stage running step same
    cases step with
    | run other answer =>
        obtain rfl := StepKind.run.inj same
        simp only [activationStep, running]
        exact runJob_advances coupled running answer
    | _ => simp [ActivationStep.kind] at same
  by_cases busy : ∃ thread stage, (phase call).job = some (thread, stage)
  · obtain ⟨thread, stage, job⟩ := busy
    have running := (coupled.threads thread call stage).mpr job
    exact ⟨.run thread, .inl ⟨thread, rfl⟩, helps _ (runs thread call stage running)⟩
  · cases was : phase call with
    | absent => exact absurd made (Nat.not_lt.mpr ((coupled.absent call).mp was))
    | returned callsign outcome =>
        have log := coupled.log call
        rw [was] at log
        have member : .returned call outcome.result ∈ pool.about call := by
          simp [log, CallPhase.trace, directTrace]
        exact absurd ((mem_about rfl).mpr member) (waiting outcome.result)
    | queued callsign =>
        cases idle : pool.threads worker with
        | some job =>
            exact ⟨.run worker, .inl ⟨worker, rfl⟩, helps _ (runs worker job.1 job.2 idle)⟩
        | none =>
            refine ⟨.take worker call, .inr ⟨call, made, .inl rfl⟩, helps _ ?_⟩
            intro step same
            cases step with
            | take other taken =>
                obtain ⟨rfl, rfl⟩ := StepKind.take.inj same
                have counted := coupled.queue taken
                rw [was] at counted
                have member : taken ∈ pool.queue :=
                  List.count_pos_iff.mp (by rw [counted]; exact Nat.one_pos)
                exact takeJob_advances coupled member idle
            | _ => simp [ActivationStep.kind] at same
    | finished callsign outcome =>
        refine ⟨.wake call, .inr ⟨call, made, .inr rfl⟩, helps _ ?_⟩
        intro step same
        cases step with
        | wake woken =>
            obtain rfl := StepKind.wake.inj same
            exact wake_advances coupled was
        | _ => simp [ActivationStep.kind] at same
    | _ => exact absurd ⟨_, _, by rw [was]; rfl⟩ busy

/-- No new calls; every caller and every thread gets its turn again and again, and so does
every call to be taken by one of the threads. -/
structure FairPool (calls : Nat) (worker : ω) (schedule : Nat → ActivationStep ω) : Prop where
  internal : ∀ moment, (schedule moment).kind ≠ .client
  wakes : ∀ call < calls, Recurs ActivationStep.kind schedule (.wake call)
  takes : ∀ call < calls, Recurs ActivationStep.kind schedule (.take worker call)
  runs : ∀ thread, Recurs ActivationStep.kind schedule (.run thread)

/-- After whatever has happened, all calls made so far return, whatever their jobs find, if no
new ones are made. -/
theorem fair_activations_return (past : List (ActivationStep ω)) (worker : ω)
    (schedule : Nat → ActivationStep ω)
    (fair : FairPool (runState activationStep .started past).calls worker schedule) :
    ∃ moment, (runState activationStep .started
      (past ++ (List.range moment).map schedule)).Completed := by
  let states (moment : Nat) : Activations ω :=
    runState activationStep .started (past ++ (List.range moment).map schedule)
  have sound : ∀ moment, (states moment).Sound := fun moment => run_sound _
  have next : ∀ moment, states (moment + 1) =
      (activationStep (states moment) (schedule moment)).1 := by
    intro moment
    simp [states, List.range_succ, runState_append]
  have moved : ∀ moment, states (moment + 1) = states moment ∨
      Advances (states moment) (states (moment + 1)) := by
    intro moment
    rw [next]
    exact activationStep_advances (sound moment) (fair.internal moment)
  have calls : ∀ moment, (states moment).calls = (runState activationStep .started past).calls := by
    intro moment
    induction moment with
    | zero => simp [states]
    | succ moment ih =>
        rcases moved moment with same | ⟨_, _, _, kept⟩
        · rw [same, ih]
        · rw [kept, ih]
  have ranked : Ranked (fun pool step => (activationStep pool step).1) schedule states
      Activations.remaining := by
    refine ⟨next, ?_⟩
    intro moment
    rcases moved moment with same | advances
    · exact .inl same
    · exact .inr (advances.remaining_lt (sound (moment + 1)))
  refine ranked.reaches ActivationStep.kind ?_
  intro moment unfinished
  obtain ⟨kind, recurring, helps⟩ := (sound moment).helped worker unfinished
  refine ⟨kind, ?_, helps⟩
  rw [calls] at recurring
  rcases recurring with ⟨thread, rfl⟩ | ⟨call, made, rfl | rfl⟩
  · exact fair.runs thread
  · exact fair.takes call made
  · exact fair.wakes call made

theorem fair_activations_return_one_thread :
    let past : List (ActivationStep Unit) := [.activatePlugin "org.rdk.TextToSpeech"]
    let schedule : Nat → ActivationStep Unit := fun turn =>
      if turn % 3 = 0 then .take () 0 else if turn % 3 = 1 then .run () ⟨true, errorNone, 0⟩
      else .wake 0
    ∃ moment, (runState activationStep .started
      (past ++ (List.range moment).map schedule)).Completed := by
  intro past schedule
  refine fair_activations_return past () schedule ⟨?_, ?_, ?_, ?_⟩
  · intro moment
    simp only [schedule]
    split
    · simp [ActivationStep.kind]
    · split
      · simp [ActivationStep.kind]
      · simp [ActivationStep.kind]
  · intro call made moment
    obtain rfl : call = 0 := Nat.lt_one_iff.mp made
    exact ⟨3 * moment + 2, by omega, by simp [schedule, ActivationStep.kind, Nat.add_mod]⟩
  · intro call made moment
    obtain rfl : call = 0 := Nat.lt_one_iff.mp made
    exact ⟨3 * moment, by omega, by simp [schedule, ActivationStep.kind]⟩
  · intro thread moment
    exact ⟨3 * moment + 1, by omega, by simp [schedule, ActivationStep.kind, Nat.add_mod]⟩

end LeanResourceManager
