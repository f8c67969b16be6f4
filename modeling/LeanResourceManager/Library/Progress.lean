import Mathlib.Data.DFinsupp.WellFounded
import Mathlib.SetTheory.Ordinal.Family
import LeanResourceManager.Library.CriticalSection
import LeanResourceManager.Library.Fairness

/-!
Schedules of guarded programs end: the work that is left never grows, and a client
that can move is left in every configuration that is not completed.
-/

/-- The work of a program, whatever it reads; the branches of an access are as many as
the states, so it is an ordinal. -/
noncomputable def LeanProgram.work {σ α : Type} : LeanProgram σ α → Ordinal.{0}
  | .done _ => 0
  | .atomic _ next => ⨆ state, (next state).work + 1
  | .lock next => next.work + 1
  | .unlock next => next.work + 1

theorem LeanProgram.work_next {σ α : Type} (update : σ → σ) (next : σ → LeanProgram σ α)
    (state : σ) : (next state).work < (LeanProgram.atomic update next).work :=
  Ordinal.lt_iSup_add_one (fun state => (next state).work) state

namespace LeanCriticalSection

open LeanMachine LeanFairness

variable {ι κ σ α : Type} {program : κ → LeanProgram σ α}

noncomputable def pendingWork (program : κ → LeanProgram σ α) : List κ → Ordinal.{0}
  | [] => 0
  | call :: rest => pendingWork program rest + ((program call).work + 1 + 1)

noncomputable def currentWork : Option (κ × LeanProgram σ α) → Ordinal.{0}
  | none => 0
  | some activity => activity.2.work + 1

noncomputable def Client.work (program : κ → LeanProgram σ α) (client : Client κ σ α) :
    Ordinal.{0} :=
  pendingWork program client.pending + currentWork client.current

noncomputable def Config.work (program : κ → LeanProgram σ α) (config : Config ι κ σ α) :
    ι → Ordinal.{0} :=
  fun who => (config.clients who).work program

theorem Client.work_current (client : Client κ σ α)
    {before : Option (κ × LeanProgram σ α)} (was : client.current = before)
    {after : Option (κ × LeanProgram σ α)} (less : currentWork after < currentWork before)
    (answers : List (κ × α)) :
    ({ client with current := after, answers := answers } : Client κ σ α).work program <
      client.work program := by
  simp only [Client.work, was]
  exact add_lt_add_right less _

variable [DecidableEq ι]

theorem Config.work_lt (config : Config ι κ σ α) {who : ι} {client : Client κ σ α}
    (less : client.work program < (config.clients who).work program) :
    (config.setClient who client).work program < config.work program := by
  have updated : (config.setClient who client).work program =
      Function.update (config.work program) who (client.work program) := by
    funext other
    by_cases same : other = who
    · subst other
      simp [Config.work, Config.setClient]
    · simp [Config.work, Config.setClient, same]
  rw [updated]
  exact update_lt_self_iff.mpr less

/-- A client that cannot move: it has nothing left to do, or another holds the lock. -/
def Config.Waits (config : Config ι κ σ α) (who : ι) : Prop :=
  match (config.clients who).current with
  | none => (config.clients who).pending = []
  | some (_, .lock _) => config.holder ≠ none
  | some _ => False

theorem advance_waiting {config : Config ι κ σ α} {who : ι} (waits : config.Waits who) :
    advance program config who = config := by
  simp only [Config.Waits] at waits
  simp only [advance]
  cases current : (config.clients who).current with
  | none =>
      rw [current] at waits
      rw [waits]
  | some activity =>
      obtain ⟨call, rest⟩ := activity
      rw [current] at waits
      cases rest with
      | lock next =>
          cases held : config.holder with
          | none => exact absurd held waits
          | some other => rfl
      | _ => exact waits.elim

theorem work_advance {config : Config ι κ σ α} {who : ι} (moves : ¬config.Waits who) :
    (advance program config who).work program < config.work program := by
  simp only [Config.Waits] at moves
  simp only [advance]
  cases current : (config.clients who).current with
  | none =>
      rw [current] at moves
      cases next : (config.clients who).pending with
      | nil => exact absurd next moves
      | cons call rest =>
          apply Config.work_lt
          have invoked : (program call).work + 1 < (program call).work + 1 + 1 := lt_add_one _
          simp only [Client.work, current, next, pendingWork, currentWork, add_zero]
          exact add_lt_add_right invoked _
  | some activity =>
      obtain ⟨call, rest⟩ := activity
      rw [current] at moves
      cases rest with
      | done answer =>
          refine Config.work_lt config (Client.work_current _ current ?_ _)
          simp [currentWork]
      | atomic update next =>
          refine Config.work_lt config (Client.work_current _ current ?_ _)
          simpa [currentWork] using LeanProgram.work_next update next config.shared
      | lock next =>
          cases held : config.holder with
          | none =>
              refine Config.work_lt config (Client.work_current _ current ?_ _)
              exact lt_add_one _
          | some other => simp [held] at moves
      | unlock next =>
          refine Config.work_lt config (Client.work_current _ current ?_ _)
          exact lt_add_one _

/-- No deadlock: while calls are left, the client that holds the lock can move, and if
none holds it, every client that has a call left can. -/
theorem Serial.moves {calls : ι → List κ} {start : σ} {config : Config ι κ σ α}
    {order : List (ι × κ)} (serial : Serial program calls start config order)
    (unfinished : ¬config.Completed) : ∃ who, ¬config.Waits who := by
  cases held : config.holder with
  | some who =>
      refine ⟨who, ?_⟩
      have placed := serial.placed who
      simp only [Config.Waits]
      cases current : (config.clients who).current with
      | none =>
          rw [current] at placed
          exact absurd held placed
      | some activity =>
          obtain ⟨call, rest⟩ := activity
          rw [current] at placed
          rcases placed with ⟨_, _, inside⟩ | ⟨outside, _⟩ | ⟨outside, _⟩
          · cases rest with
            | lock next => exact inside.elim
            | _ => exact id
          · exact absurd held outside
          · exact absurd held outside
  | none =>
      obtain ⟨who, busy⟩ := not_forall.mp unfinished
      refine ⟨who, ?_⟩
      simp only [Config.Waits]
      cases current : (config.clients who).current with
      | none => exact fun idle => busy ⟨idle, current⟩
      | some activity =>
          obtain ⟨call, rest⟩ := activity
          cases rest with
          | lock next => exact fun waits => waits held
          | _ => exact id

/-! Fair schedules: every client gets its turn again and again. -/

def Fair (schedule : Nat → ι) : Prop := ∀ who, Recurs id schedule who

def configAt (program : κ → LeanProgram σ α) (config : Config ι κ σ α) (schedule : Nat → ι)
    (moment : Nat) : Config ι κ σ α :=
  runSchedule program config ((List.range moment).map schedule)

theorem configAt_succ (config : Config ι κ σ α) (schedule : Nat → ι) (moment : Nat) :
    configAt program config schedule (moment + 1) =
      advance program (configAt program config schedule moment) (schedule moment) := by
  simp [configAt, runSchedule, List.range_succ, runState_append]

/-- Under a fair schedule finitely many clients complete all their calls, each answered
in turn, and leave the lock free. -/
theorem fair_completes [Finite ι] (guarded : ∀ call, (program call).Guarded)
    (calls : ι → List κ) (start : σ) {schedule : Nat → ι} (fair : Fair schedule) :
    ∃ moment, let final := configAt program (initial calls start) schedule moment
      final.Completed ∧ final.holder = none ∧
      ∀ who, (final.clients who).answers.map Prod.fst = calls who := by
  have reached : ∀ moment, ∃ order, Serial program calls start
      (configAt program (initial calls start) schedule moment) order :=
    fun moment => (initial_serial calls start).run guarded _
  have ranked : Ranked (advance program) schedule
      (configAt program (initial calls start) schedule) (Config.work program) := by
    refine ⟨configAt_succ _ schedule, ?_⟩
    intro moment
    rw [configAt_succ]
    by_cases waits : (configAt program (initial calls start) schedule moment).Waits
        (schedule moment)
    · exact .inl (advance_waiting waits)
    · exact .inr (work_advance waits)
  have helped : ∀ moment,
      ¬(configAt program (initial calls start) schedule moment).Completed →
      ∃ who, Recurs id schedule who ∧ Helps (advance program) id (Config.work program)
        (configAt program (initial calls start) schedule moment) who := by
    intro moment unfinished
    obtain ⟨order, serial⟩ := reached moment
    obtain ⟨who, moves⟩ := serial.moves unfinished
    refine ⟨who, fair who, ?_⟩
    rintro turn rfl
    exact work_advance moves
  obtain ⟨moment, completed⟩ := ranked.reaches id helped
  obtain ⟨order, serial⟩ := reached moment
  obtain ⟨called, _, answered⟩ := serial.completed completed
  refine ⟨moment, completed, serial.unlocked completed, ?_⟩
  intro who
  rw [answered who, answersOf_calls, called who]

end LeanCriticalSection
