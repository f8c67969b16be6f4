import Mathlib.Logic.Function.Basic
import LeanResourceManager.Library.Machine
import LeanResourceManager.Library.Program

/-!
Clients calling guarded programs at the same time, one lock between them. A
schedule names the client that moves next; any completed schedule has the effect
of running the calls one after the other in the order in which they took the
lock.
-/

namespace LeanCriticalSection

open LeanMachine

variable {ι κ σ α : Type}

structure Client (κ σ α : Type) where
  pending : List κ
  current : Option (κ × LeanProgram σ α)
  answers : List (κ × α)

structure Config (ι κ σ α : Type) where
  clients : ι → Client κ σ α
  holder : Option ι
  shared : σ
  acquired : List (ι × κ)

def initial (calls : ι → List κ) (shared : σ) : Config ι κ σ α where
  clients who := { pending := calls who, current := none, answers := [] }
  holder := none
  shared := shared
  acquired := []

def Config.Completed (config : Config ι κ σ α) : Prop :=
  ∀ who, (config.clients who).pending = [] ∧ (config.clients who).current = none

theorem Config.completed_of_idle {config : Config ι κ σ α}
    (idle : ∀ who, (config.clients who).pending.isEmpty = true ∧
      (config.clients who).current.isNone = true) : config.Completed :=
  fun who => ⟨List.isEmpty_iff.mp (idle who).1, Option.isNone_iff_eq_none.mp (idle who).2⟩

def serialStep (program : κ → LeanProgram σ α) (shared : σ) (entry : ι × κ) : σ × α :=
  (program entry.2).run shared

section Activity

variable (program : κ → LeanProgram σ α)

def entered (activity : κ × LeanProgram σ α) : Bool :=
  (program activity.1).takesLock && !activity.2.takesLock

def unserved : Option (κ × LeanProgram σ α) → List κ
  | none => []
  | some activity => if entered program activity then [] else [activity.1]

def owed (shared : σ) : Option (κ × LeanProgram σ α) → List (κ × α)
  | none => []
  | some activity =>
      if entered program activity then [(activity.1, (activity.2.run shared).2)] else []

def settled (config : Config ι κ σ α) : σ :=
  match config.holder with
  | none => config.shared
  | some who =>
      match (config.clients who).current with
      | none => config.shared
      | some activity => (activity.2.run config.shared).1

/-- A call in progress is in its critical section exactly when its client holds
the lock; before that it has not started, after that it only returns. -/
def Placed (holder : Option ι) (who : ι) : Option (κ × LeanProgram σ α) → Prop
  | none => holder ≠ some who
  | some (call, rest) =>
      (holder = some who ∧ (program call).takesLock = true ∧ rest.Inside) ∨
      (holder ≠ some who ∧ rest = program call) ∨
      (holder ≠ some who ∧ (program call).takesLock = true ∧ ∃ answer, rest = .done answer)

variable {program}

theorem entered_program (call : κ) : entered program (call, program call) = false := by
  simp [entered]

theorem entered_inside {call : κ} {rest : LeanProgram σ α}
    (takes : (program call).takesLock = true) (inside : rest.Inside) :
    entered program (call, rest) = true := by
  cases rest with
  | done answer => exact inside.elim
  | atomic update next => simp [entered, takes]
  | lock next => exact inside.elim
  | unlock next => simp [entered, takes]

theorem entered_done {call : κ} {answer : α} :
    entered program (call, .done answer) = (program call).takesLock := by
  simp [entered]

theorem owed_outside {who : ι} {holder : Option ι} {current : Option (κ × LeanProgram σ α)}
    (placed : Placed program holder who current) (outside : holder ≠ some who) (before after : σ) :
    owed program before current = owed program after current := by
  match current, placed with
  | none, _ => rfl
  | some (call, rest), .inl inside => exact absurd inside.1 outside
  | some (call, rest), .inr (.inl fresh) => simp [owed, fresh.2, entered_program]
  | some (call, rest), .inr (.inr finished) =>
      obtain ⟨_, _, answer, same⟩ := finished
      subst same
      rfl

theorem placed_outside {who : ι} {before after : Option ι}
    {current : Option (κ × LeanProgram σ α)} (placed : Placed program before who current)
    (outsideBefore : before ≠ some who) (outsideAfter : after ≠ some who) :
    Placed program after who current := by
  match current, placed with
  | none, _ => exact outsideAfter
  | some (call, rest), .inl inside => exact absurd inside.1 outsideBefore
  | some (call, rest), .inr (.inl fresh) => exact .inr (.inl ⟨outsideAfter, fresh.2⟩)
  | some (call, rest), .inr (.inr finished) => exact .inr (.inr ⟨outsideAfter, finished.2⟩)

end Activity

variable [DecidableEq ι]

def Config.setClient (config : Config ι κ σ α) (who : ι) (client : Client κ σ α) :
    Config ι κ σ α :=
  { config with clients := Function.update config.clients who client }

/-- Let one client take its next step. A client that waits for the lock while
another holds it, or that has nothing left to do, stays where it is. -/
def advance (program : κ → LeanProgram σ α) (config : Config ι κ σ α) (who : ι) :
    Config ι κ σ α :=
  let client := config.clients who
  match client.current with
  | none =>
      match client.pending with
      | [] => config
      | call :: rest =>
          config.setClient who { client with pending := rest, current := some (call, program call) }
  | some (call, .done answer) =>
      config.setClient who
        { client with current := none, answers := client.answers ++ [(call, answer)] }
  | some (call, .atomic update next) =>
      { config.setClient who { client with current := some (call, next config.shared) } with
        shared := update config.shared }
  | some (call, .lock next) =>
      match config.holder with
      | none =>
          { config.setClient who { client with current := some (call, next) } with
            holder := some who
            acquired := config.acquired ++ [(who, call)] }
      | some _ => config
  | some (call, .unlock next) =>
      { config.setClient who { client with current := some (call, next) } with holder := none }

def runSchedule (program : κ → LeanProgram σ α) (config : Config ι κ σ α) (schedule : List ι) :
    Config ι κ σ α :=
  runState (fun config who => (advance program config who, ())) config schedule

def callsOf (who : ι) (order : List (ι × κ)) : List κ :=
  (order.filter fun entry => entry.1 = who).map Prod.snd

def answersOf (who : ι) (history : List ((ι × κ) × α)) : List (κ × α) :=
  (history.filter fun entry => entry.1.1 = who).map fun entry => (entry.1.2, entry.2)

@[simp] theorem callsOf_append (who : ι) (first second : List (ι × κ)) :
    callsOf who (first ++ second) = callsOf who first ++ callsOf who second := by
  simp [callsOf]

@[simp] theorem callsOf_single (who other : ι) (call : κ) :
    callsOf who [(other, call)] = if other = who then [call] else [] := by
  by_cases same : other = who <;> simp [callsOf, same]

@[simp] theorem answersOf_append (who : ι) (first second : List ((ι × κ) × α)) :
    answersOf who (first ++ second) = answersOf who first ++ answersOf who second := by
  simp [answersOf]

@[simp] theorem answersOf_single (who other : ι) (call : κ) (answer : α) :
    answersOf who [((other, call), answer)] = if other = who then [(call, answer)] else [] := by
  by_cases same : other = who <;> simp [answersOf, same]

structure Serial (program : κ → LeanProgram σ α) (calls : ι → List κ) (start : σ)
    (config : Config ι κ σ α) (order : List (ι × κ)) : Prop where
  locks : (order.filter fun entry => (program entry.2).takesLock) = config.acquired
  called : ∀ who, callsOf who order ++ unserved program (config.clients who).current ++
    (config.clients who).pending = calls who
  answered : ∀ who, (config.clients who).answers ++
      owed program config.shared (config.clients who).current =
    answersOf who (runHistory (serialStep program) start order)
  shared : settled config = runState (serialStep program) start order
  placed : ∀ who, Placed program config.holder who (config.clients who).current

variable {program : κ → LeanProgram σ α} {calls : ι → List κ} {start : σ}
  {config : Config ι κ σ α} {order : List (ι × κ)}

theorem initial_serial (calls : ι → List κ) (start : σ) :
    Serial program calls start (initial calls start) [] where
  locks := rfl
  called := by simp [initial, callsOf, unserved]
  answered := by simp [initial, answersOf, owed]
  shared := rfl
  placed := by simp [initial, Placed]

theorem settled_setClient (config : Config ι κ σ α) {who : ι} (client : Client κ σ α)
    (outside : config.holder ≠ some who) :
    settled (config.setClient who client) = settled config := by
  simp only [settled, Config.setClient]
  cases held : config.holder with
  | none => rfl
  | some holder =>
      have different : holder ≠ who := fun same => outside (by rw [held, same])
      simp [Function.update_of_ne different]

theorem Serial.invoke (serial : Serial program calls start config order) {who : ι} {call : κ}
    {rest : List κ} (idle : (config.clients who).current = none)
    (next : (config.clients who).pending = call :: rest) :
    Serial program calls start (config.setClient who
      { config.clients who with pending := rest, current := some (call, program call) }) order := by
  have outside : config.holder ≠ some who := by
    simpa [idle, Placed] using serial.placed who
  refine ⟨serial.locks, ?_, ?_, ?_, ?_⟩
  · intro other
    have called := serial.called other
    by_cases same : other = who
    · subst other
      simpa [Config.setClient, unserved, entered_program, idle, next] using called
    · simpa [Config.setClient, same] using called
  · intro other
    have answered := serial.answered other
    by_cases same : other = who
    · subst other
      simpa [Config.setClient, owed, entered_program, idle] using answered
    · simpa [Config.setClient, same] using answered
  · rw [settled_setClient config _ outside]
    exact serial.shared
  · intro other
    by_cases same : other = who
    · subst other
      simpa [Config.setClient, Placed] using .inr (.inl outside)
    · simpa [Config.setClient, same] using serial.placed other

theorem Serial.answerServed (serial : Serial program calls start config order) {who : ι} {call : κ}
    {answer : α} (current : (config.clients who).current = some (call, .done answer))
    (takes : (program call).takesLock = true) (outside : config.holder ≠ some who) :
    Serial program calls start (config.setClient who { config.clients who with
      current := none, answers := (config.clients who).answers ++ [(call, answer)] }) order := by
  refine ⟨serial.locks, ?_, ?_, ?_, ?_⟩
  · intro other
    have called := serial.called other
    by_cases same : other = who
    · subst other
      simpa [Config.setClient, unserved, current, entered_done, takes] using called
    · simpa [Config.setClient, same] using called
  · intro other
    have answered := serial.answered other
    by_cases same : other = who
    · subst other
      simpa [Config.setClient, owed, current, entered_done, takes, LeanProgram.run] using answered
    · simpa [Config.setClient, same] using answered
  · rw [settled_setClient config _ outside]
    exact serial.shared
  · intro other
    by_cases same : other = who
    · subst other
      simpa [Config.setClient, Placed] using outside
    · simpa [Config.setClient, same] using serial.placed other

theorem Serial.answerUnlocked (serial : Serial program calls start config order) {who : ι}
    {call : κ} {answer : α} (current : (config.clients who).current = some (call, .done answer))
    (returns : program call = .done answer) (outside : config.holder ≠ some who) :
    Serial program calls start (config.setClient who { config.clients who with
      current := none, answers := (config.clients who).answers ++ [(call, answer)] })
      (order ++ [(who, call)]) := by
  refine ⟨?_, ?_, ?_, ?_, ?_⟩
  · simpa [returns, Config.setClient] using serial.locks
  · intro other
    have called := serial.called other
    by_cases same : other = who
    · subst other
      simpa [Config.setClient, unserved, current, entered_done, returns] using called
    · simpa [Config.setClient, same, Ne.symm same] using called
  · intro other
    have answered := serial.answered other
    rw [runHistory_append, answersOf_append]
    by_cases same : other = who
    · subst other
      simp [Config.setClient, owed, current, entered_done, returns, serialStep, LeanProgram.run]
        at answered ⊢
      exact answered
    · simpa [Config.setClient, same, Ne.symm same] using answered
  · rw [settled_setClient config _ outside, serial.shared, runState_append]
    simp [serialStep, returns, LeanProgram.run]
  · intro other
    by_cases same : other = who
    · subst other
      simpa [Config.setClient, Placed] using outside
    · simpa [Config.setClient, same] using serial.placed other

theorem Serial.atomic (serial : Serial program calls start config order) {who : ι} {call : κ}
    {update : σ → σ} {next : σ → LeanProgram σ α}
    (current : (config.clients who).current = some (call, .atomic update next))
    (holds : config.holder = some who) (takes : (program call).takesLock = true)
    (inside : (LeanProgram.atomic update next).Inside) :
    Serial program calls start
      { config.setClient who
          { config.clients who with current := some (call, next config.shared) } with
        shared := update config.shared } order := by
  have nextInside : (next config.shared).Inside := inside config.shared
  have before := entered_inside takes inside
  have after := entered_inside takes nextInside
  refine ⟨serial.locks, ?_, ?_, ?_, ?_⟩
  · intro other
    have called := serial.called other
    by_cases same : other = who
    · subst other
      simpa [Config.setClient, unserved, current, before, after] using called
    · simpa [Config.setClient, same] using called
  · intro other
    have answered := serial.answered other
    by_cases same : other = who
    · subst other
      simpa [Config.setClient, owed, current, before, after, LeanProgram.run] using answered
    · have elsewhere : config.holder ≠ some other := by
        rw [holds]
        exact fun equal => same (Option.some.inj equal).symm
      have unchanged := owed_outside (serial.placed other) elsewhere config.shared
        (update config.shared)
      rw [unchanged] at answered
      simpa [Config.setClient, same] using answered
  · have shared := serial.shared
    simpa [settled, Config.setClient, holds, current, LeanProgram.run] using shared
  · intro other
    by_cases same : other = who
    · subst other
      simpa [Config.setClient, Placed] using .inl ⟨holds, takes, nextInside⟩
    · simpa [Config.setClient, same] using serial.placed other

theorem Serial.lock (serial : Serial program calls start config order) {who : ι} {call : κ}
    {next : LeanProgram σ α} (current : (config.clients who).current = some (call, .lock next))
    (free : config.holder = none) (fresh : program call = .lock next) (inside : next.Inside) :
    Serial program calls start
      { config.setClient who { config.clients who with current := some (call, next) } with
        holder := some who
        acquired := config.acquired ++ [(who, call)] } (order ++ [(who, call)]) := by
  have takes : (program call).takesLock = true := by simp [fresh]
  have before : entered program (call, .lock next) = false := by simp [entered]
  have after := entered_inside takes inside
  have shared : config.shared = runState (serialStep program) start order := by
    simpa [settled, free] using serial.shared
  refine ⟨?_, ?_, ?_, ?_, ?_⟩
  · simpa [takes] using serial.locks
  · intro other
    have called := serial.called other
    by_cases same : other = who
    · subst other
      simpa [Config.setClient, unserved, current, before, after] using called
    · simpa [Config.setClient, same, Ne.symm same] using called
  · intro other
    have answered := serial.answered other
    rw [runHistory_append, answersOf_append]
    by_cases same : other = who
    · subst other
      simp [owed, current, before] at answered
      simp [Config.setClient, owed, after, answered, serialStep, fresh, ← shared, LeanProgram.run]
    · simpa [Config.setClient, same, Ne.symm same] using answered
  · rw [runState_append, ← shared]
    simp [settled, Config.setClient, serialStep, fresh, LeanProgram.run]
  · intro other
    by_cases same : other = who
    · subst other
      simp [Config.setClient, Placed, takes, inside]
    · have outside : some who ≠ some other := fun equal => same (Option.some.inj equal).symm
      have placed := placed_outside (serial.placed other) (by simp [free]) outside
      simpa [Config.setClient, same] using placed

theorem Serial.unlock (serial : Serial program calls start config order) {who : ι} {call : κ}
    {answer : α} (current : (config.clients who).current = some (call, .unlock (.done answer)))
    (holds : config.holder = some who) (takes : (program call).takesLock = true) :
    Serial program calls start
      { config.setClient who
          { config.clients who with current := some (call, .done answer) } with
        holder := none } order := by
  have before : entered program (call, .unlock (.done answer)) = true := by simp [entered, takes]
  have after : entered program (call, .done answer) = true := by simp [entered, takes]
  refine ⟨serial.locks, ?_, ?_, ?_, ?_⟩
  · intro other
    have called := serial.called other
    by_cases same : other = who
    · subst other
      simpa [Config.setClient, unserved, current, before, after] using called
    · simpa [Config.setClient, same] using called
  · intro other
    have answered := serial.answered other
    by_cases same : other = who
    · subst other
      simpa [Config.setClient, owed, current, before, after, LeanProgram.run] using answered
    · simpa [Config.setClient, same] using answered
  · have shared := serial.shared
    simpa [settled, Config.setClient, holds, current, LeanProgram.run] using shared
  · intro other
    by_cases same : other = who
    · subst other
      simp [Config.setClient, Placed, takes]
    · have elsewhere : config.holder ≠ some other := by
        rw [holds]
        exact fun equal => same (Option.some.inj equal).symm
      have free : (none : Option ι) ≠ some other := by simp
      have placed := placed_outside (serial.placed other) elsewhere free
      simpa [Config.setClient, same] using placed

theorem Serial.advance (guarded : ∀ call, (program call).Guarded)
    (serial : Serial program calls start config order) (who : ι) :
    ∃ more, Serial program calls start (advance program config who) (order ++ more) := by
  have placed := serial.placed who
  have unchanged : ∀ {next : Config ι κ σ α}, Serial program calls start next order →
      ∃ more, Serial program calls start next (order ++ more) :=
    fun stays => ⟨[], by rwa [List.append_nil]⟩
  simp only [LeanCriticalSection.advance]
  cases current : (config.clients who).current with
  | none =>
      cases next : (config.clients who).pending with
      | nil => exact unchanged serial
      | cons call rest => exact unchanged (serial.invoke current next)
  | some activity =>
      obtain ⟨call, rest⟩ := activity
      rw [current] at placed
      rcases placed with ⟨holds, takes, inside⟩ | ⟨outside, fresh⟩ | ⟨outside, takes, answer, ended⟩
      · -- inside the critical section
        cases rest with
        | done answer => exact inside.elim
        | atomic update next => exact unchanged (serial.atomic current holds takes inside)
        | lock next => exact inside.elim
        | unlock next =>
            obtain ⟨answer, returns⟩ := inside
            subst next
            exact unchanged (serial.unlock current holds takes)
      · -- not started: a guarded program returns at once or asks for the lock
        have shape := guarded call
        rw [← fresh] at shape
        cases rest with
        | done answer => exact ⟨_, serial.answerUnlocked current fresh.symm outside⟩
        | atomic update next => exact shape.elim
        | lock next =>
            cases free : config.holder with
            | none => exact ⟨_, serial.lock current free fresh.symm shape⟩
            | some other => exact unchanged serial
        | unlock next => exact shape.elim
      · subst rest
        exact unchanged (serial.answerServed current takes outside)

/-- The order of a run only grows: at each moment of the run it was a first part of the
order at the end. -/
theorem Serial.run_moments (guarded : ∀ call, (program call).Guarded)
    (serial : Serial program calls start config order) (schedule : List ι) :
    ∃ more, Serial program calls start (runSchedule program config schedule) (order ++ more) ∧
      ∀ past future, schedule = past ++ future → ∃ before after, more = before ++ after ∧
        Serial program calls start (runSchedule program config past) (order ++ before) := by
  induction schedule generalizing config order with
  | nil =>
      have now : Serial program calls start config (order ++ []) := by rwa [List.append_nil]
      refine ⟨[], now, ?_⟩
      intro past future split
      obtain ⟨rfl, rfl⟩ := List.append_eq_nil_iff.mp split.symm
      exact ⟨[], [], rfl, now⟩
  | cons who rest ih =>
      obtain ⟨first, stepped⟩ := serial.advance guarded who
      obtain ⟨later, ended, moments⟩ := ih stepped
      refine ⟨first ++ later, by rwa [← List.append_assoc], ?_⟩
      intro past future split
      cases past with
      | nil => exact ⟨[], first ++ later, rfl, by rwa [List.append_nil]⟩
      | cons mover past =>
          obtain ⟨same, tails⟩ := List.cons.inj split
          subst mover
          obtain ⟨before, after, parts, reached⟩ := moments past future tails
          refine ⟨first ++ before, after, by rw [parts, List.append_assoc], ?_⟩
          rw [← List.append_assoc]
          exact reached

theorem Serial.run (guarded : ∀ call, (program call).Guarded)
    (serial : Serial program calls start config order) (schedule : List ι) :
    ∃ final, Serial program calls start (runSchedule program config schedule) final := by
  obtain ⟨more, ended, _⟩ := serial.run_moments guarded schedule
  exact ⟨order ++ more, ended⟩

theorem Serial.unlocked (serial : Serial program calls start config order)
    (completed : config.Completed) : config.holder = none := by
  cases held : config.holder with
  | none => rfl
  | some who =>
      have placed := serial.placed who
      rw [(completed who).2] at placed
      exact absurd held placed

theorem Serial.completed (serial : Serial program calls start config order)
    (completed : config.Completed) :
    (∀ who, callsOf who order = calls who) ∧
      config.shared = runState (serialStep program) start order ∧
      ∀ who, (config.clients who).answers =
        answersOf who (runHistory (serialStep program) start order) := by
  have free := serial.unlocked completed
  refine ⟨?_, ?_, ?_⟩
  · intro who
    simpa [(completed who).1, (completed who).2, unserved] using serial.called who
  · simpa [settled, free] using serial.shared
  · intro who
    simpa [(completed who).2, owed] using serial.answered who

/-- Every completed schedule of guarded programs is equivalent to a serial run of
the same calls, in which the calls that take the lock appear in the order in
which they took it. -/
theorem serializable (guarded : ∀ call, (program call).Guarded) (calls : ι → List κ) (start : σ)
    (schedule : List ι)
    (completed : (runSchedule program (initial calls start) schedule).Completed) :
    ∃ order : List (ι × κ),
      (order.filter fun entry => (program entry.2).takesLock) =
        (runSchedule program (initial calls start) schedule).acquired ∧
      (∀ who, callsOf who order = calls who) ∧
      (runSchedule program (initial calls start) schedule).shared =
        runState (serialStep program) start order ∧
      ∀ who, ((runSchedule program (initial calls start) schedule).clients who).answers =
        answersOf who (runHistory (serialStep program) start order) := by
  obtain ⟨order, serial⟩ := (initial_serial calls start).run guarded schedule
  exact ⟨order, serial.locks, serial.completed completed⟩

theorem answersOf_calls (who : ι) (start : σ) (order : List (ι × κ)) :
    (answersOf who (runHistory (serialStep program) start order)).map Prod.fst =
      callsOf who order := by
  induction order generalizing start with
  | nil => rfl
  | cons entry rest ih =>
      have later := ih (serialStep program start entry).1
      simp only [answersOf, callsOf, List.map_map] at later ⊢
      by_cases same : entry.1 = who
      · simpa [same] using later
      · simpa [same] using later

theorem Serial.answered_first (serial : Serial program calls start config order) (who : ι) :
    (config.clients who).answers.map Prod.fst <+: callsOf who order := by
  have answered := congrArg (List.map Prod.fst) (serial.answered who)
  rw [answersOf_calls, List.map_append] at answered
  exact ⟨_, answered⟩

/-- The serial run can be chosen so that it respects the time at which calls are made:
at each moment it splits into two parts, every call answered by then lying in the
first, every call not yet made lying in the second. -/
theorem linearizable (guarded : ∀ call, (program call).Guarded) (calls : ι → List κ) (start : σ)
    (schedule : List ι)
    (completed : (runSchedule program (initial calls start) schedule).Completed) :
    ∃ order : List (ι × κ),
      ((∀ who, callsOf who order = calls who) ∧
        (runSchedule program (initial calls start) schedule).shared =
          runState (serialStep program) start order ∧
        ∀ who, ((runSchedule program (initial calls start) schedule).clients who).answers =
          answersOf who (runHistory (serialStep program) start order)) ∧
      ∀ past future, schedule = past ++ future → ∃ before after, order = before ++ after ∧
        ∀ who, ((runSchedule program (initial calls start) past).clients who).answers.map
            Prod.fst <+: callsOf who before ∧
          ((runSchedule program (initial calls start) past).clients who).pending <:+
            callsOf who after := by
  obtain ⟨order, ended, moments⟩ := (initial_serial calls start).run_moments guarded schedule
  simp only [List.nil_append] at ended moments
  have whole := ended.completed completed
  refine ⟨order, whole, ?_⟩
  intro past future split
  obtain ⟨before, after, parts, reached⟩ := moments past future split
  refine ⟨before, after, parts, fun who => ⟨reached.answered_first who, ?_⟩⟩
  have all := whole.1 who
  have now := reached.called who
  rw [parts, callsOf_append] at all
  rw [← all, List.append_assoc, List.append_cancel_left_eq] at now
  exact ⟨_, now⟩

end LeanCriticalSection
