import LeanResourceManager.Library.Machine
import LeanResourceManager.Library.Program

/-!
A program that is watched while it runs. Observers read the state between the steps of
the program and report what they find. They start only while a gate is open, and a step
that closes the gate waits until no observer is left.
-/

/-- Every step that the program takes when it runs alone relates the state before it to
the state after it. -/
def LeanProgram.Steps {σ α : Type} (related : σ → σ → Prop) : LeanProgram σ α → σ → Prop
  | .done _, _ => True
  | .atomic update next, state =>
      related state (update state) ∧ (next state).Steps related (update state)
  | .lock next, state => next.Steps related state
  | .unlock next, state => next.Steps related state

namespace LeanProgram

variable {σ α β : Type} {related : σ → σ → Prop}

@[simp] theorem steps_pure (result : α) (state : σ) :
    (pure result : LeanProgram σ α).Steps related state := trivial

@[simp] theorem steps_modify (update : σ → σ) (state : σ) :
    (modify update : LeanProgram σ Unit).Steps related state ↔ related state (update state) :=
  and_iff_left trivial

@[simp] theorem steps_read (state : σ) :
    (read : LeanProgram σ σ).Steps related state ↔ related state state := and_iff_left trivial

@[simp] theorem steps_bind (program : LeanProgram σ α) (continuation : α → LeanProgram σ β)
    (state : σ) :
    (program >>= continuation).Steps related state ↔
      program.Steps related state ∧
        (continuation (program.run state).2).Steps related (program.run state).1 := by
  change (program.bind continuation).Steps related state ↔ _
  induction program generalizing state with
  | done result => exact (and_iff_right trivial).symm
  | atomic update next ih =>
      have rest := ih state (update state)
      simp only [LeanProgram.bind, LeanProgram.Steps, LeanProgram.run, rest, and_assoc]
  | lock next ih => exact ih state
  | unlock next ih => exact ih state

@[simp] theorem steps_map (result : α → β) (program : LeanProgram σ α) (state : σ) :
    (result <$> program).Steps related state ↔ program.Steps related state := by
  rw [map_eq_pure_bind, steps_bind]
  exact and_iff_left trivial

end LeanProgram

namespace LeanGate

open LeanMachine

variable {κ σ ο ν : Type}

inductive Observer (σ ο : Type) where
  | finished
  | look (report : σ → Option ο) (next : σ → Observer σ ο)

/-- From an observer to what is left of it, when it made these reports in these states. -/
def Observer.Traced (good : σ → Prop) :
    Observer σ ο → List (σ × Option ο) → Observer σ ο → Prop
  | observer, [], left => observer = left
  | .finished, _ :: _, _ => False
  | .look report next, (state, result) :: trace, left =>
      good state ∧ result = report state ∧ (next state).Traced good trace left

structure Visit (κ σ ο : Type) where
  key : κ
  left : Observer σ ο
  trace : List (σ × Option ο)

def Visit.reports (visit : Visit κ σ ο) : List ο := visit.trace.filterMap Prod.snd

structure Watched (κ σ ο : Type) where
  state : σ
  program : LeanProgram σ Unit
  running : List (Visit κ σ ο)
  ended : List (Visit κ σ ο)

def Watched.started (program : LeanProgram σ Unit) (state : σ) : Watched κ σ ο where
  state := state
  program := program
  running := []
  ended := []

variable (isOpen : σ → Bool)

def Watched.advance (watched : Watched κ σ ο) : Watched κ σ ο :=
  match watched.program with
  | .done _ => watched
  | .lock next => { watched with program := next }
  | .unlock next => { watched with program := next }
  | .atomic update next =>
      if isOpen (update watched.state) || watched.running.isEmpty then
        { watched with state := update watched.state, program := next watched.state }
      else watched

/-- A step keeps the property, and the view too unless it opens or closes the gate. -/
def Kept (property : σ → Prop) (view : σ → ν) (before after : σ) : Prop :=
  property after ∧ (isOpen before = true → isOpen after = true → view after = view before)

structure Shows (property : σ → Prop) (view : σ → ν) (shown : ν) (state : σ) : Prop where
  gate : isOpen state = true
  holds : property state
  same : view state = shown

/-- While an observer is left, the gate is open and the view is the one it started with. -/
structure Watched.Safe (observer : κ → Observer σ ο) (property : σ → Prop) (view : σ → ν)
    (watched : Watched κ σ ο) : Prop where
  holds : property watched.state
  steps : watched.program.Steps (Kept isOpen property view) watched.state
  gate : watched.running ≠ [] → isOpen watched.state = true
  running : ∀ visit ∈ watched.running, (observer visit.key).Traced
    (Shows isOpen property view (view watched.state)) visit.trace visit.left
  ended : ∀ visit ∈ watched.ended, visit.left = .finished ∧ ∃ state, isOpen state = true ∧
    (observer visit.key).Traced (Shows isOpen property view (view state)) visit.trace visit.left

variable {isOpen} {observer : κ → Observer σ ο} {property : σ → Prop} {view : σ → ν}
  {watched : Watched κ σ ο}

theorem Observer.Traced.look {good : σ → Prop} {first : Observer σ ο}
    {trace : List (σ × Option ο)} {report : σ → Option ο} {next : σ → Observer σ ο}
    (traced : first.Traced good trace (.look report next)) {state : σ} (found : good state) :
    first.Traced good (trace ++ [(state, report state)]) (next state) := by
  induction trace generalizing first with
  | nil =>
      simp only [Observer.Traced] at traced
      rw [traced]
      exact ⟨found, rfl, by simp only [Observer.Traced]⟩
  | cons read rest ih =>
      cases first with
      | finished => exact traced.elim
      | look earlier later => exact ⟨traced.1, traced.2.1, ih traced.2.2⟩

theorem Observer.Traced.found {good : σ → Prop} {first left : Observer σ ο}
    {trace : List (σ × Option ο)} (traced : first.Traced good trace left) :
    ∀ read ∈ trace, good read.1 := by
  induction trace generalizing first with
  | nil => simp
  | cons read rest ih =>
      cases first with
      | finished => exact traced.elim
      | look earlier later =>
          intro other member
          rcases List.mem_cons.mp member with same | among
          · exact same ▸ traced.1
          · exact ih traced.2.2 other among

theorem Watched.Safe.advance (safe : watched.Safe isOpen observer property view) :
    (watched.advance isOpen).Safe isOpen observer property view := by
  have steps := safe.steps
  simp only [Watched.advance]
  split
  · exact safe
  · rename_i next program
    rw [program] at steps
    exact ⟨safe.holds, steps, safe.gate, safe.running, safe.ended⟩
  · rename_i next program
    rw [program] at steps
    exact ⟨safe.holds, steps, safe.gate, safe.running, safe.ended⟩
  · rename_i update next program
    rw [program] at steps
    split
    · rename_i passes
      have opened : watched.running ≠ [] → isOpen (update watched.state) = true := by
        intro left
        simpa [left] using passes
      refine ⟨steps.1.1, steps.2, opened, ?_, safe.ended⟩
      intro visit member
      have left : watched.running ≠ [] := List.ne_nil_of_mem member
      have same : view (update watched.state) = view watched.state :=
        steps.1.2 (safe.gate left) (opened left)
      change (observer visit.key).Traced (Shows isOpen property view (view (update watched.state)))
        visit.trace visit.left
      rw [same]
      exact safe.running visit member
    · exact safe

theorem Watched.Safe.start (safe : watched.Safe isOpen observer property view)
    (opened : isOpen watched.state = true) (key : κ) :
    Watched.Safe isOpen observer property view
      { watched with running := watched.running ++ [⟨key, observer key, []⟩] } := by
  refine ⟨safe.holds, safe.steps, fun _ => opened, ?_, safe.ended⟩
  intro visit member
  rcases List.mem_append.mp member with old | new
  · exact safe.running visit old
  · rw [List.mem_singleton.mp new]
    simp only [Observer.Traced]

end LeanGate
