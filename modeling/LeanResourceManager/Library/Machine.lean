import Mathlib.Data.List.Basic

/-!
Runs of a deterministic input/output machine: a step function takes a state and
an input to the next state and an output. The rules below lift what one step
preserves to whole runs, to whole histories and to pairs of runs.
-/

namespace LeanMachine

variable {σ τ ι ο : Type}

def runState (step : σ → ι → σ × ο) (state : σ) : List ι → σ
  | [] => state
  | input :: rest => runState step (step state input).1 rest

def runHistory (step : σ → ι → σ × ο) (state : σ) : List ι → List (ι × ο)
  | [] => []
  | input :: rest => (input, (step state input).2) :: runHistory step (step state input).1 rest

@[simp] theorem runState_nil (step : σ → ι → σ × ο) (state : σ) :
    runState step state [] = state := rfl

@[simp] theorem runHistory_nil (step : σ → ι → σ × ο) (state : σ) :
    runHistory step state [] = [] := rfl

@[simp] theorem runState_cons (step : σ → ι → σ × ο) (state : σ) (input : ι) (rest : List ι) :
    runState step state (input :: rest) = runState step (step state input).1 rest := rfl

@[simp] theorem runHistory_cons (step : σ → ι → σ × ο) (state : σ) (input : ι) (rest : List ι) :
    runHistory step state (input :: rest) =
      (input, (step state input).2) :: runHistory step (step state input).1 rest := rfl

theorem runState_append (step : σ → ι → σ × ο) (state : σ) (first second : List ι) :
    runState step state (first ++ second) = runState step (runState step state first) second := by
  induction first generalizing state with
  | nil => rfl
  | cons input rest ih => exact ih (step state input).1

theorem runHistory_append (step : σ → ι → σ × ο) (state : σ) (first second : List ι) :
    runHistory step state (first ++ second) =
      runHistory step state first ++ runHistory step (runState step state first) second := by
  induction first generalizing state with
  | nil => rfl
  | cons input rest ih => exact congrArg (_ :: ·) (ih (step state input).1)

theorem runState_invariant {step : σ → ι → σ × ο} {allowed : ι → Prop} {invariant : σ → Prop}
    (preserved : ∀ state input, allowed input → invariant state → invariant (step state input).1)
    {state : σ} (initial : invariant state) {inputs : List ι}
    (inputsAllowed : ∀ input ∈ inputs, allowed input) :
    invariant (runState step state inputs) := by
  induction inputs generalizing state with
  | nil => exact initial
  | cons input rest ih =>
      have next := preserved state input (inputsAllowed input (by simp)) initial
      exact ih next (fun later member => inputsAllowed later (by simp [member]))

theorem runHistory_invariant {step : σ → ι → σ × ο} {allowed : ι → Prop}
    {related : List (ι × ο) → σ → Prop}
    (preserved : ∀ past state input, allowed input → related past state →
      related (past ++ [(input, (step state input).2)]) (step state input).1)
    {past : List (ι × ο)} {state : σ} (initial : related past state) {inputs : List ι}
    (inputsAllowed : ∀ input ∈ inputs, allowed input) :
    related (past ++ runHistory step state inputs) (runState step state inputs) := by
  induction inputs generalizing past state with
  | nil => simpa using initial
  | cons input rest ih =>
      have next := preserved past state input (inputsAllowed input (by simp)) initial
      have finished := ih next (fun later member => inputsAllowed later (by simp [member]))
      simpa using finished

def Throughout (step : σ → ι → σ × ο) (property : σ → Prop) (state : σ) : List ι → Prop
  | [] => property state
  | input :: rest => property state ∧ Throughout step property (step state input).1 rest

def StepsMeet (step : σ → ι → σ × ο) (condition : σ → ι → Prop) (state : σ) : List ι → Prop
  | [] => True
  | input :: rest => condition state input ∧ StepsMeet step condition (step state input).1 rest

theorem Throughout.now {step : σ → ι → σ × ο} {property : σ → Prop} {state : σ} {inputs : List ι}
    (throughout : Throughout step property state inputs) : property state := by
  cases inputs with
  | nil => exact throughout
  | cons input rest => exact throughout.1

theorem throughout_of_invariant {step : σ → ι → σ × ο} {allowed : ι → Prop}
    {invariant property : σ → Prop}
    (preserved : ∀ state input, allowed input → invariant state → invariant (step state input).1)
    (holds : ∀ state, invariant state → property state)
    {state : σ} (initial : invariant state) {inputs : List ι}
    (inputsAllowed : ∀ input ∈ inputs, allowed input) :
    Throughout step property state inputs := by
  induction inputs generalizing state with
  | nil => exact holds state initial
  | cons input rest ih =>
      have next := preserved state input (inputsAllowed input (by simp)) initial
      exact ⟨holds state initial, ih next fun later member => inputsAllowed later (by simp [member])⟩

/-- When a step keeps the property exactly if it meets the condition, the
property holds throughout a run exactly if all its steps meet the condition. -/
theorem throughout_iff_stepsMeet {step : σ → ι → σ × ο} {allowed : ι → Prop}
    {invariant property : σ → Prop} {condition : σ → ι → Prop}
    (preserved : ∀ state input, allowed input → invariant state → invariant (step state input).1)
    (exact : ∀ state input, allowed input → invariant state → property state →
      (property (step state input).1 ↔ condition state input))
    {state : σ} (initial : invariant state) (holds : property state) {inputs : List ι}
    (inputsAllowed : ∀ input ∈ inputs, allowed input) :
    Throughout step property state inputs ↔ StepsMeet step condition state inputs := by
  induction inputs generalizing state with
  | nil => simpa [Throughout, StepsMeet] using holds
  | cons input rest ih =>
      have now := inputsAllowed input (by simp)
      have later : ∀ later ∈ rest, allowed later :=
        fun later member => inputsAllowed later (by simp [member])
      have step := exact state input now initial holds
      simp only [Throughout, StepsMeet, holds, true_and]
      constructor
      · intro throughout
        have next := throughout.now
        exact ⟨step.mp next, (ih (preserved _ _ now initial) next later).mp throughout⟩
      · rintro ⟨met, rest⟩
        have next := step.mpr met
        exact (ih (preserved _ _ now initial) next later).mpr rest

theorem stepsMeet_congr {step : σ → ι → σ × ο} {first second : σ → ι → Prop}
    (same : ∀ state input, first state input ↔ second state input) (state : σ) (inputs : List ι) :
    StepsMeet step first state inputs ↔ StepsMeet step second state inputs := by
  induction inputs generalizing state with
  | nil => exact Iff.rfl
  | cons input rest ih => exact and_congr (same state input) (ih (step state input).1)

theorem stepsMeet_of_invariant {step : σ → ι → σ × ο} {allowed : ι → Prop}
    {invariant : σ → Prop} {condition : σ → ι → Prop}
    (preserved : ∀ state input, allowed input → invariant state → invariant (step state input).1)
    (meets : ∀ state input, allowed input → invariant state → condition state input)
    {state : σ} (initial : invariant state) {inputs : List ι}
    (inputsAllowed : ∀ input ∈ inputs, allowed input) :
    StepsMeet step condition state inputs := by
  induction inputs generalizing state with
  | nil => trivial
  | cons input rest ih =>
      have now := inputsAllowed input (by simp)
      refine ⟨meets state input now initial, ?_⟩
      exact ih (preserved state input now initial)
        (fun later member => inputsAllowed later (by simp [member]))

/-- A run whose steps all meet a condition keeps what such a step keeps, and meets
whatever follows from the two at each step. -/
theorem StepsMeet.carries {step : σ → ι → σ × ο} {condition other : σ → ι → Prop}
    {invariant : σ → Prop}
    (preserved : ∀ state input, condition state input → invariant state →
      invariant (step state input).1)
    (follows : ∀ state input, condition state input → invariant state → other state input)
    {state : σ} (initial : invariant state) {inputs : List ι}
    (met : StepsMeet step condition state inputs) :
    StepsMeet step other state inputs ∧ invariant (runState step state inputs) := by
  induction inputs generalizing state with
  | nil => exact ⟨trivial, initial⟩
  | cons input rest ih =>
      obtain ⟨now, later⟩ := met
      obtain ⟨others, ended⟩ := ih (preserved state input now initial) later
      exact ⟨⟨follows state input now initial, others⟩, ended⟩

section Unwinding

variable {left : σ → ι → σ × ο} {right : τ → ι → τ × ο} {visible : ι → Bool}
  {related : σ → τ → Prop}

/-- Unwinding: if hidden inputs on either side keep two states related, and a
visible input given to both keeps them related and is answered alike, then runs
with the same visible inputs end related and answer them alike. -/
theorem unwinding
    (hiddenLeft : ∀ l r input, visible input = false → related l r → related (left l input).1 r)
    (hiddenRight : ∀ l r input, visible input = false → related l r → related l (right r input).1)
    (matched : ∀ l r input, visible input = true → related l r →
      related (left l input).1 (right r input).1 ∧ (left l input).2 = (right r input).2)
    {l : σ} {r : τ} (initial : related l r) {lefts rights : List ι}
    (same : lefts.filter visible = rights.filter visible) :
    related (runState left l lefts) (runState right r rights) ∧
      (runHistory left l lefts).filter (fun entry => visible entry.1) =
        (runHistory right r rights).filter (fun entry => visible entry.1) := by
  induction lefts generalizing l r rights with
  | nil =>
      induction rights generalizing r with
      | nil => exact ⟨initial, rfl⟩
      | cons input rest ih =>
          cases seen : visible input with
          | true => simp [seen] at same
          | false =>
              simp only [List.filter_nil, List.filter_cons, seen, Bool.false_eq_true,
                if_false] at same
              have finished := ih (hiddenRight l r input seen initial) (by simpa using same)
              simpa [seen] using finished
  | cons input rest ih =>
      cases seen : visible input with
      | false =>
          simp only [List.filter_cons, seen, Bool.false_eq_true, if_false] at same
          have finished := ih (hiddenLeft l r input seen initial) same
          simpa [seen] using finished
      | true =>
          -- the right run first passes over its hidden inputs
          induction rights generalizing r with
          | nil => simp [seen] at same
          | cons other others ihRight =>
              cases seenOther : visible other with
              | false =>
                  have skipped := hiddenRight l r other seenOther initial
                  have finished := ihRight skipped (by simpa [seenOther] using same)
                  simpa [seenOther] using finished
              | true =>
                  simp only [List.filter_cons, seen, seenOther, if_true, List.cons.injEq] at same
                  obtain ⟨equal, tails⟩ := same
                  subst other
                  obtain ⟨next, answers⟩ := matched l r input seen initial
                  obtain ⟨ended, histories⟩ := ih next tails
                  refine ⟨ended, ?_⟩
                  simp [seen, answers, histories]

end Unwinding

/-- Refinement: if hidden inputs keep the abstract state, and a visible input is answered
alike by both machines, a run of the first answers its visible inputs as the second
machine does when it is given only these. -/
theorem refinement {left : σ → ι → σ × ο} {right : τ → ι → τ × ο} {allowed : ι → Prop}
    {visible : ι → Bool} {related : σ → τ → Prop}
    (hidden : ∀ l r input, allowed input → visible input = false → related l r →
      related (left l input).1 r)
    (matched : ∀ l r input, allowed input → visible input = true → related l r →
      related (left l input).1 (right r input).1 ∧ (left l input).2 = (right r input).2)
    {l : σ} {r : τ} (initial : related l r) {inputs : List ι}
    (inputsAllowed : ∀ input ∈ inputs, allowed input) :
    related (runState left l inputs) (runState right r (inputs.filter visible)) ∧
      (runHistory left l inputs).filter (fun entry => visible entry.1) =
        runHistory right r (inputs.filter visible) := by
  induction inputs generalizing l r with
  | nil => exact ⟨initial, rfl⟩
  | cons input rest ih =>
      have now := inputsAllowed input (by simp)
      have later : ∀ other ∈ rest, allowed other :=
        fun other member => inputsAllowed other (by simp [member])
      cases seen : visible input with
      | false =>
          have finished := ih (hidden l r input now seen initial) later
          simpa [seen] using finished
      | true =>
          obtain ⟨next, answers⟩ := matched l r input now seen initial
          obtain ⟨ended, histories⟩ := ih next later
          simp only [List.filter_cons, seen, if_true, runState_cons, runHistory_cons]
          exact ⟨ended, by rw [histories, answers]⟩

end LeanMachine
