import Mathlib.Logic.Basic

/-!
Loops with exits. One pass of a loop ends in a state for the next pass or in the
result that the loop leaves with; a run takes at most as many passes as it has fuel.
-/

namespace LeanLoop

variable {σ ρ : Type}

inductive Pass (σ ρ : Type) where
  | again (state : σ)
  | leave (result : ρ)

def loop (body : σ → Pass σ ρ) : Nat → σ → Pass σ ρ
  | 0, state => .again state
  | fuel + 1, state =>
      match body state with
      | .again next => loop body fuel next
      | .leave result => .leave result

namespace Pass

def Meets (invariant : σ → Prop) (outcome : ρ → Prop) : Pass σ ρ → Prop
  | .again state => invariant state
  | .leave result => outcome result

def Leaves (outcome : ρ → Prop) : Pass σ ρ → Prop
  | .again _ => False
  | .leave result => outcome result

variable {invariant : σ → Prop} {outcome : ρ → Prop}

@[simp] theorem meets_leave (result : ρ) :
    (Pass.leave result : Pass σ ρ).Meets invariant outcome ↔ outcome result := Iff.rfl

theorem Meets.and {invariant' : σ → Prop} {outcome' : ρ → Prop} {pass : Pass σ ρ}
    (left : pass.Meets invariant outcome) (right : pass.Meets invariant' outcome') :
    pass.Meets (fun state => invariant state ∧ invariant' state)
      (fun result => outcome result ∧ outcome' result) := by
  cases pass with
  | again state => exact ⟨left, right⟩
  | leave result => exact ⟨left, right⟩

theorem Meets.mono {invariant' : σ → Prop} {outcome' : ρ → Prop} {pass : Pass σ ρ}
    (meets : pass.Meets invariant outcome) (next : ∀ state, invariant state → invariant' state)
    (ended : ∀ result, outcome result → outcome' result) : pass.Meets invariant' outcome' := by
  cases pass with
  | again state => exact next state meets
  | leave result => exact ended result meets

theorem Leaves.exists {pass : Pass σ ρ} (leaves : pass.Leaves outcome) :
    ∃ result, pass = .leave result ∧ outcome result := by
  cases pass with
  | again state => exact absurd leaves id
  | leave result => exact ⟨result, rfl, leaves⟩

end Pass

variable {body : σ → Pass σ ρ} {invariant : σ → Prop} {outcome : ρ → Prop}

/-- What every pass preserves, a run preserves, whether it leaves or runs out of fuel. -/
theorem loop_meets
    (preserved : ∀ state, invariant state → (body state).Meets invariant outcome)
    (fuel : Nat) {state : σ} (initial : invariant state) :
    (loop body fuel state).Meets invariant outcome := by
  induction fuel generalizing state with
  | zero => exact initial
  | succ fuel ih =>
      have passed := preserved state initial
      simp only [loop]
      cases pass : body state with
      | again next =>
          rw [pass] at passed
          exact ih passed
      | leave result =>
          rw [pass] at passed
          exact passed

theorem loop_succ_meets
    (preserved : ∀ state, invariant state → (body state).Meets invariant outcome)
    (fuel : Nat) {state : σ} (first : (body state).Meets invariant outcome) :
    (loop body (fuel + 1) state).Meets invariant outcome := by
  simp only [loop]
  cases pass : body state with
  | again next =>
      rw [pass] at first
      exact loop_meets preserved fuel first
  | leave result =>
      rw [pass] at first
      exact first

/-- A run leaves if every pass that goes on decreases a measure below the fuel. -/
theorem loop_leaves {measure : σ → Nat}
    (preserved : ∀ state, invariant state →
      (body state).Meets (fun next => invariant next ∧ measure next < measure state) outcome)
    {fuel : Nat} {state : σ} (initial : invariant state) (enough : measure state < fuel) :
    (loop body fuel state).Leaves outcome := by
  induction fuel generalizing state with
  | zero => omega
  | succ fuel ih =>
      have passed := preserved state initial
      simp only [loop]
      cases pass : body state with
      | again next =>
          rw [pass] at passed
          have smaller : measure next < fuel := by
            have decreases := passed.2
            omega
          exact ih passed.1 smaller
      | leave result =>
          rw [pass] at passed
          exact passed

end LeanLoop
