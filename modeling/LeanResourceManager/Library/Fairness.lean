import Mathlib.Order.WellFounded

/-!
Liveness of a system whose steps are scheduled fairly. Steps are of kinds; a fair
schedule takes steps of every recurring kind again and again.
-/

namespace LeanFairness

variable {σ ι κ β : Type*}

def Recurs (kind : ι → κ) (schedule : Nat → ι) (wanted : κ) : Prop :=
  ∀ moment, ∃ later, moment ≤ later ∧ kind (schedule later) = wanted

/-- `states` runs through the schedule, and no step of it raises the rank: what does not
lower it changes nothing. -/
structure Ranked [Preorder β] (step : σ → ι → σ) (schedule : Nat → ι) (states : Nat → σ)
    (rank : σ → β) : Prop where
  run : ∀ moment, states (moment + 1) = step (states moment) (schedule moment)
  lowers : ∀ moment, states (moment + 1) = states moment ∨
    rank (states (moment + 1)) < rank (states moment)

/-- A kind of steps that lowers the rank, whichever of them is taken. -/
def Helps [Preorder β] (step : σ → ι → σ) (kind : ι → κ) (rank : σ → β) (state : σ)
    (wanted : κ) : Prop :=
  ∀ input, kind input = wanted → rank (step state input) < rank state

section Rules

variable [Preorder β] {step : σ → ι → σ} {schedule : Nat → ι} {states : Nat → σ} {rank : σ → β}
  {kind : ι → κ}

theorem Ranked.decreases (ranked : Ranked step schedule states rank) {wanted : κ}
    (moment wait : Nat) (scheduled : kind (schedule (moment + wait)) = wanted)
    (helps : Helps step kind rank (states moment) wanted) :
    ∃ later, rank (states later) < rank (states moment) := by
  induction wait generalizing moment with
  | zero =>
      refine ⟨moment + 1, ?_⟩
      rw [ranked.run]
      exact helps _ scheduled
  | succ wait ih =>
      rcases ranked.lowers moment with same | lowered
      · have turn : moment + 1 + wait = moment + (wait + 1) := by omega
        have finished := ih (moment + 1) (by rw [turn]; exact scheduled) (by rwa [same])
        rwa [same] at finished
      · exact ⟨moment + 1, lowered⟩

/-- If short of the goal some recurring kind of steps always helps, the goal is reached. -/
theorem Ranked.reaches [WellFoundedLT β] (ranked : Ranked step schedule states rank)
    (kind : ι → κ) {goal : σ → Prop}
    (helped : ∀ moment, ¬goal (states moment) → ∃ wanted, Recurs kind schedule wanted ∧
      Helps step kind rank (states moment) wanted) :
    ∃ moment, goal (states moment) := by
  have ends : ∀ (left : β) (moment : Nat), rank (states moment) = left →
      ∃ later, goal (states later) := by
    intro left
    induction left using WellFoundedLT.induction with
    | ind left ih =>
        intro moment now
        by_cases reached : goal (states moment)
        · exact ⟨moment, reached⟩
        · obtain ⟨wanted, recurs, helps⟩ := helped moment reached
          obtain ⟨turn, after, scheduled⟩ := recurs moment
          obtain ⟨wait, rfl⟩ := Nat.exists_eq_add_of_le after
          obtain ⟨later, less⟩ := ranked.decreases moment wait scheduled helps
          exact ih _ (now ▸ less) later rfl
  exact ends _ 0 rfl

end Rules

end LeanFairness
