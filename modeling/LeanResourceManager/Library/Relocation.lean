import Mathlib.Algebra.Group.Basic
import Mathlib.Algebra.BigOperators.Group.List.Basic
import Mathlib.GroupTheory.Perm.Basic
import LeanResourceManager.Library.Machine

/-!
Machines that only move what they store: each step exchanges two places or leaves all
of them alone, so a run permutes the places.
-/

namespace LeanRelocation

open LeanMachine

variable {σ ι ο κ β : Type} [DecidableEq κ]

def swaps (moves : List (κ × κ)) : Equiv.Perm κ :=
  (moves.map fun move => Equiv.swap move.1 move.2).prod

theorem swaps_append (first second : List (κ × κ)) :
    swaps (first ++ second) = swaps first * swaps second := by
  simp [swaps]

theorem swaps_undo (moves : List (κ × κ)) :
    swaps (moves.reverse.map Prod.swap) = (swaps moves)⁻¹ := by
  have undone : ∀ move : κ × κ,
      Equiv.swap move.swap.1 move.swap.2 = (Equiv.swap move.1 move.2)⁻¹ := by
    intro move
    rw [Equiv.swap_inv]
    exact Equiv.swap_comm move.2 move.1
  simp only [swaps, List.prod_inv_reverse, List.map_reverse, List.map_map]
  congr 2
  exact List.map_congr_left fun move _ => undone move

/-- What the output of a step says was moved is what the step moved. -/
def Relocates (step : σ → ι → σ × ο) (moved : ι × ο → Option (κ × κ)) (view : σ → κ → β)
    (state : σ) (input : ι) : Prop :=
  ∀ place, view (step state input).1 place =
    view state (swaps (moved (input, (step state input).2)).toList place)

variable {step : σ → ι → σ × ο} {moved : ι × ο → Option (κ × κ)} {view : σ → κ → β}
  {allowed : ι → Prop} {invariant : σ → Prop}

theorem run_relocates
    (preserved : ∀ state input, allowed input → invariant state →
      invariant (step state input).1 ∧ Relocates step moved view state input)
    {state : σ} (initial : invariant state) {inputs : List ι}
    (inputsAllowed : ∀ input ∈ inputs, allowed input) (place : κ) :
    view (runState step state inputs) place =
      view state (swaps ((runHistory step state inputs).filterMap moved) place) := by
  induction inputs generalizing state with
  | nil => rfl
  | cons input rest ih =>
      obtain ⟨next, relocates⟩ := preserved state input (inputsAllowed input (by simp)) initial
      have split : ∀ later : List (ι × ο),
          ((input, (step state input).2) :: later).filterMap moved =
            (moved (input, (step state input).2)).toList ++ later.filterMap moved := by
        intro later
        cases move : moved (input, (step state input).2) with
        | none => simp [move]
        | some pair => simp [move]
      rw [runState_cons, ih next fun later member => inputsAllowed later (by simp [member]),
        relocates, runHistory_cons, split, swaps_append, Equiv.Perm.mul_apply]

/-- Moving everything back in the opposite order restores every place. -/
theorem run_restores
    (preserved : ∀ state input, allowed input → invariant state →
      invariant (step state input).1 ∧ Relocates step moved view state input)
    {state : σ} (initial : invariant state) {there back : List ι}
    (inputsAllowed : ∀ input ∈ there ++ back, allowed input)
    (returned : (runHistory step (runState step state there) back).filterMap moved =
      ((runHistory step state there).filterMap moved).reverse.map Prod.swap) (place : κ) :
    view (runState step state (there ++ back)) place = view state place := by
  rw [run_relocates preserved initial inputsAllowed place, runHistory_append,
    List.filterMap_append, returned, swaps_append, swaps_undo, mul_inv_cancel,
    Equiv.Perm.one_apply]

end LeanRelocation
