import Mathlib.Data.List.Basic

/-!
The last run of a list between breaks: what is left of the input once the breaks at
its end are dropped and everything up to the break before them is cut off.
-/

namespace LeanLastRun

variable {α : Type} {isBreak : α → Prop}

/-- `run` is the last maximal non-empty run of elements that are not breaks. -/
def LastRun (isBreak : α → Prop) (input run : List α) : Prop :=
  ∃ before after, input = before ++ run ++ after ∧ run ≠ [] ∧
    (∀ element ∈ run, ¬isBreak element) ∧ (∀ element ∈ after, isBreak element) ∧
    ∀ element ∈ before.getLast?, isBreak element

theorem LastRun.prepend {rest run : List α} (last : LastRun isBreak rest run) (line : List α)
    {separator : α} (isSeparator : isBreak separator) :
    LastRun isBreak (line ++ separator :: rest) run := by
  obtain ⟨before, after, split, nonempty, inside, trailing, boundary⟩ := last
  refine ⟨line ++ separator :: before, after, by simp [split], nonempty, inside, trailing, ?_⟩
  intro element ends
  cases before with
  | nil =>
      have same : element = separator := by simpa [eq_comm] using ends
      rw [same]
      exact isSeparator
  | cons first others =>
      apply boundary element
      simpa [List.getLast?_append, List.getLast?_cons] using ends

theorem lastRun_of_trailing {line after : List α} (nonempty : line ≠ [])
    (inside : ∀ element ∈ line, ¬isBreak element) (trailing : ∀ element ∈ after, isBreak element) :
    LastRun isBreak (line ++ after) line :=
  ⟨[], after, by simp, nonempty, inside, trailing, by simp⟩

end LeanLastRun
