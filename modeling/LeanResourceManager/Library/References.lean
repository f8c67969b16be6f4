import Mathlib.Data.Multiset.AddSub
import Mathlib.Logic.Function.Basic

/-!
Reference counting: an object is made with its first reference, lives while it is
referenced, and goes with its last reference.
-/

namespace LeanReferences

variable {κ : Type} [DecidableEq κ]

def retain (count : κ → Nat) (object : κ) : κ → Nat :=
  Function.update count object (count object + 1)

def drop (count : κ → Nat) (object : κ) : κ → Nat :=
  Function.update count object (count object - 1)

/-- Every reference held is counted, and the objects alive are the ones referenced. -/
structure Counted (count : κ → Nat) (held : Multiset κ) (alive : κ → Bool) : Prop where
  counted : ∀ object, count object = held.count object
  alive : ∀ object, alive object = true ↔ object ∈ held

variable {count : κ → Nat} {held : Multiset κ} {alive after : κ → Bool} {object : κ}

theorem Counted.retain (counted : Counted count held alive) (now : after object = true)
    (others : ∀ other, other ≠ object → after other = alive other) :
    Counted (retain count object) (object ::ₘ held) after where
  counted other := by
    by_cases same : other = object
    · subst other
      simp [LeanReferences.retain, counted.counted]
    · simp [LeanReferences.retain, same, counted.counted]
  alive other := by
    by_cases same : other = object
    · subst other
      simp [now]
    · rw [others other same, counted.alive, Multiset.mem_cons]
      simp [same]

theorem Counted.last_iff (counted : Counted count held alive) :
    drop count object object = 0 ↔ object ∉ held.erase object := by
  simp only [drop, Function.update_self, counted.counted, ← Multiset.count_eq_zero,
    Multiset.count_erase_self]

theorem Counted.drop (counted : Counted count held alive) (referenced : object ∈ held)
    (last : drop count object object = 0 → after object = false)
    (more : drop count object object ≠ 0 → after object = alive object)
    (others : ∀ other, other ≠ object → after other = alive other) :
    Counted (drop count object) (held.erase object) after where
  counted other := by
    by_cases same : other = object
    · subst other
      simp [LeanReferences.drop, counted.counted]
    · simp [LeanReferences.drop, same, counted.counted]
  alive other := by
    by_cases same : other = object
    · subst other
      by_cases gone : LeanReferences.drop count object object = 0
      · rw [last gone]
        simpa using counted.last_iff.mp gone
      · rw [more gone, counted.alive]
        have kept := mt counted.last_iff.mpr gone
        simp only [referenced, true_iff]
        exact not_not.mp kept
    · rw [others other same, counted.alive, Multiset.mem_erase_of_ne same]

end LeanReferences
