import Mathlib.Data.List.Induction

/-! A store described by its past: each key holds the value last written to it. -/

namespace LeanLastWrite

variable {κ ν : Type} [DecidableEq κ]

def lastWrite (writes : List (κ × ν)) (key : κ) : Option ν :=
  writes.foldl (fun last write => if write.1 = key then some write.2 else last) none

@[simp] theorem lastWrite_nil (key : κ) : lastWrite ([] : List (κ × ν)) key = none := rfl

@[simp] theorem lastWrite_append_single (writes : List (κ × ν)) (written key : κ) (value : ν) :
    lastWrite (writes ++ [(written, value)]) key =
      if written = key then some value else lastWrite writes key := by
  simp [lastWrite]

end LeanLastWrite
