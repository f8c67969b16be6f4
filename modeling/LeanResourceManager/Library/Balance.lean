import Mathlib.Data.List.Count

/-!
Logs in which some events acquire a resource and some release one. A log is balanced
when every resource was released as often as it was acquired.
-/

namespace LeanBalance

variable {ε ρ : Type} [DecidableEq ρ] (acquires releases : ε → Option ρ)

def acquisitions (log : List ε) (resource : ρ) : Nat := (log.filterMap acquires).count resource

def Balanced (log : List ε) : Prop :=
  ∀ resource, acquisitions acquires log resource = acquisitions releases log resource

def Outstanding (log : List ε) (resource : ρ) : Prop :=
  acquisitions acquires log resource = acquisitions releases log resource + 1

variable {acquires releases}

@[simp] theorem acquisitions_nil (resource : ρ) : acquisitions acquires [] resource = 0 := rfl

@[simp] theorem acquisitions_append (first second : List ε) (resource : ρ) :
    acquisitions acquires (first ++ second) resource =
      acquisitions acquires first resource + acquisitions acquires second resource := by
  simp [acquisitions, List.filterMap_append, List.count_append]

@[simp] theorem acquisitions_cons (event : ε) (rest : List ε) (resource : ρ) :
    acquisitions acquires (event :: rest) resource =
      (if acquires event = some resource then 1 else 0) + acquisitions acquires rest resource := by
  cases acquired : acquires event with
  | none => simp [acquisitions, acquired]
  | some other =>
      by_cases same : other = resource
      · simp [acquisitions, acquired, same, Nat.add_comm]
      · simp [acquisitions, acquired, same]

theorem Balanced.append {first second : List ε} (left : Balanced acquires releases first)
    (right : Balanced acquires releases second) : Balanced acquires releases (first ++ second) := by
  intro resource
  have before := left resource
  have after := right resource
  simp only [acquisitions_append]
  omega

theorem balanced_flatMap {ι : Type} {segment : ι → List ε}
    (balanced : ∀ input, Balanced acquires releases (segment input)) (inputs : List ι) :
    Balanced acquires releases (inputs.flatMap segment) := by
  induction inputs with
  | nil => exact fun _ => rfl
  | cons input rest ih => exact (balanced input).append ih

theorem acquisitions_of_neutral {log : List ε} (neutral : ∀ event ∈ log, acquires event = none)
    (resource : ρ) : acquisitions acquires log resource = 0 := by
  have empty : log.filterMap acquires = [] := List.filterMap_eq_nil_iff.mpr neutral
  rw [acquisitions, empty, List.count_nil]

end LeanBalance
