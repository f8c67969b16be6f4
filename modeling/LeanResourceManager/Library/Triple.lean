import LeanResourceManager.Library.Program

/-!
Hoare triples for programs that may raise exceptions: what holds before, with the
result, and when the program is left by an exception.
-/

namespace LeanProgram

variable {σ α β ε : Type}

def Triple (pre : σ → Prop) (body : ExceptT ε (LeanProgram σ) α) (post : α → σ → Prop)
    (raises : σ → Prop) : Prop :=
  ∀ state, pre state →
    match attempt body state with
    | (next, .ok result) => post result next
    | (next, .error _) => raises next

variable {pre raises : σ → Prop} {middle : α → σ → Prop}

theorem Triple.bind {post : β → σ → Prop} {body : ExceptT ε (LeanProgram σ) α}
    {continuation : α → ExceptT ε (LeanProgram σ) β} (first : Triple pre body middle raises)
    (second : ∀ result, Triple (middle result) (continuation result) post raises) :
    Triple pre (body >>= continuation) post raises := by
  intro state holds
  have reached := first state holds
  rw [attempt_bind]
  cases ended : attempt body state with
  | mk next outcome =>
      rw [ended] at reached
      cases outcome with
      | ok result => exact second result next reached
      | error raised => exact reached

/-- What holds however the body ends, holds after the `try` block. -/
theorem Triple.tryCatch {body : ExceptT ε (LeanProgram σ) α}
    (triple : Triple pre body (fun _ => raises) raises) (handler : ε → α) {state : σ}
    (holds : pre state) : raises ((tryCatch body handler).run state).1 := by
  have reached := triple state holds
  rw [run_tryCatch]
  cases ended : attempt body state with
  | mk next outcome =>
      rw [ended] at reached
      cases outcome with
      | ok result => exact reached
      | error raised => exact reached

end LeanProgram
