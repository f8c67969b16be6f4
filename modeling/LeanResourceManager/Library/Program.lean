import Mathlib.Control.Lawful

/-!
Programs over a shared state, cut into the atomic accesses they make to it and
the acquisitions and releases of one lock. Running a program alone gives its
sequential meaning; the same program can be interleaved with others access by
access. Exceptions are the usual `ExceptT` layer on top.
-/

/-- `atomic update next` applies `update` to the shared state in one step and
continues from the state it found. -/
inductive LeanProgram (σ α : Type) where
  | done (result : α)
  | atomic (update : σ → σ) (next : σ → LeanProgram σ α)
  | lock (next : LeanProgram σ α)
  | unlock (next : LeanProgram σ α)

namespace LeanProgram

variable {σ α β ε : Type}

protected def bind : LeanProgram σ α → (α → LeanProgram σ β) → LeanProgram σ β
  | .done result, continuation => continuation result
  | .atomic update next, continuation =>
      .atomic update fun state => (next state).bind continuation
  | .lock next, continuation => .lock (next.bind continuation)
  | .unlock next, continuation => .unlock (next.bind continuation)

instance : Monad (LeanProgram σ) where
  pure := .done
  bind := LeanProgram.bind

theorem bind_done (program : LeanProgram σ α) : program.bind .done = program := by
  induction program with
  | done result => rfl
  | atomic update next ih => simp only [LeanProgram.bind, ih]
  | lock next ih => simp only [LeanProgram.bind, ih]
  | unlock next ih => simp only [LeanProgram.bind, ih]

theorem bind_assoc {γ : Type} (program : LeanProgram σ α) (first : α → LeanProgram σ β)
    (second : β → LeanProgram σ γ) :
    (program.bind first).bind second = program.bind fun result => (first result).bind second := by
  induction program with
  | done result => rfl
  | atomic update next ih => simp only [LeanProgram.bind, ih]
  | lock next ih => simp only [LeanProgram.bind, ih]
  | unlock next ih => simp only [LeanProgram.bind, ih]

instance : LawfulMonad (LeanProgram σ) :=
  LawfulMonad.mk' (LeanProgram σ) bind_done (fun _ _ => rfl) bind_assoc

def read : LeanProgram σ σ := .atomic id .done

def access (change : σ → α × σ) : LeanProgram σ α :=
  .atomic (fun state => (change state).2) fun state => .done (change state).1

def modify (update : σ → σ) : LeanProgram σ Unit := .atomic update fun _ => .done ()

def acquire : LeanProgram σ Unit := .lock (.done ())

def release : LeanProgram σ Unit := .unlock (.done ())

def tryCatch (body : ExceptT ε (LeanProgram σ) α) (handler : ε → α) : LeanProgram σ α := do
  match ← body.run with
  | .ok result => pure result
  | .error raised => pure (handler raised)

/-- The sequential meaning: the program runs alone, its lock being free. -/
def run : LeanProgram σ α → σ → σ × α
  | .done result, state => (state, result)
  | .atomic update next, state => (next state).run (update state)
  | .lock next, state => next.run state
  | .unlock next, state => next.run state

def heldAfter : LeanProgram σ α → σ → Bool → Bool
  | .done _, _, held => held
  | .atomic update next, state, held => (next state).heldAfter (update state) held
  | .lock next, state, _ => next.heldAfter state true
  | .unlock next, state, _ => next.heldAfter state false

@[simp] theorem run_pure (result : α) (state : σ) :
    (pure result : LeanProgram σ α).run state = (state, result) := rfl

@[simp] theorem run_acquire (state : σ) : (acquire : LeanProgram σ Unit).run state = (state, ()) := rfl

@[simp] theorem run_release (state : σ) : (release : LeanProgram σ Unit).run state = (state, ()) := rfl

@[simp] theorem run_modify (update : σ → σ) (state : σ) :
    (modify update : LeanProgram σ Unit).run state = (update state, ()) := rfl

@[simp] theorem run_bind (program : LeanProgram σ α) (continuation : α → LeanProgram σ β)
    (state : σ) :
    (program >>= continuation).run state =
      (continuation (program.run state).2).run (program.run state).1 := by
  change (program.bind continuation).run state = _
  induction program generalizing state with
  | done result => rfl
  | atomic update next ih => exact ih state (update state)
  | lock next ih => exact ih state
  | unlock next ih => exact ih state

@[simp] theorem run_map (result : α → β) (program : LeanProgram σ α) (state : σ) :
    (result <$> program).run state =
      ((program.run state).1, result (program.run state).2) :=
  run_bind program (fun answer => .done (result answer)) state

def attempt (body : ExceptT ε (LeanProgram σ) α) (state : σ) : σ × Except ε α := body.run.run state

/-! Accesses to the shared state from inside a `try` block. -/

def tryRead : ExceptT ε (LeanProgram σ) σ := monadLift (read : LeanProgram σ σ)

def tryAccess (change : σ → α × σ) : ExceptT ε (LeanProgram σ) α := monadLift (access change)

def tryModify (update : σ → σ) : ExceptT ε (LeanProgram σ) Unit := monadLift (modify update)

theorem attempt_lift (program : LeanProgram σ α) (state : σ) :
    attempt (monadLift program : ExceptT ε (LeanProgram σ) α) state =
      ((program.run state).1, .ok (program.run state).2) := by
  change (program.bind fun result => LeanProgram.done (Except.ok result : Except ε α)).run state = _
  exact run_bind program (fun result => .done (Except.ok result)) state

theorem attempt_bind (body : ExceptT ε (LeanProgram σ) α)
    (continuation : α → ExceptT ε (LeanProgram σ) β) (state : σ) :
    attempt (body >>= continuation) state =
      match attempt body state with
      | (next, .ok result) => attempt (continuation result) next
      | (next, .error raised) => (next, .error raised) := by
  simp only [attempt, ExceptT.run_bind, run_bind]
  cases body.run.run state with
  | mk next outcome => cases outcome <;> rfl

theorem attempt_bind_ok {body : ExceptT ε (LeanProgram σ) α} {state next : σ} {result : α}
    (completed : attempt body state = (next, .ok result))
    (continuation : α → ExceptT ε (LeanProgram σ) β) :
    attempt (body >>= continuation) state = attempt (continuation result) next := by
  rw [attempt_bind, completed]

theorem attempt_bind_error {body : ExceptT ε (LeanProgram σ) α} {state next : σ} {raised : ε}
    (threw : attempt body state = (next, .error raised))
    (continuation : α → ExceptT ε (LeanProgram σ) β) :
    attempt (body >>= continuation) state = (next, .error raised) := by
  rw [attempt_bind, threw]

@[simp] theorem attempt_pure (result : α) (state : σ) :
    attempt (pure result : ExceptT ε (LeanProgram σ) α) state = (state, .ok result) := rfl

@[simp] theorem attempt_throw (raised : ε) (state : σ) :
    attempt (throw raised : ExceptT ε (LeanProgram σ) α) state = (state, .error raised) := rfl

@[simp] theorem attempt_modify (update : σ → σ) (state : σ) :
    attempt (tryModify update : ExceptT ε (LeanProgram σ) Unit) state = (update state, .ok ()) :=
  attempt_lift (modify update) state

@[simp] theorem attempt_read_bind (continuation : σ → ExceptT ε (LeanProgram σ) β) (state : σ) :
    attempt (tryRead >>= continuation) state = attempt (continuation state) state :=
  attempt_bind_ok (attempt_lift read state) continuation

@[simp] theorem attempt_access_bind (change : σ → α × σ)
    (continuation : α → ExceptT ε (LeanProgram σ) β) (state : σ) :
    attempt (tryAccess change >>= continuation) state =
      attempt (continuation (change state).1) (change state).2 :=
  attempt_bind_ok (attempt_lift (access change) state) continuation

@[simp] theorem attempt_modify_bind (update : σ → σ)
    (continuation : Unit → ExceptT ε (LeanProgram σ) β) (state : σ) :
    attempt (tryModify update >>= continuation) state = attempt (continuation ()) (update state) :=
  attempt_bind_ok (attempt_modify update state) continuation

@[simp] theorem attempt_throw_bind (raised : ε) (continuation : α → ExceptT ε (LeanProgram σ) β)
    (state : σ) :
    attempt ((throw raised : ExceptT ε (LeanProgram σ) α) >>= continuation) state =
      (state, .error raised) :=
  attempt_bind_error (attempt_throw raised state) continuation

def settle (handler : ε → α) : σ × Except ε α → σ × α
  | (state, .ok result) => (state, result)
  | (state, .error raised) => (state, handler raised)

@[simp] theorem settle_ok (handler : ε → α) (state : σ) (result : α) :
    settle handler (state, .ok result) = (state, result) := rfl

@[simp] theorem settle_error (handler : ε → α) (state : σ) (raised : ε) :
    settle handler (state, .error raised) = (state, handler raised) := rfl

theorem run_tryCatch (body : ExceptT ε (LeanProgram σ) α) (handler : ε → α) (state : σ) :
    (tryCatch body handler).run state = settle handler (attempt body state) := by
  simp only [tryCatch, run_bind, attempt]
  cases body.run.run state with
  | mk next outcome => cases outcome <;> rfl

/-! Programs that access the shared state only while they hold the lock. -/

/-- The program neither acquires nor releases the lock, and every change it makes
to the shared state is an allowed one. -/
def Confined (allowed : σ → σ → Prop) : LeanProgram σ α → Prop
  | .done _ => True
  | .atomic update next => ∀ state, allowed state (update state) ∧ (next state).Confined allowed
  | .lock _ => False
  | .unlock _ => False

/-- The rest of a program that holds the lock: it accesses the shared state,
releases the lock exactly once and then only returns. -/
def Inside : LeanProgram σ α → Prop
  | .done _ => False
  | .atomic _ next => ∀ state, (next state).Inside
  | .lock _ => False
  | .unlock next => ∃ result, next = .done result

/-- A whole program that returns at once or makes all its accesses to the shared
state in one critical section. -/
def Guarded : LeanProgram σ α → Prop
  | .done _ => True
  | .atomic _ _ => False
  | .lock next => next.Inside
  | .unlock _ => False

def takesLock : LeanProgram σ α → Bool
  | .lock _ => true
  | _ => false

@[simp] theorem takesLock_done (result : α) :
    (LeanProgram.done result : LeanProgram σ α).takesLock = false := rfl

@[simp] theorem takesLock_atomic (update : σ → σ) (next : σ → LeanProgram σ α) :
    (LeanProgram.atomic update next).takesLock = false := rfl

@[simp] theorem takesLock_lock (next : LeanProgram σ α) : (LeanProgram.lock next).takesLock = true := rfl

@[simp] theorem takesLock_unlock (next : LeanProgram σ α) :
    (LeanProgram.unlock next).takesLock = false := rfl

def critical (body : LeanProgram σ α) : LeanProgram σ α := do
  acquire
  let result ← body
  release
  pure result

@[simp] theorem run_critical (body : LeanProgram σ α) (state : σ) :
    (critical body).run state = body.run state := by
  simp only [critical, run_bind, run_acquire, run_release, run_pure]

section Confinement

variable {allowed : σ → σ → Prop}

theorem Confined.bind {program : LeanProgram σ α} {continuation : α → LeanProgram σ β}
    (first : program.Confined allowed) (second : ∀ result, (continuation result).Confined allowed) :
    (program >>= continuation).Confined allowed := by
  change (program.bind continuation).Confined allowed
  induction program with
  | done result => exact second result
  | atomic update next ih => exact fun state => ⟨(first state).1, ih state (first state).2⟩
  | lock next => exact first.elim
  | unlock next => exact first.elim

theorem Confined.inside {program : LeanProgram σ α} {continuation : α → LeanProgram σ β}
    (first : program.Confined allowed) (second : ∀ result, (continuation result).Inside) :
    (program >>= continuation).Inside := by
  change (program.bind continuation).Inside
  induction program with
  | done result => exact second result
  | atomic update next ih => exact fun state => ih state (first state).2
  | lock next => exact first.elim
  | unlock next => exact first.elim

theorem Confined.guarded {body : LeanProgram σ α} (confined : body.Confined allowed) :
    (critical body).Guarded := by
  apply Confined.inside confined
  intro result
  exact ⟨result, rfl⟩

/-- The frame rule: what every allowed change keeps, the whole program keeps. -/
theorem Confined.run {program : LeanProgram σ α} (confined : program.Confined allowed)
    (refl : ∀ state, allowed state state)
    (trans : ∀ first second third, allowed first second → allowed second third →
      allowed first third) (state : σ) :
    allowed state (program.run state).1 := by
  induction program generalizing state with
  | done result => exact refl state
  | atomic update next ih =>
      have first := confined state
      exact trans state (update state) _ first.1 (ih state first.2 (update state))
  | lock next => exact confined.elim
  | unlock next => exact confined.elim

theorem confined_pure (result : α) : (pure result : LeanProgram σ α).Confined allowed := trivial

theorem Confined.tryCatch {body : ExceptT ε (LeanProgram σ) α}
    (confined : body.run.Confined allowed) (handler : ε → α) :
    (tryCatch body handler).Confined allowed := by
  apply Confined.bind confined
  intro outcome
  cases outcome <;> exact confined_pure _

theorem Confined.andThen {body : ExceptT ε (LeanProgram σ) α}
    {continuation : α → ExceptT ε (LeanProgram σ) β} (first : body.run.Confined allowed)
    (second : ∀ result, (continuation result).run.Confined allowed) :
    (body >>= continuation).run.Confined allowed := by
  rw [ExceptT.run_bind]
  apply Confined.bind first
  intro outcome
  cases outcome with
  | ok result => exact second result
  | error raised => exact confined_pure _

theorem confined_throw (raised : ε) :
    (throw raised : ExceptT ε (LeanProgram σ) α).run.Confined allowed := trivial

theorem confined_read (refl : ∀ state, allowed state state) :
    (tryRead : ExceptT ε (LeanProgram σ) σ).run.Confined allowed :=
  fun state => ⟨refl state, trivial⟩

theorem confined_access {change : σ → α × σ} (allows : ∀ state, allowed state (change state).2) :
    (tryAccess change : ExceptT ε (LeanProgram σ) α).run.Confined allowed :=
  fun state => ⟨allows state, trivial⟩

theorem confined_modify {update : σ → σ} (allows : ∀ state, allowed state (update state)) :
    (tryModify update : ExceptT ε (LeanProgram σ) Unit).run.Confined allowed :=
  fun state => ⟨allows state, trivial⟩

end Confinement

theorem Inside.heldAfter {program : LeanProgram σ α} (inside : program.Inside) (state : σ)
    (held : Bool) : program.heldAfter state held = false := by
  induction program generalizing state held with
  | done result => exact inside.elim
  | atomic update next ih => exact ih state (inside state) (update state) held
  | lock next => exact inside.elim
  | unlock next =>
      obtain ⟨result, finished⟩ := inside
      subst finished
      rfl

theorem Guarded.heldAfter {program : LeanProgram σ α} (guarded : program.Guarded) (state : σ) :
    program.heldAfter state false = false := by
  cases program with
  | done result => rfl
  | atomic update next => exact guarded.elim
  | lock next => exact Inside.heldAfter guarded state true
  | unlock next => exact guarded.elim

theorem Inside.map {program : LeanProgram σ α} (inside : program.Inside) (result : α → β) :
    (program >>= fun answer => pure (result answer)).Inside := by
  change (program.bind fun answer => .done (result answer)).Inside
  induction program with
  | done answer => exact inside.elim
  | atomic update next ih => exact fun state => ih state (inside state)
  | lock next => exact inside.elim
  | unlock next =>
      obtain ⟨answer, finished⟩ := inside
      subst finished
      exact ⟨result answer, rfl⟩

/-- What follows the critical section may only compute. -/
theorem Guarded.map {program : LeanProgram σ α} (guarded : program.Guarded) (result : α → β) :
    (program >>= fun answer => pure (result answer)).Guarded := by
  cases program with
  | done answer => exact trivial
  | atomic update next => exact guarded.elim
  | lock next => exact Inside.map guarded result
  | unlock next => exact guarded.elim

end LeanProgram
