import LeanResourceManager.InterfaceRefCore
import LeanResourceManager.Library.Machine
import LeanResourceManager.Library.Ownership

/-!
Ownership of interface references by `PluginInterfaceRef` objects: every operation is
one of the ledger's, and only move assignment can overwrite a held reference.
-/

namespace LeanResourceManager

open LeanMachine LeanOwnership

def InterfaceWorld.ledger (world : InterfaceWorld) : Ledger Nat where
  held address := (world.objects address).bind PluginInterfaceRef.interface
  acquired := world.acquired
  released := world.released

/-- Each reference acquired is held by one live object and not released, or held by
none and released once. -/
def ExactOwnership (world : InterfaceWorld) : Prop := world.ledger.Exact

def TargetEmpty (world : InterfaceWorld) : InterfaceOp → Prop
  | .moveAssign target source =>
      ∀ self other, world.objects target = some self → world.objects source = some other →
        target ≠ source → self.interface = none
  | _ => True

theorem ledger_setObject (world : InterfaceWorld) (address : Nat)
    (object : Option PluginInterfaceRef) :
    (world.setObject address object).ledger = { world.ledger with
      held := Function.update world.ledger.held address
        (object.bind PluginInterfaceRef.interface) } := by
  have held : (world.setObject address object).ledger.held =
      Function.update world.ledger.held address (object.bind PluginInterfaceRef.interface) := by
    funext other
    by_cases same : other = address
    · simp [InterfaceWorld.ledger, InterfaceWorld.setObject, same]
    · simp [InterfaceWorld.ledger, InterfaceWorld.setObject, same]
  rw [← held]
  rfl

theorem ledger_setObject_same (world : InterfaceWorld) (address : Nat)
    (object : Option PluginInterfaceRef)
    (same : object.bind PluginInterfaceRef.interface = world.ledger.held address) :
    (world.setObject address object).ledger = world.ledger := by
  rw [ledger_setObject, same, Function.update_eq_self]

@[simp] theorem ledger_releaseAll (world : InterfaceWorld) (references : List Nat) :
    (world.releaseAll references).ledger =
      { world.ledger with released := world.released ++ references } := rfl

theorem reset_interface (object : PluginInterfaceRef) : object.reset.1.interface = none := by
  obtain ⟨interface, service⟩ := object
  cases interface <;> rfl

theorem reset_released (object : PluginInterfaceRef) :
    object.reset.2 = object.interface.toList := by
  obtain ⟨interface, service⟩ := object
  cases interface <;> rfl

/-! What each operation is on the ledger. -/

theorem buildInterface_ledger (world : InterfaceWorld) (target : Nat)
    (builder : PluginInterfaceBuilder) (answers : Nat → Bool)
    (free : world.objects target = none) :
    (buildInterface target builder answers world).ledger = world.ledger ∨
      (buildInterface target builder answers world).ledger = world.ledger.acquire target := by
  have built : createInterface builder answers world = (none, world) ∨
      createInterface builder answers world =
        (some world.acquired, { world with acquired := world.acquired + 1 }) := by
    rw [createInterface_acquires]
    split
    · exact .inr rfl
    · exact .inl rfl
  rcases built with failed | succeeded
  · left
    have unheld : world.ledger.held target = none := by simp [InterfaceWorld.ledger, free]
    simp only [buildInterface, failed, PluginInterfaceRef.moveConstruct, PluginInterfaceRef.reset,
      ledger_releaseAll, List.append_nil]
    exact ledger_setObject_same world target _ (by simp [unheld])
  · right
    simp only [buildInterface, succeeded, PluginInterfaceRef.moveConstruct,
      PluginInterfaceRef.reset, ledger_releaseAll, List.append_nil, ledger_setObject]
    rfl

theorem move_ledger (world : InterfaceWorld) {target source : Nat} {other : PluginInterfaceRef}
    (live : world.objects source = some other) (object left : PluginInterfaceRef)
    (taken : object.interface = other.interface) (emptied : left.interface = none) :
    ((world.setObject target (some object)).setObject source (some left)).ledger =
      world.ledger.move target source := by
  have held : world.ledger.held source = other.interface := by simp [InterfaceWorld.ledger, live]
  rw [ledger_setObject, ledger_setObject, Option.bind_some, Option.bind_some, taken, emptied,
    Ledger.move, held]

theorem release_ledger (world : InterfaceWorld) {target : Nat} {object : PluginInterfaceRef}
    (live : world.objects target = some object) (left : Option PluginInterfaceRef)
    (emptied : left.bind PluginInterfaceRef.interface = none) :
    ((world.setObject target left).releaseAll object.reset.2).ledger =
      world.ledger.release target := by
  have held : world.ledger.held target = object.interface := by simp [InterfaceWorld.ledger, live]
  rw [ledger_releaseAll, ledger_setObject, emptied, reset_released, Ledger.release, held]
  rfl

inductive LedgerEffect (world : InterfaceWorld) (op : InterfaceOp) : Ledger Nat → Prop
  | same : TargetEmpty world op → LedgerEffect world op world.ledger
  | acquire (target : Nat) : TargetEmpty world op → world.ledger.held target = none →
      LedgerEffect world op (world.ledger.acquire target)
  | move (target source : Nat) : target ≠ source →
      (TargetEmpty world op ↔ world.ledger.held target = none) →
      LedgerEffect world op (world.ledger.move target source)
  | release (target : Nat) : TargetEmpty world op →
      LedgerEffect world op (world.ledger.release target)

theorem moveAssign_effect (world : InterfaceWorld) (target source : Nat) :
    LedgerEffect world (.moveAssign target source)
      (interfaceStep world (.moveAssign target source)).1.ledger := by
  cases held : world.objects target with
  | none =>
      simp only [interfaceStep, held]
      exact .same (by simp [TargetEmpty, held])
  | some self =>
      cases live : world.objects source with
      | none =>
          simp only [interfaceStep, held, live]
          exact .same (by simp [TargetEmpty, live])
      | some other =>
          simp only [interfaceStep, held, live]
          by_cases same : target = source
          · rw [if_pos same]
            exact .same (by simp [TargetEmpty, same])
          · rw [if_neg same, move_ledger world live (self.moveAssign other).1
              (self.moveAssign other).2 rfl rfl]
            refine .move target source same ?_
            simp [TargetEmpty, held, live, same, InterfaceWorld.ledger]

theorem interfaceStep_effect (world : InterfaceWorld) (op : InterfaceOp) :
    LedgerEffect world op (interfaceStep world op).1.ledger := by
  cases op with
  | createInterface target builder answers =>
      cases free : world.objects target with
      | some object =>
          simp only [interfaceStep, free]
          exact .same trivial
      | none =>
          simp only [interfaceStep, free]
          rcases buildInterface_ledger world target builder answers free with same | acquired
          · rw [same]
            exact .same trivial
          · rw [acquired]
            exact .acquire target trivial (by simp [InterfaceWorld.ledger, free])
  | defaultConstruct target =>
      cases free : world.objects target with
      | some object =>
          simp only [interfaceStep, free]
          exact .same trivial
      | none =>
          have unheld : world.ledger.held target = none := by simp [InterfaceWorld.ledger, free]
          simp only [interfaceStep, free]
          rw [ledger_setObject_same world target (some .default) unheld.symm]
          exact .same trivial
  | moveConstruct target source =>
      cases free : world.objects target with
      | some object =>
          simp only [interfaceStep, free]
          exact .same trivial
      | none =>
          cases live : world.objects source with
          | none =>
              simp only [interfaceStep, free, live]
              exact .same trivial
          | some other =>
              have different : target ≠ source := by
                intro same
                rw [same, live] at free
                simp at free
              simp only [interfaceStep, free, live]
              rw [move_ledger world live other.moveConstruct.1 other.moveConstruct.2 rfl rfl]
              refine .move target source different ?_
              simp [TargetEmpty, InterfaceWorld.ledger, free]
  | moveAssign target source => exact moveAssign_effect world target source
  | reset target =>
      cases live : world.objects target with
      | none =>
          simp only [interfaceStep, live]
          exact .same trivial
      | some object =>
          simp only [interfaceStep, live]
          rw [release_ledger world live (some object.reset.1) (reset_interface object)]
          exact .release target trivial
  | destroy target =>
      cases live : world.objects target with
      | none =>
          simp only [interfaceStep, live]
          exact .same trivial
      | some object =>
          simp only [interfaceStep, live]
          rw [release_ledger world live none rfl]
          exact .release target trivial

theorem interfaceStep_known (world : InterfaceWorld) (op : InterfaceOp)
    (known : world.ledger.Known) : (interfaceStep world op).1.ledger.Known := by
  have effect := interfaceStep_effect world op
  generalize (interfaceStep world op).1.ledger = ledger at effect
  cases effect with
  | same => exact known
  | acquire target => exact known.acquire target
  | move target source => exact known.move target source
  | release target => exact known.release target

theorem exactOwnership_step_iff (world : InterfaceWorld) (op : InterfaceOp)
    (known : world.ledger.Known) (exact : ExactOwnership world) :
    ExactOwnership (interfaceStep world op).1 ↔ TargetEmpty world op := by
  have effect := interfaceStep_effect world op
  rw [ExactOwnership]
  generalize (interfaceStep world op).1.ledger = ledger at effect
  cases effect with
  | same empty => exact iff_of_true exact empty
  | acquire target empty free => exact iff_of_true (exact.acquire known free) empty
  | move target source different condition =>
      exact (Ledger.Exact.move_iff exact known different).trans condition.symm
  | release target empty => exact iff_of_true (exact.release target) empty

/-- Ownership is exact throughout a run exactly if no move assignment of the run, other
than of an object to itself, has a target that holds an interface. -/
theorem exactOwnership_throughout_iff (ops : List InterfaceOp) :
    Throughout interfaceStep ExactOwnership .initial ops ↔
      StepsMeet interfaceStep TargetEmpty .initial ops := by
  have known : InterfaceWorld.initial.ledger.Known :=
    ⟨by simp [InterfaceWorld.ledger, InterfaceWorld.initial],
      by simp [InterfaceWorld.ledger, InterfaceWorld.initial]⟩
  have exact : ExactOwnership .initial := by
    intro resource bound
    simp [InterfaceWorld.ledger, InterfaceWorld.initial] at bound
  have preserved : ∀ world (op : InterfaceOp), True → world.ledger.Known →
      (interfaceStep world op).1.ledger.Known :=
    fun world op _ => interfaceStep_known world op
  have stepExact : ∀ world (op : InterfaceOp), True → world.ledger.Known →
      ExactOwnership world →
        (ExactOwnership (interfaceStep world op).1 ↔ TargetEmpty world op) :=
    fun world op _ => exactOwnership_step_iff world op
  exact throughout_iff_stepsMeet preserved stepExact known exact fun _ _ => trivial

/-- Two interfaces are obtained, and the second reference is assigned over the first. -/
theorem exactOwnership_lost_by_assignment :
    let builder := { PluginInterfaceBuilder.construct [] with service := some 0 }
    ¬ExactOwnership (runState interfaceStep .initial
      [.createInterface 0 builder (fun _ => true), .createInterface 1 builder (fun _ => true),
        .moveAssign 0 1]) := by
  intro builder exact
  rcases exact 0 (by decide) with ⟨owner, holds, _⟩ | ⟨_, released⟩
  · match owner with
    | 0 => exact absurd holds (by decide)
    | 1 => exact absurd holds (by decide)
    | _ + 2 => exact absurd holds nofun
  · exact absurd released (by decide)

theorem released_once_all_destroyed (world : InterfaceWorld) (exact : ExactOwnership world)
    (destroyed : ∀ address, world.objects address = none) :
    ∀ reference < world.acquired, world.released.count reference = 1 :=
  Ledger.Exact.all_released exact fun address => by simp [InterfaceWorld.ledger, destroyed address]

end LeanResourceManager
