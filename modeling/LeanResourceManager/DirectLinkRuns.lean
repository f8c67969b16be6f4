import LeanResourceManager.DirectLink
import LeanResourceManager.Library.Machine
import LeanResourceManager.Library.Ownership

/-!
Links in memory over whole runs: who owns the dispatcher that a link was constructed
with, and which ids its requests carry. The struct has a destructor and no other special
member of its own, so that its copies are the compiler's.
-/

namespace LeanResourceManager

open LeanMachine LeanOwnership

/-- `dispatcher` is the number of the reference that the constructor's query added. -/
structure DirectLinkObject where
  mId : UInt32
  mCallSign : List UInt8
  dispatcher : Option Nat
  deriving DecidableEq

def DirectLinkObject.link (object : DirectLinkObject) : JSONRPCDirectLink where
  mId := object.mId
  mCallSign := object.mCallSign
  dispatcher := object.dispatcher.isSome

structure LinkWorld where
  objects : Nat → Option DirectLinkObject
  acquired : Nat
  released : List Nat

def LinkWorld.initial : LinkWorld where
  objects := fun _ => none
  acquired := 0
  released := []

/-- `found` is whether `QueryInterfaceByCallsign` of the service finds a dispatcher. -/
def LinkWorld.query (world : LinkWorld) (service found : Bool) : Option Nat × LinkWorld :=
  if service && found then (some world.acquired, { world with acquired := world.acquired + 1 })
  else (none, world)

def LinkWorld.setObject (world : LinkWorld) (address : Nat) (object : Option DirectLinkObject) :
    LinkWorld :=
  { world with objects := Function.update world.objects address object }

/-- Constructors need a free address, the other operations live links. -/
inductive LinkOp (ρ : Type)
  | construct (target : Nat) (service : Bool) (callsign : List UInt8) (found : Bool)
  | copyConstruct (target source : Nat)
  | copyAssign (target source : Nat)
  | invoke (target : Nat) (call : InvokeCall ρ)
  | destroy (target : Nat)

variable {ρ : Type}

def linkStep (world : LinkWorld) : LinkOp ρ → LinkWorld × Option (InvokeEnd ρ)
  | .construct target service callsign found =>
      match world.objects target with
      | some _ => (world, none)
      | none =>
          let (dispatcher, world) := world.query service found
          (world.setObject target (some ⟨0, callsign, dispatcher⟩), none)
  | .copyConstruct target source =>
      match world.objects target, world.objects source with
      | none, some other => (world.setObject target (some other), none)
      | _, _ => (world, none)
  | .copyAssign target source =>
      match world.objects target, world.objects source with
      | some _, some other => (world.setObject target (some other), none)
      | _, _ => (world, none)
  | .invoke target call =>
      match world.objects target with
      | none => (world, none)
      | some object =>
          let (link, ended) := object.link.invoke call
          (world.setObject target (some { object with mId := link.mId }), some ended)
  | .destroy target =>
      match world.objects target with
      | none => (world, none)
      | some object =>
          ({ world.setObject target none with
            released := world.released ++ object.dispatcher.toList }, none)

/-! Ownership of the dispatchers. -/

def LinkWorld.ledger (world : LinkWorld) : Ledger Nat where
  held address := (world.objects address).bind DirectLinkObject.dispatcher
  acquired := world.acquired
  released := world.released

/-- No copy is made of a link with a dispatcher, nor one over such a link. -/
def CopiesNoDispatcher (world : LinkWorld) : LinkOp ρ → Prop
  | .copyConstruct target source =>
      world.objects target = none → world.ledger.held source = none
  | .copyAssign target source =>
      (world.objects target).isSome = true → (world.objects source).isSome = true →
        target ≠ source → world.ledger.held target = none ∧ world.ledger.held source = none
  | _ => True

/-- A call goes through a dispatcher that its link has not given back. -/
def CallsHeldDispatcher (world : LinkWorld) : LinkOp ρ → Prop
  | .invoke target _ => ∀ dispatcher, world.ledger.held target = some dispatcher →
      dispatcher < world.acquired ∧ dispatcher ∉ world.released
  | _ => True

theorem linkLedger_setObject (world : LinkWorld) (address : Nat)
    (object : Option DirectLinkObject) :
    (world.setObject address object).ledger = { world.ledger with
      held := Function.update world.ledger.held address
        (object.bind DirectLinkObject.dispatcher) } := by
  have held : (world.setObject address object).ledger.held =
      Function.update world.ledger.held address (object.bind DirectLinkObject.dispatcher) := by
    funext other
    by_cases same : other = address
    · simp [LinkWorld.ledger, LinkWorld.setObject, same]
    · simp [LinkWorld.ledger, LinkWorld.setObject, same]
  rw [← held]
  rfl

inductive LinkEffect (world : LinkWorld) (op : LinkOp ρ) : Ledger Nat → Prop
  | same : CopiesNoDispatcher world op → LinkEffect world op world.ledger
  | acquire (target : Nat) : CopiesNoDispatcher world op → world.ledger.held target = none →
      LinkEffect world op (world.ledger.acquire target)
  | copy (target source : Nat) : target ≠ source →
      (CopiesNoDispatcher world op ↔
        world.ledger.held target = none ∧ world.ledger.held source = none) →
      LinkEffect world op (world.ledger.copy target source)
  | release (target : Nat) : CopiesNoDispatcher world op →
      LinkEffect world op (world.ledger.release target)

theorem linkLedger_same {world : LinkWorld} {address : Nat} {object : Option DirectLinkObject}
    (same : object.bind DirectLinkObject.dispatcher = world.ledger.held address) :
    (world.setObject address object).ledger = world.ledger := by
  rw [linkLedger_setObject, same, Function.update_eq_self]

theorem construct_effect (world : LinkWorld) (target : Nat) (service : Bool)
    (callsign : List UInt8) (found : Bool) :
    LinkEffect world (.construct target service callsign found : LinkOp ρ)
      (linkStep world (.construct target service callsign found : LinkOp ρ)).1.ledger := by
  cases free : world.objects target with
  | some object =>
      simp only [linkStep, free]
      exact .same trivial
  | none =>
      have unheld : world.ledger.held target = none := by simp [LinkWorld.ledger, free]
      simp only [linkStep, free, LinkWorld.query]
      split
      · rw [linkLedger_setObject]
        exact .acquire target trivial unheld
      · have same : (world.setObject target (some ⟨0, callsign, none⟩)).ledger = world.ledger :=
          linkLedger_same unheld.symm
        rw [same]
        exact .same trivial

theorem copyConstruct_effect (world : LinkWorld) (target source : Nat) :
    LinkEffect world (.copyConstruct target source : LinkOp ρ)
      (linkStep world (.copyConstruct target source : LinkOp ρ)).1.ledger := by
  cases free : world.objects target with
  | some object =>
      simp only [linkStep, free]
      exact .same (by simp [CopiesNoDispatcher, free])
  | none =>
      cases live : world.objects source with
      | none =>
          simp only [linkStep, free, live]
          exact .same (by simp [CopiesNoDispatcher, LinkWorld.ledger, live])
      | some other =>
          have different : target ≠ source := by
            intro same
            rw [same, live] at free
            simp at free
          have held : world.ledger.held source = other.dispatcher := by
            simp [LinkWorld.ledger, live]
          simp only [linkStep, free, live]
          rw [linkLedger_setObject, Option.bind_some, ← held]
          refine .copy target source different ?_
          simp [CopiesNoDispatcher, LinkWorld.ledger, free]

theorem copyAssign_effect (world : LinkWorld) (target source : Nat) :
    LinkEffect world (.copyAssign target source : LinkOp ρ)
      (linkStep world (.copyAssign target source : LinkOp ρ)).1.ledger := by
  cases held : world.objects target with
  | none =>
      simp only [linkStep, held]
      exact .same (by simp [CopiesNoDispatcher, held])
  | some object =>
      cases live : world.objects source with
      | none =>
          simp only [linkStep, held, live]
          exact .same (by simp [CopiesNoDispatcher, live])
      | some other =>
          have given : world.ledger.held source = other.dispatcher := by
            simp [LinkWorld.ledger, live]
          simp only [linkStep, held, live]
          by_cases same : target = source
          · rw [linkLedger_same (by rw [same, given, Option.bind_some])]
            exact .same (by simp [CopiesNoDispatcher, same])
          · rw [linkLedger_setObject, Option.bind_some, ← given]
            refine .copy target source same ?_
            simp [CopiesNoDispatcher, held, live, same]

theorem linkStep_effect (world : LinkWorld) (op : LinkOp ρ) :
    LinkEffect world op (linkStep world op).1.ledger := by
  cases op with
  | construct target service callsign found =>
      exact construct_effect world target service callsign found
  | copyConstruct target source => exact copyConstruct_effect world target source
  | copyAssign target source => exact copyAssign_effect world target source
  | invoke target call =>
      cases live : world.objects target with
      | none =>
          simp only [linkStep, live]
          exact .same trivial
      | some object =>
          simp only [linkStep, live]
          rw [linkLedger_same (by simp [LinkWorld.ledger, live])]
          exact .same trivial
  | destroy target =>
      cases live : world.objects target with
      | none =>
          simp only [linkStep, live]
          exact .same trivial
      | some object =>
          have held : world.ledger.held target = object.dispatcher := by
            simp [LinkWorld.ledger, live]
          have released : { world.setObject target none with
              released := world.released ++ object.dispatcher.toList }.ledger =
                world.ledger.release target := by
            rw [Ledger.release, held]
            exact congrArg (fun ledger : Ledger Nat => { ledger with
              released := world.released ++ object.dispatcher.toList })
              (linkLedger_setObject world target none)
          simp only [linkStep, live]
          rw [released]
          exact .release target trivial

theorem linkStep_known (world : LinkWorld) (op : LinkOp ρ) (known : world.ledger.Known) :
    (linkStep world op).1.ledger.Known := by
  have effect := linkStep_effect world op
  generalize (linkStep world op).1.ledger = ledger at effect
  cases effect with
  | same => exact known
  | acquire target => exact known.acquire target
  | copy target source => exact known.copy target source
  | release target => exact known.release target

theorem linkStep_exact_iff (world : LinkWorld) (op : LinkOp ρ) (known : world.ledger.Known)
    (exact : world.ledger.Exact) :
    (linkStep world op).1.ledger.Exact ↔ CopiesNoDispatcher world op := by
  have effect := linkStep_effect world op
  generalize (linkStep world op).1.ledger = ledger at effect
  cases effect with
  | same none => exact iff_of_true exact none
  | acquire target none free => exact iff_of_true (exact.acquire known free) none
  | copy target source different condition =>
      exact (exact.copy_iff known different).trans condition.symm
  | release target none => exact iff_of_true (exact.release target) none

theorem callsHeld_of_exact (world : LinkWorld) (op : LinkOp ρ) (known : world.ledger.Known)
    (exact : world.ledger.Exact) : CallsHeldDispatcher world op := by
  cases op with
  | invoke target call =>
      intro dispatcher holds
      have bound := known.held target dispatcher holds
      refine ⟨bound, ?_⟩
      rcases exact dispatcher bound with ⟨_, _, _, unreleased⟩ | ⟨unheld, _⟩
      · exact List.count_eq_zero.mp unreleased
      · exact absurd holds (unheld target)
  | _ => trivial

theorem destroy_live {world : LinkWorld} {target : Nat} {object : DirectLinkObject}
    (live : world.objects target = some object) :
    (linkStep world (.destroy target : LinkOp ρ)).1 =
      { world.setObject target none with
        released := world.released ++ object.dispatcher.toList } := by
  simp only [linkStep, live]

theorem copied_released_twice {world : LinkWorld} {target source dispatcher : Nat}
    (free : world.objects target = none) (holds : world.ledger.held source = some dispatcher) :
    (runState linkStep world ([.copyConstruct target source, .destroy target, .destroy source] :
      List (LinkOp ρ))).released = world.released ++ [dispatcher, dispatcher] := by
  obtain ⟨object, live, held⟩ := Option.bind_eq_some_iff.mp holds
  have different : source ≠ target := by
    intro same
    rw [same, free] at live
    simp at live
  have copied : (linkStep world (.copyConstruct target source : LinkOp ρ)).1 =
      world.setObject target (some object) := by
    simp only [linkStep, free, live]
  have first : (world.setObject target (some object)).objects target = some object := by
    simp [LinkWorld.setObject]
  simp only [runState_cons, runState_nil, copied]
  rw [destroy_live first]
  have second : { (world.setObject target (some object)).setObject target none with
      released := world.released ++ object.dispatcher.toList }.objects source = some object := by
    simp [LinkWorld.setObject, different, live]
  exact (congrArg LinkWorld.released (destroy_live second)).trans (by simp [held])

theorem linkWorld_initial : LinkWorld.initial.ledger.Known ∧ LinkWorld.initial.ledger.Exact := by
  refine ⟨⟨?_, ?_⟩, ?_⟩
  · simp [LinkWorld.ledger, LinkWorld.initial]
  · simp [LinkWorld.ledger, LinkWorld.initial]
  · intro dispatcher bound
    simp [LinkWorld.ledger, LinkWorld.initial] at bound

/-- Ownership of the dispatchers is exact throughout a run exactly if no link that has
one is copied or assigned over. In such a run every call goes through a dispatcher that
was not released; a copy after it, and the end of both links, releases one twice. -/
theorem links_own_dispatchers_iff (ops : List (LinkOp ρ)) :
    (Throughout linkStep (fun world => world.ledger.Exact) .initial ops ↔
      StepsMeet linkStep CopiesNoDispatcher .initial ops) ∧
    (StepsMeet linkStep CopiesNoDispatcher .initial ops →
      StepsMeet linkStep CallsHeldDispatcher .initial ops ∧
      let ended := runState linkStep .initial ops
      ((∀ address, ended.objects address = none) →
        ∀ dispatcher < ended.acquired, ended.released.count dispatcher = 1) ∧
      ∀ target source dispatcher, ended.objects target = none →
        ended.ledger.held source = some dispatcher →
        (runState linkStep ended ([.copyConstruct target source, .destroy target,
          .destroy source] : List (LinkOp ρ))).released.count dispatcher = 2) := by
  obtain ⟨known, exact⟩ := linkWorld_initial
  refine ⟨?_, ?_⟩
  · have preserved : ∀ world (op : LinkOp ρ), True → world.ledger.Known →
        (linkStep world op).1.ledger.Known :=
      fun world op _ => linkStep_known world op
    have stepExact : ∀ world (op : LinkOp ρ), True → world.ledger.Known → world.ledger.Exact →
        ((linkStep world op).1.ledger.Exact ↔ CopiesNoDispatcher world op) :=
      fun world op _ => linkStep_exact_iff world op
    exact throughout_iff_stepsMeet preserved stepExact known exact fun _ _ => trivial
  · intro uncopied
    have preserved : ∀ world (op : LinkOp ρ), CopiesNoDispatcher world op →
        world.ledger.Known ∧ world.ledger.Exact →
          (linkStep world op).1.ledger.Known ∧ (linkStep world op).1.ledger.Exact := by
      rintro world op none ⟨known, exact⟩
      exact ⟨linkStep_known world op known, (linkStep_exact_iff world op known exact).mpr none⟩
    obtain ⟨held, endedKnown, endedExact⟩ := uncopied.carries preserved
      (fun world op _ owned => callsHeld_of_exact world op owned.1 owned.2) ⟨known, exact⟩
    refine ⟨held, ?_, ?_⟩
    · intro destroyed
      exact Ledger.Exact.all_released endedExact fun address => by
        simp [LinkWorld.ledger, destroyed address]
    · intro target source dispatcher free holds
      rw [copied_released_twice free holds, List.count_append]
      have bound := endedKnown.held source dispatcher holds
      rcases endedExact dispatcher bound with ⟨_, _, _, unreleased⟩ | ⟨unheld, _⟩
      · have none : (runState linkStep .initial ops).released.count dispatcher = 0 := unreleased
        rw [none]
        simp
      · exact absurd holds (unheld source)

/-! The ids of the requests. -/

def LinkOp.Replaces (target : Nat) : LinkOp ρ → Prop
  | .copyAssign other source => other = target ∧ source ≠ target
  | .destroy other => other = target
  | _ => False

def LinkOp.calls (target : Nat) : LinkOp ρ → Bool
  | .invoke other _ => other == target
  | _ => false

/-- The request that a call now hands to the dispatcher, if it comes that far. -/
def LinkWorld.request (world : LinkWorld) (target : Nat) (call : InvokeCall ρ) :
    Option DispatchRequest :=
  (linkStep world (.invoke target call)).2.bind InvokeEnd.dispatched

def DirectLinkObject.advance (object : DirectLinkObject) (calls : Nat) : DirectLinkObject :=
  { object with mId := object.mId + UInt32.ofNat calls }

@[simp] theorem advance_zero (object : DirectLinkObject) : object.advance 0 = object := by
  simp [DirectLinkObject.advance]

@[simp] theorem advance_advance (object : DirectLinkObject) (calls more : Nat) :
    (object.advance calls).advance more = object.advance (calls + more) := by
  simp [DirectLinkObject.advance, UInt32.ofNat_add, UInt32.add_assoc]

@[simp] theorem advance_dispatcher (object : DirectLinkObject) (calls : Nat) :
    (object.advance calls).dispatcher = object.dispatcher := rfl

theorem invoke_link (link : JSONRPCDirectLink) (call : InvokeCall ρ) :
    (link.invoke call).1 =
      if link.dispatcher then { link with mId := link.mId + 1 } else link := by
  simp only [JSONRPCDirectLink.invoke]
  cases link.dispatcher <;> rfl

theorem linkStep_invoke {world : LinkWorld} {target : Nat} {object : DirectLinkObject}
    (live : world.objects target = some object) (call : InvokeCall ρ) :
    linkStep world (.invoke target call) =
      (world.setObject target (some (object.advance (if object.dispatcher.isSome then 1 else 0))),
        some (object.link.invoke call).2) := by
  have counted : (object.link.invoke call).1.mId =
      (object.advance (if object.dispatcher.isSome then 1 else 0)).mId := by
    rw [invoke_link]
    cases dispatcher : object.dispatcher <;>
      simp [DirectLinkObject.link, DirectLinkObject.advance, dispatcher]
  simp only [linkStep, live, counted]
  rfl

theorem linkStep_kept {world : LinkWorld} {target : Nat} {object : DirectLinkObject}
    (live : world.objects target = some object) {op : LinkOp ρ} (kept : ¬op.Replaces target) :
    (linkStep world op).1.objects target = some (object.advance
      (if object.dispatcher.isSome then if op.calls target then 1 else 0 else 0)) := by
  cases op with
  | construct other service callsign found =>
      cases free : world.objects other with
      | some taken => simp [linkStep, free, live, LinkOp.calls]
      | none =>
          have elsewhere : target ≠ other := by
            intro same
            rw [same, free] at live
            simp at live
          simp only [linkStep, free, LinkWorld.query]
          split <;> simp [LinkWorld.setObject, elsewhere, live, LinkOp.calls]
  | copyConstruct other source =>
      cases free : world.objects other with
      | some taken => simp [linkStep, free, live, LinkOp.calls]
      | none =>
          have elsewhere : target ≠ other := by
            intro same
            rw [same, free] at live
            simp at live
          cases given : world.objects source <;>
            simp [linkStep, free, given, LinkWorld.setObject, elsewhere, live, LinkOp.calls]
  | copyAssign other source =>
      cases held : world.objects other with
      | none => simp [linkStep, held, live, LinkOp.calls]
      | some overwritten =>
          cases given : world.objects source with
          | none => simp [linkStep, held, given, live, LinkOp.calls]
          | some copied =>
              by_cases elsewhere : target = other
              · -- an assignment to itself
                have same : source = target := by
                  by_contra different
                  exact kept ⟨elsewhere.symm, different⟩
                have unchanged : copied = object := by
                  rw [same, live] at given
                  exact (Option.some.inj given).symm
                subst elsewhere
                simp [linkStep, held, given, LinkWorld.setObject, unchanged, LinkOp.calls]
              · simp [linkStep, held, given, LinkWorld.setObject, elsewhere, live, LinkOp.calls]
  | invoke other call =>
      by_cases same : other = target
      · subst same
        rw [linkStep_invoke live]
        simp [LinkWorld.setObject, LinkOp.calls]
      · cases found : world.objects other <;>
          simp [linkStep, found, LinkWorld.setObject, Ne.symm same, live, LinkOp.calls, same]
  | destroy other =>
      have elsewhere : target ≠ other := fun same => kept same.symm
      cases found : world.objects other <;>
        simp [linkStep, found, LinkWorld.setObject, elsewhere, live, LinkOp.calls]

theorem runLinks_kept {world : LinkWorld} {target : Nat} {object : DirectLinkObject}
    (live : world.objects target = some object) {ops : List (LinkOp ρ)}
    (kept : ∀ op ∈ ops, ¬op.Replaces target) :
    (runState linkStep world ops).objects target = some (object.advance
      (if object.dispatcher.isSome then ops.countP (LinkOp.calls target) else 0)) := by
  induction ops generalizing world object with
  | nil => simpa using live
  | cons op rest ih =>
      have next := linkStep_kept live (kept op (by simp))
      have finished := ih next fun later member => kept later (by simp [member])
      rw [runState_cons, finished, advance_advance, List.countP_cons, advance_dispatcher]
      cases object.dispatcher <;> simp [Nat.add_comm]

theorem invoke_request (link : JSONRPCDirectLink) (call : InvokeCall ρ) {sent : DispatchRequest}
    (dispatched : (link.invoke call).2.dispatched = some sent) :
    link.dispatcher = true ∧ sent.id = link.mId + 1 ∧
      sent.designator = link.mCallSign ++ ascii ".1." ++ call.method := by
  cases connected : link.dispatcher with
  | false =>
      rw [invoke_disconnected link call connected] at dispatched
      simp at dispatched
  | true =>
      rw [invoke_connected link call connected, finish_dispatched] at dispatched
      obtain ⟨_, _, rfl⟩ := Option.map_eq_some_iff.mp dispatched
      have message : (link.sentMessage call).id = link.mId + 1 ∧
          (link.sentMessage call).designator = link.mCallSign ++ ascii ".1." ++ call.method := by
        simp only [JSONRPCDirectLink.sentMessage, toMessage]
        split
        · exact ⟨rfl, rfl⟩
        · split
          · exact ⟨rfl, rfl⟩
          · split <;> exact ⟨rfl, rfl⟩
      exact ⟨rfl, message⟩

theorem request_live {world : LinkWorld} {target : Nat} {call : InvokeCall ρ}
    {sent : DispatchRequest} (requested : world.request target call = some sent) :
    ∃ object dispatcher, world.objects target = some object ∧
      object.dispatcher = some dispatcher ∧ sent.id = object.mId + 1 ∧
      sent.designator = object.mCallSign ++ ascii ".1." ++ call.method := by
  cases live : world.objects target with
  | none => simp [LinkWorld.request, linkStep, live] at requested
  | some object =>
      simp only [LinkWorld.request, linkStep, live] at requested
      obtain ⟨connected, id, designator⟩ := invoke_request object.link call requested
      obtain ⟨dispatcher, held⟩ := Option.isSome_iff_exists.mp connected
      exact ⟨object, dispatcher, rfl, held, id, designator⟩

theorem id_eq_add_iff (id : UInt32) (calls : Nat) :
    id = id + UInt32.ofNat calls ↔ 2 ^ 32 ∣ calls := by
  rw [← UInt32.toNat_inj]
  simp only [UInt32.toNat_add, UInt32.toNat_ofNat']
  have bound := id.toNat_lt
  omega

theorem constructed_request {world : LinkWorld} {target : Nat}
    (free : world.objects target = none) (service : Bool) (callsign : List UInt8) (found : Bool)
    {ops : List (LinkOp ρ)} (kept : ∀ op ∈ ops, ¬op.Replaces target) {call : InvokeCall ρ}
    {sent : DispatchRequest}
    (requested : (runState linkStep world
      (.construct target service callsign found :: ops)).request target call = some sent) :
    sent.id = UInt32.ofNat (ops.countP (LinkOp.calls target)) + 1 ∧
      sent.designator = callsign ++ ascii ".1." ++ call.method := by
  have made : (linkStep world (.construct target service callsign found : LinkOp ρ)).1.objects
      target = some ⟨0, callsign, (world.query service found).1⟩ := by
    simp [linkStep, free, LinkWorld.setObject]
  obtain ⟨later, number, live, connected, id, designator⟩ := request_live requested
  rw [runState_cons, runLinks_kept made kept, Option.some.injEq] at live
  have held : (world.query service found).1.isSome = true := by
    rw [← live, advance_dispatcher] at connected
    exact Option.isSome_iff_exists.mpr ⟨number, connected⟩
  rw [id, designator, ← live, if_pos held]
  simp [DirectLinkObject.advance]

/-- From the construction of a link on, its requests are addressed to the callsign that it
was constructed with, and two of them carry one id exactly if the number of its calls from
the one to the other is a multiple of `2 ^ 32`, whatever other links do meanwhile. -/
theorem request_ids_repeat_iff {world : LinkWorld} {target : Nat}
    (free : world.objects target = none) (service : Bool) (callsign : List UInt8) (found : Bool)
    {early between : List (LinkOp ρ)} {first second : InvokeCall ρ}
    {sent sentLater : DispatchRequest}
    (kept : ∀ op ∈ early ++ between, ¬op.Replaces target)
    (requested : (runState linkStep world
      (.construct target service callsign found :: early)).request target first = some sent)
    (requestedLater : (runState linkStep world (.construct target service callsign found ::
      early ++ .invoke target first :: between)).request target second = some sentLater) :
    (sent.id = sentLater.id ↔ 2 ^ 32 ∣ between.countP (LinkOp.calls target) + 1) ∧
      sent.designator = callsign ++ ascii ".1." ++ first.method ∧
      sentLater.designator = callsign ++ ascii ".1." ++ second.method := by
  have keptEarly : ∀ op ∈ early, ¬op.Replaces target :=
    fun op member => kept op (List.mem_append_left _ member)
  have keptAll : ∀ op ∈ early ++ .invoke target first :: between, ¬op.Replaces target := by
    intro op member
    rcases List.mem_append.mp member with before | after
    · exact keptEarly op before
    · rcases List.mem_cons.mp after with same | later
      · rw [same]
        exact not_false
      · exact kept op (List.mem_append_right _ later)
  obtain ⟨id, designator⟩ := constructed_request free service callsign found keptEarly requested
  obtain ⟨idLater, designatorLater⟩ :=
    constructed_request free service callsign found keptAll requestedLater
  have count : (early ++ .invoke target first :: between).countP (LinkOp.calls target) =
      early.countP (LinkOp.calls target) + (between.countP (LinkOp.calls target) + 1) := by
    simp [LinkOp.calls]
  refine ⟨?_, designator, designatorLater⟩
  rw [id, idLater, count, UInt32.add_left_inj, UInt32.ofNat_add]
  exact id_eq_add_iff _ _

theorem request_ids_repeat_copied :
    let call : InvokeCall Unit :=
      ⟨ascii "setACL", ⟨false, none⟩, true, fun _ => none, some (errorNone, [])⟩
    let early : List (LinkOp Unit) := [.invoke 0 call]
    let between : List (LinkOp Unit) := [.copyConstruct 1 0, .invoke 1 call]
    let made : LinkOp Unit := .construct 0 true (ascii "Controller") true
    ∃ sent sentLater,
      (runState linkStep .initial (made :: early)).request 0 call = some sent ∧
      (runState linkStep .initial (made :: early ++ .invoke 0 call :: between)).request 0 call =
        some sentLater ∧
      sent.id ≠ sentLater.id ∧
        sent.designator = ascii "Controller" ++ ascii ".1." ++ call.method := by
  intro call early between made
  obtain ⟨sent, requested⟩ : ∃ sent,
      (runState linkStep .initial (made :: early)).request 0 call = some sent := ⟨_, rfl⟩
  obtain ⟨sentLater, requestedLater⟩ : ∃ sentLater, (runState linkStep .initial
      (made :: early ++ .invoke 0 call :: between)).request 0 call = some sentLater := ⟨_, rfl⟩
  have kept : ∀ op ∈ early ++ between, ¬op.Replaces 0 := by simp [early, between, LinkOp.Replaces]
  obtain ⟨repeats, designator, _⟩ :=
    request_ids_repeat_iff rfl true (ascii "Controller") true kept requested requestedLater
  refine ⟨sent, sentLater, requested, requestedLater, ?_, designator⟩
  intro same
  have divides := repeats.mp same
  simp [between, LinkOp.calls] at divides

end LeanResourceManager
