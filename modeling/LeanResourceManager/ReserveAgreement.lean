import LeanResourceManager.ImplementationRuns

/-!
`ReserveTTSResource` and `ReserveTTSResourceForApps` reduce to one program over the
list of app ids: the iterator loop hands the list on unaltered and rewinds the iterator.
-/

namespace LeanResourceManager

open LeanProgram

def speakParams (apps : List AppId) : JsonObject :=
  [("accesslist", .array [.object [
    ("method", .string (ascii "speak")),
    ("apps", .array (apps.map JsonValue.string))]])]

/-- The TTS service reserves the resource: its response has the field success, with the
value true. -/
def ReserveOutcome.Accepted (outcome : ReserveOutcome) : Prop :=
  outcome.raised = none ∧ outcome.client = true ∧ outcome.code = errorNone ∧
    outcome.response.find? (fun field => field.1 = "success") = some ("success", .boolean true)

def ReserveOutcome.status (outcome : ReserveOutcome) : Bool :=
  outcome.raised = none && outcome.client && (outcome.code = errorNone &&
    outcome.response.hasLabel "success" && outcome.response.booleanAt "success")

theorem status_iff (outcome : ReserveOutcome) :
    outcome.status = true ↔ outcome.Accepted := by
  rw [ReserveOutcome.Accepted, ← booleanAt_iff, ReserveOutcome.status]
  simp only [Bool.and_eq_true, decide_eq_true_eq, and_assoc]

/-- From `before` to `after` exactly one `setACL` request is sent, for the whole list
in its order, and every iterator is where it was. -/
structure SendsSpeak (apps : List AppId) (request : SetACLRequest) (before after : World) :
    Prop where
  sent : after.effects = before.effects ++ [.setACL request]
  params : request.params = speakParams apps
  callsign : request.client.callsign = ttsCallsign
  iterators : after.iterators = before.iterators

theorem setIterator_setIterator (world : World) (reference : Nat)
    (first second : StringIterator) :
    (world.setIterator reference first).setIterator reference second =
      world.setIterator reference second := by
  simp [World.setIterator]

theorem setIterator_self (world : World) (reference : Nat) (iterator : StringIterator)
    (stored : world.iterators reference = iterator) :
    world.setIterator reference iterator = world := by
  simp [World.setIterator, ← stored]

@[simp] theorem setIterator_iterators (world : World) (reference : Nat)
    (iterator : StringIterator) :
    (world.setIterator reference iterator).iterators reference = iterator := by
  simp [World.setIterator]

theorem attempt_readApps (reference : Nat) (raised : Option ReserveStep)
    (readable : ∀ index, raised ≠ some (.readApp index)) (elements : List AppId) (fuel : Nat)
    (world : World) (position : Nat) (apps : List AppId)
    (stored : world.iterators reference = ⟨elements, position⟩)
    (started : position ≤ elements.length)
    (enough : elements.length < position + fuel) :
    attempt (readApps reference raised fuel apps) world =
      (world.setIterator reference ⟨elements, elements.length⟩,
        .ok (apps ++ elements.drop position)) := by
  induction fuel generalizing world position apps with
  | zero => omega
  | succ fuel ih =>
      simp only [readApps, attempt_access_bind]
      by_cases remaining : position < elements.length
      · have next : iteratorNext reference world = (some elements[position],
            world.setIterator reference ⟨elements, position + 1⟩) := by
          simp [iteratorNext, stored, remaining]
        have tail := ih (world.setIterator reference ⟨elements, position + 1⟩) (position + 1)
          (apps ++ [elements[position]]) (by simp) remaining (by omega)
        simp only [next, attempt_throwIf_bind, readable, decide_false, Bool.false_eq_true, if_false,
          tail, setIterator_setIterator]
        rw [List.drop_eq_getElem_cons remaining, List.append_assoc, List.singleton_append]
      · have atEnd : position = elements.length := by omega
        have next : iteratorNext reference world = (none, world) := by
          simp [iteratorNext, stored, atEnd]
        rw [atEnd] at stored
        rw [next, atEnd, setIterator_self world reference _ stored, List.drop_length,
          List.append_nil]
        rfl

def reserveSpeak (apps : List AppId) (outcome : ReserveOutcome) : TryBlock Response := do
  throwIf (outcome.raised = some .buildParams)
  callSetACL outcome (speakParams apps)

theorem attempt_reserveTTSResourceTry (world : World) (appid : AppId) (outcome : ReserveOutcome)
    (enabled : world.implementation.mDisableReserveTTS = false) :
    attempt (reserveTTSResourceTry appid outcome) world =
      attempt (reserveSpeak [appid] outcome) world := by
  rw [reserveTTSResourceTry, attempt_read_bind, enabled]
  rfl

theorem attempt_reserveTTSResourceForAppsTry (world : World) (reference : Nat)
    (apps : List AppId) (outcome : ReserveOutcome)
    (enabled : world.implementation.mDisableReserveTTS = false)
    (fresh : world.iterators reference = ⟨apps, 0⟩)
    (readable : ∀ index, outcome.raised ≠ some (.readApp index)) :
    attempt (reserveTTSResourceForAppsTry reference outcome) world =
      attempt (reserveSpeak apps outcome) world := by
  have loop := attempt_readApps reference outcome.raised readable apps (apps.length + 1) world 0 []
    fresh (Nat.zero_le _) (by omega)
  rw [List.nil_append, List.drop_zero] at loop
  have rewound : iteratorReset reference (world.setIterator reference ⟨apps, apps.length⟩) =
      world := by
    rw [iteratorReset, setIterator_setIterator, setIterator_iterators,
      setIterator_self world reference _ fresh]
  simp only [reserveTTSResourceForAppsTry, attempt_read_bind, enabled, Bool.false_eq_true, if_false,
    fresh, attempt_bind_ok loop, attempt_modify_bind, rewound]
  rfl

theorem reserve_single (policy : EssPolicy) (world : World) (reference : Nat) (appid : AppId)
    (outcome : ReserveOutcome) (fresh : world.iterators reference = ⟨[appid], 0⟩)
    (readable : ∀ index, outcome.raised ≠ some (.readApp index)) :
    callStep policy world (.reserveTTSResource appid outcome) =
      callStep policy world (.reserveTTSResourceForApps (some reference) outcome) := by
  simp only [callStep, Call.program, reserveTTSResource, reserveTTSResourceForApps, run_critical,
    run_tryCatch]
  cases disabled : world.implementation.mDisableReserveTTS with
  | true =>
      simp only [reserveTTSResourceTry, reserveTTSResourceForAppsTry, attempt_read_bind, disabled,
        if_true]
  | false =>
      rw [attempt_reserveTTSResourceTry world appid outcome disabled,
        attempt_reserveTTSResourceForAppsTry world reference [appid] outcome disabled fresh
          readable]

theorem reserveSpeak_answer (world : World) (apps : List AppId) (outcome : ReserveOutcome)
    (readable : ∀ index, outcome.raised ≠ some (.readApp index)) :
    (settle (fun _ => reserved false) (attempt (reserveSpeak apps outcome) world)).2 =
      reserved outcome.status := by
  simp only [reserveSpeak, attempt_throwIf_bind, decide_eq_true_eq, attempt_callSetACL]
  cases interrupted : outcome.raised with
  | none => cases made : outcome.client <;> simp [ReserveOutcome.status, interrupted, made]
  | some step =>
      have refused : outcome.status = false := by simp [ReserveOutcome.status, interrupted]
      rw [refused]
      cases step with
      | readApp index => exact absurd interrupted (readable index)
      | _ => cases outcome.client <;> simp

theorem callStep_reserveTTSResourceForApps (policy : EssPolicy) (world : World) (reference : Nat)
    (apps : List AppId) (outcome : ReserveOutcome)
    (enabled : world.implementation.mDisableReserveTTS = false)
    (fresh : world.iterators reference = ⟨apps, 0⟩) (uninterrupted : outcome.raised = none)
    (made : outcome.client = true) :
    callStep policy world (.reserveTTSResourceForApps (some reference) outcome) =
      ((makeClient outcome world).2.sendSetACL
        { client := (makeClient outcome world).1, params := speakParams apps },
        reserved outcome.status) := by
  have readable : ∀ index, outcome.raised ≠ some (.readApp index) := by simp [uninterrupted]
  simp only [callStep, Call.program, reserveTTSResourceForApps, run_critical, run_tryCatch]
  rw [attempt_reserveTTSResourceForAppsTry world reference apps outcome enabled fresh readable]
  simp [reserveSpeak, attempt_throwIf_bind, attempt_callSetACL, uninterrupted, made,
    ReserveOutcome.status]

theorem callStep_sendsSpeak (policy : EssPolicy) (world : World) (reference : Nat)
    (apps : List AppId) (outcome : ReserveOutcome)
    (enabled : world.implementation.mDisableReserveTTS = false)
    (fresh : world.iterators reference = ⟨apps, 0⟩) (uninterrupted : outcome.raised = none)
    (made : outcome.client = true) :
    SendsSpeak apps { client := (makeClient outcome world).1, params := speakParams apps } world
      (callStep policy world (.reserveTTSResourceForApps (some reference) outcome)).1 := by
  rw [callStep_reserveTTSResourceForApps policy world reference apps outcome enabled fresh
    uninterrupted made]
  exact ⟨rfl, rfl, rfl, rfl⟩

/-- The token lookup has been made, or it has not been made and has no token stored. -/
def SecurityToken.Settled (statics : SecurityToken) : Prop :=
  statics.sThunderSecurityChecked = true ∨ statics.sToken = []

theorem makeClient_again (first second : ReserveOutcome) (world asked : World)
    (settled : world.securityToken.Settled)
    (kept : asked.securityToken = (makeClient first world).2.securityToken) :
    (makeClient second asked).1 = (makeClient first world).1 := by
  have asking : ∀ outcome world, makeClient outcome world =
      ((getThunderControllerClient outcome.security ttsCallsign world.securityToken).1,
        { world with securityToken :=
          (getThunderControllerClient outcome.security ttsCallsign world.securityToken).2 }) :=
    fun _ _ => rfl
  rw [asking first world] at kept ⊢
  rw [asking second asked, kept]
  simp only [getThunderControllerClient, getSecurityToken]
  cases checked : world.securityToken.sThunderSecurityChecked with
  | true => simp [checked]
  | false =>
      have empty : world.securityToken.sToken = [] := by
        simpa [SecurityToken.Settled, checked] using settled
      cases configured : first.security.thunderSecurityConfigured with
      | false => simp
      | true => by_cases failing : first.security.ret < 0 <;> simp [failing, empty]

/-- A list given as a fresh iterator reaches the TTS service unaltered, as often as it
is given; and for one app the two calls have the same effects and the same answer,
which is a success exactly if the feature is off or the service accepts the request. -/
theorem reserveTTS_agree (policy : EssPolicy) (world : World) (reference : Nat)
    (outcome : ReserveOutcome) :
    (∀ apps later, world.implementation.mDisableReserveTTS = false →
      world.iterators reference = ⟨apps, 0⟩ →
      outcome.raised = none → outcome.client = true →
      later.raised = none → later.client = true →
      let once := (callStep policy world (.reserveTTSResourceForApps (some reference) outcome)).1
      let twice := (callStep policy once (.reserveTTSResourceForApps (some reference) later)).1
      ∃ first second, SendsSpeak apps first world once ∧ SendsSpeak apps second once twice ∧
        (world.securityToken.Settled → second = first)) ∧
    (∀ appid, world.iterators reference = ⟨[appid], 0⟩ →
      (∀ index, outcome.raised ≠ some (.readApp index)) →
      let single := callStep policy world (.reserveTTSResource appid outcome)
      let listed := callStep policy world (.reserveTTSResourceForApps (some reference) outcome)
      single = listed ∧ single.2.code = errorNone ∧
        (single.2.success = true ↔
          world.implementation.mDisableReserveTTS = true ∨ outcome.Accepted)) := by
  constructor
  · intro apps later enabled fresh uninterrupted made laterUninterrupted laterMade once twice
    have step := callStep_reserveTTSResourceForApps policy world reference apps outcome enabled
      fresh uninterrupted made
    have stillEnabled : once.implementation.mDisableReserveTTS = false := by
      simp only [once, step]
      exact enabled
    have stillFresh : once.iterators reference = ⟨apps, 0⟩ := by
      simp only [once, step]
      exact fresh
    refine ⟨_, _, callStep_sendsSpeak policy world reference apps outcome enabled fresh
      uninterrupted made, callStep_sendsSpeak policy once reference apps later stillEnabled
      stillFresh laterUninterrupted laterMade, ?_⟩
    intro settled
    have kept : once.securityToken = (makeClient outcome world).2.securityToken := by
      simp only [once, step]
      rfl
    rw [makeClient_again outcome later world once settled kept]
  · intro appid fresh readable single listed
    refine ⟨reserve_single policy world reference appid outcome fresh readable, ?_⟩
    have answer : single.2 = if world.implementation.mDisableReserveTTS then reserved true
        else reserved outcome.status := by
      simp only [single, callStep, Call.program, reserveTTSResource, run_critical, run_tryCatch]
      cases disabled : world.implementation.mDisableReserveTTS with
      | true =>
          rw [reserveTTSResourceTry, attempt_read_bind, disabled]
          rfl
      | false =>
          rw [attempt_reserveTTSResourceTry world appid outcome disabled]
          exact reserveSpeak_answer world [appid] outcome readable
    rw [answer, ← status_iff]
    cases world.implementation.mDisableReserveTTS <;> simp [reserved]

theorem reserveTTS_agree_repeated :
    let iterators (reference : Nat) : StringIterator :=
      if reference = 0 then ⟨[ascii "a", ascii "a"], 0⟩ else ⟨[ascii "a"], 0⟩
    let world := World.boot iterators none fallbackGetRFCParameter fallbackGetRFCParameter
    let outcome : ReserveOutcome := ⟨none, ⟨false, 0, [], []⟩, true, errorGeneral, []⟩
    let once := (callStep (fun _ _ => true) world (.reserveTTSResourceForApps (some 0) outcome)).1
    let twice := (callStep (fun _ _ => true) once (.reserveTTSResourceForApps (some 0) outcome)).1
    (∃ first second, SendsSpeak [ascii "a", ascii "a"] first world once ∧
      SendsSpeak [ascii "a", ascii "a"] second once twice ∧ second = first) ∧
    callStep (fun _ _ => true) world (.reserveTTSResource (ascii "a") outcome) =
      callStep (fun _ _ => true) world (.reserveTTSResourceForApps (some 1) outcome) := by
  intro iterators world outcome once twice
  have listed := (reserveTTS_agree (fun _ _ => true) world 0 outcome).1 [ascii "a", ascii "a"]
    outcome rfl rfl rfl rfl rfl rfl
  have single := (reserveTTS_agree (fun _ _ => true) world 1 outcome).2 (ascii "a") rfl
    (by simp [outcome])
  obtain ⟨first, second, sent, again, same⟩ := listed
  exact ⟨⟨first, second, sent, again, same (.inr rfl)⟩, single.1⟩

end LeanResourceManager
