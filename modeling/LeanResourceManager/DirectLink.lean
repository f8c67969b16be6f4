import LeanResourceManager.ImplementationCore

/-!
`JSONRPCDirectLink::Invoke` in the two builds that have an implementation of it: for
Thunder 4.4, and for Thunder 2 and 4.2.
-/

namespace LeanResourceManager

def errorBadRequest : HResult := 30

/-- The result code `~0`: there is no response to the message. -/
def noResponse : HResult := 4294967295

inductive JsonField
  | unset
  | null
  | text (value : List UInt8)
  deriving DecidableEq

structure RpcError where
  code : HResult
  text : List UInt8
  deriving DecidableEq

structure RpcMessage where
  id : UInt32
  designator : List UInt8
  parameters : JsonField
  result : JsonField
  error : Option RpcError
  deriving DecidableEq

structure DispatchRequest where
  channelId : UInt32
  id : UInt32
  designator : List UInt8
  parameters : JsonField
  deriving DecidableEq

structure ParametersElement where
  isSet : Bool
  toString : Option (List UInt8)
  deriving DecidableEq

structure JSONRPCDirectLink where
  mId : UInt32
  mCallSign : List UInt8
  dispatcher : Bool
  deriving DecidableEq

/-- One call, the response's `FromString`, and the answer of the local dispatcher,
if there is one. -/
structure InvokeCall (ρ : Type) where
  method : List UInt8
  parameters : ParametersElement
  isResponseString : Bool
  fromString : JsonField → Option ρ
  answer : Option (HResult × List UInt8)

inductive MessageFault
  | readAfterRelease
  deriving DecidableEq

structure InvokeEnd (ρ : Type) where
  dispatched : Option DispatchRequest
  status : Except MessageFault HResult
  response : Option ρ

def toMessage (parameters : ParametersElement) (message : RpcMessage) : Bool × RpcMessage :=
  if !parameters.isSet then (true, message)
  else
    match parameters.toString with
    | none => (false, message)
    | some values =>
        if values ≠ [] then (true, { message with parameters := .text values })
        else (true, message)

section Invoke

variable {ρ : Type}

/-- `none` is a message after `Release`. -/
def fromMessage (fromString : JsonField → Option ρ) (message : Option RpcMessage)
    (isResponseString : Bool) : Except MessageFault (Bool × Option ρ) :=
  if isResponseString then .ok (true, none)
  else
    match message with
    | none => .error .readAfterRelease
    | some message =>
        match fromString message.result with
        | none => .ok (false, none)
        | some response => .ok (true, some response)

def JSONRPCDirectLink.newMessage (link : JSONRPCDirectLink) (method : List UInt8) : RpcMessage where
  id := link.mId
  designator := link.mCallSign ++ ascii ".1." ++ method
  parameters := .unset
  result := .unset
  error := none

def RpcMessage.request (message : RpcMessage) : DispatchRequest where
  channelId := 4294967295
  id := message.id
  designator := message.designator
  parameters := message.parameters

def resultField (output : List UInt8) : JsonField :=
  if output = [] then .null else .text output

def recordAnswer (result : HResult) (output : List UInt8) (message : RpcMessage) :
    Option RpcMessage :=
  if result = noResponse then none
  else if result = errorNone then some { message with result := resultField output }
  else some { message with error := some ⟨result, output⟩ }

def finish (dispatched : Option DispatchRequest) :
    Except MessageFault (Bool × Option ρ) → InvokeEnd ρ
  | .error fault => ⟨dispatched, .error fault, none⟩
  | .ok (false, response) => ⟨dispatched, .ok errorGeneral, response⟩
  | .ok (true, response) => ⟨dispatched, .ok errorNone, response⟩

def JSONRPCDirectLink.invoke (link : JSONRPCDirectLink) (call : InvokeCall ρ) :
    JSONRPCDirectLink × InvokeEnd ρ :=
  if !link.dispatcher then (link, ⟨none, .ok errorGeneral, none⟩)
  else
    let link := { link with mId := link.mId + 1 }
    let message := link.newMessage call.method
    -- the result of `ToMessage` is dropped
    let (_, message) := toMessage call.parameters message
    let (dispatched, result, output) :=
      match call.answer with
      | none => (none, errorBadRequest, [])
      | some (result, output) => (some message.request, result, output)
    let message := recordAnswer result output message
    (link, finish dispatched (fromMessage call.fromString message call.isResponseString))

/-- The dispatcher of Thunder 2 and 4.2 answers with a message of its own. -/
def answerMessage (result : HResult) (output : List UInt8) (message : RpcMessage) : RpcMessage :=
  if result = errorNone then { message with result := resultField output }
  else { message with error := some ⟨result, output⟩ }

def JSONRPCDirectLink.invokeR2 (link : JSONRPCDirectLink) (call : InvokeCall ρ)
    (result : HResult) (output : List UInt8) : JSONRPCDirectLink × InvokeEnd ρ :=
  if !link.dispatcher then (link, ⟨none, .ok errorGeneral, none⟩)
  else
    let link := { link with mId := link.mId + 1 }
    let message := link.newMessage call.method
    let (_, message) := toMessage call.parameters message
    let resp := answerMessage result output message
    match resp.error with
    | some error => (link, ⟨some message.request, .ok error.code, none⟩)
    | none =>
        (link, finish (some message.request)
          (fromMessage call.fromString (some resp) call.isResponseString))

/-! What a call is to report. -/

def ParametersElement.CarriedBy (element : ParametersElement) (parameters : JsonField) : Prop :=
  element.isSet = false ∨ ∃ values, element.toString = some values ∧
    parameters = if values = [] then .unset else .text values

def Delivered (call : InvokeCall ρ) (ended : InvokeEnd ρ) : Prop :=
  ∃ request output, ended.dispatched = some request ∧
    call.parameters.CarriedBy request.parameters ∧ call.answer = some (errorNone, output) ∧
    (call.isResponseString = true ∨ (call.fromString (resultField output)).isSome = true)

def InvokeEnd.Reports (ended : InvokeEnd ρ) : Prop :=
  ∃ code, ended.status = .ok code ∧ code ≠ errorNone

structure ReportsEveryFailure (link : JSONRPCDirectLink) (call : InvokeCall ρ) : Prop where
  safe : (link.invoke call).2.status ≠ .error .readAfterRelease
  succeeds : (link.invoke call).2.status = .ok errorNone → Delivered call (link.invoke call).2
  fails : ¬Delivered call (link.invoke call).2 → (link.invoke call).2.Reports
  agrees : ∀ result output, call.answer = some (result, output) →
    ((link.invoke call).2.Reports ↔ (link.invokeR2 call result output).2.Reports)

/-! The calls that fail without a report. -/

def InvokeCall.outcome (call : InvokeCall ρ) : HResult × List UInt8 :=
  call.answer.getD (errorBadRequest, [])

def InvokeCall.accepts (call : InvokeCall ρ) (field : JsonField) : Bool :=
  call.isResponseString || (call.fromString field).isSome

/-- The three kinds of call that the 4.4 branch gets wrong. -/
inductive InvokeCall.Unreported (call : InvokeCall ρ) : Prop
  | silent : call.outcome.1 = noResponse → call.Unreported
  | refused : call.outcome.1 ≠ errorNone → call.accepts .unset = true → call.Unreported
  | unserialised : call.outcome.1 = errorNone → call.parameters.isSet = true →
      call.parameters.toString = none → call.accepts (resultField call.outcome.2) = true →
      call.Unreported

def JSONRPCDirectLink.sentMessage (link : JSONRPCDirectLink) (call : InvokeCall ρ) : RpcMessage :=
  (toMessage call.parameters ({ link with mId := link.mId + 1 }.newMessage call.method)).2

theorem sentMessage_result (link : JSONRPCDirectLink) (call : InvokeCall ρ) :
    (link.sentMessage call).result = .unset ∧ (link.sentMessage call).error = none := by
  simp only [JSONRPCDirectLink.sentMessage, toMessage]
  split
  · exact ⟨rfl, rfl⟩
  · split
    · exact ⟨rfl, rfl⟩
    · split <;> exact ⟨rfl, rfl⟩

theorem sentMessage_carried (link : JSONRPCDirectLink) (call : InvokeCall ρ) :
    call.parameters.CarriedBy (link.sentMessage call).parameters ↔
      ¬(call.parameters.isSet = true ∧ call.parameters.toString = none) := by
  simp only [JSONRPCDirectLink.sentMessage, toMessage, ParametersElement.CarriedBy]
  cases isSet : call.parameters.isSet with
  | false => simp
  | true =>
      cases text : call.parameters.toString with
      | none => simp
      | some values =>
          by_cases empty : values = [] <;> simp [empty, JSONRPCDirectLink.newMessage]

theorem finish_status (call : InvokeCall ρ) (dispatched : Option DispatchRequest)
    (message : RpcMessage) :
    (finish dispatched (fromMessage call.fromString (some message) call.isResponseString)).status =
      .ok (if call.accepts message.result then errorNone else errorGeneral) := by
  by_cases raw : call.isResponseString = true
  · simp [fromMessage, InvokeCall.accepts, raw, finish]
  · cases parsed : call.fromString message.result <;>
      simp [fromMessage, InvokeCall.accepts, raw, parsed, finish]

theorem finish_dispatched (dispatched : Option DispatchRequest)
    (ended : Except MessageFault (Bool × Option ρ)) :
    (finish dispatched ended).dispatched = dispatched := by
  cases ended with
  | error fault => rfl
  | ok result =>
      obtain ⟨parsed, response⟩ := result
      cases parsed <;> rfl

theorem invoke_connected (link : JSONRPCDirectLink) (call : InvokeCall ρ)
    (connected : link.dispatcher = true) :
    (link.invoke call).2 = finish (call.answer.map fun _ => (link.sentMessage call).request)
      (fromMessage call.fromString
        (recordAnswer call.outcome.1 call.outcome.2 (link.sentMessage call))
        call.isResponseString) := by
  simp only [JSONRPCDirectLink.invoke, connected, InvokeCall.outcome]
  cases call.answer <;> rfl

theorem invoke_disconnected (link : JSONRPCDirectLink) (call : InvokeCall ρ)
    (missing : link.dispatcher = false) :
    (link.invoke call).2 = ⟨none, .ok errorGeneral, none⟩ := by
  simp [JSONRPCDirectLink.invoke, missing]

theorem invoke_delivered (link : JSONRPCDirectLink) (call : InvokeCall ρ)
    (connected : link.dispatcher = true) :
    Delivered call (link.invoke call).2 ↔ call.outcome.1 = errorNone ∧
      ¬(call.parameters.isSet = true ∧ call.parameters.toString = none) ∧
      call.accepts (resultField call.outcome.2) = true := by
  rw [← sentMessage_carried link call]
  simp only [Delivered, invoke_connected link call connected, finish_dispatched,
    InvokeCall.accepts, InvokeCall.outcome, Bool.or_eq_true]
  cases call.answer with
  | none => simp [errorBadRequest, errorNone]
  | some answer =>
      obtain ⟨result, output⟩ := answer
      simp only [Option.map_some, Option.getD_some, Option.some.injEq, Prod.mk.injEq]
      constructor
      · rintro ⟨request, written, same, carried, ⟨succeeded, rfl⟩, accepted⟩
        subst same
        exact ⟨succeeded, carried, accepted⟩
      · rintro ⟨succeeded, carried, accepted⟩
        exact ⟨_, output, rfl, carried, ⟨succeeded, rfl⟩, accepted⟩

theorem invoke_status (link : JSONRPCDirectLink) (call : InvokeCall ρ)
    (connected : link.dispatcher = true) (responded : call.outcome.1 ≠ noResponse) :
    (link.invoke call).2.status =
      .ok (if call.accepts (if call.outcome.1 = errorNone then resultField call.outcome.2
        else .unset) then errorNone else errorGeneral) := by
  rw [invoke_connected link call connected, recordAnswer, if_neg responded]
  by_cases succeeded : call.outcome.1 = errorNone
  · simp only [succeeded, if_true, finish_status]
  · simp only [succeeded, if_false, finish_status, (sentMessage_result link call).1]

theorem invoke_silent (link : JSONRPCDirectLink) (call : InvokeCall ρ)
    (connected : link.dispatcher = true) (silent : call.outcome.1 = noResponse) :
    (link.invoke call).2.status =
      if call.isResponseString then .ok errorNone else .error .readAfterRelease := by
  rw [invoke_connected link call connected, recordAnswer, if_pos silent]
  cases call.isResponseString <;> rfl

theorem invokeR2_status (link : JSONRPCDirectLink) (call : InvokeCall ρ) (result : HResult)
    (output : List UInt8) (connected : link.dispatcher = true) :
    (link.invokeR2 call result output).2.status =
      .ok (if result = errorNone then
        if call.accepts (resultField output) then errorNone else errorGeneral
        else result) := by
  have sent := (sentMessage_result link call).2
  have unfolded : link.invokeR2 call result output =
      let link' := { link with mId := link.mId + 1 }
      let resp := answerMessage result output (link.sentMessage call)
      match resp.error with
      | some error => (link', ⟨some (link.sentMessage call).request, .ok error.code, none⟩)
      | none =>
          (link', finish (some (link.sentMessage call).request)
            (fromMessage call.fromString (some resp) call.isResponseString)) := by
    simp only [JSONRPCDirectLink.invokeR2, connected]
    rfl
  rw [unfolded]
  by_cases succeeded : result = errorNone
  · simp only [answerMessage, succeeded, if_true, sent, finish_status]
  · simp only [answerMessage, succeeded, if_false]

theorem errorGeneral_ne_errorNone : errorGeneral ≠ errorNone := by decide

theorem reports_of_status {ended : InvokeEnd ρ} {code : HResult}
    (status : ended.status = .ok code) : ended.Reports ↔ code ≠ errorNone := by
  simp [InvokeEnd.Reports, status]

theorem unreported_fails (link : JSONRPCDirectLink) (call : InvokeCall ρ)
    (connected : link.dispatcher = true) (unreported : call.Unreported) :
    ¬ReportsEveryFailure link call := by
  intro reports
  have delivered := invoke_delivered link call connected
  have succeeds : (link.invoke call).2.status = .ok errorNone → call.outcome.1 = errorNone ∧
      ¬(call.parameters.isSet = true ∧ call.parameters.toString = none) := by
    intro status
    have facts := delivered.mp (reports.succeeds status)
    exact ⟨facts.1, facts.2.1⟩
  have silent : call.outcome.1 ≠ noResponse := by
    intro silent
    have status := invoke_silent link call connected silent
    by_cases raw : call.isResponseString = true
    · rw [if_pos raw] at status
      have succeeded := (succeeds status).1
      rw [silent] at succeeded
      exact absurd succeeded (by decide)
    · rw [if_neg raw] at status
      exact reports.safe status
  have status := invoke_status link call connected silent
  cases unreported with
  | silent none => exact silent none
  | refused failed accepted =>
      rw [if_neg failed, if_pos accepted] at status
      exact failed (succeeds status).1
  | unserialised succeeded isSet text accepted =>
      rw [if_pos succeeded, if_pos accepted] at status
      exact (succeeds status).2 ⟨isSet, text⟩

theorem reports_of_not_unreported (link : JSONRPCDirectLink) (call : InvokeCall ρ)
    (connected : link.dispatcher = true) (reported : ¬call.Unreported) :
    ReportsEveryFailure link call := by
  have responded : call.outcome.1 ≠ noResponse := fun silent => reported (.silent silent)
  have status := invoke_status link call connected responded
  have delivered := invoke_delivered link call connected
  have refused : call.outcome.1 ≠ errorNone → call.accepts .unset = false := by
    intro failed
    by_contra accepted
    exact reported (.refused failed (by simpa using accepted))
  have serialised : call.outcome.1 = errorNone →
      call.accepts (resultField call.outcome.2) = true →
      ¬(call.parameters.isSet = true ∧ call.parameters.toString = none) := by
    rintro succeeded accepted ⟨isSet, text⟩
    exact reported (.unserialised succeeded isSet text accepted)
  have judged : (link.invoke call).2.Reports ↔ ¬Delivered call (link.invoke call).2 := by
    rw [reports_of_status status, delivered]
    by_cases succeeded : call.outcome.1 = errorNone
    · rw [if_pos succeeded]
      by_cases accepted : call.accepts (resultField call.outcome.2) = true
      · simp [accepted, succeeded, serialised succeeded accepted]
      · simp [accepted, errorGeneral_ne_errorNone]
    · simp [succeeded, refused succeeded, errorGeneral_ne_errorNone]
  refine ⟨?_, ?_, judged.mpr, ?_⟩
  · rw [status]
    simp
  · intro success
    by_contra undelivered
    obtain ⟨code, same, failing⟩ := judged.mpr undelivered
    rw [success] at same
    exact failing (Except.ok.inj same).symm
  · intro result output answered
    have outcome : call.outcome = (result, output) := by simp [InvokeCall.outcome, answered]
    rw [reports_of_status status,
      reports_of_status (invokeR2_status link call result output connected), outcome]
    by_cases succeeded : result = errorNone
    · rw [if_pos succeeded, if_pos succeeded]
    · have unaccepted := refused (by rw [outcome]; exact succeeded)
      simp [succeeded, unaccepted, errorGeneral_ne_errorNone]

/-- Every failure is reported exactly by the calls that do not reach a dispatcher and by
those of none of the three kinds. -/
theorem invoke_reportsEveryFailure_iff (link : JSONRPCDirectLink) (call : InvokeCall ρ) :
    ReportsEveryFailure link call ↔ link.dispatcher = false ∨ ¬call.Unreported := by
  cases connected : link.dispatcher with
  | true =>
      simp only [Bool.true_eq_false, false_or]
      constructor
      · exact fun reports unreported => unreported_fails link call connected unreported reports
      · exact reports_of_not_unreported link call connected
  | false =>
      refine iff_of_true ?_ (.inl rfl)
      have ended := invoke_disconnected link call connected
      have reports : (link.invoke call).2.Reports := by
        rw [ended]
        exact ⟨errorGeneral, rfl, errorGeneral_ne_errorNone⟩
      refine ⟨?_, ?_, fun _ => reports, ?_⟩
      · rw [ended]
        simp
      · rw [ended]
        intro success
        exact absurd (Except.ok.inj success) errorGeneral_ne_errorNone
      · intro result output _
        refine iff_of_true reports ⟨errorGeneral, ?_, errorGeneral_ne_errorNone⟩
        simp [JSONRPCDirectLink.invokeR2, connected]

end Invoke

/-- The dispatcher answers ERROR_UNAVAILABLE to a call for a raw string; to another
call it answers that there is no response. -/
theorem invoke_drops_error :
    let link : JSONRPCDirectLink := ⟨0, ascii "org.rdk.TextToSpeech", true⟩
    let parameters : ParametersElement := ⟨true, some (ascii "\x7b\x7d")⟩
    let raw : InvokeCall Unit :=
      ⟨ascii "setACL", parameters, true, fun _ => some (), some (errorUnavailable, [])⟩
    let parsed : InvokeCall Unit :=
      ⟨ascii "setACL", parameters, false, fun _ => some (), some (noResponse, [])⟩
    (link.invoke raw).2.status = .ok errorNone ∧
      (link.invokeR2 raw errorUnavailable []).2.status = .ok errorUnavailable ∧
      ¬ReportsEveryFailure link raw ∧
      (link.invoke parsed).2.status = .error .readAfterRelease ∧
      ¬ReportsEveryFailure link parsed := by
  intro link parameters raw parsed
  have released : (link.invoke parsed).2.status = .error .readAfterRelease := rfl
  refine ⟨rfl, rfl, ?_, released, ?_⟩
  · intro reports
    obtain ⟨request, output, _, _, answered, _⟩ := reports.succeeds rfl
    have code : errorUnavailable = errorNone := congrArg Prod.fst (Option.some.inj answered)
    exact absurd code (by decide)
  · intro reports
    exact reports.safe released

end LeanResourceManager
