import LeanResourceManager.TextToSpeechCore
import LeanResourceManager.Library.Loop

/-!
`SecurityToken::isThunderSecurityConfigured` of `UtilsController.h`: the transfer of the
Controller's configuration through `writeCurlResponse`, and the search for the Security
subsystem in what was received.
-/

namespace LeanResourceManager

open LeanLoop

def curleOk : Nat := 0

def curleWriteError : Nat := 23

/-- What libcurl does: a handle is made and takes every option, the body comes in
chunks, and `curl_easy_perform` and `curl_easy_getinfo` report their results. -/
structure CurlTransfer where
  prepared : Bool
  chunks : List (List UInt8)
  result : Nat
  responseCode : Option Int

def CurlTransfer.body (transfer : CurlTransfer) : List UInt8 := transfer.chunks.flatten

def CurlTransfer.Succeeded (transfer : CurlTransfer) : Prop :=
  transfer.prepared = true ∧ transfer.result = curleOk ∧ transfer.responseCode = some 200

structure CurlWrite where
  realsize : Nat
  stream : List UInt8

def writeCurlResponse (ptr : List UInt8) (size nmemb : Nat) (stream : List UInt8) : CurlWrite :=
  let realsize := size * nmemb
  let temp := ptr.take realsize
  { realsize := realsize, stream := stream ++ temp }

/-- libcurl passes every chunk as bytes of size one, and stops at a call that returns
another number than it was given. A `string` argument is passed by its address; libcurl,
which has the callback as a function of a pointer, passes `&jsonResp` and makes no copy. -/
def deliver : List (List UInt8) → List UInt8 → List UInt8 × Bool
  | [], jsonResp => (jsonResp, true)
  | chunk :: rest, jsonResp =>
      let call := writeCurlResponse chunk 1 chunk.length jsonResp
      if call.realsize = chunk.length then deliver rest call.stream else (call.stream, false)

def JsonObject.arrayAt (object : JsonObject) (label : String) : List JsonValue :=
  match object.find? fun field => field.1 = label with
  | some (_, .array elements) => elements
  | _ => []

-- no number, boolean, array or object has the text of a subsystem's name
def JsonValue.text : JsonValue → List UInt8
  | .string value => value
  | _ => []

def scanPass (subsystemList : List JsonValue) (i : Nat) : Pass Nat Bool :=
  match subsystemList[i]? with
  | none => .leave false
  | some subsystem =>
      if subsystem.text = ascii "Security" then .leave true else .again (i + 1)

def scanSubsystems (subsystemList : List JsonValue) : Bool :=
  match loop (scanPass subsystemList) (subsystemList.length + 1) 0 with
  | .leave configured => configured
  | .again _ => false

structure SecurityCheck where
  parsed : Option (List UInt8)
  configured : Bool

def isThunderSecurityConfigured (parse : List UInt8 → JsonObject) (transfer : CurlTransfer) :
    SecurityCheck :=
  let (jsonResp, res, http_code) :=
    if transfer.prepared then
      let (jsonResp, accepted) := deliver transfer.chunks []
      let res := if accepted then transfer.result else curleWriteError
      (jsonResp, res, transfer.responseCode.getD 0)
    else ([], curleOk, 0)
  if res = curleOk ∧ http_code = 200 then
    let responseJson := parse jsonResp
    let configured := responseJson.hasLabel "subsystems" &&
      scanSubsystems (responseJson.arrayAt "subsystems")
    { parsed := some jsonResp, configured := configured }
  else { parsed := none, configured := false }

theorem writeCurlResponse_chunk (chunk jsonResp : List UInt8) :
    writeCurlResponse chunk 1 chunk.length jsonResp = ⟨chunk.length, jsonResp ++ chunk⟩ := by
  simp [writeCurlResponse]

theorem deliver_eq (chunks : List (List UInt8)) (jsonResp : List UInt8) :
    deliver chunks jsonResp = (jsonResp ++ chunks.flatten, true) := by
  induction chunks generalizing jsonResp with
  | nil => simp [deliver]
  | cons chunk rest ih =>
      rw [deliver, writeCurlResponse_chunk]
      simp only [if_true]
      rw [ih, List.flatten_cons, List.append_assoc]

/-! The search finds the name at whatever position it has. -/

theorem text_eq_security (value : JsonValue) :
    value.text = ascii "Security" ↔ value = .string (ascii "Security") := by
  have named : ascii "Security" ≠ [] := by decide
  cases value <;> simp [JsonValue.text, named.symm]

def ScannedTo (subsystemList : List JsonValue) (i : Nat) : Prop :=
  i ≤ subsystemList.length ∧
    ∀ earlier < i, subsystemList[earlier]? ≠ some (.string (ascii "Security"))

theorem scanPass_scannedTo (subsystemList : List JsonValue) (i : Nat)
    (scanned : ScannedTo subsystemList i) :
    (scanPass subsystemList i).Meets
      (fun next => ScannedTo subsystemList next ∧
        subsystemList.length - next < subsystemList.length - i)
      (fun configured => configured = true ↔
        JsonValue.string (ascii "Security") ∈ subsystemList) := by
  obtain ⟨bound, others⟩ := scanned
  simp only [scanPass]
  cases element : subsystemList[i]? with
  | none =>
      have ended : subsystemList.length ≤ i := List.getElem?_eq_none_iff.mp element
      refine iff_of_false Bool.false_ne_true ?_
      intro member
      obtain ⟨position, found⟩ := List.mem_iff_getElem?.mp member
      have inside := (List.getElem?_eq_some_iff.mp found).1
      exact others position (by omega) found
  | some subsystem =>
      have inside := (List.getElem?_eq_some_iff.mp element).1
      by_cases named : subsystem.text = ascii "Security"
      · rw [text_eq_security] at named
        simp only [named, JsonValue.text, if_true]
        exact iff_of_true rfl (List.mem_iff_getElem?.mpr ⟨i, by rw [element, named]⟩)
      · simp only [named, if_false]
        refine ⟨⟨inside, ?_⟩, by omega⟩
        intro earlier before
        by_cases last : earlier = i
        · rw [last, element]
          intro same
          exact named ((text_eq_security subsystem).mpr (Option.some.inj same))
        · exact others earlier (by omega)

theorem scanSubsystems_iff (subsystemList : List JsonValue) :
    scanSubsystems subsystemList = true ↔
      JsonValue.string (ascii "Security") ∈ subsystemList := by
  have initial : ScannedTo subsystemList 0 := ⟨Nat.zero_le _, by omega⟩
  have enough : subsystemList.length - 0 < subsystemList.length + 1 := by omega
  obtain ⟨configured, left, found⟩ :=
    (loop_leaves (scanPass_scannedTo subsystemList) initial enough).exists
  rw [scanSubsystems, left]
  exact found

def ListsSecurity (response : JsonObject) : Prop :=
  ∃ subsystemList, response.find? (fun field => field.1 = "subsystems") =
    some ("subsystems", .array subsystemList) ∧
    JsonValue.string (ascii "Security") ∈ subsystemList

theorem listsSecurity_iff (response : JsonObject) :
    (response.hasLabel "subsystems" && scanSubsystems (response.arrayAt "subsystems")) = true ↔
      ListsSecurity response := by
  rw [Bool.and_eq_true, scanSubsystems_iff, JsonObject.arrayAt]
  constructor
  · rintro ⟨_, member⟩
    split at member
    · rename_i label elements found
      have same : label = "subsystems" := by simpa using List.find?_some found
      exact ⟨elements, by rw [found, same], member⟩
    · simp at member
  · rintro ⟨subsystemList, found, member⟩
    rw [found]
    refine ⟨?_, member⟩
    exact List.any_eq_true.mpr ⟨_, List.mem_of_find?_eq_some found, by simp⟩

/-! What the check parses. -/

theorem isThunderSecurityConfigured_succeeded (parse : List UInt8 → JsonObject)
    {transfer : CurlTransfer} (succeeded : transfer.Succeeded) :
    (isThunderSecurityConfigured parse transfer).parsed = some transfer.body ∧
      ((isThunderSecurityConfigured parse transfer).configured = true ↔
        ListsSecurity (parse transfer.body)) := by
  obtain ⟨prepared, ok, status⟩ := succeeded
  simp only [isThunderSecurityConfigured, prepared, deliver_eq, ok, status, if_true,
    Option.getD_some, and_self, List.nil_append]
  exact ⟨rfl, listsSecurity_iff _⟩

theorem isThunderSecurityConfigured_failed (parse : List UInt8 → JsonObject)
    {transfer : CurlTransfer} (failed : ¬transfer.Succeeded) :
    isThunderSecurityConfigured parse transfer = ⟨none, false⟩ := by
  cases prepared : transfer.prepared with
  | false => simp [isThunderSecurityConfigured, prepared]
  | true =>
      have refused : ¬(transfer.result = curleOk ∧ transfer.responseCode.getD 0 = 200) := by
        rintro ⟨ok, status⟩
        refine failed ⟨prepared, ok, ?_⟩
        cases answered : transfer.responseCode with
        | none => simp [answered] at status
        | some code => simpa [answered] using status
      simp only [isThunderSecurityConfigured, prepared, deliver_eq, if_true, if_neg refused]

theorem configured_iff (parse : List UInt8 → JsonObject) (transfer : CurlTransfer) :
    (isThunderSecurityConfigured parse transfer).configured = true ↔
      transfer.Succeeded ∧ ListsSecurity (parse transfer.body) := by
  by_cases succeeded : transfer.Succeeded
  · rw [(isThunderSecurityConfigured_succeeded parse succeeded).2]
    exact (and_iff_right succeeded).symm
  · simp [isThunderSecurityConfigured_failed parse succeeded, succeeded]

/-- The check parses the whole body of a transfer that succeeded, however it came in
chunks, and searches it; every other transfer ends with `false`. -/
structure SeesWholeBody (check : CurlTransfer → SecurityCheck) (parse : List UInt8 → JsonObject)
    (transfer : CurlTransfer) : Prop where
  parsed : transfer.Succeeded → (check transfer).parsed = some transfer.body
  configured : transfer.Succeeded →
    ((check transfer).configured = true ↔ ListsSecurity (parse transfer.body))
  otherwise : ¬transfer.Succeeded → (check transfer).configured = false
  independent : ∀ chunks : List (List UInt8), chunks.flatten = transfer.body →
    (check { transfer with chunks := chunks }).configured = (check transfer).configured

theorem isThunderSecurityConfigured_seesWholeBody (parse : List UInt8 → JsonObject)
    (transfer : CurlTransfer) :
    SeesWholeBody (isThunderSecurityConfigured parse) parse transfer where
  parsed succeeded := (isThunderSecurityConfigured_succeeded parse succeeded).1
  configured succeeded := (isThunderSecurityConfigured_succeeded parse succeeded).2
  otherwise failed := by rw [isThunderSecurityConfigured_failed parse failed]
  independent chunks same := by
    rw [Bool.eq_iff_iff, configured_iff, configured_iff, CurlTransfer.body, same]
    rfl

/-- A body in two chunks, the first of which ends inside the name. -/
example :
    let body := ascii "\x7b\"subsystems\":[\"Security\"]\x7d"
    let response : JsonObject := [("subsystems", .array [.string (ascii "Security")])]
    let parse (text : List UInt8) : JsonObject := if text = body then response else []
    (isThunderSecurityConfigured parse
      ⟨true, [body.take 18, body.drop 18], curleOk, some 200⟩).configured = true := by
  decide

end LeanResourceManager
