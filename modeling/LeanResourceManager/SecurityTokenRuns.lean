import LeanResourceManager.SecurityTokenCore
import LeanResourceManager.Library.Machine

/-!
Runs of `getThunderControllerClient` in one process, in an environment that changes
from call to call.
-/

namespace LeanResourceManager

open LeanMachine

structure ClientRequest where
  callsign : String
  environment : SecurityEnvironment
  deriving DecidableEq

def clientStep (statics : SecurityToken) (request : ClientRequest) :
    SecurityToken × ThunderClient :=
  let (client, statics) := getThunderControllerClient request.environment request.callsign statics
  (statics, client)

def SecurityEnvironment.delivered (environment : SecurityEnvironment) : Option (List UInt8) :=
  if environment.thunderSecurityConfigured && environment.ret ≥ 0 then
    some environment.bufferString
  else none

def tokenQuery (token : List UInt8) : List UInt8 := ascii "token=" ++ token

def CarriesDelivered (environments : List SecurityEnvironment) (client : ThunderClient) : Prop :=
  ∃ environment ∈ environments, ∃ token,
    environment.delivered = some token ∧ client.query = tokenQuery token

theorem clientStep_checked (statics : SecurityToken) (request : ClientRequest)
    (checked : statics.sThunderSecurityChecked = true) :
    clientStep statics request =
      (statics, { callsign := request.callsign, query := tokenQuery statics.sToken }) := by
  simp [clientStep, getThunderControllerClient, getSecurityToken, checked, tokenQuery]

theorem clientStep_first (request : ClientRequest) :
    clientStep .initial request = ({
      sToken := request.environment.delivered.getD []
      sThunderSecurityChecked := true
    }, {
      callsign := request.callsign
      query := tokenQuery (request.environment.delivered.getD [])
    }) := by
  cases configured : request.environment.thunderSecurityConfigured with
  | false =>
      simp [clientStep, getThunderControllerClient, getSecurityToken, SecurityToken.initial,
        SecurityEnvironment.delivered, configured, tokenQuery]
  | true =>
      by_cases failing : request.environment.ret < 0
      · have undelivered : ¬0 ≤ request.environment.ret := by omega
        simp [clientStep, getThunderControllerClient, getSecurityToken, SecurityToken.initial,
          SecurityEnvironment.delivered, configured, tokenQuery, failing, undelivered]
      · have delivered : 0 ≤ request.environment.ret := by omega
        simp [clientStep, getThunderControllerClient, getSecurityToken, SecurityToken.initial,
          SecurityEnvironment.delivered, configured, tokenQuery, failing, delivered]

theorem runHistory_checked (statics : SecurityToken) (requests : List ClientRequest)
    (checked : statics.sThunderSecurityChecked = true) :
    runHistory clientStep statics requests = requests.map fun request =>
      (request, { callsign := request.callsign, query := tokenQuery statics.sToken }) := by
  induction requests with
  | nil => rfl
  | cons request rest ih =>
      rw [runHistory_cons, clientStep_checked statics request checked, ih, List.map_cons]

/-- The first call of the process decides: every call of the run carries the token
delivered to the first call, or the empty token if the first call got none. -/
theorem first_request_decides_token (first : ClientRequest) (rest : List ClientRequest) :
    (runHistory clientStep .initial (first :: rest) = (first :: rest).map fun request =>
      (request, {
        callsign := request.callsign
        query := tokenQuery (first.environment.delivered.getD [])
      })) ∧
    (first.environment.delivered.isSome = true →
      ∀ entry ∈ runHistory clientStep .initial (first :: rest),
        CarriesDelivered [first.environment] entry.2) := by
  have history : runHistory clientStep .initial (first :: rest) = (first :: rest).map fun request =>
      (request, {
        callsign := request.callsign
        query := tokenQuery (first.environment.delivered.getD [])
      }) := by
    rw [runHistory_cons, clientStep_first, runHistory_checked _ rest rfl, List.map_cons]
  refine ⟨history, ?_⟩
  intro got entry member
  rw [history] at member
  obtain ⟨request, _, same⟩ := List.mem_map.mp member
  obtain ⟨token, delivered⟩ := Option.isSome_iff_exists.mp got
  refine ⟨first.environment, by simp, token, delivered, ?_⟩
  rw [← same, delivered, Option.getD_some]

/-- Security is not configured yet at the first call; at the second it is, and the
token "t" is delivered. -/
theorem later_token_not_carried :
    let early : SecurityEnvironment := ⟨false, 0, [], []⟩
    let late : SecurityEnvironment := ⟨true, 1, ascii "t", []⟩
    let statics := runState clientStep .initial [⟨"", early⟩]
    late.delivered = some (ascii "t") ∧
      ¬CarriesDelivered [early, late] (clientStep statics ⟨"", late⟩).2 := by
  intro early late statics
  have deliveredLate : late.delivered = some (ascii "t") := by decide
  refine ⟨deliveredLate, ?_⟩
  rintro ⟨environment, member, token, delivered, query⟩
  rcases List.mem_pair.mp member with first | second
  · rw [first] at delivered
    exact absurd delivered (by simp [early, SecurityEnvironment.delivered])
  · rw [second, deliveredLate] at delivered
    rw [← Option.some.inj delivered] at query
    exact absurd query (by decide)

end LeanResourceManager
