import Mathlib.Logic.Function.Basic
import Std.Data.ExtTreeMap
import LeanResourceManager.Library.Program
import LeanResourceManager.TextToSpeechCore

/-!
`ResourceManagerImplementation` in an `ENABLE_ERM` build: its constructor and its
four API calls, as programs over the state that concurrent calls share.
-/

namespace LeanResourceManager

abbrev HResult := UInt32

def errorNone : HResult := 0

def errorGeneral : HResult := 1

def errorUnavailable : HResult := 2

abbrev AppMap := Std.ExtTreeMap AppId Bool

structure ResourceManagerImplementation where
  mEssRMgr : Option Nat
  mDisableBlacklist : Bool
  mDisableReserveTTS : Bool
  mAppsAVBlacklistStatus : AppMap

inductive Effect
  | essRequest (request : EssRequest) (granted : Bool)
  | statusWrite (appid : AppId) (blocked : Bool)
  | setACL (request : SetACLRequest)

structure StringIterator where
  elements : List AppId
  position : Nat
  deriving DecidableEq

/-- Everything calls share: the instance, the manager it talks to, the statics of
the token lookup, the callers' iterators, and the effects so far in order. -/
structure World where
  implementation : ResourceManagerImplementation
  essRMgr : EssRMgr
  securityToken : SecurityToken
  iterators : Nat → StringIterator
  effects : List Effect

structure Response where
  code : HResult
  success : Bool
  clients : Option (List AppId)
  deriving DecidableEq

inductive StdException
  | thrown
  deriving DecidableEq

abbrev TryBlock (α : Type) := ExceptT StdException (LeanProgram World) α

def throwIf (raised : Bool) : TryBlock Unit := if raised then throw .thrown else pure ()

def construct (handle : Option Nat) (blacklist reserveTTS : RfcLookup) :
    ResourceManagerImplementation where
  mEssRMgr := handle
  mDisableBlacklist := disabledByRfc blacklist
  mDisableReserveTTS := disabledByRfc reserveTTS
  mAppsAVBlacklistStatus := ∅

def World.restart (world : World) (handle : Option Nat) (blacklist reserveTTS : RfcLookup) :
    World :=
  { world with
    implementation := construct handle blacklist reserveTTS
    effects := [] }

def World.boot (iterators : Nat → StringIterator) (handle : Option Nat)
    (blacklist reserveTTS : RfcLookup) : World where
  implementation := construct handle blacklist reserveTTS
  essRMgr := { requests := [], blacklist := ∅ }
  securityToken := .initial
  iterators := iterators
  effects := []

def ResourceManagerImplementation.blacklistEnabled (self : ResourceManagerImplementation) : Bool :=
  self.mEssRMgr.isSome && !self.mDisableBlacklist

/-! `SetAVBlocked` -/

/-- The steps of the `try` block of `SetAVBlocked` that can raise an exception. -/
inductive SetAVBlockedStep
  | printArguments
  | printStatus
  | insertEntry
  | printUpdated
  | buildInfoMessage
  | printInfoMessage
  deriving DecidableEq

def essRequest (appid : AppId) (blocked : Bool) : EssRequest :=
  if blocked then .addToBlackList (cStr appid) else .removeFromBlackList (cStr appid)

@[simp] theorem essRequest_name (appid : AppId) (blocked : Bool) :
    (essRequest appid blocked).name = cStr appid := by
  cases blocked <;> rfl

@[simp] theorem essRequest_blocked (appid : AppId) (blocked : Bool) :
    (essRequest appid blocked).blocked = blocked := by
  cases blocked <;> rfl

def callEssRMgr (policy : EssPolicy) (request : EssRequest) (world : World) : Bool × World :=
  let (granted, manager) := world.essRMgr.handle policy request
  (granted, { world with
    essRMgr := manager
    effects := world.effects ++ [.essRequest request granted] })

def World.setStatus (world : World) (status : AppMap) : World :=
  { world with implementation := { world.implementation with mAppsAVBlacklistStatus := status } }

/-- `operator[]`: a missing key is inserted with `false`, unless that fails. -/
def indexStatus (appid : AppId) (fails : Bool) : TryBlock Unit := do
  let world ← LeanProgram.tryRead
  if appid ∈ world.implementation.mAppsAVBlacklistStatus then pure ()
  else
    throwIf fails
    LeanProgram.tryModify fun world =>
      world.setStatus (world.implementation.mAppsAVBlacklistStatus.insert appid false)

def assignStatus (appid : AppId) (blocked : Bool) (world : World) : World :=
  { world.setStatus (world.implementation.mAppsAVBlacklistStatus.insert appid blocked) with
    effects := world.effects ++ [.statusWrite appid blocked] }

def writeStatus (appid : AppId) (blocked fails : Bool) : TryBlock Unit := do
  indexStatus appid fails
  LeanProgram.tryModify (assignStatus appid blocked)

def setAVBlockedTry (policy : EssPolicy) (appid : AppId) (blocked : Bool)
    (raised : Option SetAVBlockedStep) : TryBlock Response := do
  let world ← LeanProgram.tryRead
  if world.implementation.blacklistEnabled then
    throwIf (raised = some .printArguments)
    let status ← LeanProgram.tryAccess (callEssRMgr policy (essRequest appid blocked))
    throwIf (raised = some .printStatus)
    if status then
      writeStatus appid blocked (raised = some .insertEntry)
      throwIf (raised = some .printUpdated)
      pure { code := errorNone, success := true, clients := none }
    else
      pure { code := errorGeneral, success := false, clients := none }
  else
    throwIf (raised = some .buildInfoMessage)
    throwIf (raised = some .printInfoMessage)
    pure { code := errorNone, success := true, clients := none }

def setAVBlocked (policy : EssPolicy) (appid : AppId) (blocked : Bool)
    (raised : Option SetAVBlockedStep) : LeanProgram World Response :=
  LeanProgram.critical (LeanProgram.tryCatch (setAVBlockedTry policy appid blocked raised)
    fun _ => { code := errorGeneral, success := false, clients := none })

/-! `GetBlockedAVApplications` -/

inductive GetBlockedStep
  | pushBack (index : Nat)
  | createIterator
  deriving DecidableEq

/-- The entry a map iterator moves to: the first whose key is past the last one. -/
def nextEntry (status : AppMap) (last : Option AppId) : Option (AppId × Bool) :=
  status.toList.find? fun entry => last.all fun key => compare key entry.1 = .lt

/-- The loop over the map; `fuel` is its size when the loop starts. -/
def visitEntries (raised : Option GetBlockedStep) :
    Nat → Option AppId → List AppId → TryBlock (List AppId)
  | 0, _, blockedApps => pure blockedApps
  | fuel + 1, last, blockedApps => do
      let world ← LeanProgram.tryRead
      match nextEntry world.implementation.mAppsAVBlacklistStatus last with
      | none => pure blockedApps
      | some (app, false) => visitEntries raised fuel (some app) blockedApps
      | some (app, true) =>
          throwIf (raised = some (.pushBack blockedApps.length))
          visitEntries raised fuel (some app) (blockedApps ++ [app])

def getBlockedAVApplicationsTry (raised : Option GetBlockedStep) : TryBlock Response := do
  let world ← LeanProgram.tryRead
  if world.implementation.mEssRMgr.isSome then
    let blockedApps ←
      visitEntries raised world.implementation.mAppsAVBlacklistStatus.size none []
    throwIf (raised = some .createIterator)
    pure { code := errorNone, success := true, clients := some blockedApps }
  else
    pure { code := errorUnavailable, success := false, clients := none }

def getBlockedAVApplications (raised : Option GetBlockedStep) : LeanProgram World Response :=
  LeanProgram.critical (LeanProgram.tryCatch (getBlockedAVApplicationsTry raised)
    fun _ => { code := errorGeneral, success := false, clients := none })

/-! `ReserveTTSResource` and `ReserveTTSResourceForApps` -/

def ttsCallsign : String := "org.rdk.TextToSpeech.1"

def makeClient (outcome : ReserveOutcome) (world : World) : ThunderClient × World :=
  let (client, statics) :=
    getThunderControllerClient outcome.security ttsCallsign world.securityToken
  (client, { world with securityToken := statics })

def World.sendSetACL (request : SetACLRequest) (world : World) : World :=
  { world with effects := world.effects ++ [.setACL request] }

def callSetACL (outcome : ReserveOutcome) (params : JsonObject) : TryBlock Response := do
  let client ← LeanProgram.tryAccess (makeClient outcome)
  throwIf (outcome.raised = some .createClient)
  if outcome.client then
    throwIf (outcome.raised = some .invoke)
    LeanProgram.tryModify (World.sendSetACL { client := client, params := params })
    throwIf (outcome.raised = some .awaitResponse)
    throwIf (outcome.raised = some .printResponse)
    let status := outcome.code = errorNone && outcome.response.hasLabel "success" &&
      outcome.response.booleanAt "success"
    pure { code := errorNone, success := status, clients := none }
  else
    throwIf (outcome.raised = some .printResponse)
    pure { code := errorNone, success := false, clients := none }

def reserveTTSResourceTry (appid : AppId) (outcome : ReserveOutcome) : TryBlock Response := do
  let world ← LeanProgram.tryRead
  if world.implementation.mDisableReserveTTS then
    pure { code := errorNone, success := true, clients := none }
  else
    throwIf (outcome.raised = some .buildParams)
    let clientList := [JsonValue.string appid]
    let clientParam := JsonObject.set [] "method" (.string (ascii "speak"))
    let clientParam := clientParam.set "apps" (.array clientList)
    let accessList := [JsonValue.object clientParam]
    callSetACL outcome (JsonObject.set [] "accesslist" (.array accessList))

def reserveTTSResource (appid : AppId) (outcome : ReserveOutcome) : LeanProgram World Response :=
  LeanProgram.critical (LeanProgram.tryCatch (reserveTTSResourceTry appid outcome)
    fun _ => { code := errorNone, success := false, clients := none })

def World.setIterator (world : World) (reference : Nat) (iterator : StringIterator) : World :=
  { world with iterators := Function.update world.iterators reference iterator }

def iteratorNext (reference : Nat) (world : World) : Option AppId × World :=
  let iterator := world.iterators reference
  match iterator.elements[iterator.position]? with
  | none => (none, world)
  | some element =>
      (some element, world.setIterator reference { iterator with position := iterator.position + 1 })

def iteratorReset (reference : Nat) (world : World) : World :=
  world.setIterator reference { world.iterators reference with position := 0 }

def readApps (reference : Nat) (raised : Option ReserveStep) :
    Nat → List AppId → TryBlock (List AppId)
  | 0, apps => pure apps
  | fuel + 1, apps => do
      match ← LeanProgram.tryAccess (iteratorNext reference) with
      | none => pure apps
      | some app =>
          throwIf (raised = some (.readApp apps.length))
          readApps reference raised fuel (apps ++ [app])

def reserveTTSResourceForAppsTry (reference : Nat) (outcome : ReserveOutcome) :
    TryBlock Response := do
  let world ← LeanProgram.tryRead
  if world.implementation.mDisableReserveTTS then
    pure { code := errorNone, success := true, clients := none }
  else
    let apps ←
      readApps reference outcome.raised ((world.iterators reference).elements.length + 1) []
    LeanProgram.tryModify (iteratorReset reference)
    throwIf (outcome.raised = some .buildParams)
    let clientList := apps.map JsonValue.string
    let clientParam := JsonObject.set [] "method" (.string (ascii "speak"))
    let clientParam := clientParam.set "apps" (.array clientList)
    let accessList := [JsonValue.object clientParam]
    callSetACL outcome (JsonObject.set [] "accesslist" (.array accessList))

def reserveTTSResourceForApps (appids : Option Nat) (outcome : ReserveOutcome) :
    LeanProgram World Response :=
  match appids with
  | none => pure { code := errorNone, success := false, clients := none }
  | some reference =>
      LeanProgram.critical (LeanProgram.tryCatch (reserveTTSResourceForAppsTry reference outcome)
        fun _ => { code := errorNone, success := false, clients := none })

inductive Call
  | setAVBlocked (appid : AppId) (blocked : Bool) (raised : Option SetAVBlockedStep)
  | getBlockedAVApplications (raised : Option GetBlockedStep)
  | reserveTTSResource (appid : AppId) (outcome : ReserveOutcome)
  | reserveTTSResourceForApps (appids : Option Nat) (outcome : ReserveOutcome)

def Call.program (policy : EssPolicy) : Call → LeanProgram World Response
  | .setAVBlocked appid blocked raised => LeanResourceManager.setAVBlocked policy appid blocked raised
  | .getBlockedAVApplications raised => LeanResourceManager.getBlockedAVApplications raised
  | .reserveTTSResource appid outcome => LeanResourceManager.reserveTTSResource appid outcome
  | .reserveTTSResourceForApps appids outcome =>
      LeanResourceManager.reserveTTSResourceForApps appids outcome

def callStep (policy : EssPolicy) (world : World) (call : Call) : World × Response :=
  (call.program policy).run world

end LeanResourceManager
