import LeanResourceManager.RfcGating

/-!
From the text of the RFC record to the requests of a whole run: which records close the
blacklist, and what the manager is asked where it is open.
-/

namespace LeanResourceManager

open LeanMachine LeanProgram

theorem toLower_eq_zero_iff (byte : UInt8) : toLower byte = 0 ↔ byte = 0 := by
  simp only [toLower]
  split
  · rename_i upper
    constructor
    · intro wrapped
      have value := congrArg UInt8.toNat wrapped
      have bound := UInt8.le_iff_toNat_le.mp upper.2
      simp only [UInt8.toNat_add, UInt8.toNat_ofNat] at value bound
      omega
    · intro zero
      exact absurd (zero ▸ upper.1) (by decide)
  · exact Iff.rfl

theorem strncasecmp_eq_zero_iff (first : List UInt8) {second : List UInt8}
    (nonzero : ∀ byte ∈ second, byte ≠ 0) :
    strncasecmp second.length first second = 0 ↔
      second.map toLower <+: first.map toLower := by
  induction second generalizing first with
  | nil => simp [strncasecmp]
  | cons right seconds ih =>
      have alive : toLower right ≠ 0 :=
        mt (toLower_eq_zero_iff right).mp (nonzero right (by simp))
      cases first with
      | nil =>
          have ended : toLower 0 ≠ toLower right := by
            rw [(toLower_eq_zero_iff 0).mpr rfl]
            exact alive.symm
          have different : ((toLower 0).toNat : Int) - (toLower right).toNat ≠ 0 := by
            intro same
            exact ended (UInt8.toNat_inj.mp (by omega))
          simp [strncasecmp, ended, different]
      | cons left firsts =>
          have rest := ih firsts fun byte member => nonzero byte (by simp [member])
          by_cases same : toLower left = toLower right
          · have more : left ≠ 0 := by
              intro zero
              rw [zero, (toLower_eq_zero_iff 0).mpr rfl] at same
              exact alive same.symm
            simp [strncasecmp, same, more, rest]
          · have different : ((toLower left).toNat : Int) - (toLower right).toNat ≠ 0 := by
              intro equal
              exact same (UInt8.toNat_inj.mp (by omega))
            simp [strncasecmp, same, different, Ne.symm same]

/-- A failed lookup, or a boolean record whose text starts with "false" in any case. -/
def RfcLookup.Closes (lookup : RfcLookup) : Prop :=
  lookup.status = .errGeneral ∨ lookup.param.type = .boolean ∧
    ascii "false" <+: lookup.param.value.toList.map toLower

theorem disabledByRfc_iff (lookup : RfcLookup) : disabledByRfc lookup = true ↔ lookup.Closes := by
  obtain ⟨status, type, value⟩ := lookup
  have lower : (ascii "false").map toLower = ascii "false" := by decide
  have nonzero : ∀ byte ∈ ascii "false", byte ≠ 0 := by
    have checked : (ascii "false").all (fun byte => byte ≠ 0) = true := by decide
    simpa using checked
  have text : strncasecmp 5 value.toList (ascii "false") = 0 ↔
      (ascii "false").map toLower <+: value.toList.map toLower :=
    strncasecmp_eq_zero_iff value.toList nonzero
  rw [lower] at text
  cases status <;>
    simp [disabledByRfc, getRFCConfig, RfcParamData.disables, RfcLookup.Closes, text]

/-! The requests of a run. -/

def Effect.asked : Effect → Option EssRequest
  | .essRequest request _ => some request
  | _ => none

/-- What a call asks the manager for where the blacklist is open; an exception raised
later changes nothing about it. -/
def Call.asks : Call → Option EssRequest
  | .setAVBlocked appid blocked raised =>
      if raised = some .printArguments then none else some (essRequest appid blocked)
  | _ => none

def World.essRequests (world : World) : List EssRequest :=
  world.effects.filterMap Effect.asked

theorem callStep_asks (policy : EssPolicy) (world : World) (call : Call) :
    (callStep policy world call).1.essRequests = world.essRequests ++
      if world.implementation.blacklistEnabled then call.asks.toList else [] := by
  let keeps (first second : World) : Prop := second.essRequests = first.essRequests
  have changes : ReserveAllowed keeps := by
    constructor
    · exact fun _ => rfl
    · exact fun _ _ => rfl
    · intro world request
      simp [keeps, World.essRequests, World.sendSetACL, Effect.asked]
    · exact fun _ _ _ => rfl
  have trans : ∀ first second third, keeps first second → keeps second third →
      keeps first third := fun _ _ _ left right => Eq.trans right left
  have quiet : ∀ call : Call, (∀ appid blocked raised, call ≠ .setAVBlocked appid blocked raised) →
      (callStep policy world call).1.essRequests = world.essRequests :=
    fun call other => reserve_frame changes trans policy world call other
  cases call with
  | setAVBlocked appid blocked raised =>
      have ends := setAVBlocked_ends policy appid blocked raised world
      simp only [callStep, Call.program]
      generalize (setAVBlocked policy appid blocked raised).run world = outcome at ends
      cases ends with
      | lost enabled granted late =>
          have asked : raised ≠ some .printArguments := by
            rcases late with printed | ⟨inserting, _⟩
            · simp [printed]
            · simp [inserting]
          simp [enabled, asked, Call.asks, World.essRequests, callEssRMgr, Effect.asked]
      | _ => simp_all [Call.asks, World.essRequests, callEssRMgr, assignStatus, World.setStatus,
          Effect.asked]
  | _ =>
      rw [quiet _ (by simp)]
      simp [Call.asks]

theorem run_asks (policy : EssPolicy) (world : World) (calls : List Call) :
    (runState (callStep policy) world calls).essRequests = world.essRequests ++
      if world.implementation.blacklistEnabled then calls.filterMap Call.asks else [] := by
  induction calls generalizing world with
  | nil => simp
  | cons call rest ih =>
      obtain ⟨handle, blacklist, _⟩ := callStep_configuration policy world call
      have configured : (callStep policy world call).1.implementation.blacklistEnabled =
          world.implementation.blacklistEnabled := by
        simp only [ResourceManagerImplementation.blacklistEnabled, handle, blacklist]
      rw [runState_cons, ih, callStep_asks, configured]
      cases world.implementation.blacklistEnabled with
      | false => simp
      | true => cases asked : call.asks <;> simp [asked]

/-- The manager is asked by every `SetAVBlocked` of a lifetime, in order, or never: never
without a handle, or if the record closes the blacklist. -/
theorem requests_follow_rfc (policy : EssPolicy) (world : World) (handle : Option Nat)
    (blacklist reserveTTS : RfcLookup) (calls : List Call) :
    let requests := (runState (callStep policy)
      (world.restart handle blacklist reserveTTS) calls).essRequests
    (handle = none ∨ blacklist.Closes → requests = []) ∧
      (handle ≠ none → ¬blacklist.Closes → requests = calls.filterMap Call.asks) := by
  intro requests
  have asked : requests = if handle.isSome && !disabledByRfc blacklist then
      calls.filterMap Call.asks else [] := run_asks policy _ calls
  rw [asked, ← disabledByRfc_iff]
  cases handle with
  | none => simp
  | some number => cases disabledByRfc blacklist <;> simp

end LeanResourceManager
