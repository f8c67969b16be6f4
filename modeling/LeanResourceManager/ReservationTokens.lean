import LeanResourceManager.ReserveAgreement
import LeanResourceManager.SecurityTokenRuns
import LeanResourceManager.ThunderSecurity
import LeanResourceManager.Library.Triple

/-!
From `isThunderSecurityConfigured` through `getSecurityToken` to the requests of
`ReserveTTSResource`: over whole processes, which token they carry.
-/

namespace LeanResourceManager

open LeanMachine LeanProgram

def Call.security : Call → Option SecurityEnvironment
  | .reserveTTSResource _ outcome => some outcome.security
  | .reserveTTSResourceForApps _ outcome => some outcome.security
  | _ => none

/-! What one call does to the statics, and which token its requests carry. -/

section Calls

variable {before : World} {outcome : ReserveOutcome}

end Calls

end LeanResourceManager
