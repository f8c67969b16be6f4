import LeanResourceManager.SecurityTokenRuns
import LeanResourceManager.Library.CriticalSection

/-!
Threads that call `getThunderControllerClient` at the same time: `getSecurityToken` as
a program over its two function statics, guarded by its function-local mutex.
-/

namespace LeanResourceManager

open LeanCriticalSection LeanMachine LeanProgram

structure TokenWorld where
  statics : SecurityToken
  lookups : List SecurityEnvironment

def TokenWorld.initial : TokenWorld where
  statics := .initial
  lookups := []

variable {ι : Type}

end LeanResourceManager
