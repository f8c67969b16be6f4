import LeanResourceManager.ReserveAgreement
import LeanResourceManager.ImplementationGuards
import LeanResourceManager.Library.Machine

/-!
The callers' iterators over whole runs: `ReserveTTSResourceForApps` reads from where the
iterator stands and rewinds it, unless an exception ends the loop that reads it.
-/

namespace LeanResourceManager

open LeanMachine LeanProgram

end LeanResourceManager
