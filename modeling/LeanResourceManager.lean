import LeanResourceManager.Library.Machine
import LeanResourceManager.Library.CriticalSection
import LeanResourceManager.EssosCore
import LeanResourceManager.RfcCore
import LeanResourceManager.ImplementationCore
import LeanResourceManager.ImplementationRuns
import LeanResourceManager.ImplementationGuards
import LeanResourceManager.BlacklistHistory
import LeanResourceManager.BlacklistCache
import LeanResourceManager.BlacklistRestart
import LeanResourceManager.BlacklistAtomicity
import LeanResourceManager.RfcGating
import LeanResourceManager.ImplementationConcurrency
import LeanResourceManager.BlacklistIsolation
import LeanResourceManager.PluginCore
import LeanResourceManager.PluginLifecycle
import LeanResourceManager.SecurityTokenRuns
import LeanResourceManager.InterfaceRefOwnership
import LeanResourceManager.MoveFileReadFailure
import LeanResourceManager.MoveFileUnsigned
import LeanResourceManager.LastLine
import LeanResourceManager.SecurityTokenBuffer
import LeanResourceManager.InterfaceRetry
import LeanResourceManager.ReserveAgreement
import LeanResourceManager.ThunderSecurity
import LeanResourceManager.DirectLink
import LeanResourceManager.Library.Progress
import LeanResourceManager.Library.Triple
import LeanResourceManager.ConcurrentBlacklist
import LeanResourceManager.SecurityTokenConcurrency
import LeanResourceManager.ReservationTokens
import LeanResourceManager.BlacklistPhantoms
import LeanResourceManager.InstanceProcess
import LeanResourceManager.MoveFileRuns
import LeanResourceManager.Library.Relocation
import LeanResourceManager.Library.Fairness
import LeanResourceManager.Library.Gate
import LeanResourceManager.PluginActivation
import LeanResourceManager.PluginActivationPhases
import LeanResourceManager.PluginActivationRuns
import LeanResourceManager.PluginActivationProgress
import LeanResourceManager.PluginNotifications
import LeanResourceManager.RfcRequests
import LeanResourceManager.DirectLinkRuns
import LeanResourceManager.InterfaceBuilder
import LeanResourceManager.BlacklistInheritance
import LeanResourceManager.ReserveIterators
import LeanResourceManager.Library.References
import LeanResourceManager.PluginSystem
