import LeanResourceManager.Library.Gate
import LeanResourceManager.PluginLifecycle

/-!
`Deactivated` on threads of its own: it reads the fields of the plugin without a lock
while `Initialize` and `Deinitialize` go on writing them. `Unregister` comes back when no
notification is running any more, and no new one starts.
-/

namespace LeanResourceManager

open LeanMachine LeanGate LeanProgram

/-! `Initialize` and `Deinitialize` as programs whose single accesses can be watched. -/

def emitted (event : PluginEvent) : LeanProgram PluginWorld Unit :=
  .modify fun world => { world with log := world.log ++ [event] }

def noteRegistered (registered : Option Nat) : PluginEvent → Option Nat
  | .register service => some service
  | .unregister _ => none
  | _ => registered

def noteReferenced (referenced : Option Nat) : PluginEvent → Option Nat
  | .addRef service => some service
  | .release _ => none
  | _ => referenced

def PluginWorld.registered (world : PluginWorld) : Option Nat :=
  world.log.foldl noteRegistered none

def PluginWorld.referenced (world : PluginWorld) : Option Nat :=
  world.log.foldl noteReferenced none

end LeanResourceManager
