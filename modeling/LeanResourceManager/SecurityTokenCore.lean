import LeanResourceManager.RfcCore

/-!
`SecurityToken::getSecurityToken` and `getThunderControllerClient` of
`UtilsController.h`, in a build without `DISABLE_SECURITY_TOKEN`. The two function
statics live as long as the process.
-/

namespace LeanResourceManager

structure SecurityToken where
  sToken : List UInt8
  sThunderSecurityChecked : Bool
  deriving DecidableEq

def SecurityToken.initial : SecurityToken where
  sToken := []
  sThunderSecurityChecked := false

/-- What a call meets: whether the Controller reports the Security subsystem, what
`GetSecurityToken` returns and writes, and the memory that follows the buffer. -/
structure SecurityEnvironment where
  thunderSecurityConfigured : Bool
  ret : Int
  written : List UInt8
  beyond : List UInt8
  deriving DecidableEq

def maxStringLength : Nat := 2048

def tokenBuffer (written : List UInt8) : List UInt8 :=
  (written ++ List.replicate maxStringLength 0).take maxStringLength

/-- The conversion of the buffer to a string: all bytes up to the first NUL. -/
def SecurityEnvironment.bufferString (environment : SecurityEnvironment) : List UInt8 :=
  (tokenBuffer environment.written ++ environment.beyond).takeWhile fun byte => byte ≠ 0

def getSecurityToken (environment : SecurityEnvironment) (statics : SecurityToken)
    (token : List UInt8) : SecurityToken × List UInt8 :=
  if statics.sThunderSecurityChecked then (statics, statics.sToken)
  else
    let checked := { statics with sThunderSecurityChecked := true }
    if !environment.thunderSecurityConfigured then (checked, checked.sToken)
    else if environment.ret < 0 then (checked, token)
    else ({ checked with sToken := environment.bufferString }, environment.bufferString)

structure ThunderClient where
  callsign : String
  query : List UInt8
  deriving DecidableEq

def getThunderControllerClient (environment : SecurityEnvironment) (callsign : String)
    (statics : SecurityToken) : ThunderClient × SecurityToken :=
  let (statics, token) := getSecurityToken environment statics []
  ({ callsign := callsign, query := ascii "token=" ++ token }, statics)

end LeanResourceManager
