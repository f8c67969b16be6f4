import LeanResourceManager.EssosCore
import LeanResourceManager.SecurityTokenCore

/-!
The JSON values exchanged with org.rdk.TextToSpeech, and what can happen to one
`setACL` call.
-/

namespace LeanResourceManager

inductive JsonValue
  | boolean (value : Bool)
  | number (value : Int)
  | string (value : List UInt8)
  | array (elements : List JsonValue)
  | object (fields : List (String × JsonValue))

abbrev JsonObject := List (String × JsonValue)

def JsonObject.hasLabel (object : JsonObject) (label : String) : Bool :=
  object.any fun field => field.1 = label

def JsonObject.set (object : JsonObject) (label : String) (value : JsonValue) : JsonObject :=
  if object.hasLabel label then
    object.map fun field => if field.1 = label then (label, value) else field
  else object ++ [(label, value)]

def JsonObject.booleanAt (object : JsonObject) (label : String) : Bool :=
  match object.find? fun field => field.1 = label with
  | some (_, .boolean value) => value
  | _ => false

theorem booleanAt_iff (response : JsonObject) (label : String) :
    (response.hasLabel label && response.booleanAt label) = true ↔
      response.find? (fun field => field.1 = label) = some (label, .boolean true) := by
  rw [Bool.and_eq_true, JsonObject.booleanAt]
  constructor
  · rintro ⟨_, read⟩
    split at read
    · rename_i name value found
      have same : name = label := by simpa using List.find?_some found
      rw [found, same, read]
    · simp at read
  · intro found
    rw [found]
    exact ⟨List.any_eq_true.mpr ⟨_, List.mem_of_find?_eq_some found, by simp⟩, rfl⟩

structure SetACLRequest where
  client : ThunderClient
  params : JsonObject

inductive ReserveStep
  | readApp (index : Nat)
  | buildParams
  | createClient
  | invoke
  | awaitResponse
  | printResponse
  deriving DecidableEq

/-- What one reservation meets: an exception raised at a step, the environment of
the token lookup, whether a client is made, and the outcome of its `Invoke`. -/
structure ReserveOutcome where
  raised : Option ReserveStep
  security : SecurityEnvironment
  client : Bool
  code : UInt32
  response : JsonObject

end LeanResourceManager
