import Mathlib.Data.Vector.Basic

/-!
The RFC lookup of `rfcapi.h` and `UtilsgetRFCConfig.h`, and the gate that the
constructor of the implementation derives from it.
-/

namespace LeanResourceManager

inductive WdmpStatus
  | success
  | errDefaultValue
  | errGeneral
  deriving DecidableEq

inductive WdmpType
  | none
  | string
  | int
  | boolean
  deriving DecidableEq

structure RfcParamData where
  type : WdmpType
  value : Vector UInt8 256
  deriving DecidableEq

structure RfcLookup where
  status : WdmpStatus
  param : RfcParamData
  deriving DecidableEq

def zeroParam : RfcParamData where
  type := .none
  value := Vector.replicate 256 0

/-- The bundled `getRFCParameter`: it never touches the zero-initialised record. -/
def fallbackGetRFCParameter : RfcLookup where
  status := .errDefaultValue
  param := zeroParam

def getRFCConfig (lookup : RfcLookup) : Bool :=
  lookup.status = .success || lookup.status = .errDefaultValue

def ascii (text : String) : List UInt8 := text.toList.map fun character => character.toNat.toUInt8

def toLower (byte : UInt8) : UInt8 := if 65 ≤ byte ∧ byte ≤ 90 then byte + 32 else byte

/-- `strncasecmp` on C strings, a missing byte standing for the terminator. -/
def strncasecmp : Nat → List UInt8 → List UInt8 → Int
  | 0, _, _ => 0
  | count + 1, first, second =>
      let left := first.headD 0
      let right := second.headD 0
      if toLower left ≠ toLower right then (toLower left).toNat - (toLower right).toNat
      else if left = 0 then 0
      else strncasecmp count first.tail second.tail

def RfcParamData.text (param : RfcParamData) : List UInt8 :=
  param.value.toList.takeWhile fun byte => byte ≠ 0

def RfcParamData.disables (param : RfcParamData) : Bool :=
  param.type = .boolean && strncasecmp 5 param.value.toList (ascii "false") = 0

/-- The flag the constructor keeps: disabled unless the lookup succeeds, and then
disabled only by a boolean record that reads "false". -/
def disabledByRfc (lookup : RfcLookup) : Bool :=
  if getRFCConfig lookup then lookup.param.disables else true

/-- The lookups after which a feature that defaults to disabled must stay off. -/
def mustStayDisabled (lookup : RfcLookup) : Bool :=
  !getRFCConfig lookup || lookup.param.type ≠ .boolean ||
    lookup.param.text.map toLower = ascii "false"

theorem strncasecmp_of_lower_eq (count : Nat) (first second : List UInt8)
    (same : (first.takeWhile fun byte => byte ≠ 0).map toLower = second.map toLower) :
    strncasecmp count first second = 0 := by
  induction count generalizing first second with
  | zero => rfl
  | succ count ih =>
      cases second with
      | nil =>
          have zero : first.headD 0 = 0 := by
            cases first with
            | nil => rfl
            | cons byte rest =>
                by_cases ended : byte = 0
                · exact ended
                · simp [ended] at same
          simp only [strncasecmp, zero, List.headD_nil, ne_eq, not_true_eq_false, if_false, if_true]
      | cons right seconds =>
          cases first with
          | nil => simp at same
          | cons left firsts =>
              have alive : left ≠ 0 := by
                intro ended
                simp [ended] at same
              simp only [List.takeWhile_cons, alive, ne_eq, not_false_eq_true, decide_true, if_true,
                List.map_cons, List.cons.injEq] at same
              have rest := ih firsts seconds same.2
              simp [strncasecmp, same.1, alive, rest]

theorem disabledByRfc_of_mustStayDisabled (lookup : RfcLookup)
    (closed : mustStayDisabled lookup = true)
    (typed : getRFCConfig lookup = false ∨ lookup.param.type = .boolean) :
    disabledByRfc lookup = true := by
  cases found : getRFCConfig lookup with
  | false => simp [disabledByRfc, found]
  | true =>
      have boolean : lookup.param.type = .boolean := by simpa [found] using typed
      have text : lookup.param.text.map toLower = ascii "false" := by
        simpa [mustStayDisabled, found, boolean] using closed
      have lower : (ascii "false").map toLower = ascii "false" := by decide
      have matched : strncasecmp 5 lookup.param.value.toList (ascii "false") = 0 := by
        apply strncasecmp_of_lower_eq
        rw [lower]
        exact text
      simp [disabledByRfc, found, RfcParamData.disables, boolean, matched]

theorem enabled_of_untyped (lookup : RfcLookup) (found : getRFCConfig lookup = true)
    (untyped : lookup.param.type ≠ .boolean) :
    mustStayDisabled lookup = true ∧ disabledByRfc lookup = false := by
  constructor
  · simp [mustStayDisabled, untyped]
  · simp [disabledByRfc, found, RfcParamData.disables, untyped]

end LeanResourceManager
