import Mathlib.Data.Finset.Basic
import Mathlib.Data.List.TakeWhile
import LeanResourceManager.Library.LastWrite

/-!
The Essos Resource Manager as the plugin sees it: a blacklist of C-string names,
changed by requests that the manager grants or refuses.
-/

namespace LeanResourceManager

open LeanLastWrite

/-- A `std::string`: any bytes, also NUL. -/
abbrev AppId := List UInt8

/-- What `c_str()` shows to a C function: no byte of it is NUL. -/
abbrev CString := { name : List UInt8 // (0 : UInt8) ∉ name }

def cStr (appid : AppId) : CString :=
  ⟨appid.takeWhile fun byte => byte ≠ 0, fun member => by simpa using List.mem_takeWhile_imp member⟩

theorem cStr_of_nulFree {appid : AppId} (nulFree : (0 : UInt8) ∉ appid) :
    (cStr appid).val = appid := by
  apply List.takeWhile_eq_self_iff.mpr
  intro byte member
  have nonzero : byte ≠ 0 := fun zero => nulFree (zero ▸ member)
  simpa using nonzero

inductive EssRequest
  | addToBlackList (name : CString)
  | removeFromBlackList (name : CString)
  deriving DecidableEq

def EssRequest.name : EssRequest → CString
  | .addToBlackList name => name
  | .removeFromBlackList name => name

def EssRequest.blocked : EssRequest → Bool
  | .addToBlackList _ => true
  | .removeFromBlackList _ => false

/-- `requests` is everything the manager was asked, with its answers. -/
structure EssRMgr where
  requests : List (EssRequest × Bool)
  blacklist : Finset CString

/-- How the manager answers, given all earlier requests. No two requests of a run
have the same past, so every sequence of answers is given by some policy. -/
abbrev EssPolicy := List (EssRequest × Bool) → EssRequest → Bool

def EssRequest.apply (request : EssRequest) (blacklist : Finset CString) : Finset CString :=
  match request with
  | .addToBlackList name => insert name blacklist
  | .removeFromBlackList name => blacklist.erase name

def EssRMgr.handle (policy : EssPolicy) (manager : EssRMgr) (request : EssRequest) :
    Bool × EssRMgr :=
  let granted := policy manager.requests request
  (granted, {
    requests := manager.requests ++ [(request, granted)]
    blacklist := if granted then request.apply manager.blacklist else manager.blacklist
  })

def grants (requests : List (EssRequest × Bool)) : List (CString × Bool) :=
  (requests.filter fun entry => entry.2).map fun entry => (entry.1.name, entry.1.blocked)

theorem EssRequest.mem_apply (request : EssRequest) (blacklist : Finset CString) (name : CString) :
    name ∈ request.apply blacklist ↔
      if request.name = name then request.blocked = true else name ∈ blacklist := by
  cases request with
  | addToBlackList added =>
      by_cases same : added = name
      · simp [EssRequest.apply, EssRequest.name, EssRequest.blocked, same]
      · simp [EssRequest.apply, EssRequest.name, same, Ne.symm same]
  | removeFromBlackList removed =>
      by_cases same : removed = name
      · simp [EssRequest.apply, EssRequest.name, EssRequest.blocked, same]
      · simp [EssRequest.apply, EssRequest.name, same, Ne.symm same]

theorem EssRequest.apply_eq_iff (request : EssRequest) (blacklist : Finset CString) :
    request.apply blacklist = blacklist ↔ (request.name ∈ blacklist ↔ request.blocked = true) := by
  cases request with
  | addToBlackList name =>
      simp [EssRequest.apply, EssRequest.name, EssRequest.blocked, Finset.insert_eq_self]
  | removeFromBlackList name =>
      simp [EssRequest.apply, EssRequest.name, EssRequest.blocked, Finset.erase_eq_self]

def EssRMgr.Faithful (manager : EssRMgr) : Prop :=
  ∀ name, name ∈ manager.blacklist ↔ lastWrite (grants manager.requests) name = some true

theorem EssRMgr.Faithful.handle {manager : EssRMgr} (faithful : manager.Faithful)
    (policy : EssPolicy) (request : EssRequest) : (manager.handle policy request).2.Faithful := by
  intro name
  cases granted : policy manager.requests request with
  | false =>
      have unchanged : grants (manager.handle policy request).2.requests =
          grants manager.requests := by
        simp [EssRMgr.handle, grants, granted]
      rw [unchanged]
      simpa [EssRMgr.handle, granted] using faithful name
  | true =>
      have written : grants (manager.handle policy request).2.requests =
          grants manager.requests ++ [(request.name, request.blocked)] := by
        simp [EssRMgr.handle, grants, granted]
      rw [written, lastWrite_append_single]
      simp only [EssRMgr.handle, granted, if_true, EssRequest.mem_apply]
      by_cases same : request.name = name
      · simp [same]
      · simp [same, faithful name]

/-! Requests about different names do not affect each other. -/

def requestsFor (name : CString) (requests : List (EssRequest × Bool)) : List (EssRequest × Bool) :=
  requests.filter fun entry => entry.1.name = name

/-- The answer for a name depends only on the earlier requests for that name. -/
def EssPolicy.Local (policy : EssPolicy) : Prop :=
  ∀ first second request, requestsFor request.name first = requestsFor request.name second →
    policy first request = policy second request

def EssRMgr.AgreesOn (names : Set CString) (left right : EssRMgr) : Prop :=
  ∀ name ∈ names, requestsFor name left.requests = requestsFor name right.requests ∧
    (name ∈ left.blacklist ↔ name ∈ right.blacklist)

theorem EssRMgr.AgreesOn.symm {names : Set CString} {left right : EssRMgr}
    (agrees : left.AgreesOn names right) : right.AgreesOn names left :=
  fun name member => ⟨(agrees name member).1.symm, (agrees name member).2.symm⟩

theorem requestsFor_handle (policy : EssPolicy) (manager : EssRMgr) (request : EssRequest)
    (name : CString) :
    requestsFor name (manager.handle policy request).2.requests =
      requestsFor name manager.requests ++
        if request.name = name then [(request, policy manager.requests request)] else [] := by
  by_cases same : request.name = name
  · simp [requestsFor, EssRMgr.handle, same]
  · simp [requestsFor, EssRMgr.handle, same]

theorem mem_blacklist_handle (policy : EssPolicy) (manager : EssRMgr) (request : EssRequest)
    (name : CString) :
    name ∈ (manager.handle policy request).2.blacklist ↔
      if request.name = name ∧ policy manager.requests request = true then
        request.blocked = true
      else name ∈ manager.blacklist := by
  rw [EssRMgr.handle]
  cases granted : policy manager.requests request with
  | false => simp
  | true => simp [EssRequest.mem_apply]

theorem EssRMgr.AgreesOn.handleHidden {names : Set CString} {left right : EssRMgr}
    (agrees : left.AgreesOn names right) (policy : EssPolicy) {request : EssRequest}
    (hidden : request.name ∉ names) : (left.handle policy request).2.AgreesOn names right := by
  intro name member
  have other : request.name ≠ name := fun same => hidden (same ▸ member)
  rw [requestsFor_handle, mem_blacklist_handle, if_neg other, List.append_nil,
    if_neg fun both => other both.1]
  exact agrees name member

theorem EssRMgr.AgreesOn.policy_eq {names : Set CString} {left right : EssRMgr}
    (agrees : left.AgreesOn names right) {policy : EssPolicy} (isLocal : policy.Local)
    {request : EssRequest} (visible : request.name ∈ names) :
    policy left.requests request = policy right.requests request :=
  isLocal _ _ request (agrees request.name visible).1

theorem EssRMgr.AgreesOn.handle {names : Set CString} {left right : EssRMgr}
    (agrees : left.AgreesOn names right) {policy : EssPolicy} (isLocal : policy.Local)
    {request : EssRequest} (visible : request.name ∈ names) :
    (left.handle policy request).2.AgreesOn names (right.handle policy request).2 := by
  have answer := agrees.policy_eq isLocal visible
  intro name member
  rw [requestsFor_handle, requestsFor_handle, mem_blacklist_handle, mem_blacklist_handle, answer,
    (agrees name member).1]
  refine ⟨rfl, ?_⟩
  split
  · exact Iff.rfl
  · exact (agrees name member).2

end LeanResourceManager
