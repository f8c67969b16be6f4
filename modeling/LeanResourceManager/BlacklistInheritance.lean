import LeanResourceManager.BlacklistPhantoms

/-!
What an instance lists of the blacklist that it finds: the names on which the manager
has granted a request since the instance was constructed, and no others.
-/

namespace LeanResourceManager

open LeanMachine

/-- The manager has granted a request about the name to this instance. -/
def World.Decided (world : World) (name : CString) : Prop :=
  ∃ request, Effect.essRequest request true ∈ world.effects ∧ request.name = name

/-- The list is the decided part of the blacklist; the rest of it is inherited, and the
cache is exact when nothing inherited is left undecided. -/
structure ListsDecided (inherited : Finset CString) (world : World) : Prop where
  listed : ∀ name : CString, name.val ∈ world.listed ↔
    name ∈ world.essRMgr.blacklist ∧ world.Decided name
  undecided : ∀ name, ¬world.Decided name →
    (name ∈ world.essRMgr.blacklist ↔ name ∈ inherited)
  cached : CacheExact world ↔ ∀ name ∈ inherited, world.Decided name

/-- The map holds the decided names, each with what the manager's blacklist says. -/
structure MapDecided (inherited : Finset CString) (world : World) : Prop where
  free : ∀ app ∈ world.implementation.mAppsAVBlacklistStatus, app ∈ nulFree
  exact : ∀ app ∈ world.implementation.mAppsAVBlacklistStatus,
    (world.implementation.mAppsAVBlacklistStatus[app]? = some true ↔
      cStr app ∈ world.essRMgr.blacklist)
  decided : ∀ name, world.Decided name ↔
    name.val ∈ world.implementation.mAppsAVBlacklistStatus
  undecided : ∀ name : CString, name.val ∉ world.implementation.mAppsAVBlacklistStatus →
    (name ∈ world.essRMgr.blacklist ↔ name ∈ inherited)
  unavailable : world.implementation.mEssRMgr = none →
    world.implementation.mAppsAVBlacklistStatus = ∅

section MapDecided

variable {inherited : Finset CString} {world : World}

theorem MapDecided.mem_listed (map : MapDecided inherited world) (app : AppId) :
    app ∈ world.listed ↔ world.implementation.mAppsAVBlacklistStatus[app]? = some true := by
  rw [listed_eq]
  cases handle : world.implementation.mEssRMgr with
  | none => simp [map.unavailable handle]
  | some number => simp [mem_blockedList]

theorem cStr_val (name : CString) : cStr name.val = name :=
  Subtype.ext (cStr_of_nulFree name.property)

theorem MapDecided.listsDecided (map : MapDecided inherited world) :
    ListsDecided inherited world := by
  have listed : ∀ name : CString, name.val ∈ world.listed ↔
      name ∈ world.essRMgr.blacklist ∧ world.Decided name := by
    intro name
    rw [map.mem_listed, map.decided]
    constructor
    · intro blocked
      have member : name.val ∈ world.implementation.mAppsAVBlacklistStatus :=
        Std.ExtTreeMap.isSome_getElem?_iff_mem.mp (by rw [blocked]; rfl)
      have exact := (map.exact name.val member).mp blocked
      rw [cStr_val] at exact
      exact ⟨exact, member⟩
    · rintro ⟨blacklisted, member⟩
      rw [map.exact name.val member, cStr_val]
      exact blacklisted
  have undecided : ∀ name, ¬world.Decided name →
      (name ∈ world.essRMgr.blacklist ↔ name ∈ inherited) := by
    intro name open'
    rw [map.decided] at open'
    exact map.undecided name open'
  refine ⟨listed, undecided, ?_⟩
  have names : ∀ name, name ∈ (world.listed.map cStr).toFinset ↔ name.val ∈ world.listed := by
    intro name
    rw [List.mem_toFinset, List.mem_map]
    constructor
    · rintro ⟨app, member, rfl⟩
      have stored : app ∈ world.implementation.mAppsAVBlacklistStatus :=
        Std.ExtTreeMap.isSome_getElem?_iff_mem.mp (by rw [(map.mem_listed app).mp member]; rfl)
      rwa [cStr_of_nulFree (map.free app stored)]
    · exact fun member => ⟨name.val, member, cStr_val name⟩
  rw [CacheExact, Finset.ext_iff]
  constructor
  · intro same name member
    by_contra open'
    have blacklisted := (undecided name open').mpr member
    exact open' ((listed name).mp ((names name).mp ((same name).mpr blacklisted))).2
  · intro decided name
    rw [names, listed]
    refine ⟨And.left, fun blacklisted => ⟨blacklisted, ?_⟩⟩
    by_contra open'
    exact open' (decided name ((undecided name open').mp blacklisted))

theorem MapDecided.unchanged (map : MapDecided inherited world) {after : World}
    (implementation : after.implementation = world.implementation)
    (blacklist : after.essRMgr.blacklist = world.essRMgr.blacklist)
    (decided : ∀ name, after.Decided name ↔ world.Decided name) :
    MapDecided inherited after where
  free := by rw [implementation]; exact map.free
  exact := by rw [implementation, blacklist]; exact map.exact
  decided name := by rw [implementation, decided]; exact map.decided name
  undecided := by rw [implementation, blacklist]; exact map.undecided
  unavailable := by rw [implementation]; exact map.unavailable

theorem decided_refused (policy : EssPolicy) (world : World) {request : EssRequest}
    (refused : policy world.essRMgr.requests request = false) (name : CString) :
    (callEssRMgr policy request world).2.Decided name ↔ world.Decided name := by
  simp [World.Decided, callEssRMgr, EssRMgr.handle, refused]

theorem decided_written (policy : EssPolicy) (world : World) {appid : AppId} {blocked : Bool}
    (granted : policy world.essRMgr.requests (essRequest appid blocked) = true) (name : CString) :
    (assignStatus appid blocked
        (callEssRMgr policy (essRequest appid blocked) world).2).Decided name ↔
      cStr appid = name ∨ world.Decided name := by
  simp only [World.Decided, assignStatus, callEssRMgr, EssRMgr.handle, granted, World.setStatus,
    List.mem_append, List.mem_singleton, Effect.essRequest.injEq, reduceCtorEq, or_false, and_true]
  rw [← essRequest_name appid blocked]
  constructor
  · rintro ⟨request, old | rfl, named⟩
    · exact .inr ⟨request, old, named⟩
    · exact .inl named
  · rintro (named | ⟨request, old, named⟩)
    · exact ⟨_, .inr rfl, named⟩
    · exact ⟨request, .inl old, named⟩

theorem MapDecided.written (map : MapDecided inherited world) (policy : EssPolicy)
    {appid : AppId} {blocked : Bool} (free : appid ∈ nulFree)
    (enabled : world.implementation.blacklistEnabled = true)
    (granted : policy world.essRMgr.requests (essRequest appid blocked) = true) :
    MapDecided inherited (assignStatus appid blocked
      (callEssRMgr policy (essRequest appid blocked) world).2) := by
  have named : (cStr appid).val = appid := cStr_of_nulFree free
  have status : (assignStatus appid blocked (callEssRMgr policy (essRequest appid blocked)
      world).2).implementation.mAppsAVBlacklistStatus =
        world.implementation.mAppsAVBlacklistStatus.insert appid blocked := rfl
  have blacklist : ∀ name, name ∈ (assignStatus appid blocked (callEssRMgr policy
      (essRequest appid blocked) world).2).essRMgr.blacklist ↔
        if cStr appid = name then blocked = true else name ∈ world.essRMgr.blacklist := by
    intro name
    rw [assignStatus_essRMgr, callEssRMgr_essRMgr, mem_blacklist_handle]
    simp [granted]
  constructor
  · intro app member
    rw [status, Std.ExtTreeMap.mem_insert, Std.compare_eq_iff_eq] at member
    rcases member with rfl | old
    · exact free
    · exact map.free app old
  · intro app member
    rw [status, Std.ExtTreeMap.mem_insert, Std.compare_eq_iff_eq] at member
    rw [status, getElem?_insert, blacklist]
    by_cases same : appid = app
    · simp [same]
    · have old := member.resolve_left same
      have other : cStr appid ≠ cStr app :=
        fun equal => same (cStr_injOn free (map.free app old) equal)
      rw [if_neg same, if_neg other]
      exact map.exact app old
  · intro name
    rw [decided_written policy world granted, status, Std.ExtTreeMap.mem_insert,
      Std.compare_eq_iff_eq, map.decided, Subtype.ext_iff, named]
  · intro name absent
    rw [status, Std.ExtTreeMap.mem_insert, Std.compare_eq_iff_eq, not_or] at absent
    have other : cStr appid ≠ name := fun equal => absent.1 (by rw [← equal, named])
    rw [blacklist, if_neg other]
    exact map.undecided name absent.2
  · intro missing
    have available := isSome_of_enabled enabled
    change world.implementation.mEssRMgr = none at missing
    simp [missing] at available

theorem callStep_decided (policy : EssPolicy) (world : World) (call : Call)
    (other : ∀ appid blocked raised, call ≠ .setAVBlocked appid blocked raised) (name : CString) :
    (callStep policy world call).1.Decided name ↔ world.Decided name := by
  let keeps (first second : World) : Prop := second.Decided name ↔ first.Decided name
  have changes : ReserveAllowed keeps := by
    constructor
    · exact fun _ => Iff.rfl
    · exact fun _ _ => Iff.rfl
    · intro world request
      simp [keeps, World.Decided, World.sendSetACL]
    · exact fun _ _ _ => Iff.rfl
  exact reserve_frame changes (fun _ _ _ left right => Iff.trans right left) policy world call other

theorem MapDecided.other (map : MapDecided inherited world) (policy : EssPolicy) (call : Call)
    (other : ∀ appid blocked raised, call ≠ .setAVBlocked appid blocked raised) :
    MapDecided inherited (callStep policy world call).1 := by
  obtain ⟨implementation, manager⟩ := callStep_keeps policy world call other
  exact map.unchanged implementation (by rw [manager]) (callStep_decided policy world call other)

theorem MapDecided.step (map : MapDecided inherited world) (policy : EssPolicy) (call : Call)
    (known : call.nulFreeApp) (completes : call.updatesComplete = true) :
    MapDecided inherited (callStep policy world call).1 := by
  cases call with
  | setAVBlocked appid blocked raised =>
      have uninterrupted : raised = none := by simpa [Call.updatesComplete] using completes
      subst raised
      have ends := setAVBlocked_ends policy appid blocked none world
      simp only [callStep, Call.program]
      generalize (setAVBlocked policy appid blocked none).run world = outcome at ends
      cases ends with
      | skipped => exact map
      | refused _ _ refusal =>
          exact map.unchanged rfl (by simp [EssRMgr.handle, refusal])
            (decided_refused policy world refusal)
      | written enabled granted => exact map.written policy known enabled granted
      | skippedRaised _ raised => simp at raised
      | raisedEarly _ raised => simp at raised
      | lost _ _ raised => simp at raised
      | writtenRaised _ _ raised => simp at raised
  | _ => exact map.other policy _ (by simp)

end MapDecided

/-- At every moment of an instance's run over application ids without a NUL byte, with no
call interrupted, the list is the part of the manager's blacklist that the instance has
had decided. What earlier instances blocked is missing until a request about it is
granted again, and the cache is exact from the moment nothing of it is left. -/
theorem listed_decided_throughout (policy : EssPolicy) (world : World) (handle : Option Nat)
    (blacklist reserveTTS : RfcLookup) (calls : List Call)
    (allowed : ∀ call ∈ calls, call.nulFreeApp ∧ call.updatesComplete = true) :
    Throughout (callStep policy) (ListsDecided world.essRMgr.blacklist)
      (world.restart handle blacklist reserveTTS) calls := by
  have initial : MapDecided world.essRMgr.blacklist
      (world.restart handle blacklist reserveTTS) := by
    constructor <;> simp [World.restart, construct, World.Decided]
  exact throughout_of_invariant
    (fun _ call allowedCall map => map.step policy call allowedCall.1 allowedCall.2)
    (fun _ map => map.listsDecided) initial allowed

theorem listed_decided_next_instance :
    let earlier := runState (callStep fun _ _ => true)
      (World.boot (fun _ => ⟨[], 0⟩) (some 0) fallbackGetRFCParameter fallbackGetRFCParameter)
      [.setAVBlocked [97] true none, .setAVBlocked [98] true none]
    Throughout (callStep fun _ _ => true) (ListsDecided earlier.essRMgr.blacklist)
      (earlier.restart (some 1) fallbackGetRFCParameter fallbackGetRFCParameter)
      [.setAVBlocked [97] false none, .getBlockedAVApplications none] := by
  intro earlier
  refine listed_decided_throughout (fun _ _ => true) earlier (some 1) _ _ _ ?_
  intro call member
  simp only [List.mem_cons, List.not_mem_nil, or_false] at member
  rcases member with rfl | rfl
  · exact ⟨by simp [Call.nulFreeApp, nulFree], rfl⟩
  · exact ⟨trivial, rfl⟩

end LeanResourceManager
