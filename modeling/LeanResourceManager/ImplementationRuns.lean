import LeanResourceManager.ImplementationCore

/-!
What each API call does when it runs alone: one specification lemma for every
call, and the parts of the world a call leaves untouched.
-/

namespace LeanResourceManager

open LeanProgram

theorem attempt_throwIf_bind {β : Type} (raised : Bool) (continuation : Unit → TryBlock β)
    (world : World) :
    attempt (throwIf raised >>= continuation) world =
      if raised then (world, .error .thrown) else attempt (continuation ()) world := by
  cases raised with
  | false => simp [throwIf]
  | true => exact attempt_throw_bind StdException.thrown continuation world

@[simp] theorem callEssRMgr_implementation (policy : EssPolicy) (request : EssRequest)
    (world : World) :
    (callEssRMgr policy request world).2.implementation = world.implementation := rfl

@[simp] theorem callEssRMgr_essRMgr (policy : EssPolicy) (request : EssRequest) (world : World) :
    (callEssRMgr policy request world).2.essRMgr = (world.essRMgr.handle policy request).2 := rfl

@[simp] theorem assignStatus_implementation (appid : AppId) (blocked : Bool) (world : World) :
    (assignStatus appid blocked world).implementation = { world.implementation with
      mAppsAVBlacklistStatus :=
        world.implementation.mAppsAVBlacklistStatus.insert appid blocked } := rfl

@[simp] theorem assignStatus_essRMgr (appid : AppId) (blocked : Bool) (world : World) :
    (assignStatus appid blocked world).essRMgr = world.essRMgr := rfl

theorem getElem?_insert (status : AppMap) (appid app : AppId) (blocked : Bool) :
    (status.insert appid blocked)[app]? = if appid = app then some blocked else status[app]? := by
  simp only [Std.ExtTreeMap.getElem?_insert, Std.compare_eq_iff_eq]

theorem insert_insert (status : AppMap) (appid : AppId) (first second : Bool) :
    (status.insert appid first).insert appid second = status.insert appid second := by
  apply Std.ExtTreeMap.ext_getElem?
  intro key
  simp only [getElem?_insert]
  split <;> rfl

theorem insert_eq_self_iff (status : AppMap) (appid : AppId) (blocked : Bool) :
    status.insert appid blocked = status ↔ status[appid]? = some blocked := by
  constructor
  · intro same
    have written := getElem?_insert status appid appid blocked
    rwa [same, if_pos rfl] at written
  · intro stored
    apply Std.ExtTreeMap.ext_getElem?
    intro app
    rw [getElem?_insert]
    split
    · rename_i same
      rw [← same, stored]
    · rfl

theorem attempt_writeStatus (appid : AppId) (blocked fails : Bool) (world : World) :
    attempt (writeStatus appid blocked fails) world =
      if fails ∧ appid ∉ world.implementation.mAppsAVBlacklistStatus then (world, .error .thrown)
      else (assignStatus appid blocked world, .ok ()) := by
  by_cases present : appid ∈ world.implementation.mAppsAVBlacklistStatus
  · have found : attempt (indexStatus appid fails) world = (world, .ok ()) := by
      simp [indexStatus, present]
    rw [writeStatus, attempt_bind_ok found]
    simp [present]
  · cases fails with
    | true =>
        have threw : attempt (indexStatus appid true) world = (world, .error .thrown) := by
          simp [indexStatus, present, throwIf]
        rw [writeStatus, attempt_bind_error threw]
        simp [present]
    | false =>
        have inserted : attempt (indexStatus appid false) world = (world.setStatus
            (world.implementation.mAppsAVBlacklistStatus.insert appid false), .ok ()) := by
          simp [indexStatus, present, throwIf]
        rw [writeStatus, attempt_bind_ok inserted]
        simp [assignStatus, World.setStatus, insert_insert]

def succeeded : Response := { code := errorNone, success := true, clients := none }

def failed : Response := { code := errorGeneral, success := false, clients := none }

/-- Every way a `SetAVBlocked` call can end, with the world it leaves behind. -/
inductive SetAVBlockedEnds (policy : EssPolicy) (appid : AppId) (blocked : Bool)
    (raised : Option SetAVBlockedStep) (world : World) : World × Response → Prop
  | skipped : world.implementation.blacklistEnabled = false →
      ¬(raised = some .buildInfoMessage ∨ raised = some .printInfoMessage) →
      SetAVBlockedEnds policy appid blocked raised world (world, succeeded)
  | skippedRaised : world.implementation.blacklistEnabled = false →
      raised = some .buildInfoMessage ∨ raised = some .printInfoMessage →
      SetAVBlockedEnds policy appid blocked raised world (world, failed)
  | raisedEarly : world.implementation.blacklistEnabled = true →
      raised = some .printArguments →
      SetAVBlockedEnds policy appid blocked raised world (world, failed)
  | refused : world.implementation.blacklistEnabled = true → raised ≠ some .printArguments →
      policy world.essRMgr.requests (essRequest appid blocked) = false →
      SetAVBlockedEnds policy appid blocked raised world
        ((callEssRMgr policy (essRequest appid blocked) world).2, failed)
  | lost : world.implementation.blacklistEnabled = true →
      policy world.essRMgr.requests (essRequest appid blocked) = true →
      raised = some .printStatus ∨ raised = some .insertEntry ∧
        appid ∉ world.implementation.mAppsAVBlacklistStatus →
      SetAVBlockedEnds policy appid blocked raised world
        ((callEssRMgr policy (essRequest appid blocked) world).2, failed)
  | written : world.implementation.blacklistEnabled = true →
      policy world.essRMgr.requests (essRequest appid blocked) = true →
      raised ≠ some .printArguments → raised ≠ some .printStatus →
      raised ≠ some .printUpdated →
      (raised = some .insertEntry → appid ∈ world.implementation.mAppsAVBlacklistStatus) →
      SetAVBlockedEnds policy appid blocked raised world (assignStatus appid blocked
        (callEssRMgr policy (essRequest appid blocked) world).2, succeeded)
  | writtenRaised : world.implementation.blacklistEnabled = true →
      policy world.essRMgr.requests (essRequest appid blocked) = true →
      raised = some .printUpdated →
      SetAVBlockedEnds policy appid blocked raised world (assignStatus appid blocked
        (callEssRMgr policy (essRequest appid blocked) world).2, failed)

theorem setAVBlocked_run (policy : EssPolicy) (appid : AppId) (blocked : Bool)
    (raised : Option SetAVBlockedStep) (world : World) :
    (setAVBlocked policy appid blocked raised).run world =
      settle (fun _ => failed) (attempt (setAVBlockedTry policy appid blocked raised) world) := by
  rw [setAVBlocked, run_critical, run_tryCatch]
  rfl

theorem attempt_setAVBlockedTry (policy : EssPolicy) (appid : AppId) (blocked : Bool)
    (raised : Option SetAVBlockedStep) (world : World) :
    attempt (setAVBlockedTry policy appid blocked raised) world =
      if world.implementation.blacklistEnabled then
        if raised = some .printArguments then (world, .error .thrown)
        else
          let (granted, asked) := callEssRMgr policy (essRequest appid blocked) world
          if raised = some .printStatus then (asked, .error .thrown)
          else if granted then
            if raised = some .insertEntry ∧
                appid ∉ world.implementation.mAppsAVBlacklistStatus then (asked, .error .thrown)
            else if raised = some .printUpdated then
              (assignStatus appid blocked asked, .error .thrown)
            else (assignStatus appid blocked asked, .ok succeeded)
          else (asked, .ok failed)
      else if raised = some .buildInfoMessage ∨ raised = some .printInfoMessage then
        (world, .error .thrown)
      else (world, .ok succeeded) := by
  simp only [setAVBlockedTry, attempt_read_bind]
  by_cases enabled : world.implementation.blacklistEnabled = true
  · simp only [enabled, if_true, attempt_throwIf_bind, attempt_access_bind, decide_eq_true_eq]
    split
    · rfl
    split
    · rfl
    cases granted : (callEssRMgr policy (essRequest appid blocked) world).1 with
    | false => rfl
    | true =>
        simp only [if_true, attempt_bind (writeStatus _ _ _), attempt_writeStatus,
          decide_eq_true_eq, callEssRMgr_implementation]
        by_cases dropped : raised = some .insertEntry ∧
            appid ∉ world.implementation.mAppsAVBlacklistStatus
        · simp only [if_pos dropped]
        · simp only [if_neg dropped, attempt_throwIf_bind, decide_eq_true_eq]
          split <;> rfl
  · simp only [enabled, Bool.false_eq_true, if_false, attempt_throwIf_bind, decide_eq_true_eq]
    by_cases message : raised = some .buildInfoMessage
    · simp [message]
    · simp only [message, if_false, false_or]
      split <;> rfl

theorem setAVBlocked_ends (policy : EssPolicy) (appid : AppId) (blocked : Bool)
    (raised : Option SetAVBlockedStep) (world : World) :
    SetAVBlockedEnds policy appid blocked raised world
      ((setAVBlocked policy appid blocked raised).run world) := by
  rw [setAVBlocked_run, attempt_setAVBlockedTry]
  by_cases enabled : world.implementation.blacklistEnabled = true
  · rw [if_pos enabled]
    by_cases early : raised = some .printArguments
    · rw [if_pos early]
      exact .raisedEarly enabled early
    rw [if_neg early]
    dsimp only
    cases granted : (callEssRMgr policy (essRequest appid blocked) world).1 with
    | false =>
        rw [if_neg Bool.false_ne_true]
        by_cases printed : raised = some .printStatus
        · rw [if_pos printed]
          exact .refused enabled early granted
        · rw [if_neg printed]
          exact .refused enabled early granted
    | true =>
        rw [if_pos rfl]
        by_cases printed : raised = some .printStatus
        · rw [if_pos printed]
          exact .lost enabled granted (.inl printed)
        rw [if_neg printed]
        by_cases dropped : raised = some .insertEntry ∧
            appid ∉ world.implementation.mAppsAVBlacklistStatus
        · rw [if_pos dropped]
          exact .lost enabled granted (.inr dropped)
        rw [if_neg dropped]
        by_cases updated : raised = some .printUpdated
        · rw [if_pos updated]
          exact .writtenRaised enabled granted updated
        · rw [if_neg updated]
          refine .written enabled granted early printed updated ?_
          intro inserting
          by_contra absent
          exact dropped ⟨inserting, absent⟩
  · have disabled : world.implementation.blacklistEnabled = false := by simpa using enabled
    rw [if_neg enabled]
    by_cases message : raised = some .buildInfoMessage ∨ raised = some .printInfoMessage
    · rw [if_pos message]
      exact .skippedRaised disabled message
    · rw [if_neg message]
      exact .skipped disabled message

/-! The loop of `GetBlockedAVApplications` visits every entry once, in key order. -/

def blockedEntries (entries : List (AppId × Bool)) : List AppId :=
  (entries.filter fun entry => entry.2).map Prod.fst

def blockedList (status : AppMap) : List AppId := blockedEntries status.toList

theorem nextEntry_of_split {status : AppMap} {visited rest : List (AppId × Bool)}
    (split : status.toList = visited ++ rest) :
    nextEntry status (visited.getLast?.map Prod.fst) = rest.head? := by
  have ordered : (visited ++ rest).Pairwise fun first second =>
      compare first.1 second.1 = .lt := split ▸ Std.ExtTreeMap.ordered_keys_toList
  rw [nextEntry, split]
  rcases List.eq_nil_or_concat visited with empty | ⟨initial, last, ends⟩
  · subst visited
    cases rest <;> simp
  · subst visited
    rw [List.concat_eq_append] at ordered ⊢
    obtain ⟨left, _, across⟩ := List.pairwise_append.mp ordered
    -- no visited key is past the last visited key
    have passed : ∀ entry ∈ initial ++ [last], ¬compare last.1 entry.1 = .lt := by
      intro entry member later
      rcases List.mem_append.mp member with earlier | same
      · have before := (List.pairwise_append.mp left).2.2 entry earlier last (by simp)
        have swapped : compare last.1 entry.1 = (compare entry.1 last.1).swap :=
          Std.OrientedCmp.eq_swap
        simp [later, before] at swapped
      · have self : compare last.1 last.1 = .eq := Std.ReflCmp.compare_self
        rw [List.mem_singleton.mp same, self] at later
        simp at later
    have skipped : (initial ++ [last]).find?
        (fun entry => (some last.1).all fun key => compare key entry.1 = .lt) = none := by
      apply List.find?_eq_none.mpr
      intro entry member
      simpa using passed entry member
    simp only [List.getLast?_append, List.getLast?_singleton, Option.some_or, Option.map_some,
      List.find?_append, skipped, Option.none_or]
    cases rest with
    | nil => rfl
    | cons next others =>
        have after := across last (by simp) next (by simp)
        simp [after]

def pushBackFails (raised : Option GetBlockedStep) (first count : Nat) : Bool :=
  match raised with
  | some (.pushBack index) => first ≤ index && index < first + count
  | _ => false

theorem attempt_visitEntries (raised : Option GetBlockedStep) (world : World) (fuel : Nat)
    (visited rest : List (AppId × Bool)) (blockedApps : List AppId)
    (split : world.implementation.mAppsAVBlacklistStatus.toList = visited ++ rest)
    (enough : rest.length ≤ fuel) :
    attempt (visitEntries raised fuel (visited.getLast?.map Prod.fst) blockedApps) world =
      (world, if pushBackFails raised blockedApps.length (blockedEntries rest).length then
        .error .thrown else .ok (blockedApps ++ blockedEntries rest)) := by
  induction fuel generalizing visited rest blockedApps with
  | zero =>
      have empty : rest = [] := List.length_eq_zero_iff.mp (by omega)
      subst rest
      cases raised with
      | none => simp [visitEntries, blockedEntries, pushBackFails]
      | some step => cases step <;> simp [visitEntries, blockedEntries, pushBackFails]
  | succ fuel ih =>
      simp only [visitEntries, attempt_read_bind, nextEntry_of_split split]
      cases rest with
      | nil =>
          cases raised with
          | none => simp [blockedEntries, pushBackFails]
          | some step => cases step <;> simp [blockedEntries, pushBackFails]
      | cons entry others =>
          obtain ⟨app, blocked⟩ := entry
          have shifted : world.implementation.mAppsAVBlacklistStatus.toList =
              (visited ++ [(app, blocked)]) ++ others := by simp [split]
          have remaining : others.length ≤ fuel := by
            simp only [List.length_cons] at enough
            omega
          cases blocked with
          | false =>
              have tail := ih (visited ++ [(app, false)]) others blockedApps shifted remaining
              simpa [blockedEntries] using tail
          | true =>
              have tail := ih (visited ++ [(app, true)]) others (blockedApps ++ [app]) shifted
                remaining
              simp only [List.head?_cons, attempt_throwIf_bind, decide_eq_true_eq]
              have grown : blockedEntries ((app, true) :: others) = app :: blockedEntries others := by
                simp [blockedEntries]
              by_cases now : raised = some (.pushBack blockedApps.length)
              · simp [now, grown, pushBackFails]
              · simp only [now, if_false]
                rw [List.getLast?_append, List.getLast?_singleton] at tail
                simp only [Option.some_or, Option.map_some] at tail
                rw [tail, grown]
                have same : pushBackFails raised (blockedApps ++ [app]).length
                    (blockedEntries others).length =
                    pushBackFails raised blockedApps.length (app :: blockedEntries others).length := by
                  cases raised with
                  | none => rfl
                  | some step =>
                      cases step with
                      | createIterator => rfl
                      | pushBack index =>
                          have different : index ≠ blockedApps.length := by simpa using now
                          simp only [pushBackFails, List.length_append, List.length_cons,
                            List.length_nil, ← Bool.decide_and, decide_eq_decide]
                          omega
                rw [same]
                simp

def unavailable : Response := { code := errorUnavailable, success := false, clients := none }

def listing (apps : List AppId) : Response :=
  { code := errorNone, success := true, clients := some apps }

def getBlockedFails (raised : Option GetBlockedStep) (status : AppMap) : Bool :=
  pushBackFails raised 0 (blockedList status).length || raised = some .createIterator

theorem attempt_getBlockedAVApplicationsTry (raised : Option GetBlockedStep) (world : World) :
    attempt (getBlockedAVApplicationsTry raised) world =
      (world, if world.implementation.mEssRMgr.isSome then
          if getBlockedFails raised world.implementation.mAppsAVBlacklistStatus then .error .thrown
          else .ok (listing (blockedList world.implementation.mAppsAVBlacklistStatus))
        else .ok unavailable) := by
  simp only [getBlockedAVApplicationsTry, attempt_read_bind]
  by_cases available : world.implementation.mEssRMgr.isSome = true
  · have visit := attempt_visitEntries raised world
      world.implementation.mAppsAVBlacklistStatus.size [] _ [] (List.nil_append _).symm
      (by simp [Std.ExtTreeMap.length_toList])
    simp only [List.getLast?_nil, Option.map_none, List.length_nil, List.nil_append] at visit
    simp only [available, if_true, attempt_bind (visitEntries _ _ _ _), visit, getBlockedFails,
      blockedList]
    by_cases dropped : pushBackFails raised 0 (blockedEntries
        world.implementation.mAppsAVBlacklistStatus.toList).length = true
    · simp [dropped]
    · simp only [dropped, Bool.false_eq_true, if_false, Bool.false_or, attempt_throwIf_bind]
      split <;> rfl
  · simp only [available, Bool.false_eq_true, if_false, attempt_pure]
    rfl

theorem getBlockedAVApplications_run (raised : Option GetBlockedStep) (world : World) :
    (getBlockedAVApplications raised).run world =
      settle (fun _ => failed) (attempt (getBlockedAVApplicationsTry raised) world) := by
  rw [getBlockedAVApplications, run_critical, run_tryCatch]
  rfl

/-! The part that `ReserveTTSResource` and `ReserveTTSResourceForApps` share. -/

def reserved (success : Bool) : Response :=
  { code := errorNone, success := success, clients := none }

theorem attempt_callSetACL (outcome : ReserveOutcome) (params : JsonObject) (world : World) :
    attempt (callSetACL outcome params) world =
      let (client, connected) := makeClient outcome world
      if outcome.raised = some .createClient then (connected, .error .thrown)
      else if outcome.client then
        if outcome.raised = some .invoke then (connected, .error .thrown)
        else
          let sent := connected.sendSetACL { client := client, params := params }
          if outcome.raised = some .awaitResponse then (sent, .error .thrown)
          else if outcome.raised = some .printResponse then (sent, .error .thrown)
          else (sent, .ok (reserved (outcome.code = errorNone &&
            outcome.response.hasLabel "success" && outcome.response.booleanAt "success")))
      else if outcome.raised = some .printResponse then (connected, .error .thrown)
      else (connected, .ok (reserved false)) := by
  simp only [callSetACL, attempt_access_bind, attempt_throwIf_bind, decide_eq_true_eq]
  split
  · rfl
  cases outcome.client with
  | false =>
      simp only [Bool.false_eq_true, if_false, attempt_throwIf_bind, decide_eq_true_eq]
      rfl
  | true =>
      simp only [if_true, attempt_throwIf_bind, attempt_modify_bind, decide_eq_true_eq]
      rfl

end LeanResourceManager
