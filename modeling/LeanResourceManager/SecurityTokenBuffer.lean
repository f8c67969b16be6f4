import LeanResourceManager.Library.Machine
import LeanResourceManager.SecurityTokenCore

/-!
What `getSecurityToken` leaves in the caller's string over a run of calls, and how far
its conversion of the buffer reads.
-/

namespace LeanResourceManager

open LeanMachine

structure TokenRequest where
  environment : SecurityEnvironment
  token : List UInt8

/-- The caller's string after the call, the token that the call obtained, and the
bytes that its conversion of the buffer read, the terminator included. -/
structure TokenAnswer where
  token : List UInt8
  obtained : Option (List UInt8)
  bytesRead : Nat

def SecurityEnvironment.delivers (environment : SecurityEnvironment) (statics : SecurityToken) :
    Bool :=
  !statics.sThunderSecurityChecked && environment.thunderSecurityConfigured &&
    0 ≤ environment.ret

def tokenStep (statics : SecurityToken) (request : TokenRequest) : SecurityToken × TokenAnswer :=
  let (next, token) := getSecurityToken request.environment statics request.token
  let delivers := request.environment.delivers statics
  (next, {
    token := token
    obtained := if delivers then some request.environment.written else none
    bytesRead := if delivers then request.environment.bufferString.length + 1 else 0 })

/-- `GetSecurityToken` fails, or writes as many bytes as it returns, none of them NUL. -/
def SecurityEnvironment.Lawful (environment : SecurityEnvironment) : Prop :=
  0 ≤ environment.ret → (environment.written.length : Int) = environment.ret ∧
    environment.written.length ≤ maxStringLength ∧ (0 : UInt8) ∉ environment.written

def obtainedSoFar (past : List (TokenRequest × TokenAnswer)) : Option (List UInt8) :=
  (past.filterMap fun entry => entry.2.obtained).head?

/-- The conversion stays in the buffer, and the caller has the token or nothing. -/
structure TokenExact (past : List (TokenRequest × TokenAnswer)) (answer : TokenAnswer) : Prop where
  inside : answer.bytesRead ≤ maxStringLength
  token : answer.token = (obtainedSoFar past).getD []

def CallsExact (history : List (TokenRequest × TokenAnswer)) : Prop :=
  ∀ before entry after, history = before ++ entry :: after →
    TokenExact (before ++ [entry]) entry.2

/-- A delivered token leaves room for a terminator, and a failed lookup finds the
caller's string empty. -/
def FirstFits (request : TokenRequest) : Prop :=
  request.environment.thunderSecurityConfigured = true →
    if request.environment.ret < 0 then request.token = []
    else request.environment.ret < maxStringLength

theorem tokenBuffer_eq {written : List UInt8} (fits : written.length ≤ maxStringLength) :
    tokenBuffer written =
      written ++ List.replicate (maxStringLength - written.length) 0 := by
  rw [tokenBuffer, List.take_append, List.take_of_length_le fits, List.take_replicate]
  congr 2
  omega

theorem nonzero_of_nulFree {bytes : List UInt8} (nulFree : (0 : UInt8) ∉ bytes) :
    ∀ byte ∈ bytes, decide (byte ≠ 0) = true := by
  intro byte member
  simp only [decide_eq_true_eq]
  rintro rfl
  exact nulFree member

theorem bufferString_of_short {environment : SecurityEnvironment}
    (nulFree : (0 : UInt8) ∉ environment.written)
    (short : environment.written.length < maxStringLength) :
    environment.bufferString = environment.written := by
  obtain ⟨room, isRoom⟩ : ∃ room, maxStringLength - environment.written.length = room + 1 :=
    ⟨maxStringLength - environment.written.length - 1, by omega⟩
  rw [SecurityEnvironment.bufferString, tokenBuffer_eq (by omega), isRoom, List.append_assoc,
    List.takeWhile_append_of_pos (nonzero_of_nulFree nulFree), List.replicate_succ, List.cons_append,
    List.takeWhile_cons_of_neg (by simp), List.append_nil]

theorem bufferString_of_full {environment : SecurityEnvironment}
    (nulFree : (0 : UInt8) ∉ environment.written)
    (full : environment.written.length = maxStringLength) :
    maxStringLength ≤ environment.bufferString.length := by
  rw [SecurityEnvironment.bufferString, tokenBuffer_eq (by omega), full, Nat.sub_self,
    List.replicate_zero, List.append_nil,
    List.takeWhile_append_of_pos (nonzero_of_nulFree nulFree), List.length_append]
  omega

theorem tokenStep_checked {statics : SecurityToken} (request : TokenRequest)
    (checked : statics.sThunderSecurityChecked = true) :
    tokenStep statics request =
      (statics, { token := statics.sToken, obtained := none, bytesRead := 0 }) := by
  simp [tokenStep, getSecurityToken, SecurityEnvironment.delivers, checked]

theorem tokenHistory_checked {statics : SecurityToken} (requests : List TokenRequest)
    (checked : statics.sThunderSecurityChecked = true) :
    runHistory tokenStep statics requests = requests.map fun request =>
      (request, { token := statics.sToken, obtained := none, bytesRead := 0 }) := by
  induction requests with
  | nil => rfl
  | cons request rest ih =>
      rw [runHistory_cons, tokenStep_checked request checked, ih, List.map_cons]

theorem callsExact_first {entry : TokenRequest × TokenAnswer}
    {rest : List (TokenRequest × TokenAnswer)} (calls : CallsExact (entry :: rest)) :
    TokenExact [entry] entry.2 :=
  calls [] entry rest rfl

theorem callsExact_of_first {first : TokenRequest × TokenAnswer} {cached : List UInt8}
    (precise : TokenExact [first] first.2) (same : cached = first.2.obtained.getD [])
    (rest : List TokenRequest) :
    CallsExact (first :: rest.map fun request =>
      (request, { token := cached, obtained := none, bytesRead := 0 })) := by
  intro before entry after split
  cases before with
  | nil =>
      rw [← (List.cons.inj split).1]
      exact precise
  | cons head others =>
      rw [List.cons_append] at split
      obtain ⟨sameHead, tail⟩ := List.cons.inj split
      have later : ∀ other ∈ others ++ [entry], other.2 = ⟨cached, none, 0⟩ := by
        intro other member
        have inRest : other ∈ rest.map fun request =>
            ((request, ⟨cached, none, 0⟩) : TokenRequest × TokenAnswer) := by
          rw [tail, List.append_cons]
          exact List.mem_append_left _ member
        obtain ⟨request, _, isOther⟩ := List.mem_map.mp inRest
        rw [← isOther]
      have nothing : (others ++ [entry]).filterMap (fun other => other.2.obtained) = [] := by
        apply List.filterMap_eq_nil_iff.mpr
        intro other member
        rw [later other member]
      rw [later entry (by simp), ← sameHead, List.cons_append]
      refine ⟨Nat.zero_le _, ?_⟩
      change cached = _
      cases obtained : first.2.obtained with
      | none => simp [obtainedSoFar, obtained, nothing, same]
      | some token => simp [obtainedSoFar, obtained, same]

theorem tokenStep_initial (request : TokenRequest) :
    tokenStep .initial request =
      if request.environment.thunderSecurityConfigured = true then
        if request.environment.ret < 0 then
          ({ sToken := [], sThunderSecurityChecked := true },
            { token := request.token, obtained := none, bytesRead := 0 })
        else
          ({ sToken := request.environment.bufferString, sThunderSecurityChecked := true },
            { token := request.environment.bufferString
              obtained := some request.environment.written
              bytesRead := request.environment.bufferString.length + 1 })
      else
        ({ sToken := [], sThunderSecurityChecked := true },
          { token := [], obtained := none, bytesRead := 0 }) := by
  by_cases configured : request.environment.thunderSecurityConfigured = true
  · by_cases failed : request.environment.ret < 0
    · have undelivered : ¬0 ≤ request.environment.ret := by omega
      simp [tokenStep, getSecurityToken, SecurityEnvironment.delivers, SecurityToken.initial,
        configured, failed, undelivered]
    · have delivered : 0 ≤ request.environment.ret := by omega
      simp [tokenStep, getSecurityToken, SecurityEnvironment.delivers, SecurityToken.initial,
        configured, failed, delivered]
  · simp [tokenStep, getSecurityToken, SecurityEnvironment.delivers, SecurityToken.initial,
      configured]

theorem first_call_exact_iff {request : TokenRequest} (lawful : request.environment.Lawful) :
    TokenExact [(request, (tokenStep .initial request).2)] (tokenStep .initial request).2 ↔
      FirstFits request := by
  rw [tokenStep_initial, FirstFits]
  by_cases configured : request.environment.thunderSecurityConfigured = true
  · by_cases failed : request.environment.ret < 0
    · simp only [configured, failed, if_true, true_implies]
      constructor
      · exact fun precise => precise.token
      · exact fun empty => ⟨Nat.zero_le _, empty⟩
    · obtain ⟨length, fits, nulFree⟩ := lawful (by omega)
      simp only [configured, failed, if_true, if_false, true_implies]
      constructor
      · intro precise
        have inside := precise.inside
        by_contra full
        have past := bufferString_of_full nulFree (by omega)
        simp only at inside
        omega
      · intro short
        have copied := bufferString_of_short nulFree (by omega)
        refine ⟨?_, ?_⟩
        · simp only [copied]
          omega
        · simpa [obtainedSoFar] using copied
  · rw [if_neg configured]
    exact iff_of_true ⟨Nat.zero_le _, rfl⟩ fun isConfigured => absurd isConfigured configured

theorem first_call_cached {request : TokenRequest} (lawful : request.environment.Lawful)
    (fits : FirstFits request) :
    (tokenStep .initial request).1.sToken =
      (tokenStep .initial request).2.obtained.getD [] := by
  rw [tokenStep_initial]
  by_cases configured : request.environment.thunderSecurityConfigured = true
  · by_cases failed : request.environment.ret < 0
    · simp [configured, failed]
    · obtain ⟨length, _, nulFree⟩ := lawful (by omega)
      have short := fits configured
      rw [if_neg failed] at short
      simpa [configured, failed] using bufferString_of_short nulFree (by omega)
  · simp [configured]

theorem first_call_checks (request : TokenRequest) :
    (tokenStep .initial request).1.sThunderSecurityChecked = true := by
  rw [tokenStep_initial]
  split
  · split
    · rfl
    · rfl
  · rfl

/-- Over any run, every call gives the caller exactly the token and reads inside the
buffer if and only if the first call of the process fits. -/
theorem getSecurityToken_exact_iff (requests : List TokenRequest)
    (lawful : ∀ request ∈ requests, request.environment.Lawful) :
    CallsExact (runHistory tokenStep .initial requests) ↔
      ∀ first ∈ requests.head?, FirstFits first := by
  cases requests with
  | nil => exact iff_of_true (fun before entry after split => by simp at split) (by simp)
  | cons first rest =>
      have lawfulFirst := lawful first (by simp)
      rw [runHistory_cons, tokenHistory_checked rest (first_call_checks first)]
      simp only [List.head?_cons, Option.mem_some_iff, forall_eq']
      constructor
      · exact fun calls => (first_call_exact_iff lawfulFirst).mp (callsExact_first calls)
      · intro fits
        exact callsExact_of_first ((first_call_exact_iff lawfulFirst).mpr fits)
          (first_call_cached lawfulFirst fits) rest

theorem getSecurityToken_exact_iff_two_calls :
    let environment : SecurityEnvironment := ⟨true, 1, [116], []⟩
    let requests : List TokenRequest := [⟨environment, [111]⟩, ⟨environment, []⟩]
    CallsExact (runHistory tokenStep .initial requests) ↔
      ∀ first ∈ requests.head?, FirstFits first := by
  intro environment requests
  refine getSecurityToken_exact_iff requests ?_
  intro request member _
  have same : request.environment = environment := by
    rcases List.mem_pair.mp member with first | second
    · rw [first]
    · rw [second]
  rw [same]
  decide

/-- A token that fills the buffer is read past its end; a lookup that fails leaves the
caller the string it had. -/
theorem getSecurityToken_not_exact :
    let full : List TokenRequest :=
      [⟨⟨true, 2048, List.replicate maxStringLength 116, []⟩, []⟩]
    let failed : List TokenRequest := [⟨⟨true, -1, [], []⟩, [111]⟩]
    (∀ request ∈ full, request.environment.Lawful) ∧
      ¬CallsExact (runHistory tokenStep .initial full) ∧
      (∀ request ∈ failed, request.environment.Lawful) ∧
      ¬CallsExact (runHistory tokenStep .initial failed) := by
  intro full failed
  have lawfulFull : ∀ request ∈ full, request.environment.Lawful := by
    intro request member _
    rw [List.mem_singleton.mp member]
    have length : (List.replicate maxStringLength (116 : UInt8)).length = maxStringLength :=
      List.length_replicate
    refine ⟨by rw [length]; rfl, length.le, ?_⟩
    intro member
    exact absurd (List.eq_of_mem_replicate member) (by decide)
  refine ⟨lawfulFull, ?_, ?_, ?_⟩
  · intro calls
    have fits := (first_call_exact_iff (lawfulFull _ (by simp [full]))).mp (callsExact_first calls)
    exact absurd (fits rfl) (by decide)
  · intro request member delivered
    rw [List.mem_singleton.mp member] at delivered
    exact absurd delivered (by decide)
  · intro calls
    have kept := (callsExact_first calls).token
    exact absurd kept (by decide)

end LeanResourceManager
