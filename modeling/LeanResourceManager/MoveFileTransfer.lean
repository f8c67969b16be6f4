import LeanResourceManager.MoveFileCore

/-!
The two loops of `MoveFile`: as long as no failure goes unnoticed, the destination
followed by the rest of the buffer is what has been read so far.
-/

namespace LeanResourceManager

open LeanLoop

/-- What the loops rely on: counts up to the size of the buffer behave as numbers. -/
class LawfulIoCount (α : Type) [IoCount α] : Prop where
  bytes_ofBytes : ∀ count ≤ bufLen, IoCount.bytes (IoCount.ofBytes count : α) = count
  ofBytes_le_zero : ∀ count ≤ bufLen, (IoCount.ofBytes count : α) ≤ 0 ↔ count = 0
  zero_lt_ofBytes : ∀ count ≤ bufLen, 0 < (IoCount.ofBytes count : α) ↔ 0 < count
  ofBytes_sub : ∀ count length, count ≤ length → length ≤ bufLen →
    (IoCount.ofBytes length - IoCount.ofBytes count : α) = IoCount.ofBytes (length - count)

instance : LawfulIoCount Int where
  bytes_ofBytes _ _ := rfl
  ofBytes_le_zero _ _ := Int.natCast_nonpos_iff
  zero_lt_ofBytes _ _ := Int.natCast_pos
  ofBytes_sub _ _ within _ := (Int.ofNat_sub within).symm

theorem toNat_ofBytes (count : Nat) (bound : count ≤ bufLen) :
    (UInt32.ofNat count).toNat = count := by
  apply UInt32.toNat_ofNat_of_lt'
  simp only [bufLen] at bound
  simp only [UInt32.size]
  omega

instance : LawfulIoCount UInt32 where
  bytes_ofBytes := toNat_ofBytes
  ofBytes_le_zero count bound := by
    change UInt32.ofNat count ≤ (0 : UInt32) ↔ _
    rw [UInt32.le_iff_toNat_le, toNat_ofBytes count bound]
    simp
  zero_lt_ofBytes count bound := by
    change (0 : UInt32) < UInt32.ofNat count ↔ _
    rw [UInt32.lt_iff_toNat_lt, toNat_ofBytes count bound]
    simp
  ofBytes_sub count length within bound := by
    change UInt32.ofNat length - UInt32.ofNat count = UInt32.ofNat (length - count)
    rw [UInt32.ofNat_sub within]

variable {α : Type} [IoCount α]

/-- A failure whose value the loops take for one. -/
def IoAnswer.Caught : IoAnswer α → Prop
  | .bytes _ => True
  | .error value _ => value ≤ 0

theorem span_append (memory : Nat → UInt8) (start first second : Nat) :
    span memory start (first + second) =
      span memory start first ++ span memory (start + first) second := by
  simp only [span, List.range_add, List.map_append, List.map_map]
  congr 1
  apply List.map_congr_left
  intro index _
  simp [Nat.add_assoc]

theorem span_fill (memory : Nat → UInt8) (chunk : Bytes) :
    span (fill memory chunk) 0 chunk.length = chunk := by
  apply List.ext_getElem
  · simp [span]
  · intro index _ bound
    simp [span, fill, bound]

/-- The bytes that a `Write` is asked for are the next ones of the source and lie in
the part of the buffer that the last `Read` filled. -/
structure WriteCall.Within (content : Bytes) (call : WriteCall α) (remaining : Nat) : Prop where
  positive : 0 < remaining
  len : call.len = IoCount.ofBytes remaining
  inside : call.ptr + remaining = call.stored
  stored : call.stored ≤ bufLen
  next : call.destination ++ span call.memory call.ptr remaining <+: content

structure Transfer.Tracked (content : Bytes) (transfer : Transfer α) : Prop where
  source : transfer.source = content
  position : transfer.position ≤ content.length
  within : ∀ call, .write call ∈ transfer.log → ∃ remaining, call.Within content remaining
  succeeded : ∀ call, .write call ∈ transfer.log → ¬call.count ≤ 0

structure Transfer.Exact (content : Bytes) (transfer : Transfer α) : Prop
    extends transfer.Tracked content where
  destination : transfer.destination = content.take transfer.position

structure WriteState.Exact (content : Bytes) (state : WriteState α) (remaining : Nat) : Prop
    extends state.transfer.Tracked content where
  positive : 0 < remaining
  len : state.len = IoCount.ofBytes remaining
  inside : state.ptr + remaining = state.transfer.stored
  stored : state.transfer.stored ≤ bufLen
  destination : state.transfer.destination ++ span state.transfer.memory state.ptr remaining =
    content.take state.transfer.position

/-- Every `Write` was asked for the right bytes, and the last one failed. -/
structure Transfer.Refused (content : Bytes) (transfer : Transfer α) : Prop where
  within : ∀ call, .write call ∈ transfer.log → ∃ remaining, call.Within content remaining
  failed : ∃ call, .write call ∈ transfer.log ∧ call.count ≤ 0

theorem mem_log_write {log : List (IoEvent α)} {call other : WriteCall α}
    (member : .write other ∈ log ++ [.write call]) : .write other ∈ log ∨ other = call := by
  rcases List.mem_append.mp member with before | last
  · exact .inl before
  · exact .inr (IoEvent.write.inj (List.mem_singleton.mp last))

theorem Transfer.Tracked.write {content : Bytes} {transfer : Transfer α}
    (tracked : transfer.Tracked content) (schedule : Schedule α) (ptr : Nat) (len : α)
    {remaining : Nat} (within : (transfer.writeCall schedule ptr len).Within content remaining)
    (succeeded : ¬(transfer.writeCall schedule ptr len).count ≤ 0) :
    (transfer.write schedule ptr len).2.Tracked content where
  source := tracked.source
  position := tracked.position
  within call member := by
    rcases mem_log_write member with before | same
    · exact tracked.within call before
    · exact ⟨remaining, same ▸ within⟩
  succeeded call member := by
    rcases mem_log_write member with before | same
    · exact tracked.succeeded call before
    · exact same ▸ succeeded

theorem Transfer.Tracked.refused {content : Bytes} {transfer : Transfer α}
    (tracked : transfer.Tracked content) (schedule : Schedule α) (ptr : Nat) (len : α)
    {remaining : Nat} (within : (transfer.writeCall schedule ptr len).Within content remaining)
    (failed : (transfer.writeCall schedule ptr len).count ≤ 0) :
    (transfer.write schedule ptr len).2.Refused content where
  within call member := by
    rcases mem_log_write member with before | same
    · exact tracked.within call before
    · exact ⟨remaining, same ▸ within⟩
  failed := ⟨_, List.mem_append_right _ (List.mem_singleton_self _), failed⟩

theorem write_mem_log_read {schedule : Schedule α} {transfer : Transfer α} {call : WriteCall α} :
    .write call ∈ (transfer.read schedule).2.log ↔ .write call ∈ transfer.log := by
  simp [Transfer.read]

theorem Transfer.Tracked.read {content : Bytes} {transfer : Transfer α}
    (tracked : transfer.Tracked content) (schedule : Schedule α)
    (position : (transfer.read schedule).2.position ≤ content.length) :
    (transfer.read schedule).2.Tracked content where
  source := tracked.source
  position := position
  within call member := tracked.within call (write_mem_log_read.mp member)
  succeeded call member := tracked.succeeded call (write_mem_log_read.mp member)

theorem opened_exact (content : Bytes) (memory : Nat → UInt8) :
    (Transfer.opened content memory : Transfer α).Exact content := by
  refine ⟨⟨rfl, Nat.zero_le _, ?_, ?_⟩, rfl⟩
  · simp [Transfer.opened]
  · simp [Transfer.opened]

theorem WriteState.Exact.writeCall {content : Bytes} {state : WriteState α} {remaining : Nat}
    (accurate : state.Exact content remaining) (schedule : Schedule α) :
    (state.transfer.writeCall schedule state.ptr state.len).Within content remaining where
  positive := accurate.positive
  len := accurate.len
  inside := accurate.inside
  stored := accurate.stored
  next := by
    change state.transfer.destination ++ span state.transfer.memory state.ptr remaining <+: content
    rw [accurate.destination]
    exact List.take_prefix _ _

theorem WriteState.Exact.length_le {content : Bytes} {state : WriteState α} {remaining : Nat}
    (accurate : state.Exact content remaining) : remaining ≤ bufLen := by
  have inside := accurate.inside
  have stored := accurate.stored
  omega

theorem WriteState.Exact.length_le_content {content : Bytes} {state : WriteState α}
    {remaining : Nat} (accurate : state.Exact content remaining) : remaining ≤ content.length := by
  have copied := congrArg List.length accurate.destination
  simp only [List.length_append, List.length_take, span, List.length_map,
    List.length_range] at copied
  omega

theorem WriteState.Exact.bytes_len [LawfulIoCount α] {content : Bytes} {state : WriteState α}
    {remaining : Nat} (accurate : state.Exact content remaining) :
    IoCount.bytes state.len = remaining := by
  rw [accurate.len, LawfulIoCount.bytes_ofBytes remaining accurate.length_le]

/-- A `Read` that stores bytes hands them all to the inner loop. -/
theorem Transfer.Exact.read [LawfulIoCount α] {schedule : Schedule α} {content : Bytes}
    {transfer : Transfer α} (accurate : transfer.Exact content)
    {wanted : Nat} (answer : schedule.reads transfer.reads = .bytes wanted)
    (received : ¬(transfer.read schedule).1 ≤ 0) :
    ∃ stored, (transfer.read schedule).2.position = transfer.position + stored ∧
      WriteState.Exact content
        { ptr := 0, len := (transfer.read schedule).1, transfer := (transfer.read schedule).2 }
        stored := by
  obtain ⟨stored, isStored⟩ : ∃ stored,
    stored = min wanted (min bufLen (transfer.source.length - transfer.position)) := ⟨_, rfl⟩
  have storedLe : stored ≤ bufLen := by omega
  have len : (transfer.read schedule).1 = IoCount.ofBytes stored := by
    simp only [Transfer.read, ReadCall.len, Transfer.readCall, answer, IoAnswer.value, isStored]
  rw [len, LawfulIoCount.ofBytes_le_zero stored storedLe] at received
  have transferred : (schedule.reads transfer.reads).transferred
      (min bufLen (transfer.source.length - transfer.position)) = stored := by
    rw [answer, isStored]
    rfl
  have position : (transfer.read schedule).2.position = transfer.position + stored := by
    simp only [Transfer.read, Transfer.readCall, transferred]
  have bound : transfer.position + stored ≤ content.length := by
    have before := accurate.position
    rw [accurate.source] at isStored
    omega
  have chunk : ((content.drop transfer.position).take stored).length = stored := by
    rw [List.length_take, List.length_drop]
    omega
  have memory : (transfer.read schedule).2.memory =
      fill transfer.memory ((content.drop transfer.position).take stored) := by
    simp only [← accurate.source, Transfer.read, Transfer.readCall, transferred]
  have tracked := accurate.toTracked.read schedule (by rw [position]; exact bound)
  refine ⟨stored, position, tracked, by omega, len, ?_, ?_, ?_⟩
  · simp only [Transfer.read, Transfer.readCall, transferred, Nat.zero_add]
  · simpa only [Transfer.read, Transfer.readCall, transferred] using storedLe
  · change transfer.destination ++ span (transfer.read schedule).2.memory 0 stored =
      content.take (transfer.read schedule).2.position
    have copied := span_fill transfer.memory ((content.drop transfer.position).take stored)
    rw [chunk] at copied
    rw [memory, position, copied, accurate.destination, ← List.take_add]

/-- A `Read` that delivers but stores nothing is at the end of the source. -/
theorem Transfer.Exact.read_end [LawfulIoCount α] {schedule : Schedule α} {content : Bytes}
    {transfer : Transfer α} (accurate : transfer.Exact content) {wanted : Nat}
    (answer : schedule.reads transfer.reads = .bytes wanted) (positive : 0 < wanted)
    (finished : (transfer.read schedule).1 ≤ 0) :
    (transfer.read schedule).2.Exact content ∧
      (transfer.read schedule).2.position = content.length := by
  have len : (transfer.read schedule).1 = IoCount.ofBytes
      (min wanted (min bufLen (transfer.source.length - transfer.position))) := by
    simp only [Transfer.read, ReadCall.len, Transfer.readCall, answer, IoAnswer.value]
  rw [len, LawfulIoCount.ofBytes_le_zero _ (by omega)] at finished
  have position : (transfer.read schedule).2.position = transfer.position := by
    simp only [Transfer.read, Transfer.readCall, answer, IoAnswer.transferred, finished,
      Nat.add_zero]
  have atEnd : transfer.position = content.length := by
    have bound := accurate.position
    rw [accurate.source] at finished
    simp only [bufLen] at finished
    omega
  have tracked := accurate.toTracked.read schedule (by rw [position]; exact accurate.position)
  refine ⟨⟨tracked, ?_⟩, position.trans atEnd⟩
  rw [position]
  exact accurate.destination

section Passes

variable [DecidableLE α] [DecidableLT α] {schedule : Schedule α} {content : Bytes}

theorem writePass_eq (state : WriteState α) :
    writePass schedule state =
      let call := state.transfer.writeCall schedule state.ptr state.len
      let transfer := (state.transfer.write schedule state.ptr state.len).2
      if call.count ≤ 0 then .leave (false, transfer)
      else if 0 < state.len - call.count then
        .again { ptr := state.ptr + IoCount.bytes call.count
                 len := state.len - call.count
                 transfer := transfer }
      else .leave (true, transfer) := rfl

theorem writePass_log (state : WriteState α) :
    let log := (state.transfer.write schedule state.ptr state.len).2.log
    (writePass schedule state).Meets (fun next => next.transfer.log = log)
      (fun ended => ended.2.log = log) := by
  intro log
  rw [writePass_eq]
  simp only
  split
  · rfl
  · split
    · rfl
    · rfl

theorem readPass_meets {invariant : Transfer α → Prop} {outcome : Option Bool × Transfer α → Prop}
    {fuel : Nat} {transfer : Transfer α}
    (finished : (transfer.read schedule).1 ≤ 0 → outcome (some true, (transfer.read schedule).2))
    (received : ¬(transfer.read schedule).1 ≤ 0 →
      (loop (writePass schedule) (fuel + 1)
        { ptr := 0, len := (transfer.read schedule).1, transfer := (transfer.read schedule).2 }).Meets
        (fun state => outcome (none, state.transfer))
        (fun ended => if ended.1 then invariant ended.2 else outcome (some false, ended.2))) :
    (readPass schedule fuel transfer).Meets invariant outcome := by
  simp only [readPass]
  by_cases atEnd : (transfer.read schedule).1 ≤ 0
  · rw [if_pos atEnd]
    exact finished atEnd
  · rw [if_neg atEnd]
    have left := received atEnd
    split
    · rename_i unfinished
      rw [unfinished] at left
      exact left
    · rename_i copied
      rw [copied] at left
      exact left
    · rename_i stopped
      rw [stopped] at left
      exact left

theorem transferLoop_meets {outcome : Option Bool × Transfer α → Prop} {fuel : Nat}
    {transfer : Transfer α}
    (left : (loop (readPass schedule fuel) (fuel + 1) transfer).Meets
      (fun unfinished => outcome (none, unfinished)) outcome) :
    outcome (transferLoop schedule fuel transfer) := by
  simp only [transferLoop]
  split
  · rename_i unfinished
    rw [unfinished] at left
    exact left
  · rename_i ended
    rw [ended] at left
    exact left

variable [LawfulIoCount α]

/-- One pass of the inner loop: the destination grows by what the call stored, and
the pointer and the length move on by as much. -/
theorem writePass_exact {state : WriteState α} {remaining : Nat}
    (accurate : state.Exact content remaining)
    (caught : (schedule.writes state.transfer.writes).Caught) :
    (writePass schedule state).Meets
      (fun next => ∃ left < remaining, next.Exact content left ∧
        next.transfer.position = state.transfer.position)
      (fun ended => if ended.1 then
        ended.2.Exact content ∧ ended.2.position = state.transfer.position
        else ended.2.Refused content) := by
  have within := accurate.writeCall schedule
  have lengthLe := accurate.length_le
  have length := accurate.bytes_len
  rw [writePass_eq]
  simp only
  by_cases failed : (state.transfer.writeCall schedule state.ptr state.len).count ≤ 0
  · rw [if_pos failed]
    exact accurate.refused schedule state.ptr state.len within failed
  · rw [if_neg failed]
    have tracked := accurate.write schedule state.ptr state.len within failed
    cases answer : schedule.writes state.transfer.writes with
    | error value reported =>
        rw [answer] at caught
        refine absurd ?_ failed
        simp only [WriteCall.count, Transfer.writeCall, answer, IoAnswer.value]
        exact caught
    | bytes wanted =>
        obtain ⟨stored, isStored⟩ : ∃ stored, stored = min wanted remaining := ⟨_, rfl⟩
        have storedLe : stored ≤ remaining := by omega
        have count : (state.transfer.writeCall schedule state.ptr state.len).count =
            IoCount.ofBytes stored := by
          simp only [WriteCall.count, Transfer.writeCall, answer, IoAnswer.value, length, isStored]
        rw [count, LawfulIoCount.ofBytes_le_zero stored (by omega)] at failed
        have destination : (state.transfer.write schedule state.ptr state.len).2.destination =
            state.transfer.destination ++ span state.transfer.memory state.ptr stored := by
          simp only [Transfer.write, Transfer.writeCall, answer, IoAnswer.transferred, length,
            isStored]
        have rest : state.transfer.destination ++
            (span state.transfer.memory state.ptr stored ++
              span state.transfer.memory (state.ptr + stored) (remaining - stored)) =
            content.take state.transfer.position := by
          rw [← span_append, Nat.add_sub_cancel' storedLe, accurate.destination]
        have left : state.len - IoCount.ofBytes stored = IoCount.ofBytes (remaining - stored) := by
          rw [accurate.len, LawfulIoCount.ofBytes_sub stored remaining storedLe lengthLe]
        rw [count, left, LawfulIoCount.bytes_ofBytes stored (by omega)]
        by_cases unfinished : 0 < remaining - stored
        · rw [if_pos ((LawfulIoCount.zero_lt_ofBytes _ (by omega)).mpr unfinished)]
          refine ⟨remaining - stored, by omega,
            ⟨tracked, unfinished, rfl, ?_, accurate.stored, ?_⟩, rfl⟩
          · have inside := accurate.inside
            change state.ptr + stored + (remaining - stored) = state.transfer.stored
            omega
          · change (state.transfer.write schedule state.ptr state.len).2.destination ++
              span state.transfer.memory (state.ptr + stored) (remaining - stored) =
              content.take state.transfer.position
            rw [destination, List.append_assoc, rest]
        · rw [if_neg (mt (LawfulIoCount.zero_lt_ofBytes _ (by omega)).mp unfinished)]
          have all : stored = remaining := by omega
          refine ⟨⟨tracked, ?_⟩, rfl⟩
          change (state.transfer.write schedule state.ptr state.len).2.destination =
            content.take state.transfer.position
          rw [destination, all, accurate.destination]

theorem writeLoop_exact {state : WriteState α} {remaining : Nat}
    (accurate : state.Exact content remaining) (caught : ∀ index, (schedule.writes index).Caught)
    {fuel : Nat} (enough : content.length ≤ fuel) :
    (loop (writePass schedule) (fuel + 1) state).Leaves fun ended =>
      if ended.1 then ended.2.Exact content ∧ ended.2.position = state.transfer.position
      else ended.2.Refused content := by
  let invariant (current : WriteState α) : Prop :=
    (∃ left, current.Exact content left) ∧ current.transfer.position = state.transfer.position
  have preserved : ∀ current, invariant current → (writePass schedule current).Meets
      (fun next => invariant next ∧ IoCount.bytes next.len < IoCount.bytes current.len)
      (fun ended => if ended.1 then
        ended.2.Exact content ∧ ended.2.position = state.transfer.position
        else ended.2.Refused content) := by
    rintro current ⟨⟨before, currentExact⟩, samePosition⟩
    refine (writePass_exact currentExact (caught current.transfer.writes)).mono ?_ ?_
    · rintro next ⟨left, shorter, nextExact, kept⟩
      refine ⟨⟨⟨left, nextExact⟩, kept.trans samePosition⟩, ?_⟩
      rw [nextExact.bytes_len, currentExact.bytes_len]
      exact shorter
    · intro ended copied
      rw [samePosition] at copied
      exact copied
  refine loop_leaves preserved ⟨⟨remaining, accurate⟩, rfl⟩ ?_
  have bound := accurate.length_le_content
  rw [accurate.bytes_len]
  omega

def Schedule.Delivers (schedule : Schedule α) : Prop :=
  ∀ index, ∃ wanted, 0 < wanted ∧ schedule.reads index = .bytes wanted

/-- One pass of the outer loop reads and writes one chunk, ends at the end of the
source, or stops at a failed `Write`. -/
theorem readPass_exact {transfer : Transfer α} (accurate : transfer.Exact content)
    (delivers : schedule.Delivers) (caught : ∀ index, (schedule.writes index).Caught)
    {fuel : Nat} (enough : content.length ≤ fuel) :
    (readPass schedule fuel transfer).Meets
      (fun next => next.Exact content ∧ transfer.position < next.position)
      (fun ended =>
        (ended.1 = some true ∧ ended.2.Exact content ∧ ended.2.position = content.length) ∨
        (ended.1 = some false ∧ ended.2.Refused content)) := by
  obtain ⟨wanted, positive, answer⟩ := delivers transfer.reads
  refine readPass_meets ?_ ?_
  · intro finished
    exact .inl ⟨rfl, accurate.read_end answer positive finished⟩
  · intro received
    obtain ⟨stored, position, filled⟩ := accurate.read answer received
    obtain ⟨⟨written, after⟩, left, ended⟩ :=
      (writeLoop_exact filled caught enough).exists
    rw [left]
    have advanced := filled.positive
    cases written with
    | true =>
        obtain ⟨copied, samePosition⟩ := ended
        refine ⟨copied, ?_⟩
        rw [samePosition, position]
        omega
    | false => exact .inr ⟨rfl, ended⟩

theorem transferLoop_exact (memory : Nat → UInt8) (delivers : schedule.Delivers)
    (caught : ∀ index, (schedule.writes index).Caught) {fuel : Nat}
    (enough : content.length ≤ fuel) :
    ∃ result after,
      transferLoop schedule fuel (.opened content memory) = (some result, after) ∧
      if result then after.Exact content ∧ after.position = content.length
      else after.Refused content := by
  let invariant (transfer : Transfer α) : Prop := transfer.Exact content
  have initial : invariant (Transfer.opened content memory) := opened_exact content memory
  have preserved : ∀ transfer, invariant transfer → (readPass schedule fuel transfer).Meets
      (fun next => invariant next ∧
        content.length - next.position < content.length - transfer.position)
      (fun ended =>
        (ended.1 = some true ∧ ended.2.Exact content ∧ ended.2.position = content.length) ∨
        (ended.1 = some false ∧ ended.2.Refused content)) := by
    intro transfer accurate
    refine (readPass_exact accurate delivers caught enough).mono ?_ fun _ ended => ended
    rintro next ⟨nextExact, advanced⟩
    have bound := nextExact.position
    exact ⟨nextExact, by omega⟩
  have enoughPasses : content.length - (Transfer.opened content memory : Transfer α).position <
      fuel + 1 := by
    simp only [Transfer.opened]
    omega
  obtain ⟨⟨result, after⟩, left, ended⟩ := (loop_leaves preserved initial enoughPasses).exists
  rcases ended with ⟨same, copied⟩ | ⟨same, refused⟩
  · exact ⟨true, after, by rw [transferLoop, left, ← same], copied⟩
  · exact ⟨false, after, by rw [transferLoop, left, ← same], refused⟩

end Passes

end LeanResourceManager
