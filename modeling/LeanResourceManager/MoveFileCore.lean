import LeanResourceManager.Library.FileTree
import LeanResourceManager.Library.Loop

/-!
`Utils::MoveFile` of `UtilsFile.h`. Its lengths and counts are `auto`: they have the
type that `Core::File` gives the results of `Read` and `Write`, a parameter here. The
files behave as the schedule of an environment says, within what a file can do.
-/

namespace LeanResourceManager

open LeanFileTree LeanLoop

abbrev Bytes := List UInt8

abbrev Path := List String

abbrev FileSystem := FileTree String Bytes

def bufLen : Nat := 1024

/-- The type of the results of `Read` and `Write`: how it reports a number of bytes
and a failure, and how it converts to a length or a pointer offset. -/
class IoCount (α : Type) extends LE α, LT α, Zero α, Sub α where
  ofBytes : Nat → α
  bytes : α → Nat
  IsError : α → Prop

instance : IoCount Int where
  zero := 0
  ofBytes count := count
  bytes := Int.toNat
  IsError value := value ≤ 0

def posixError : UInt32 := 0xFFFFFFFF

instance : IoCount UInt32 where
  zero := 0
  ofBytes := UInt32.ofNat
  bytes := UInt32.toNat
  IsError value := value = posixError

variable {α : Type} [IoCount α]

inductive IoAnswer (α : Type) [IoCount α]
  | bytes (wanted : Nat)
  | error (value : α) (reported : IoCount.IsError value)

def IoAnswer.transferred : IoAnswer α → Nat → Nat
  | .bytes wanted, available => min wanted available
  | .error _ _, _ => 0

def IoAnswer.value : IoAnswer α → Nat → α
  | .bytes wanted, available => IoCount.ofBytes (min wanted available)
  | .error value _, _ => value

def IoAnswer.isError : IoAnswer α → Bool
  | .bytes _ => false
  | .error _ _ => true

structure Schedule (α : Type) [IoCount α] where
  reads : Nat → IoAnswer α
  writes : Nat → IoAnswer α

structure ReadCall (α : Type) [IoCount α] where
  position : Nat
  available : Nat
  answer : IoAnswer α

/-- One `Write(ptr, len)`: `ptr` counts from the start of the buffer, `stored` is what
the last `Read` stored there; `destination` and `memory` are as the call finds them. -/
structure WriteCall (α : Type) [IoCount α] where
  ptr : Nat
  len : α
  stored : Nat
  destination : Bytes
  memory : Nat → UInt8
  answer : IoAnswer α

def ReadCall.len (call : ReadCall α) : α := call.answer.value call.available

def WriteCall.count (call : WriteCall α) : α := call.answer.value (IoCount.bytes call.len)

inductive IoEvent (α : Type) [IoCount α]
  | read (call : ReadCall α)
  | write (call : WriteCall α)

def IoEvent.answer : IoEvent α → IoAnswer α
  | .read call => call.answer
  | .write call => call.answer

structure Transfer (α : Type) [IoCount α] where
  source : Bytes
  position : Nat
  destination : Bytes
  memory : Nat → UInt8
  stored : Nat
  reads : Nat
  writes : Nat
  log : List (IoEvent α)

def Transfer.opened (source : Bytes) (memory : Nat → UInt8) : Transfer α where
  source := source
  position := 0
  destination := []
  memory := memory
  stored := 0
  reads := 0
  writes := 0
  log := []

def span (memory : Nat → UInt8) (start count : Nat) : Bytes :=
  (List.range count).map fun index => memory (start + index)

def fill (memory : Nat → UInt8) (chunk : Bytes) (address : Nat) : UInt8 :=
  chunk.getD address (memory address)

def Transfer.readCall (schedule : Schedule α) (transfer : Transfer α) : ReadCall α where
  position := transfer.position
  available := min bufLen (transfer.source.length - transfer.position)
  answer := schedule.reads transfer.reads

def Transfer.read (schedule : Schedule α) (transfer : Transfer α) : α × Transfer α :=
  let call := transfer.readCall schedule
  let stored := call.answer.transferred call.available
  let chunk := (transfer.source.drop transfer.position).take stored
  (call.len, { transfer with
    position := transfer.position + stored
    memory := fill transfer.memory chunk
    stored := stored
    reads := transfer.reads + 1
    log := transfer.log ++ [.read call] })

def Transfer.writeCall (schedule : Schedule α) (ptr : Nat) (len : α) (transfer : Transfer α) :
    WriteCall α where
  ptr := ptr
  len := len
  stored := transfer.stored
  destination := transfer.destination
  memory := transfer.memory
  answer := schedule.writes transfer.writes

def Transfer.write (schedule : Schedule α) (ptr : Nat) (len : α) (transfer : Transfer α) :
    α × Transfer α :=
  let call := transfer.writeCall schedule ptr len
  let written := span transfer.memory ptr (call.answer.transferred (IoCount.bytes len))
  (call.count, { transfer with
    destination := transfer.destination ++ written
    writes := transfer.writes + 1
    log := transfer.log ++ [.write call] })

section Loops

variable [DecidableLE α] [DecidableLT α] (schedule : Schedule α)

structure WriteState (α : Type) [IoCount α] where
  ptr : Nat
  len : α
  transfer : Transfer α

def writePass (state : WriteState α) : Pass (WriteState α) (Bool × Transfer α) :=
  let (count, transfer) := state.transfer.write schedule state.ptr state.len
  if count ≤ 0 then .leave (false, transfer)
  else
    let len := state.len - count
    let ptr := state.ptr + IoCount.bytes count
    if 0 < len then .again { ptr := ptr, len := len, transfer := transfer }
    else .leave (true, transfer)

/-- The outer loop; it leaves with no `result` if the inner loop did not end. -/
def readPass (fuel : Nat) (transfer : Transfer α) :
    Pass (Transfer α) (Option Bool × Transfer α) :=
  let (len, transfer) := transfer.read schedule
  if len ≤ 0 then .leave (some true, transfer)
  else
    match loop (writePass schedule) (fuel + 1) { ptr := 0, len := len, transfer := transfer } with
    | .again state => .leave (none, state.transfer)
    | .leave (true, transfer) => .again transfer
    | .leave (false, transfer) => .leave (some false, transfer)

def transferLoop (fuel : Nat) (transfer : Transfer α) : Option Bool × Transfer α :=
  match loop (readPass schedule fuel) (fuel + 1) transfer with
  | .again transfer => (none, transfer)
  | .leave ended => ended

end Loops

/-- What the call meets: the directories and files that cannot be made or opened,
the answers to its reads and writes, and the memory before it fills `buffer`. -/
structure MoveEnvironment (α : Type) [IoCount α] where
  mkdirFails : Path → Bool
  openFails : Bool
  createFails : Bool
  schedule : Schedule α
  memory : Nat → UInt8

def pathName (path : Path) : Path := path.tail

/-- The conditions of `result`, on the attributes that the two files had when their
objects were constructed. A limit: here `Open` opens files only, where a read-only open
of a directory would succeed on POSIX and its reads fail. -/
def startTransfer (environment : MoveEnvironment α) (files : FileSystem)
    (fromPath toPath : Path) : Option (Bytes × FileSystem) := do
  let created := files.makeDirectories environment.mkdirFails (pathName toPath)
  guard ((files.entry fromPath).isSome && !(files.entry toPath).isSome)
  guard (!environment.openFails)
  let source ← created.contentAt fromPath
  guard (!environment.createFails)
  let opened ← created.make (.file []) toPath
  pure (source, opened)

structure MoveOutcome (α : Type) [IoCount α] where
  returned : Option Bool
  files : FileSystem
  log : List (IoEvent α)

def moveFile [DecidableLE α] [DecidableLT α] (environment : MoveEnvironment α) (fuel : Nat)
    (files : FileSystem) (fromPath toPath : Path) : MoveOutcome α :=
  match startTransfer environment files fromPath toPath with
  | none =>
      { returned := some false
        files := files.makeDirectories environment.mkdirFails (pathName toPath)
        log := [] }
  | some (source, opened) =>
      let (result, transfer) :=
        transferLoop environment.schedule fuel (.opened source environment.memory)
      let written := opened.write toPath transfer.destination
      match result with
      | none => { returned := none, files := written, log := transfer.log }
      | some true =>
          { returned := some true, files := written.remove fromPath, log := transfer.log }
      | some false =>
          { returned := some false, files := written.remove toPath, log := transfer.log }

end LeanResourceManager
