import VirtualMemory.Process.Basic
import VirtualMemory.Text.Utf8

/-!
# Copying to and from a process

A copy goes page by page. Each access is tried again after every fault that was resolved, for a
bounded number of rounds; a fault that was not resolved ends the copy where it stands, without
harm to the process. So does the end of its space.
-/

namespace VirtualMemory

/-- Rounds of access and fault that one page of a copy may take. -/
def maxFaultRounds : Nat := 32

/-- What a copy moved, and the fault that ended it early. -/
structure Copied (α : Type) where
  moved : α
  fault : Option FaultResult

namespace Hosted

variable {σ α : Type} [Mmu σ]

/-- A page that still faults after all rounds is reported, and the copy fails. -/
def faultsExhausted (p : Process) (vaddr : VirtAddr) : Op σ FaultResult α := do
  Op.notify (.faultsExhausted p.pid vaddr)
  throw .fatalError

/-- An access of a copy, with the faults it meets. -/
def withPage (p : Process) (vaddr : VirtAddr) (access : Op σ Exception α) : Op σ FaultResult α :=
  withFaults p.number vaddr access (faultsExhausted p vaddr) maxFaultRounds

/-- Where the next piece of a copy starts after `done` bytes, and how many bytes are left in that
page. There is no piece outside the space. -/
def nextPiece (p : Process) (vaddr : VirtAddr) (done : Nat) : Option (VirtAddr × Nat) := do
  let address ← vaddr.add? done
  guard (p.inBounds address)
  return (address, p.pageSize - address.offset p.pageSize)

/-- Looking for the next piece divides by the page size, unless the address space ends before it. -/
def checkPiece {ε : Type} (p : Process) (vaddr : VirtAddr) (done : Nat) : Op σ ε Unit :=
  if (vaddr.add? done).isSome then Op.checkDivisor p.pageSize else pure ()

/-- Reads `missing` more bytes after the `done` ones, in at most so many pieces. -/
def readPieces (p : Process) (vaddr : VirtAddr) (done missing : Nat) :
    Nat → Op σ Empty (Copied Bytes)
  | 0 => return ⟨[], none⟩
  | pieces + 1 => do
    if missing = 0 then return ⟨[], none⟩
    checkPiece p vaddr done
    let some (address, room) := nextPiece p vaddr done | return ⟨[], some .invalidAddress⟩
    let size := min room missing
    match ← Op.attempt (withPage p address (Mmu.read p.number address size)) with
    | .error fault => return ⟨[], some fault⟩
    | .ok data =>
      if data.length ≠ size then return ⟨data, none⟩
      let rest ← readPieces p vaddr (done + size) (missing - size) pieces
      return ⟨data ++ rest.moved, rest.fault⟩

/-- Writes `rest` after the `done` bytes that are written already, in at most so many pieces. -/
def writePieces (p : Process) (vaddr : VirtAddr) (done : Nat) (rest : Bytes) :
    Nat → Op σ Empty (Copied Nat)
  | 0 => return ⟨done, none⟩
  | pieces + 1 => do
    if rest.isEmpty then return ⟨done, none⟩
    checkPiece p vaddr done
    let some (address, room) := nextPiece p vaddr done | return ⟨done, some .invalidAddress⟩
    let piece := rest.take room
    match ← Op.attempt (withPage p address (Mmu.write p.number address piece)) with
    | .error fault => return ⟨done, some fault⟩
    | .ok n =>
      if n = piece.length then writePieces p vaddr (done + n) (rest.drop room) pieces
      else return ⟨done + n, none⟩

/-- Reads up to `length` bytes and tells what ended the copy early. -/
def copyOut (vaddr : VirtAddr) (length : Nat) : Op (Hosted σ) Empty (Copied Bytes) := do
  let p := (← get).process
  if p.terminated then return ⟨[], some .invalidAddress⟩
  Op.on machinePart (readPieces p vaddr 0 length length)

/-- Writes up to all of `data` and tells what ended the copy early. -/
def copyIn (vaddr : VirtAddr) (data : Bytes) : Op (Hosted σ) Empty (Copied Nat) := do
  let p := (← get).process
  if p.terminated then return ⟨0, some .invalidAddress⟩
  Op.on machinePart (writePieces p vaddr 0 data data.length)

/-- The bytes of the process from an address on: up to `length` of them. -/
def readMemory (vaddr : VirtAddr) (length : Nat) : Op (Hosted σ) Empty Bytes := do
  return (← copyOut vaddr length).moved

/-- Writes to the process from an address on, and answers the number of bytes written. -/
def writeMemory (vaddr : VirtAddr) (data : Bytes) : Op (Hosted σ) Empty Nat := do
  return (← copyIn vaddr data).moved

/-- The text at an address up to its NUL, which has to come within `maxLength + 1` bytes. The sum is
a 64-bit word: for the greatest length there is no buffer at all. -/
def readText (vaddr : VirtAddr) (maxLength : Nat) : Op (Hosted σ) Empty (Option String) := do
  let size := (maxLength + 1).toUInt64.toNat
  Op.checkBuffer size
  let data ← readMemory vaddr size
  if data.contains 0 then
    return some (Utf8.decode (data.takeWhile (· != 0)))
  else
    return none

end Hosted

end VirtualMemory
