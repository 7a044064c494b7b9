import VirtualMemory.BackingFile
import VirtualMemory.Config
import VirtualMemory.ResidentIndex

/-!
# Swap

A flat file of page-sized slots, slot `i` at offset `i * pageSize`. A page of a process is
* *pending* while its contents are still those of its program image,
* in the *slot* that was assigned to it when it was first written out,
* or neither.
Slots that were given back are used again, oldest first, before the file grows.
-/

namespace VirtualMemory

def slotOffset (slot pageSize : Nat) : Nat := slot * pageSize

structure SwapCounters where
  pagesIn : Nat := 0
  pagesOut : Nat := 0
  /-- Reads of pages that have no slot. -/
  untracked : Nat := 0
  deriving DecidableEq

structure Swapper where
  /-- The file, until the swap is closed. -/
  file : Option BackingFile
  pageSize : Nat
  slots : OrderedMap PageKey Nat := .empty
  pending : OrderedSet PageKey := .empty
  /-- The slots that were given back, next one first. -/
  freeSlots : List Nat := []
  /-- The first slot that was never used. -/
  capacity : Nat := 0
  counters : SwapCounters := {}

inductive SwapRead
  | loaded (slot : Nat) (data : Bytes)
  | zeroFilled (data : Bytes)
  deriving DecidableEq

def SwapRead.data : SwapRead → Bytes
  | .loaded _ data => data
  | .zeroFilled data => data

namespace Swapper

def ofFile (file : BackingFile) (pageSize : Nat) : Swapper :=
  { file := some file, pageSize := pageSize }

/-- Opens the configured backing; `host` says what the paths of the host lead to. -/
def openBacking {σ : Type} (host : String → HostPath) (backing : SwapBacking) (pageSize : Nat) :
    Op σ MemoryError Swapper :=
  match backing with
  | .memory => return ofFile (.memory {}) pageSize
  | .file path => do
    Op.notify .swapFileCreation
    match HostFile.create (host path) with
    | .ok file => return ofFile (.host file) pageSize
    | .error e =>
      Op.notify .swapFileNotCreated
      throw (.ofFile e)

def isOpen (s : Swapper) : Bool := s.file.isSome

def onDisk (s : Swapper) : Option Bytes := s.file.bind (·.onDisk)

/-- Takes a host file off the disk behind its back; answers whether it was there. -/
def unlink (s : Swapper) : Bool × Swapper :=
  match s.file with
  | some file => (file.unlink.1, { s with file := some file.unlink.2 })
  | none => (false, s)

def setFaults (faults : FileFaults) (s : Swapper) : Swapper :=
  { s with file := s.file.map (·.setFaults faults) }

/-! ## Accounting -/

def slot? (s : Swapper) (key : PageKey) : Option Nat := s.slots.get? key

def isPending (s : Swapper) (key : PageKey) : Bool := s.pending.contains key

/-- Marks a page as still being that of the image, unless it has a slot. -/
def markPending (s : Swapper) (key : PageKey) : Swapper :=
  if s.slots.contains key then s else { s with pending := s.pending.insert key () }

/-- The slot of a page, assigned if it has none; the page is pending no more. -/
def allocateSlot (s : Swapper) (key : PageKey) : Nat × Swapper :=
  match s.slots.get? key with
  | some slot => (slot, s)
  | none =>
    let s := { s with pending := s.pending.erase key }
    match s.freeSlots with
    | slot :: rest => (slot, { s with slots := s.slots.insert key slot, freeSlots := rest })
    | [] =>
      (s.capacity,
        { s with slots := s.slots.insert key s.capacity, capacity := s.capacity + 1 })

def freeSlot (s : Swapper) (key : PageKey) : Swapper :=
  match s.slots.get? key with
  | some slot => { s with slots := s.slots.erase key, freeSlots := s.freeSlots ++ [slot] }
  | none => s

/-- Forgets the pages of a process; its slots are given back in the order of the pages. -/
def releaseProcess (s : Swapper) (pid : Pid) : Swapper :=
  let s := { s with pending := s.pending.filter (·.pid != pid) }
  (s.slots.keys.filter (·.pid == pid)).foldl freeSlot s

/-! ## Transfers -/

def countUntracked (s : Swapper) : Swapper :=
  { s with counters.untracked := s.counters.untracked + 1 }

def countPageIn (s : Swapper) : Swapper :=
  { s with counters.pagesIn := s.counters.pagesIn + 1 }

def countPageOut (s : Swapper) : Swapper :=
  { s with counters.pagesOut := s.counters.pagesOut + 1 }

/-- Reads a page into a buffer of `length` bytes, which must be a page. A page without a slot
reads as zeros, with a notice. -/
def readInto (key : PageKey) (length : Nat) : Op Swapper MemoryError SwapRead := do
  let s ← get
  if length ≠ s.pageSize then throw .invalidParameter
  let some file := s.file | throw .swapClosed
  match s.slot? key with
  | none =>
    Op.notify (.untrackedSwapRead key)
    set s.countUntracked
    return .zeroFilled (Bytes.zeros s.pageSize)
  | some slot =>
    match file.readAt (slotOffset slot s.pageSize) s.pageSize with
    | .error e =>
      Op.notify (.swapReadFailed slot)
      throw (.ofFile e)
    | .ok data =>
      set s.countPageIn
      return .loaded slot (Bytes.fit s.pageSize data)

def read (key : PageKey) : Op Swapper MemoryError Bytes := do
  let found ← readInto key (← get).pageSize
  return found.data

/-- Writes a page to its slot, which is assigned first if it has none. -/
def write (key : PageKey) (page : Bytes) : Op Swapper MemoryError Nat := do
  let s ← get
  if page.length ≠ s.pageSize then throw .invalidParameter
  let some file := s.file | throw .swapClosed
  let (slot, s) := s.allocateSlot key
  let (result, file) := file.writeAt (slotOffset slot s.pageSize) page
  let s := { s with file := some file }
  match result with
  | .error e =>
    set s
    Op.notify (.swapWriteFailed slot)
    throw (.ofFile e)
  | .ok _ =>
    set s.countPageOut
    return slot

/-- Closes and removes the file and forgets every page. -/
def close : Op Swapper Empty Unit := do
  let s ← get
  if let some file := s.file then
    if file.close.remove.1.toOption.isNone then
      Op.notify .swapFileNotRemoved
    set { s with file := none, slots := .empty, pending := .empty, freeSlots := [] }
    Op.notify (.swapShut s.capacity)

/-! ## Audit -/

/-- Each slot is inside the file and assigned once, and no page with a slot is pending; answers
the slots seen. -/
def auditSlots {σ : Type} (s : Swapper) (seen : List Nat) :
    List (PageKey × Nat) → Op σ MemoryError (List Nat)
  | [] => return seen
  | (key, slot) :: rest => do
    if s.capacity ≤ slot || seen.contains slot then
      Op.notify (.swapSlotMisused slot)
      throw .invariantViolation
    if s.isPending key then
      Op.notify (.pendingPageWithSlot key)
      throw .invariantViolation
    s.auditSlots (slot :: seen) rest

def auditFree {σ : Type} (seen : List Nat) : List Nat → Op σ MemoryError Unit
  | [] => return
  | slot :: rest => do
    if seen.contains slot then
      Op.notify (.freeSlotReferenced slot)
      throw .invariantViolation
    auditFree (slot :: seen) rest

def audit {σ : Type} (s : Swapper) : Op σ MemoryError Unit := do
  let seen ← s.auditSlots [] s.slots.toList
  auditFree seen s.freeSlots

end Swapper

end VirtualMemory
