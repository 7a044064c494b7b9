import VirtualMemory.Bytes
import VirtualMemory.Error
import VirtualMemory.Address

/-!
# Physical memory

Frames of one size, side by side in one byte store. Whole frames are read and written by number;
bytes by address, clipped at the end of memory only.
-/

namespace VirtualMemory

structure PhysicalMemory where
  pages : Nat
  pageSize : Nat
  store : ByteStore
  deriving DecidableEq

namespace PhysicalMemory

def zeroed (pages pageSize : Nat) : PhysicalMemory :=
  { pages := pages, pageSize := pageSize, store := .zeros (pages * pageSize) }

def byte (m : PhysicalMemory) (address : Nat) : UInt8 := m.store.byte address

/-- Where frame `ppn` starts, if there is such a frame. -/
def frameStart (m : PhysicalMemory) (ppn : Ppn) : Except MemoryError Nat :=
  if ppn.toNat < m.pages then .ok (ppn.toNat * m.pageSize) else .error .outOfBounds

/-- The contents of a frame, for a buffer of `length` bytes, which must be a page. -/
def readPage (m : PhysicalMemory) (ppn : Ppn) (length : Nat) : Except MemoryError Bytes := do
  if length ≠ m.pageSize then throw .invalidParameter
  let start ← m.frameStart ppn
  return m.store.read start m.pageSize

def writePage (m : PhysicalMemory) (ppn : Ppn) (data : Bytes) :
    Except MemoryError PhysicalMemory := do
  if data.length ≠ m.pageSize then throw .invalidParameter
  let start ← m.frameStart ppn
  return { m with store := m.store.poke start data }

def zeroPage (m : PhysicalMemory) (ppn : Ppn) : Except MemoryError PhysicalMemory := do
  let start ← m.frameStart ppn
  return { m with store := m.store.poke start (Bytes.zeros m.pageSize) }

/-- The bytes from an address on, up to `length` of them. -/
def read (m : PhysicalMemory) (paddr : PhysAddr) (length : Nat) : Bytes :=
  m.store.read paddr.value.toNat length

/-- Writes from an address on; answers how many bytes there was room for. -/
def write (m : PhysicalMemory) (paddr : PhysAddr) (data : Bytes) : Nat × PhysicalMemory :=
  (min data.length (m.store.size - paddr.value.toNat),
    { m with store := m.store.poke paddr.value.toNat data })

end PhysicalMemory

end VirtualMemory
