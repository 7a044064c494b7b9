import VirtualMemory.Op

/-!
# Configuration

The sizes of a machine and the way it translates. `Config.validate` accepts a page size that is a
power of two, at least one frame and one cache slot, and no more memory than 32 bits address.
-/

namespace VirtualMemory

inductive Mode
  | static
  | demand
  deriving DecidableEq, Repr

def Mode.name : Mode → String
  | .static => "Static"
  | .demand => "DemandPaged"

inductive SwapBacking
  | memory
  | file (path : String)
  deriving DecidableEq, Repr

def SwapBacking.name : SwapBacking → String
  | .memory => "memory"
  | .file path => "file:" ++ path

structure Config where
  pageSize : Nat := 1024
  physPages : Nat := 32
  tlbSize : Nat := 4
  stackPages : Nat := 8
  mode : Mode := .demand
  swap : SwapBacking := .file "forge.swap"
  seed : Option UInt64 := none
  deriving DecidableEq, Repr

/-- A positive power of two: no bit in common with its predecessor. -/
def isPowerOfTwo (n : Nat) : Bool := n != 0 && n &&& (n - 1) == 0

/-- Accepts a configuration, or reports the first thing that is wrong with it. -/
def Config.validate {σ : Type} (c : Config) : Op σ MemoryError Unit := do
  if !isPowerOfTwo c.pageSize then
    Op.notify (.pageSizeRejected c.pageSize)
    throw .invalidParameter
  if c.physPages = 0 then
    Op.notify .noFrames
    throw .invalidParameter
  if c.tlbSize = 0 then
    Op.notify .noTlbSlots
    throw .invalidParameter
  if !fitsAddressSpace c.physPages c.pageSize then
    Op.notify (.memoryTooLarge c.physPages)
    throw .invalidParameter

end VirtualMemory
