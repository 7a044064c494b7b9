import VirtualMemory.Pager.Audit
import VirtualMemory.Pager.Context
import VirtualMemory.Mmu.Basic

/-!
# Demand paging

All processes share one pager. Only a miss of the address cache is resolved.
-/

namespace VirtualMemory.Pager

def load (pid : Pid) (layout : Layout) : Op Pager MemoryError Unit :=
  registerSpace pid layout.numPages (some layout.index)

def handleFault (pid : Pid) (vaddr : VirtAddr) : Exception → Op Pager Empty FaultResult
  | .tlbMiss => do FaultResult.ofMiss (← Op.attempt (handleMiss pid vaddr))
  | e => return .ofException e

/-- The pager knows a process by the word of its number. -/
instance : Mmu Pager where
  pageSize := pageSize
  load number := load number.toUInt32
  translate number := translate number.toUInt32
  read number := read number.toUInt32
  write number := write number.toUInt32
  handleFault number := handleFault number.toUInt32
  saveContext number := saveContext number.toUInt32
  restoreContext number := restoreContext number.toUInt32
  teardown number := teardown number.toUInt32

/-- Rounds of transfer and miss that a direct access may take. -/
def accessRounds : Nat := 4

/-- Reads at an address, with the misses met on the way. -/
def accessRead (pid : Pid) (vaddr : VirtAddr) (length : Nat) : Op Pager FaultResult Bytes :=
  withFaults pid.toNat vaddr (read pid vaddr length) (throw .fatalError) accessRounds

/-- Writes at an address, with the misses met on the way. -/
def accessWrite (pid : Pid) (vaddr : VirtAddr) (data : Bytes) : Op Pager FaultResult Nat :=
  withFaults pid.toNat vaddr (write pid vaddr data) (throw .fatalError) accessRounds

end VirtualMemory.Pager
