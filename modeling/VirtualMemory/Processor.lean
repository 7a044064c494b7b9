import VirtualMemory.Interrupts
import VirtualMemory.Op
import VirtualMemory.Tlb

/-!
# The processor

Translates addresses through its address cache alone, as hardware does: it checks protection
and records that the page was used or written. A page that is not cached raises an exception.
-/

namespace VirtualMemory

structure Processor where
  tlb : Tlb
  pageSize : Nat
  interrupts : Interrupts := {}
  deriving DecidableEq

namespace Processor

def new (tlbSize pageSize : Nat) : Processor := { tlb := .empty tlbSize, pageSize := pageSize }

def tlbSize (p : Processor) : Nat := p.tlb.size

def tlbPart : Part Processor Tlb := ⟨tlb, fun t p => { p with tlb := t }⟩

/-- The interrupts while the cache is being used. -/
def interruptsInside (p : Processor) : Interrupts := p.interrupts.disable.2

def translate (pid : Pid) (vaddr : VirtAddr) (access : Access) :
    Op Processor Exception PhysAddr := do
  let p ← get
  Op.checkDivisor p.pageSize
  let vpn := vaddr.vpn p.pageSize
  let some entry := p.tlb.lookup pid vpn
    | set { p with tlb := p.tlb.countMiss }
      throw .tlbMiss
  if access = .write && entry.readOnly then
    throw .readOnly
  set { p with tlb := p.tlb.touch pid vpn access }
  return .ofPage entry.ppn (vaddr.offset p.pageSize) p.pageSize

end Processor

end VirtualMemory
