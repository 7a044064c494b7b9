import VirtualMemory.Pager.Basic

/-!
# The audit of a pager

The table and the swap agree with themselves; each frame is either free or resident; and each
valid cache slot translates a resident page to its frame.
-/

namespace VirtualMemory.Pager

variable {σ : Type}

/-- Each of these frames is free or resident, and not both. -/
def auditFrames (p : Pager) : List Ppn → Op σ MemoryError Unit
  | [] => return
  | ppn :: rest => do
    if p.frames.isFree ppn = (p.table.owner? ppn).isSome then
      Op.notify (.frameNeitherFreeNorResident ppn)
      throw .invariantViolation
    p.auditFrames rest

/-- The slot translates a resident page to its frame. -/
def slotAgrees (p : Pager) (slot : TlbSlot) : Bool :=
  (p.table.lookupValid ⟨slot.asid, slot.entry.vpn⟩).any (·.ppn == slot.entry.ppn)

/-- Each of these cache slots agrees with the table. -/
def auditSlots (p : Pager) : List (Nat × TlbSlot) → Op σ MemoryError Unit
  | [] => return
  | (index, slot) :: rest => do
    if !p.slotAgrees slot then
      Op.notify (.tlbSlotOrphaned index slot.asid slot.entry.vpn)
      throw .invariantViolation
    p.auditSlots rest

/-- Checks everything that has to hold between two operations. -/
def audit (p : Pager) : Op σ MemoryError Unit := do
  p.table.audit
  p.swap.audit
  if p.freePages + p.residentPages ≠ p.frames.total then
    Op.notify (.partitionBroken p.freePages p.residentPages)
    throw .invariantViolation
  p.auditFrames ((List.range p.frames.total.toUInt32.toNat).map Nat.toUInt32)
  p.auditSlots p.tlb.validSlots

end VirtualMemory.Pager
