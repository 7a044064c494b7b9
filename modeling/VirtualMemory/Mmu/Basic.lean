import VirtualMemory.Image

/-!
# Memory management units

What a process asks of the machine that translates its addresses. An access is answered by the
machine or raises an exception; a handled exception may make the access succeed when it is tried
again. Processes are told apart by a number that is given out once.
-/

namespace VirtualMemory

/-- The address space that a loader decided on. -/
structure Layout where
  /-- Pages of the image, the stack and the arguments. -/
  numPages : Nat
  index : ImageIndex

/-- Machines `σ` that translate the addresses of processes. -/
class Mmu (σ : Type) where
  pageSize : σ → Nat
  /-- Prepares the space of a process. -/
  load : Nat → Layout → Op σ MemoryError Unit
  translate : Nat → VirtAddr → Access → Op σ Exception PhysAddr
  /-- Translates an address and reads from there on. -/
  read : Nat → VirtAddr → Nat → Op σ Exception Bytes
  /-- Translates an address and writes from there on; answers the number of bytes written. -/
  write : Nat → VirtAddr → Bytes → Op σ Exception Nat
  handleFault : Nat → VirtAddr → Exception → Op σ Empty FaultResult
  /-- The process leaves the processor. -/
  saveContext : Nat → Op σ Empty Unit
  /-- The process comes back to the processor. -/
  restoreContext : Nat → Op σ Empty Unit
  /-- Gives back everything that the process has. -/
  teardown : Nat → Op σ Empty Unit

/-- Tries an access at an address, and again after each fault that was resolved, for so many
rounds; then goes on with `exhausted`. -/
def withFaults {σ α : Type} [Mmu σ] (number : Nat) (vaddr : VirtAddr)
    (access : Op σ Exception α) (exhausted : Op σ FaultResult α) : Nat → Op σ FaultResult α
  | 0 => exhausted
  | rounds + 1 => do
    match ← Op.attempt access with
    | .ok a => return a
    | .error e =>
      let outcome ← Op.total (Mmu.handleFault number vaddr e)
      if outcome = .success then withFaults number vaddr access exhausted rounds else throw outcome

end VirtualMemory
