/-!
# Interrupts and the lock that masks them

Interrupts are on exactly while no section that disabled them is open: the flag is a depth, and a
section that closes lowers it whatever the flag was when the section began. An `IrqLock` guards a
value and keeps interrupts off while it is held.
-/

namespace VirtualMemory

structure Interrupts where
  /-- Sections that have interrupts off and are still open. -/
  depth : Nat := 0
  /-- How often interrupts were disabled. -/
  disables : Nat := 0
  deriving DecidableEq

namespace Interrupts

def enabled (i : Interrupts) : Bool := i.depth == 0

/-- Opens a section; answers whether interrupts were on. -/
def disable (i : Interrupts) : Bool × Interrupts :=
  (i.enabled, { depth := i.depth + 1, disables := i.disables + 1 })

/-- Closes a section. What the flag was at its start does not matter. -/
def restore (i : Interrupts) (_wasEnabled : Bool) : Interrupts := { i with depth := i.depth - 1 }

/-- Turns interrupts on, whatever sections are open. -/
def enable (i : Interrupts) : Interrupts := { i with depth := 0 }

end Interrupts

structure IrqLock (α : Type) where
  value : α
  /-- While held: whether interrupts were on when it was taken. -/
  heldSince : Option Bool := none
  deriving DecidableEq

namespace IrqLock

variable {α : Type}

def held (l : IrqLock α) : Bool := l.heldSince.isSome

def lock (l : IrqLock α) (i : Interrupts) : IrqLock α × Interrupts :=
  let (wasEnabled, i) := i.disable
  ({ l with heldSince := some wasEnabled }, i)

/-- Takes the lock if it is free. A refusal leaves the flag as it found it. -/
def tryLock (l : IrqLock α) (i : Interrupts) : Bool × IrqLock α × Interrupts :=
  if l.held then
    let (wasEnabled, i) := i.disable
    (false, l, i.restore wasEnabled)
  else
    let (l, i) := l.lock i
    (true, l, i)

def unlock (l : IrqLock α) (i : Interrupts) : IrqLock α × Interrupts :=
  match l.heldSince with
  | some wasEnabled => ({ l with heldSince := none }, i.restore wasEnabled)
  | none => (l, i)

def get? (l : IrqLock α) : Option α := if l.held then some l.value else none

def set? (l : IrqLock α) (a : α) : Bool × IrqLock α :=
  if l.held then (true, { l with value := a }) else (false, l)

end IrqLock

end VirtualMemory
