import VirtualMemory.Mmu.Basic

/-!
# Processes

A process is what the kernel knows of a running program; its memory is in the machine that
translates its addresses. `Hosted σ` is a process together with that machine. Exceptions that are
not resolved terminate the process, and so does `exit`; a terminated process asks nothing of the
machine any more.
-/

namespace VirtualMemory

inductive ProcessState
  | ready
  | running
  | terminated
  deriving DecidableEq, Repr

def ProcessState.name : ProcessState → String
  | .ready => "Ready"
  | .running => "Running"
  | .terminated => "Terminated"

structure Process where
  /-- No other process has it. -/
  number : Nat
  name : String
  state : ProcessState := .ready
  pageSize : Nat
  numPages : Nat
  /-- The top of the stack, where the argument page begins. -/
  initialSp : VirtAddr
  entryPoint : VirtAddr
  argc : Nat
  argv : VirtAddr
  exitStatus : Option Int := none
  deriving DecidableEq

namespace Process

/-- The number of the process in a word, by which the machine may know it. -/
def pid (p : Process) : Pid := p.number.toUInt32

def terminated (p : Process) : Bool := p.state == .terminated

def inBounds (p : Process) (vaddr : VirtAddr) : Bool :=
  (vaddr.vpn p.pageSize).toNat < p.numPages

end Process

/-- A process on the machine that translates its addresses. -/
structure Hosted (σ : Type) where
  process : Process
  machine : σ

namespace Hosted

variable {σ ε : Type}

def machinePart : Part (Hosted σ) σ := ⟨machine, fun m h => { h with machine := m }⟩

def setState (s : ProcessState) (h : Hosted σ) : Hosted σ := { h with process.state := s }

def setExitStatus (status : Int) (h : Hosted σ) : Hosted σ :=
  { h with process.exitStatus := some status }

variable [Mmu σ]

/-- Terminates a process that is still alive, and gives back all its memory. -/
def exit (status : Int) : Op (Hosted σ) Empty Unit := do
  let p := (← get).process
  if !p.terminated then
    Op.on machinePart (Mmu.teardown p.number)
    modify fun h => (h.setState .terminated).setExitStatus status
    Op.notify (.processTerminated p.pid)

def translate (vaddr : VirtAddr) (access : Access) : Op (Hosted σ) Exception PhysAddr := do
  let p := (← get).process
  if p.terminated then throw .addressError
  Op.checkDivisor p.pageSize
  if !p.inBounds vaddr then throw .addressError
  Op.on machinePart (Mmu.translate p.number vaddr access)

/-- Handles an exception that the processor raised. One that is not resolved terminates the
process with status -1. -/
def handleException (e : Exception) (vaddr : VirtAddr) : Op (Hosted σ) Empty FaultResult := do
  let p := (← get).process
  Op.checkDivisor p.pageSize
  let outcome ← if p.inBounds vaddr then
      Op.on machinePart (Mmu.handleFault p.number vaddr e)
    else pure .invalidAddress
  if outcome ≠ .success then
    Op.notify (.exceptionUnhandled p.pid vaddr)
    exit (-1)
  return outcome

def switchOut : Op (Hosted σ) Empty Unit := do
  let p := (← get).process
  if !p.terminated then
    Op.on machinePart (Mmu.saveContext p.number)
    modify (setState .ready)

def switchIn : Op (Hosted σ) Empty Unit := do
  let p := (← get).process
  if !p.terminated then
    Op.on machinePart (Mmu.restoreContext p.number)
    modify (setState .running)

end Hosted

end VirtualMemory
