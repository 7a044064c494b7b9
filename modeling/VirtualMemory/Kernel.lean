import VirtualMemory.Process.Load
import VirtualMemory.Mmu.Demand
import VirtualMemory.Mmu.Static

/-!
# The kernel

Boots the machine in static or demand mode, numbers and loads processes, switches between them,
and shuts the machine down.
-/

namespace VirtualMemory

inductive Backend
  | static (machine : StaticMachine)
  | paged (pager : Pager)

namespace Backend

def dispatch {ε α : Type} (x : Op StaticMachine ε α) (y : Op Pager ε α) : Op Backend ε α
  | .static m => let r := x m; ⟨r.result, .static r.state, r.notices⟩
  | .paged p => let r := y p; ⟨r.result, .paged r.state, r.notices⟩

instance : Mmu Backend where
  pageSize
    | .static m => Mmu.pageSize m
    | .paged p => Mmu.pageSize p
  load number layout := dispatch (Mmu.load number layout) (Mmu.load number layout)
  translate number vaddr access :=
    dispatch (Mmu.translate number vaddr access) (Mmu.translate number vaddr access)
  read number vaddr length :=
    dispatch (Mmu.read number vaddr length) (Mmu.read number vaddr length)
  write number vaddr data :=
    dispatch (Mmu.write number vaddr data) (Mmu.write number vaddr data)
  handleFault number vaddr e :=
    dispatch (Mmu.handleFault number vaddr e) (Mmu.handleFault number vaddr e)
  saveContext number := dispatch (Mmu.saveContext number) (Mmu.saveContext number)
  restoreContext number := dispatch (Mmu.restoreContext number) (Mmu.restoreContext number)
  teardown number := dispatch (Mmu.teardown number) (Mmu.teardown number)

def freePages : Backend → Nat
  | .static m => m.frames.freeCount
  | .paged p => p.freePages

def memory : Backend → PhysicalMemory
  | .static m => m.memory
  | .paged p => p.memory

def pager? : Backend → Option Pager
  | .static _ => none
  | .paged p => some p

end Backend

structure Kernel where
  config : Config
  backend : Backend
  /-- By number. -/
  processes : OrderedMap Nat Process := .empty
  /-- The number of the next process. -/
  next : Nat := 1

namespace Kernel

variable {σ ε α : Type}

def backendPart : Part Kernel Backend := ⟨backend, fun b k => { k with backend := b }⟩

def pager? (k : Kernel) : Option Pager := k.backend.pager?

def freePages (k : Kernel) : Nat := k.backend.freePages

def memory (k : Kernel) : PhysicalMemory := k.backend.memory

/-- The paging statistics; there are none in static mode. -/
def stats? (k : Kernel) : Option Snapshot := k.pager?.map (·.snapshot)

def boot (host : String → HostPath) (c : Config) (entropy : UInt64) : Op σ MemoryError Kernel := do
  Op.notify .bootStarted
  c.validate
  let backend ← match c.mode with
    | .static => do
      Op.notify .staticMode
      pure (Backend.static (.ofSizes c.physPages c.pageSize))
    | .demand => do
      Op.notify .demandMode
      let processor := Processor.new c.tlbSize c.pageSize
      let pager ← Pager.create host c entropy processor (.zeroed c.physPages c.pageSize)
      pure (Backend.paged pager)
  Op.notify .memoryReady
  return { config := c, backend := backend }

/-- Numbers and loads a process. The number is used up even if loading fails. -/
def spawn (name : String) (image : Image) (args : List String) :
    Op Kernel MemoryError Process := do
  let k ← get
  set { k with next := k.next + 1 }
  let process ← Op.on backendPart (Loader.load k.next name image args k.config.stackPages)
  modify fun k => { k with processes := k.processes.insert process.number process }
  return process

/-- Runs an operation of a process; there may be no process with that number. -/
def onProcess (number : Nat) (x : Op (Hosted Backend) ε α) : Op Kernel ε (Option α) := fun k =>
  match k.processes.get? number with
  | none => ⟨.ok none, k, []⟩
  | some process =>
    let y := x ⟨process, k.backend⟩
    let k := { k with
      backend := y.state.machine
      processes := k.processes.insert number y.state.process }
    ⟨y.result.map some, k, y.notices⟩

/-- Takes a process off the processor, if one is given, and puts another on it. -/
def contextSwitch (leaving : Option Nat) (entering : Nat) : Op Kernel Empty Unit := do
  if let some number := leaving then
    let _ ← onProcess number Hosted.switchOut
  let _ ← onProcess entering Hosted.switchIn

/-- Ends a process, if it is still alive, and forgets it; answers whether there was one. -/
def discard (number : Nat) : Op Kernel Empty Bool := do
  let found ← onProcess number (Hosted.exit 0)
  modify fun k => { k with processes := k.processes.erase number }
  return found.isSome

def shutdown : Op Kernel Empty Unit := do
  Op.on backendPart (Backend.dispatch (pure ()) Pager.close)
  Op.notify .shutdownComplete

end Kernel

end VirtualMemory
