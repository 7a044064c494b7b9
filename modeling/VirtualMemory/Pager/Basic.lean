import VirtualMemory.Frames
import VirtualMemory.Image
import VirtualMemory.PageTable
import VirtualMemory.PhysicalMemory
import VirtualMemory.Processor
import VirtualMemory.Statistics
import VirtualMemory.Swap

/-!
# The pager

The state that all processes share under demand paging: the page table, the frames, the
swap, the source of random choices, the registered address spaces, and the processor and memory
that it works on. Here it is put together, spaces are registered and taken down, and accesses are
translated by the processor's cache within the bounds of a space.
-/

namespace VirtualMemory

structure Space where
  numPages : Nat
  image : Option ImageIndex
  /-- The entries that were cached for a process that is not running. -/
  snapshot : List Entry := []

structure Pager where
  pageSize : Nat
  table : PageTable
  frames : Frames
  swap : Swapper
  draws : Draws
  spaces : OrderedMap Pid Space := .empty
  processor : Processor
  memory : PhysicalMemory
  stats : Statistics := {}

namespace Pager

variable {σ ε : Type}

def tablePart : Part Pager PageTable := ⟨table, fun t p => { p with table := t }⟩
def framesPart : Part Pager Frames := ⟨frames, fun f p => { p with frames := f }⟩
def swapPart : Part Pager Swapper := ⟨swap, fun s p => { p with swap := s }⟩
def memoryPart : Part Pager PhysicalMemory := ⟨memory, fun m p => { p with memory := m }⟩
def processorPart : Part Pager Processor := ⟨processor, fun c p => { p with processor := c }⟩

def tlb (p : Pager) : Tlb := p.processor.tlb

def setTlb (p : Pager) (t : Tlb) : Pager := { p with processor.tlb := t }

def tlbPart : Part Pager Tlb := ⟨tlb, fun t p => p.setTlb t⟩

def count (c : Counter) : Op Pager ε Unit := modify fun p => { p with stats := p.stats.add 1 c }

def residentPages (p : Pager) : Nat := p.table.residentCount

def freePages (p : Pager) : Nat := p.frames.freeCount

def snapshot (p : Pager) : Snapshot := ⟨p.stats, p.residentPages, p.freePages⟩

/-! ## Construction -/

/-- A valid configuration, and a processor and a memory of its sizes. -/
def checkParts (c : Config) (processor : Processor) (memory : PhysicalMemory) :
    Op σ MemoryError Unit := do
  c.validate
  if processor.tlbSize = 0 ∨ processor.pageSize ≠ c.pageSize then
    Op.notify (.processorMismatch processor.tlbSize processor.pageSize)
    throw .invalidParameter
  if memory.pages ≠ c.physPages ∨ memory.pageSize ≠ c.pageSize then
    Op.notify (.memoryMismatch memory.pages)
    throw .invalidParameter

/-- A pager over an open swap, which is closed again if the parts do not fit. A configuration
without a seed takes `entropy` for one. -/
def ofSwap (c : Config) (entropy : UInt64) (processor : Processor) (memory : PhysicalMemory)
    (swap : Swapper) : Op σ MemoryError Pager := do
  if let .error e ← Op.attempt (checkParts c processor memory) then
    let _ ← Op.apart swap Swapper.close
    throw e
  Op.notify (.pagerReady c.physPages c.tlbSize)
  return {
    pageSize := c.pageSize
    table := .empty c.physPages
    frames := .ofTotal c.physPages
    swap := swap
    draws := .seeded (c.seed.getD entropy)
    processor := processor
    memory := memory }

def create (host : String → HostPath) (c : Config) (entropy : UInt64) (processor : Processor)
    (memory : PhysicalMemory) : Op σ MemoryError Pager := do
  c.validate
  let swap ← Swapper.openBacking host c.swap c.pageSize
  ofSwap c entropy processor memory swap

/-! ## Address spaces -/

/-- Registers the space of a process. The pages of its image are pending: their first touch loads
them from the image. -/
def registerSpace (pid : Pid) (numPages : Nat) (image : Option ImageIndex) :
    Op Pager MemoryError Unit := do
  if (← get).spaces.contains pid then
    Op.notify (.spaceRegistered pid)
    throw .alreadyMapped
  let covered := (image.map ImageIndex.vpns).getD []
  -- last page first, so that each one goes in front of the pages of its space
  modify fun p => { p with
    swap := covered.foldr (fun vpn s => s.markPending ⟨pid, vpn⟩) p.swap
    spaces := p.spaces.insert pid { numPages := numPages, image := image } }

def inBounds (p : Pager) (pid : Pid) (vpn : Vpn) : Bool :=
  (p.spaces.get? pid).any fun space => vpn.toNat < space.numPages

/-! ## Accesses -/

/-- The physical address of an access, by the cache and within the bounds of the space. -/
def translate (pid : Pid) (vaddr : VirtAddr) (access : Access) :
    Op Pager Exception PhysAddr := do
  let p ← get
  Op.checkDivisor p.pageSize
  if !p.inBounds pid (vaddr.vpn p.pageSize) then throw .addressError
  Op.on processorPart (Processor.translate pid vaddr access)

/-- Translates an address and reads from there on, up to the end of memory. -/
def read (pid : Pid) (vaddr : VirtAddr) (length : Nat) : Op Pager Exception Bytes := do
  let paddr ← translate pid vaddr .read
  return (← get).memory.read paddr length

/-- Translates an address and writes from there on, up to the end of memory; answers the number
of bytes written. -/
def write (pid : Pid) (vaddr : VirtAddr) (data : Bytes) : Op Pager Exception Nat := do
  let paddr ← translate pid vaddr .write
  modifyGet fun p =>
    let (n, memory) := p.memory.write paddr data
    (n, { p with memory := memory })

/-! ## The end of a space -/

def releasePage (key : PageKey) : Op Pager Empty Unit := do
  match ← Op.attempt (Op.on tablePart (PageTable.remove key)) with
  | .error _ => return
  | .ok entry =>
    if entry.valid then
      if let .error _ ← Op.attempt (Op.on framesPart (Frames.release entry.ppn)) then
        Op.notify (.teardownInconsistent entry.ppn)

/-- Gives back every frame and every swap slot of a process and forgets its space. What the cache
knew of its pages is dropped. -/
def teardown (pid : Pid) : Op Pager Empty Unit := do
  modify fun p => p.setTlb (p.tlb.invalidateAsid pid).2
  ((← get).table.vpnsOf pid).forM fun vpn => releasePage ⟨pid, vpn⟩
  modify fun p => { p with
    swap := p.swap.releaseProcess pid
    spaces := p.spaces.erase pid }

def close : Op Pager Empty Unit := Op.on swapPart Swapper.close

end Pager

end VirtualMemory
