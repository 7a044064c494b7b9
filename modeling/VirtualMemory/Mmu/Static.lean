import VirtualMemory.Entry
import VirtualMemory.Frames
import VirtualMemory.OrderedMap
import VirtualMemory.PhysicalMemory
import VirtualMemory.Mmu.Basic

/-!
# Static mapping

Each mapping has a table of its own, and every page of it gets a frame when it is loaded: entry
`vpn` of the table belongs to page `vpn`. There is no cache and no swap. The mappings share the
frames and the memory.
-/

namespace VirtualMemory

/-- Frames, memory, and the tables of the mappings that share them. -/
structure StaticMachine where
  frames : Frames
  memory : PhysicalMemory
  tables : OrderedMap Nat (List Entry) := .empty

namespace StaticMachine

def ofSizes (pages pageSize : Nat) : StaticMachine :=
  { frames := .ofTotal pages, memory := .zeroed pages pageSize }

def framesPart : Part StaticMachine Frames := ⟨frames, fun f m => { m with frames := f }⟩

def memoryPart : Part StaticMachine PhysicalMemory :=
  ⟨memory, fun x m => { m with memory := x }⟩

/-- The table of a mapping; empty before it is loaded. -/
def table (m : StaticMachine) (mapping : Nat) : List Entry := (m.tables.get? mapping).getD []

def setTable (m : StaticMachine) (mapping : Nat) (entries : List Entry) : StaticMachine :=
  { m with tables := m.tables.insert mapping entries }

def entry? (m : StaticMachine) (mapping : Nat) (vpn : Vpn) : Option Entry :=
  (m.table mapping)[vpn.toNat]?

def releaseAll (entries : List Entry) : Op StaticMachine Empty Unit :=
  entries.forM fun entry => do
    if let .error _ ← Op.attempt (Op.on framesPart (Frames.release entry.ppn)) then
      Op.notify (.staticReleaseInconsistent entry.ppn)

def acquireAll (vpns : List Vpn) : Op StaticMachine MemoryError (List Entry) :=
  vpns.mapM fun vpn => do
    let ppn ← modifyGet fun m =>
      let (ppn, frames) := m.frames.acquire
      (ppn, { m with frames := frames })
    match ppn with
    | some ppn => return ⟨vpn, ppn, { valid := true }⟩
    | none => throw .outOfMemory

/-- Writes the first contents of a page to its frame, and marks it read-only if it is. -/
def fillPage (index : ImageIndex) (entry : Entry) : Op StaticMachine MemoryError Entry := do
  let m ← get
  if (index.locate entry.vpn).isSome then
    let (data, readOnly) ← Op.ofExcept (index.load entry.vpn m.memory.pageSize)
    let memory ← Op.ofExcept (m.memory.writePage entry.ppn data)
    set { m with memory := memory }
    return { entry with flags.readOnly := readOnly }
  else
    let memory ← Op.ofExcept (m.memory.zeroPage entry.ppn)
    set { m with memory := memory }
    return entry

/-- Loads a mapping: all its frames are taken, and given back if a page cannot be filled. -/
def load (mapping : Nat) (pid : Pid) (layout : Layout) : Op StaticMachine MemoryError Unit := do
  if (← get).frames.freeCount < layout.numPages then
    Op.notify (.framesInsufficient pid layout.numPages)
    throw .outOfMemory
  let entries ← acquireAll ((List.range layout.numPages.toUInt32.toNat).map Nat.toUInt32)
  match ← Op.attempt (entries.mapM (fillPage layout.index)) with
  | .error e =>
    releaseAll entries
    throw e
  | .ok entries => modify fun m => m.setTable mapping entries

/-- The physical address of an access, by the table of the mapping. -/
def translate (mapping : Nat) (vaddr : VirtAddr) (access : Access) :
    Op StaticMachine Exception PhysAddr := do
  let m ← get
  let pageSize := m.memory.pageSize
  Op.checkDivisor pageSize
  let vpn := vaddr.vpn pageSize
  let some entry := (m.entry? mapping vpn).filter (·.valid) | throw .addressError
  if access = .write && entry.readOnly then
    throw .readOnly
  set (m.setTable mapping ((m.table mapping).set vpn.toNat (entry.touched access)))
  return .ofPage entry.ppn (vaddr.offset pageSize) pageSize

/-- Translates an address and reads from there on, up to the end of memory. -/
def read (mapping : Nat) (vaddr : VirtAddr) (length : Nat) :
    Op StaticMachine Exception Bytes := do
  let paddr ← translate mapping vaddr .read
  return (← get).memory.read paddr length

/-- Translates an address and writes from there on, up to the end of memory; answers the number
of bytes written. -/
def write (mapping : Nat) (vaddr : VirtAddr) (data : Bytes) :
    Op StaticMachine Exception Nat := do
  let paddr ← translate mapping vaddr .write
  modifyGet fun m =>
    let (n, memory) := m.memory.write paddr data
    (n, { m with memory := memory })

/-- No exception is resolved; a miss of a cache that is not there is reported. -/
def handleFault (pid : Pid) (vaddr : VirtAddr) (e : Exception) :
    Op StaticMachine Empty FaultResult := do
  if e = .tlbMiss then
    Op.notify (.missWithoutTlb pid vaddr)
  return .ofException e

def teardown (mapping : Nat) : Op StaticMachine Empty Unit := do
  let entries := (← get).table mapping
  modify fun m => { m with tables := m.tables.erase mapping }
  releaseAll entries

/-- Each process has a mapping of its own. -/
instance : Mmu StaticMachine where
  pageSize m := m.memory.pageSize
  load number := load number number.toUInt32
  translate := translate
  read := read
  write := write
  handleFault number := handleFault number.toUInt32
  saveContext _ := return
  restoreContext _ := return
  teardown := teardown

end StaticMachine

end VirtualMemory
