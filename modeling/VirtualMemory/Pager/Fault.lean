import VirtualMemory.Pager.Eviction

/-!
# Faults

A miss of the address cache. A resident page only needs its entry cached again; any
other page is brought in first: from its image while it is pending, from its swap slot if it has
one, and else as zeros. A page that cannot be brought in gives its frame back.
-/

namespace VirtualMemory.Pager

/-- The slot for an entry to come in: the first that is not valid, or one drawn from all. -/
def chooseSlot : Op Pager Empty Nat :=
  modifyGet fun p =>
    match p.tlb.freeSlot with
    | some index => (index, p)
    | none =>
      let (index, draws) := p.draws.below p.tlb.size
      (index, { p with draws := draws })

def mergeBack (key : PageKey) (entry : Entry) (unmapped : Notice) : Op Pager Empty Unit := do
  if let .error _ ← Op.attempt (Op.on tablePart (PageTable.update key entry)) then
    Op.notify unmapped

def flushSlot (index : Nat) : Op Pager Empty Unit := do
  let replaced ← modifyGet fun p =>
    let (replaced, t) := p.tlb.invalidate index
    (replaced, p.setTlb t)
  if let some old := replaced then
    let key : PageKey := ⟨old.asid, old.entry.vpn⟩
    mergeBack key old.entry (.replacedSlotUnmapped key)

/-- Caches an entry of `pid`, unless its page is cached already. The table learns what the
slot had seen of the page it held before. -/
def refill (pid : Pid) (entry : Entry) : Op Pager Empty Unit := do
  let p ← get
  if (p.tlb.find pid entry.vpn).isSome then
    return
  if p.tlb.size = 0 then
    Op.notify (.refillWithoutSlots ⟨pid, entry.vpn⟩)
    return
  let index ← chooseSlot
  flushSlot index
  modify fun p => p.setTlb (p.tlb.write index pid entry).2

/-- The index of the image that a pending page is loaded from. -/
def pendingImage (p : Pager) (key : PageKey) : Option ImageIndex :=
  if p.swap.isPending key then
    ((p.spaces.get? key.pid).bind (·.image)).filter fun index => (index.locate key.vpn).isSome
  else none

/-- The current contents of a page that is not resident, and whether it is read-only. -/
def fetch (key : PageKey) : Op Pager MemoryError (Bytes × Bool) := do
  let p ← get
  if let some index := p.pendingImage key then
    let (data, readOnly) ← Op.ofExcept (index.load key.vpn p.pageSize)
    count .imageLoads
    return (data, readOnly)
  if (p.swap.slot? key).isSome then
    let found ← Op.on swapPart (Swapper.readInto key p.pageSize)
    count .swapIns
    return (found.data, false)
  count .zeroFills
  return (Bytes.zeros p.pageSize, false)

/-- Brings the contents of a page into frame `ppn`; answers whether the page is read-only. -/
def fillFrame (key : PageKey) (ppn : Ppn) : Op Pager MemoryError Bool := do
  let (data, readOnly) ← fetch key
  let memory ← Op.ofExcept ((← get).memory.writePage ppn data)
  modify fun p => { p with memory := memory }
  return readOnly

/-- Gives a frame back that no page came into. -/
def giveBack (ppn : Ppn) : Op Pager Empty Unit := do
  if let .error _ ← Op.attempt (Op.on framesPart (Frames.release ppn)) then
    Op.notify (.releaseInconsistent ppn)

def faultIn (key : PageKey) : Op Pager MemoryError Entry := do
  count .pageFaults
  let ppn ← acquireFrame
  match ← Op.attempt (fillFrame key ppn) with
  | .error e =>
    giveBack ppn
    throw e
  | .ok readOnly =>
    let entry : Entry := ⟨key.vpn, ppn, { valid := true, readOnly := readOnly, used := true }⟩
    if let .error e ← Op.attempt (Op.on tablePart (PageTable.insert key entry)) then
      giveBack ppn
      throw e
    return entry

def handleMiss (pid : Pid) (vaddr : VirtAddr) : Op Pager MemoryError Entry := do
  let p ← get
  Op.checkDivisor p.pageSize
  let key : PageKey := ⟨pid, vaddr.vpn p.pageSize⟩
  if !p.inBounds pid key.vpn then
    Op.notify (.addressOutsideSpace pid vaddr)
    throw .invalidAddress
  count .tlbMisses
  let entry ← match p.table.lookupValid key with
    | some entry => pure entry
    | none => faultIn key
  refill pid entry
  return entry

end VirtualMemory.Pager

namespace VirtualMemory

/-- The outcome of a handled miss; a failure without a meaning of its own is fatal and reported. -/
def FaultResult.ofMiss {σ α : Type} : Except MemoryError α → Op σ Empty FaultResult
  | .ok _ => return .success
  | .error .outOfMemory => return .outOfMemory
  | .error .invalidAddress => return .invalidAddress
  | .error e => do
    Op.notify .faultUnresolved
    Op.notify (.cause e)
    return .fatalError

end VirtualMemory
