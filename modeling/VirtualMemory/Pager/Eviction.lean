import VirtualMemory.Pager.Basic

/-!
# Eviction

A page leaves memory in three steps: every cache slot that translates it is invalidated and what
the slot saw is told to the table; a dirty page is written to its swap slot, while a clean one has
a copy already; then its entry is removed and its frame given back. A failure stops at its step.
-/

namespace VirtualMemory.Pager

/-- Invalidates the cache slots of a page and tells the table what they saw. -/
def flushPage (key : PageKey) : Op Pager MemoryError Unit := do
  let cached ← modifyGet fun p =>
    let (cached, t) := p.tlb.invalidatePage key.pid key.vpn
    (cached, p.setTlb t)
  if let some entry := cached then
    Op.on tablePart (PageTable.update key entry)

/-- Writes the contents of a frame to the swap slot of a page. -/
def writeOut (key : PageKey) (ppn : Ppn) : Op Pager MemoryError Unit := do
  let p ← get
  let page ← Op.ofExcept (p.memory.readPage ppn p.pageSize)
  let _ ← Op.on swapPart (Swapper.write key page)
  count .swapOuts

/-- Removes the entry of a page and gives its frame `ppn` back. -/
def vacate (key : PageKey) (ppn : Ppn) : Op Pager MemoryError Ppn := do
  let _ ← Op.on tablePart (PageTable.remove key)
  Op.on framesPart (Frames.release ppn)
  count .evictions
  return ppn

def evictPage (key : PageKey) : Op Pager MemoryError Ppn := do
  flushPage key
  let some entry := (← get).table.lookupValid key | throw .notMapped
  if entry.dirty then
    writeOut key entry.ppn
  vacate key entry.ppn

def evictOne : Op Pager MemoryError Ppn := do
  let victim ← modifyGet fun p =>
    let (victim, draws) := p.table.pickVictim p.draws
    (victim, { p with draws := draws })
  let some (key, _) := victim
    | Op.notify .nothingToEvict
      throw .outOfMemory
  evictPage key

def takeFrame {ε : Type} : Op Pager ε (Option Ppn) :=
  modifyGet fun p =>
    let (ppn, frames) := p.frames.acquire
    (ppn, { p with frames := frames })

/-- A frame for a page to come in; a resident page is evicted if no frame is free. -/
def acquireFrame : Op Pager MemoryError Ppn := do
  if let some ppn ← takeFrame then
    return ppn
  let _ ← evictOne
  let some ppn ← takeFrame | throw .outOfMemory
  return ppn

end VirtualMemory.Pager
