import VirtualMemory.Entry
import VirtualMemory.ResidentIndex

/-!
# The page table

One table holds the entries of all processes, under process and page number. Beside it stands the
reverse map, in which each frame of a valid entry has that entry's page as its only owner.
`PageTable.audit` checks that the two agree.
-/

namespace VirtualMemory

structure PageTable where
  entries : OrderedMap PageKey Entry
  resident : ResidentIndex

namespace PageTable

def empty (pages : Nat) : PageTable := ⟨.empty, .empty pages⟩

def lookup (t : PageTable) (key : PageKey) : Option Entry := t.entries.get? key

def lookupValid (t : PageTable) (key : PageKey) : Option Entry :=
  (t.lookup key).filter (·.valid)

def owner? (t : PageTable) (ppn : Ppn) : Option PageKey := t.resident.owner? ppn

def residentCount (t : PageTable) : Nat := t.resident.size

def residentPart : Part PageTable ResidentIndex := ⟨resident, fun r t => { t with resident := r }⟩

/-- Stores an entry under a page that has none. -/
def insert (key : PageKey) (entry : Entry) : Op PageTable MemoryError Unit := do
  if (← get).entries.contains key then
    Op.notify (.insertDuplicated key)
    throw .alreadyMapped
  if entry.valid then
    Op.on residentPart (ResidentIndex.register entry.ppn key)
  modify fun t => { t with entries := t.entries.insert key entry }

/-- Replaces the entry of a page, whose hardware flags are kept. An invalid entry changes nothing.
The page gives up its old frame before it takes the new one. -/
def update (key : PageKey) (entry : Entry) : Op PageTable MemoryError Unit := do
  let t ← get
  let some old := t.lookup key | throw .notMapped
  if entry.valid then
    if let some owner := t.owner? entry.ppn then
      if owner ≠ key then
        Op.notify (.updateOntoOwnedFrame key entry.ppn)
        throw .alreadyMapped
    if old.valid && old.ppn != entry.ppn then
      set { t with resident := (t.resident.unregister old.ppn).2 }
    Op.on residentPart (ResidentIndex.register entry.ppn key)
    modify fun t => { t with entries := t.entries.insert key (entry.absorb old) }

def remove (key : PageKey) : Op PageTable MemoryError Entry := do
  let t ← get
  let some entry := t.lookup key | throw .notMapped
  let resident := if entry.valid then (t.resident.unregister entry.ppn).2 else t.resident
  set { t with entries := t.entries.erase key, resident := resident }
  return entry

/-- Draws a resident page, each with the same chance. -/
def pickVictim (t : PageTable) (draws : Draws) : Option (PageKey × Entry) × Draws :=
  let (picked, draws) := t.resident.pick draws
  let victim := do
    let (_, key) ← picked
    let entry ← t.lookup key
    return (key, entry)
  (victim, draws)

/-- The pages of a process that have an entry, in ascending order. -/
def vpnsOf (t : PageTable) (pid : Pid) : List Vpn :=
  (t.entries.keys.filter (·.pid == pid)).map (·.vpn)

def auditOwners {σ : Type} (t : PageTable) : List (PageKey × Entry) → Op σ MemoryError Unit
  | [] => return
  | (key, entry) :: rest => do
    if entry.valid && t.owner? entry.ppn != some key then
      Op.notify (.ownerMismatch key entry.ppn)
      throw .invariantViolation
    t.auditOwners rest

def validCount (t : PageTable) : Nat := t.entries.values.countP (·.valid)

/-- Checks that each valid entry owns its frame, and that no other frame has an owner: that there
are as many valid entries as resident frames. -/
def audit {σ : Type} (t : PageTable) : Op σ MemoryError Unit := do
  t.auditOwners t.entries.toList
  if t.validCount ≠ t.resident.size then
    Op.notify (.reverseMapDiverges t.validCount t.resident.size)
    throw .invariantViolation

end PageTable

end VirtualMemory
