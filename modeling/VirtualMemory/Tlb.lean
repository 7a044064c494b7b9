import VirtualMemory.Entry

/-!
# The address cache

A fixed number of slots, each holding an entry tagged with its process. Invalidating a slot
clears its valid flag alone, and hands the entry back, so that what the hardware saw of the
page is not lost. `sweep` invalidates a set of slots in one pass over them.
-/

namespace VirtualMemory

structure TlbSlot where
  asid : Pid
  entry : Entry
  deriving DecidableEq

namespace TlbSlot

def vacant : TlbSlot := ⟨0, .invalid⟩

def valid (s : TlbSlot) : Bool := s.entry.valid

def translates (s : TlbSlot) (asid : Pid) (vpn : Vpn) : Bool :=
  s.valid && s.asid == asid && s.entry.vpn == vpn

def invalidate (s : TlbSlot) : TlbSlot := { s with entry := s.entry.invalidate }

end TlbSlot

structure TlbCounters where
  refills : Nat := 0
  invalidations : Nat := 0
  misses : Nat := 0
  contextFlushes : Nat := 0
  deriving DecidableEq

structure Tlb where
  slots : List TlbSlot
  counters : TlbCounters := {}
  deriving DecidableEq

namespace Tlb

def empty (size : Nat) : Tlb := { slots := List.replicate size .vacant }

def size (t : Tlb) : Nat := t.slots.length

def read (t : Tlb) (index : Nat) : Option TlbSlot := t.slots[index]?

def countRefill (t : Tlb) : Tlb :=
  { t with counters.refills := t.counters.refills + 1 }

def countInvalidations (t : Tlb) (n : Nat) : Tlb :=
  { t with counters.invalidations := t.counters.invalidations + n }

def countMiss (t : Tlb) : Tlb :=
  { t with counters.misses := t.counters.misses + 1 }

def countContextFlush (t : Tlb) : Tlb :=
  { t with counters.contextFlushes := t.counters.contextFlushes + 1 }

/-- Fills a slot and answers what it held; there may be no such slot. -/
def write (t : Tlb) (index : Nat) (asid : Pid) (entry : Entry) : Option TlbSlot × Tlb :=
  match t.slots[index]? with
  | some old => (some old, { t with slots := t.slots.set index ⟨asid, entry⟩ }.countRefill)
  | none => (none, t)

/-- Invalidates a valid slot and answers what it held. -/
def invalidate (t : Tlb) (index : Nat) : Option TlbSlot × Tlb :=
  match t.slots[index]? with
  | some old =>
    if old.valid then
      (some old, { t with slots := t.slots.set index old.invalidate }.countInvalidations 1)
    else (none, t)
  | none => (none, t)

def find (t : Tlb) (asid : Pid) (vpn : Vpn) : Option Nat :=
  t.slots.findIdx? (·.translates asid vpn)

def lookup (t : Tlb) (asid : Pid) (vpn : Vpn) : Option Entry :=
  (t.slots.find? (·.translates asid vpn)).map (·.entry)

def freeSlot (t : Tlb) : Option Nat := t.slots.findIdx? (!·.valid)

def modifyFirst (p : TlbSlot → Bool) (f : Entry → Entry) : List TlbSlot → List TlbSlot
  | [] => []
  | s :: rest => if p s then { s with entry := f s.entry } :: rest else s :: modifyFirst p f rest

/-- Records an access to a page in the slot that translates it. -/
def touch (t : Tlb) (asid : Pid) (vpn : Vpn) (access : Access) : Tlb :=
  { t with slots := modifyFirst (·.translates asid vpn) (·.touched access) t.slots }

/-- Invalidates the valid slots that satisfy `p`; the entries they held, in slot order, and the
slots after it. -/
def sweep (p : TlbSlot → Bool) : List TlbSlot → List Entry × List TlbSlot
  | [] => ([], [])
  | s :: rest =>
    let (entries, slots) := sweep p rest
    if s.valid && p s then (s.entry :: entries, s.invalidate :: slots) else (entries, s :: slots)

/-- Invalidates the valid slots that satisfy `p` and answers the entries they held. -/
def invalidateWhere (t : Tlb) (p : TlbSlot → Bool) : List Entry × Tlb :=
  let (entries, slots) := sweep p t.slots
  (entries, { t with slots := slots }.countInvalidations entries.length)

/-- The first entry, with the hardware flags of all of them. -/
def mergeEntries : List Entry → Option Entry
  | [] => none
  | e :: rest => some (rest.foldl Entry.absorb e)

/-- Invalidates every slot that translates the page, and answers what they knew together. -/
def invalidatePage (t : Tlb) (asid : Pid) (vpn : Vpn) : Option Entry × Tlb :=
  let (entries, t) := t.invalidateWhere (·.translates asid vpn)
  (mergeEntries entries, t)

/-- Invalidates every slot of a process and answers the entries they held, in slot order. -/
def invalidateAsid (t : Tlb) (asid : Pid) : List Entry × Tlb :=
  t.invalidateWhere (·.asid == asid)

def validSlots (t : Tlb) : List (Nat × TlbSlot) :=
  (t.slots.zipIdx.filter (·.1.valid)).map fun (s, i) => (i, s)

end Tlb

end VirtualMemory
