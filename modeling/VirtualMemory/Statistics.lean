import VirtualMemory.Notice

/-!
# Paging statistics

Counters of what the pager did, and a snapshot of them with the frames in use.
-/

namespace VirtualMemory

structure Statistics where
  tlbMisses : Nat := 0
  pageFaults : Nat := 0
  imageLoads : Nat := 0
  swapIns : Nat := 0
  swapOuts : Nat := 0
  zeroFills : Nat := 0
  evictions : Nat := 0
  contextSaves : Nat := 0
  deriving DecidableEq

inductive Counter
  | tlbMisses
  | pageFaults
  | imageLoads
  | swapIns
  | swapOuts
  | zeroFills
  | evictions
  | contextSaves
  deriving DecidableEq, Repr

namespace Counter

def name : Counter → String
  | tlbMisses => "tlb_misses"
  | pageFaults => "page_faults"
  | imageLoads => "image_loads"
  | swapIns => "swap_ins"
  | swapOuts => "swap_outs"
  | zeroFills => "zero_fills"
  | evictions => "evictions"
  | contextSaves => "context_saves"

def all : List Counter :=
  [ tlbMisses, pageFaults, imageLoads, swapIns, swapOuts, zeroFills, evictions, contextSaves ]

def ofName? (name : String) : Option Counter := all.find? (·.name == name)

theorem ofName?_name (c : Counter) : ofName? c.name = some c := by cases c <;> rfl

end Counter

namespace Statistics

def get (s : Statistics) : Counter → Nat
  | .tlbMisses => s.tlbMisses
  | .pageFaults => s.pageFaults
  | .imageLoads => s.imageLoads
  | .swapIns => s.swapIns
  | .swapOuts => s.swapOuts
  | .zeroFills => s.zeroFills
  | .evictions => s.evictions
  | .contextSaves => s.contextSaves

def add (s : Statistics) (n : Nat) : Counter → Statistics
  | .tlbMisses => { s with tlbMisses := s.tlbMisses + n }
  | .pageFaults => { s with pageFaults := s.pageFaults + n }
  | .imageLoads => { s with imageLoads := s.imageLoads + n }
  | .swapIns => { s with swapIns := s.swapIns + n }
  | .swapOuts => { s with swapOuts := s.swapOuts + n }
  | .zeroFills => { s with zeroFills := s.zeroFills + n }
  | .evictions => { s with evictions := s.evictions + n }
  | .contextSaves => { s with contextSaves := s.contextSaves + n }

/-- Each counter is counted by itself. -/
theorem get_add (s : Statistics) (n : Nat) (c d : Counter) :
    (s.add n c).get d = if d = c then s.get d + n else s.get d := by
  cases c <;> cases d <;> rfl

end Statistics

/-- The counters with the frames in use and free at one moment. -/
structure Snapshot where
  counts : Statistics
  resident : Nat
  free : Nat
  deriving DecidableEq

namespace Snapshot

/-- The share of frames in use, in percent, rounded down; zero if there is no frame. -/
def usage (s : Snapshot) : Nat :=
  if s.resident + s.free = 0 then 0 else s.resident * 100 / (s.resident + s.free)

def report (s : Snapshot) : List Notice :=
  [ .report .info "(STATS) tlb_misses=" [s.counts.tlbMisses],
    .report .info "(STATS) page_faults=" [s.counts.pageFaults],
    .report .info "(STATS) image_loads=" [s.counts.imageLoads],
    .report .info "(STATS) swap_ins/swap_outs=" [s.counts.swapIns, s.counts.swapOuts],
    .report .info "(STATS) zero_fills=" [s.counts.zeroFills],
    .report .info "(STATS) evictions=" [s.counts.evictions],
    .report .info "(STATS) context_saves=" [s.counts.contextSaves],
    .report .info "(STATS) resident/free=" [s.resident, s.free],
    .report .info "(STATS) uso %=" [s.usage] ]

end Snapshot

end VirtualMemory
