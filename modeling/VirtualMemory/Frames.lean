import VirtualMemory.Op

/-!
# The frame allocator

Free frames wait in a queue: the frame that has been free longest is handed out next, and a frame
that comes back joins at the end. The contents of a frame stay as they are.

The queue is filled by counting the frames in a 32-bit word. Of 2³² frames, as many as an address
can name, the count is zero: the queue starts empty, although no frame is marked as allocated.
-/

namespace VirtualMemory

/-- A mark for each frame. Those at the end that were never set take no room. -/
structure FrameMarks where
  size : Nat
  cells : Array Bool
  deriving DecidableEq

namespace FrameMarks

def unset (size : Nat) : FrameMarks := ⟨size, #[]⟩

instance : GetElem? FrameMarks Nat Bool fun marks i => i < marks.size where
  getElem marks i _ := marks.cells.getD i false
  getElem? marks i := if i < marks.size then some (marks.cells.getD i false) else none

/-- The marks with that of frame `i` set or taken away. -/
def set (marks : FrameMarks) (i : Nat) (allocated : Bool) : FrameMarks :=
  let room := marks.cells ++ Array.replicate (i + 1 - marks.cells.size) false
  { marks with cells := room.setIfInBounds i allocated }

variable (marks : FrameMarks) (i : Nat)

theorem getElem?_eq :
    marks[i]? = if i < marks.size then some (marks.cells.getD i false) else none := rfl

variable {marks i} in
theorem getElem?_eq_some_iff {allocated : Bool} :
    marks[i]? = some allocated ↔ i < marks.size ∧ marks.cells.getD i false = allocated := by
  simp [getElem?_eq]

variable {marks i} in
theorem getElem?_eq_none_iff : marks[i]? = none ↔ marks.size ≤ i := by
  simp [getElem?_eq]

theorem getElem?_unset (size : Nat) :
    (unset size)[i]? = if i < size then some false else none := rfl

theorem getElem?_set (allocated : Bool) (j : Nat) :
    (marks.set i allocated)[j]? = if i = j ∧ j < marks.size then some allocated else marks[j]? := by
  simp only [getElem?_eq, set, Array.getD_eq_getD_getElem?, Array.getElem?_setIfInBounds,
    Array.size_append, Array.size_replicate]
  by_cases hij : i = j
  · subst hij
    have hroom : i < marks.cells.size + (i + 1 - marks.cells.size) := by omega
    by_cases hi : i < marks.size <;> simp [hi, hroom]
  · simp only [hij, if_false, false_and, Array.getElem?_append]
    by_cases hj : j < marks.cells.size
    · simp [hj]
    · simp only [hj, if_false, Array.getElem?_replicate,
        Array.getElem?_eq_none (Nat.le_of_not_lt hj)]
      split
      · split <;> rfl
      · rfl

end FrameMarks

structure Frames where
  /-- The free frames, next one first. -/
  free : List Ppn
  /-- By frame. -/
  allocated : FrameMarks
  used : Nat := 0
  /-- Requests that found no free frame. -/
  failed : Nat := 0
  deriving DecidableEq

namespace Frames

/-- `total` frames, none of them allocated. Those that a word counts are in the queue. -/
def ofTotal (total : Nat) : Frames :=
  { free := (List.range total.toUInt32.toNat).map Nat.toUInt32, allocated := .unset total }

def total (f : Frames) : Nat := f.allocated.size

def freeCount (f : Frames) : Nat := f.free.length

def isFree (f : Frames) (ppn : Ppn) : Bool := f.allocated[ppn.toNat]? == some false

/-- Takes the frame that has been free longest. -/
def acquire (f : Frames) : Option Ppn × Frames :=
  match f.free with
  | ppn :: rest =>
    (some ppn, { f with
      free := rest
      allocated := f.allocated.set ppn.toNat true
      used := f.used + 1 })
  | [] => (none, { f with failed := f.failed + 1 })

def release (ppn : Ppn) : Op Frames MemoryError Unit := do
  let f ← get
  match f.allocated[ppn.toNat]? with
  | none => throw .outOfBounds
  | some false =>
    Op.notify (.frameReleasedTwice ppn)
    throw .doubleFree
  | some true =>
    set { f with
      free := f.free ++ [ppn]
      allocated := f.allocated.set ppn.toNat false
      used := f.used - 1 }

end Frames

end VirtualMemory
