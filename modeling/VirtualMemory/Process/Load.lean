import VirtualMemory.Config
import VirtualMemory.Process.Copy

/-!
# Loading a program

The pages of the image come first, then the stack, then one page of arguments: a table of 32-bit
pointers, low byte first, followed by the texts, each with a NUL at its end. The stack begins at
the top, where the argument page starts.
-/

namespace VirtualMemory

/-- Bytes of a pointer in the argument table. -/
def argumentPointerSize : Nat := 4

def textBytes (s : String) : Bytes := s.toUTF8.toList

/-- The bytes that arguments take: a pointer, the text and its NUL for each. -/
def argumentsSize (args : List Bytes) : Nat :=
  args.foldl (fun size arg => size + (argumentPointerSize + arg.length + 1)) 0

/-- The bytes of a word, low byte first. -/
def littleEndian (w : UInt32) : Bytes :=
  [w.toUInt8, (w >>> 8).toUInt8, (w >>> 16).toUInt8, (w >>> 24).toUInt8]

namespace Hosted

variable {σ : Type} [Mmu σ]

/-- Writes all of `data`, or fails with what ended the copy. -/
def writeAll (vaddr : VirtAddr) (data : Bytes) : Op (Hosted σ) MemoryError Unit := do
  let copied ← Op.total (copyIn vaddr data)
  if copied.moved ≠ data.length then
    throw ((copied.fault.bind FaultResult.toError?).getD .invalidAddress)

/-- Writes the arguments, the next pointer going to `pointer` and the next text to `text`. -/
def writeArguments (pointer text : UInt32) : List Bytes → Op (Hosted σ) MemoryError Unit
  | [] => return
  | arg :: rest => do
    writeAll ⟨pointer⟩ (littleEndian text)
    writeAll ⟨text⟩ arg
    writeAll ⟨text + arg.length.toUInt32⟩ [0]
    writeArguments (pointer + argumentPointerSize.toUInt32) (text + arg.length.toUInt32 + 1) rest

end Hosted

namespace Loader

variable {σ : Type} [Mmu σ]

/-- The pages of a program with its stack and arguments, if they can be counted and fit the
address space. Pages without bytes always fit, so the count has its own limit. -/
def layoutPages (imagePages stackPages pageSize : Nat) : Option Nat :=
  let numPages := imagePages + stackPages + 1
  if numPages < pageCountLimit && fitsAddressSpace numPages pageSize then some numPages else none

/-- Decides on the space of a program, or reports what does not fit. -/
def plan (image : Image) (args : List Bytes) (stackPages pageSize : Nat) :
    Op σ MemoryError Layout := do
  let index ← ImageIndex.ofImage image
  if argumentsSize args > pageSize then
    Op.notify (.argumentsTooLarge (argumentsSize args))
    throw .invalidImage
  let some numPages := layoutPages index.numPages stackPages pageSize
    | Op.notify (.addressSpaceTooLarge stackPages)
      throw .invalidImage
  return ⟨numPages, index⟩

/-- The process of a layout, with its stack at the end of the pages before the last. -/
def newProcess (number : Nat) (name : String) (layout : Layout) (argc pageSize : Nat) : Process :=
  let initialSp : VirtAddr := ⟨((layout.numPages - 1) * pageSize).toUInt32⟩
  { number := number
    name := name
    pageSize := pageSize
    numPages := layout.numPages
    initialSp := initialSp
    entryPoint := layout.index.entryPoint
    argc := argc
    argv := initialSp }

/-- Writes the arguments of a process whose space is there. If they cannot be written, the process
is terminated again. -/
def enter (process : Process) (args : List Bytes) : Op σ MemoryError Process := do
  let texts := process.initialSp.value + (args.length * argumentPointerSize).toUInt32
  let (written, hosted) ← Op.apart (⟨process, ← get⟩ : Hosted σ)
    (Op.attempt (Hosted.writeArguments process.initialSp.value texts args))
  match written with
  | .ok _ =>
    set hosted.machine
    Op.notify (.processLoaded process.pid process.numPages)
    return process
  | .error e =>
    let (_, hosted) ← Op.apart hosted (Op.total (Hosted.exit (-1)))
    set hosted.machine
    throw e

def load (number : Nat) (name : String) (image : Image) (args : List String) (stackPages : Nat) :
    Op σ MemoryError Process := do
  let pageSize := Mmu.pageSize (← get)
  let args := args.map textBytes
  let layout ← plan image args stackPages pageSize
  Mmu.load number layout
  enter (newProcess number name layout args.length pageSize) args

end Loader

end VirtualMemory
