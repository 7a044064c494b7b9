import VirtualMemory.Bytes
import VirtualMemory.Error

/-!
# Backing files

A flat file with positional reads and writes. Reading stops at the end of the file; writing past
the end fills the gap with zeros. A file lives in memory, on the host, or in memory with faults
that its environment sets.
-/

namespace VirtualMemory

/-- Writes nonempty data, growing the store as far as needed. -/
def ByteStore.overwrite (s : ByteStore) (start : Nat) (data : Bytes) : ByteStore :=
  if data.isEmpty then s else (s.extend (start + data.length)).poke start data

structure MemoryFile where
  contents : ByteStore := .empty
  closed : Bool := false
  deriving DecidableEq

namespace MemoryFile

def size (f : MemoryFile) : Nat := f.contents.size

def readAt (f : MemoryFile) (offset length : Nat) : Except FileError Bytes :=
  if f.closed then .error .closed else .ok (f.contents.read offset length)

/-- Writes all of `data`. An empty write past the end grows the file too. -/
def writeAt (f : MemoryFile) (offset : Nat) (data : Bytes) : Except FileError Nat × MemoryFile :=
  if f.closed then (.error .closed, f)
  else
    (.ok data.length,
      { f with contents := (f.contents.extend (offset + data.length)).poke offset data })

def close (f : MemoryFile) : MemoryFile := { f with closed := true }

/-- Closes the file and forgets its contents. -/
def remove (_f : MemoryFile) : MemoryFile := { contents := .empty, closed := true }

end MemoryFile

/-- What a path of the host leads to before a file is created there. -/
inductive HostPath
  /-- Nothing, or a file, which is cut to nothing. -/
  | writable
  | directory
  | parentMissing
  deriving DecidableEq, Repr

structure HostFile where
  contents : ByteStore := .empty
  closed : Bool := false
  /-- The path still leads to this file. -/
  linked : Bool := true
  deriving DecidableEq

namespace HostFile

/-- Offsets from here on are refused by the host. -/
def offsetLimit : Nat := 1 <<< 63

def create : HostPath → Except FileError HostFile
  | .writable => .ok {}
  | .directory => .error (.ofRefusal .other)
  | .parentMissing => .error (.ofRefusal .notFound)

def readAt (f : HostFile) (offset length : Nat) : Except FileError Bytes :=
  if f.closed then .error .closed
  else if offsetLimit ≤ offset then .error (.ofRefusal .other)
  else .ok (f.contents.read offset length)

/-- Writes all of `data`; an empty write changes nothing. -/
def writeAt (f : HostFile) (offset : Nat) (data : Bytes) : Except FileError Nat × HostFile :=
  if f.closed then (.error .closed, f)
  else if offsetLimit ≤ offset + data.length then (.error (.ofRefusal .other), f)
  else (.ok data.length, { f with contents := f.contents.overwrite offset data })

def close (f : HostFile) : HostFile := { f with closed := true }

/-- Closes the file and takes it off the disk; it may be gone already. -/
def remove (f : HostFile) : Except FileError Unit × HostFile :=
  if f.linked then (.ok (), { f with closed := true, linked := false })
  else (.error (.ofRefusal .notFound), { f with closed := true })

/-- Takes the file off the disk behind its back; answers whether it was there. -/
def unlink (f : HostFile) : Bool × HostFile := (f.linked, { f with linked := false })

def onDisk (f : HostFile) : Option Bytes := if f.linked then some f.contents.toBytes else none

end HostFile

/-- The operations of a file that are to fail, and how. -/
structure FileFaults where
  read : Option FileError := none
  write : Option FileError := none
  /-- What a failing write leaves in the range that it was to fill. -/
  torn : Bytes := []
  remove : Option FileError := none
  deriving DecidableEq

inductive BackingFile
  | memory (file : MemoryFile)
  | host (file : HostFile)
  | faulty (file : MemoryFile) (faults : FileFaults)
  deriving DecidableEq

namespace BackingFile

/-- Up to `length` bytes from `offset`, fewer at the end of the file. -/
def readAt : BackingFile → Nat → Nat → Except FileError Bytes
  | .memory f, offset, length => f.readAt offset length
  | .host f, offset, length => f.readAt offset length
  | .faulty f faults, offset, length =>
    match faults.read with
    | some e => .error e
    | none => f.readAt offset length

/-- Writes all of `data` at `offset` and answers its length. -/
def writeAt : BackingFile → Nat → Bytes → Except FileError Nat × BackingFile
  | .memory f, offset, data => let (r, f) := f.writeAt offset data; (r, .memory f)
  | .host f, offset, data => let (r, f) := f.writeAt offset data; (r, .host f)
  | .faulty f faults, offset, data =>
    match faults.write with
    | some e =>
      let torn := faults.torn.take data.length
      (.error e, .faulty { f with contents := f.contents.overwrite offset torn } faults)
    | none => let (r, f) := f.writeAt offset data; (r, .faulty f faults)

def close : BackingFile → BackingFile
  | .memory f => .memory f.close
  | .host f => .host f.close
  | .faulty f faults => .faulty f.close faults

def remove : BackingFile → Except FileError Unit × BackingFile
  | .memory f => (.ok (), .memory f.remove)
  | .host f => let (r, f) := f.remove; (r, .host f)
  | .faulty f faults =>
    match faults.remove with
    | some e => (.error e, .faulty f faults)
    | none => (.ok (), .faulty f.remove faults)

/-- Takes a host file off the disk behind its back; answers whether it was there. -/
def unlink : BackingFile → Bool × BackingFile
  | .host f => let (r, f) := f.unlink; (r, .host f)
  | f => (false, f)

def onDisk : BackingFile → Option Bytes
  | .host f => f.onDisk
  | _ => none

def setFaults (faults : FileFaults) : BackingFile → BackingFile
  | .faulty f _ => .faulty f faults
  | f => f

end BackingFile

end VirtualMemory
