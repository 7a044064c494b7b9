import VirtualMemory.Address
import VirtualMemory.Error

/-!
# Page table entries

An entry maps a virtual page to a frame. Its flags say whether it is valid and read-only, and
whether the hardware saw the page used or written. The last two only ever accumulate: `absorb`
joins what a cached copy has seen to what is known already.
-/

namespace VirtualMemory

structure Flags where
  valid : Bool := false
  readOnly : Bool := false
  used : Bool := false
  dirty : Bool := false
  deriving DecidableEq

namespace Flags

/-- The flags as a number: valid 1, read-only 2, used 4, dirty 8. -/
def toNat (f : Flags) : Nat :=
  f.valid.toNat + 2 * f.readOnly.toNat + 4 * f.used.toNat + 8 * f.dirty.toNat

def ofNat (n : Nat) : Flags := ⟨n.testBit 0, n.testBit 1, n.testBit 2, n.testBit 3⟩

theorem ofNat_toNat (f : Flags) : ofNat f.toNat = f := by
  obtain ⟨a, b, c, d⟩ := f
  cases a <;> cases b <;> cases c <;> cases d <;> rfl

def hardware (f : Flags) : Flags := { used := f.used, dirty := f.dirty }

def absorb (f other : Flags) : Flags :=
  { f with used := f.used || other.used, dirty := f.dirty || other.dirty }

end Flags

structure Entry where
  vpn : Vpn
  ppn : Ppn
  flags : Flags
  deriving DecidableEq

namespace Entry

def invalid : Entry := ⟨0, 0, {}⟩

def valid (e : Entry) : Bool := e.flags.valid
def readOnly (e : Entry) : Bool := e.flags.readOnly
def used (e : Entry) : Bool := e.flags.used
def dirty (e : Entry) : Bool := e.flags.dirty

def setUsed (e : Entry) : Entry := { e with flags.used := true }
def setDirty (e : Entry) : Entry := { e with flags.dirty := true }
def invalidate (e : Entry) : Entry := { e with flags.valid := false }

/-- The entry after an access: used, and dirty after a write. -/
def touched (e : Entry) : Access → Entry
  | .read => e.setUsed
  | .write => e.setUsed.setDirty

/-- The entry, with the hardware flags of `other` added. -/
def absorb (e other : Entry) : Entry := { e with flags := e.flags.absorb other.flags }

end Entry

end VirtualMemory
