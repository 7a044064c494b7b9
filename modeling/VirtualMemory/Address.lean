/-!
# Addresses

Virtual and physical addresses are 32-bit words. A page size splits a word into a page number
(the quotient) and an offset (the low bits). Products and sums of page numbers wrap at 32 bits;
`fitsAddressSpace` is the condition under which they do not.
-/

namespace VirtualMemory

/-- Process identifier, also the tag of its cached pages. -/
abbrev Pid := UInt32

abbrev Vpn := UInt32

/-- Physical page number: the index of a frame. -/
abbrev Ppn := UInt32

def addressSpaceSize : Nat := 1 <<< 32

/-- A count of pages is a 64-bit word: less than this. -/
def pageCountLimit : Nat := 1 <<< 64

/-- `pages` pages of `pageSize` bytes lie inside the 32-bit address space. -/
def fitsAddressSpace (pages pageSize : Nat) : Bool := pages * pageSize ≤ addressSpaceSize

/-- `value` with the bits of `alignment - 1` cleared: for a power of two, the largest multiple
below or at `value`. -/
def alignDown (value alignment : Nat) : Nat := value - (value &&& (alignment - 1))

def hexText (n : Nat) : String := "0x" ++ String.ofList (Nat.toDigits 16 n)

structure VirtAddr where
  value : UInt32
  deriving DecidableEq

namespace VirtAddr

def ofPage (vpn : Vpn) (offset pageSize : Nat) : VirtAddr :=
  ⟨vpn * pageSize.toUInt32 + offset.toUInt32⟩

/-- The page of the address. The divisor must not be zero: where pages of any size are possible,
`Op.checkDivisor` comes first. -/
def vpn (a : VirtAddr) (pageSize : Nat) : Vpn := a.value / pageSize.toUInt32

def offset (a : VirtAddr) (pageSize : Nat) : Nat := a.value.toNat &&& (pageSize - 1)

def base (a : VirtAddr) (pageSize : Nat) : VirtAddr :=
  ⟨(alignDown a.value.toNat pageSize).toUInt32⟩

/-- The address `n` bytes further, if it is still a 32-bit address. -/
def add? (a : VirtAddr) (n : Nat) : Option VirtAddr :=
  if a.value.toNat + n < addressSpaceSize then some ⟨a.value + n.toUInt32⟩ else none

def hex (a : VirtAddr) : String := hexText a.value.toNat

def describe (a : VirtAddr) : String := "VirtAddr(" ++ a.hex ++ ")"

end VirtAddr

structure PhysAddr where
  value : UInt32
  deriving DecidableEq

namespace PhysAddr

/-- The address `offset` bytes into frame `ppn`. -/
def ofPage (ppn : Ppn) (offset pageSize : Nat) : PhysAddr :=
  ⟨ppn * pageSize.toUInt32 + offset.toUInt32⟩

/-- The frame of the address, with the same divisor as the page of a virtual one. -/
def ppn (a : PhysAddr) (pageSize : Nat) : Ppn := a.value / pageSize.toUInt32

def hex (a : PhysAddr) : String := hexText a.value.toNat

def describe (a : PhysAddr) : String := "PhysAddr(" ++ a.hex ++ ")"

end PhysAddr

structure PageKey where
  pid : Pid
  vpn : Vpn
  deriving DecidableEq

/-- Pages are ordered by process, then by page number. -/
def PageKey.order (a b : PageKey) : Ordering :=
  (compare a.pid b.pid).then (compare a.vpn b.vpn)

end VirtualMemory
