import VirtualMemory.Pager.Basic
import VirtualMemory.Proofs.AddressArithmetic
import VirtualMemory.Proofs.Cache
import VirtualMemory.Proofs.FrameQueue
import VirtualMemory.Proofs.Ownership
import VirtualMemory.Proofs.SwapTransfers

/-!
# The invariant of the pager

`WellFormed held` holds between the steps of an operation, and with no frame held between any two
operations. Frames are free, owned by a page, or held by a fault on its way in; entries stay inside
their space; what the cache holds of a page extends what the table knows of it; and a page is
pending exactly while its image has it and swap has not. Closing the swap breaks that last tie, and
with it the one between sections and read-only pages; the rest holds on.
-/

namespace VirtualMemory.Pager

variable {p p' : Pager} {key : PageKey} {held : Option Ppn}

/-! ## What a space says of a page -/

def extent (p : Pager) (pid : Pid) : Option (Nat × Option ImageIndex) :=
  (p.spaces.get? pid).map fun space => (space.numPages, space.image)

/-- Where the first contents of a page come from, if they come from an image. -/
def origin? (p : Pager) (key : PageKey) : Option ImagePage :=
  ((p.spaces.get? key.pid).bind (·.image)).bind (·.locate key.vpn)

def isReadOnly (p : Pager) (key : PageKey) : Bool := (p.origin? key).any (·.readOnly)

theorem inBounds_eq (p : Pager) (pid : Pid) (vpn : Vpn) :
    p.inBounds pid vpn = (p.extent pid).any fun e => vpn.toNat < e.1 := by
  rw [inBounds, extent]
  cases p.spaces.get? pid <;> rfl

theorem origin?_eq (p : Pager) (key : PageKey) :
    p.origin? key = ((p.extent key.pid).bind (·.2)).bind (·.locate key.vpn) := by
  rw [origin?, extent]
  cases p.spaces.get? key.pid <;> rfl

/-- A page is checked against the extent of its space only. -/
theorem inBounds_congr {pid : Pid} (h : p'.extent pid = p.extent pid) (vpn : Vpn) :
    p'.inBounds pid vpn = p.inBounds pid vpn := by
  rw [inBounds_eq, inBounds_eq, h]

theorem origin?_congr (h : p'.extent key.pid = p.extent key.pid) :
    p'.origin? key = p.origin? key := by
  rw [origin?_eq, origin?_eq, h]

theorem isReadOnly_congr (h : p'.extent key.pid = p.extent key.pid) :
    p'.isReadOnly key = p.isReadOnly key := by
  rw [isReadOnly, isReadOnly, origin?_congr h]

/-! ## The invariant -/

structure Sized (p : Pager) : Prop where
  geometry : Geometry p.frames.total p.pageSize
  pages : p.memory.pages = p.frames.total
  memory : p.memory.pageSize = p.pageSize
  store : p.memory.store.size = p.frames.total * p.pageSize
  residences : p.table.resident.residences.size = p.frames.total
  processor : p.processor.pageSize = p.pageSize
  swap : p.swap.pageSize = p.pageSize
  slots : 0 < p.tlb.size

/-- The entry of a page, as its space wants it. -/
structure Fits (p : Pager) (key : PageKey) (e : Entry) : Prop where
  valid : e.valid = true
  vpn : e.vpn = key.vpn
  bounds : p.inBounds key.pid key.vpn = true
  readOnly : p.swap.isOpen = true → e.readOnly = p.isReadOnly key
  clean : e.readOnly = true → e.dirty = false

/-- An entry fits as long as its page is in bounds, and as writable and as tracked as before. -/
theorem Fits.of_eq {e : Entry} (h : p.Fits key e)
    (hbounds : p'.inBounds key.pid key.vpn = p.inBounds key.pid key.vpn)
    (hro : p'.isReadOnly key = p.isReadOnly key)
    (hopen : p'.swap.isOpen = true → p.swap.isOpen = true) : p'.Fits key e where
  valid := h.valid
  vpn := h.vpn
  bounds := hbounds.trans h.bounds
  readOnly := fun ho => (h.readOnly (hopen ho)).trans hro.symm
  clean := h.clean

theorem Fits.congr {e : Entry} (h : p.Fits key e) (hext : p'.extent key.pid = p.extent key.pid)
    (hopen : p'.swap.isOpen = true → p.swap.isOpen = true) : p'.Fits key e :=
  h.of_eq (inBounds_congr hext key.vpn) (isReadOnly_congr hext) hopen

structure WellFormed (held : Option Ppn) (p : Pager) : Prop where
  sized : p.Sized
  table : p.table.WellFormed
  frames : p.frames.WellFormed
  swap : p.swap.WellFormed
  distinct : p.tlb.Distinct
  free_iff : ∀ ppn, ppn.toNat < p.frames.total →
    (p.frames.isFree ppn = true ↔ p.table.owner? ppn = none ∧ held ≠ some ppn)
  held_apart : ∀ ppn, held = some ppn → ppn.toNat < p.frames.total ∧ p.table.owner? ppn = none
  entries : ∀ key e, p.table.lookup key = some e → p.Fits key e
  cached : ∀ key e, p.tlb.cached key = some e →
    p.Fits key e ∧ ∃ known, p.table.lookup key = some known ∧ e.Extends known
  slotted : ∀ key i, p.swap.slot? key = some i → p.inBounds key.pid key.vpn = true ∧
    (p.swap.isOpen = true → p.isReadOnly key = false)
  pending : ∀ key, p.swap.isPending key = true → (p.origin? key).isSome = true
  unpended : p.swap.isOpen = true → ∀ key, (p.origin? key).isSome = true →
    p.swap.slot? key = none → p.swap.isPending key = true

namespace WellFormed

theorem lookupValid (h : p.WellFormed held) (key : PageKey) :
    p.table.lookupValid key = p.table.lookup key := by
  cases he : p.table.lookup key with
  | none => simp [PageTable.lookupValid, he]
  | some e => exact PageTable.lookupValid_eq_some_iff.mpr ⟨he, (h.entries key e he).valid⟩

/-- Table and reverse map say the same of a page in a frame. -/
theorem owner (h : p.WellFormed held) {e : Entry} (he : p.table.lookup key = some e) :
    p.table.owner? e.ppn = some key :=
  h.table.owner he (h.entries key e he).valid

theorem ppn_lt (h : p.WellFormed held) {e : Entry} (he : p.table.lookup key = some e) :
    e.ppn.toNat < p.frames.total := by
  rw [← h.sized.residences]
  exact ResidentIndex.lt_of_owner? (h.owner he)

/-- While the swap is open, the pages of the image that have no slot yet are the marked ones. -/
theorem pending_iff (h : p.WellFormed held) (hopen : p.swap.isOpen = true) (key : PageKey) :
    p.swap.isPending key = true ↔ (p.origin? key).isSome = true ∧ p.swap.slot? key = none := by
  constructor
  · intro hp
    exact ⟨h.pending key hp, h.swap.pending_slotless key hp⟩
  · rintro ⟨horigin, hslot⟩
    exact h.unpended hopen key horigin hslot

/-- What is not in the table is not cached. -/
theorem cached_none (h : p.WellFormed held) (hnone : p.table.lookup key = none) :
    p.tlb.cached key = none := by
  cases hc : p.tlb.cached key with
  | none => rfl
  | some e =>
    obtain ⟨-, known, hk, -⟩ := h.cached key e hc
    rw [hnone] at hk
    cases hk

end WellFormed

/-! ## Changes that the invariant does not see -/

/-- `p'` differs from `p` in counters, draws and entries kept aside at most. -/
structure Same (p p' : Pager) : Prop where
  pageSize : p'.pageSize = p.pageSize
  table : p'.table = p.table
  frames : p'.frames = p.frames
  swap : p'.swap = p.swap
  memory : p'.memory = p.memory
  processor : p'.processor.pageSize = p.processor.pageSize
  slots : p'.tlb.slots = p.tlb.slots
  extent : ∀ pid, p'.extent pid = p.extent pid

theorem Same.cached (h : Same p p') (key : PageKey) : p'.tlb.cached key = p.tlb.cached key := by
  rw [Tlb.cached, Tlb.cached, Tlb.lookup, Tlb.lookup, h.slots]

/-- The invariant does not speak of contents, counters or draws. -/
theorem WellFormed.same (h : p.WellFormed held) (hs : Same p p') : p'.WellFormed held where
  sized := by
    have hz := h.sized
    constructor
    · rw [hs.frames, hs.pageSize]
      exact hz.geometry
    · rw [hs.memory, hs.frames]
      exact hz.pages
    · rw [hs.memory, hs.pageSize]
      exact hz.memory
    · rw [hs.memory, hs.frames, hs.pageSize]
      exact hz.store
    · rw [hs.table, hs.frames]
      exact hz.residences
    · rw [hs.processor, hs.pageSize]
      exact hz.processor
    · rw [hs.swap, hs.pageSize]
      exact hz.swap
    · rw [Tlb.size, hs.slots]
      exact hz.slots
  table := hs.table ▸ h.table
  frames := hs.frames ▸ h.frames
  swap := hs.swap ▸ h.swap
  distinct := by
    rw [Tlb.Distinct, hs.slots]
    exact h.distinct
  free_iff := by
    rw [hs.frames, hs.table]
    exact h.free_iff
  held_apart := by
    rw [hs.frames, hs.table]
    exact h.held_apart
  entries := by
    intro key e he
    rw [hs.table] at he
    exact (h.entries key e he).congr (hs.extent key.pid) (hs.swap ▸ id)
  cached := by
    intro key e he
    rw [hs.cached] at he
    obtain ⟨hfits, hknown⟩ := h.cached key e he
    exact ⟨hfits.congr (hs.extent key.pid) (hs.swap ▸ id), hs.table ▸ hknown⟩
  slotted := by
    intro key i hi
    rw [hs.swap] at hi
    rw [inBounds_congr (hs.extent key.pid), isReadOnly_congr (hs.extent key.pid), hs.swap]
    exact h.slotted key i hi
  pending := by
    intro key
    rw [hs.swap, origin?_congr (hs.extent key.pid)]
    exact h.pending key
  unpended := by
    intro hopen key
    rw [hs.swap] at hopen ⊢
    rw [origin?_congr (hs.extent key.pid)]
    exact h.unpended hopen key

end VirtualMemory.Pager
