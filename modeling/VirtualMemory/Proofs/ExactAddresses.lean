import VirtualMemory.Proofs.FlatSpace
import VirtualMemory.Proofs.Loading

/-!
# Addresses are exact

Words wrap, but the addresses of an accepted configuration do not: while the page size is a word, no
cast, product or sum loses a bit, also where the memory ends with the address space. Page number and
offset are then the two halves of an address, whether they are found by division or by masks, and
the pages of a program that may be loaded start below `2 ^ 32`, its stack pointer included.

A single page of `2 ^ 32` bytes is accepted too. Its size wraps to zero, so it is left out here.
-/

namespace VirtualMemory

variable {σ : Type} {pages pageSize numPages page offset : Nat}

/-- Nothing wraps on the way to the address `offset` bytes into page `page`: size and offset are
words, and so are the product and the sum. -/
structure Unwrapped (page : UInt32) (offset pageSize : Nat) : Prop where
  size : pageSize.toUInt32.toNat = pageSize
  offset_eq : offset.toUInt32.toNat = offset
  product : page.toNat * pageSize.toUInt32.toNat < 0x100000000
  sum : page.toNat * pageSize.toUInt32.toNat + offset.toUInt32.toNat < 0x100000000

theorem unwrapped_of_lt {page : UInt32} (hsize : pageSize < 0x100000000) (ho : offset < pageSize)
    (hsum : page.toNat * pageSize + offset < 0x100000000) : Unwrapped page offset pageSize := by
  have hs : pageSize.toUInt32.toNat = pageSize := toNat_word hsize
  have ho' : offset.toUInt32.toNat = offset := toNat_word (by omega)
  refine ⟨hs, ho', ?_, ?_⟩
  · rw [hs]
    omega
  · rwa [hs, ho']

theorem Unwrapped.toNat_word {page : UInt32} (h : Unwrapped page offset pageSize) :
    (page * pageSize.toUInt32 + offset.toUInt32).toNat = page.toNat * pageSize + offset := by
  rw [UInt32.toNat_add, UInt32.toNat_mul, Nat.mod_eq_of_lt h.product, Nat.mod_eq_of_lt h.sum,
    h.size, h.offset_eq]

/-- Clearing the low bits is rounding down. -/
theorem alignDown_eq (hpower : pageSize.isPowerOfTwo) (value : Nat) :
    alignDown value pageSize = value / pageSize * pageSize := by
  obtain ⟨k, rfl⟩ := hpower
  have hsplit := Nat.div_add_mod' value (2 ^ k)
  rw [alignDown, Nat.and_two_pow_sub_one_eq_mod]
  omega

/-! ## Frames -/

/-- The address of a place in a frame does not wrap, lies in the memory, and knows its frame. -/
structure InFrame (pages pageSize : Nat) (ppn : Ppn) (offset : Nat) (a : PhysAddr) : Prop where
  unwrapped : Unwrapped ppn offset pageSize
  value : a.value.toNat = ppn.toNat * pageSize + offset
  inside : a.value.toNat < pages * pageSize
  frame : a.ppn pageSize = ppn

theorem Geometry.inFrame (h : Geometry pages pageSize) (hsize : pageSize < 0x100000000) {ppn : Ppn}
    (hlt : ppn.toNat < pages) (ho : offset < pageSize) :
    InFrame pages pageSize ppn offset (.ofPage ppn offset pageSize) := by
  have hend := block_le hlt pageSize
  have hfits := h.fits
  have hu : Unwrapped ppn offset pageSize := unwrapped_of_lt hsize ho (by omega)
  have hvalue := h.toNat_ofPage hlt ho
  refine ⟨hu, hvalue, by omega, ?_⟩
  rw [← UInt32.toNat_inj, PhysAddr.ppn, UInt32.toNat_div, hu.size, hvalue, block_div ho]

/-- An address in a frame is in no other frame, and at no other place in it. -/
theorem InFrame.unique {ppn q : Ppn} {offset' : Nat} {a : PhysAddr}
    (h : InFrame pages pageSize ppn offset a) (h' : InFrame pages pageSize q offset' a) :
    ppn = q ∧ offset = offset' := by
  have hframe : ppn = q := h.frame.symm.trans h'.frame
  have hvalue := h.value.symm.trans h'.value
  rw [hframe] at hvalue
  exact ⟨hframe, by omega⟩

/-! ## Virtual pages -/

/-- An address is put together again from its page number and offset, and its page is known by its
first address as well as by its number. -/
structure InPage (pageSize : Nat) (a : VirtAddr) : Prop where
  unwrapped : Unwrapped (a.vpn pageSize) (a.offset pageSize) pageSize
  restored : VirtAddr.ofPage (a.vpn pageSize) (a.offset pageSize) pageSize = a
  offset_lt : a.offset pageSize < pageSize
  base_eq : a.base pageSize = VirtAddr.ofPage (a.vpn pageSize) 0 pageSize

theorem Geometry.toNat_base (h : Geometry pages pageSize) (a : VirtAddr) :
    (a.base pageSize).value.toNat = (a.vpn pageSize).toNat * pageSize := by
  have hword := UInt32.toNat_lt a.value
  have hle := Nat.div_mul_le_self a.value.toNat pageSize
  rw [VirtAddr.base, alignDown_eq h.power, toNat_word (by omega), h.toNat_vpn]

theorem Geometry.inPage (h : Geometry pages pageSize) (hsize : pageSize < 0x100000000)
    (a : VirtAddr) : InPage pageSize a := by
  have hword := UInt32.toNat_lt a.value
  have hsplit := h.toNat_eq a
  have hu : Unwrapped (a.vpn pageSize) (a.offset pageSize) pageSize :=
    unwrapped_of_lt hsize (h.offset_lt a) (by omega)
  have hstart : Unwrapped (a.vpn pageSize) 0 pageSize := unwrapped_of_lt hsize h.pos (by omega)
  refine ⟨hu, VirtAddr.eq_of_toNat (hu.toNat_word.trans hsplit.symm), h.offset_lt a,
    VirtAddr.eq_of_toNat ?_⟩
  rw [h.toNat_base]
  exact hstart.toNat_word.symm

theorem Geometry.base_eq_iff (h : Geometry pages pageSize) (a b : VirtAddr) :
    a.base pageSize = b.base pageSize ↔ a.vpn pageSize = b.vpn pageSize := by
  constructor
  · intro heq
    have hvalue := congrArg (fun c : VirtAddr => c.value.toNat) heq
    simp only [h.toNat_base] at hvalue
    exact UInt32.toNat_inj.mp (Nat.eq_of_mul_eq_mul_right h.pos hvalue)
  · intro heq
    apply VirtAddr.eq_of_toNat
    rw [h.toNat_base, h.toNat_base, heq]

/-! ## Programs -/

/-- The pages of the process start at 32-bit addresses, and the stack pointer is where the last one
does. -/
structure Process.StartsFit (p : Process) : Prop where
  numPages_pos : 0 < p.numPages
  start_lt : ∀ vpn < p.numPages, vpn * p.pageSize < 0x100000000
  start : ∀ vpn < p.numPages,
    (VirtAddr.ofPage vpn.toUInt32 0 p.pageSize).value.toNat = vpn * p.pageSize
  initialSp : p.initialSp.value.toNat = (p.numPages - 1) * p.pageSize

/-- Each page starts before the last byte that pages may have, whatever their size. -/
theorem start_lt (hfits : numPages * pageSize ≤ 0x100000000) (hlt : page < numPages) :
    page * pageSize < 0x100000000 := by
  rcases Nat.eq_zero_or_pos pageSize with rfl | hpos
  · simp
  · have hend := block_le hlt pageSize
    omega

theorem toNat_start (h : page * pageSize < 0x100000000) :
    (VirtAddr.ofPage page.toUInt32 0 pageSize).value.toNat = page * pageSize := by
  simp only [VirtAddr.ofPage, Nat.toUInt32_eq, UInt32.toNat_add, UInt32.toNat_mul,
    UInt32.toNat_ofNat', ← Nat.mul_mod, Nat.zero_mod, Nat.add_zero, Nat.mod_mod]
  exact Nat.mod_eq_of_lt h

namespace Loader

theorem startsFit_of_plan {image : Image} {args : List Bytes} {stackPages : Nat} {s : σ}
    {layout : Layout} (h : (plan image args stackPages pageSize s).result = .ok layout)
    (number : Nat) (name : String) (argc : Nat) :
    (newProcess number name layout argc pageSize).StartsFit := by
  obtain ⟨hpages, hfits, -⟩ := plan_ends image args stackPages pageSize s layout h
  have hpos : 0 < layout.numPages := by omega
  have hstart : ∀ vpn < layout.numPages, vpn * pageSize < 0x100000000 :=
    fun vpn hlt => start_lt hfits hlt
  exact ⟨hpos, hstart, fun vpn hlt => toNat_start (hstart vpn hlt),
    toNat_word (hstart (layout.numPages - 1) (by omega))⟩

end Loader

/-! ## The whole of it -/

/-- Address arithmetic is exact for memory of `pages` frames with pages of `pageSize` bytes. -/
structure ExactAddresses (pages pageSize : Nat) : Prop where
  inFrame : ∀ (ppn : Ppn) (offset : Nat), ppn.toNat < pages → offset < pageSize →
    InFrame pages pageSize ppn offset (.ofPage ppn offset pageSize)
  injective : ∀ (ppn q : Ppn) (offset offset' : Nat),
    ppn.toNat < pages → offset < pageSize → q.toNat < pages → offset' < pageSize →
    PhysAddr.ofPage ppn offset pageSize = PhysAddr.ofPage q offset' pageSize →
    ppn = q ∧ offset = offset'
  inPage : ∀ a : VirtAddr, InPage pageSize a
  base_iff : ∀ a b : VirtAddr, a.base pageSize = b.base pageSize ↔ a.vpn pageSize = b.vpn pageSize

theorem Geometry.exactAddresses (h : Geometry pages pageSize) (hsize : pageSize < 0x100000000) :
    ExactAddresses pages pageSize where
  inFrame _ _ hlt ho := h.inFrame hsize hlt ho
  injective _ _ _ _ hlt ho hlt' ho' heq :=
    (h.inFrame hsize hlt ho).unique (heq ▸ h.inFrame hsize hlt' ho')
  inPage := h.inPage hsize
  base_iff := h.base_eq_iff

/-- Addresses are exact for every accepted configuration with pages of `2 ^ 31` bytes or less, and
for every program whose space is accepted, whether or not it can be loaded then. -/
theorem addresses_exact :
    (∀ {σ : Type} (c : Config) (s : σ), ((c.validate : Op σ MemoryError Unit) s).result = .ok () →
      c.pageSize ≤ 0x80000000 → ExactAddresses c.physPages c.pageSize) ∧
    (∀ {σ : Type} (image : Image) (args : List Bytes) (stackPages pageSize : Nat) (s : σ)
      (layout : Layout), (Loader.plan image args stackPages pageSize s).result = .ok layout →
      ∀ (number : Nat) (name : String) (argc : Nat),
        (Loader.newProcess number name layout argc pageSize).StartsFit) ∧
    (∀ {σ : Type} [Mmu σ] (number : Nat) (name : String) (image : Image) (args : List String)
      (stackPages : Nat) (m : σ) (process : Process),
      (Loader.load number name image args stackPages m).result = .ok process →
      process.pageSize = Mmu.pageSize m ∧ process.StartsFit) := by
  refine ⟨?_, ?_, ?_⟩
  · intro σ c s haccepted hsize
    obtain ⟨hgeometry, -⟩ := (validate_ends c s).2 haccepted
    exact hgeometry.exactAddresses (by omega)
  · intro σ image args stackPages pageSize s layout hplan
    exact Loader.startsFit_of_plan hplan
  · intro σ _ number name image args stackPages m process hload
    obtain ⟨layout, hplan, rfl⟩ :=
      Loader.load_newProcess number name image args stackPages m process hload
    exact ⟨rfl, Loader.startsFit_of_plan hplan number name _⟩

/-- Two frames that fill the address space to the last byte. -/
def fullMemory : Config := { pageSize := 0x80000000, physPages := 2 }

/-- A program without pages of its own: the stack and the arguments fill the address space. -/
def bareImage : Image := .scripted [] [] ⟨0⟩

theorem addresses_exact_full :
    (PhysAddr.ofPage 1 0x7fffffff 0x80000000).value.toNat = 0xffffffff ∧
      (PhysAddr.ofPage 1 0x7fffffff 0x80000000).ppn 0x80000000 = 1 ∧
      VirtAddr.ofPage (VirtAddr.vpn ⟨0xffffffff⟩ 0x80000000)
          (VirtAddr.offset ⟨0xffffffff⟩ 0x80000000) 0x80000000 = ⟨0xffffffff⟩ ∧
      (∃ layout, (Loader.plan bareImage [] 1 0x80000000 ()).result = .ok layout ∧
        (Loader.newProcess 1 "a" layout 0 0x80000000).initialSp.value.toNat = 0x80000000) ∧
      ∃ process, (Loader.load 1 "a" bareImage [] 1
          (⟨0x80000000, 0, fun _ => false, fun _ => 0⟩ : FlatSpace)).result = .ok process ∧
        process.initialSp.value.toNat = 0x80000000 := by
  obtain ⟨hconfig, hplan, hload⟩ := addresses_exact
  have hexact : ExactAddresses 2 0x80000000 := hconfig fullMemory () rfl (by decide)
  have hlast := hexact.inFrame 1 0x7fffffff (by decide) (by decide)
  refine ⟨hlast.value, hlast.frame, (hexact.inPage ⟨0xffffffff⟩).restored, ⟨_, rfl, ?_⟩, _, rfl, ?_⟩
  · exact (hplan bareImage [] 1 0x80000000 () _ rfl 1 "a" 0).initialSp
  · exact (hload 1 "a" bareImage [] 1
      (⟨0x80000000, 0, fun _ => false, fun _ => 0⟩ : FlatSpace) _ rfl).2.initialSp

end VirtualMemory
