import VirtualMemory.Config
import VirtualMemory.Proofs.Outcome
import Mathlib.Data.List.Nodup

/-!
# Pages and addresses

For a page size that is a power of two, page number and offset of an address are quotient and
remainder, and the frames of a memory that fits the address space have different addresses: no
product or sum wraps.
-/

namespace VirtualMemory

theorem toNat_word {a : Nat} (h : a < 0x100000000) : a.toUInt32.toNat = a := by
  simpa using h

/-- Numbers below `2 ^ 32` are different words. -/
theorem nodup_words {n : Nat} (h : n ≤ 0x100000000) : ((List.range n).map Nat.toUInt32).Nodup := by
  refine List.Nodup.map_on ?_ List.nodup_range
  intro i hi j hj heq
  rw [List.mem_range] at hi hj
  rw [← toNat_word (Nat.lt_of_lt_of_le hi h), heq, toNat_word (Nat.lt_of_lt_of_le hj h)]

theorem mem_words {n : Nat} {w : UInt32} (h : n ≤ 0x100000000) :
    w ∈ (List.range n).map Nat.toUInt32 ↔ w.toNat < n := by
  simp only [List.mem_map, List.mem_range]
  constructor
  · rintro ⟨i, hi, rfl⟩
    rwa [toNat_word (Nat.lt_of_lt_of_le hi h)]
  · intro hw
    exact ⟨w.toNat, hw, by simp⟩

theorem VirtAddr.eq_of_toNat {a b : VirtAddr} (h : a.value.toNat = b.value.toNat) : a = b :=
  congrArg VirtAddr.mk (UInt32.toNat_inj.mp h)

theorem PhysAddr.eq_of_toNat {a b : PhysAddr} (h : a.value.toNat = b.value.toNat) : a = b :=
  congrArg PhysAddr.mk (UInt32.toNat_inj.mp h)

/-- A block ends before the blocks do. -/
theorem block_le {i n : Nat} (h : i < n) (size : Nat) : i * size + size ≤ n * size := by
  rw [← Nat.succ_mul]
  exact Nat.mul_le_mul_right size h

/-- Blocks of one size do not meet. -/
theorem block_apart {i j : Nat} (h : i ≠ j) (size offset : Nat) (ho : offset < size) :
    i * size + offset < j * size ∨ j * size + size ≤ i * size + offset := by
  rcases Nat.lt_or_gt_of_ne h with hlt | hgt
  · have := block_le hlt size
    omega
  · have := block_le hgt size
    omega

/-- A place in a block is found by division. -/
theorem block_div {o size : Nat} (ho : o < size) (i : Nat) : (i * size + o) / size = i := by
  have hpos : 0 < size := by omega
  rw [Nat.mul_comm, Nat.mul_add_div hpos, Nat.div_eq_of_lt ho, Nat.add_zero]

theorem block_mod {o size : Nat} (ho : o < size) (i : Nat) : (i * size + o) % size = o := by
  rw [Nat.mul_add_mod', Nat.mod_eq_of_lt ho]

/-- `pages` pages of `pageSize` bytes, as an accepted configuration has them. -/
structure Geometry (pages pageSize : Nat) : Prop where
  power : pageSize.isPowerOfTwo
  pages_pos : 0 < pages
  fits : pages * pageSize ≤ 0x100000000

theorem isPowerOfTwo_iff (n : Nat) : VirtualMemory.isPowerOfTwo n = true ↔ n.isPowerOfTwo := by
  rw [VirtualMemory.isPowerOfTwo, ← Nat.ne_zero_and_sub_one_eq_zero_iff_isPowerOfTwo]
  simp

theorem validate_ends {σ : Type} (c : Config) (s : σ) :
    (c.validate : Op σ MemoryError Unit).Ends s fun r s' =>
      s' = s ∧ (r = .ok () → Geometry c.physPages c.pageSize ∧ 0 < c.tlbSize) := by
  unfold Config.validate
  simp only [Op.ends_bind, Op.ends_ite, Op.ends_notify, Op.ends_throw, Op.ends_pure]
  split
  · exact ⟨trivial, fun h => nomatch h⟩
  next hpower =>
    split
    · exact ⟨trivial, fun h => nomatch h⟩
    next hpages =>
      split
      · exact ⟨trivial, fun h => nomatch h⟩
      next htlb =>
        split
        · exact ⟨trivial, fun h => nomatch h⟩
        next hfits =>
          refine ⟨trivial, fun _ => ⟨⟨?_, Nat.pos_of_ne_zero hpages, ?_⟩,
            Nat.pos_of_ne_zero htlb⟩⟩
          · simpa [isPowerOfTwo_iff] using hpower
          · simp only [Bool.not_eq_true', Bool.not_eq_false] at hfits
            exact of_decide_eq_true hfits

namespace Geometry

variable {pages pageSize : Nat}

theorem pos (h : Geometry pages pageSize) : 0 < pageSize := Nat.pos_of_isPowerOfTwo h.power

theorem pageSize_le (h : Geometry pages pageSize) : pageSize ≤ 0x100000000 :=
  Nat.le_trans (Nat.le_mul_of_pos_left pageSize h.pages_pos) h.fits

/-- A page size is a divisor unless one page is the whole address space: then its low 32 bits are
zero. -/
theorem pageSize_eq (h : Geometry pages pageSize) (hzero : pageSize.toUInt32 = 0) :
    pageSize = 0x100000000 := by
  have hmod := congrArg UInt32.toNat hzero
  rw [Nat.toUInt32_eq, UInt32.toNat_ofNat', UInt32.toNat_zero] at hmod
  have hpos := h.pos
  have hle := h.pageSize_le
  omega

/-- A word counts the pages, unless they are of one byte. -/
theorem counted (h : Geometry pages pageSize) (hlt : 1 < pageSize) : pages < 0x100000000 := by
  have hmul := Nat.mul_le_mul_left pages (Nat.succ_le_of_lt hlt)
  have hfits := h.fits
  have hpos := h.pages_pos
  omega

theorem divisor (h : Geometry pages pageSize) (hlt : pageSize < 0x100000000) :
    pageSize.toUInt32 ≠ 0 :=
  fun hzero => Nat.ne_of_lt hlt (h.pageSize_eq hzero)

theorem toNat_vpn (h : Geometry pages pageSize) (a : VirtAddr) :
    (a.vpn pageSize).toNat = a.value.toNat / pageSize := by
  have hword := UInt32.toNat_lt a.value
  rw [VirtAddr.vpn, UInt32.toNat_div, Nat.toUInt32_eq, UInt32.toNat_ofNat']
  rcases Nat.lt_or_eq_of_le h.pageSize_le with hlt | heq
  · rw [Nat.mod_eq_of_lt hlt]
  · -- one page is the whole address space, and its size wraps to zero
    rw [heq, Nat.mod_self, Nat.div_zero, Nat.div_eq_of_lt hword]

theorem offset_eq (h : Geometry pages pageSize) (a : VirtAddr) :
    a.offset pageSize = a.value.toNat % pageSize := by
  obtain ⟨k, rfl⟩ := h.power
  exact Nat.and_two_pow_sub_one_eq_mod _ _

theorem offset_lt (h : Geometry pages pageSize) (a : VirtAddr) : a.offset pageSize < pageSize := by
  rw [h.offset_eq]
  exact Nat.mod_lt _ h.pos

theorem toNat_eq (h : Geometry pages pageSize) (a : VirtAddr) :
    a.value.toNat = (a.vpn pageSize).toNat * pageSize + a.offset pageSize := by
  rw [h.toNat_vpn, h.offset_eq, Nat.div_add_mod']

theorem pages_le (h : Geometry pages pageSize) : pages ≤ 0x100000000 :=
  Nat.le_trans (Nat.le_mul_of_pos_right pages h.pos) h.fits

/-- Each address below the end of the pages is in one of them. -/
theorem split (h : Geometry pages pageSize) {a : Nat} (ha : a < pages * pageSize) :
    (a / pageSize).toUInt32.toNat < pages ∧
      a = (a / pageSize).toUInt32.toNat * pageSize + a % pageSize := by
  have hword := Nat.lt_of_lt_of_le ha h.fits
  rw [toNat_word (Nat.lt_of_le_of_lt (Nat.div_le_self a pageSize) hword)]
  exact ⟨(Nat.div_lt_iff_lt_mul h.pos).mpr ha, (Nat.div_add_mod' a pageSize).symm⟩

theorem toNat_ofPage (h : Geometry pages pageSize) {ppn : Ppn} (hlt : ppn.toNat < pages)
    {offset : Nat} (ho : offset < pageSize) :
    (PhysAddr.ofPage ppn offset pageSize).value.toNat = ppn.toNat * pageSize + offset := by
  have hframe := block_le hlt pageSize
  have hfits := h.fits
  have hin : ppn.toNat * pageSize + offset < 2 ^ 32 := by omega
  simp only [PhysAddr.ofPage, UInt32.toNat_add, UInt32.toNat_mul, Nat.toUInt32_eq,
    UInt32.toNat_ofNat', Nat.mul_mod_mod, ← Nat.add_mod]
  exact Nat.mod_eq_of_lt hin

end Geometry

/-- Different frames do not meet in memory. -/
theorem frame_apart {ppn q : Ppn} (hne : ppn ≠ q) (pageSize offset : Nat) (ho : offset < pageSize) :
    ppn.toNat * pageSize + offset < q.toNat * pageSize ∨
      q.toNat * pageSize + pageSize ≤ ppn.toNat * pageSize + offset :=
  block_apart (fun h => hne (UInt32.toNat_inj.mp h)) pageSize offset ho

end VirtualMemory
