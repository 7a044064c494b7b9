import Mathlib.Data.List.GetD
import VirtualMemory.Proofs.Process

/-!
# Copies on flat memory

On flat memory nothing misses, so a copy goes from page to page until it is done, the space ends, or
a page is read-only. The pieces leave no gap and do not overlap: a copy out is one run of bytes, and
a copy in writes the longest prefix of its data that can be written. Each piece has a byte at least,
so that there are never more pieces than bytes.
-/

namespace VirtualMemory

/-- `n` of the first `length` places satisfy `P`, one after the other, and then one does not. -/
structure LongestPrefix (P : Nat → Prop) (length n : Nat) : Prop where
  le : n ≤ length
  holds : ∀ i < n, P i
  stops : n < length → ¬ P n

namespace LongestPrefix

variable {P Q : Nat → Prop} {length n m : Nat}

theorem empty (P : Nat → Prop) : LongestPrefix P 0 0 := ⟨Nat.le_refl 0, nofun, nofun⟩

theorem blocked (h : ¬ P 0) (length : Nat) : LongestPrefix P length 0 :=
  ⟨Nat.zero_le length, nofun, fun _ => h⟩

/-- There is only one. -/
theorem unique (h : LongestPrefix P length n) (h' : LongestPrefix P length m) : n = m := by
  rcases Nat.lt_trichotomy n m with hlt | heq | hgt
  · exact absurd (h'.holds n hlt) (h.stops (Nat.lt_of_lt_of_le hlt h'.le))
  · exact heq
  · exact absurd (h.holds m hgt) (h'.stops (Nat.lt_of_lt_of_le hgt h.le))

theorem whole (h : ∀ i < length, P i) : LongestPrefix P length length :=
  ⟨Nat.le_refl length, h, fun hlt => absurd hlt (Nat.lt_irrefl length)⟩

/-- Past the first places, which all satisfy `P`, the prefix goes on. -/
theorem after {first : Nat} (hfirst : ∀ i < first, P i)
    (h : LongestPrefix (fun i => P (first + i)) length n) :
    LongestPrefix P (first + length) (first + n) where
  le := Nat.add_le_add_left h.le first
  holds := by
    intro i hi
    by_cases hlt : i < first
    · exact hfirst i hlt
    · have hrest := h.holds (i - first) (by omega)
      rwa [Nat.add_sub_cancel' (Nat.le_of_not_lt hlt)] at hrest
  stops := fun hlt => h.stops (Nat.lt_of_add_lt_add_left hlt)

theorem congr (hpq : ∀ i, P i ↔ Q i) (h : LongestPrefix P length n) : LongestPrefix Q length n := by
  rwa [← funext fun i => propext (hpq i)]

end LongestPrefix

namespace FlatSpace

variable {f : FlatSpace} {start length more : Nat}

def size (f : FlatSpace) : Nat := f.numPages * f.pageSize

/-- The address is in the space, and not in a read-only page. -/
def Writable (f : FlatSpace) (a : Nat) : Prop :=
  a < f.size ∧ f.readOnly (a / f.pageSize).toUInt32 = false

@[simp] theorem length_bytes (f : FlatSpace) (start length : Nat) :
    (f.bytes start length).length = length := by
  simp [bytes]

theorem bytes_append (f : FlatSpace) (start length more : Nat) :
    f.bytes start length ++ f.bytes (start + length) more = f.bytes start (length + more) := by
  simp [bytes, List.range_add, Nat.add_assoc]

@[simp] theorem overwritten_nil (f : FlatSpace) (start : Nat) : f.overwritten start [] = f := by
  have hnone : ∀ a, ¬ (start ≤ a ∧ a < start) := by omega
  simp [overwritten, hnone]

/-- Data that follow each other are written as one. -/
theorem overwritten_append (f : FlatSpace) (start : Nat) (data rest : Bytes) :
    (f.overwritten start data).overwritten (start + data.length) rest =
      f.overwritten start (data ++ rest) := by
  simp only [overwritten, List.length_append, mk.injEq, true_and]
  funext a
  by_cases hrest : start + data.length ≤ a
  · have hsub : a - start - data.length = a - (start + data.length) := by omega
    rw [List.getD_append_right _ _ _ _ (by omega), hsub]
    by_cases hlt : a < start + data.length + rest.length
    · rw [if_pos ⟨hrest, hlt⟩, if_pos (by omega)]
    · rw [if_neg (by omega), if_neg (by omega), if_neg (by omega)]
  · rw [if_neg (by omega)]
    by_cases hin : start ≤ a
    · rw [if_pos (by omega), if_pos (by omega), List.getD_append _ _ _ _ (by omega)]
    · rw [if_neg (by omega), if_neg (by omega)]

/-- Writes that do not meet can be made in either order. -/
theorem overwritten_comm (f : FlatSpace) {a b : Nat} {data : Bytes} (rest : Bytes)
    (hapart : a + data.length ≤ b) :
    (f.overwritten a data).overwritten b rest = (f.overwritten b rest).overwritten a data := by
  simp only [overwritten, mk.injEq, true_and]
  funext x
  by_cases hx : b ≤ x
  · have hout : ¬ (a ≤ x ∧ x < a + data.length) := by omega
    simp only [if_neg hout]
  · have hout : ¬ (b ≤ x ∧ x < b + rest.length) := by omega
    simp only [if_neg hout]

theorem bytes_congr {g : FlatSpace} (h : ∀ i < length, g.byte (start + i) = f.byte (start + i)) :
    g.bytes start length = f.bytes start length :=
  List.map_congr_left fun i hi => h i (List.mem_range.mp hi)

/-- What was written is there. -/
theorem bytes_overwritten (f : FlatSpace) (start : Nat) (data : Bytes) :
    (f.overwritten start data).bytes start data.length = data := by
  apply List.ext_getElem
  · simp
  · intro i hi hdata
    simp [bytes, overwritten, hdata]

/-- What a write does not meet stays. -/
theorem bytes_overwritten_apart (f : FlatSpace) {a : Nat} {data : Bytes}
    (hapart : start + length ≤ a ∨ a + data.length ≤ start) :
    (f.overwritten a data).bytes start length = f.bytes start length := by
  refine bytes_congr fun i hi => ?_
  have hout : ¬ (a ≤ start + i ∧ start + i < a + data.length) := by omega
  simp only [overwritten, if_neg hout]

/-- Data that are found together are found one after the other. -/
theorem bytes_eq_append {data rest : Bytes} (hlength : data.length = length)
    (h : f.bytes start (length + more) = data ++ rest) :
    f.bytes start length = data ∧ f.bytes (start + length) more = rest := by
  rw [← bytes_append] at h
  exact List.append_inj h (by rw [length_bytes, hlength])

/-- A piece is written, and then as much of the tail as can be. -/
theorem written_on {a n : Nat} {piece tail : Bytes}
    (hpiece : ∀ i < piece.length, f.Writable (a + i))
    (htail : LongestPrefix (fun i => (f.overwritten a piece).Writable (a + piece.length + i))
      tail.length n) :
    LongestPrefix (fun i => f.Writable (a + i)) (piece ++ tail).length (piece.length + n) ∧
      (f.overwritten a piece).overwritten (a + piece.length) (tail.take n) =
        f.overwritten a ((piece ++ tail).take (piece.length + n)) := by
  constructor
  · rw [List.length_append]
    refine .after hpiece (htail.congr ?_)
    intro i
    rw [← Nat.add_assoc]
    rfl
  · rw [overwritten_append, List.take_length_add_append]

end FlatSpace

namespace Hosted

variable {pageSize numPages : Nat} {p : Process} {vaddr : VirtAddr} {done : Nat}

/-! ## Pieces -/

/-- There is a piece up to the end of the space, and it reaches to the end of its page. -/
theorem nextPiece_eq (hg : Geometry numPages pageSize) (hp : Spans p pageSize numPages)
    (vaddr : VirtAddr) (done : Nat) :
    nextPiece p vaddr done =
      if vaddr.value.toNat + done < numPages * pageSize then
        some (⟨(vaddr.value.toNat + done).toUInt32⟩,
          pageSize - (vaddr.value.toNat + done) % pageSize)
      else none := by
  have hfits := hg.fits
  have hword : vaddr.value + done.toUInt32 = (vaddr.value.toNat + done).toUInt32 := by simp
  have hadd : vaddr.add? done = if vaddr.value.toNat + done < 0x100000000 then
      some ⟨(vaddr.value.toNat + done).toUInt32⟩ else none := by
    rw [← hword]
    rfl
  by_cases hlt : vaddr.value.toNat + done < 0x100000000
  · have hvalue := toNat_word hlt
    have hin : p.inBounds ⟨(vaddr.value.toNat + done).toUInt32⟩ = true ↔
        vaddr.value.toNat + done < numPages * pageSize := by
      rw [Process.inBounds, hp.1, hp.2, decide_eq_true_iff, hg.toNat_vpn, hvalue,
        Nat.div_lt_iff_lt_mul hg.pos]
    have hguard : ∀ address, (guard (p.inBounds address) : Option Unit) =
        if p.inBounds address then some () else none := fun _ => rfl
    rw [if_pos hlt] at hadd
    simp only [nextPiece, hadd, Option.bind_eq_bind, Option.bind_some, ↓hguard, hin, hg.offset_eq,
      hvalue, hp.1]
    split
    · rfl
    · rfl
  · rw [if_neg hlt] at hadd
    rw [nextPiece, hadd, if_neg (by omega)]
    rfl

/-- Inside a page there are no more bytes than up to the end of the space. -/
theorem room_le (hg : Geometry numPages pageSize) {a : Nat} (ha : a < numPages * pageSize) :
    0 < pageSize - a % pageSize ∧ a + (pageSize - a % pageSize) ≤ numPages * pageSize := by
  have hmod := Nat.mod_lt a hg.pos
  have hpage := block_le ((Nat.div_lt_iff_lt_mul hg.pos).mpr ha) pageSize
  have hdiv := Nat.div_add_mod' a pageSize
  omega

variable {f : FlatSpace} {q : Process}

section

variable (hg : Geometry f.numPages f.pageSize)

include hg

theorem inside_of_lt {a : Nat} (ha : a < f.size) :
    (VirtAddr.vpn ⟨a.toUInt32⟩ f.pageSize).toNat < f.numPages := by
  rw [hg.toNat_vpn, toNat_word (Nat.lt_of_lt_of_le ha hg.fits), Nat.div_lt_iff_lt_mul hg.pos]
  exact ha

theorem vpn_of_lt {a : Nat} (ha : a < f.size) :
    VirtAddr.vpn ⟨a.toUInt32⟩ f.pageSize = (a / f.pageSize).toUInt32 := by
  have hword := Nat.lt_of_lt_of_le ha hg.fits
  apply UInt32.toNat_inj.mp
  rw [hg.toNat_vpn, toNat_word hword, toNat_word (Nat.lt_of_le_of_lt (Nat.div_le_self a _) hword)]

theorem withPage_read {a : Nat} (ha : a < f.size) (length : Nat) :
    (withPage q ⟨a.toUInt32⟩ (Mmu.read q.number ⟨a.toUInt32⟩ length) :
      Op FlatSpace FaultResult Bytes).Ends f fun r f' => r = .ok (f.bytes a length) ∧ f' = f := by
  obtain ⟨hr, hstate⟩ := FlatSpace.read_inside (inside_of_lt hg ha) length
  rw [toNat_word (Nat.lt_of_lt_of_le ha hg.fits)] at hr
  refine (FlatSpace.withFaults_ends q.number ⟨a.toUInt32⟩ (FlatSpace.read ⟨a.toUInt32⟩ length) _ 31
    f).imp ?_
  rintro r f' ⟨rfl, rfl⟩
  rw [hr, hstate]
  exact ⟨rfl, rfl⟩

theorem withPage_write {a : Nat} (ha : a < f.size) (data : Bytes) :
    (withPage q ⟨a.toUInt32⟩ (Mmu.write q.number ⟨a.toUInt32⟩ data) :
      Op FlatSpace FaultResult Nat).Ends f fun r f' =>
      if f.readOnly (a / f.pageSize).toUInt32 = true then
        r = .error .protectionViolation ∧ f' = f
      else r = .ok data.length ∧ f' = f.overwritten a data := by
  have hwrite := FlatSpace.write_inside (inside_of_lt hg ha) data
  rw [vpn_of_lt hg ha, toNat_word (Nat.lt_of_lt_of_le ha hg.fits), Op.Ends] at hwrite
  refine (FlatSpace.withFaults_ends q.number ⟨a.toUInt32⟩ (FlatSpace.write ⟨a.toUInt32⟩ data) _ 31
    f).imp ?_
  rintro r f' ⟨rfl, rfl⟩
  split at hwrite
  next hro =>
    rw [hwrite.1, hwrite.2, if_pos hro]
    exact ⟨rfl, rfl⟩
  next hro =>
    rw [hwrite.1, hwrite.2, if_neg hro]
    exact ⟨rfl, rfl⟩

/-! ## Copies out -/

/-- As many bytes are read as there are before the end of the space. -/
theorem readPieces_flat (hq : Spans q f.pageSize f.numPages) (vaddr : VirtAddr)
    (done missing pieces : Nat) (henough : missing ≤ pieces) :
    (readPieces q vaddr done missing pieces : Op FlatSpace Empty (Copied Bytes)).Ends f
      fun r f' => (∃ fault, r = .ok ⟨f.bytes (vaddr.value.toNat + done)
        (min missing (f.size - (vaddr.value.toNat + done))), fault⟩) ∧ f' = f := by
  induction pieces generalizing done missing with
  | zero =>
    obtain rfl := Nat.le_zero.mp henough
    simp [readPieces, Op.ends_pure, FlatSpace.bytes]
  | succ pieces ih =>
    rw [readPieces]
    by_cases hnone : missing = 0
    · simp [hnone, Op.ends_pure, FlatSpace.bytes]
    rw [if_neg hnone, nextPiece_eq hg hq, Op.ends_bind]
    refine (checkPiece_ends q vaddr done f).imp ?_
    rintro r f ⟨rfl, rfl⟩
    by_cases hin : vaddr.value.toNat + done < f.numPages * f.pageSize
    · rw [if_pos hin]
      obtain ⟨hroom, hend⟩ := room_le hg hin
      generalize f.pageSize - (vaddr.value.toNat + done) % f.pageSize = room at hroom hend ⊢
      simp only [Op.ends_bind, Op.ends_attempt]
      refine (withPage_read hg hin (min room missing)).imp ?_
      rintro r f' ⟨rfl, rfl⟩
      dsimp only
      rw [if_neg (by simp), Op.ends_bind]
      refine (ih (done + min room missing) (missing - min room missing) (by omega)).imp ?_
      rintro r f' ⟨⟨fault, rfl⟩, rfl⟩
      refine ⟨⟨fault, ?_⟩, rfl⟩
      have hlength : min missing (f'.size - (vaddr.value.toNat + done)) =
          min room missing + min (missing - min room missing)
            (f'.size - (vaddr.value.toNat + (done + min room missing))) := by
        rw [FlatSpace.size]
        omega
      rw [hlength, ← FlatSpace.bytes_append, Nat.add_assoc]
      rfl
    · rw [if_neg hin, FlatSpace.size, Nat.sub_eq_zero_of_le (Nat.le_of_not_lt hin)]
      simp [Op.ends_pure, FlatSpace.bytes]

/-! ## Copies in -/

theorem writable_in_page {a : Nat} (ha : a < f.size)
    (hro : f.readOnly (a / f.pageSize).toUInt32 = false) (i : Nat)
    (hi : i < f.pageSize - a % f.pageSize) : f.Writable (a + i) := by
  have hend := (room_le hg ha).2
  have hpage : (a + i) / f.pageSize = a / f.pageSize := by
    rw [Nat.div_eq_iff hg.pos]
    have hdiv := Nat.div_add_mod' a f.pageSize
    omega
  refine ⟨?_, ?_⟩
  · rw [FlatSpace.size]
    omega
  · rw [hpage]
    exact hro

/-- The longest prefix is written that stays in the space and off its read-only pages. -/
theorem writePieces_flat (hq : Spans q f.pageSize f.numPages) (vaddr : VirtAddr) (done : Nat)
    (rest : Bytes) (pieces : Nat) (henough : rest.length ≤ pieces) :
    (writePieces q vaddr done rest pieces : Op FlatSpace Empty (Copied Nat)).Ends f
      fun r f' => ∃ n, (∃ fault, r = .ok ⟨done + n, fault⟩) ∧
        LongestPrefix (fun i => f.Writable (vaddr.value.toNat + done + i)) rest.length n ∧
        f' = f.overwritten (vaddr.value.toNat + done) (rest.take n) := by
  induction pieces generalizing f done rest with
  | zero =>
    obtain rfl := List.eq_nil_of_length_eq_zero (Nat.le_zero.mp henough)
    exact ⟨0, ⟨none, rfl⟩, .empty _, by simp [writePieces, Op.pure_apply]⟩
  | succ pieces ih =>
    have hstopped : ∀ fault, ¬ f.Writable (vaddr.value.toNat + done) →
        (pure ⟨done, fault⟩ : Op FlatSpace Empty (Copied Nat)).Ends f fun r f' =>
          ∃ n, (∃ fault, r = .ok ⟨done + n, fault⟩) ∧
            LongestPrefix (fun i => f.Writable (vaddr.value.toNat + done + i)) rest.length n ∧
            f' = f.overwritten (vaddr.value.toNat + done) (rest.take n) := by
      intro fault hstop
      exact ⟨0, ⟨fault, rfl⟩, .blocked hstop _, by simp [Op.pure_apply]⟩
    rw [writePieces]
    by_cases hnone : rest = []
    · subst hnone
      exact ⟨0, ⟨none, rfl⟩, .empty _, by simp [Op.pure_apply]⟩
    rw [if_neg (by simpa using hnone), nextPiece_eq hg hq, Op.ends_bind]
    refine (checkPiece_ends q vaddr done f).imp ?_
    rintro r f ⟨rfl, rfl⟩
    by_cases hin : vaddr.value.toNat + done < f.numPages * f.pageSize
    · rw [if_pos hin]
      obtain ⟨hroom, -⟩ := room_le hg hin
      generalize hr : f.pageSize - (vaddr.value.toNat + done) % f.pageSize = room at hroom ⊢
      simp only [Op.ends_bind, Op.ends_attempt]
      refine (withPage_write hg hin _).imp ?_
      intro r f₁ hr
      split at hr
      next hro =>
        obtain ⟨rfl, rfl⟩ := hr
        exact hstopped _ fun hwritable => by simp [hwritable.2] at hro
      next hro =>
        obtain ⟨rfl, rfl⟩ := hr
        dsimp only
        rw [if_pos rfl]
        refine (ih (f := f.overwritten (vaddr.value.toNat + done) (rest.take room)) hg hq
          (done + (rest.take room).length) (rest.drop room) ?_).imp ?_
        · rw [List.length_drop]
          omega
        rintro r f' ⟨n, ⟨fault, rfl⟩, hprefix, rfl⟩
        rw [← Nat.add_assoc vaddr.value.toNat] at hprefix ⊢
        have hpiece : ∀ i < (rest.take room).length,
            f.Writable (vaddr.value.toNat + done + i) := by
          intro i hi
          have hlength := List.length_take_le room rest
          exact writable_in_page hg hin (Bool.eq_false_iff.mpr hro) i (by omega)
        obtain ⟨hwhole, hwritten⟩ := FlatSpace.written_on hpiece hprefix
        rw [List.take_append_drop] at hwhole hwritten
        exact ⟨_, ⟨fault, by rw [Nat.add_assoc]⟩, hwhole, hwritten⟩
    · rw [if_neg hin]
      exact hstopped _ fun hwritable => hin hwritable.1

end

/-! ## Processes on flat memory -/

variable {t : Hosted FlatSpace} (hg : Geometry t.machine.numPages t.machine.pageSize)
  (hspans : Spans t.process t.machine.pageSize t.machine.numPages)
  (halive : t.process.terminated = false)

include hg hspans halive

theorem readMemory_flat (vaddr : VirtAddr) (length : Nat) :
    (readMemory vaddr length : Op (Hosted FlatSpace) Empty Bytes).Ends t fun r t' =>
      r = .ok (t.machine.bytes vaddr.value.toNat
        (min length (t.machine.size - vaddr.value.toNat))) ∧ t' = t := by
  simp only [readMemory, copyOut, Op.ends_bind, Op.ends_get, halive, Bool.false_eq_true, if_false,
    Op.ends_on]
  refine (readPieces_flat hg hspans vaddr 0 length length (Nat.le_refl length)).imp ?_
  rintro r f' ⟨⟨fault, rfl⟩, rfl⟩
  exact ⟨rfl, rfl⟩

theorem copyIn_flat (vaddr : VirtAddr) (data : Bytes) :
    (copyIn vaddr data : Op (Hosted FlatSpace) Empty (Copied Nat)).Ends t fun r t' =>
      ∃ n, (∃ fault, r = .ok ⟨n, fault⟩) ∧
        LongestPrefix (fun i => t.machine.Writable (vaddr.value.toNat + i)) data.length n ∧
        t' = { t with machine := t.machine.overwritten vaddr.value.toNat (data.take n) } := by
  simp only [copyIn, Op.ends_bind, Op.ends_get, halive, Bool.false_eq_true, if_false, Op.ends_on]
  refine (writePieces_flat hg hspans vaddr 0 data data.length (Nat.le_refl _)).imp ?_
  rintro r f' ⟨n, ⟨fault, rfl⟩, hprefix, rfl⟩
  exact ⟨n, ⟨fault, by rw [Nat.zero_add]⟩, hprefix, rfl⟩

theorem writeMemory_flat (vaddr : VirtAddr) (data : Bytes) :
    (writeMemory vaddr data : Op (Hosted FlatSpace) Empty Nat).Ends t fun r t' =>
      ∃ n, r = .ok n ∧
        LongestPrefix (fun i => t.machine.Writable (vaddr.value.toNat + i)) data.length n ∧
        t' = { t with machine := t.machine.overwritten vaddr.value.toNat (data.take n) } := by
  simp only [writeMemory, Op.ends_bind]
  refine (copyIn_flat hg hspans halive vaddr data).imp ?_
  rintro r t' ⟨n, ⟨fault, rfl⟩, hprefix, rfl⟩
  exact ⟨n, rfl, hprefix, rfl⟩

end Hosted

end VirtualMemory
