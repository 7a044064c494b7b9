import VirtualMemory.Proofs.AddressArithmetic
import VirtualMemory.Proofs.SwapSlots

/-!
# Swap transfers

`Delivered` and `Written` say how a transfer may end, and the rest is read off there. Writing a page
out touches the slot of that page alone: whether the write succeeds or not, the other pages keep
their slots and what stands in them. A write that succeeds can be read back.
`Reliable` says that the file does not fail; it is told from the state after a transfer, so that a
file of the host may be as large as the slots that were needed.
-/

namespace VirtualMemory

def BackingFile.Reliable (limit : Nat) : BackingFile → Prop
  | .memory f => f.closed = false
  | .host f => f.closed = false ∧ limit < HostFile.offsetLimit
  | .faulty f faults => f.closed = false ∧ faults.read = none ∧ faults.write = none

namespace BackingFile

instance decidableReliable (limit : Nat) : (f : BackingFile) → Decidable (f.Reliable limit)
  | .memory f => inferInstanceAs (Decidable (f.closed = false))
  | .host f => inferInstanceAs (Decidable (f.closed = false ∧ limit < HostFile.offsetLimit))
  | .faulty f faults =>
    inferInstanceAs (Decidable (f.closed = false ∧ faults.read = none ∧ faults.write = none))

variable {f : BackingFile} {limit offset length : Nat} {data : Bytes}

theorem Reliable.mono {limit' : Nat} (h : f.Reliable limit) (hle : limit' ≤ limit) :
    f.Reliable limit' := by
  cases f with
  | memory f => exact h
  | host f => exact ⟨h.1, Nat.lt_of_le_of_lt hle h.2⟩
  | faulty f faults => exact h

theorem Reliable.readAt (h : f.Reliable limit) (hle : offset ≤ limit) :
    f.readAt offset length = .ok (f.store.read offset length) := by
  cases f with
  | memory f =>
    have hopen : f.closed = false := h
    simp only [BackingFile.readAt, MemoryFile.readAt, hopen, Bool.false_eq_true, if_false, store]
  | host f =>
    obtain ⟨hopen, hlimit⟩ := h
    have hlt : ¬ HostFile.offsetLimit ≤ offset := by omega
    simp only [BackingFile.readAt, HostFile.readAt, hopen, Bool.false_eq_true, if_false, hlt, store]
  | faulty f faults =>
    obtain ⟨hopen, hread, -⟩ := h
    simp only [BackingFile.readAt, hread, MemoryFile.readAt, hopen, Bool.false_eq_true, if_false,
      store]

theorem Reliable.writeAt (h : f.Reliable limit) (hle : offset + data.length ≤ limit) :
    (f.writeAt offset data).1 = .ok data.length := by
  cases f with
  | memory f =>
    have hopen : f.closed = false := h
    simp only [BackingFile.writeAt, MemoryFile.writeAt, hopen, Bool.false_eq_true, if_false]
  | host f =>
    obtain ⟨hopen, hlimit⟩ := h
    have hlt : ¬ HostFile.offsetLimit ≤ offset + data.length := by omega
    simp only [BackingFile.writeAt, HostFile.writeAt, hopen, Bool.false_eq_true, if_false, hlt]
  | faulty f faults =>
    obtain ⟨hopen, -, hwrite⟩ := h
    simp only [BackingFile.writeAt, hwrite, MemoryFile.writeAt, hopen, Bool.false_eq_true, if_false]

/-- A write does not change whether the file fails. -/
theorem reliable_writeAt (f : BackingFile) (limit offset : Nat) (data : Bytes) :
    (f.writeAt offset data).2.Reliable limit ↔ f.Reliable limit := by
  cases f with
  | memory f =>
    simp only [BackingFile.writeAt, MemoryFile.writeAt]
    split <;> rfl
  | host f =>
    simp only [BackingFile.writeAt, HostFile.writeAt]
    split
    · rfl
    · split <;> rfl
  | faulty f faults =>
    simp only [BackingFile.writeAt, MemoryFile.writeAt]
    split
    · rfl
    · split <;> rfl

end BackingFile

namespace Swapper

variable {s s' : Swapper} {key : PageKey}

def Reliable (s : Swapper) : Prop :=
  ∃ file, s.file = some file ∧ file.Reliable (s.capacity * s.pageSize)

instance decidableReliable (s : Swapper) : Decidable s.Reliable :=
  match hfile : s.file with
  | none => isFalse fun ⟨_, hsome, _⟩ => nomatch hfile.symm.trans hsome
  | some file => decidable_of_iff (file.Reliable (s.capacity * s.pageSize))
      ⟨fun h => ⟨file, hfile, h⟩, fun ⟨_, hsome, h⟩ => Option.some.inj (hfile.symm.trans hsome) ▸ h⟩

/-! ## How transfers end -/

def recounted (s : Swapper) (counters : SwapCounters) : Swapper := { s with counters := counters }

/-- How a read ends. The file is asked only where the page has a slot. -/
inductive Delivered (s : Swapper) (key : PageKey) (length : Nat) :
    Except MemoryError SwapRead → Swapper → Prop
  | misfit (hsize : length ≠ s.pageSize) : Delivered s key length (.error .invalidParameter) s
  | closed (hsize : length = s.pageSize) (hclosed : s.isOpen = false) :
      Delivered s key length (.error .swapClosed) s
  | untracked (hsize : length = s.pageSize) (hopen : s.isOpen = true)
      (hslot : s.slot? key = none) :
      Delivered s key length (.ok (.zeroFilled (Bytes.zeros s.pageSize))) s.countUntracked
  | failed {file : BackingFile} {slot : Nat} {e : FileError} (hsize : length = s.pageSize)
      (hfile : s.file = some file) (hslot : s.slot? key = some slot)
      (hread : file.readAt (slotOffset slot s.pageSize) s.pageSize = .error e) :
      Delivered s key length (.error (.ofFile e)) s
  | loaded {file : BackingFile} {slot : Nat} {data : Bytes} (hsize : length = s.pageSize)
      (hfile : s.file = some file) (hslot : s.slot? key = some slot)
      (hread : file.readAt (slotOffset slot s.pageSize) s.pageSize = .ok data) :
      Delivered s key length (.ok (.loaded slot (Bytes.fit s.pageSize data))) s.countPageIn

theorem readInto_delivered (s : Swapper) (key : PageKey) (length : Nat) :
    (readInto key length).Ends s (Delivered s key length) := by
  simp only [readInto, Op.ends_bind, Op.ends_get]
  split
  next hsize => exact .misfit hsize
  next hsize =>
    have hsize : length = s.pageSize := Classical.not_not.mp hsize
    cases hfile : s.file with
    | none => exact .closed hsize (by rw [isOpen, hfile, Option.isSome_none])
    | some file =>
      have hopen : s.isOpen = true := isOpen_of_file hfile
      cases hslot : s.slot? key with
      | none =>
        simp only [Op.ends_bind, Op.ends_notify, Op.ends_set, Op.ends_pure]
        exact .untracked hsize hopen hslot
      | some slot =>
        cases hread : file.readAt (slotOffset slot s.pageSize) s.pageSize with
        | error e =>
          simp only [hread, Op.ends_bind, Op.ends_notify, Op.ends_throw]
          exact .failed hsize hfile hslot hread
        | ok data =>
          simp only [hread, Op.ends_bind, Op.ends_set, Op.ends_pure]
          exact .loaded hsize hfile hslot hread

/-- A read changes nothing but counters. -/
theorem Delivered.recounts {length : Nat} {r : Except MemoryError SwapRead}
    (h : Delivered s key length r s') : ∃ counters, s' = s.recounted counters := by
  cases h with
  | misfit => exact ⟨s.counters, rfl⟩
  | closed => exact ⟨s.counters, rfl⟩
  | untracked => exact ⟨s.countUntracked.counters, rfl⟩
  | failed => exact ⟨s.counters, rfl⟩
  | loaded => exact ⟨s.countPageIn.counters, rfl⟩

/-- What stands in a slot of the file; a page without a slot is zeros. -/
def standing (file : BackingFile) (pageSize : Nat) : Option Nat → Except MemoryError SwapRead
  | none => .ok (.zeroFilled (Bytes.zeros pageSize))
  | some slot =>
    match file.readAt (slotOffset slot pageSize) pageSize with
    | .error e => .error (.ofFile e)
    | .ok data => .ok (.loaded slot (Bytes.fit pageSize data))

theorem readInto_result {file : BackingFile} (hfile : s.file = some file) (key : PageKey) :
    (readInto key s.pageSize s).result = standing file s.pageSize (s.slot? key) := by
  have hends : (readInto key s.pageSize).Ends s fun r _ =>
      r = standing file s.pageSize (s.slot? key) := by
    refine (readInto_delivered s key s.pageSize).imp ?_
    intro r s' hd
    cases hd with
    | misfit hsize => exact absurd rfl hsize
    | closed _ hclosed =>
      rw [isOpen_of_file hfile] at hclosed
      cases hclosed
    | untracked _ _ hslot =>
      rw [hslot]
      rfl
    | failed _ hfile' hslot hread =>
      obtain rfl := Option.some.inj (hfile.symm.trans hfile')
      rw [hslot, standing, hread]
    | loaded _ hfile' hslot hread =>
      obtain rfl := Option.some.inj (hfile.symm.trans hfile')
      rw [hslot, standing, hread]
  exact hends

/-- The state after a write at the slot of a page, before anything is counted. -/
def writing (s : Swapper) (file : BackingFile) (key : PageKey) (page : Bytes) : Swapper :=
  { (s.allocateSlot key).2 with
    file := some
      (file.writeAt (slotOffset (s.allocateSlot key).1 (s.allocateSlot key).2.pageSize) page).2 }

/-- How a write ends: it is refused before anything is done, or the page has a slot and the file
answers. -/
inductive Written (s : Swapper) (key : PageKey) (page : Bytes) :
    Except MemoryError Nat → Swapper → Prop
  | misfit (hsize : page.length ≠ s.pageSize) : Written s key page (.error .invalidParameter) s
  | closed (hsize : page.length = s.pageSize) (hclosed : s.isOpen = false) :
      Written s key page (.error .swapClosed) s
  | failed {file : BackingFile} {e : FileError} (hsize : page.length = s.pageSize)
      (hfile : s.file = some file)
      (hwrite : (file.writeAt (slotOffset (s.allocateSlot key).1 s.pageSize) page).1 = .error e) :
      Written s key page (.error (.ofFile e)) (s.writing file key page)
  | stored {file : BackingFile} {n : Nat} (hsize : page.length = s.pageSize)
      (hfile : s.file = some file)
      (hwrite : (file.writeAt (slotOffset (s.allocateSlot key).1 s.pageSize) page).1 = .ok n) :
      Written s key page (.ok (s.allocateSlot key).1) (s.writing file key page).countPageOut

theorem write_written (s : Swapper) (key : PageKey) (page : Bytes) :
    (write key page).Ends s (Written s key page) := by
  simp only [write, Op.ends_bind, Op.ends_get]
  split
  next hsize => exact .misfit hsize
  next hsize =>
    have hsize : page.length = s.pageSize := Classical.not_not.mp hsize
    cases hfile : s.file with
    | none => exact .closed hsize (by rw [isOpen, hfile, Option.isSome_none])
    | some file =>
      have hpage := pageSize_allocateSlot s key
      cases hw : (file.writeAt (slotOffset (s.allocateSlot key).1
          (s.allocateSlot key).2.pageSize) page).1 with
      | error e =>
        simp only [hw, Op.ends_bind, Op.ends_set, Op.ends_notify, Op.ends_throw]
        exact .failed hsize hfile (hpage ▸ hw)
      | ok n =>
        simp only [hw, Op.ends_bind, Op.ends_set, Op.ends_pure]
        exact .stored hsize hfile (hpage ▸ hw)

/-! ## What a transfer leaves alone -/

/-- What `s` knows of the page and holds for it stands in `s'` as well. -/
structure Keeps (s s' : Swapper) (key : PageKey) : Prop where
  slot : s'.slot? key = s.slot? key
  pending : s'.isPending key = s.isPending key
  bytes : ∀ i, s.slot? key = some i → ∀ o < s.pageSize, s'.byte i o = s.byte i o

theorem Keeps.refl (s : Swapper) (key : PageKey) : Keeps s s key :=
  ⟨rfl, rfl, fun _ _ _ _ => rfl⟩

theorem Keeps.trans {s₁ s₂ s₃ : Swapper} (h : Keeps s₁ s₂ key) (h' : Keeps s₂ s₃ key)
    (hsize : s₂.pageSize = s₁.pageSize) : Keeps s₁ s₃ key where
  slot := h'.slot.trans h.slot
  pending := h'.pending.trans h.pending
  bytes := by
    intro i hi o ho
    rw [h'.bytes i (h.slot.trans hi) o (hsize ▸ ho), h.bytes i hi o ho]

/-- What a transfer of page `key` may change. -/
structure Transferred (s : Swapper) (key : PageKey) (s' : Swapper) : Prop where
  pageSize : s'.pageSize = s.pageSize
  isOpen : s'.isOpen = s.isOpen
  others : ∀ k, k ≠ key → Keeps s s' k
  kept : ∀ i, s.slot? key = some i → s'.slot? key = some i
  pending : s'.isPending key = true ↔ s.isPending key = true ∧ s'.slot? key = none
  wellFormed : s'.WellFormed
  reliable : s'.Reliable → s.Reliable

theorem Transferred.refl (h : s.WellFormed) : Transferred s key s where
  pageSize := rfl
  isOpen := rfl
  others := fun k _ => Keeps.refl s k
  kept := fun _ hi => hi
  pending := ⟨fun hp => ⟨hp, h.pending_slotless key hp⟩, fun hp => hp.1⟩
  wellFormed := h
  reliable := id

theorem transferred_writing (h : s.WellFormed) (key : PageKey) {file : BackingFile}
    (hfile : s.file = some file) {page : Bytes} (hpage : page.length = s.pageSize) :
    Transferred s key (s.writing file key page) := by
  have ha := assigned_allocateSlot h key
  have hbytes : ∀ k, k ≠ key → ∀ i, s.slot? k = some i → ∀ o < s.pageSize,
      (s.writing file key page).byte i o = s.byte i o := by
    intro k hk i hi o ho
    have hne : i ≠ (s.allocateSlot key).1 := by
      rintro rfl
      exact hk (ha.wellFormed.slot_unique k key _ ((ha.others k hk).trans hi) ha.own)
    simp only [byte, writing, hfile, ha.pageSize]
    refine BackingFile.writeAt_outside file ?_
    rw [hpage]
    exact block_apart hne s.pageSize o ho
  have hopen : (s.writing file key page).isOpen = s.isOpen := by
    rw [Swapper.isOpen, Swapper.isOpen, hfile]
    rfl
  have hopen' : (s.allocateSlot key).2.isOpen = s.isOpen := by
    rw [Swapper.isOpen, Swapper.isOpen, ha.file]
  constructor
  · exact ha.pageSize
  · exact hopen
  · intro k hk
    refine ⟨ha.others k hk, ?_, hbytes k hk⟩
    rw [Bool.eq_iff_iff]
    exact (ha.pending k).trans (and_iff_right hk)
  · intro i hi
    have hown : (s.writing file key page).slot? key = some (s.allocateSlot key).1 := ha.own
    rw [hown, ha.kept i hi]
  · have hown : (s.writing file key page).slot? key = some (s.allocateSlot key).1 := ha.own
    have hpending : (s.writing file key page).isPending key = true ↔ _ := ha.pending key
    rw [hpending, hown]
    simp
  · exact ⟨ha.wellFormed.slot_lt, ha.wellFormed.slot_unique, ha.wellFormed.free_nodup,
      ha.wellFormed.free_lt, ha.wellFormed.free_unused,
      fun h => ha.wellFormed.covered (hopen'.trans (hopen.symm.trans h)),
      ha.wellFormed.pending_slotless⟩
  · rintro ⟨file', hfile', hr⟩
    obtain rfl := Option.some.inj hfile'
    refine ⟨file, hfile, ?_⟩
    refine ((BackingFile.reliable_writeAt file _ _ page).mp hr).mono ?_
    show s.capacity * s.pageSize ≤ (s.allocateSlot key).2.capacity * (s.allocateSlot key).2.pageSize
    rw [ha.pageSize]
    exact Nat.mul_le_mul_right _ ha.le_capacity

/-- A write gives the page a slot of its own and, if it succeeds, leaves the page there. -/
theorem write_ends (h : s.WellFormed) (key : PageKey) {page : Bytes}
    (hpage : page.length = s.pageSize) :
    (write key page).Ends s fun r s' =>
      Transferred s key s' ∧ (s'.Reliable → ∃ slot, r = .ok slot) ∧
        match r with
        | .ok slot =>
          s'.slot? key = some slot ∧ (∀ o < s.pageSize, s'.byte slot o = page.getD o 0) ∧
            s'.counters.pagesOut = s.counters.pagesOut + 1
        | .error _ => s'.counters.pagesOut = s.counters.pagesOut := by
  have ha := assigned_allocateSlot h key
  refine (write_written s key page).imp ?_
  intro r s' hw
  cases hw with
  | misfit hsize => exact absurd hpage hsize
  | closed _ hclosed =>
    refine ⟨Transferred.refl h, ?_, rfl⟩
    rintro ⟨file, hfile, -⟩
    rw [isOpen_of_file hfile] at hclosed
    cases hclosed
  | @failed file e _ hfile hwrite =>
    refine ⟨transferred_writing h key hfile hpage, ?_, congrArg SwapCounters.pagesOut ha.counters⟩
    rintro ⟨file', hfile', hr⟩
    obtain rfl := Option.some.inj hfile'
    have hle := block_le (ha.wellFormed.slot_lt key _ ha.own) (s.allocateSlot key).2.pageSize
    rw [((BackingFile.reliable_writeAt file _ _ page).mp hr).writeAt] at hwrite
    · cases hwrite
    · rw [hpage, ← ha.pageSize]
      exact hle
  | @stored file n _ hfile hwrite =>
    have ht := transferred_writing h key hfile hpage
    refine ⟨⟨ht.pageSize, ht.isOpen, ?_, ht.kept, ht.pending, ?_, ht.reliable⟩,
      fun _ => ⟨_, rfl⟩, ha.own, ?_, ?_⟩
    · intro k hk
      exact ⟨(ht.others k hk).slot, (ht.others k hk).pending, (ht.others k hk).bytes⟩
    · exact ⟨ht.wellFormed.slot_lt, ht.wellFormed.slot_unique, ht.wellFormed.free_nodup,
        ht.wellFormed.free_lt, ht.wellFormed.free_unused, ht.wellFormed.covered,
        ht.wellFormed.pending_slotless⟩
    · intro o ho
      rw [← ha.pageSize] at hwrite
      exact BackingFile.writeAt_inside hwrite (hpage ▸ ho)
    · exact congrArg (SwapCounters.pagesOut · + 1) ha.counters

theorem keeps_countPageIn (s : Swapper) (key : PageKey) : Keeps s s.countPageIn key :=
  ⟨rfl, rfl, fun _ _ _ _ => rfl⟩

theorem transferred_countPageIn (h : s.WellFormed) (key : PageKey) :
    Transferred s key s.countPageIn where
  pageSize := rfl
  isOpen := rfl
  others := fun k _ => keeps_countPageIn s k
  kept := fun _ hi => hi
  pending := (Transferred.refl h).pending
  wellFormed := ⟨h.slot_lt, h.slot_unique, h.free_nodup, h.free_lt, h.free_unused, h.covered,
    h.pending_slotless⟩
  reliable := id

/-- A read delivers what stands in the slot of the page, and moves nothing. -/
theorem readInto_ends {slot : Nat} (h : s.WellFormed) (hslot : s.slot? key = some slot) :
    (readInto key s.pageSize).Ends s fun r s' =>
      (s' = s ∨ s' = s.countPageIn) ∧ (s.Reliable → ∃ found, r = .ok found) ∧
        ∀ found, r = .ok found → found.data.length = s.pageSize ∧
          ∀ o < s.pageSize, found.data.getD o 0 = s.byte slot o := by
  refine (readInto_delivered s key s.pageSize).imp ?_
  intro r s' hd
  cases hd with
  | misfit hsize => exact absurd rfl hsize
  | closed _ hclosed =>
    refine ⟨Or.inl rfl, ?_, ?_⟩
    · rintro ⟨file, hfile, -⟩
      rw [isOpen_of_file hfile] at hclosed
      cases hclosed
    · rintro found ⟨⟩
  | untracked _ _ hnone =>
    rw [hslot] at hnone
    cases hnone
  | failed _ hfile hslot' hread =>
    obtain rfl := Option.some.inj (hslot.symm.trans hslot')
    refine ⟨Or.inl rfl, ?_, ?_⟩
    · rintro ⟨file', hfile', hrel⟩
      obtain rfl := Option.some.inj (hfile.symm.trans hfile')
      have hle : slotOffset slot s.pageSize ≤ s.capacity * s.pageSize :=
        Nat.le_trans (Nat.le_add_right _ _) (block_le (h.slot_lt key slot hslot) s.pageSize)
      rw [hrel.readAt hle] at hread
      cases hread
    · rintro found ⟨⟩
  | loaded _ hfile hslot' hread =>
    obtain rfl := Option.some.inj (hslot.symm.trans hslot')
    refine ⟨Or.inr rfl, fun _ => ⟨_, rfl⟩, ?_⟩
    rintro found ⟨⟩
    refine ⟨Bytes.length_fit _ _, ?_⟩
    intro o ho
    rw [SwapRead.data, ByteStore.getD_fit _ _ _ ho, BackingFile.readAt_ok hread,
      ByteStore.getD_read _ _ _ _ ho, byte, hfile]

end Swapper

end VirtualMemory
