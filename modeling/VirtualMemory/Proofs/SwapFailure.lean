import VirtualMemory.Proofs.SwapCalls

/-!
# Writes that fail

A write that fails without touching the file changes nothing if it was refused or if the page had a
slot. Otherwise the page is given the next slot before the file is asked, and keeps it: the page is
no longer marked, and reads as whatever stands there (`Stranded`).
-/

namespace VirtualMemory.Swapper

variable {s s' : Swapper} {key : PageKey} {page : Bytes} {file : BackingFile}

/-- The page is left with the next slot, which was never written for it. -/
structure Stranded (s s' : Swapper) (key : PageKey) : Prop where
  slot : s'.slot? key = some s.nextSlot
  unmarked : s'.isPending key = false
  /-- The slot comes off the free list, or else the file counts as one slot longer. -/
  taken : s.freeSlots = s.nextSlot :: s'.freeSlots ∧ s'.capacity = s.capacity ∨
    s.freeSlots = [] ∧ s'.freeSlots = [] ∧ s'.capacity = s.capacity + 1
  others : ∀ k ≠ key, s'.slot? k = s.slot? k ∧ s'.isPending k = s.isPending k
  /-- Other pages read as before. -/
  othersRead : ∀ k ≠ key,
    (readInto k s'.pageSize s').result = (readInto k s.pageSize s).result
  /-- This one read as zeros, and now reads as what the slot was left with. -/
  reads : (readInto key s.pageSize s).result = .ok (.zeroFilled (Bytes.zeros s.pageSize)) ∧
    ∀ file, s.file = some file → (readInto key s'.pageSize s').result =
      standing file s.pageSize (some s.nextSlot)

theorem stranded_taking (hfile : s.file = some file) (hslot : s.slot? key = none) :
    Stranded s (s.taking key) key := by
  have hown : ∀ k, (s.taking key).slot? k = if k = key then some s.nextSlot else s.slot? k :=
    slot?_giving s key _ _ _
  have hpending : ∀ k, (s.taking key).isPending k = true ↔ k ≠ key ∧ s.isPending k = true :=
    isPending_giving s key _ _ _
  have hread : ∀ k, (readInto k (s.taking key).pageSize (s.taking key)).result =
      standing file s.pageSize ((s.taking key).slot? k) := by
    intro k
    exact readInto_result (s := s.taking key) hfile k
  constructor
  · rw [hown, if_pos rfl]
  · rw [Bool.eq_false_iff]
    intro hp
    exact ((hpending key).mp hp).1 rfl
  · unfold nextSlot taking
    cases s.freeSlots with
    | nil => exact Or.inr ⟨rfl, rfl, rfl⟩
    | cons slot rest => exact Or.inl ⟨rfl, rfl⟩
  · intro k hk
    refine ⟨(hown k).trans (if_neg hk), ?_⟩
    rw [Bool.eq_iff_iff]
    exact (hpending k).trans (and_iff_right hk)
  · intro k hk
    rw [hread, readInto_result hfile, hown, if_neg hk]
  · refine ⟨(readInto_result hfile key).trans (by rw [hslot, standing]), ?_⟩
    intro file' hfile'
    obtain rfl := Option.some.inj (hfile.symm.trans hfile')
    rw [hread, hown, if_pos rfl]

/-- A write that leaves the file alone does no more than to assign the slot. -/
theorem writing_of_clean (hclean : (s.writing file key page).file = s.file) :
    s.writing file key page = (s.allocateSlot key).2 := by
  rw [← file_allocateSlot s key] at hclean
  exact congrArg (fun file => { (s.allocateSlot key).2 with file := file }) hclean

/-- A write that fails and leaves the file alone changes nothing, except where an open swap is given
a whole page that has no slot: then the page is left with a slot that it never wrote. -/
theorem failed_write_atomic {e : MemoryError} (hfails : (write key page s).result = .error e)
    (hclean : (write key page s).state.file = s.file) :
    ((write key page s).state = s ↔
        page.length ≠ s.pageSize ∨ s.isOpen = false ∨ s.slot? key ≠ none) ∧
      (page.length = s.pageSize → s.isOpen = true → s.slot? key = none →
        Stranded s (write key page s).state key) := by
  have hw : Written s key page (write key page s).result (write key page s).state :=
    write_written s key page
  rw [hfails] at hw
  generalize (write key page s).state = s' at hw hclean
  cases hw with
  | misfit hsize =>
    exact ⟨⟨fun _ => Or.inl hsize, fun _ => rfl⟩, fun hsize' => absurd hsize' hsize⟩
  | closed hsize hclosed =>
    refine ⟨⟨fun _ => Or.inr (Or.inl hclosed), fun _ => rfl⟩, ?_⟩
    intro _ hopen
    exact absurd (hclosed.symm.trans hopen) Bool.false_ne_true
  | failed hsize hfile _ =>
    rw [writing_of_clean hclean]
    cases hslot : s.slot? key with
    | some slot =>
      rw [allocateSlot_of_slot hslot]
      refine ⟨⟨fun _ => Or.inr (Or.inr (Option.some_ne_none slot)), fun _ => rfl⟩, ?_⟩
      intro _ _ hnone
      cases hnone
    | none =>
      rw [allocateSlot_of_slotless hslot]
      have hstranded := stranded_taking hfile hslot
      refine ⟨⟨?_, ?_⟩, fun _ _ _ => hstranded⟩
      · intro hsame
        have hsame : s.taking key = s := hsame
        have hown := hstranded.slot
        rw [hsame, hslot] at hown
        cases hown
      · rintro (hsize' | hclosed | hsome)
        · exact absurd hsize hsize'
        · rw [isOpen_of_file hfile] at hclosed
          cases hclosed
        · exact absurd rfl hsome

/-- A slot with the page of one process was given back, and from now on no write succeeds. -/
def refusing : Swapper :=
  ((ofFile (.faulty {} {}) 4).after
    [.markPending ⟨2, 0⟩, .freeSlot ⟨1, 0⟩, .write ⟨3, 0⟩ [3, 3, 3, 3],
      .write ⟨1, 0⟩ [7, 7, 7, 7]]).setFaults { write := some .ioFailure }

/-- A page that has its slot keeps it; another one takes the slot that was given back. -/
theorem failed_write_atomic_refusing :
    (write ⟨3, 0⟩ [9, 9, 9, 9] refusing).result = .error .swapFailure ∧
      (write ⟨3, 0⟩ [9, 9, 9, 9] refusing).state = refusing ∧
      (write ⟨2, 0⟩ [9, 9, 9, 9] refusing).result = .error .swapFailure ∧
      Stranded refusing (write ⟨2, 0⟩ [9, 9, 9, 9] refusing).state ⟨2, 0⟩ := by
  have hkept : (write ⟨3, 0⟩ [9, 9, 9, 9] refusing).result = .error .swapFailure := by
    decide +kernel
  have hfails : (write ⟨2, 0⟩ [9, 9, 9, 9] refusing).result = .error .swapFailure := by
    decide +kernel
  refine ⟨hkept, (failed_write_atomic hkept (by decide +kernel)).1.mpr (Or.inr (Or.inr ?_)), hfails,
    (failed_write_atomic hfails (by decide +kernel)).2 ?_ ?_ ?_⟩
  · decide +kernel
  · decide +kernel
  · decide +kernel
  · decide +kernel

/-- The write of a marked page fails and leaves the file alone. The page read as zeros; now it is
not marked and reads as the page of another process. -/
theorem failed_write_exposes_page :
    (write ⟨2, 0⟩ [9, 9, 9, 9] refusing).result = .error .swapFailure ∧
      (write ⟨2, 0⟩ [9, 9, 9, 9] refusing).state.file = refusing.file ∧
      refusing.isPending ⟨2, 0⟩ = true ∧
      (write ⟨2, 0⟩ [9, 9, 9, 9] refusing).state.isPending ⟨2, 0⟩ = false ∧
      (readInto ⟨2, 0⟩ 4 refusing).result = .ok (.zeroFilled [0, 0, 0, 0]) ∧
      (readInto ⟨2, 0⟩ 4 (write ⟨2, 0⟩ [9, 9, 9, 9] refusing).state).result =
        .ok (.loaded 0 [7, 7, 7, 7]) := by
  decide +kernel

end VirtualMemory.Swapper
