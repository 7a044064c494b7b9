import VirtualMemory.Proofs.SwapSlots

/-!
# The swap after closing

Closing takes the file away, and with it the slots and the marks of all pages; how far the file had
grown is still known. Closing again does nothing.
-/

namespace VirtualMemory.Swapper

variable {s : Swapper} {key : PageKey} {slot : Nat}

def shut (s : Swapper) : Swapper :=
  match s.file with
  | some _ => { s with file := none, slots := .empty, pending := .empty, freeSlots := [] }
  | none => s

/-- Closing cannot fail. -/
theorem close_ends (s : Swapper) : close.Ends s fun r s' => r = .ok () ∧ s' = s.shut := by
  simp only [close, shut, Op.ends_bind, Op.ends_get]
  cases hfile : s.file with
  | none => exact ⟨rfl, rfl⟩
  | some file =>
    simp only [Op.ends_ite, Op.ends_bind, Op.ends_notify, Op.ends_set]
    split
    · exact ⟨trivial, trivial⟩
    · exact ⟨trivial, trivial⟩

theorem isOpen_shut (s : Swapper) : s.shut.isOpen = false := by
  unfold shut
  split
  next => rfl
  next hfile => rw [isOpen, hfile, Option.isSome_none]

theorem shut_of_open (hopen : s.isOpen = true) :
    s.shut = { s with file := none, slots := .empty, pending := .empty, freeSlots := [] } := by
  obtain ⟨file, hfile⟩ := Option.isSome_iff_exists.mp hopen
  rw [shut, hfile]

theorem file_of_closed (hclosed : s.isOpen = false) : s.file = none := by
  rwa [isOpen, Option.isSome_eq_false_iff, Option.isNone_iff_eq_none] at hclosed

/-- Closing again does nothing. -/
theorem shut_of_closed (hclosed : s.isOpen = false) : s.shut = s := by
  rw [shut, file_of_closed hclosed]

theorem pageSize_shut (s : Swapper) : s.shut.pageSize = s.pageSize := by
  unfold shut
  split <;> rfl

theorem capacity_shut (s : Swapper) : s.shut.capacity = s.capacity := by
  unfold shut
  split <;> rfl

/-- Closing only takes slots away. -/
theorem slot?_of_shut (h : s.shut.slot? key = some slot) : s.slot? key = some slot := by
  unfold shut at h
  split at h
  next => cases h
  next => exact h

theorem isPending_of_shut (h : s.shut.isPending key = true) : s.isPending key = true := by
  unfold shut at h
  split at h
  next => cases h
  next => exact h

theorem freeSlots_shut (s : Swapper) : s.shut.freeSlots.Sublist s.freeSlots := by
  unfold shut
  split
  · exact List.nil_sublist _
  · exact List.Sublist.refl _

/-- A closed swapper has no slots, no marks and no free list left to account for. -/
theorem WellFormed.shut (h : s.WellFormed) : s.shut.WellFormed where
  slot_lt := by
    intro k i hk
    rw [capacity_shut]
    exact h.slot_lt k i (slot?_of_shut hk)
  slot_unique := by
    intro k k' i hk hk'
    exact h.slot_unique k k' i (slot?_of_shut hk) (slot?_of_shut hk')
  free_nodup := h.free_nodup.sublist s.freeSlots_shut
  free_lt := by
    intro i hi
    rw [capacity_shut]
    exact h.free_lt i (s.freeSlots_shut.subset hi)
  free_unused := by
    intro i hi k hk
    exact h.free_unused i (s.freeSlots_shut.subset hi) k (slot?_of_shut hk)
  covered := by
    intro hopen
    rw [isOpen_shut] at hopen
    cases hopen
  pending_slotless := by
    intro k hp
    have hnone := h.pending_slotless k (isPending_of_shut hp)
    cases hslot : s.shut.slot? k with
    | none => rfl
    | some i =>
      rw [slot?_of_shut hslot] at hnone
      cases hnone

end VirtualMemory.Swapper
