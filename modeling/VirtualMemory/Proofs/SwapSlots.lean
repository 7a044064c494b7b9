import VirtualMemory.Swap
import VirtualMemory.Proofs.BackingStore
import VirtualMemory.Proofs.Outcome
import Mathlib.Data.List.Nodup

/-!
# Swap slots

In a well formed swap no slot is assigned twice or assigned while it is free, and no page with a
slot is pending. Writing a page gives it a slot of its own, so that what the slots of the other
pages hold stays, even when the write fails half way; a write that succeeds can be read back.
-/

namespace VirtualMemory.Swapper

variable {s : Swapper} {key k : PageKey}

/-- The slots below the capacity are divided between the pages and the free list. Closing the file
forgets both, but not how far it had grown. -/
structure WellFormed (s : Swapper) : Prop where
  slot_lt : ∀ k i, s.slot? k = some i → i < s.capacity
  slot_unique : ∀ k k' i, s.slot? k = some i → s.slot? k' = some i → k = k'
  free_nodup : s.freeSlots.Nodup
  free_lt : ∀ i ∈ s.freeSlots, i < s.capacity
  free_unused : ∀ i ∈ s.freeSlots, ∀ k, s.slot? k ≠ some i
  covered : s.isOpen = true → ∀ i < s.capacity, i ∈ s.freeSlots ∨ ∃ k, s.slot? k = some i
  pending_slotless : ∀ k, s.isPending k = true → s.slot? k = none

/-- Byte `offset` of a slot of the file; zero without a file. -/
def byte (s : Swapper) (slot offset : Nat) : UInt8 :=
  match s.file with
  | some file => file.store.byte (slotOffset slot s.pageSize + offset)
  | none => 0

theorem isOpen_of_file {file : BackingFile} (h : s.file = some file) : s.isOpen = true := by
  rw [isOpen, h, Option.isSome_some]

theorem wellFormed_ofFile (file : BackingFile) (pageSize : Nat) :
    (ofFile file pageSize).WellFormed := by
  constructor
  · intro k i h
    cases h
  · intro k k' i h
    cases h
  · exact List.nodup_nil
  · intro i h
    cases h
  · intro i h
    cases h
  · intro _ i h
    cases h
  · intro k h
    rfl

/-! ## Pending pages -/

theorem slot?_markPending (s : Swapper) (key k : PageKey) :
    (s.markPending key).slot? k = s.slot? k := by
  unfold markPending
  split <;> rfl

/-- A page with a slot is not marked. -/
theorem isPending_markPending (s : Swapper) (key k : PageKey) :
    (s.markPending key).isPending k = true ↔
      s.isPending k = true ∨ (k = key ∧ s.slot? key = none) := by
  unfold markPending
  by_cases hc : s.slots.contains key = true
  · have hsome : s.slot? key ≠ none := by
      rw [OrderedMap.contains, Option.isSome_iff_ne_none] at hc
      exact hc
    rw [if_pos hc]
    simp [hsome]
  · have hnone : s.slot? key = none := by
      rw [OrderedMap.contains, Bool.not_eq_true, Option.isSome_eq_false_iff,
        Option.isNone_iff_eq_none] at hc
      exact hc
    rw [if_neg hc]
    simp only [isPending, OrderedMap.contains, OrderedMap.get?_insert, hnone]
    by_cases hk : k = key
    · simp [hk]
    · simp [hk]

theorem slot?_markAll (s : Swapper) (keys : List PageKey) (k : PageKey) :
    (keys.foldr (fun key s => s.markPending key) s).slot? k = s.slot? k := by
  induction keys with
  | nil => rfl
  | cons key rest ih => rw [List.foldr_cons, slot?_markPending, ih]

/-- Pages are marked one after the other: all of them are pending that have no slot. -/
theorem isPending_markAll (s : Swapper) (keys : List PageKey) (k : PageKey) :
    (keys.foldr (fun key s => s.markPending key) s).isPending k = true ↔
      s.isPending k = true ∨ (k ∈ keys ∧ s.slot? k = none) := by
  induction keys with
  | nil => simp
  | cons key rest ih =>
    rw [List.foldr_cons, isPending_markPending, ih, slot?_markAll, List.mem_cons]
    constructor
    · rintro ((h | ⟨hmem, hnone⟩) | ⟨rfl, hnone⟩)
      · exact Or.inl h
      · exact Or.inr ⟨Or.inr hmem, hnone⟩
      · exact Or.inr ⟨Or.inl rfl, hnone⟩
    · rintro (h | ⟨rfl | hmem, hnone⟩)
      · exact Or.inl (Or.inl h)
      · exact Or.inr ⟨rfl, hnone⟩
      · exact Or.inl (Or.inr ⟨hmem, hnone⟩)

structure SameSlots (s s' : Swapper) : Prop where
  file : s'.file = s.file
  pageSize : s'.pageSize = s.pageSize
  slots : s'.slots = s.slots
  freeSlots : s'.freeSlots = s.freeSlots
  capacity : s'.capacity = s.capacity
  counters : s'.counters = s.counters

theorem sameSlots_markAll (s : Swapper) (keys : List PageKey) :
    SameSlots s (keys.foldr (fun key s => s.markPending key) s) := by
  induction keys with
  | nil => exact ⟨rfl, rfl, rfl, rfl, rfl, rfl⟩
  | cons key rest ih =>
    rw [List.foldr_cons, markPending]
    split
    · exact ih
    · exact ⟨ih.file, ih.pageSize, ih.slots, ih.freeSlots, ih.capacity, ih.counters⟩

theorem SameSlots.isOpen {s s' : Swapper} (h : SameSlots s s') : s'.isOpen = s.isOpen := by
  rw [Swapper.isOpen, Swapper.isOpen, h.file]

theorem SameSlots.slot? {s s' : Swapper} (h : SameSlots s s') (k : PageKey) :
    s'.slot? k = s.slot? k := by
  rw [Swapper.slot?, Swapper.slot?, h.slots]

theorem SameSlots.byte {s s' : Swapper} (h : SameSlots s s') (slot offset : Nat) :
    s'.byte slot offset = s.byte slot offset := by
  rw [Swapper.byte, Swapper.byte, h.file, h.pageSize]

/-- Marking gives no slots, so the invariant asks for nothing but that pages with slots stay
unmarked. -/
theorem WellFormed.markAll (h : s.WellFormed) (keys : List PageKey) :
    (keys.foldr (fun key s => s.markPending key) s).WellFormed := by
  have hsame := sameSlots_markAll s keys
  constructor
  · intro k i hk
    rw [hsame.capacity]
    exact h.slot_lt k i (hsame.slot? k ▸ hk)
  · intro k k' i hk hk'
    exact h.slot_unique k k' i (hsame.slot? k ▸ hk) (hsame.slot? k' ▸ hk')
  · exact hsame.freeSlots ▸ h.free_nodup
  · rw [hsame.capacity, hsame.freeSlots]
    exact h.free_lt
  · intro i hi k
    rw [hsame.slot?]
    exact h.free_unused i (hsame.freeSlots ▸ hi) k
  · intro hopen i hi
    simp only [hsame.freeSlots, hsame.slot?]
    exact h.covered (hsame.isOpen ▸ hopen) i (hsame.capacity ▸ hi)
  · intro k hk
    rw [hsame.slot?]
    rcases (isPending_markAll s keys k).mp hk with hk | ⟨-, hnone⟩
    · exact h.pending_slotless k hk
    · exact hnone

/-! ## Assigning a slot -/

/-- `s` after `key` was given `slot`, with the free list and the capacity that are left. -/
def giving (s : Swapper) (key : PageKey) (slot : Nat) (free : List Nat) (capacity : Nat) :
    Swapper :=
  { s with
    pending := s.pending.erase key
    slots := s.slots.insert key slot
    freeSlots := free
    capacity := capacity }

theorem slot?_giving (s : Swapper) (key : PageKey) (slot : Nat) (free : List Nat)
    (capacity : Nat) (k : PageKey) :
    (s.giving key slot free capacity).slot? k = if k = key then some slot else s.slot? k :=
  OrderedMap.get?_insert s.slots key k slot

theorem isPending_giving (s : Swapper) (key : PageKey) (slot : Nat) (free : List Nat)
    (capacity : Nat) (k : PageKey) :
    (s.giving key slot free capacity).isPending k = true ↔ k ≠ key ∧ s.isPending k = true := by
  simp only [isPending, OrderedMap.contains, giving, OrderedMap.get?_erase]
  by_cases h : k = key
  · simp [h]
  · simp [h]

theorem allocateSlot_of_slot {slot : Nat} (h : s.slot? key = some slot) :
    s.allocateSlot key = (slot, s) := by
  rw [allocateSlot, show s.slots.get? key = some slot from h]

/-- A slot that was given back is used before the file grows. -/
theorem allocateSlot_of_free {slot : Nat} {rest : List Nat} (h : s.slot? key = none)
    (hf : s.freeSlots = slot :: rest) :
    s.allocateSlot key = (slot, s.giving key slot rest s.capacity) := by
  rw [allocateSlot, show s.slots.get? key = none from h]
  simp only [hf]
  rfl

/-- Without a free slot the file grows by one. -/
theorem allocateSlot_of_full (h : s.slot? key = none) (hf : s.freeSlots = []) :
    s.allocateSlot key = (s.capacity, s.giving key s.capacity [] (s.capacity + 1)) := by
  rw [allocateSlot, show s.slots.get? key = none from h]
  simp only [hf]
  rfl

/-- A page that has a slot keeps it, any other is given one. -/
theorem allocateSlot_gives (s : Swapper) (key : PageKey) :
    (s.allocateSlot key).2 = s ∨
      ∃ slot free capacity, (s.allocateSlot key).2 = s.giving key slot free capacity := by
  cases hslot : s.slot? key with
  | some slot =>
    rw [allocateSlot_of_slot hslot]
    exact Or.inl rfl
  | none =>
    cases hfree : s.freeSlots with
    | cons slot rest =>
      rw [allocateSlot_of_free hslot hfree]
      exact Or.inr ⟨_, _, _, rfl⟩
    | nil =>
      rw [allocateSlot_of_full hslot hfree]
      exact Or.inr ⟨_, _, _, rfl⟩

theorem pageSize_allocateSlot (s : Swapper) (key : PageKey) :
    (s.allocateSlot key).2.pageSize = s.pageSize := by
  rcases allocateSlot_gives s key with h | ⟨slot, free, capacity, h⟩
  · rw [h]
  · rw [h, giving]

theorem file_allocateSlot (s : Swapper) (key : PageKey) :
    (s.allocateSlot key).2.file = s.file := by
  rcases allocateSlot_gives s key with h | ⟨slot, free, capacity, h⟩
  · rw [h]
  · rw [h, giving]

theorem counters_allocateSlot (s : Swapper) (key : PageKey) :
    (s.allocateSlot key).2.counters = s.counters := by
  rcases allocateSlot_gives s key with h | ⟨slot, free, capacity, h⟩
  · rw [h]
  · rw [h, giving]

/-- A slot that no page has and that leaves the free list keeps the accounting in order. -/
theorem WellFormed.giving (h : s.WellFormed) {slot capacity : Nat} {free : List Nat}
    (hlt : slot < capacity) (hcap : s.capacity ≤ capacity)
    (hunused : ∀ k, s.slot? k ≠ some slot) (hnew : s.slot? key = none) (hnodup : free.Nodup)
    (hnot : slot ∉ free) (hfree : ∀ i ∈ free, i ∈ s.freeSlots)
    (hcover : s.isOpen = true → ∀ i < capacity, i ≠ slot → i ∉ free → ∃ k, s.slot? k = some i) :
    (s.giving key slot free capacity).WellFormed := by
  constructor
  · intro k i hk
    rw [slot?_giving] at hk
    split at hk
    · exact Option.some.inj hk ▸ hlt
    · exact Nat.lt_of_lt_of_le (h.slot_lt k i hk) hcap
  · intro k k' i hk hk'
    rw [slot?_giving] at hk hk'
    split at hk
    next he =>
      split at hk'
      next he' => rw [he, he']
      next => exact absurd ((Option.some.inj hk).symm ▸ hk') (hunused k')
    next =>
      split at hk'
      next => exact absurd ((Option.some.inj hk').symm ▸ hk) (hunused k)
      next => exact h.slot_unique k k' i hk hk'
  · exact hnodup
  · intro i hi
    exact Nat.lt_of_lt_of_le (h.free_lt i (hfree i hi)) hcap
  · intro i hi k
    rw [slot?_giving]
    split
    · rintro ⟨⟩
      exact hnot hi
    · exact h.free_unused i (hfree i hi) k
  · intro hopen i hi
    simp only [slot?_giving]
    by_cases hs : i = slot
    · exact Or.inr ⟨key, by rw [if_pos rfl, hs]⟩
    · by_cases hm : i ∈ free
      · exact Or.inl hm
      · obtain ⟨k, hk⟩ := hcover hopen i hi hs hm
        have hne : k ≠ key := by
          rintro rfl
          rw [hnew] at hk
          cases hk
        exact Or.inr ⟨k, (if_neg hne).trans hk⟩
  · intro k hk
    obtain ⟨hne, hp⟩ := (isPending_giving s key slot free capacity k).mp hk
    rw [slot?_giving, if_neg hne]
    exact h.pending_slotless k hp

/-- `s'` is `s` after `key` was given `slot`, unless it had it already. -/
structure Assigned (s : Swapper) (key : PageKey) (slot : Nat) (s' : Swapper) : Prop where
  file : s'.file = s.file
  pageSize : s'.pageSize = s.pageSize
  counters : s'.counters = s.counters
  own : s'.slot? key = some slot
  kept : ∀ i, s.slot? key = some i → slot = i
  others : ∀ k, k ≠ key → s'.slot? k = s.slot? k
  pending : ∀ k, s'.isPending k = true ↔ k ≠ key ∧ s.isPending k = true
  wellFormed : s'.WellFormed
  le_capacity : s.capacity ≤ s'.capacity

theorem Assigned.giving {slot capacity : Nat} {free : List Nat} (hnew : s.slot? key = none)
    (hwf : (s.giving key slot free capacity).WellFormed) (hcap : s.capacity ≤ capacity) :
    Assigned s key slot (s.giving key slot free capacity) where
  file := rfl
  pageSize := rfl
  counters := rfl
  own := (slot?_giving s key slot free capacity key).trans (if_pos rfl)
  kept := by
    intro i hi
    rw [hnew] at hi
    cases hi
  others := by
    intro k hk
    exact (slot?_giving s key slot free capacity k).trans (if_neg hk)
  pending := isPending_giving s key slot free capacity
  wellFormed := hwf
  le_capacity := hcap

/-- The page has its slot then, and nobody else has lost one. -/
theorem assigned_allocateSlot (h : s.WellFormed) (key : PageKey) :
    Assigned s key (s.allocateSlot key).1 (s.allocateSlot key).2 := by
  cases hslot : s.slot? key with
  | some slot =>
    rw [allocateSlot_of_slot hslot]
    refine ⟨rfl, rfl, rfl, hslot, ?_, fun _ _ => rfl, ?_, h, Nat.le_refl _⟩
    · intro i hi
      exact Option.some.inj (hslot.symm.trans hi)
    · intro k
      have hne : s.isPending k = true → k ≠ key := by
        rintro hp rfl
        rw [h.pending_slotless k hp] at hslot
        cases hslot
      exact ⟨fun hp => ⟨hne hp, hp⟩, fun hp => hp.2⟩
  | none =>
    cases hfree : s.freeSlots with
    | cons slot rest =>
      rw [allocateSlot_of_free hslot hfree]
      have hmem : slot ∈ s.freeSlots := hfree ▸ List.mem_cons_self
      have hnodup := h.free_nodup
      rw [hfree, List.nodup_cons] at hnodup
      refine Assigned.giving hslot ?_ (Nat.le_refl _)
      refine h.giving (h.free_lt slot hmem) (Nat.le_refl _) (h.free_unused slot hmem) hslot
        hnodup.2 hnodup.1 ?_ ?_
      · intro i hi
        exact hfree ▸ List.mem_cons_of_mem _ hi
      · intro hopen i hi hs hr
        refine (h.covered hopen i hi).resolve_left ?_
        rw [hfree, List.mem_cons]
        rintro (hi | hi)
        · exact hs hi
        · exact hr hi
    | nil =>
      rw [allocateSlot_of_full hslot hfree]
      refine Assigned.giving hslot ?_ (Nat.le_succ _)
      refine h.giving (Nat.lt_succ_self _) (Nat.le_succ _) ?_ hslot List.nodup_nil
        List.not_mem_nil (fun i hi => absurd hi List.not_mem_nil) ?_
      · intro k hk
        exact absurd (h.slot_lt k _ hk) (Nat.lt_irrefl _)
      · intro hopen i hi hs hr
        refine (h.covered hopen i (by omega)).resolve_left ?_
        rw [hfree]
        exact hr

/-! ## Giving slots back -/

theorem freeSlot_of_slot {slot : Nat} (h : s.slot? key = some slot) :
    s.freeSlot key =
      { s with slots := s.slots.erase key, freeSlots := s.freeSlots ++ [slot] } := by
  rw [freeSlot, show s.slots.get? key = some slot from h]

theorem freeSlot_of_none (h : s.slot? key = none) : s.freeSlot key = s := by
  rw [freeSlot, show s.slots.get? key = none from h]

/-- Only the page that gives its slot back is without one. -/
theorem slot?_freeSlot (s : Swapper) (key k : PageKey) :
    (s.freeSlot key).slot? k = if k = key then none else s.slot? k := by
  cases hslot : s.slot? key with
  | some slot =>
    rw [freeSlot_of_slot hslot]
    exact OrderedMap.get?_erase s.slots key k
  | none =>
    rw [freeSlot_of_none hslot]
    split
    next hk => rw [hk, hslot]
    next => rfl

structure SameFile (s s' : Swapper) : Prop where
  file : s'.file = s.file
  pageSize : s'.pageSize = s.pageSize
  pending : s'.pending = s.pending
  capacity : s'.capacity = s.capacity
  counters : s'.counters = s.counters

theorem sameFile_freeSlot (s : Swapper) (key : PageKey) : SameFile s (s.freeSlot key) := by
  unfold freeSlot
  split
  · exact ⟨rfl, rfl, rfl, rfl, rfl⟩
  · exact ⟨rfl, rfl, rfl, rfl, rfl⟩

theorem SameFile.isOpen {s s' : Swapper} (h : SameFile s s') : s'.isOpen = s.isOpen := by
  rw [Swapper.isOpen, Swapper.isOpen, h.file]

theorem SameFile.isPending {s s' : Swapper} (h : SameFile s s') (k : PageKey) :
    s'.isPending k = s.isPending k := by
  rw [Swapper.isPending, Swapper.isPending, h.pending]

/-- A slot that is given back moves from the pages to the free list. -/
theorem WellFormed.freeSlot (h : s.WellFormed) (key : PageKey) : (s.freeSlot key).WellFormed := by
  cases hslot : s.slot? key with
  | none =>
    rw [freeSlot_of_none hslot]
    exact h
  | some slot =>
    have hfree : (s.freeSlot key).freeSlots = s.freeSlots ++ [slot] := by
      rw [freeSlot_of_slot hslot]
    have hsame := sameFile_freeSlot s key
    constructor
    · intro k i hk
      rw [slot?_freeSlot] at hk
      split at hk
      · cases hk
      · exact hsame.capacity ▸ h.slot_lt k i hk
    · intro k k' i hk hk'
      rw [slot?_freeSlot] at hk hk'
      split at hk
      · cases hk
      split at hk'
      · cases hk'
      exact h.slot_unique k k' i hk hk'
    · rw [hfree, List.nodup_append]
      refine ⟨h.free_nodup, List.nodup_singleton slot, ?_⟩
      rintro i hi j hj rfl
      exact h.free_unused i hi key (List.mem_singleton.mp hj ▸ hslot)
    · intro i hi
      rw [hfree, List.mem_append, List.mem_singleton] at hi
      rw [hsame.capacity]
      rcases hi with hi | rfl
      · exact h.free_lt i hi
      · exact h.slot_lt key i hslot
    · intro i hi k hk
      rw [hfree, List.mem_append, List.mem_singleton] at hi
      rw [slot?_freeSlot] at hk
      split at hk
      · cases hk
      next hne =>
        rcases hi with hi | rfl
        · exact h.free_unused i hi k hk
        · exact hne (h.slot_unique k key i hk hslot)
    · intro hopen i hi
      rw [hsame.capacity] at hi
      simp only [hfree, List.mem_append, List.mem_singleton, slot?_freeSlot]
      rcases h.covered (hsame.isOpen ▸ hopen) i hi with hi | ⟨k, hk⟩
      · exact Or.inl (Or.inl hi)
      · by_cases hkey : k = key
        · rw [hkey, hslot] at hk
          exact Or.inl (Or.inr (Option.some.inj hk).symm)
        · exact Or.inr ⟨k, (if_neg hkey).trans hk⟩
    · intro k hk
      rw [hsame.isPending] at hk
      rw [slot?_freeSlot]
      split
      · rfl
      · exact h.pending_slotless k hk

theorem WellFormed.freeAll (h : s.WellFormed) (keys : List PageKey) :
    (keys.foldl Swapper.freeSlot s).WellFormed := by
  induction keys generalizing s with
  | nil => exact h
  | cons key rest ih => exact ih (h.freeSlot key)

theorem sameFile_freeAll (s : Swapper) (keys : List PageKey) :
    SameFile s (keys.foldl Swapper.freeSlot s) := by
  induction keys generalizing s with
  | nil => exact ⟨rfl, rfl, rfl, rfl, rfl⟩
  | cons key rest ih =>
    have hone := sameFile_freeSlot s key
    have hrest := ih (s.freeSlot key)
    exact ⟨hrest.file.trans hone.file, hrest.pageSize.trans hone.pageSize,
      hrest.pending.trans hone.pending, hrest.capacity.trans hone.capacity,
      hrest.counters.trans hone.counters⟩

theorem slot?_freeAll (s : Swapper) (keys : List PageKey) (k : PageKey) :
    (keys.foldl Swapper.freeSlot s).slot? k = if k ∈ keys then none else s.slot? k := by
  induction keys generalizing s with
  | nil => simp
  | cons key rest ih =>
    rw [List.foldl_cons, ih, slot?_freeSlot]
    by_cases hr : k ∈ rest
    · simp [hr]
    · by_cases hk : k = key
      · simp [hk]
      · simp [hr, hk]

theorem mem_freeSlots_freeSlot {i : Nat} :
    i ∈ (s.freeSlot key).freeSlots ↔ i ∈ s.freeSlots ∨ s.slot? key = some i := by
  cases hslot : s.slot? key with
  | none =>
    rw [freeSlot_of_none hslot]
    simp
  | some slot =>
    rw [freeSlot_of_slot hslot]
    simp [eq_comm]

/-- The slots that are free then were free before or belonged to one of the pages. -/
theorem mem_freeSlots_freeAll {keys : List PageKey} {i : Nat} :
    i ∈ (keys.foldl Swapper.freeSlot s).freeSlots ↔
      i ∈ s.freeSlots ∨ ∃ k ∈ keys, s.slot? k = some i := by
  induction keys generalizing s with
  | nil => simp
  | cons key rest ih =>
    simp only [List.foldl_cons, ih, mem_freeSlots_freeSlot, slot?_freeSlot, List.mem_cons]
    constructor
    · rintro ((hi | hi) | ⟨k, hk, hi⟩)
      · exact Or.inl hi
      · exact Or.inr ⟨key, Or.inl rfl, hi⟩
      · split at hi
        · cases hi
        · exact Or.inr ⟨k, Or.inr hk, hi⟩
    · rintro (hi | ⟨k, rfl | hk, hi⟩)
      · exact Or.inl (Or.inl hi)
      · exact Or.inl (Or.inr hi)
      · by_cases hkey : k = key
        · exact Or.inl (Or.inr (hkey ▸ hi))
        · exact Or.inr ⟨k, hk, (if_neg hkey).trans hi⟩

/-! ## The slots as a whole -/

theorem mem_slots_values {i : Nat} : i ∈ s.slots.values ↔ ∃ k, s.slot? k = some i := by
  rw [OrderedMap.values, List.mem_map]
  constructor
  · rintro ⟨⟨k, i⟩, hp, rfl⟩
    exact ⟨k, (OrderedMap.mem_toList_iff _ _ _).mp hp⟩
  · rintro ⟨k, hk⟩
    exact ⟨(k, i), (OrderedMap.mem_toList_iff _ _ _).mpr hk, rfl⟩

/-- No two pages share a slot. -/
theorem WellFormed.nodup_slots (h : s.WellFormed) : s.slots.values.Nodup := by
  refine List.pairwise_map.mpr (List.Pairwise.imp_of_mem ?_ s.slots.ascending)
  rintro ⟨k, i⟩ ⟨k', i'⟩ hp hp' hlt heq
  have hk : s.slot? k = some i := (OrderedMap.mem_toList_iff _ _ _).mp hp
  have hk' : s.slot? k' = some i' := (OrderedMap.mem_toList_iff _ _ _).mp hp'
  obtain rfl : i = i' := heq
  obtain rfl := h.slot_unique k k' i hk hk'
  exact Nat.lt_irrefl _ hlt

/-- The slots of pages and the free ones are all slots up to the capacity, each of them once. -/
theorem WellFormed.slots_perm (h : s.WellFormed) (hopen : s.isOpen = true) :
    (s.slots.values ++ s.freeSlots).Perm (List.range s.capacity) := by
  have hnodup : (s.slots.values ++ s.freeSlots).Nodup := by
    refine List.Nodup.append h.nodup_slots h.free_nodup ?_
    intro i hi hfree
    obtain ⟨k, hk⟩ := mem_slots_values.mp hi
    exact h.free_unused i hfree k hk
  rw [List.perm_ext_iff_of_nodup hnodup List.nodup_range]
  intro i
  rw [List.mem_append, List.mem_range, mem_slots_values]
  constructor
  · rintro (⟨k, hk⟩ | hfree)
    · exact h.slot_lt k i hk
    · exact h.free_lt i hfree
  · intro hi
    exact (h.covered hopen i hi).symm

/-- The slots of the pages and the free ones add up to the capacity. -/
theorem WellFormed.count_slots (h : s.WellFormed) (hopen : s.isOpen = true) :
    s.slots.size + s.freeSlots.length = s.capacity := by
  have hlength := (h.slots_perm hopen).length_eq
  rw [List.length_append, OrderedMap.values, List.length_map, List.length_range] at hlength
  exact hlength

/-! ## The end of a process -/

/-- `s` without the pending pages of a process. -/
def unpending (s : Swapper) (pid : Pid) : Swapper :=
  { s with pending := s.pending.filter (·.pid != pid) }

theorem isPending_unpending (s : Swapper) (pid : Pid) (k : PageKey) :
    (s.unpending pid).isPending k = true ↔ k.pid ≠ pid ∧ s.isPending k = true := by
  simp only [isPending, OrderedMap.contains, unpending, OrderedMap.get?_filter]
  by_cases h : k.pid = pid
  · simp [h]
  · simp [h]

theorem WellFormed.unpending (h : s.WellFormed) (pid : Pid) : (s.unpending pid).WellFormed where
  slot_lt := h.slot_lt
  slot_unique := h.slot_unique
  free_nodup := h.free_nodup
  free_lt := h.free_lt
  free_unused := h.free_unused
  covered := h.covered
  pending_slotless := by
    intro k hk
    exact h.pending_slotless k ((isPending_unpending s pid k).mp hk).2

theorem mem_keys_of_slot? {slot : Nat} (h : s.slot? k = some slot) : k ∈ s.slots.keys :=
  List.mem_map.mpr ⟨(k, slot), (OrderedMap.mem_toList_iff _ _ _).mpr h, rfl⟩

/-- Exactly the slots of the process are given back. -/
theorem slot?_releaseProcess (s : Swapper) (pid : Pid) (k : PageKey) :
    (s.releaseProcess pid).slot? k = if k.pid = pid then none else s.slot? k := by
  rw [releaseProcess, slot?_freeAll]
  simp only [List.mem_filter, beq_iff_eq]
  by_cases hpid : k.pid = pid
  · rw [if_pos hpid]
    split
    · rfl
    next hnot =>
      cases hslot : s.slot? k with
      | none => exact hslot
      | some slot => exact absurd ⟨mem_keys_of_slot? hslot, hpid⟩ hnot
  · rw [if_neg hpid, if_neg fun h => hpid h.2]
    rfl

theorem isPending_releaseProcess (s : Swapper) (pid : Pid) (k : PageKey) :
    (s.releaseProcess pid).isPending k = true ↔ k.pid ≠ pid ∧ s.isPending k = true := by
  rw [releaseProcess, (sameFile_freeAll _ _).isPending]
  exact isPending_unpending s pid k

/-- The free slots gain those of the process, and no others. -/
theorem mem_freeSlots_releaseProcess {pid : Pid} {i : Nat} :
    i ∈ (s.releaseProcess pid).freeSlots ↔
      i ∈ s.freeSlots ∨ ∃ k, k.pid = pid ∧ s.slot? k = some i := by
  rw [releaseProcess, mem_freeSlots_freeAll]
  simp only [List.mem_filter, beq_iff_eq]
  constructor
  · rintro (hi | ⟨k, ⟨-, hk⟩, hi⟩)
    · exact Or.inl hi
    · exact Or.inr ⟨k, hk, hi⟩
  · rintro (hi | ⟨k, hk, hi⟩)
    · exact Or.inl hi
    · exact Or.inr ⟨k, ⟨mem_keys_of_slot? hi, hk⟩, hi⟩

theorem WellFormed.releaseProcess (h : s.WellFormed) (pid : Pid) :
    (s.releaseProcess pid).WellFormed :=
  (h.unpending pid).freeAll _

theorem file_releaseProcess (s : Swapper) (pid : Pid) : (s.releaseProcess pid).file = s.file :=
  (sameFile_freeAll (s.unpending pid) _).file

theorem isOpen_releaseProcess (s : Swapper) (pid : Pid) :
    (s.releaseProcess pid).isOpen = s.isOpen :=
  (sameFile_freeAll (s.unpending pid) _).isOpen

theorem pageSize_releaseProcess (s : Swapper) (pid : Pid) :
    (s.releaseProcess pid).pageSize = s.pageSize :=
  (sameFile_freeAll (s.unpending pid) _).pageSize

end VirtualMemory.Swapper
