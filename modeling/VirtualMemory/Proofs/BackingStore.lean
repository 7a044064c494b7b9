import VirtualMemory.BackingFile

/-!
# What a file holds after a write

Whatever kind of file it is, and whether its environment makes it fail or not, a write changes no
byte outside of the range that it was asked to write, and one that succeeds leaves its data there.
A read that succeeds delivers the bytes of the file, and zeros past its end.
-/

namespace VirtualMemory

/-- A list of bytes is told by its length and its bytes. -/
theorem Bytes.eq_map_range {data : Bytes} {n : Nat} {g : Nat → UInt8} (hlength : data.length = n)
    (h : ∀ i < n, data.getD i 0 = g i) : data = (List.range n).map g := by
  refine List.ext_getElem (by simp [hlength]) ?_
  intro i hi _
  rw [List.getElem_map, List.getElem_range, ← h i (hlength ▸ hi), List.getD_eq_getElem?_getD,
    List.getElem?_eq_getElem hi, Option.getD_some]

namespace ByteStore

variable {s : ByteStore}

theorem getD_read (s : ByteStore) (start length i : Nat) (hi : i < length) :
    (s.read start length).getD i 0 = s.byte (start + i) := by
  rw [List.getD_eq_getElem?_getD, read_eq, List.getElem?_map]
  by_cases h : i < s.size - start
  · rw [List.getElem?_range' (by omega), Nat.one_mul]
    rfl
  · rw [List.getElem?_eq_none (by simp; omega), byte_eq_zero s (by omega)]
    rfl

theorem getD_fit (n : Nat) (data : Bytes) (i : Nat) (hi : i < n) :
    (Bytes.fit n data).getD i 0 = data.getD i 0 := by
  have hl : i < (Bytes.fit n data).length := by rwa [Bytes.length_fit]
  rw [List.getD_eq_getElem?_getD, List.getElem?_eq_getElem hl, Option.getD_some,
    Bytes.getElem_fit]

/-- Outside of the range of a write nothing changes. -/
theorem byte_poke_outside (s : ByteStore) {start address : Nat} {data : Bytes}
    (h : address < start ∨ start + data.length ≤ address) :
    (s.poke start data).byte address = s.byte address := by
  rw [byte_poke, if_neg]
  omega

/-- Inside of the range of a write that fits stand its data. -/
theorem byte_poke_inside (s : ByteStore) {start i : Nat} {data : Bytes} (hi : i < data.length)
    (hfit : start + data.length ≤ s.size) :
    (s.poke start data).byte (start + i) = data.getD i 0 := by
  rw [byte_poke, if_pos (by omega), Nat.add_sub_cancel_left]

theorem byte_overwrite_outside (s : ByteStore) {start address : Nat} {data : Bytes}
    (h : address < start ∨ start + data.length ≤ address) :
    (s.overwrite start data).byte address = s.byte address := by
  unfold overwrite
  split
  · rfl
  · rw [byte_poke_outside _ h, byte_extend]

theorem byte_overwrite_inside (s : ByteStore) {start i : Nat} {data : Bytes}
    (hi : i < data.length) : (s.overwrite start data).byte (start + i) = data.getD i 0 := by
  have hne : data.isEmpty = false := by
    cases data with
    | nil => simp at hi
    | cons => rfl
  rw [overwrite, hne, if_neg Bool.false_ne_true, byte_poke_inside _ hi]
  exact Nat.le_max_right _ _

end ByteStore

namespace BackingFile

/-- The bytes of a file. -/
def store : BackingFile → ByteStore
  | .memory f => f.contents
  | .host f => f.contents
  | .faulty f _ => f.contents

/-- A read that succeeds delivers what the file holds. -/
theorem readAt_ok {f : BackingFile} {offset length : Nat} {data : Bytes}
    (h : f.readAt offset length = .ok data) : data = f.store.read offset length := by
  cases f with
  | memory f =>
    simp only [readAt, MemoryFile.readAt] at h
    split at h
    · cases h
    · exact (Except.ok.inj h).symm
  | host f =>
    simp only [readAt, HostFile.readAt] at h
    split at h
    · cases h
    · split at h
      · cases h
      · exact (Except.ok.inj h).symm
  | faulty f faults =>
    simp only [readAt] at h
    split at h
    · cases h
    · simp only [MemoryFile.readAt] at h
      split at h
      · cases h
      · exact (Except.ok.inj h).symm

theorem memory_writeAt_outside (f : MemoryFile) {offset address : Nat} {data : Bytes}
    (h : address < offset ∨ offset + data.length ≤ address) :
    (f.writeAt offset data).2.contents.byte address = f.contents.byte address := by
  unfold MemoryFile.writeAt
  split
  · rfl
  · simp only [ByteStore.byte_poke_outside _ h, ByteStore.byte_extend]

/-- A write, successful or not, keeps to its range. -/
theorem writeAt_outside (f : BackingFile) {offset address : Nat} {data : Bytes}
    (h : address < offset ∨ offset + data.length ≤ address) :
    (f.writeAt offset data).2.store.byte address = f.store.byte address := by
  cases f with
  | memory f => exact memory_writeAt_outside f h
  | host f =>
    simp only [writeAt, HostFile.writeAt, store]
    split
    · rfl
    · split
      · rfl
      · exact ByteStore.byte_overwrite_outside _ h
  | faulty f faults =>
    simp only [writeAt]
    split
    · refine ByteStore.byte_overwrite_outside _ ?_
      rw [List.length_take]
      omega
    · exact memory_writeAt_outside f h

theorem memory_writeAt_inside {f : MemoryFile} {offset n i : Nat} {data : Bytes}
    (h : (f.writeAt offset data).1 = .ok n) (hi : i < data.length) :
    (f.writeAt offset data).2.contents.byte (offset + i) = data.getD i 0 := by
  unfold MemoryFile.writeAt at h ⊢
  split at h
  · cases h
  next hopen =>
    rw [if_neg hopen]
    refine ByteStore.byte_poke_inside _ hi ?_
    exact Nat.le_max_right _ _

/-- A write that succeeds leaves its data. -/
theorem writeAt_inside {f : BackingFile} {offset n i : Nat} {data : Bytes}
    (h : (f.writeAt offset data).1 = .ok n) (hi : i < data.length) :
    (f.writeAt offset data).2.store.byte (offset + i) = data.getD i 0 := by
  cases f with
  | memory f => exact memory_writeAt_inside h hi
  | host f =>
    simp only [writeAt, HostFile.writeAt, store] at h ⊢
    split at h
    · cases h
    next hopen =>
      split at h
      · cases h
      next hlimit =>
        rw [if_neg hopen, if_neg hlimit]
        exact ByteStore.byte_overwrite_inside _ hi
  | faulty f faults =>
    simp only [writeAt] at h ⊢
    split at h
    · cases h
    next hnone =>
      exact memory_writeAt_inside h hi

end BackingFile

end VirtualMemory
