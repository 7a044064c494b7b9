import VirtualMemory.PhysicalMemory
import VirtualMemory.Proofs.AddressArithmetic
import VirtualMemory.Proofs.BackingStore

/-!
# The contents of frames

Where memory is as large as its frames together, a frame is read and replaced as a whole, and an
access that stays inside a frame reads or replaces just the bytes that it names. One that is longer
than what is left of its frame goes on into the next frames, up to the end of memory.
-/

namespace VirtualMemory.PhysicalMemory

variable {m : PhysicalMemory} {ppn : Ppn}

/-- The bytes of memory are those of its frames. -/
def Whole (m : PhysicalMemory) : Prop := m.store.size = m.pages * m.pageSize

theorem readPage_of_lt (hlt : ppn.toNat < m.pages) :
    m.readPage ppn m.pageSize = .ok (m.store.read (ppn.toNat * m.pageSize) m.pageSize) := by
  simp [readPage, frameStart, hlt, bind, Except.bind, pure, Except.pure]

theorem length_page (h : m.Whole) (hlt : ppn.toNat < m.pages) :
    (m.store.read (ppn.toNat * m.pageSize) m.pageSize).length = m.pageSize := by
  have hle := block_le hlt m.pageSize
  rw [ByteStore.length_read, h]
  omega

theorem getD_page (m : PhysicalMemory) (ppn : Ppn) {o : Nat} (ho : o < m.pageSize) :
    (m.store.read (ppn.toNat * m.pageSize) m.pageSize).getD o 0 =
      m.byte (ppn.toNat * m.pageSize + o) :=
  ByteStore.getD_read _ _ _ _ ho

def replaceFrame (m : PhysicalMemory) (ppn : Ppn) (data : Bytes) : PhysicalMemory :=
  { m with store := m.store.poke (ppn.toNat * m.pageSize) data }

theorem writePage_of_lt (hlt : ppn.toNat < m.pages) {data : Bytes}
    (hlength : data.length = m.pageSize) :
    m.writePage ppn data = .ok (m.replaceFrame ppn data) := by
  simp [writePage, frameStart, hlt, hlength, bind, Except.bind, pure, Except.pure, replaceFrame]

theorem byte_replaceFrame (h : m.Whole) (hlt : ppn.toNat < m.pages) {data : Bytes}
    (hlength : data.length = m.pageSize) {o : Nat} (ho : o < m.pageSize) :
    (m.replaceFrame ppn data).byte (ppn.toNat * m.pageSize + o) = data.getD o 0 := by
  refine ByteStore.byte_poke_inside m.store (hlength ▸ ho) ?_
  rw [hlength, h]
  exact block_le hlt m.pageSize

theorem byte_replaceFrame_other (m : PhysicalMemory) {q : Ppn} (hne : q ≠ ppn) {data : Bytes}
    (hlength : data.length = m.pageSize) {o : Nat} (ho : o < m.pageSize) :
    (m.replaceFrame ppn data).byte (q.toNat * m.pageSize + o) =
      m.byte (q.toNat * m.pageSize + o) := by
  refine ByteStore.byte_poke_outside m.store ?_
  rw [hlength]
  exact frame_apart hne m.pageSize o ho

/-! ## Accesses inside a frame -/

variable {paddr : PhysAddr} {offset : Nat}

theorem length_read (h : m.Whole) (hlt : ppn.toNat < m.pages)
    (haddr : paddr.value.toNat = ppn.toNat * m.pageSize + offset) {length : Nat}
    (hin : offset + length ≤ m.pageSize) : (m.read paddr length).length = length := by
  have hle := block_le hlt m.pageSize
  rw [read, ByteStore.length_read, h]
  omega

theorem getD_read (haddr : paddr.value.toNat = ppn.toNat * m.pageSize + offset) {length i : Nat}
    (hi : i < length) :
    (m.read paddr length).getD i 0 = m.byte (ppn.toNat * m.pageSize + (offset + i)) := by
  rw [read, ByteStore.getD_read _ _ _ _ hi, haddr, Nat.add_assoc]
  rfl

theorem write_fst (h : m.Whole) (hlt : ppn.toNat < m.pages)
    (haddr : paddr.value.toNat = ppn.toNat * m.pageSize + offset) {data : Bytes}
    (hin : offset + data.length ≤ m.pageSize) : (m.write paddr data).1 = data.length := by
  have hle := block_le hlt m.pageSize
  rw [write, h]
  show min data.length _ = data.length
  omega

/-- A write replaces the bytes that it names. -/
theorem byte_write (h : m.Whole) (hlt : ppn.toNat < m.pages)
    (haddr : paddr.value.toNat = ppn.toNat * m.pageSize + offset) (data : Bytes) {o : Nat}
    (ho : o < m.pageSize) :
    (m.write paddr data).2.byte (ppn.toNat * m.pageSize + o) =
      if offset ≤ o ∧ o < offset + data.length then data.getD (o - offset) 0
      else m.byte (ppn.toNat * m.pageSize + o) := by
  have hle := block_le hlt m.pageSize
  show (m.store.poke paddr.value.toNat data).byte _ = _
  rw [ByteStore.byte_poke, haddr, h]
  by_cases hc : offset ≤ o ∧ o < offset + data.length
  · rw [if_pos (by omega), if_pos hc, Nat.add_sub_add_left]
  · rw [if_neg (by omega), if_neg hc]
    rfl

theorem byte_write_other (m : PhysicalMemory)
    (haddr : paddr.value.toNat = ppn.toNat * m.pageSize + offset) {data : Bytes}
    (hin : offset + data.length ≤ m.pageSize) {q : Ppn} (hne : q ≠ ppn) {o : Nat}
    (ho : o < m.pageSize) :
    (m.write paddr data).2.byte (q.toNat * m.pageSize + o) = m.byte (q.toNat * m.pageSize + o) := by
  refine ByteStore.byte_poke_outside m.store ?_
  have := frame_apart hne m.pageSize o ho
  omega

/-! ## Accesses of any length -/

/-- The bytes from byte `offset` of frame `ppn` on, up to the end of memory. -/
def room (m : PhysicalMemory) (ppn : Ppn) (offset : Nat) : Nat :=
  m.pages * m.pageSize - (ppn.toNat * m.pageSize + offset)

/-- An access of `length` bytes stays inside its frame if it is no longer than what is left of the
frame, or if there is no next frame. -/
theorem min_room_le_iff (hlt : ppn.toNat < m.pages) (ho : offset < m.pageSize) (length : Nat) :
    min length (m.room ppn offset) ≤ m.pageSize - offset ↔
      offset + length ≤ m.pageSize ∨ ppn.toNat + 1 = m.pages := by
  have hnext := Nat.succ_mul ppn.toNat m.pageSize
  unfold room
  rcases Nat.lt_or_eq_of_le hlt with hmore | hlast
  · have hend := block_le hmore m.pageSize
    omega
  · rw [← hlast]
    omega

/-- `data` was read from byte `offset` of frame `ppn` on, for a buffer of `length` bytes. -/
structure ReadFrom (m : PhysicalMemory) (ppn : Ppn) (offset length : Nat) (data : Bytes) :
    Prop where
  count : data.length = min length (m.room ppn offset)
  bytes : ∀ i < data.length, data.getD i 0 = m.byte (ppn.toNat * m.pageSize + (offset + i))
  inside_iff : data.length ≤ m.pageSize - offset ↔
    offset + length ≤ m.pageSize ∨ ppn.toNat + 1 = m.pages

theorem readFrom_read (h : m.Whole) (hlt : ppn.toNat < m.pages) (ho : offset < m.pageSize)
    (haddr : paddr.value.toNat = ppn.toNat * m.pageSize + offset) (length : Nat) :
    m.ReadFrom ppn offset length (m.read paddr length) := by
  have hcount : (m.read paddr length).length = min length (m.room ppn offset) := by
    rw [read, ByteStore.length_read, h, haddr, room]
  refine ⟨hcount, ?_, ?_⟩
  · intro i hi
    exact getD_read haddr (Nat.lt_of_lt_of_le hi (hcount ▸ Nat.min_le_left _ _))
  · rw [hcount]
    exact min_room_le_iff hlt ho length

/-- The first `n` bytes of `data` were written from byte `offset` of frame `ppn` on, and `m` became
`m'`. -/
structure WrittenFrom (m m' : PhysicalMemory) (ppn : Ppn) (offset : Nat) (data : Bytes) (n : Nat) :
    Prop where
  count : n = min data.length (m.room ppn offset)
  bytes : ∀ address, m'.byte address =
    if ppn.toNat * m.pageSize + offset ≤ address ∧ address < ppn.toNat * m.pageSize + offset + n
    then data.getD (address - (ppn.toNat * m.pageSize + offset)) 0 else m.byte address
  inside_iff : n ≤ m.pageSize - offset ↔
    offset + data.length ≤ m.pageSize ∨ ppn.toNat + 1 = m.pages

theorem writtenFrom_write (h : m.Whole) (hlt : ppn.toNat < m.pages) (ho : offset < m.pageSize)
    (haddr : paddr.value.toNat = ppn.toNat * m.pageSize + offset) (data : Bytes) :
    m.WrittenFrom (m.write paddr data).2 ppn offset data (m.write paddr data).1 := by
  have hcount : (m.write paddr data).1 = min data.length (m.room ppn offset) := by
    rw [write, h, haddr, room]
  refine ⟨hcount, ?_, ?_⟩
  · intro address
    show (m.store.poke paddr.value.toNat data).byte address = _
    rw [ByteStore.byte_poke, hcount, h, haddr, room]
    by_cases hin : ppn.toNat * m.pageSize + offset ≤ address ∧
        address < ppn.toNat * m.pageSize + offset +
          min data.length (m.pages * m.pageSize - (ppn.toNat * m.pageSize + offset))
    · rw [if_pos hin, if_pos (by omega)]
    · rw [if_neg hin, if_neg (by omega)]
      rfl
  · rw [hcount]
    exact min_room_le_iff hlt ho data.length

/-- A write that stays inside its frame leaves the other frames alone. -/
theorem WrittenFrom.other {m' : PhysicalMemory} {data : Bytes} {n : Nat}
    (h : m.WrittenFrom m' ppn offset data n) (hin : n ≤ m.pageSize - offset)
    (ho : offset < m.pageSize) {q : Ppn} (hne : q ≠ ppn) {o : Nat} (hq : o < m.pageSize) :
    m'.byte (q.toNat * m.pageSize + o) = m.byte (q.toNat * m.pageSize + o) := by
  have hapart := frame_apart hne m.pageSize o hq
  rw [h.bytes, if_neg]
  omega

end VirtualMemory.PhysicalMemory
