/-!
# Bytes and byte stores

A buffer is a list of bytes. A `ByteStore` is a linear store addressed from zero; physical memory
and the contents of a file are byte stores. `ByteStore.byte` is the view through which every
operation is described:

* `byte_poke`: writing a buffer changes exactly the cells it covers;
* `byte_extend`, `byte_eq_zero`: growing a store leaves its bytes, and the new cells hold zero;
* `read_eq`: reading is clipped at the end of the store.
-/

namespace VirtualMemory

abbrev Bytes := List UInt8

def Bytes.zeros (n : Nat) : Bytes := List.replicate n 0

/-- The buffer brought to length `n`: cut, or filled up with zeros. -/
def Bytes.fit (n : Nat) (data : Bytes) : Bytes := data.take n ++ Bytes.zeros (n - data.length)

theorem Bytes.length_zeros (n : Nat) : (Bytes.zeros n).length = n := by simp [Bytes.zeros]

theorem Bytes.length_fit (n : Nat) (data : Bytes) : (Bytes.fit n data).length = n := by
  simp only [Bytes.fit, List.length_append, List.length_take, Bytes.length_zeros]
  omega

/-- What is missing is filled up with zeros. -/
theorem Bytes.getElem_fit (n : Nat) (data : Bytes) (i : Nat) (h : i < (Bytes.fit n data).length) :
    (Bytes.fit n data)[i] = data.getD i 0 := by
  rw [Bytes.length_fit] at h
  simp only [Bytes.fit, List.getElem_append, List.getD_eq_getElem?_getD, List.length_take]
  by_cases hd : i < data.length
  · rw [dif_pos (by omega), List.getElem_take, List.getElem?_eq_getElem hd, Option.getD_some]
  · rw [dif_neg (by omega), List.getElem?_eq_none (by omega), Option.getD_none]
    exact List.getElem_replicate ..

/-- A linear store of bytes. Cells at its end that were never written are zero and take no room, so
that stores with the same bytes may hold different `cells`. -/
structure ByteStore where
  size : Nat
  /-- The first cells; all after them hold zero. -/
  cells : Array UInt8
  cells_le : cells.size ≤ size
  deriving DecidableEq

namespace ByteStore

def empty : ByteStore := ⟨0, #[], Nat.le_refl 0⟩

def zeros (size : Nat) : ByteStore := ⟨size, #[], Nat.zero_le size⟩

/-- The byte at `address`; zero past the end. -/
def byte (s : ByteStore) (address : Nat) : UInt8 := s.cells.getD address 0

/-- Up to `length` bytes from `start`, fewer at the end of the store. -/
def read (s : ByteStore) (start length : Nat) : Bytes :=
  Bytes.fit (min length (s.size - start)) (s.cells.extract start (start + length)).toList

def toBytes (s : ByteStore) : Bytes := s.read 0 s.size

/-- Cells with zeros added to at least `n` of them. -/
def grow (cells : Array UInt8) (n : Nat) : Array UInt8 :=
  cells ++ Array.replicate (n - cells.size) 0

/-- Cells with `data` put over those from `start` on. -/
def cover (cells : Array UInt8) (start : Nat) : Bytes → Array UInt8
  | [] => cells
  | b :: rest => cover (cells.setIfInBounds start b) (start + 1) rest

theorem size_grow (cells : Array UInt8) (n : Nat) : (grow cells n).size = max cells.size n := by
  simp only [grow, Array.size_append, Array.size_replicate]
  omega

theorem getD_grow (cells : Array UInt8) (n address : Nat) :
    (grow cells n).getD address 0 = cells.getD address 0 := by
  simp only [grow, Array.getD_eq_getD_getElem?, Array.getElem?_append]
  split
  · rfl
  · next h =>
    rw [Array.getElem?_replicate, Array.getElem?_eq_none (by omega)]
    split <;> rfl

theorem size_cover (cells : Array UInt8) (start : Nat) (data : Bytes) :
    (cover cells start data).size = cells.size := by
  induction data generalizing cells start with
  | nil => rfl
  | cons b rest ih => rw [cover, ih, Array.size_setIfInBounds]

/-- The data lie over the cells from `start` on, cut at the end. -/
theorem getD_cover (cells : Array UInt8) (start : Nat) (data : Bytes) (address : Nat) :
    (cover cells start data).getD address 0 =
      if start ≤ address ∧ address < start + data.length ∧ address < cells.size
      then data.getD (address - start) 0 else cells.getD address 0 := by
  induction data generalizing cells start with
  | nil =>
    rw [cover, if_neg]
    simp only [List.length_nil]
    omega
  | cons b rest ih =>
    rw [cover, ih]
    simp only [Array.getD_eq_getD_getElem?, Array.size_setIfInBounds, List.length_cons,
      Array.getElem?_setIfInBounds]
    by_cases h : start = address
    · subst h
      by_cases hs : start < cells.size
      · have hn : ¬ (start + 1 ≤ start ∧ start < start + 1 + rest.length ∧
            start < cells.size) := by
          omega
        rw [if_neg hn]
        simp [hs]
      · simp [hs]
    · by_cases hc : start + 1 ≤ address ∧ address < start + 1 + rest.length ∧ address < cells.size
      · have hc' : start ≤ address ∧ address < start + (rest.length + 1) ∧
            address < cells.size := by
          omega
        have e : address - start = address - (start + 1) + 1 := by omega
        rw [if_pos hc, if_pos hc', e]
        simp
      · have hc' : ¬ (start ≤ address ∧ address < start + (rest.length + 1) ∧
            address < cells.size) := by
          omega
        rw [if_neg hc, if_neg hc', if_neg h]

/-- What of `data` fits into the store from `start` on. -/
def clip (s : ByteStore) (start : Nat) (data : Bytes) : Bytes := data.take (s.size - start)

/-- What is clipped lies within the store, unless nothing is left of it. -/
theorem end_clip_le {s : ByteStore} {start : Nat} {data : Bytes} (h : s.clip start data ≠ []) :
    start + (s.clip start data).length ≤ s.size := by
  have := List.length_pos_iff.mpr h
  simp only [clip, List.length_take] at this ⊢
  omega

/-- Writes `data` from `start` on; what would fall past the end is dropped. -/
def poke (s : ByteStore) (start : Nat) (data : Bytes) : ByteStore :=
  if h : s.clip start data = [] then s
  else
    { size := s.size
      cells :=
        cover (grow s.cells (start + (s.clip start data).length)) start (s.clip start data)
      cells_le := by
        rw [size_cover, size_grow]
        exact Nat.max_le.mpr ⟨s.cells_le, end_clip_le h⟩ }

def extend (s : ByteStore) (size : Nat) : ByteStore :=
  ⟨max s.size size, s.cells, Nat.le_trans s.cells_le (Nat.le_max_left s.size size)⟩

theorem size_zeros (n : Nat) : (zeros n).size = n := rfl

theorem byte_eq_zero (s : ByteStore) {address : Nat} (h : s.size ≤ address) :
    s.byte address = 0 := by
  rw [byte, Array.getD_eq_getD_getElem?,
    Array.getElem?_eq_none (Nat.le_trans s.cells_le h), Option.getD_none]

theorem size_poke (s : ByteStore) (start : Nat) (data : Bytes) :
    (s.poke start data).size = s.size := by
  unfold poke
  split <;> rfl

/-- The data are written where they fit; the rest of the store is as before. -/
theorem byte_poke (s : ByteStore) (start : Nat) (data : Bytes) (address : Nat) :
    (s.poke start data).byte address =
      if start ≤ address ∧ address < start + data.length ∧ address < s.size
      then data.getD (address - start) 0 else s.byte address := by
  have hl : (s.clip start data).length = min (s.size - start) data.length := by
    simp [clip]
  by_cases h : s.clip start data = []
  · have hn : ¬ (start ≤ address ∧ address < start + data.length ∧ address < s.size) := by
      rw [h, List.length_nil] at hl
      omega
    rw [poke, dif_pos h, if_neg hn]
  · rw [poke, dif_neg h, byte, getD_cover, getD_grow, size_grow, hl]
    by_cases hc : start ≤ address ∧ address < start + data.length ∧ address < s.size
    · rw [if_pos (by omega), if_pos hc, clip, List.getD_eq_getElem?_getD,
        List.getElem?_take_of_lt (by omega), ← List.getD_eq_getElem?_getD]
    · rw [if_neg (by omega), if_neg hc, byte]

theorem size_extend (s : ByteStore) (n : Nat) : (s.extend n).size = max s.size n := rfl

/-- A store grows by zeros, which is what it read as beyond its end already. -/
theorem byte_extend (s : ByteStore) (n address : Nat) :
    (s.extend n).byte address = s.byte address := rfl

theorem length_read (s : ByteStore) (start length : Nat) :
    (s.read start length).length = min length (s.size - start) :=
  Bytes.length_fit _ _

/-- Reading is clipped at the end of the store. -/
theorem read_eq (s : ByteStore) (start length : Nat) :
    s.read start length =
      (List.range' start (min length (s.size - start))).map s.byte := by
  apply List.ext_getElem
  · simp [length_read]
  · intro i h _
    rw [length_read] at h
    rw [List.getElem_map, List.getElem_range', Nat.one_mul]
    simp only [read, Bytes.getElem_fit, byte, List.getD_eq_getElem?_getD, Array.getElem?_toList,
      Array.getElem?_extract, Array.getD_eq_getD_getElem?]
    by_cases hc : start + i < s.cells.size
    · rw [if_pos (by omega)]
    · rw [if_neg (by omega), Array.getElem?_eq_none (by omega)]

end ByteStore

end VirtualMemory
