import VirtualMemory.Proofs.BackingStore

/-!
# Transfers that stop short

The host keeps a position in a file that it has open, and a call of the host may transfer less than
it was asked for: at least one byte, unless nothing is asked for or there is nothing left to read.
So a file is read by as many calls as it takes until the buffer is full or nothing comes, and
written by as many as it takes until nothing is left. Wherever the host cuts, the loops deliver what
one transfer would, and leave the file as one transfer would.
-/

namespace VirtualMemory

namespace ByteStore

variable {s s' : ByteStore}

/-- Of the same size and with the same bytes, though maybe not of the same cells. -/
structure Same (s s' : ByteStore) : Prop where
  size : s.size = s'.size
  byte : ∀ address, s.byte address = s'.byte address

theorem Same.refl (s : ByteStore) : s.Same s := ⟨rfl, fun _ => rfl⟩

theorem Same.trans {s'' : ByteStore} (h : s.Same s') (h' : s'.Same s'') : s.Same s'' :=
  ⟨h.size.trans h'.size, fun address => (h.byte address).trans (h'.byte address)⟩

theorem Same.read (h : s.Same s') (start length : Nat) :
    s.read start length = s'.read start length := by
  rw [read_eq, read_eq, h.size]
  exact List.map_congr_left fun address _ => h.byte address

/-- A read in two parts. -/
theorem read_append (s : ByteStore) (start m n : Nat) :
    s.read start (m + n) = s.read start m ++ s.read (start + m) n := by
  rw [read_eq, read_eq, read_eq, ← List.map_append]
  congr 1
  by_cases hm : m ≤ s.size - start
  · have hrest : min (m + n) (s.size - start) = m + min n (s.size - (start + m)) := by omega
    rw [hrest, Nat.min_eq_left hm, ← List.range'_append_1]
  · have hfirst : min (m + n) (s.size - start) = min m (s.size - start) := by omega
    have hlast : min n (s.size - (start + m)) = 0 := by omega
    rw [hfirst, hlast, List.range'_zero, List.append_nil]

theorem read_length (s : ByteStore) (start length : Nat) :
    s.read start (s.read start length).length = s.read start length := by
  rw [length_read, read_eq, read_eq]
  congr 2
  omega

theorem size_overwrite (s : ByteStore) (start : Nat) (data : Bytes) :
    (s.overwrite start data).size =
      if data = [] then s.size else max s.size (start + data.length) := by
  unfold overwrite
  cases data with
  | nil => rfl
  | cons b rest => exact size_poke _ _ _

theorem byte_overwrite (s : ByteStore) (start : Nat) (data : Bytes) (address : Nat) :
    (s.overwrite start data).byte address =
      if start ≤ address ∧ address < start + data.length then data.getD (address - start) 0
      else s.byte address := by
  split
  next hin =>
    have hi : address - start < data.length := by omega
    rw [← byte_overwrite_inside s hi, Nat.add_sub_cancel' hin.1]
  next hout => exact byte_overwrite_outside s (by omega)

theorem Same.overwrite (h : s.Same s') (start : Nat) (data : Bytes) :
    (s.overwrite start data).Same (s'.overwrite start data) := by
  constructor
  · rw [size_overwrite, size_overwrite, h.size]
  · intro address
    rw [byte_overwrite, byte_overwrite, h.byte]

/-- A write in two parts. -/
theorem overwrite_append (s : ByteStore) (start : Nat) (first rest : Bytes) :
    ((s.overwrite start first).overwrite (start + first.length) rest).Same
      (s.overwrite start (first ++ rest)) := by
  constructor
  · rw [size_overwrite, size_overwrite, size_overwrite]
    cases first with
    | nil => simp
    | cons b first =>
      cases rest with
      | nil => simp
      | cons c rest =>
        simp only [List.cons_append, reduceCtorEq, if_false, List.length_cons, List.length_append]
        omega
  · intro address
    simp only [byte_overwrite, List.length_append, List.getD_eq_getElem?_getD,
      List.getElem?_append]
    by_cases hrest : start + first.length ≤ address ∧
        address < start + first.length + rest.length
    · rw [if_pos hrest, if_pos (by omega), if_neg (by omega), Nat.sub_add_eq]
    · rw [if_neg hrest]
      by_cases hfirst : start ≤ address ∧ address < start + first.length
      · rw [if_pos hfirst, if_pos (by omega), if_pos (by omega)]
      · rw [if_neg hfirst, if_neg (by omega)]

end ByteStore

/-! ## The calls of the host -/

/-- Where the host cuts: its call number `n` transfers no more than `limits n + 1` bytes. -/
abbrev TransferLimits := Nat → Nat

structure Descriptor where
  contents : ByteStore := .empty
  /-- Where the next transfer starts. -/
  position : Nat := 0
  /-- How many transfers the host has made. -/
  transfers : Nat := 0

namespace Descriptor

variable {limits : TransferLimits} {d : Descriptor}

def seek (d : Descriptor) (offset : Nat) : Descriptor := { d with position := offset }

/-- One transfer from the file, which delivers nothing at its end. -/
def readSome (limits : TransferLimits) (d : Descriptor) (length : Nat) : Bytes × Descriptor :=
  let data := d.contents.read d.position (min length (limits d.transfers + 1))
  (data, { d with position := d.position + data.length, transfers := d.transfers + 1 })

/-- One transfer to the file; answers how many bytes it took. -/
def writeSome (limits : TransferLimits) (d : Descriptor) (data : Bytes) : Nat × Descriptor :=
  let taken := data.take (limits d.transfers + 1)
  (taken.length,
    { contents := d.contents.overwrite d.position taken
      position := d.position + taken.length
      transfers := d.transfers + 1 })

/-- Reads until `length` bytes are there or nothing comes. -/
def readFull (limits : TransferLimits) (d : Descriptor) (length : Nat) : Bytes × Descriptor :=
  if length = 0 then ([], d)
  else
    let (data, d) := d.readSome limits length
    if data.length = 0 then ([], d)
    else
      let (rest, d) := readFull limits d (length - data.length)
      (data ++ rest, d)
termination_by length

def writeFull (limits : TransferLimits) (d : Descriptor) (data : Bytes) : Descriptor :=
  if _h : data = [] then d
  else writeFull limits (d.writeSome limits data).2 (data.drop (d.writeSome limits data).1)
termination_by data.length
decreasing_by
  have hpos := List.length_pos_iff.mpr _h
  simp only [writeSome, List.length_drop, List.length_take]
  omega

theorem length_readSome (limits : TransferLimits) (d : Descriptor) (length : Nat) :
    (d.readSome limits length).1.length =
      min (min length (limits d.transfers + 1)) (d.contents.size - d.position) :=
  ByteStore.length_read _ _ _

/-- Wherever the host cuts, what is delivered is what one read would deliver. -/
theorem readFull_eq (limits : TransferLimits) (d : Descriptor) (length : Nat) :
    (d.readFull limits length).1 = d.contents.read d.position length ∧
      (d.readFull limits length).2.contents = d.contents := by
  induction length using Nat.strongRecOn generalizing d with
  | ind length ih =>
    have hcount := d.length_readSome limits length
    rw [readFull]
    split
    next hzero =>
      refine ⟨(List.eq_nil_of_length_eq_zero ?_).symm, rfl⟩
      rw [ByteStore.length_read, hzero, Nat.zero_min]
    next hpos =>
      simp only
      split
      next hnone =>
        -- something was asked for, so the position is at the end of the file
        refine ⟨(List.eq_nil_of_length_eq_zero ?_).symm, rfl⟩
        rw [ByteStore.length_read]
        omega
      next hsome =>
        have hle : (d.readSome limits length).1.length ≤ length := by omega
        obtain ⟨hrest, hcontents⟩ := ih (length - (d.readSome limits length).1.length) (by omega)
          (d.readSome limits length).2
        refine ⟨?_, hcontents⟩
        rw [hrest]
        calc (d.readSome limits length).1 ++
              d.contents.read (d.position + (d.readSome limits length).1.length)
                (length - (d.readSome limits length).1.length)
            = d.contents.read d.position (d.readSome limits length).1.length ++
              d.contents.read (d.position + (d.readSome limits length).1.length)
                (length - (d.readSome limits length).1.length) := by
              rw [readSome, ByteStore.read_length]
          _ = d.contents.read d.position length := by
              rw [← ByteStore.read_append, Nat.add_sub_cancel' hle]

/-- Wherever the host cuts, the file is left with what one write would leave. -/
theorem writeFull_same (limits : TransferLimits) (d : Descriptor) (data : Bytes) :
    (d.writeFull limits data).contents.Same (d.contents.overwrite d.position data) := by
  fun_induction writeFull limits d data with
  | case1 d => exact .refl _
  | case2 d data hne ih =>
    have hparts := d.contents.overwrite_append d.position (data.take (limits d.transfers + 1))
      (data.drop (limits d.transfers + 1))
    rw [List.take_append_drop] at hparts
    have hdrop : data.drop (d.writeSome limits data).1 = data.drop (limits d.transfers + 1) := by
      rw [writeSome, List.length_take, List.drop_eq_drop_iff]
      omega
    rw [hdrop] at ih ⊢
    exact ih.trans hparts

end Descriptor

/-! ## Files of the host -/

/-- A file of the host as it is worked on: with its descriptor, until it is closed. -/
structure HostHandle where
  descriptor : Option Descriptor

namespace HostHandle

variable {h : HostHandle} {f : HostFile}

def fresh : HostHandle := ⟨some {}⟩

def readAt (limits : TransferLimits) (h : HostHandle) (offset length : Nat) :
    Except FileError Bytes × HostHandle :=
  match h.descriptor with
  | none => (.error .closed, h)
  | some d =>
    if HostFile.offsetLimit ≤ offset then (.error (.ofRefusal .other), h)
    else
      let (data, d) := (d.seek offset).readFull limits length
      (.ok data, ⟨some d⟩)

def writeAt (limits : TransferLimits) (h : HostHandle) (offset : Nat) (data : Bytes) :
    Except FileError Nat × HostHandle :=
  match h.descriptor with
  | none => (.error .closed, h)
  | some d =>
    if HostFile.offsetLimit ≤ offset + data.length then (.error (.ofRefusal .other), h)
    else (.ok data.length, ⟨some ((d.seek offset).writeFull limits data)⟩)

def close (_h : HostHandle) : HostHandle := ⟨none⟩

structure Of (h : HostHandle) (f : HostFile) : Prop where
  closed : f.closed = h.descriptor.isNone
  contents : ∀ d, h.descriptor = some d → d.contents.Same f.contents

theorem of_fresh : fresh.Of {} := by
  refine ⟨rfl, ?_⟩
  rintro d ⟨⟩
  exact .refl _

/-- Reads in one piece and in many agree. -/
theorem Of.readAt (hf : h.Of f) (limits : TransferLimits) (offset length : Nat) :
    (h.readAt limits offset length).1 = f.readAt offset length ∧
      (h.readAt limits offset length).2.Of f := by
  unfold HostHandle.readAt HostFile.readAt
  rw [hf.closed]
  cases hd : h.descriptor with
  | none => exact ⟨rfl, hf⟩
  | some d =>
    simp only [Option.isNone_some, Bool.false_eq_true, if_false]
    split
    · exact ⟨rfl, hf⟩
    · obtain ⟨hread, hcontents⟩ := (d.seek offset).readFull_eq limits length
      have hsame := hf.contents d hd
      refine ⟨congrArg Except.ok (hread.trans (hsame.read offset length)), ?_, ?_⟩
      · rw [hf.closed, hd]
        rfl
      · rintro d' ⟨⟩
        rw [hcontents]
        exact hsame

/-- Writes in one piece and in many agree. -/
theorem Of.writeAt (hf : h.Of f) (limits : TransferLimits) (offset : Nat) (data : Bytes) :
    (h.writeAt limits offset data).1 = (f.writeAt offset data).1 ∧
      (h.writeAt limits offset data).2.Of (f.writeAt offset data).2 := by
  unfold HostHandle.writeAt HostFile.writeAt
  rw [hf.closed]
  cases hd : h.descriptor with
  | none => exact ⟨rfl, hf⟩
  | some d =>
    simp only [Option.isNone_some, Bool.false_eq_true, if_false]
    split
    · exact ⟨rfl, hf⟩
    · refine ⟨rfl, rfl, ?_⟩
      rintro d' ⟨⟩
      exact ((d.seek offset).writeFull_same limits data).trans
        ((hf.contents d hd).overwrite offset data)

theorem Of.close (_hf : h.Of f) : h.close.Of f.close := ⟨rfl, nofun⟩

end HostHandle

end VirtualMemory
