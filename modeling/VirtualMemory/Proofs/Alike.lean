import VirtualMemory.Image
import VirtualMemory.PhysicalMemory
import VirtualMemory.Proofs.SwapSlots
import VirtualMemory.Proofs.TwoRuns

/-!
# Parts that differ in bytes only

Two swap files, memories or images are alike when they differ at most in the bytes that they hold.
Each operation on them ends alike: the same failures, the same accounting, and as many bytes.
-/

namespace VirtualMemory

open Op

/-! ## Files, memory and images -/

/-- The same operations of a file fail. What a failing write leaves in the file may differ. -/
structure FileFaults.Alike (faults faults' : FileFaults) : Prop where
  read : faults.read = faults'.read
  write : faults.write = faults'.write
  remove : faults.remove = faults'.remove

theorem FileFaults.Alike.refl (faults : FileFaults) : Alike faults faults := ⟨rfl, rfl, rfl⟩

inductive BackingFile.Alike : BackingFile → BackingFile → Prop
  | memory {f f' : MemoryFile} (hclosed : f.closed = f'.closed) : Alike (.memory f) (.memory f')
  | host {f f' : HostFile} (hclosed : f.closed = f'.closed) (hlinked : f.linked = f'.linked) :
      Alike (.host f) (.host f')
  | faulty {f f' : MemoryFile} {faults faults' : FileFaults} (hclosed : f.closed = f'.closed)
      (hfaults : faults.Alike faults') : Alike (.faulty f faults) (.faulty f' faults')

namespace BackingFile

variable {f f' : BackingFile}

theorem Alike.refl (f : BackingFile) : Alike f f := by
  cases f with
  | memory f => exact .memory rfl
  | host f => exact .host rfl rfl
  | faulty f faults => exact .faulty rfl (.refl faults)

theorem Alike.readAt (h : Alike f f') (offset length : Nat) :
    Corresponds (fun _ _ => True) (f.readAt offset length) (f'.readAt offset length) := by
  cases h with
  | memory hclosed =>
    simp only [BackingFile.readAt, MemoryFile.readAt, hclosed]
    split
    · exact .error _
    · exact .ok trivial
  | host hclosed =>
    simp only [BackingFile.readAt, HostFile.readAt, hclosed]
    split
    · exact .error _
    · split
      · exact .error _
      · exact .ok trivial
  | faulty hclosed hfaults =>
    simp only [BackingFile.readAt, MemoryFile.readAt, hclosed, hfaults.read]
    split
    · exact .error _
    · split
      · exact .error _
      · exact .ok trivial

theorem Alike.writeAt (h : Alike f f') (offset : Nat) {data data' : Bytes}
    (hlength : data.length = data'.length) :
    (f.writeAt offset data).1 = (f'.writeAt offset data').1 ∧
      Alike (f.writeAt offset data).2 (f'.writeAt offset data').2 := by
  cases h with
  | memory hclosed =>
    simp only [BackingFile.writeAt, MemoryFile.writeAt, hclosed, hlength]
    split
    · exact ⟨rfl, .memory hclosed⟩
    · exact ⟨rfl, .memory rfl⟩
  | host hclosed hlinked =>
    simp only [BackingFile.writeAt, HostFile.writeAt, hclosed, hlength]
    split
    · exact ⟨rfl, .host hclosed hlinked⟩
    · split
      · exact ⟨rfl, .host hclosed hlinked⟩
      · exact ⟨rfl, .host rfl hlinked⟩
  | faulty hclosed hfaults =>
    simp only [BackingFile.writeAt, MemoryFile.writeAt, hclosed, hfaults.write, hlength]
    split
    · exact ⟨rfl, .faulty rfl hfaults⟩
    · split
      · exact ⟨rfl, .faulty hclosed hfaults⟩
      · exact ⟨rfl, .faulty rfl hfaults⟩

end BackingFile

structure PhysicalMemory.Alike (m m' : PhysicalMemory) : Prop where
  pages : m.pages = m'.pages
  pageSize : m.pageSize = m'.pageSize
  size : m.store.size = m'.store.size

namespace PhysicalMemory

variable {m m' : PhysicalMemory}

theorem Alike.refl (m : PhysicalMemory) : Alike m m := ⟨rfl, rfl, rfl⟩

theorem Alike.readPage (h : Alike m m') (ppn : Ppn) (length : Nat) :
    Corresponds (fun data data' : Bytes => data.length = data'.length) (m.readPage ppn length)
      (m'.readPage ppn length) := by
  simp only [PhysicalMemory.readPage, frameStart, h.pages, h.pageSize]
  split
  · exact .error _
  · split
    · refine .ok ?_
      rw [ByteStore.length_read, ByteStore.length_read, h.size]
    · exact .error _

theorem Alike.writePage (h : Alike m m') (ppn : Ppn) {data data' : Bytes}
    (hlength : data.length = data'.length) :
    Corresponds Alike (m.writePage ppn data) (m'.writePage ppn data') := by
  simp only [PhysicalMemory.writePage, frameStart, h.pages, h.pageSize, hlength]
  split
  · exact .error _
  · split
    · refine .ok ⟨rfl, rfl, ?_⟩
      simp only [ByteStore.size_poke, h.size]
    · exact .error _

theorem Alike.write (h : Alike m m') (paddr : PhysAddr) {data data' : Bytes}
    (hlength : data.length = data'.length) :
    (m.write paddr data).1 = (m'.write paddr data').1 ∧
      Alike (m.write paddr data).2 (m'.write paddr data').2 := by
  refine ⟨?_, h.pages, h.pageSize, ?_⟩
  · simp only [PhysicalMemory.write, hlength, h.size]
  · simp only [PhysicalMemory.write, ByteStore.size_poke, h.size]

end PhysicalMemory

/-- Images of the same layout, of which the same pages can be read. -/
structure ImageIndex.Alike (i i' : ImageIndex) : Prop where
  pages : i.pages = i'.pages
  faults : i.image.faults = i'.image.faults
  contents : ∀ sectionIndex page length, Corresponds (fun _ _ => True)
    (i.image.contents sectionIndex page length) (i'.image.contents sectionIndex page length)

namespace ImageIndex

variable {i i' : ImageIndex}

/-- Where a page stands in the image is said by its sections, not by their bytes. -/
theorem Alike.locate (h : Alike i i') (vpn : Vpn) : i.locate vpn = i'.locate vpn := by
  unfold ImageIndex.locate
  rw [h.pages]

theorem Alike.refl (i : ImageIndex) : Alike i i := by
  refine ⟨rfl, rfl, ?_⟩
  intro sectionIndex page length
  cases i.image.contents sectionIndex page length with
  | ok data => exact .ok trivial
  | error e => exact .error e

theorem Alike.readPage (h : Alike i i') (sectionIndex page length : Nat) :
    Corresponds (fun data data' : Bytes => data.length = data'.length)
      (i.image.readPage sectionIndex page length) (i'.image.readPage sectionIndex page length) := by
  have hfault : i.image.fault? sectionIndex page = i'.image.fault? sectionIndex page := by
    rw [Image.fault?, Image.fault?, h.faults]
  rw [Image.readPage, Image.readPage, hfault]
  split
  · exact .error _
  · have hcontents := h.contents sectionIndex page length
    generalize i.image.contents sectionIndex page length = r at hcontents ⊢
    generalize i'.image.contents sectionIndex page length = r' at hcontents ⊢
    cases hcontents with
    | ok =>
      refine .ok ?_
      rw [Bytes.length_fit, Bytes.length_fit]
    | error e => exact .error e

/-- What loading a page delivers, but for the values of the bytes. -/
theorem Alike.load (h : Alike i i') (vpn : Vpn) (length : Nat) :
    Corresponds (fun found found' : Bytes × Bool => found.1.length = found'.1.length ∧
      found.2 = found'.2) (i.load vpn length) (i'.load vpn length) := by
  rw [ImageIndex.load, ImageIndex.load, h.locate vpn]
  cases i'.locate vpn with
  | none => exact .error _
  | some page =>
    have hread := h.readPage page.sectionIndex page.page length
    dsimp only
    generalize i.image.readPage page.sectionIndex page.page length = r at hread ⊢
    generalize i'.image.readPage page.sectionIndex page.page length = r' at hread ⊢
    cases hread with
    | ok hlength => exact .ok ⟨hlength, rfl⟩
    | error e => exact .error e

end ImageIndex

/-! ## Swap -/

/-- Swaps with the same accounting over files that are alike. -/
structure Swapper.Alike (s s' : Swapper) : Prop where
  file : Option.Rel BackingFile.Alike s.file s'.file
  pageSize : s.pageSize = s'.pageSize
  slots : s.slots = s'.slots
  pending : s.pending = s'.pending
  freeSlots : s.freeSlots = s'.freeSlots
  capacity : s.capacity = s'.capacity
  counters : s.counters = s'.counters

namespace Swapper

variable {s s' : Swapper}

theorem Alike.refl (s : Swapper) : Alike s s := by
  refine ⟨?_, rfl, rfl, rfl, rfl, rfl, rfl⟩
  cases s.file with
  | none => exact .none
  | some file => exact .some (BackingFile.Alike.refl file)

theorem Alike.isPending (h : Alike s s') (key : PageKey) : s.isPending key = s'.isPending key := by
  rw [Swapper.isPending, Swapper.isPending, h.pending]

theorem Alike.slot? (h : Alike s s') (key : PageKey) : s.slot? key = s'.slot? key := by
  rw [Swapper.slot?, Swapper.slot?, h.slots]

theorem Alike.markPending (h : Alike s s') (key : PageKey) :
    Alike (s.markPending key) (s'.markPending key) := by
  unfold Swapper.markPending
  rw [h.slots]
  split
  · exact h
  · exact { h with slots := rfl, pending := congrArg (·.insert key ()) h.pending }

theorem Alike.markAll (h : Alike s s') (keys : List PageKey) :
    Alike (keys.foldr (fun key s => s.markPending key) s)
      (keys.foldr (fun key s => s.markPending key) s') := by
  induction keys with
  | nil => exact h
  | cons key rest ih => exact ih.markPending key

/-- Slots are given by number, so both pages get the same. -/
theorem Alike.allocateSlot (h : Alike s s') (key : PageKey) :
    (s.allocateSlot key).1 = (s'.allocateSlot key).1 ∧
      Alike (s.allocateSlot key).2 (s'.allocateSlot key).2 := by
  simp only [Swapper.allocateSlot, h.slots, h.freeSlots, h.capacity, h.pending]
  split
  · exact ⟨rfl, h⟩
  · split
    · exact ⟨rfl, h.file, h.pageSize, rfl, rfl, rfl, rfl, h.counters⟩
    · exact ⟨rfl, h.file, h.pageSize, rfl, rfl, rfl, rfl, h.counters⟩

theorem Alike.freeSlot (h : Alike s s') (key : PageKey) :
    Alike (s.freeSlot key) (s'.freeSlot key) := by
  unfold Swapper.freeSlot
  rw [h.slots]
  split
  · exact { h with slots := rfl, freeSlots := congrArg (· ++ _) h.freeSlots }
  · exact h

theorem Alike.freeAll (h : Alike s s') (keys : List PageKey) :
    Alike (keys.foldl Swapper.freeSlot s) (keys.foldl Swapper.freeSlot s') := by
  induction keys generalizing s s' with
  | nil => exact h
  | cons key rest ih => exact ih (h.freeSlot key)

/-- The slots of a process go back in the same order on both sides. -/
theorem Alike.releaseProcess (h : Alike s s') (pid : Pid) :
    Alike (s.releaseProcess pid) (s'.releaseProcess pid) := by
  have hpending : Alike (s.unpending pid) (s'.unpending pid) := by
    refine { h with pending := ?_ }
    simp only [unpending, h.pending]
  have hkeys : (s.unpending pid).slots.keys = (s'.unpending pid).slots.keys :=
    congrArg OrderedMap.keys h.slots
  show Alike (((s.unpending pid).slots.keys.filter _).foldl _ _) _
  rw [hkeys]
  exact hpending.freeAll _

theorem Alike.countUntracked (h : Alike s s') : Alike s.countUntracked s'.countUntracked := by
  refine { h with counters := ?_ }
  simp only [Swapper.countUntracked, h.counters]

theorem Alike.countPageIn (h : Alike s s') : Alike s.countPageIn s'.countPageIn := by
  refine { h with counters := ?_ }
  simp only [Swapper.countPageIn, h.counters]

theorem Alike.countPageOut (h : Alike s s') : Alike s.countPageOut s'.countPageOut := by
  refine { h with counters := ?_ }
  simp only [Swapper.countPageOut, h.counters]

/-- A read finds the same, but for the values of the bytes. -/
theorem agree_readInto (key : PageKey) (length : Nat) :
    Agree Alike (fun found found' : SwapRead => found.data.length = found'.data.length)
      (readInto key length) (readInto key length) := by
  refine .get fun s s' h => ?_
  rw [h.pageSize, h.slot?]
  dsimp only
  split
  · exact .throw _
  have hfile := h.file
  generalize s.file = file at hfile ⊢
  generalize s'.file = file' at hfile ⊢
  cases hfile with
  | none => exact .throw _
  | some hfile =>
    cases s'.slot? key with
    | none =>
      exact .bind (.notify _) fun _ _ _ => .bind (.set h.countUntracked) fun _ _ _ => .pure rfl
    | some slot =>
      have hread := hfile.readAt (slotOffset slot s'.pageSize) s'.pageSize
      dsimp only
      generalize BackingFile.readAt _ _ _ = r at hread ⊢
      generalize BackingFile.readAt _ _ _ = r' at hread ⊢
      cases hread with
      | error e => exact .bind (.notify _) fun _ _ _ => .throw _
      | ok =>
        refine .bind (.set h.countPageIn) fun _ _ _ => .pure ?_
        rw [SwapRead.data, SwapRead.data, Bytes.length_fit, Bytes.length_fit]

/-- Pages of one length are written or refused alike, whatever they hold. -/
theorem agree_write (key : PageKey) {page page' : Bytes} (hlength : page.length = page'.length) :
    Agree Alike (· = ·) (write key page) (write key page') := by
  refine .get fun s s' h => ?_
  rw [h.pageSize, hlength]
  dsimp only
  split
  · exact .throw _
  have hfile := h.file
  generalize s.file = file at hfile ⊢
  generalize s'.file = file' at hfile ⊢
  cases hfile with
  | none => exact .throw _
  | some hfile =>
    obtain ⟨hslot, hs⟩ := h.allocateSlot key
    have hoffset : slotOffset (s.allocateSlot key).1 (s.allocateSlot key).2.pageSize =
        slotOffset (s'.allocateSlot key).1 (s'.allocateSlot key).2.pageSize := by
      rw [hslot, hs.pageSize]
    have hwrite := hfile.writeAt
      (slotOffset (s'.allocateSlot key).1 (s'.allocateSlot key).2.pageSize) hlength
    dsimp only
    rw [hoffset, hslot]
    generalize BackingFile.writeAt _ _ page = w at hwrite ⊢
    generalize BackingFile.writeAt _ _ page' = w' at hwrite ⊢
    obtain ⟨hresult, hfile⟩ := hwrite
    have hset : Alike { (s.allocateSlot key).2 with file := some w.2 }
        { (s'.allocateSlot key).2 with file := some w'.2 } := { hs with file := .some hfile }
    rw [hresult]
    split
    · exact .bind (.set hset) fun _ _ _ => .bind (.notify _) fun _ _ _ => .throw _
    · exact .bind (.set hset.countPageOut) fun _ _ _ => .pure rfl

end Swapper

end VirtualMemory
