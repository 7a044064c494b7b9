import VirtualMemory.Proofs.SwapCalls

/-!
# Reading back from the swap

Over a file in memory that nobody else touches, a page reads as it was last written since its slot
was given back, and as zeros if it was not. A slot that was given back goes to another page with the
old bytes still in it, so what carries the runs is `Holds`: it says what every page stores, and each
call changes that by `Call.leaves`.
-/

namespace VirtualMemory

theorem MemoryFile.closed_writeAt (f : MemoryFile) (offset : Nat) (data : Bytes) :
    (f.writeAt offset data).2.closed = f.closed := by
  unfold MemoryFile.writeAt
  split <;> rfl

namespace Swapper

variable {s s' : Swapper} {key : PageKey} {content : Option Bytes} {pageSize : Nat}

/-! ## What a page stores -/

/-- The slot of the page holds `content`; without content the page has no slot. -/
def Stores (s : Swapper) (key : PageKey) : Option Bytes → Prop
  | some page => page.length = s.pageSize ∧
      ∃ slot, s.slot? key = some slot ∧ ∀ o < s.pageSize, s.byte slot o = page.getD o 0
  | none => s.slot? key = none

/-- A page goes on to store what it did where its slot and the bytes there stay. -/
theorem Stores.frame (h : s.Stores key content) (hsize : s'.pageSize = s.pageSize)
    (hslot : s'.slot? key = s.slot? key)
    (hbytes : ∀ slot, s.slot? key = some slot → ∀ o < s.pageSize, s'.byte slot o = s.byte slot o) :
    s'.Stores key content := by
  cases content with
  | none => exact hslot.trans h
  | some page =>
    obtain ⟨hlength, slot, hown, hpage⟩ := h
    refine ⟨hlength.trans hsize.symm, slot, hslot.trans hown, ?_⟩
    intro o ho
    have ho : o < s.pageSize := hsize ▸ ho
    exact (hbytes slot hown o ho).trans (hpage o ho)

theorem Stores.sameFile (h : s.Stores key content) (hsize : s'.pageSize = s.pageSize)
    (hslot : s'.slot? key = s.slot? key) (hfile : s'.file = s.file) : s'.Stores key content := by
  refine h.frame hsize hslot ?_
  intro slot _ o _
  rw [byte, byte, hfile, hsize]

/-! ## What a call leaves -/

/-- What the page has after a call; it had `before`. -/
def Call.leaves (key : PageKey) (before : Option Bytes) : Call → Option Bytes
  | .write k page => if k = key then some page else before
  | .freeSlot k => if k = key then none else before
  | .releaseProcess pid => if key.pid = pid then none else before
  | _ => before

/-- The page that was written last since the slot was given back. The latest call comes first. -/
def lastPage (key : PageKey) : List Call → Option Bytes
  | [] => none
  | call :: past => call.leaves key (lastPage key past)

/-- Pages are written whole, and nobody else touches the file. -/
def Call.Plain (pageSize : Nat) : Call → Prop
  | .write _ page => page.length = pageSize
  | .allocateSlot _ => False
  | .close => False
  | .alterFile _ => False
  | _ => True

instance Call.decidablePlain (pageSize : Nat) : (call : Call) → Decidable (call.Plain pageSize)
  | .write _ page => inferInstanceAs (Decidable (page.length = pageSize))
  | .allocateSlot _ => inferInstanceAs (Decidable False)
  | .close => inferInstanceAs (Decidable False)
  | .alterFile _ => inferInstanceAs (Decidable False)
  | .markPending _ => inferInstanceAs (Decidable True)
  | .freeSlot _ => inferInstanceAs (Decidable True)
  | .releaseProcess _ => inferInstanceAs (Decidable True)
  | .readInto .. => inferInstanceAs (Decidable True)
  | .read _ => inferInstanceAs (Decidable True)

/-! ## Runs over a file in memory -/

def InMemory (s : Swapper) : Prop := ∃ f, s.file = some (.memory f) ∧ f.closed = false

theorem InMemory.reliable (h : s.InMemory) : s.Reliable := by
  obtain ⟨f, hfile, hopen⟩ := h
  exact ⟨.memory f, hfile, hopen⟩

theorem InMemory.sameFile (h : s.InMemory) (hfile : s'.file = s.file) : s'.InMemory := by
  obtain ⟨f, hf, hopen⟩ := h
  exact ⟨f, hfile.trans hf, hopen⟩

theorem InMemory.writing {f : MemoryFile} (hopen : f.closed = false) (key : PageKey)
    (page : Bytes) : (s.writing (.memory f) key page).InMemory :=
  ⟨_, rfl, (f.closed_writeAt _ page).trans hopen⟩

/-- A swap with pages of this size, over an open file in memory, that holds these pages. -/
structure Holds (s : Swapper) (pageSize : Nat) (contents : PageKey → Option Bytes) : Prop where
  wellFormed : s.WellFormed
  inMemory : s.InMemory
  pageSize_eq : s.pageSize = pageSize
  stores : ∀ key, s.Stores key (contents key)

variable {contents : PageKey → Option Bytes}

theorem holds_ofFile {f : MemoryFile} (hopen : f.closed = false) (pageSize : Nat) :
    (ofFile (.memory f) pageSize).Holds pageSize fun _ => none where
  wellFormed := wellFormed_ofFile (.memory f) pageSize
  inMemory := ⟨f, rfl, hopen⟩
  pageSize_eq := rfl
  stores := fun _ => rfl

theorem Holds.reading (h : s.Holds pageSize contents) (counters : SwapCounters) :
    (s.recounted counters).Holds pageSize contents where
  wellFormed := h.wellFormed.sameAccounts (sameAccounts_recounted s counters)
  inMemory := h.inMemory.sameFile rfl
  pageSize_eq := h.pageSize_eq
  stores := fun key => (h.stores key).sameFile rfl rfl rfl

theorem Holds.markPending (h : s.Holds pageSize contents) (key : PageKey) :
    (s.markPending key).Holds pageSize contents := by
  have hsame := sameSlots_markAll s [key]
  exact
    { wellFormed := h.wellFormed.markAll [key]
      inMemory := h.inMemory.sameFile hsame.file
      pageSize_eq := hsame.pageSize.trans h.pageSize_eq
      stores := fun k => (h.stores k).sameFile hsame.pageSize (hsame.slot? k) hsame.file }

theorem Holds.freeSlot (h : s.Holds pageSize contents) (key : PageKey) :
    (s.freeSlot key).Holds pageSize fun k => (Call.freeSlot key).leaves k (contents k) := by
  have hsame := sameFile_freeSlot s key
  refine ⟨h.wellFormed.freeSlot key, h.inMemory.sameFile hsame.file,
    hsame.pageSize.trans h.pageSize_eq, ?_⟩
  intro k
  have hslot := slot?_freeSlot s key k
  by_cases hk : k = key
  · rw [Call.leaves, if_pos hk.symm]
    exact hslot.trans (if_pos hk)
  · rw [Call.leaves, if_neg (Ne.symm hk)]
    exact (h.stores k).sameFile hsame.pageSize (hslot.trans (if_neg hk)) hsame.file

theorem Holds.releaseProcess (h : s.Holds pageSize contents) (pid : Pid) :
    (s.releaseProcess pid).Holds pageSize
      fun k => (Call.releaseProcess pid).leaves k (contents k) := by
  refine ⟨h.wellFormed.releaseProcess pid, h.inMemory.sameFile (file_releaseProcess s pid),
    (pageSize_releaseProcess s pid).trans h.pageSize_eq, ?_⟩
  intro k
  have hslot := slot?_releaseProcess s pid k
  rw [Call.leaves]
  split
  next hpid => exact hslot.trans (if_pos hpid)
  next hpid =>
    exact (h.stores k).sameFile (pageSize_releaseProcess s pid) (hslot.trans (if_neg hpid))
      (file_releaseProcess s pid)

/-- A page that is written stands in a slot of its own, so the others keep theirs. -/
theorem Holds.write (h : s.Holds pageSize contents) (key : PageKey) {page : Bytes}
    (hpage : page.length = pageSize) :
    (write key page).Ends s fun r s' =>
      (∃ slot, r = .ok slot) ∧
        s'.Holds pageSize fun k => (Call.write key page).leaves k (contents k) := by
  have hpage : page.length = s.pageSize := hpage.trans h.pageSize_eq.symm
  obtain ⟨f, hfile, hopen⟩ := h.inMemory
  refine ((write_ends h.wellFormed key hpage).and (write_written s key page)).imp ?_
  rintro r s' ⟨⟨ht, hok, hr⟩, hw⟩
  have hmemory : s'.InMemory := by
    cases hw with
    | misfit hsize => exact absurd hpage hsize
    | closed _ hclosed =>
      rw [isOpen_of_file hfile] at hclosed
      cases hclosed
    | failed _ hfile' _ =>
      obtain rfl := Option.some.inj (hfile.symm.trans hfile')
      exact .writing hopen key page
    | stored _ hfile' _ =>
      obtain rfl := Option.some.inj (hfile.symm.trans hfile')
      exact (InMemory.writing hopen key page).sameFile rfl
  obtain ⟨slot, rfl⟩ := hok hmemory.reliable
  obtain ⟨hslot, hbytes, -⟩ := hr
  refine ⟨⟨slot, rfl⟩, ht.wellFormed, hmemory, ht.pageSize.trans h.pageSize_eq, ?_⟩
  intro k
  by_cases hk : k = key
  · rw [Call.leaves, if_pos hk.symm, hk]
    refine ⟨hpage.trans ht.pageSize.symm, slot, hslot, ?_⟩
    rw [ht.pageSize]
    exact hbytes
  · rw [Call.leaves, if_neg (Ne.symm hk)]
    exact (h.stores k).frame ht.pageSize (ht.others k hk).slot (ht.others k hk).bytes

theorem readInto_recounts (s : Swapper) (key : PageKey) (length : Nat) :
    ∃ counters, (readInto key length s).state = s.recounted counters :=
  (readInto_delivered s key length).recounts

/-- A read by length and a read of the whole page are the same, but for what they answer. -/
theorem read_readInto (s : Swapper) (key : PageKey) :
    (read key s).result = (readInto key s.pageSize s).result.map SwapRead.data ∧
      (read key s).state = (readInto key s.pageSize s).state :=
  Op.bind_return (readInto key s.pageSize) SwapRead.data s

theorem Holds.call (h : s.Holds pageSize contents) {call : Call} (hplain : call.Plain pageSize) :
    (call.run s).state.Holds pageSize fun k => call.leaves k (contents k) := by
  cases call with
  | markPending key => exact h.markPending key
  | freeSlot key => exact h.freeSlot key
  | releaseProcess pid => exact h.releaseProcess pid
  | write key page => exact (h.write key hplain).2
  | readInto key length =>
    obtain ⟨counters, hs⟩ := readInto_recounts s key length
    have hstate : ((Call.readInto key length).run s).state = s.recounted counters := hs
    rw [hstate]
    exact h.reading counters
  | read key =>
    obtain ⟨counters, hs⟩ := readInto_recounts s key s.pageSize
    have hstate : ((Call.read key).run s).state = s.recounted counters :=
      (read_readInto s key).2.trans hs
    rw [hstate]
    exact h.reading counters
  | allocateSlot key => exact hplain.elim
  | close => exact hplain.elim
  | alterFile file => exact hplain.elim

theorem holds_after {f : MemoryFile} (hopen : f.closed = false) {calls : List Call}
    (hplain : ∀ call ∈ calls, call.Plain pageSize) :
    ((ofFile (.memory f) pageSize).after calls).Holds pageSize (lastPage · calls) := by
  induction calls with
  | nil => exact holds_ofFile hopen pageSize
  | cons call past ih =>
    have hpast := ih fun c hc => hplain c (List.mem_cons_of_mem call hc)
    exact hpast.call (hplain call List.mem_cons_self)

/-! ## Reading back -/

/-- How reads of a page are answered where it has this content. -/
structure ReadsAs (s : Swapper) (key : PageKey) (content : Option Bytes) : Prop where
  readInto : match content with
    | some page => ∃ slot, s.slot? key = some slot ∧
        (readInto key s.pageSize s).result = .ok (.loaded slot page)
    | none => (readInto key s.pageSize s).result = .ok (.zeroFilled (Bytes.zeros s.pageSize))
  read : (read key s).result = .ok (content.getD (Bytes.zeros s.pageSize))

/-- A read from a file that does not fail answers what the page stores. -/
theorem Stores.readsAs (h : s.WellFormed) (hreliable : s.Reliable)
    (hstores : s.Stores key content) : s.ReadsAs key content := by
  have hread := (read_readInto s key).1
  have ⟨file, hfile, _⟩ := hreliable
  have hinto := readInto_result hfile key
  cases content with
  | none =>
    have hnone : s.slot? key = none := hstores
    rw [hnone] at hinto
    exact ⟨hinto, hread.trans (congrArg (Except.map SwapRead.data) hinto)⟩
  | some page =>
    obtain ⟨hlength, slot, hslot, hpage⟩ := hstores
    obtain ⟨-, hok, hdata⟩ := readInto_ends h hslot
    obtain ⟨found, hfound⟩ := hok hreliable
    obtain ⟨hfoundLength, hbytes⟩ := hdata found hfound
    have hequal : found.data = page := by
      rw [Bytes.eq_map_range hfoundLength hbytes,
        Bytes.eq_map_range hlength fun o ho => (hpage o ho).symm]
    have hloaded : found = .loaded slot found.data := by
      rw [hfound, hslot, standing] at hinto
      split at hinto
      · cases hinto
      · obtain rfl := Except.ok.inj hinto
        rfl
    rw [hloaded, hequal] at hfound
    exact ⟨⟨slot, hslot, hfound⟩, hread.trans (congrArg (Except.map SwapRead.data) hfound)⟩

/-- Whatever was written, given back and used again in between, a page reads as it was last written
since its slot was given back, and otherwise as zeros; and no read changes more than counters. -/
theorem reads_last_page (f : MemoryFile) (hopen : f.closed = false) {calls : List Call}
    (hplain : ∀ call ∈ calls, call.Plain pageSize) (key : PageKey) :
    ((ofFile (.memory f) pageSize).after calls).ReadsAs key (lastPage key calls) ∧
      (∀ length, ∃ counters,
        (readInto key length ((ofFile (.memory f) pageSize).after calls)).state =
          ((ofFile (.memory f) pageSize).after calls).recounted counters) ∧
      ∃ counters, (read key ((ofFile (.memory f) pageSize).after calls)).state =
        ((ofFile (.memory f) pageSize).after calls).recounted counters := by
  have h := holds_after hopen hplain
  refine ⟨(h.stores key).readsAs h.wellFormed h.inMemory.reliable, ?_, ?_⟩
  · intro length
    exact readInto_recounts _ key length
  · obtain ⟨counters, hs⟩ := readInto_recounts ((ofFile (.memory f) pageSize).after calls) key _
    exact ⟨counters, (read_readInto _ key).2.trans hs⟩

/-- The slot of the first page is given back and goes to the second, which finds the bytes of the
first page there. -/
def handedOn : List Call :=
  [.read ⟨1, 0⟩, .write ⟨2, 0⟩ [7, 7, 7, 7], .freeSlot ⟨1, 0⟩, .write ⟨1, 0⟩ [5, 5, 5, 5]]

theorem reads_last_page_handedOn :
    (∀ call ∈ handedOn, call.Plain 4) ∧
      (readInto ⟨2, 0⟩ 4 ((ofFile (.memory {}) 4).after handedOn)).result =
        .ok (.loaded 0 [7, 7, 7, 7]) ∧
      (read ⟨2, 0⟩ ((ofFile (.memory {}) 4).after handedOn)).result = .ok [7, 7, 7, 7] ∧
      (read ⟨1, 0⟩ ((ofFile (.memory {}) 4).after handedOn)).result = .ok [0, 0, 0, 0] := by
  have hplain : ∀ call ∈ handedOn, call.Plain 4 := by decide
  have hslot : ((ofFile (.memory {}) 4).after handedOn).slot? ⟨2, 0⟩ = some 0 := by decide +kernel
  have hsize : ((ofFile (.memory {}) 4).after handedOn).pageSize = 4 := by decide +kernel
  obtain ⟨⟨slot, hown, hinto⟩, hread⟩ := (reads_last_page {} rfl hplain ⟨2, 0⟩).1
  obtain rfl := Option.some.inj (hslot.symm.trans hown)
  have hfreed := (reads_last_page {} rfl hplain ⟨1, 0⟩).1.read
  rw [hsize] at hinto hfreed
  exact ⟨hplain, hinto, hread, hfreed⟩

end Swapper

end VirtualMemory
