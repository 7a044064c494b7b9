import VirtualMemory.Proofs.Alike
import VirtualMemory.Proofs.Pager.Run

/-!
# No decision depends on a byte

Two pagers are alike when they differ at most in the bytes that memory, swap file and images hold.
From alike pagers every operation ends alike and reports the same: which frame is taken, which page
leaves, which slot it gets and what fails is decided without looking at a byte. A read delivers as
many bytes in both, and a write may write other bytes, as long as they are as many.
-/

namespace VirtualMemory

open Op

structure Space.Alike (s s' : Space) : Prop where
  numPages : s.numPages = s'.numPages
  image : Option.Rel ImageIndex.Alike s.image s'.image
  snapshot : s.snapshot = s'.snapshot

theorem Space.Alike.refl (s : Space) : Alike s s := by
  refine ⟨rfl, ?_, rfl⟩
  cases s.image with
  | none => exact .none
  | some index => exact .some (ImageIndex.Alike.refl index)

/-- A file that gets faults loses those that it had. -/
theorem BackingFile.Alike.disturbed {f f' : BackingFile} (h : f.Alike f')
    {faults faults' : FileFaults} (hfaults : faults.Alike faults') :
    (f.disturbed faults).Alike (f'.disturbed faults') := by
  cases h with
  | memory hclosed => exact .faulty hclosed hfaults
  | host hclosed => exact .faulty hclosed hfaults
  | faulty hclosed => exact .faulty hclosed hfaults

namespace Pager

variable {p p' : Pager} {ε α β : Type} {A : α → β → Prop}

/-- Pagers that differ at most in the bytes that they hold. -/
structure Alike (p p' : Pager) : Prop where
  pageSize : p.pageSize = p'.pageSize
  table : p.table = p'.table
  frames : p.frames = p'.frames
  draws : p.draws = p'.draws
  processor : p.processor = p'.processor
  stats : p.stats = p'.stats
  swap : p.swap.Alike p'.swap
  memory : p.memory.Alike p'.memory
  spaces : ∀ pid, Option.Rel Space.Alike (p.spaces.get? pid) (p'.spaces.get? pid)

theorem Alike.refl (p : Pager) : Alike p p := by
  refine ⟨rfl, rfl, rfl, rfl, rfl, rfl, .refl _, .refl _, ?_⟩
  intro pid
  cases p.spaces.get? pid with
  | none => exact .none
  | some space => exact .some (Space.Alike.refl space)

theorem Alike.tlb (h : Alike p p') : p.tlb = p'.tlb := congrArg Processor.tlb h.processor

theorem Alike.setTlb (h : Alike p p') (c : Tlb) : Alike (p.setTlb c) (p'.setTlb c) := by
  refine { h with processor := ?_ }
  simp only [Pager.setTlb, h.processor]

/-- Which processes have a space is control state. -/
theorem Alike.contains (h : Alike p p') (pid : Pid) :
    p.spaces.contains pid = p'.spaces.contains pid := by
  have hspace := h.spaces pid
  rw [OrderedMap.contains, OrderedMap.contains]
  generalize p.spaces.get? pid = space at hspace ⊢
  generalize p'.spaces.get? pid = space' at hspace ⊢
  cases hspace with
  | none => rfl
  | some _ => rfl

theorem Alike.inBounds (h : Alike p p') (pid : Pid) (vpn : Vpn) :
    p.inBounds pid vpn = p'.inBounds pid vpn := by
  have hspace := h.spaces pid
  rw [Pager.inBounds, Pager.inBounds]
  generalize p.spaces.get? pid = space at hspace ⊢
  generalize p'.spaces.get? pid = space' at hspace ⊢
  cases hspace with
  | none => rfl
  | some hs => simp only [Option.any_some, hs.numPages]

/-- A page comes from the image of its space in both pagers or in none. -/
theorem Alike.pendingImage (h : Alike p p') (key : PageKey) :
    Option.Rel ImageIndex.Alike (p.pendingImage key) (p'.pendingImage key) := by
  have hspace := h.spaces key.pid
  rw [Pager.pendingImage, Pager.pendingImage, h.swap.isPending]
  generalize p.spaces.get? key.pid = space at hspace ⊢
  generalize p'.spaces.get? key.pid = space' at hspace ⊢
  split
  · cases hspace with
    | none => exact .none
    | @some s s' hs =>
      have himage := hs.image
      simp only [Option.bind_some]
      generalize s.image = image at himage ⊢
      generalize s'.image = image' at himage ⊢
      cases himage with
      | none => exact .none
      | some hi =>
        rw [Option.filter_some, Option.filter_some, hi.locate]
        split
        · exact .some hi
        · exact .none
  · exact .none

/-- From pagers that are alike `x` ends alike, with values that are related by `A`. -/
def Blind (A : α → α → Prop) (x : Op Pager ε α) : Prop := Agree Alike A x x

/-- What follows may depend on the first result, which is the same in both runs. -/
theorem Blind.bind {x : Op Pager ε α} {f : α → Op Pager ε β} {B : β → β → Prop}
    (hx : Blind (· = ·) x) (hf : ∀ a, Blind B (f a)) : Blind B (x >>= f) :=
  Agree.bind hx fun a _ hab => hab ▸ hf a

/-- An error that is caught is caught in both runs. -/
theorem Blind.attempt {x : Op Pager ε α} {ε' : Type} (hx : Blind (· = ·) x) :
    Blind (· = ·) (Op.attempt x : Op Pager ε' (Except ε α)) := by
  intro p p' h
  have hattempt : Blind (Corresponds (· = ·)) (Op.attempt x : Op Pager ε' (Except ε α)) :=
    Agree.attempt hx
  obtain ⟨hr, hn, hs⟩ := hattempt p p' h
  cases hr with
  | ok hr => exact ⟨.ok (corresponds_eq_iff.mp hr), hn, hs⟩

theorem blind_pure (a : α) : Blind (· = ·) (pure a : Op Pager ε α) := .pure rfl

theorem blind_modifyGet {f : Pager → α × Pager}
    (h : ∀ p p', Alike p p' → (f p).1 = (f p').1 ∧ Alike (f p).2 (f p').2) :
    Blind (· = ·) (modifyGet f : Op Pager ε α) := .modifyGet h

/-! ## Parts of the pager -/

/-- The page table is the same in both runs, so whatever it is asked says the same. -/
theorem blind_onTable (x : Op PageTable ε α) : Blind (· = ·) (Op.on tablePart x) :=
  .onCommon x (fun _ _ h => h.table) fun _ _ _ h => { h with table := rfl }

theorem blind_onFrames (x : Op Frames ε α) : Blind (· = ·) (Op.on framesPart x) :=
  .onCommon x (fun _ _ h => h.frames) fun _ _ _ h => { h with frames := rfl }

theorem blind_onProcessor (x : Op Processor ε α) : Blind (· = ·) (Op.on processorPart x) :=
  .onCommon x (fun _ _ h => h.processor) fun _ _ _ h => { h with processor := rfl }

/-- The swapper is the one part that may answer differently: its pages differ in their bytes. -/
theorem agree_onSwap {x : Op Swapper ε α} {y : Op Swapper ε β} (h : Agree Swapper.Alike A x y) :
    Agree Alike A (Op.on swapPart x) (Op.on swapPart y) :=
  h.on (fun _ _ h => h.swap) fun _ _ _ _ h hs => { h with swap := hs }

theorem blind_count (c : Counter) : Blind (· = ·) (count c : Op Pager ε Unit) :=
  .modify fun _ _ h => { h with stats := congrArg (·.add 1 c) h.stats }

/-! ## Pages that leave -/

theorem blind_flushPage (key : PageKey) : Blind (· = ·) (flushPage key) := by
  refine .bind (blind_modifyGet fun p p' h => ?_) fun cached => ?_
  · rw [h.tlb]
    exact ⟨rfl, h.setTlb _⟩
  · split
    · exact blind_onTable _
    · exact blind_pure _

/-- The page that is written out is chosen by its flags, never by what it holds. -/
theorem blind_writeOut (key : PageKey) (ppn : Ppn) : Blind (· = ·) (writeOut key ppn) := by
  refine .get fun p p' h => ?_
  rw [h.pageSize]
  refine .bind (.ofExcept (h.memory.readPage ppn _)) fun page page' hlength => ?_
  refine .bind (agree_onSwap (Swapper.agree_write key hlength)) fun _ _ _ => ?_
  exact blind_count _

theorem blind_vacate (key : PageKey) (ppn : Ppn) : Blind (· = ·) (vacate key ppn) := by
  refine .bind (blind_onTable _) fun _ => .bind (blind_onFrames _) fun _ => ?_
  exact .bind (blind_count _) fun _ => blind_pure _

/-- A page is written out, dropped or kept whatever it holds. -/
theorem blind_evictPage (key : PageKey) : Blind (· = ·) (evictPage key) := by
  refine .bind (blind_flushPage key) fun _ => .get fun p p' h => ?_
  rw [h.table]
  split
  · dsimp only
    split
    · exact .bind (blind_writeOut key _) fun _ _ _ => blind_vacate key _
    · exact blind_vacate key _
  · exact .throw _

/-- The victim is drawn from the table. -/
theorem blind_evictOne : Blind (· = ·) evictOne := by
  refine .bind (blind_modifyGet fun p p' h => ?_) fun victim => ?_
  · rw [h.table, h.draws]
    exact ⟨rfl, { h with table := rfl, draws := rfl }⟩
  · split
    · exact blind_evictPage _
    · exact .bind (.notify _) fun _ => .throw _

theorem blind_takeFrame : Blind (· = ·) (takeFrame : Op Pager ε (Option Ppn)) := by
  refine blind_modifyGet fun p p' h => ?_
  rw [h.frames]
  exact ⟨rfl, { h with frames := rfl }⟩

/-- The victim is drawn from the frames in use, which are the same in both runs. -/
theorem blind_acquireFrame : Blind (· = ·) acquireFrame := by
  refine .bind blind_takeFrame fun ppn => ?_
  split
  · exact blind_pure _
  · refine .bind blind_evictOne fun _ => .bind blind_takeFrame fun ppn => ?_
    split
    · exact blind_pure _
    · exact .throw _

/-! ## The cache -/

/-- The slot is the first invalid one or a drawn one, and the draws are the same. -/
theorem blind_chooseSlot : Blind (· = ·) chooseSlot := by
  refine blind_modifyGet fun p p' h => ?_
  rw [h.tlb, h.draws]
  split
  · exact ⟨rfl, h⟩
  · exact ⟨rfl, { h with draws := rfl }⟩

theorem blind_mergeBack (key : PageKey) (e : Entry) (n : Notice) :
    Blind (· = ·) (mergeBack key e n) := by
  refine .bind (blind_onTable _).attempt fun r => ?_
  split
  · exact .notify _
  · exact blind_pure _

theorem blind_flushSlot (index : Nat) : Blind (· = ·) (flushSlot index) := by
  refine .bind (blind_modifyGet fun p p' h => ?_) fun replaced => ?_
  · rw [h.tlb]
    exact ⟨rfl, h.setTlb _⟩
  · split
    · exact blind_mergeBack _ _ _
    · exact blind_pure _

theorem blind_refill (pid : Pid) (e : Entry) : Blind (· = ·) (refill pid e) := by
  refine .get fun p p' h => ?_
  rw [h.tlb]
  split
  · exact .pure rfl
  · split
    · exact .bind (.notify _) fun _ _ _ => .pure rfl
    · refine Blind.bind blind_chooseSlot fun index => .bind (blind_flushSlot index) fun _ => ?_
      refine .modify fun p p' h => ?_
      rw [h.tlb]
      exact h.setTlb _

/-! ## Pages that come in -/

/-- Found are as many bytes, and they are read-only in both or in none. -/
theorem blind_fetch (key : PageKey) :
    Blind (fun found found' => found.1.length = found'.1.length ∧ found.2 = found'.2)
      (fetch key) := by
  refine .get fun p p' h => ?_
  have himage := h.pendingImage key
  rw [h.pageSize, h.swap.slot?]
  generalize p.pendingImage key = image at himage ⊢
  generalize p'.pendingImage key = image' at himage ⊢
  cases himage with
  | some hi =>
    refine .bind (.ofExcept (hi.load key.vpn _)) fun found found' hfound => ?_
    exact .bind (blind_count _) fun _ _ _ => .pure hfound
  | none =>
    dsimp only
    split
    · refine .bind (agree_onSwap (Swapper.agree_readInto key _)) fun found found' hfound => ?_
      exact .bind (blind_count _) fun _ _ _ => .pure ⟨hfound, rfl⟩
    · exact .bind (blind_count _) fun _ _ _ => .pure ⟨rfl, rfl⟩

/-- Where a page comes from is decided by its slot and its place in the image; only the bytes that
arrive may differ. -/
theorem blind_fillFrame (key : PageKey) (ppn : Ppn) : Blind (· = ·) (fillFrame key ppn) := by
  refine Agree.bind (blind_fetch key) ?_
  rintro ⟨data, readOnly⟩ ⟨data', _⟩ ⟨hlength, rfl⟩
  refine .get fun p p' h => ?_
  refine .bind (.ofExcept (h.memory.writePage ppn hlength)) fun memory memory' hmemory => ?_
  refine .bind (.modify fun p p' h => ?_) fun _ _ _ => .pure rfl
  exact { h with memory := hmemory }

theorem blind_giveBack (ppn : Ppn) : Blind (· = ·) (giveBack ppn) := by
  refine .bind (blind_onFrames _).attempt fun r => ?_
  split
  · exact .notify _
  · exact blind_pure _

theorem blind_faultIn (key : PageKey) : Blind (· = ·) (faultIn key) := by
  refine .bind (blind_count _) fun _ => .bind blind_acquireFrame fun ppn => ?_
  refine .bind (blind_fillFrame key ppn).attempt fun r => ?_
  split
  · exact .bind (.liftM (blind_giveBack ppn)) fun _ => .throw _
  · refine .bind (blind_onTable _).attempt fun r => ?_
    split
    · exact .bind (.liftM (blind_giveBack ppn)) fun _ => .throw _
    · exact blind_pure _

/-- A whole miss is blind: it fails or succeeds for both, with one frame and one victim. -/
theorem blind_handleMiss (pid : Pid) (vaddr : VirtAddr) :
    Blind (· = ·) (handleMiss pid vaddr) := by
  refine .get fun p p' h => ?_
  rw [h.pageSize, h.table]
  dsimp only
  rw [h.inBounds]
  have hfill : ∀ e : Entry, Blind (· = ·) (do
      liftM (refill pid e)
      return e : Op Pager MemoryError Entry) :=
    fun e => .bind (.liftM (blind_refill pid e)) fun _ => blind_pure _
  refine Blind.bind (.checkDivisor _) fun _ => ?_
  split
  · exact .bind (.notify _) fun _ => .throw _
  · refine Blind.bind (blind_count _) fun _ => ?_
    split
    · exact .bind (blind_pure _) hfill
    · exact .bind (blind_faultIn _) hfill

/-! ## Context switches -/

/-- Spaces that differ at most in the bytes of their images may be changed alike. -/
theorem Alike.modifySpace (h : Alike p p') (pid : Pid) {f f' : Space → Space}
    (hf : ∀ s s', s.Alike s' → (f s).Alike (f' s')) :
    Alike { p with spaces := p.spaces.modify pid f }
      { p' with spaces := p'.spaces.modify pid f' } := by
  refine { h with spaces := fun q => ?_ }
  simp only [OrderedMap.get?_modify]
  split
  · have hspace := h.spaces pid
    generalize p.spaces.get? pid = space at hspace ⊢
    generalize p'.spaces.get? pid = space' at hspace ⊢
    cases hspace with
    | none => exact .none
    | some hs => exact .some (hf _ _ hs)
  · exact h.spaces q

theorem Alike.setSnapshot (h : Alike p p') (pid : Pid) (entries : List Entry) :
    Alike (p.setSnapshot pid entries) (p'.setSnapshot pid entries) :=
  h.modifySpace pid fun _ _ hs => { hs with snapshot := rfl }

/-- What a process leaves in the cache is entries, and entries hold no bytes. -/
theorem blind_saveContext (pid : Pid) : Blind (· = ·) (saveContext pid) := by
  refine .bind (blind_modifyGet fun p p' h => ?_) fun flushed => ?_
  · rw [h.tlb]
    exact ⟨rfl, h.setTlb _⟩
  · refine .bind (.forM fun e _ => blind_mergeBack _ _ _) fun _ => ?_
    refine .bind (.modify fun p p' h => h.setSnapshot pid flushed) fun _ => ?_
    exact blind_count _

theorem blind_reinstall (pid : Pid) (saved : Entry) : Blind (· = ·) (reinstall pid saved) := by
  refine .get fun p p' h => ?_
  rw [h.table]
  split
  · split
    · exact blind_refill pid _
    · exact .pure rfl
  · exact .pure rfl

theorem blind_restoreContext (pid : Pid) : Blind (· = ·) (restoreContext pid) := by
  refine .get fun p p' h => ?_
  have hspace := h.spaces pid
  generalize p.spaces.get? pid = space at hspace ⊢
  generalize p'.spaces.get? pid = space' at hspace ⊢
  cases hspace with
  | none => exact .pure rfl
  | some hs =>
    dsimp only
    rw [hs.snapshot]
    refine .bind (.modify fun p p' h => h.setSnapshot pid []) fun _ _ _ => ?_
    exact .forM fun saved _ => blind_reinstall pid saved

/-! ## Spaces -/

/-- The images need only be alike. -/
theorem agree_registerSpace (pid : Pid) (numPages : Nat) {image image' : Option ImageIndex}
    (himage : Option.Rel ImageIndex.Alike image image') :
    Agree Alike (· = ·) (registerSpace pid numPages image) (registerSpace pid numPages image') := by
  have hcovered : (image.map ImageIndex.vpns).getD [] = (image'.map ImageIndex.vpns).getD [] := by
    cases himage with
    | none => rfl
    | some hi =>
      simp only [Option.map_some, Option.getD_some, ImageIndex.vpns, hi.pages]
  refine .get fun p p' h => ?_
  rw [h.contains]
  dsimp only
  split
  · exact .bind (.notify _) fun _ _ _ => .throw _
  · rw [hcovered]
    refine .modify fun p p' h => { h with swap := ?_, spaces := fun q => ?_ }
    · have hmark :=
        h.swap.markAll (((image'.map ImageIndex.vpns).getD []).map fun vpn => ⟨pid, vpn⟩)
      rw [List.foldr_map, List.foldr_map] at hmark
      exact hmark
    · simp only [OrderedMap.get?_insert]
      split
      · exact .some ⟨rfl, himage, rfl⟩
      · exact h.spaces q

theorem blind_releasePage (key : PageKey) : Blind (· = ·) (releasePage key) := by
  refine .bind (blind_onTable _).attempt fun r => ?_
  split
  · exact blind_pure _
  · split
    · refine .bind (blind_onFrames _).attempt fun r => ?_
      split
      · exact .notify _
      · exact blind_pure _
    · exact blind_pure _

/-- Frames, slots and cached entries go back in the same order in both runs. -/
theorem blind_teardown (pid : Pid) : Blind (· = ·) (Pager.teardown pid) := by
  refine .bind (.modify fun p p' h => ?_) fun _ => ?_
  · rw [h.tlb]
    exact h.setTlb _
  · refine .get fun p p' h => ?_
    rw [h.table]
    refine .bind (.forM fun vpn _ => blind_releasePage _) fun _ _ _ => .modify fun p p' h => ?_
    refine { h with swap := h.swap.releaseProcess pid, spaces := fun q => ?_ }
    simp only [OrderedMap.get?_erase]
    split
    · exact .none
    · exact h.spaces q

/-! ## Accesses -/

/-- An address is found, or refused, by the entry of its page. -/
theorem blind_translate (pid : Pid) (vaddr : VirtAddr) (access : Access) :
    Blind (· = ·) (Pager.translate pid vaddr access) := by
  refine .get fun p p' h => ?_
  rw [h.pageSize, h.inBounds]
  refine Blind.bind (.checkDivisor _) fun _ => ?_
  dsimp only
  split
  · exact .throw _
  · exact blind_onProcessor _

/-- A read delivers as many bytes. -/
theorem blind_read (pid : Pid) (vaddr : VirtAddr) (length : Nat) :
    Blind (fun data data' : Bytes => data.length = data'.length) (Pager.read pid vaddr length) := by
  refine .bind (blind_translate pid vaddr .read) fun paddr => ?_
  refine .get fun p p' h => .pure ?_
  rw [PhysicalMemory.read, PhysicalMemory.read, ByteStore.length_read, ByteStore.length_read,
    h.memory.size]

/-- What is written may differ, but for its length. -/
theorem agree_writeBytes (pid : Pid) (vaddr : VirtAddr) {data data' : Bytes}
    (hlength : data.length = data'.length) :
    Agree Alike (· = ·) (Pager.write pid vaddr data) (Pager.write pid vaddr data') := by
  refine Agree.bind (blind_translate pid vaddr .write) ?_
  rintro paddr _ rfl
  refine .modifyGet fun p p' h => ?_
  obtain ⟨hn, hmemory⟩ := h.memory.write paddr hlength
  exact ⟨hn, { h with memory := hmemory }⟩

/-! ## The surroundings -/

/-- The two files may tear different bytes, as long as they fail at the same calls. -/
theorem agree_swapFaults {faults faults' : FileFaults} (hfaults : faults.Alike faults') :
    Agree Alike (· = ·) (modify (·.withSwapFaults faults) : Op Pager ε PUnit)
      (modify (·.withSwapFaults faults')) := by
  refine .modify fun p p' h => { h with swap := { h.swap with file := ?_ } }
  have hfile := h.swap.file
  simp only [withSwapFaults, Swapper.disturbed]
  generalize p.swap.file = file at hfile ⊢
  generalize p'.swap.file = file' at hfile ⊢
  cases hfile with
  | none => exact .none
  | some hfile => exact .some (hfile.disturbed hfaults)

theorem blind_imageFaults (pid : Pid) (faults : List ((Nat × Nat) × MemoryError)) :
    Blind (· = ·) (modify (·.withImageFaults pid faults) : Op Pager ε PUnit) := by
  refine .modify fun p p' h => h.modifySpace pid fun s s' hs => { hs with image := ?_ }
  have himage := hs.image
  dsimp only
  generalize s.image = image at himage ⊢
  generalize s'.image = image' at himage ⊢
  cases himage with
  | none => exact .none
  | some hi => exact .some { hi with faults := rfl }

theorem blind_draws (draws : Draws) :
    Blind (· = ·) (modify (·.withDraws draws) : Op Pager ε PUnit) :=
  .modify fun _ _ h => { h with draws := rfl }

end Pager

end VirtualMemory
