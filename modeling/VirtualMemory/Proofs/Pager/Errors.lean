import VirtualMemory.Proofs.Pager.FailedFault
import VirtualMemory.Proofs.Pager.Reports

/-!
# Errors come from outside

Every operation of table, frames and memory may fail, and a fault goes through a dozen of them. In a
pager that a run can reach they all succeed, so that a miss inside its space fails with an error of
the image or of the swap file and no other, and an eviction with one of the swap file.
-/

namespace VirtualMemory

namespace Swapper

variable {s : Swapper} {key : PageKey} {cause : MemoryError} {file : BackingFile}

/-- A page that fits is refused by the file alone. -/
theorem write_refused (hfile : s.file = some file) {page : Bytes}
    (hpage : page.length = s.pageSize) (herror : (write key page s).result = .error cause) :
    ∃ slot e, (file.writeAt (slotOffset slot s.pageSize) page).1 = .error e ∧
      cause = .ofFile e := by
  have hw : Written s key page (write key page s).result (write key page s).state :=
    write_written s key page
  rw [herror] at hw
  generalize (write key page s).state = s' at hw
  cases hw with
  | misfit hsize => exact absurd hpage hsize
  | closed _ hclosed =>
    rw [isOpen_of_file hfile] at hclosed
    cases hclosed
  | failed _ hfile' hwrite =>
    obtain rfl := Option.some.inj (hfile.symm.trans hfile')
    exact ⟨_, _, hwrite, rfl⟩

/-- A page with a slot is refused by the file alone. -/
theorem readInto_refused (hfile : s.file = some file) {slot : Nat} (hslot : s.slot? key = some slot)
    (herror : (readInto key s.pageSize s).result = .error cause) :
    ∃ e, file.readAt (slotOffset slot s.pageSize) s.pageSize = .error e ∧ cause = .ofFile e := by
  rw [readInto_result hfile, hslot, standing] at herror
  split at herror
  next e hread => exact ⟨e, hread, (Except.error.inj herror).symm⟩
  next => cases herror

end Swapper

namespace Pager

variable {p p' : Pager} {key : PageKey} {ppn : Ppn} {cause : MemoryError} {c : Config}

/-! ## Errors of the image and of the file -/

/-- Reading page `key` of its image answers `cause`. -/
def ImageRefuses (p : Pager) (key : PageKey) (cause : MemoryError) : Prop :=
  ∃ index page, p.pendingImage key = some index ∧ index.locate key.vpn = some page ∧
    index.image.readPage page.sectionIndex page.page p.pageSize = .error cause

/-- The file answers with an error when page `key` is written out, and `cause` is its name. -/
def FileRefusesWrite (p : Pager) (key : PageKey) (cause : MemoryError) : Prop :=
  ∃ ppn page file slot e, p.frame? key = some ppn ∧ p.memory.readPage ppn p.pageSize = .ok page ∧
    p.swap.file = some file ∧ (file.writeAt (slotOffset slot p.pageSize) page).1 = .error e ∧
    cause = .ofFile e

/-- The file answers with an error when page `key` is read from its slot, and `cause` is its
name. -/
def FileRefusesRead (p : Pager) (key : PageKey) (cause : MemoryError) : Prop :=
  ∃ file slot e, p.swap.file = some file ∧ p.swap.slot? key = some slot ∧
    file.readAt (slotOffset slot p.pageSize) p.pageSize = .error e ∧ cause = .ofFile e

/-- What a miss of page `key` may fail with: an error of its image, one of the file while another
page is written out, or one of the file while the page is read after room was made. -/
inductive MissRefused (p : Pager) (key : PageKey) (cause : MemoryError) : Prop
  | image (h : ImageRefuses p key cause)
  | write {victim : PageKey} (h : FileRefusesWrite p victim cause)
  | read {p₁ : Pager} (hroom : MadeRoom p p₁) (h : FileRefusesRead p₁ key cause)

/-- The errors of table, frames and memory, which nothing but the pager could have caused. -/
def internalErrors : List MemoryError :=
  [.outOfMemory, .alreadyMapped, .notMapped, .doubleFree, .outOfBounds, .invalidParameter]

theorem ofFile_notMem_internalErrors (e : FileError) : .ofFile e ∉ internalErrors := by
  cases e <;> decide

theorem WriteFails.fileRefusesWrite (hfails : WriteFails p key ppn cause) (h : p.WellFormed none)
    (hopen : p.swap.isOpen = true) (hf : p.frame? key = some ppn) :
    FileRefusesWrite p key cause := by
  obtain ⟨page, hpage, herror⟩ := hfails
  obtain ⟨page', hpage', hlength, -⟩ := h.sized.readPage (h.lt_of_frame? hf)
  obtain rfl := Except.ok.inj (hpage.symm.trans hpage')
  obtain ⟨file, hfile⟩ := Option.isSome_iff_exists.mp hopen
  obtain ⟨slot, e, hwrite, hcause⟩ := Swapper.write_refused hfile hlength herror
  rw [h.sized.swap] at hwrite
  exact ⟨ppn, page, file, slot, e, hf, hpage, hfile, hwrite, hcause⟩

theorem MissFailure.refused {left : Option PageKey} (hfail : MissFailure p p' key cause left)
    (h : p.WellFormed none) (hopen : p.swap.isOpen = true) (hf : p.frame? key = none) :
    MissRefused p key cause := by
  cases hfail with
  | victimWrite _ hvictim =>
    obtain ⟨victim, ppn, -, hframe, hfails, -⟩ := hvictim
    exact .write (hfails.fileRefusesWrite h hopen hframe)
  | @imageRead _ index hpending hload =>
    -- a pending page is one that its image has, so that its index finds it
    have hlocate : (index.locate key.vpn).isSome = true := by
      rw [pendingImage] at hpending
      split at hpending
      · exact (Option.filter_eq_some_iff.mp hpending).2
      · cases hpending
    obtain ⟨page, hpage⟩ := Option.isSome_iff_exists.mp hlocate
    exact .image ⟨index, page, hpending, hpage, ImageIndex.readPage_of_load_error hpage hload⟩
  | @swapRead _ slot p₁ hslot hroom hread =>
    have hsteady := hroom.madeRoom.steady
    have hkeeps := (hroom.kept_absent hf).stored (isDirty_of_absent hf)
    have hsize : p₁.swap.pageSize = p₁.pageSize :=
      hsteady.swapSize.trans (h.sized.swap.trans hsteady.pageSize.symm)
    obtain ⟨file, hfile⟩ := Option.isSome_iff_exists.mp (hsteady.isOpen.trans hopen)
    have hslot₁ := hkeeps.slot.trans hslot
    rw [← hsteady.pageSize, ← hsize] at hread
    obtain ⟨e, hanswer, hcause⟩ := Swapper.readInto_refused hfile hslot₁ hread
    rw [hsize] at hanswer
    exact .read hroom.madeRoom ⟨file, slot, e, hfile, hslot₁, hanswer, hcause⟩

/-! ## What fails in a pager that is in order -/

/-- Misses, evictions, and the changes to table and frames that they and others rely on, fail for
reasons outside the pager alone. -/
structure OnlyExternalErrors (p : Pager) : Prop where
  outside : ∀ pid vaddr, p.inBounds pid (vaddr.vpn p.pageSize) = false →
    (handleMiss pid vaddr p).Returns (.error .invalidAddress)
  inside : ∀ pid vaddr cause, p.inBounds pid (vaddr.vpn p.pageSize) = true →
    (handleMiss pid vaddr p).result = .error cause → MissRefused p (p.pageOf pid vaddr) cause
  /-- An error of table, frames or memory can only be one that the image answered with. -/
  internal : ∀ pid vaddr cause, (handleMiss pid vaddr p).result = .error cause →
    cause ∈ internalErrors → ImageRefuses p (p.pageOf pid vaddr) cause
  absent : ∀ key, (evictPage key p).result = .error .notMapped ↔ p.frame? key = none
  evict : ∀ key cause, (evictPage key p).result = .error cause → cause ≠ .notMapped →
    FileRefusesWrite p key cause ∧ cause ∉ internalErrors
  flush : ∀ key, (flushPage key p).result = .ok ()
  /-- What the cache knows of a page can be told to the table. -/
  update : ∀ key e, p.tlb.cached key = some e → (PageTable.update key e p.table).result = .ok ()
  /-- The frame of a page can be given back. -/
  release : ∀ key ppn, p.frame? key = some ppn → (Frames.release ppn p.frames).result = .ok ()
  /-- No failure is passed over: those that nobody is told of would be reported. So would be a
  division by zero. -/
  reports : ∀ event, (perform event).Reports p

theorem handleMiss_of_outside {pid : Pid} {vaddr : VirtAddr}
    (hout : p.inBounds pid (vaddr.vpn p.pageSize) = false) :
    (handleMiss pid vaddr).Ends p fun r _ => r = .error .invalidAddress := by
  simp only [handleMiss, Op.ends_bind, Op.ends_get, Op.ends_checkDivisor, hout, Bool.not_false,
    if_true, Op.ends_notify, Op.ends_throw]

theorem evictPage_of_absent (h : p.WellFormed none) (hf : p.frame? key = none) :
    (evictPage key).Ends p fun r _ => r = .error .notMapped := by
  simp only [evictPage, Op.ends_bind]
  refine (flushPage_ends h key).imp ?_
  rintro r p₁ ⟨rfl, t, c, hrec, -, rfl⟩
  have hnone : (p.recache t c).table.lookupValid key = none :=
    frame?_eq_none_iff.mp (((hrec.still h).kept key).frame.trans hf)
  simp only [Op.ends_get, hnone, Op.ends_throw]

theorem WellFormed.onlyExternalErrors (h : p.WellFormed none) (hword : p.frames.InWord)
    (hdiv : p.pageSize.toUInt32 ≠ 0) (hopen : p.swap.isOpen = true) : p.OnlyExternalErrors := by
  have hinside : ∀ pid vaddr cause, p.inBounds pid (vaddr.vpn p.pageSize) = true →
      (handleMiss pid vaddr p).result = .error cause →
        MissRefused p (p.pageOf pid vaddr) cause := by
    intro pid vaddr cause hin herror
    obtain ⟨-, -, hr⟩ := handleMiss_ends h (rfl : p.pageOf pid vaddr = _)
    rw [herror] at hr
    obtain ⟨hf, hunresolved⟩ := hr.2 hin
    rcases hunresolved.missFailure h hf with ⟨left, -, hfail, -⟩ | ⟨hmany, -⟩
    · exact hfail.refused h hopen hf
    · exact absurd hword hmany
  have hevict : ∀ key cause, (evictPage key p).result = .error cause → p.frame? key ≠ none →
      FileRefusesWrite p key cause := by
    intro key cause herror hf
    obtain ⟨ppn, hf⟩ := Option.ne_none_iff_exists'.mp hf
    obtain ⟨-, -, hr⟩ := evictPage_ends h key
    rw [herror] at hr
    exact (hr.2 ppn hf).1.fileRefusesWrite h hopen hf
  have hmapped : ∀ key cause, FileRefusesWrite p key cause → cause ∉ internalErrors := by
    rintro key cause ⟨-, -, -, -, e, -, -, -, -, rfl⟩
    exact ofFile_notMem_internalErrors e
  constructor
  · intro pid vaddr hout
    exact ⟨handleMiss_of_outside hout, (handleMiss_reports h hword hdiv pid vaddr).running⟩
  · exact hinside
  · intro pid vaddr cause herror hinternal
    cases hin : p.inBounds pid (vaddr.vpn p.pageSize) with
    | false =>
      have hout : (handleMiss pid vaddr p).result = .error .invalidAddress :=
        handleMiss_of_outside hin
      rw [hout] at herror
      cases herror
      exact absurd hinternal (by decide)
    | true =>
      cases hinside pid vaddr cause hin herror with
      | image himage => exact himage
      | write hwrite => exact absurd hinternal (hmapped _ _ hwrite)
      | read _ hread =>
        obtain ⟨-, -, e, -, -, -, rfl⟩ := hread
        exact absurd hinternal (ofFile_notMem_internalErrors e)
  · intro key
    constructor
    · intro herror
      by_contra hf
      exact hmapped key _ (hevict key _ herror hf) (by decide)
    · exact evictPage_of_absent h
  · intro key cause herror hcause
    have hf : p.frame? key ≠ none := by
      intro hf
      have habsent : (evictPage key p).result = .error .notMapped := evictPage_of_absent h hf
      rw [habsent] at herror
      cases herror
      exact hcause rfl
    exact ⟨hevict key cause herror hf, hmapped key cause (hevict key cause herror hf)⟩
  · intro key
    exact (flushPage_ends h key).1
  · intro key e he
    exact (update_of_cached h he).1
  · intro key ppn hf
    have hlt := h.lt_of_frame? hf
    have hused : p.frames.isFree ppn = false := by
      rw [Bool.eq_false_iff]
      intro hfree
      exact (h.isFree_iff.mp hfree).2 key hf
    exact (Frames.release_of_used hlt hused).1
  · intro event
    exact perform_reports h hword hdiv event

/-- Whatever is done to a pager and whatever fails around it, the pager itself causes no error, as
long as a word has room for the number of its frames and the size of a page. -/
theorem errors_external (hc : Created c p) (hcount : c.physPages < 0x100000000)
    (hsize : c.pageSize < 0x100000000) (events : List Event) :
    (p.after events).OnlyExternalErrors := by
  obtain ⟨h, -, -, hpage, hopen⟩ := hc.wellFormed
  have hlasting := lasting_after h events
  have hafter := h.after events
  have hword : (p.after events).frames.InWord := (hc.inWord hcount).of_total hlasting.total
  have hlt : (p.after events).pageSize < 0x100000000 := by rwa [hlasting.pageSize, hpage]
  exact hafter.onlyExternalErrors hword (hafter.sized.geometry.divisor hlt)
    (hlasting.isOpen.trans hopen)

/-- A written page cannot be written out, and a page of the image cannot be read. -/
theorem errors_external_neighbours :
    (pair.after (.swapFaults { write := some .ioFailure } :: .write 1 ⟨4⟩ [7] ::
        neighbours)).OnlyExternalErrors ∧
      (evictPage ⟨1, 1⟩ (pair.after (.swapFaults { write := some .ioFailure } ::
        .write 1 ⟨4⟩ [7] :: neighbours))).result = .error .swapFailure ∧
      (handleMiss 1 ⟨8⟩ (pair.after neighbours)).result = .error .invariantViolation :=
  ⟨errors_external created_pair (by decide) (by decide) _, by decide +kernel, by decide +kernel⟩

/-- If a word does not count the frames, the first page that comes in finds none. If it does not
hold the size of a page, a miss outside every space divides by zero. -/
theorem first_miss_fails :
    (Created countlessConfig countless ∧
      (countless.after [.register 1 1 none]).inBounds 1 0 = true ∧
      (handleMiss 1 ⟨0⟩ (countless.after [.register 1 1 none])).result = .error .outOfMemory) ∧
    Created vastConfig vast ∧ (handleMiss 1 ⟨0⟩ vast).halted = true :=
  ⟨⟨created_countless, by decide +kernel, by decide +kernel⟩, created_vast, by decide +kernel⟩

end Pager

end VirtualMemory
