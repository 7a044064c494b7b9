import VirtualMemory.Proofs.Marks
import VirtualMemory.Proofs.Pager.Closing

/-!
# A closed swap stays as it is

Once its swap is closed, nothing that happens to pages changes what the swap keeps, nor the mark of
an entry: entries only move between table and cache, and the mark of one that is made is read off
the pending set, which no longer changes. Only spaces that come and go do more.
-/

namespace VirtualMemory

open Op

variable {marks : PageKey → Bool}

/-! ## The swap -/

namespace Swapper

variable {s : Swapper}

theorem write_of_closed (hclosed : s.isOpen = false) (key : PageKey) (page : Bytes) :
    (write key page).Ends s fun r s' => r.isOk = false ∧ s' = s ∧
      (page.length = s.pageSize → r = .error .swapClosed) := by
  have hnone := file_of_closed hclosed
  refine (write_written s key page).imp ?_
  intro r s' hw
  cases hw with
  | misfit hsize => exact ⟨rfl, rfl, fun hlength => absurd hlength hsize⟩
  | closed => exact ⟨rfl, rfl, fun _ => rfl⟩
  | failed _ hfile =>
    rw [hnone] at hfile
    cases hfile
  | stored _ hfile =>
    rw [hnone] at hfile
    cases hfile

theorem readInto_of_closed (hclosed : s.isOpen = false) (key : PageKey) (length : Nat) :
    (readInto key length).Ends s fun r s' => r.isOk = false ∧ s' = s := by
  have hnone := file_of_closed hclosed
  refine (readInto_delivered s key length).imp ?_
  intro r s' hd
  cases hd with
  | misfit => exact ⟨rfl, rfl⟩
  | closed => exact ⟨rfl, rfl⟩
  | untracked _ hopen => exact absurd (hclosed.symm.trans hopen) Bool.false_ne_true
  | failed _ hfile =>
    rw [hnone] at hfile
    cases hfile
  | loaded _ hfile =>
    rw [hnone] at hfile
    cases hfile

end Swapper

namespace Pager

variable {p p' p₀ : Pager} {key : PageKey} {ε α : Type}

/-! ## Operations on pages -/

/-- The swap and the spaces are those of `p₀`, and entries are marked as `marks` says. -/
structure Sealed (p₀ : Pager) (marks : PageKey → Bool) (p : Pager) : Prop where
  swap : p.swap = p₀.swap
  extent : ∀ pid, p.extent pid = p₀.extent pid
  table : p.table.Marked marks
  cache : p.tlb.Marked marks

theorem maintains_count (c : Counter) :
    Maintains (Sealed p₀ marks) (fun _ => True) (count c : Op Pager ε Unit) :=
  .modify fun _ h => { h with }

theorem maintains_onTable {x : Op PageTable ε α}
    (h : Maintains (PageTable.Marked marks) (fun _ => True) x) :
    Maintains (Sealed p₀ marks) (fun _ => True) (Op.on tablePart x) :=
  .on h (fun _ h => h.table) fun _ _ h ht => { h with table := ht }

theorem maintains_onFrames (x : Op Frames ε α) :
    Maintains (Sealed p₀ marks) (fun _ => True) (Op.on framesPart x) :=
  fun _ h => ⟨{ h with }, fun _ _ => trivial⟩

/-- A closed swap refuses a page that is to be written. -/
theorem maintains_swapWrite (hclosed : p₀.swap.isOpen = false) (key : PageKey) (page : Bytes) :
    Maintains (Sealed p₀ marks) (fun _ => False) (Op.on swapPart (Swapper.write key page)) := by
  intro p h
  rw [ends_on, show swapPart.get p = p₀.swap from h.swap]
  refine (Swapper.write_of_closed hclosed key page).imp ?_
  rintro (cause | a) s ⟨hr, rfl, -⟩
  · exact ⟨{ h with swap := rfl }, nofun⟩
  · cases hr

theorem maintains_swapRead (hclosed : p₀.swap.isOpen = false) (key : PageKey) (length : Nat) :
    Maintains (Sealed p₀ marks) (fun _ => False)
      (Op.on swapPart (Swapper.readInto key length)) := by
  intro p h
  rw [ends_on, show swapPart.get p = p₀.swap from h.swap]
  refine (Swapper.readInto_of_closed hclosed key length).imp ?_
  rintro (cause | a) s ⟨hr, rfl⟩
  · exact ⟨{ h with swap := rfl }, nofun⟩
  · cases hr

/-! ## Pages that leave -/

theorem maintains_flushPage (key : PageKey) :
    Maintains (Sealed p₀ marks) (fun _ => True) (flushPage key) := by
  refine .bind (A := fun cached => ∀ e, cached = some e → e.Marked marks key)
    (.modifyGet fun p h => ?_) fun cached hcached => ?_
  · obtain ⟨hc, hentry⟩ := h.cache.invalidatePage key
    exact ⟨{ h with cache := hc }, hentry⟩
  · split
    · exact maintains_onTable (PageTable.maintains_update (hcached _ rfl))
    · exact .pure trivial

/-- No page is written out. -/
theorem maintains_writeOut (hclosed : p₀.swap.isOpen = false) (key : PageKey) (ppn : Ppn) :
    Maintains (Sealed p₀ marks) (fun _ => False) (writeOut key ppn) := by
  refine .get fun p _ => .bind (A := fun _ => True) (.ofExcept fun _ _ => trivial) fun page _ => ?_
  exact .bind (maintains_swapWrite hclosed key page) fun _ hfalse => hfalse.elim

theorem maintains_vacate (key : PageKey) (ppn : Ppn) :
    Maintains (Sealed p₀ marks) (fun _ => True) (vacate key ppn) := by
  refine .bind (maintains_onTable (PageTable.maintains_remove key)) fun _ _ => ?_
  refine .bind (maintains_onFrames _) fun _ _ => .bind (maintains_count _) fun _ _ => ?_
  exact .pure trivial

theorem maintains_evictPage (hclosed : p₀.swap.isOpen = false) (key : PageKey) :
    Maintains (Sealed p₀ marks) (fun _ => True) (evictPage key) := by
  refine .bind (maintains_flushPage key) fun _ _ => .get fun p _ => ?_
  split
  · dsimp only
    split
    · exact .bind (maintains_writeOut hclosed key _) fun _ hfalse => hfalse.elim
    · exact maintains_vacate key _
  · exact .throw _

theorem maintains_takeFrame :
    Maintains (Sealed p₀ marks) (fun _ => True) (takeFrame : Op Pager ε (Option Ppn)) :=
  .modifyGet fun _ h => ⟨{ h with }, trivial⟩

theorem maintains_acquireFrame (hclosed : p₀.swap.isOpen = false) :
    Maintains (Sealed p₀ marks) (fun _ => True) acquireFrame := by
  have hevict : Maintains (Sealed p₀ marks) (fun _ => True) evictOne := by
    refine .bind (A := fun _ => True) (.modifyGet fun p h => ⟨{ h with }, trivial⟩)
      fun victim _ => ?_
    split
    · exact maintains_evictPage hclosed _
    · exact .bind (.notify _) fun _ _ => .throw _
  refine .bind maintains_takeFrame fun ppn _ => ?_
  split
  · exact .pure trivial
  · refine .bind hevict fun _ _ => .bind maintains_takeFrame fun ppn _ => ?_
    split
    · exact .pure trivial
    · exact .throw _

/-! ## The cache -/

theorem maintains_mergeBack {e : Entry} (he : e.Marked marks key) (n : Notice) :
    Maintains (Sealed p₀ marks) (fun _ => True) (mergeBack key e n) := by
  have hupdate : Maintains (Sealed p₀ marks) (fun _ => True)
      (Op.on tablePart (PageTable.update key e)) :=
    maintains_onTable (PageTable.maintains_update he)
  refine .bind hupdate.attempt fun r _ => ?_
  split
  · exact .notify _
  · exact .pure trivial

theorem maintains_flushSlot (index : Nat) :
    Maintains (Sealed p₀ marks) (fun _ => True) (flushSlot index) := by
  refine .bind (A := fun replaced => ∀ old, replaced = some old →
    old.entry.Marked marks old.page) (.modifyGet fun p h => ?_) fun replaced hreplaced => ?_
  · obtain ⟨hc, hold⟩ := h.cache.invalidate index
    exact ⟨{ h with cache := hc }, hold⟩
  · split
    · exact maintains_mergeBack (hreplaced _ rfl) _
    · exact .pure trivial

theorem maintains_refill {pid : Pid} {e : Entry} (he : e.Marked marks ⟨pid, e.vpn⟩) :
    Maintains (Sealed p₀ marks) (fun _ => True) (refill pid e) := by
  have hchoose : Maintains (Sealed p₀ marks) (fun _ => True) chooseSlot := by
    refine .modifyGet fun p h => ?_
    split
    · exact ⟨h, trivial⟩
    · exact ⟨{ h with }, trivial⟩
  refine .get fun p _ => ?_
  split
  · exact .pure trivial
  · split
    · exact .bind (.notify _) fun _ _ => .pure trivial
    · refine .bind hchoose fun index _ => .bind (maintains_flushSlot index) fun _ _ => ?_
      exact .modify fun p h => { h with cache := h.cache.write index he }

theorem maintains_saveContext (pid : Pid) :
    Maintains (Sealed p₀ marks) (fun _ => True) (saveContext pid) := by
  refine .bind (A := fun flushed => ∀ e ∈ flushed, e.Marked marks ⟨pid, e.vpn⟩)
    (.modifyGet fun p h => ?_) fun flushed hflushed => ?_
  · obtain ⟨hc, hentries⟩ := h.cache.invalidateAsid pid
    exact ⟨{ h with cache := hc }, hentries⟩
  · refine .bind (.forM fun e he => maintains_mergeBack (hflushed e he) _) fun _ _ => ?_
    refine .bind (.modify fun p h => ?_) fun _ _ => maintains_count _
    have hsame := (same_setSnapshot p pid flushed).extent
    exact { h with extent := fun q => (hsame q).trans (h.extent q) }

theorem maintains_reinstall (pid : Pid) (saved : Entry) :
    Maintains (Sealed p₀ marks) (fun _ => True) (reinstall pid saved) := by
  refine .get fun p h => ?_
  split
  next current hcurrent =>
    split
    · rw [PageTable.lookupValid, Option.filter_eq_some_iff] at hcurrent
      have hmarked := h.table _ _ hcurrent.1
      refine maintains_refill ?_
      rw [hmarked.vpn]
      exact hmarked
    · exact .pure trivial
  · exact .pure trivial

theorem maintains_restoreContext (pid : Pid) :
    Maintains (Sealed p₀ marks) (fun _ => True) (restoreContext pid) := by
  refine .get fun p _ => ?_
  split
  · refine .bind (.modify fun p h => ?_) fun _ _ => .forM fun saved _ => ?_
    · exact { h with extent := fun q => ((same_setSnapshot p pid []).extent q).trans (h.extent q) }
    · exact maintains_reinstall pid saved
  · exact .pure trivial

/-! ## Pages that come in -/

/-- The mark of a page that comes in while no slot is read: that of its image, if it is pending. -/
def arrivalMark (p : Pager) (key : PageKey) : Bool := p.swap.isPending key && p.isReadOnly key

theorem Sealed.arrivalMark (h : Sealed p₀ marks p) (key : PageKey) :
    p.arrivalMark key = p₀.arrivalMark key := by
  rw [Pager.arrivalMark, Pager.arrivalMark, h.swap, isReadOnly_congr (h.extent key.pid)]

theorem arrivalMark_of_image {index : ImageIndex} {page : ImagePage}
    (hpending : p.pendingImage key = some index) (hpage : index.locate key.vpn = some page) :
    p.arrivalMark key = page.readOnly := by
  rw [pendingImage] at hpending
  split at hpending
  next hp =>
    rw [Option.filter_eq_some_iff] at hpending
    rw [arrivalMark, hp, Bool.true_and, isReadOnly, origin?, hpending.1, Option.bind_some, hpage,
      Option.any_some]
  next => cases hpending

theorem arrivalMark_of_no_image (hnone : p.pendingImage key = none) :
    p.arrivalMark key = false := by
  rw [pendingImage] at hnone
  split at hnone
  next hp =>
    have horigin : p.origin? key = none := by
      rw [origin?]
      cases himage : (p.spaces.get? key.pid).bind (·.image) with
      | none => rfl
      | some index =>
        rw [himage, Option.filter_some] at hnone
        rw [Option.bind_some, ← Option.not_isSome_iff_eq_none]
        intro hsome
        rw [if_pos hsome] at hnone
        cases hnone
    rw [arrivalMark, isReadOnly, horigin, Option.any_none, Bool.and_false]
  next hp => rw [arrivalMark, Bool.eq_false_iff.mpr hp, Bool.false_and]

theorem maintains_fetch (hclosed : p₀.swap.isOpen = false) (key : PageKey) :
    Maintains (Sealed p₀ marks) (fun found => found.2 = p₀.arrivalMark key) (fetch key) := by
  refine .get fun p h => ?_
  cases hpending : p.pendingImage key with
  | some index =>
    refine .bind (A := fun found => found.2 = p₀.arrivalMark key) (.ofExcept ?_)
      fun found hfound => ?_
    · rintro ⟨data, readOnly⟩ hload
      obtain ⟨⟨page, hpage, hro⟩, -⟩ := ImageIndex.load_ok hload
      rw [hro, ← h.arrivalMark, arrivalMark_of_image hpending hpage]
    · exact .bind (maintains_count _) fun _ _ => .pure hfound
  | none =>
    dsimp only
    split
    · exact .bind (maintains_swapRead hclosed key _) fun _ hfalse => hfalse.elim
    · refine .bind (maintains_count _) fun _ _ => .pure ?_
      rw [← h.arrivalMark, arrivalMark_of_no_image hpending]

theorem maintains_fillFrame (hclosed : p₀.swap.isOpen = false) (key : PageKey) (ppn : Ppn) :
    Maintains (Sealed p₀ marks) (fun readOnly => readOnly = p₀.arrivalMark key)
      (fillFrame key ppn) := by
  refine .bind (maintains_fetch hclosed key) fun found hfound => .get fun p _ => ?_
  refine .bind (A := fun _ => True) (.ofExcept fun _ _ => trivial) fun memory _ => ?_
  exact .bind (.modify fun p h => { h with }) fun _ _ => .pure hfound

theorem maintains_giveBack (ppn : Ppn) :
    Maintains (Sealed p₀ marks) (fun _ => True) (giveBack ppn) := by
  refine .bind (maintains_onFrames _).attempt fun r _ => ?_
  split
  · exact .notify _
  · exact .pure trivial

theorem maintains_faultIn (hclosed : p₀.swap.isOpen = false)
    (hmark : marks key = p₀.arrivalMark key) :
    Maintains (Sealed p₀ marks) (fun e => e.Marked marks key) (faultIn key) := by
  refine .bind (maintains_count _) fun _ _ => ?_
  refine .bind (maintains_acquireFrame hclosed) fun ppn _ => ?_
  refine .bind (maintains_fillFrame hclosed key ppn).attempt fun r hr => ?_
  split
  · exact .bind (.liftM (maintains_giveBack ppn)) fun _ _ => .throw _
  next readOnly =>
    let e : Entry := ⟨key.vpn, ppn, { valid := true, readOnly := readOnly, used := true }⟩
    have he : e.Marked marks key := ⟨rfl, (hr readOnly rfl).trans hmark.symm⟩
    have hinsert : Maintains (Sealed p₀ marks) (fun _ => True)
        (Op.on tablePart (PageTable.insert key e)) :=
      maintains_onTable (PageTable.maintains_insert he)
    refine .bind hinsert.attempt fun r _ => ?_
    split
    · exact .bind (.liftM (maintains_giveBack ppn)) fun _ _ => .throw _
    · exact .pure he

/-- A miss makes an entry for a page that has none, with the mark that the page gets then. -/
theorem sealed_handleMiss (hclosed : p₀.swap.isOpen = false) (h : Sealed p₀ marks p) (pid : Pid)
    (vaddr : VirtAddr) (hmark : p.table.lookupValid (p.pageOf pid vaddr) = none →
      marks (p.pageOf pid vaddr) = p₀.arrivalMark (p.pageOf pid vaddr)) :
    Sealed p₀ marks ((handleMiss pid vaddr) p).state := by
  have hfill : ∀ e : Entry, e.Marked marks (p.pageOf pid vaddr) →
      Maintains (Sealed p₀ marks) (fun _ => True) (do
        liftM (refill pid e)
        return e : Op Pager MemoryError Entry) := by
    intro e he
    have hrefill : e.Marked marks ⟨pid, e.vpn⟩ := by
      rw [he.vpn]
      exact he
    exact .bind (.liftM (maintains_refill hrefill)) fun _ _ => .pure trivial
  show (handleMiss pid vaddr).Ends p fun _ p' => Sealed p₀ marks p'
  simp only [handleMiss, ends_bind, ends_get, ends_ite]
  split
  · exact h
  · simp only [count, ends_modify]
    have h₁ : Sealed p₀ marks { p with stats := p.stats.add 1 .tlbMisses } := { h with }
    cases he : p.table.lookupValid ⟨pid, vaddr.vpn p.pageSize⟩ with
    | some e =>
      rw [PageTable.lookupValid, Option.filter_eq_some_iff] at he
      exact (Maintains.bind (.pure (h.table _ _ he.1)) hfill _ h₁).1
    | none =>
      exact (Maintains.bind (maintains_faultIn hclosed (hmark he)) hfill _ h₁).1

/-! ## Accesses -/

theorem maintains_translate (pid : Pid) (vaddr : VirtAddr) (access : Access) :
    Maintains (Sealed p₀ marks) (fun _ => True) (Pager.translate pid vaddr access) := by
  refine .get fun p _ => .bind (.checkDivisor _) fun _ _ => ?_
  dsimp only
  split
  · exact .throw _
  · exact .on (Processor.maintains_translate pid vaddr access) (fun _ h => h.cache)
      fun _ _ h hc => { h with cache := hc }

theorem maintains_read (pid : Pid) (vaddr : VirtAddr) (length : Nat) :
    Maintains (Sealed p₀ marks) (fun _ => True) (Pager.read pid vaddr length) :=
  .bind (maintains_translate pid vaddr .read) fun _ _ => .get fun _ _ => .pure trivial

theorem maintains_writeBytes (pid : Pid) (vaddr : VirtAddr) (data : Bytes) :
    Maintains (Sealed p₀ marks) (fun _ => True) (Pager.write pid vaddr data) :=
  .bind (maintains_translate pid vaddr .write) fun _ _ =>
    .modifyGet fun _ h => ⟨{ h with }, trivial⟩

/-! ## Spaces that go -/

theorem maintains_releasePage (key : PageKey) :
    Maintains (Sealed p₀ marks) (fun _ => True) (releasePage key) := by
  refine .bind (maintains_onTable (PageTable.maintains_remove key)).attempt fun r _ => ?_
  split
  · exact .pure trivial
  · split
    · refine .bind (maintains_onFrames _).attempt fun r _ => ?_
      split
      · exact .notify _
      · exact .pure trivial
    · exact .pure trivial

/-- Before it is forgotten, a space is only emptied. -/
theorem teardown_sealed (h : Sealed p₀ marks p) (pid : Pid) :
    (Pager.teardown pid).Ends p fun _ p' => ∃ p₁, Sealed p₀ marks p₁ ∧ p' = p₁.forgotten pid := by
  have hdrop : Sealed p₀ marks (p.setTlb (p.tlb.invalidateAsid pid).2) :=
    { h with cache := (h.cache.invalidateAsid pid).1 }
  have hrelease (vpns : List Vpn) : Op.Maintains (Sealed p₀ marks) (fun _ => True)
      (vpns.forM fun vpn => (Pager.releasePage ⟨pid, vpn⟩ : Op Pager Empty Unit)) :=
    .forM fun vpn _ => maintains_releasePage ⟨pid, vpn⟩
  simp only [Pager.teardown, ends_bind, ends_modify, ends_get]
  refine (hrelease _ _ hdrop).imp ?_
  rintro (e | done) p₁ ⟨h₁, -⟩
  · exact e.elim
  · exact ⟨p₁, h₁, rfl⟩

/-! ## Events -/

def Event.registers (pid : Pid) : Event → Answer → Bool
  | .register q _ _, .registered (.ok _) => q == pid
  | _, _ => false

theorem registers_iff {pid : Pid} {event : Event} {answer : Answer} :
    event.registers pid answer = true ↔
      ∃ numPages image, event = .register pid numPages image ∧ answer = .registered (.ok ()) := by
  constructor
  · unfold Event.registers
    split
    next q numPages image done =>
      intro hq
      obtain rfl := beq_iff_eq.mp hq
      exact ⟨numPages, image, rfl, rfl⟩
    next => exact nofun
  · rintro ⟨numPages, image, rfl, rfl⟩
    exact beq_self_eq_true pid

/-- What an event may do to swap, spaces and marks while the swap is closed. -/
inductive SealedStep (p : Pager) (marks : PageKey → Bool) : Event → Answer → Pager → Prop
  | kept {event : Event} {answer : Answer} {p' : Pager} (h : Sealed p marks p')
      (hold : ∀ pid, event.registers pid answer = false) : SealedStep p marks event answer p'
  | registered {pid : Pid} {numPages : Nat} {image : Option ImageIndex}
      (hnew : p.extent pid = none) :
      SealedStep p marks (.register pid numPages image) (.registered (.ok ()))
        (p.registered pid numPages image)
  | tornDown {pid : Pid} {answer : Answer} {p₁ : Pager} (h : Sealed p marks p₁) :
      SealedStep p marks (.teardown pid) answer (p₁.forgotten pid)
  | imageFaults {pid : Pid} {faults : List ((Nat × Nat) × MemoryError)} :
      SealedStep p marks (.imageFaults pid faults) .done (p.withImageFaults pid faults)

theorem sealed_stepOf (hclosed : p.swap.isOpen = false) (ht : p.table.Marked marks)
    (hc : p.tlb.Marked marks) (event : Event)
    (hmark : ∀ key, p.frame? key = none → marks key = p.arrivalMark key) :
    SealedStep p marks event (p.stepOf event).answer (p.stepOf event).after := by
  have h : Sealed p marks p := ⟨rfl, fun _ => rfl, ht, hc⟩
  cases event with
  | register pid numPages image =>
    have hr := registerSpace_ends p pid numPages image
    show SealedStep p marks _ (.registered (registerSpace pid numPages image p).result)
      (registerSpace pid numPages image p).state
    rw [Ends] at hr
    generalize (registerSpace pid numPages image p).result = r at hr ⊢
    generalize (registerSpace pid numPages image p).state = p' at hr ⊢
    cases r with
    | ok done =>
      obtain ⟨hnew, rfl⟩ := hr
      exact .registered hnew
    | error cause =>
      obtain ⟨-, rfl⟩ := hr
      exact .kept h fun _ => rfl
  | miss pid vaddr =>
    refine .kept (sealed_handleMiss hclosed h pid vaddr fun hnone => ?_) fun _ => rfl
    exact hmark _ (frame?_eq_none_iff.mpr hnone)
  | translate pid vaddr access =>
    exact .kept ((maintains_translate pid vaddr access).state h) fun _ => rfl
  | read pid vaddr length => exact .kept ((maintains_read pid vaddr length).state h) fun _ => rfl
  | write pid vaddr data => exact .kept ((maintains_writeBytes pid vaddr data).state h) fun _ => rfl
  | evict key => exact .kept ((maintains_evictPage hclosed key).state h) fun _ => rfl
  | save pid =>
    refine .kept ?_ fun _ => rfl
    rw [show (p.stepOf (.save pid)).after = _ from (bind_return _ (fun _ => Answer.done) p).2]
    exact (maintains_saveContext pid).state h
  | restore pid =>
    refine .kept ?_ fun _ => rfl
    rw [show (p.stepOf (.restore pid)).after = _ from (bind_return _ (fun _ => Answer.done) p).2]
    exact (maintains_restoreContext pid).state h
  | teardown pid =>
    obtain ⟨p₁, h₁, hp'⟩ := teardown_sealed h pid
    rw [show (p.stepOf (.teardown pid)).after = _ from (bind_return _ (fun _ => Answer.done) p).2,
      hp']
    exact .tornDown h₁
  | swapFaults faults =>
    refine .kept { h with swap := ?_ } fun _ => rfl
    show p.swap.disturbed faults = p.swap
    rw [Swapper.disturbed, Swapper.file_of_closed hclosed, Option.map_none,
      ← Swapper.file_of_closed hclosed]
  | imageFaults pid faults => exact .imageFaults
  | draw draws => exact .kept { h with } fun _ => rfl

/-- Marks change only where pages come in. -/
theorem SealedStep.marked {event : Event} {answer : Answer}
    (h : SealedStep p marks event answer p') (ht : p.table.Marked marks)
    (hc : p.tlb.Marked marks) : p'.table.Marked marks ∧ p'.tlb.Marked marks := by
  cases h with
  | kept h => exact ⟨h.table, h.cache⟩
  | registered => exact ⟨ht, hc⟩
  | tornDown h => exact ⟨h.table, h.cache⟩
  | imageFaults => exact ⟨ht, hc⟩

variable {event : Event} {answer : Answer}

/-- No page gets a slot. -/
theorem SealedStep.slotless (h : SealedStep p marks event answer p')
    (hnone : ∀ key, p.swap.slot? key = none) (key : PageKey) : p'.swap.slot? key = none := by
  cases h with
  | kept h => exact h.swap ▸ hnone key
  | registered => exact ((Swapper.sameSlots_markAll p.swap _).slot? key).trans (hnone key)
  | @tornDown pid _ p₁ h =>
    rw [show (p₁.forgotten pid).swap.slot? key = _ from Swapper.slot?_releaseProcess _ _ _, h.swap,
      hnone key, ite_self]
  | imageFaults => exact hnone key

/-- The images of the spaces that stay are the same. -/
theorem SealedStep.origin? (h : SealedStep p marks event answer p')
    (hspace : (p'.extent key.pid).isSome = true) (hold : event.registers key.pid answer = false) :
    p'.origin? key = p.origin? key := by
  cases h with
  | kept h => exact origin?_congr (h.extent key.pid)
  | @registered pid =>
    have hne : key.pid ≠ pid := fun heq => beq_eq_false_iff_ne.mp hold heq.symm
    exact origin?_congr ((extent_registered p pid _ _ key.pid).trans (if_neg hne))
  | @tornDown pid _ p₁ h =>
    rw [extent_forgotten] at hspace
    split at hspace
    · cases hspace
    next hne =>
      refine origin?_congr (((extent_forgotten p₁ pid key.pid).trans (if_neg hne)).trans ?_)
      exact h.extent key.pid
  | imageFaults => exact origin?_withImageFaults p _ _ key

/-- The pages of a new image are pending, and of the others those that were. -/
theorem SealedStep.isPending (h : SealedStep p marks event answer p') (hp : p.WellFormed none)
    (hnone : ∀ key, p.swap.slot? key = none) (hspace : (p'.extent key.pid).isSome = true) :
    p'.swap.isPending key =
      if event.registers key.pid answer then (p'.origin? key).isSome else p.swap.isPending key := by
  cases h with
  | kept h hold => rw [hold, h.swap, if_neg Bool.false_ne_true]
  | @registered pid numPages image hnew =>
    have hmark := Swapper.isPending_markAll p.swap (covered pid image) key
    rw [mem_covered, and_iff_left (hnone key)] at hmark
    rw [Bool.eq_iff_iff]
    refine hmark.trans ?_
    by_cases hpid : key.pid = pid
    · have hregisters : Event.registers key.pid (.register pid numPages image)
          (.registered (.ok ())) = true := beq_iff_eq.mpr hpid.symm
      have horigin : (p.registered pid numPages image).origin? key =
          image.bind (·.locate key.vpn) := by
        rw [origin?_eq, extent_registered, if_pos hpid]
        rfl
      rw [if_pos hregisters, horigin, hp.not_pending (hpid ▸ hnew)]
      simp [hpid]
    · have hregisters : ¬ Event.registers key.pid (.register pid numPages image)
          (.registered (.ok ())) = true := fun heq => hpid (beq_iff_eq.mp heq).symm
      rw [if_neg hregisters]
      simp [hpid]
  | @tornDown pid _ p₁ h =>
    have hne : key.pid ≠ pid := by
      rintro rfl
      rw [extent_forgotten, if_pos rfl] at hspace
      cases hspace
    rw [show Event.registers key.pid (.teardown pid) answer = false from rfl,
      if_neg Bool.false_ne_true, Bool.eq_iff_iff]
    refine (Swapper.isPending_releaseProcess p₁.swap pid key).trans ?_
    rw [h.swap, and_iff_right hne]
  | imageFaults => rfl

end Pager

end VirtualMemory
