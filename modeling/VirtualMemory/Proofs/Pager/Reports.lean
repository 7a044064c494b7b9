import VirtualMemory.Proofs.Notices
import VirtualMemory.Proofs.Pager.Run

/-!
# What the pager reports

Some failures inside the pager go no further than a notice: an entry of the cache that the table
does not know, a frame that cannot be given back, a refill without slots. In a well formed pager
none of these comes about. All that an event may report is that its caller named a space that exists
or an address that does not, or that the swap file failed.
-/

namespace VirtualMemory

/-- Notices about the caller or the swap file. All others are about parts of the machine that
disagree. -/
def Notice.isExternal : Notice → Bool
  | .spaceRegistered _ => true
  | .addressOutsideSpace _ _ => true
  | .swapReadFailed _ => true
  | .swapWriteFailed _ => true
  | _ => false

/-- All notices of `x` from `s` come from outside. -/
def Op.Reports {σ ε α : Type} (x : Op σ ε α) (s : σ) : Prop := x.Issues s (·.isExternal = true)

/-- An operation with notices from outside only has not stopped the program. -/
theorem Op.Reports.running {σ ε α : Type} {x : Op σ ε α} {s : σ} (h : x.Reports s) :
    (x s).halted = false := by
  rw [Op.halted_eq_false_iff]
  intro n hn
  have hexternal := h n hn
  cases n <;> first | rfl | cases hexternal

namespace Swapper

variable {s : Swapper} {key : PageKey}

/-- A write to the swap file reports nothing but its own failure. -/
theorem write_reports (key : PageKey) (page : Bytes) (s : Swapper) :
    (write key page).Reports s := by
  simp only [Op.Reports, write, Op.issues_bind, Op.issues_get, Op.ends_get, true_and]
  split
  · exact List.forall_mem_nil _
  · split
    · split
      · exact List.forall_mem_singleton.mpr rfl
      · exact List.forall_mem_nil _
    · exact List.forall_mem_nil _

/-- A read of a page with a slot never warns of an untracked one. -/
theorem readInto_reports {slot : Nat} (hslot : s.slot? key = some slot) (length : Nat) :
    (readInto key length).Reports s := by
  simp only [Op.Reports, readInto, Op.issues_bind, Op.issues_get, Op.ends_get, true_and, hslot]
  split
  · exact List.forall_mem_nil _
  · split
    · split
      · exact List.forall_mem_singleton.mpr rfl
      · exact List.forall_mem_nil _
    · exact List.forall_mem_nil _

end Swapper

namespace Pager

variable {p p' : Pager} {key : PageKey} {ppn : Ppn} {held : Option Ppn} {P : Notice → Prop}

/-! ## The cache -/

/-- A cached page is in the table, so its flush finds the entry it merges into. -/
theorem flushPage_issues (h : p.WellFormed held) (key : PageKey) : (flushPage key).Issues p P := by
  have hdiscreet : (flushPage key).Discreet := by
    refine (Op.discreet_modifyGet _).bind fun cached => ?_
    split
    · exact (PageTable.discreet_update _ _).on _
    · exact Op.discreet_pure _
  refine hdiscreet.issues ((flushPage_ends h key).imp ?_)
  rintro r p' ⟨rfl, -⟩
  exact ⟨(), rfl⟩

/-- The warning for a cached entry without a page is never given. -/
theorem mergeBack_issues (h : p.table.WellFormed) {e known : Entry}
    (hk : p.table.lookup key = some known) (hv : known.valid = true) (he : e.Extends known)
    (n : Notice) : (mergeBack key e n).Issues p P := by
  have hupdate := PageTable.update_of_extends h hk hv he
  simp only [mergeBack, Op.issues_bind, Op.issues_attempt, Op.issues_on, Op.ends_attempt,
    Op.ends_on]
  constructor
  · refine (PageTable.discreet_update key e).issues (hupdate.imp ?_)
    rintro r t ⟨rfl, -⟩
    exact ⟨(), rfl⟩
  · refine hupdate.imp ?_
    rintro r t ⟨rfl, -⟩
    exact Op.issues_pure _ _

theorem flushSlot_issues (h : p.WellFormed held) {i : Nat} {old : TlbSlot}
    (hi : p.tlb.slots[i]? = some old) : (flushSlot i).Issues p P := by
  simp only [flushSlot, Op.issues_bind, Op.issues_modifyGet, Op.ends_modifyGet, true_and]
  cases hv : old.valid with
  | false =>
    rw [Tlb.invalidate_of_invalid hi hv]
    exact Op.issues_pure _ _
  | true =>
    have he : p.tlb.cached old.page = some old.entry :=
      (Tlb.cached_eq_some_iff h.distinct).mpr ⟨old, List.mem_of_getElem? hi, hv, rfl, rfl⟩
    obtain ⟨-, known, hk, hext⟩ := h.cached _ _ he
    have hmerge := fun c =>
      mergeBack_issues (P := P) (p := p.setTlb c) h.table hk (h.entries _ _ hk).valid hext
    rw [Tlb.invalidate_of_valid hi hv]
    exact hmerge _ _

/-- The slot that is replaced belongs to a page in the table, so nothing is warned of. -/
theorem refill_issues (h : p.WellFormed held) (pid : Pid) (e : Entry) :
    (refill pid e).Issues p P := by
  simp only [refill, Op.issues_bind, Op.issues_get, Op.ends_get, true_and]
  split
  · exact Op.issues_pure _ _
  rw [if_neg (Nat.ne_of_gt h.sized.slots)]
  simp only [Op.issues_bind]
  refine ⟨Op.issues_modifyGet _ _, (chooseSlot_ends h.sized.slots).imp ?_⟩
  rintro r p₁ ⟨i, old, rfl, hi, hsame, -⟩
  have h₁ := h.same hsame
  have hi₁ : p₁.tlb.slots[i]? = some old := hsame.slots ▸ hi
  refine ⟨flushSlot_issues h₁ hi₁, (flushSlot_ends h₁ hi₁).imp ?_⟩
  rintro r p₂ ⟨rfl, -⟩
  exact Op.issues_modify _ _

/-- A snapshot names each page once, so its entries may be merged one after the other. -/
theorem mergeAll_issues (h : p.table.WellFormed) {pid : Pid} {entries : List Entry}
    (hnodup : (entries.map (·.vpn)).Nodup)
    (hk : ∀ e ∈ entries, ∃ known, p.table.lookup ⟨pid, e.vpn⟩ = some known ∧
      known.valid = true ∧ e.Extends known) :
    (entries.forM fun e => mergeBack ⟨pid, e.vpn⟩ e (.savedSlotUnmapped ⟨pid, e.vpn⟩) :
      Op Pager Empty PUnit).Issues p P := by
  induction entries generalizing p with
  | nil => exact Op.issues_pure _ _
  | cons e rest ih =>
    obtain ⟨hhead, hrest⟩ := List.nodup_cons.mp hnodup
    obtain ⟨hknown, hk⟩ := List.forall_mem_cons.mp hk
    obtain ⟨known, hlookup, hv, hext⟩ := hknown
    simp only [List.forM, Op.issues_bind]
    refine ⟨mergeBack_issues h hlookup hv hext _, (mergeBack_ends h hlookup hv hext _).imp ?_⟩
    rintro r p' ⟨rfl, rfl⟩
    refine ih (h.learning hlookup hext) hrest ?_
    intro e' he'
    rw [PageTable.lookup_learning_of_mem hhead he']
    exact hk e' he'

theorem saveContext_issues (h : p.WellFormed held) (pid : Pid) : (saveContext pid).Issues p P := by
  obtain ⟨hnodup, hk⟩ := h.invalidated pid
  have hmerge := fun c => mergeAll_ends (p := p.setTlb c) h.table hnodup hk
  have hissues := fun c => mergeAll_issues (P := P) (p := p.setTlb c) h.table hnodup hk
  simp only [saveContext, Op.issues_bind, Op.issues_modifyGet, Op.ends_modifyGet, true_and]
  refine ⟨hissues _, (hmerge _).imp ?_⟩
  rintro r p₁ ⟨rfl, -⟩
  exact ⟨Op.issues_modify _ _, Op.issues_modify _ _⟩

theorem reinstall_issues (h : p.WellFormed held) (pid : Pid) (saved : Entry) :
    (reinstall pid saved).Issues p P := by
  simp only [reinstall, Op.issues_bind, Op.issues_get, Op.ends_get, true_and]
  split
  · split
    · exact refill_issues h pid _
    · exact Op.issues_pure _ _
  · exact Op.issues_pure _ _

theorem reinstallAll_issues (h : p.WellFormed held) (pid : Pid) (entries : List Entry) :
    (entries.forM (reinstall pid) : Op Pager Empty PUnit).Issues p P := by
  induction entries generalizing p with
  | nil => exact Op.issues_pure _ _
  | cons e rest ih =>
    simp only [List.forM, Op.issues_bind]
    refine ⟨reinstall_issues h pid e, (reinstall_ends h pid e).imp ?_⟩
    rintro r p₁ ⟨rfl, h₁, -⟩
    exact ih h₁

theorem restoreContext_issues (h : p.WellFormed held) (pid : Pid) :
    (restoreContext pid).Issues p P := by
  simp only [restoreContext, Op.issues_bind, Op.issues_get, Op.ends_get, true_and]
  split
  · simp only [Op.issues_bind, Op.issues_modify, Op.ends_modify, true_and]
    exact reinstallAll_issues (h.same (same_setSnapshot p pid [])) pid _
  · exact Op.issues_pure _ _

/-! ## Pages that leave -/

/-- A frame that is held by hand is in use, so the release is not a double one. -/
theorem release_issues (h : p.WellFormed (some ppn)) :
    (Op.on framesPart (Frames.release ppn)).Issues p P := by
  refine ((Frames.discreet_release ppn).on framesPart).issues ((release_held h).imp ?_)
  rintro r p' ⟨rfl, -⟩
  exact ⟨(), rfl⟩

/-- The frame is in memory, so the only error there is comes from the file. -/
theorem writeOut_reports (h : p.WellFormed held) (key : PageKey)
    (hlt : ppn.toNat < p.frames.total) : (writeOut key ppn).Reports p := by
  obtain ⟨page, hpage, -⟩ := h.sized.readPage hlt
  simp only [Op.Reports, writeOut, Op.issues_bind, Op.issues_get, Op.ends_get, Op.issues_ofExcept,
    Op.ends_ofExcept, hpage, Op.issues_on, true_and]
  refine ⟨Swapper.write_reports key page _, ?_⟩
  rw [Op.ends_on]
  refine (Op.ends_self _ _).imp ?_
  rintro (cause | slot) s -
  · trivial
  · exact Op.issues_modify _ _

/-- The page is in the table and its frame in use: neither warning applies. -/
theorem vacate_issues (h : p.WellFormed none) {e : Entry} (he : p.table.lookup key = some e)
    (hc : p.tlb.cached key = none) : (vacate key e.ppn).Issues p P := by
  have hremove := PageTable.remove_of_valid he (h.entries key e he).valid
  simp only [vacate, Op.issues_bind, Op.issues_on tablePart, Op.ends_on tablePart]
  refine ⟨PageTable.remove_issues _ _, hremove.imp ?_⟩
  rintro r t ⟨rfl, rfl⟩
  have hdetach := h.detach he hc
  refine ⟨release_issues hdetach, (release_held hdetach).imp ?_⟩
  rintro r p' ⟨rfl, -⟩
  exact ⟨Op.issues_modify _ _, Op.issues_pure _ _⟩

/-- An eviction reports nothing but a write to the swap file that failed. -/
theorem evictPage_reports (h : p.WellFormed none) (key : PageKey) : (evictPage key).Reports p := by
  simp only [Op.Reports, evictPage, Op.issues_bind]
  refine ⟨flushPage_issues h key, (flushPage_ends h key).imp ?_⟩
  rintro r p₁ ⟨rfl, t, c, hrec, hnone, rfl⟩
  have h₁ := hrec.wellFormed h
  simp only [Op.issues_get, Op.ends_get, h₁.lookupValid, true_and]
  cases he : (p.recache t c).table.lookup key with
  | none => exact Op.issues_throw _ _
  | some e =>
    dsimp only
    split
    next hdirty =>
      rw [Op.issues_bind]
      refine ⟨writeOut_reports h₁ key (h₁.ppn_lt he), (writeOut_ends h₁ key (h₁.ppn_lt he)).imp ?_⟩
      rintro (cause | done) p₂ ⟨s, ht, hsame, -⟩
      · trivial
      · obtain ⟨h₂, he₂⟩ := h₁.transferred he hdirty ht hsame
        exact vacate_issues h₂ he₂ ((hsame.cached key).trans hnone)
    next => exact vacate_issues h₁ he hnone

/-- As long as a frame is owned there is a victim to draw. -/
theorem evictOne_reports (h : p.WellFormed none)
    (howner : ∃ ppn key, p.table.owner? ppn = some key) : evictOne.Reports p := by
  have hsame : Same p { p with draws := (p.table.pickVictim p.draws).2 } :=
    ⟨rfl, rfl, rfl, rfl, rfl, rfl, rfl, fun _ => rfl⟩
  simp only [Op.Reports, evictOne, Op.issues_bind, Op.issues_modifyGet, Op.ends_modifyGet, true_and]
  rcases h.table.pickVictim_spec p.draws with ⟨key, e, hpick, -⟩ | ⟨-, hnone⟩
  · simp only [hpick]
    exact evictPage_reports (h.same hsame) key
  · obtain ⟨ppn, key, howner⟩ := howner
    rw [hnone] at howner
    cases howner

theorem takeFrame_issues {ε : Type} (p : Pager) :
    (takeFrame : Op Pager ε (Option Ppn)).Issues p P :=
  Op.issues_modifyGet _ _

/-- Some frame is free or owned, so memory is never exhausted. -/
theorem acquireFrame_reports (h : p.WellFormed none) (hword : p.frames.InWord) :
    acquireFrame.Reports p := by
  simp only [Op.Reports, acquireFrame, Op.issues_bind]
  refine ⟨takeFrame_issues p, ?_⟩
  cases hfree : p.frames.free with
  | cons ppn rest =>
    refine (takeFrame_of_free h (hfree ▸ List.mem_cons_self)).imp ?_
    rintro r p' ⟨q, rfl, -⟩
    exact Op.issues_pure _ _
  | nil =>
    have howner := h.owner_of_full (h.full_of_nil hfree hword)
    refine (takeFrame_of_nil h hfree).imp ?_
    rintro r p₁ ⟨rfl, h₁, f, -, rfl⟩
    simp only [Op.issues_bind]
    refine ⟨evictOne_reports h₁ howner, (Op.ends_self _ _).imp ?_⟩
    rintro (cause | ppn) p₂ -
    · trivial
    · refine ⟨takeFrame_issues p₂, (Op.ends_self _ _).imp ?_⟩
      rintro (cause | _ | ppn) p₃ -
      · trivial
      · exact Op.issues_throw _ _
      · exact Op.issues_pure _ _

/-! ## Pages that come in -/

/-- A page is read from its slot or from the image, and only the reading can fail. -/
theorem fetch_reports (p : Pager) (key : PageKey) : (fetch key).Reports p := by
  simp only [Op.Reports, fetch, Op.issues_bind, Op.issues_get, Op.ends_get, true_and]
  split
  · simp only [Op.issues_bind, Op.issues_ofExcept, Op.ends_ofExcept, true_and]
    split
    · exact ⟨Op.issues_modify _ _, Op.issues_pure _ _⟩
    · trivial
  · split
    next hslot =>
      obtain ⟨slot, hslot⟩ := Option.isSome_iff_exists.mp hslot
      simp only [Op.issues_bind, Op.issues_on]
      refine ⟨Swapper.readInto_reports hslot _, (Op.ends_self _ _).imp ?_⟩
      rintro (cause | found) p' -
      · trivial
      · exact ⟨Op.issues_modify _ _, Op.issues_pure _ _⟩
    next =>
      simp only [Op.issues_bind]
      exact ⟨Op.issues_modify _ _, Op.issues_pure _ _⟩

theorem fillFrame_reports (p : Pager) (key : PageKey) (ppn : Ppn) :
    (fillFrame key ppn).Reports p := by
  simp only [Op.Reports, fillFrame, Op.issues_bind]
  refine ⟨fetch_reports p key, (Op.ends_self _ _).imp ?_⟩
  rintro (cause | ⟨data, readOnly⟩) p' -
  · trivial
  · simp only [Op.issues_get, Op.ends_get, Op.issues_ofExcept, Op.ends_ofExcept, true_and]
    split
    · exact ⟨Op.issues_modify _ _, Op.issues_pure _ _⟩
    · trivial

/-- The frame goes back after a failed fill, and was in use until then. -/
theorem giveBack_issues (h : p.WellFormed (some ppn)) : (giveBack ppn).Issues p P := by
  simp only [giveBack, Op.issues_bind, Op.issues_attempt, Op.ends_attempt]
  refine ⟨release_issues h, (release_held h).imp ?_⟩
  rintro r p' ⟨rfl, -⟩
  exact Op.issues_pure _ _

/-- The page is in no frame yet, so it goes into the table without a clash. -/
theorem faultIn_reports (h : p.WellFormed none) (hword : p.frames.InWord)
    (hf : p.frame? key = none) : (faultIn key).Reports p := by
  have hcount := same_count p 1 .pageFaults
  have h₁ := h.same hcount
  simp only [Op.Reports, faultIn, Op.issues_bind, count, Op.issues_modify, Op.ends_modify, true_and]
  refine ⟨acquireFrame_reports h₁ hword, (acquireFrame_ends h₁).imp ?_⟩
  rintro (cause | ppn) p₁ ⟨-, hs⟩
  · trivial
  obtain ⟨h₁, hroom⟩ := hs
  have hf₁ := (hcount.foundRoom hroom).madeRoom.absent hf
  simp only [Op.issues_attempt, Op.ends_attempt]
  refine ⟨fillFrame_reports p₁ key ppn, (fillFrame_ends h₁ key).imp ?_⟩
  rintro (cause | readOnly) p₂ ⟨h₂, hstill, -⟩
  · simp only [Op.issues_bind, Op.issues_liftM, Op.ends_liftM]
    refine ⟨giveBack_issues h₂, (giveBack_ends h₂).imp ?_⟩
    rintro r p₃ ⟨rfl, -⟩
    exact Op.issues_throw _ _
  · have hf₂ : p₂.frame? key = none := (hstill.kept key).frame.trans hf₁
    let e : Entry := ⟨key.vpn, ppn, { valid := true, readOnly := readOnly, used := true }⟩
    have hinsert := h₂.insert_ends (e := e) rfl hf₂
    simp only [Op.issues_bind, Op.issues_attempt, Op.issues_on, Op.ends_attempt, Op.ends_on]
    constructor
    · refine (PageTable.discreet_insert key e).issues (hinsert.imp ?_)
      rintro r t ⟨rfl, -⟩
      exact ⟨(), rfl⟩
    · refine hinsert.imp ?_
      rintro r t ⟨rfl, rfl⟩
      exact Op.issues_pure _ _

/-- A miss reports at most that its address is outside the space, or that the file failed. -/
theorem handleMiss_reports (h : p.WellFormed none) (hword : p.frames.InWord)
    (hdiv : p.pageSize.toUInt32 ≠ 0) (pid : Pid) (vaddr : VirtAddr) :
    (handleMiss pid vaddr).Reports p := by
  simp only [Op.Reports, handleMiss, Op.issues_bind, Op.issues_get, Op.ends_get,
    Op.ends_checkDivisor, true_and]
  refine ⟨(Op.issues_checkDivisor _ p).mpr fun hzero => absurd hzero hdiv, ?_⟩
  split
  · simp only [Op.issues_bind, Op.issues_notify, Op.ends_notify]
    exact ⟨rfl, Op.issues_throw _ _, trivial⟩
  next hin =>
    have h₁ := h.same (same_count p 1 .tlbMisses)
    simp only [Op.issues_bind, count, Op.issues_modify, Op.ends_modify, true_and, h.lookupValid]
    cases he : p.table.lookup ⟨pid, vaddr.vpn p.pageSize⟩ with
    | some e =>
      simp only [Op.issues_bind, Op.issues_liftM]
      refine ⟨Op.issues_pure _ _, refill_issues h₁ pid e, (Op.ends_self _ _).imp ?_⟩
      rintro (cause | done) p' -
      · trivial
      · exact Op.issues_pure _ _
    | none =>
      have hf : p.frame? ⟨pid, vaddr.vpn p.pageSize⟩ = none := by
        rw [h.frame?_eq, he]
        rfl
      have hin : p.inBounds pid (vaddr.vpn p.pageSize) = true := by simpa using hin
      simp only [Op.issues_bind]
      refine ⟨faultIn_reports h₁ hword hf, (faultIn_ends h₁ hf hin).imp ?_⟩
      rintro (cause | e) p₂ ⟨h₂, -⟩
      · trivial
      · simp only [Op.issues_liftM]
        refine ⟨refill_issues h₂ pid e, (Op.ends_self _ _).imp ?_⟩
        rintro (cause | done) p' -
        · trivial
        · exact Op.issues_pure _ _

/-! ## Spaces that go -/

/-- A page of the space is in a frame of its own, which is in use. -/
theorem releasePage_issues (h : p.WellFormed none) (hc : p.tlb.cached key = none) :
    (releasePage key).Issues p P := by
  simp only [releasePage, Op.issues_bind, Op.issues_attempt, Op.issues_on tablePart,
    Op.ends_attempt, Op.ends_on tablePart]
  refine ⟨PageTable.remove_issues _ _, ?_⟩
  cases he : p.table.lookup key with
  | none =>
    refine (PageTable.remove_of_absent he).imp ?_
    rintro r t ⟨rfl, -⟩
    exact Op.issues_pure _ _
  | some e =>
    have hv := (h.entries key e he).valid
    refine (PageTable.remove_of_valid he hv).imp ?_
    rintro r t ⟨rfl, rfl⟩
    have hdetach := h.detach he hc
    simp only [hv, if_true, Op.issues_bind, Op.issues_attempt, Op.ends_attempt]
    refine ⟨release_issues hdetach, (release_held hdetach).imp ?_⟩
    rintro r p' ⟨rfl, -⟩
    exact Op.issues_pure _ _

theorem releaseAll_issues {pid : Pid} (h : p.WellFormed none)
    (hc : ∀ vpn, p.tlb.cached ⟨pid, vpn⟩ = none) (vpns : List Vpn) :
    (vpns.forM fun vpn => releasePage ⟨pid, vpn⟩ : Op Pager Empty PUnit).Issues p P := by
  induction vpns generalizing p with
  | nil => exact Op.issues_pure _ _
  | cons vpn rest ih =>
    simp only [List.forM, Op.issues_bind]
    refine ⟨releasePage_issues h (hc vpn), (releasePage_ends h (hc vpn)).imp ?_⟩
    rintro r p₁ ⟨rfl, h₁, -⟩
    exact ih h₁.wellFormed fun v => h₁.tlb.symm ▸ hc v

/-- Nothing of a space that ends is given back twice. -/
theorem teardown_issues (h : p.WellFormed none) (pid : Pid) : (teardown pid).Issues p P := by
  have hdrop := drop_wellFormed h pid
  have hc : ∀ vpn, (p.setTlb (p.tlb.invalidateAsid pid).2).tlb.cached ⟨pid, vpn⟩ = none :=
    fun vpn => (Tlb.cached_invalidateAsid pid ⟨pid, vpn⟩).trans (if_pos rfl)
  simp only [teardown, Op.issues_bind, Op.issues_modify, Op.ends_modify, Op.issues_get, Op.ends_get,
    true_and]
  refine ⟨releaseAll_issues hdrop hc _, (Op.ends_self _ _).imp ?_⟩
  rintro (cause | done) p' -
  · trivial
  · trivial

/-! ## Events -/

theorem registerSpace_reports (p : Pager) (pid : Pid) (numPages : Nat)
    (image : Option ImageIndex) : (registerSpace pid numPages image).Reports p := by
  simp only [Op.Reports, registerSpace, Op.issues_bind, Op.issues_get, Op.ends_get, true_and]
  split
  · simp only [Op.issues_bind, Op.issues_notify, Op.ends_notify]
    exact ⟨rfl, Op.issues_throw _ _, trivial⟩
  · exact Op.issues_modify _ _

section

variable (h : p.WellFormed held) (hdiv : p.pageSize.toUInt32 ≠ 0)

include h hdiv

/-- A translation asks the cache alone and reports nothing. -/
theorem translate_issues (pid : Pid) (vaddr : VirtAddr) (access : Access) :
    (translate pid vaddr access).Issues p P := by
  have hprocessor : p.processor.pageSize.toUInt32 ≠ 0 := by rwa [h.sized.processor]
  simp only [translate, Op.issues_bind, Op.issues_get, Op.ends_get, Op.ends_checkDivisor, true_and]
  refine ⟨(Op.issues_checkDivisor _ p).mpr fun hzero => absurd hzero hdiv, ?_⟩
  split
  · simp only [Op.issues_bind]
    exact ⟨Op.issues_throw _ _, trivial⟩
  · simp only [Op.issues_on, Processor.translate, Op.issues_bind, Op.issues_get, Op.ends_get,
      Op.ends_checkDivisor, true_and]
    refine ⟨(Op.issues_checkDivisor _ _).mpr fun hzero => absurd hzero hprocessor, ?_⟩
    split
    · split
      · simp only [Op.issues_bind]
        exact ⟨Op.issues_throw _ _, trivial⟩
      · simp only [Op.issues_bind]
        exact ⟨Op.issues_set _ _, Op.issues_pure _ _⟩
    · simp only [Op.issues_bind]
      exact ⟨Op.issues_set _ _, Op.issues_throw _ _⟩

theorem read_issues (pid : Pid) (vaddr : VirtAddr) (length : Nat) :
    (read pid vaddr length).Issues p P := by
  simp only [read, Op.issues_bind]
  refine ⟨translate_issues h hdiv pid vaddr .read, (Op.ends_self _ _).imp ?_⟩
  rintro (cause | paddr) p' -
  · trivial
  · exact ⟨Op.issues_get _, Op.issues_pure _ _⟩

theorem write_issues (pid : Pid) (vaddr : VirtAddr) (data : Bytes) :
    (write pid vaddr data).Issues p P := by
  simp only [write, Op.issues_bind]
  refine ⟨translate_issues h hdiv pid vaddr .write, (Op.ends_self _ _).imp ?_⟩
  rintro (cause | paddr) p' -
  · trivial
  · exact Op.issues_modifyGet _ _

end

/-- What any event may report. -/
theorem perform_reports (h : p.WellFormed none) (hword : p.frames.InWord)
    (hdiv : p.pageSize.toUInt32 ≠ 0) (event : Event) : (perform event).Reports p := by
  cases event with
  | register pid numPages image =>
    exact (Op.issues_return _ _ _).mpr (registerSpace_reports p pid numPages image)
  | miss pid vaddr => exact (Op.issues_return _ _ _).mpr (handleMiss_reports h hword hdiv pid vaddr)
  | translate pid vaddr access =>
    exact (Op.issues_return _ _ _).mpr (translate_issues h hdiv pid vaddr access)
  | read pid vaddr length =>
    exact (Op.issues_return _ _ _).mpr (read_issues h hdiv pid vaddr length)
  | write pid vaddr data => exact (Op.issues_return _ _ _).mpr (write_issues h hdiv pid vaddr data)
  | evict key => exact (Op.issues_return _ _ _).mpr (evictPage_reports h key)
  | save pid => exact (Op.issues_return _ (fun _ => Answer.done) _).mpr (saveContext_issues h pid)
  | restore pid =>
    exact (Op.issues_return _ (fun _ => Answer.done) _).mpr (restoreContext_issues h pid)
  | teardown pid => exact (Op.issues_return _ (fun _ => Answer.done) _).mpr (teardown_issues h pid)
  | swapFaults faults => exact nofun
  | imageFaults pid faults => exact nofun
  | draw draws => exact nofun

end Pager

end VirtualMemory
