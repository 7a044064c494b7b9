import VirtualMemory.Proofs.Confined
import VirtualMemory.Proofs.Pager.Consistency
import VirtualMemory.Proofs.Pager.Serving
import VirtualMemory.Proofs.Pager.Teardown

/-!
# A process keeps to its own pages

What is done under the number of a process may take frames away from others, but gives them none,
and it does not change a byte of their pages. So the frames that were free are free again when the
process is gone.
-/

namespace VirtualMemory.Pager

variable {p p' p₁ p₂ p₃ : Pager} {pid : Pid} {event : Event} {answer : Answer} {key : PageKey}

/-- An operation under the number of process `pid`. -/
def Event.By (pid : Pid) : Event → Prop
  | .register q _ _ => q = pid
  | .miss q _ => q = pid
  | .translate q _ _ => q = pid
  | .read q _ _ => q = pid
  | .write q _ _ => q = pid
  | .save q => q = pid
  | .restore q => q = pid
  | .teardown q => q = pid
  | _ => False

theorem Event.By.foreign (h : event.By pid) {q : Pid} (hq : q ≠ pid) : event.Foreign q := by
  cases event with
  | register | write | teardown => exact fun heq => hq (heq.symm.trans h)
  | imageFaults | swapFaults => exact h.elim
  | _ => trivial

/-- The event neither gives a process its space nor takes it away. -/
def Event.Stays : Event → Prop
  | .register .. => False
  | .teardown _ => False
  | _ => True

/-- From `p` to `p'` nothing happened to the pages of other processes, but that some of them may
have left their frames. -/
structure Respects (pid : Pid) (p p' : Pager) : Prop where
  wellFormed : p'.WellFormed none
  backed : p'.Backed
  pageSize : p'.pageSize = p.pageSize
  total : p'.frames.total = p.frames.total
  isOpen : p'.swap.isOpen = p.swap.isOpen
  others : ∀ q, q ≠ pid → p'.extent q = p.extent q
  frames : ∀ key : PageKey, key.pid ≠ pid → ∀ ppn, p'.frame? key = some ppn →
    p.frame? key = some ppn
  bytes : ∀ key : PageKey, key.pid ≠ pid → (p.extent key.pid).isSome = true → ∀ o < p.pageSize,
    p'.byte key o = p.byte key o

theorem Respects.refl (h : p.WellFormed none) (hb : p.Backed) (pid : Pid) : Respects pid p p :=
  ⟨h, hb, rfl, rfl, rfl, fun _ _ => rfl, fun _ _ _ hf => hf, fun _ _ _ _ _ => rfl⟩

theorem Respects.trans (h : Respects pid p₁ p₂) (h' : Respects pid p₂ p₃) :
    Respects pid p₁ p₃ where
  wellFormed := h'.wellFormed
  backed := h'.backed
  pageSize := h'.pageSize.trans h.pageSize
  total := h'.total.trans h.total
  isOpen := h'.isOpen.trans h.isOpen
  others := fun q hq => (h'.others q hq).trans (h.others q hq)
  frames := fun key hk ppn hf => h.frames key hk ppn (h'.frames key hk ppn hf)
  bytes := by
    intro key hk hspace o ho
    have hspace' : (p₂.extent key.pid).isSome = true := by rwa [h.others key.pid hk]
    rw [h'.bytes key hk hspace' o (h.pageSize ▸ ho), h.bytes key hk hspace o ho]

/-! ## One event -/

/-- Making room brings no page to a frame. -/
theorem MadeRoom.was (h : MadeRoom p p') {ppn : Ppn} (hf : p'.frame? key = some ppn) :
    p.frame? key = some ppn := by
  rcases h with hstill | ⟨k, left, hev⟩
  · exact (hstill.kept key).frame.symm.trans hf
  · have hne : key ≠ k := by
      rintro rfl
      rw [hev.left.gone] at hf
      cases hf
    exact (hev.others key hne).frame.symm.trans hf

theorem Effect.frame_other (he : Effect p event answer p') (hby : event.By pid)
    (hk : key.pid ≠ pid) {ppn : Ppn} (hf : p'.frame? key = some ppn) :
    p.frame? key = some ppn := by
  cases he with
  | idle _ h => exact (h.kept key).frame.symm.trans hf
  | registered =>
    obtain rfl := hby
    exact ((elsewhere_registered p _ _ _).kept key hk).frame.symm.trans hf
  | @loaded q vaddr e p₁ _ _ hroom h =>
    obtain rfl := hby
    have hne : key ≠ p.pageOf q vaddr := fun heq => hk (congrArg PageKey.pid heq)
    exact hroom.was ((h.others key hne).frame.symm.trans hf)
  | unresolved h => exact h.was hf
  | translated h => exact (h.frame key).symm.trans hf
  | read h => exact (h.frame key).symm.trans hf
  | written h => exact (h.frame key).symm.trans hf
  | evicted => exact hby.elim
  | tornDown h =>
    obtain rfl := hby
    exact (h.kept key hk).frame.symm.trans hf
  | swapFaults => exact hby.elim
  | imageFaults => exact hby.elim

theorem WellFormed.respects (h : p.WellFormed none) (hb : p.Backed) (hby : event.By pid)
    (hin : event.InPage p.pageSize) : Respects pid p (p.stepOf event).after := by
  obtain ⟨h', he⟩ := h.stepOf event
  obtain ⟨hsize, htotal, hopen⟩ := he.lasting
  refine ⟨h', he.backed h h' hin hb, hsize, htotal, hopen, ?_, ?_, ?_⟩
  · intro q hq
    exact he.extent (hby.foreign hq)
  · intro key hk ppn hf
    exact he.frame_other hby hk hf
  · intro key hk hspace o ho
    have hforeign := hby.foreign hk
    rw [he.byte h hin hb (by rwa [he.extent hforeign]) ho]
    exact replaced_of_foreign hforeign key.vpn o _

/-- The process goes on with an event of its own. -/
theorem Respects.stepOf (h : Respects pid p p₁) (hby : event.By pid)
    (hin : event.InPage p.pageSize) : Respects pid p (p₁.stepOf event).after :=
  h.trans (h.wellFormed.respects h.backed hby (h.pageSize.symm ▸ hin))

/-! ## All of it -/

section

variable {ε α : Type} {I : Pager → Prop}

/-- What answers an event does the step of the event. -/
theorem maintains_attempted (event : Event) {x : Op Pager ε α} {f : Except ε α → Answer}
    (hperform : perform event = do return f (← Op.attempt x))
    (hstep : ∀ p, I p → I (p.stepOf event).after) : x.Maintains I fun _ => True := by
  intro p h
  have h' := hstep p h
  rw [Pager.stepOf, hperform] at h'
  exact ⟨h', fun _ _ => trivial⟩

theorem maintains_done (event : Event) {x : Op Pager Empty Unit}
    (hperform : perform event = do x; return .done)
    (hstep : ∀ p, I p → I (p.stepOf event).after) : x.Maintains I fun _ => True := by
  intro p h
  have h' := hstep p h
  rw [Pager.stepOf, hperform] at h'
  rw [(Op.bind_return x (fun _ => Answer.done) p).2] at h'
  exact ⟨h', fun _ _ => trivial⟩

/-- Of all exceptions only a miss is handled. -/
theorem maintains_handleFault {vaddr : VirtAddr}
    (hmiss : (handleMiss pid vaddr).Maintains I fun _ => True) (e : Exception) :
    (handleFault pid vaddr e).Maintains I fun _ => True := by
  cases e with
  | tlbMiss =>
    apply Op.Maintains.bind hmiss.attempt
    intro r _ p h
    refine (ofMiss_ends r p).imp ?_
    rintro _ _ ⟨rfl, -⟩
    exact ⟨h, fun _ _ => trivial⟩
  | _ => exact .pure trivial

/-- What each event of a living process keeps is kept by all that the process asks for. -/
theorem inUse_of_steps {number pageSize : Nat}
    (hstep : ∀ event, event.By number.toUInt32 → event.InPage pageSize → event.Stays →
      ∀ p, I p → I (p.stepOf event).after) : InUse number pageSize I where
  translate := fun vaddr access =>
    maintains_attempted (.translate number.toUInt32 vaddr access) rfl (hstep _ rfl trivial trivial)
  read := fun vaddr length =>
    maintains_attempted (.read number.toUInt32 vaddr length) rfl (hstep _ rfl trivial trivial)
  write := fun vaddr data hin =>
    maintains_attempted (.write number.toUInt32 vaddr data) rfl (hstep _ rfl hin trivial)
  handleFault := fun vaddr e => maintains_handleFault
    (maintains_attempted (.miss number.toUInt32 vaddr) rfl (hstep _ rfl trivial trivial)) e
  saveContext := maintains_done (.save number.toUInt32) rfl (hstep _ rfl trivial trivial)
  restoreContext := maintains_done (.restore number.toUInt32) rfl (hstep _ rfl trivial trivial)

end

/-- A process keeps to its pages, whatever it asks for. -/
theorem confined (p : Pager) (number : Nat) :
    Confined number p.pageSize (Respects number.toUInt32 p) where
  toInUse := inUse_of_steps fun _ hby hin _ _ h => h.stepOf hby hin
  teardown := maintains_done (.teardown number.toUInt32) rfl fun _ h => h.stepOf rfl trivial

/-! ## The space of a process -/

/-- A space is registered unless the process has one. -/
theorem load_respects (h : p.WellFormed none) (hb : p.Backed) (hnew : p.extent pid = none)
    (layout : Layout) : (load pid layout).Ends p fun r p' => Respects pid p p' ∧
      match r with
      | .ok _ => True
      | .error _ => p'.extent pid = none := by
  have hkeeps : (load pid layout).Maintains (Respects pid p) fun _ => True :=
    maintains_attempted (.register pid layout.numPages (some layout.index)) rfl
      fun _ h => h.stepOf rfl trivial
  refine ((hkeeps p (.refl h hb pid)).and
    (registerSpace_ends p pid layout.numPages (some layout.index))).imp ?_
  rintro (e | u) p' ⟨⟨h', -⟩, hr⟩
  · exact absurd hnew hr.1
  · exact ⟨h', trivial⟩

/-- The process is gone, and nothing of it is left: no space, no page in a frame or on its way
there, no slot of the cache or the swap. All the others have what they had, and at most fewer
frames. -/
structure Traceless (p p' : Pager) (pid : Pid) (pages : Nat) : Prop where
  space : p'.spaces.get? pid = none
  entries : ∀ vpn, p'.table.lookup ⟨pid, vpn⟩ = none
  cacheSlots : ∀ slot ∈ p'.tlb.slots, slot.valid = true → slot.asid ≠ pid
  pending : ∀ vpn, p'.swap.isPending ⟨pid, vpn⟩ = false
  swapSlots : ∀ vpn, p'.swap.slot? ⟨pid, vpn⟩ = none
  partition : pages < 0x100000000 → (p'.frames.free ++ p'.table.resident.dense.toList).Perm
    ((List.range pages).map Nat.toUInt32)
  freePages : p.freePages ≤ p'.freePages
  otherSpaces : ∀ q, q ≠ pid → p'.extent q = p.extent q
  contents : ∀ key : PageKey, key.pid ≠ pid → (p.extent key.pid).isSome = true →
    ∀ o < p.pageSize, p'.byte key o = p.byte key o

/-- Every frame that was free is free. -/
theorem Respects.free (h : Respects pid p p') (hwf : p.WellFormed none)
    (hgone : p'.extent pid = none) {ppn : Ppn} (hfree : p.frames.isFree ppn = true) :
    p'.frames.isFree ppn = true := by
  obtain ⟨hlt, hunused⟩ := hwf.isFree_iff.mp hfree
  rw [h.wellFormed.isFree_iff, h.total]
  refine ⟨hlt, ?_⟩
  intro k hk
  by_cases hpid : k.pid = pid
  · rw [h.wellFormed.frame?_none (hpid.symm ▸ hgone)] at hk
    cases hk
  · exact hunused k (h.frames k hpid ppn hk)

theorem Respects.traceless (h : Respects pid p p') (hwf : p.WellFormed none)
    (hgone : p'.extent pid = none) : Traceless p p' pid p.frames.total where
  space := by
    rw [extent_eq_none_iff, OrderedMap.contains] at hgone
    simpa using hgone
  entries := fun vpn => h.wellFormed.lookup_none hgone
  cacheSlots := by
    rintro slot hmem hv rfl
    have hcached := h.wellFormed.cached_of_slot hmem hv
    rw [h.wellFormed.cached_none (h.wellFormed.lookup_none hgone)] at hcached
    cases hcached
  pending := fun vpn => h.wellFormed.not_pending hgone
  swapSlots := fun vpn => h.wellFormed.slot?_none hgone
  partition hword := by
    have hperm := h.wellFormed.frames_perm
    rwa [Frames.counted_of_total h.total, Frames.InWord.counted_eq hword] at hperm
  freePages := by
    refine (List.subperm_of_subset hwf.frames.nodup ?_).length_le
    intro ppn hppn
    obtain ⟨hword, hfree⟩ := (hwf.frames.mem_free ppn).mp hppn
    exact (h.wellFormed.frames.mem_free ppn).mpr
      ⟨hword.of_total h.total, h.free hwf hgone hfree⟩
  otherSpaces := h.others
  contents := h.bytes

end VirtualMemory.Pager
