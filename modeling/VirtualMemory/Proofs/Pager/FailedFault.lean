import VirtualMemory.Proofs.Pager.Closing
import VirtualMemory.Proofs.Pager.Coherence
import VirtualMemory.Proofs.Pager.Consistency

/-!
# A failed fault is clean

A fault fails at one of three depths: the page drawn to leave cannot be written, or, after it has
left, the page that is to come cannot be read from its image or from swap. Either way the frame that
was taken goes back, and besides the page that left everything is where it was.
-/

namespace VirtualMemory.Pager

variable {p p' : Pager} {key : PageKey} {cause : MemoryError} {left : Option PageKey} {c : Config}
  {ppn : Ppn}

/-! ## The page that left -/

/-- Page `left` was evicted, or none was. -/
def Departed (p p' : Pager) : Option PageKey → Prop
  | none => Still p p'
  | some k => ∃ ppn, Evicted p p' k ppn

theorem MadeRoom.departed (h : MadeRoom p p') : ∃ left, Departed p p' left := by
  rcases h with h | ⟨k, ppn, h⟩
  · exact ⟨none, h⟩
  · exact ⟨some k, ppn, h⟩

theorem Departed.madeRoom (h : Departed p p' left) : MadeRoom p p' := by
  cases left with
  | none => exact Or.inl h
  | some k => exact Or.inr ⟨k, h⟩

theorem Departed.still {p₁ : Pager} (h : Departed p p₁ left) (h' : Still p₁ p')
    (hsize : p.swap.pageSize = p.pageSize) : Departed p p' left := by
  cases left with
  | none => exact Still.trans h h'
  | some k =>
    obtain ⟨ppn, h⟩ := h
    exact ⟨ppn, h.still h' hsize⟩

theorem Departed.kept (h : Departed p p' left) {k : PageKey} (hk : left ≠ some k) :
    Kept p p' k := by
  cases left with
  | none => exact Still.kept h k
  | some q =>
    obtain ⟨ppn, h⟩ := h
    refine h.others k ?_
    rintro rfl
    exact hk rfl

theorem Departed.was (h : Departed p p' left) {k : PageKey} (hk : left = some k) :
    (p.frame? k).isSome = true := by
  subst hk
  obtain ⟨ppn, h⟩ := h
  exact Option.isSome_of_eq_some h.left.was

theorem Departed.frame? (h : Departed p p' left) (k : PageKey) :
    p'.frame? k = if left = some k then none else p.frame? k := by
  split
  next hk =>
    subst hk
    obtain ⟨ppn, h⟩ := h
    exact h.left.gone
  next hk => exact (h.kept hk).frame

theorem Departed.kept_absent (h : Departed p p' left) (hf : p.frame? key = none) :
    Kept p p' key := by
  refine h.kept ?_
  intro hk
  have hwas := h.was hk
  rw [hf] at hwas
  cases hwas

/-- The free frames are those without a page. -/
theorem WellFormed.isFree_iff (h : p.WellFormed none) :
    p.frames.isFree ppn = true ↔ ppn.toNat < p.frames.total ∧ ∀ k, p.frame? k ≠ some ppn := by
  constructor
  · intro hfree
    have hlt := Frames.lt_total_of_isFree hfree
    refine ⟨hlt, ?_⟩
    intro k hk
    have howner := (h.free_iff_unowned hlt).mp hfree
    rw [h.owner_of_frame? hk] at howner
    cases howner
  · rintro ⟨hlt, hnone⟩
    rw [h.free_iff_unowned hlt]
    cases howner : p.table.owner? ppn with
    | none => rfl
    | some k => exact absurd (h.frame?_of_owner howner) (hnone k)

theorem Departed.isFree_iff (hd : Departed p p' left) (h : p.WellFormed none)
    (h' : p'.WellFormed none) (ppn : Ppn) :
    p'.frames.isFree ppn = true ↔
      p.frames.isFree ppn = true ∨ ∃ k, left = some k ∧ p.frame? k = some ppn := by
  rw [h'.isFree_iff, h.isFree_iff, hd.madeRoom.steady.total]
  constructor
  · rintro ⟨hlt, hnone⟩
    by_cases hused : ∃ k, p.frame? k = some ppn
    · obtain ⟨k, hk⟩ := hused
      have hgone := hnone k
      rw [hd.frame?] at hgone
      split at hgone
      next hleft => exact Or.inr ⟨k, hleft, hk⟩
      next => exact absurd hk hgone
    · exact Or.inl ⟨hlt, fun k hk => hused ⟨k, hk⟩⟩
  · rintro (⟨hlt, hnone⟩ | ⟨k, hleft, hk⟩)
    · refine ⟨hlt, ?_⟩
      intro k
      rw [hd.frame?]
      split
      · exact nofun
      · exact hnone k
    · refine ⟨h.lt_of_frame? hk, ?_⟩
      intro k' hk'
      rw [hd.frame?] at hk'
      split at hk'
      next => cases hk'
      next hne =>
        -- the frame of the page that left has no other page
        have howner := h.owner_of_frame? hk'
        rw [h.owner_of_frame? hk] at howner
        exact hne (hleft.trans howner)

/-! ## Clean failures -/

/-- Why a page did not come in, and which page had left for it by then. -/
inductive MissFailure (p p' : Pager) (key : PageKey) (cause : MemoryError) :
    Option PageKey → Prop
  | victimWrite (hfull : ∀ ppn, p.frames.isFree ppn = false) (hvictim : VictimStays p p' cause) :
      MissFailure p p' key cause none
  | imageRead {left : Option PageKey} {index : ImageIndex}
      (hpending : p.pendingImage key = some index)
      (hload : index.load key.vpn p.pageSize = .error cause) : MissFailure p p' key cause left
  | swapRead {left : Option PageKey} {slot : Nat} {p₁ : Pager}
      (hslot : p.swap.slot? key = some slot) (hroom : Departed p p₁ left)
      (hread : (Swapper.readInto key p.pageSize p₁.swap).result = .error cause) :
      MissFailure p p' key cause left

/-- The page is not in memory, what is kept for it is as before, and of the other pages at most
`left` has moved. -/
structure CleanFailure (p p' : Pager) (key : PageKey) (left : Option PageKey) : Prop where
  entry : p'.table.lookupValid key = none
  slots : ∀ s ∈ p'.tlb.slots, s.valid = true → s.page ≠ key
  pending : p'.swap.isPending key = p.swap.isPending key
  slot : p'.swap.slot? key = p.swap.slot? key
  partition : (p'.frames.free ++ p'.table.resident.dense.toList).Perm
    ((List.range p.frames.total).map Nat.toUInt32)
  free : ∀ ppn, p'.frames.isFree ppn = true ↔
    p.frames.isFree ppn = true ∨ ∃ k, left = some k ∧ p.frame? k = some ppn
  resident : ∀ k, p'.frame? k = if left = some k then none else p.frame? k
  others : ∀ k, left ≠ some k → ∀ o < p.pageSize, p'.byte k o = p.byte k o
  /-- The page that left keeps its bytes just if it was dirty, or what was kept for it agreed. -/
  saved : ∀ k, left = some k → ((∀ o < p.pageSize, p'.byte k o = p.byte k o) ↔
    p.isDirty k = true ∨ ∀ o < p.pageSize, p.storedByte k o = p.byte k o)

theorem Departed.clean (hd : Departed p p' left) (h : p.WellFormed none) (h' : p'.WellFormed none)
    (hword : p.frames.InWord) (hf : p.frame? key = none) : CleanFailure p p' key left := by
  have hkept := hd.kept_absent hf
  have hkeeps := hkept.stored (isDirty_of_absent hf)
  have hsteady := hd.madeRoom.steady
  have hnone : p'.table.lookupValid key = none := frame?_eq_none_iff.mp (hkept.frame.trans hf)
  refine ⟨hnone, ?_, hkeeps.pending, hkeeps.slot, ?_, hd.isFree_iff h h', hd.frame?, ?_, ?_⟩
  · rintro s hmem hv rfl
    have hcached := h'.cached_none ((h'.lookupValid _).symm.trans hnone)
    rw [h'.cached_of_slot hmem hv] at hcached
    cases hcached
  · rw [← hword.counted_eq, Frames.counted, ← hsteady.total]
    exact h'.frames_perm
  · intro k hk o ho
    exact (hd.kept hk).byte (hsteady.imageByte k o) h.sized.swap ho
  · rintro k rfl
    obtain ⟨ppn, hd⟩ := hd
    exact hd.byte_iff h.sized.swap

theorem pendingImage_congr (hkeeps : p.swap.Keeps p'.swap key)
    (hext : p'.extent key.pid = p.extent key.pid) :
    p'.pendingImage key = p.pendingImage key := by
  rw [pendingImage, pendingImage, hkeeps.pending, image?_eq, image?_eq, hext]

/-- A page for which there are no frames cannot come in, and nothing is tried. Else what was read
after room was made was kept for the page before. -/
theorem Unresolved.missFailure (hu : Unresolved p p' key cause) (h : p.WellFormed none)
    (hf : p.frame? key = none) :
    (∃ left, p.frames.InWord ∧ MissFailure p p' key cause left ∧ Departed p p' left) ∨
      ¬ p.frames.InWord ∧ cause = .outOfMemory ∧ Still p p' := by
  cases hu with
  | noFrame hnone hstill =>
    cases hnone with
    | stays hfull hvictim =>
      refine Or.inl ⟨none, ?_, .victimWrite hfull hvictim, hstill⟩
      obtain ⟨victim, ppn, -, hwas, -⟩ := hvictim
      exact h.inWord_of_owner (h.owner_of_frame? hwas)
    | uncounted hmany => exact Or.inr ⟨hmany, rfl, hstill⟩
  | unread hword hroom hread hstill =>
    refine Or.inl ?_
    obtain ⟨left, hd⟩ := hroom.departed
    have hsteady := hroom.steady
    have hkeeps := (hd.kept_absent hf).stored (isDirty_of_absent hf)
    refine ⟨left, hword, ?_, hd.still hstill h.sized.swap⟩
    cases hread with
    | image hpending hload =>
      rw [pendingImage_congr hkeeps (hsteady.extent key.pid)] at hpending
      rw [hsteady.pageSize] at hload
      exact .imageRead hpending hload
    | slot hslot hread =>
      rw [hsteady.pageSize] at hread
      exact .swapRead (hkeeps.slot.symm.trans hslot) hd hread

/-- An in-bounds miss that fails does so for one of three reasons and is clean, or there are more
frames than a word counts and nothing is done. If no write went on into another page before, and the
swap is open, no byte of any page is lost either. -/
theorem failed_miss_clean {pid : Pid} {vaddr : VirtAddr} (hreached : Reached c p)
    (hin : p.inBounds pid (vaddr.vpn p.pageSize) = true)
    (herror : (handleMiss pid vaddr p).result = .error cause) :
    ((∃ left, MissFailure p (handleMiss pid vaddr p).state (p.pageOf pid vaddr) cause left ∧
          CleanFailure p (handleMiss pid vaddr p).state (p.pageOf pid vaddr) left) ∨
        p.frames.total = 0x100000000 ∧ cause = .outOfMemory ∧
          Still p (handleMiss pid vaddr p).state) ∧
      ∀ q events, Created c q → (∀ event ∈ events, event.InPage q.pageSize) →
        p = q.after events → ∀ k, ∀ o < p.pageSize,
          (handleMiss pid vaddr p).state.byte k o = p.byte k o := by
  have h := hreached.wellFormed
  obtain ⟨h', -, hr⟩ := handleMiss_ends h (rfl : p.pageOf pid vaddr = _)
  rw [herror] at hr
  obtain ⟨hroom, hr⟩ := hr
  constructor
  · obtain ⟨hf, hunresolved⟩ := hr hin
    rcases hunresolved.missFailure h hf with ⟨left, hword, hfailure, hd⟩ | ⟨hmany, rfl, hstill⟩
    · exact Or.inl ⟨left, hfailure, hd.clean h h' hword hf⟩
    · have htotal := Nat.le_antisymm h.sized.geometry.pages_le (Nat.le_of_not_lt hmany)
      exact Or.inr ⟨htotal, rfl, hstill⟩
  · rintro q events hc hinside rfl k o ho
    have hb := (Coherent.after hc.wellFormed.1 (.created hc) events hinside).backed
    exact hroom.byte h.sized.swap hb k ho

theorem failed_miss_clean_neighbours :
    (handleMiss 1 ⟨8⟩ (pair.after neighbours)).result = .error .invariantViolation ∧
      (∃ left, MissFailure (pair.after neighbours) (handleMiss 1 ⟨8⟩ (pair.after neighbours)).state
          ⟨1, 2⟩ .invariantViolation left ∧
        CleanFailure (pair.after neighbours) (handleMiss 1 ⟨8⟩ (pair.after neighbours)).state
          ⟨1, 2⟩ left) ∧
      (handleMiss 1 ⟨8⟩ (pair.after neighbours)).state.byte ⟨1, 1⟩ 0 =
        (pair.after neighbours).byte ⟨1, 1⟩ 0 := by
  have hreached : Reached pairConfig (pair.after neighbours) :=
    (Reached.created created_pair).after neighbours
  have hin : ∀ event ∈ neighbours, event.InPage pair.pageSize := by
    simp [neighbours, Event.InPage]
  have herror : (handleMiss 1 ⟨8⟩ (pair.after neighbours)).result =
      .error .invariantViolation := by decide +kernel
  obtain ⟨hclean | ⟨-, hcause, -⟩, hcontent⟩ :=
    failed_miss_clean hreached (by decide +kernel) herror
  case inr => cases hcause
  exact ⟨herror, hclean, hcontent pair neighbours created_pair hin rfl ⟨1, 1⟩ 0 (by decide +kernel)⟩

/-- A write went on into the text, whose frame is clean. The fault for the page that cannot be read
draws the text to leave, and the byte that was written is lost. -/
theorem failed_miss_loses_byte :
    (handleMiss 1 ⟨8⟩ (pair.after (.draw (.ofWords [0x8000000000000000]) :: overrun))).result =
        .error .invariantViolation ∧
      (pair.after (.draw (.ofWords [0x8000000000000000]) :: overrun)).byte ⟨1, 0⟩ 0 = 9 ∧
      (handleMiss 1 ⟨8⟩ (pair.after (.draw (.ofWords [0x8000000000000000]) :: overrun))).state.byte
        ⟨1, 0⟩ 0 = 0 := by
  decide +kernel

end VirtualMemory.Pager
