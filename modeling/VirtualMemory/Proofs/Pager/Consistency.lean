import VirtualMemory.Pager.Audit
import VirtualMemory.Proofs.Pager.Run
import VirtualMemory.Proofs.SwapAudit
import VirtualMemory.Proofs.TableAudit

/-!
# The audit passes

Table, frames, swap and cache are changed by different operations and in different orders, with
errors in between. The audit compares them with each other; it finds nothing in any pager that a run
can reach. What it counts is compared through lists without repetitions that have the same members.
-/

namespace VirtualMemory.Pager

variable {σ : Type} {p : Pager} {held : Option Ppn}

/-! ## Frames and cache -/

theorem auditFrames_ends {ppns : List Ppn}
    (h : ∀ ppn ∈ ppns, p.frames.isFree ppn = true ↔ p.table.owner? ppn = none) (s : σ) :
    (p.auditFrames ppns : Op σ MemoryError Unit).Ends s fun r _ => r = .ok () := by
  induction ppns with
  | nil => exact rfl
  | cons ppn rest ih =>
    have hpass : ¬ p.frames.isFree ppn = (p.table.owner? ppn).isSome := by
      have hhead := h ppn List.mem_cons_self
      cases ho : p.table.owner? ppn with
      | none => simp [hhead.mpr ho]
      | some key =>
        rw [ho] at hhead
        simpa using hhead
    simp only [auditFrames, hpass, if_false]
    exact ih fun q hq => h q (List.mem_cons_of_mem _ hq)

theorem auditSlots_ends {slots : List (Nat × TlbSlot)}
    (h : ∀ slot ∈ slots, p.slotAgrees slot.2 = true) (s : σ) :
    (p.auditSlots slots : Op σ MemoryError Unit).Ends s fun r _ => r = .ok () := by
  induction slots with
  | nil => exact rfl
  | cons slot rest ih =>
    simp only [auditSlots, h slot List.mem_cons_self, Bool.not_true, Bool.false_eq_true, if_false]
    exact ih fun q hq => h q (List.mem_cons_of_mem _ hq)

namespace WellFormed

theorem free_iff_unowned (h : p.WellFormed none) {ppn : Ppn} (hlt : ppn.toNat < p.frames.total) :
    p.frames.isFree ppn = true ↔ p.table.owner? ppn = none := by
  simpa using h.free_iff ppn hlt

/-- Free and resident frames together are the frames that are counted, each of them once. -/
theorem frames_perm (h : p.WellFormed none) :
    (p.frames.free ++ p.table.resident.dense.toList).Perm
      ((List.range p.frames.counted).map Nat.toUInt32) := by
  have hle : p.frames.total ≤ 2 ^ 32 := h.sized.geometry.pages_le
  by_cases hword : p.frames.InWord
  case neg =>
    have hdense : p.table.resident.dense.toList = [] := by
      rw [List.eq_nil_iff_forall_not_mem]
      intro ppn hmem
      rw [h.table.index.mem_dense] at hmem
      obtain ⟨key, hk⟩ := Option.isSome_iff_exists.mp hmem
      exact hword (h.inWord_of_owner hk)
    rw [h.frames.free_eq_nil hword, hdense, Frames.counted_of_many hle hword]
    exact .refl _
  rw [hword.counted_eq]
  have hapart : ∀ ppn ∈ p.frames.free, ppn ∉ p.table.resident.dense.toList := by
    intro ppn hfree hdense
    rw [h.frames.mem_free_iff hword] at hfree
    rw [h.table.index.mem_dense] at hdense
    rw [show p.table.resident.owner? ppn = none from
      (h.free_iff_unowned (Frames.lt_total_of_isFree hfree)).mp hfree] at hdense
    cases hdense
  rw [List.perm_ext_iff_of_nodup
    (List.Nodup.append h.frames.nodup h.table.index.nodup_dense hapart) (nodup_words hle)]
  intro ppn
  rw [List.mem_append, h.frames.mem_free_iff hword, h.table.index.mem_dense, mem_words hle]
  constructor
  · rintro (hfree | howned)
    · exact Frames.lt_total_of_isFree hfree
    · obtain ⟨key, hk⟩ := Option.isSome_iff_exists.mp howned
      rw [← h.sized.residences]
      exact ResidentIndex.lt_of_owner? hk
  · intro hlt
    cases ho : p.table.resident.owner? ppn with
    | none => exact Or.inl ((h.free_iff_unowned hlt).mpr ho)
    | some key => exact Or.inr rfl

theorem count_frames (h : p.WellFormed none) :
    p.freePages + p.residentPages = p.frames.counted := by
  have hlength := h.frames_perm.length_eq
  rw [List.length_append, List.length_map, List.length_range] at hlength
  exact hlength

/-- A valid slot holds what the cache answers for its page. -/
theorem cached_of_slot (h : p.WellFormed held) {slot : TlbSlot} (hmem : slot ∈ p.tlb.slots)
    (hv : slot.valid = true) : p.tlb.cached slot.page = some slot.entry :=
  (Tlb.cached_eq_some_iff h.distinct).mpr ⟨slot, hmem, hv, rfl, rfl⟩

theorem slotAgrees (h : p.WellFormed held) {slot : TlbSlot} (hmem : slot ∈ p.tlb.slots)
    (hv : slot.valid = true) : p.slotAgrees slot = true := by
  obtain ⟨-, known, hknown, hext⟩ := h.cached _ _ (h.cached_of_slot hmem hv)
  have hlookup : p.table.lookupValid ⟨slot.asid, slot.entry.vpn⟩ = some known :=
    (h.lookupValid _).trans hknown
  rw [Pager.slotAgrees, hlookup, Option.any_some, hext.ppn, beq_self_eq_true]

/-- If a word cannot count the frames, the audit misses all of them. -/
theorem audit_ends (h : p.WellFormed none) (s : σ) :
    (p.audit : Op σ MemoryError Unit).Ends s fun r _ =>
      r = if p.frames.total < 0x100000000 then .ok () else .error .invariantViolation := by
  have hle : p.frames.total ≤ 2 ^ 32 := h.sized.geometry.pages_le
  have hslots : ∀ slot ∈ p.tlb.validSlots, p.slotAgrees slot.2 = true := by
    intro slot hs
    rw [Tlb.validSlots, List.mem_map] at hs
    obtain ⟨⟨slot, i⟩, hs, rfl⟩ := hs
    rw [List.mem_filter] at hs
    exact h.slotAgrees (List.fst_mem_of_mem_zipIdx hs.1) hs.2
  simp only [audit, Op.ends_bind]
  refine (PageTable.audit_ends h.table s).imp ?_
  rintro r s₁ rfl
  refine (Swapper.audit_ends h.swap s₁).imp ?_
  rintro r s₂ rfl
  by_cases hword : p.frames.InWord
  · have hframes : ∀ ppn ∈ (List.range p.frames.total).map Nat.toUInt32,
        p.frames.isFree ppn = true ↔ p.table.owner? ppn = none :=
      fun ppn hp => h.free_iff_unowned ((mem_words hle).mp hp)
    rw [toNat_word hword]
    simp only [h.count_frames, hword.counted_eq, ne_eq, not_true_eq_false, if_false, Op.ends_bind]
    refine (auditFrames_ends hframes s₂).imp ?_
    rintro r s₃ rfl
    refine (auditSlots_ends hslots s₃).imp fun r _ hr => ?_
    exact hr.trans (if_pos hword).symm
  · have hmissed : p.freePages + p.residentPages ≠ p.frames.total := by
      rw [h.count_frames, Frames.counted_of_many hle hword]
      exact Nat.ne_of_lt h.sized.geometry.pages_pos
    simp only [hmissed, ne_eq, not_false_eq_true, if_true, Op.ends_bind, Op.ends_notify,
      Op.ends_throw]
    exact (if_neg hword).symm

end WellFormed

/-! ## What a run cannot break -/

/-- What holds of a pager between any two operations. -/
structure Consistent (p : Pager) : Prop where
  audit : (p.audit () : Outcome Unit MemoryError Unit).result =
    if p.frames.total < 0x100000000 then .ok () else .error .invariantViolation
  partition : p.frames.total < 0x100000000 →
    (p.frames.free ++ p.table.resident.dense.toList).Perm
      ((List.range p.frames.total).map Nat.toUInt32)
  owner : ∀ key key' e e', p.table.lookup key = some e → p.table.lookup key' = some e' →
    e.ppn = e'.ppn → key = key'
  swapSlots : (p.swap.slots.toList.map Prod.snd ++ p.swap.freeSlots).Nodup
  vpn : ∀ key e, p.table.lookup key = some e → e.vpn = key.vpn
  space : ∀ key e, p.table.lookup key = some e →
    ∃ space, p.spaces.get? key.pid = some space ∧ key.vpn.toNat < space.numPages
  /-- No two valid slots of the cache translate one page. -/
  single : ∀ (i j : Nat) (s s' : TlbSlot), p.tlb.slots[i]? = some s →
    p.tlb.slots[j]? = some s' → s.valid = true → s'.valid = true → s.page = s'.page → i = j
  /-- A valid slot agrees with the table, but may have seen more of the page. -/
  agrees : ∀ s ∈ p.tlb.slots, s.valid = true → ∃ e, p.table.lookup s.page = some e ∧
    e.valid = true ∧ s.entry.ppn = e.ppn ∧ s.entry.readOnly = e.readOnly ∧
    (e.used = true → s.entry.used = true) ∧ (e.dirty = true → s.entry.dirty = true)

theorem WellFormed.consistent (h : p.WellFormed none) : p.Consistent where
  audit := h.audit_ends ()
  partition hword := by
    have hperm := h.frames_perm
    rwa [Frames.InWord.counted_eq hword] at hperm
  owner := by
    intro key key' e e' he he' hppn
    exact h.table.page_unique he he' (h.entries key e he).valid (h.entries key' e' he').valid hppn
  swapSlots := by
    refine List.Nodup.append h.swap.nodup_slots h.swap.free_nodup ?_
    intro i hi hfree
    obtain ⟨pair, hp, rfl⟩ := List.mem_map.mp hi
    exact h.swap.free_unused _ hfree pair.1 ((OrderedMap.mem_toList_iff _ _ _).mp hp)
  vpn := fun key e he => (h.entries key e he).vpn
  space := by
    intro key e he
    have hbounds := (h.entries key e he).bounds
    rw [inBounds, Option.any_eq_true] at hbounds
    obtain ⟨space, hspace, hlt⟩ := hbounds
    exact ⟨space, hspace, of_decide_eq_true hlt⟩
  single := by
    intro i j s s' hi hj hv hv' hpage
    obtain ⟨hilt, hi⟩ := List.getElem?_eq_some_iff.mp hi
    obtain ⟨hjlt, hj⟩ := List.getElem?_eq_some_iff.mp hj
    have hdistinct := List.pairwise_iff_getElem.mp h.distinct
    rcases Nat.lt_trichotomy i j with hlt | rfl | hlt
    · have hne := hdistinct i j hilt hjlt hlt
      rw [hi, hj] at hne
      exact absurd hpage (hne hv hv')
    · rfl
    · have hne := hdistinct j i hjlt hilt hlt
      rw [hi, hj] at hne
      exact absurd hpage.symm (hne hv' hv)
  agrees := by
    intro s hmem hv
    obtain ⟨-, known, hknown, hext⟩ := h.cached _ _ (h.cached_of_slot hmem hv)
    exact ⟨known, hknown, (h.entries _ _ hknown).valid, hext.ppn, hext.readOnly, hext.used,
      hext.dirty⟩

/-- Whatever is done to a pager, and whatever fails, table, frames, swap and cache agree. -/
theorem consistent_after {c : Config} (hc : Created c p) (events : List Event) :
    (p.after events).Consistent :=
  (hc.wellFormed.1.after events).consistent

theorem consistent_roundTrip : (small.after roundTrip).Consistent :=
  consistent_after created_small roundTrip

/-- Of as many frames as an address can name none is free and none is resident, which the audit
finds in the new pager already. -/
theorem audit_misses_frames :
    Created countlessConfig countless ∧
      (countless.audit () : Outcome Unit MemoryError Unit).result = .error .invariantViolation ∧
      ¬ (countless.frames.free ++ countless.table.resident.dense.toList).Perm
        ((List.range 0x100000000).map Nat.toUInt32) := by
  refine ⟨created_countless, by decide +kernel, ?_⟩
  intro hperm
  have hlength := hperm.length_eq
  rw [List.length_map, List.length_range] at hlength
  cases hlength

end VirtualMemory.Pager
