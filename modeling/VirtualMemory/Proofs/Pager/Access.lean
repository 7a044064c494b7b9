import VirtualMemory.Proofs.Pager.Eviction

/-!
# Accesses

An access is answered by the cache alone. It fails for a page outside the space, for one that is not
cached, and for a write to a read-only page, and then nothing moves; else the page is marked, a
write makes it dirty, and the access goes to the frame of the page.
-/

namespace VirtualMemory.Pager

variable {p p' : Pager} {key : PageKey} {held : Option Ppn} {pid : Pid} {vaddr : VirtAddr}
  {access : Access}

def pageOf (p : Pager) (pid : Pid) (vaddr : VirtAddr) : PageKey := ⟨pid, vaddr.vpn p.pageSize⟩

def touched (p : Pager) (key : PageKey) (access : Access) : Pager :=
  p.setTlb (p.tlb.touch key.pid key.vpn access)

theorem same_countMiss (p : Pager) : Same p (p.setTlb p.tlb.countMiss) :=
  ⟨rfl, rfl, rfl, rfl, rfl, rfl, rfl, fun _ => rfl⟩

/-! ## What translating answers -/

theorem translate_of_outside (hout : p.inBounds pid (vaddr.vpn p.pageSize) = false) :
    (translate pid vaddr access).Ends p fun r p' => r = .error .addressError ∧ p' = p := by
  simp only [translate, Op.ends_bind, Op.ends_get, Op.ends_checkDivisor, hout, Bool.not_false,
    if_true, Op.ends_throw]
  exact ⟨trivial, trivial⟩

theorem translate_of_uncached (hz : p.Sized)
    (hin : p.inBounds pid (vaddr.vpn p.pageSize) = true)
    (hc : p.tlb.cached (p.pageOf pid vaddr) = none) :
    (translate pid vaddr access).Ends p fun r p' =>
      r = .error .tlbMiss ∧ p' = p.setTlb p.tlb.countMiss := by
  have hlookup : p.processor.tlb.lookup pid (vaddr.vpn p.processor.pageSize) = none := by
    rw [hz.processor]
    exact hc
  simp only [translate, Op.ends_bind, Op.ends_get, Op.ends_checkDivisor, hin, Bool.not_true,
    Bool.false_eq_true, if_false, Op.ends_on, Processor.translate, processorPart, hlookup,
    Op.ends_set, Op.ends_throw]
  exact ⟨trivial, rfl⟩

theorem translate_of_cached (hz : p.Sized)
    (hin : p.inBounds pid (vaddr.vpn p.pageSize) = true) {e : Entry}
    (hc : p.tlb.cached (p.pageOf pid vaddr) = some e) :
    (translate pid vaddr access).Ends p fun r p' =>
      if access = .write ∧ e.readOnly = true then r = .error .readOnly ∧ p' = p
      else r = .ok (.ofPage e.ppn (vaddr.offset p.pageSize) p.pageSize) ∧
        p' = p.touched (p.pageOf pid vaddr) access := by
  have hvpn : vaddr.vpn p.processor.pageSize = vaddr.vpn p.pageSize := by rw [hz.processor]
  have hlookup : p.processor.tlb.lookup pid (vaddr.vpn p.processor.pageSize) = some e := by
    rw [hvpn]
    exact hc
  simp only [translate, Op.ends_bind, Op.ends_get, Op.ends_checkDivisor, hin, Bool.not_true,
    Bool.false_eq_true, if_false, Op.ends_on, Processor.translate, processorPart, hlookup,
    Op.ends_ite, Op.ends_set, Op.ends_throw, Op.ends_pure, Bool.and_eq_true, decide_eq_true_eq]
  split
  · exact ⟨trivial, trivial⟩
  · constructor
    · rw [hz.processor]
    · rw [hvpn]
      rfl

/-- A translation fails and nothing moves, or it meets a cached page. -/
theorem translate_ends (h : p.WellFormed held) :
    (translate pid vaddr access).Ends p fun r p' =>
      (∃ cause, r = .error cause ∧ Same p p') ∨
        ∃ e, p.tlb.cached (p.pageOf pid vaddr) = some e ∧
          (access = .write → e.readOnly = false) ∧
          r = .ok (.ofPage e.ppn (vaddr.offset p.pageSize) p.pageSize) ∧
          p' = p.touched (p.pageOf pid vaddr) access := by
  have hrefl : Same p p := ⟨rfl, rfl, rfl, rfl, rfl, rfl, rfl, fun _ => rfl⟩
  cases hin : p.inBounds pid (vaddr.vpn p.pageSize) with
  | false =>
    refine (translate_of_outside hin).imp ?_
    rintro r p' ⟨rfl, rfl⟩
    exact Or.inl ⟨_, rfl, hrefl⟩
  | true =>
    cases hc : p.tlb.cached (p.pageOf pid vaddr) with
    | none =>
      refine (translate_of_uncached h.sized hin hc).imp ?_
      rintro r p' ⟨rfl, rfl⟩
      exact Or.inl ⟨_, rfl, same_countMiss p⟩
    | some e =>
      refine (translate_of_cached h.sized hin hc).imp ?_
      intro r p' hs
      split at hs
      next =>
        obtain ⟨rfl, rfl⟩ := hs
        exact Or.inl ⟨_, rfl, hrefl⟩
      next hallowed =>
        obtain ⟨rfl, rfl⟩ := hs
        refine Or.inr ⟨e, rfl, ?_, rfl, rfl⟩
        intro hwrite
        rw [Bool.eq_false_iff]
        exact fun hro => hallowed ⟨hwrite, hro⟩

/-! ## A page that was accessed -/

theorem cached_touched (p : Pager) (key : PageKey) (access : Access) (k : PageKey) :
    (p.touched key access).tlb.cached k =
      if k = key then (p.tlb.cached k).map (·.touched access) else p.tlb.cached k :=
  Tlb.cached_touch key access k

theorem WellFormed.touched (h : p.WellFormed held) {e : Entry}
    (hc : p.tlb.cached key = some e) (hro : access = .write → e.readOnly = false) :
    (p.touched key access).WellFormed held where
  sized := by
    have hz := h.sized
    refine ⟨hz.geometry, hz.pages, hz.memory, hz.store, hz.residences, hz.processor, hz.swap, ?_⟩
    exact (Tlb.size_touch _ _ _ _).symm ▸ hz.slots
  table := h.table
  frames := h.frames
  swap := h.swap
  distinct := h.distinct.touch _ _ _
  free_iff := h.free_iff
  held_apart := h.held_apart
  entries := fun key e he => (h.entries key e he).congr rfl id
  cached := by
    intro k c hk
    rw [cached_touched] at hk
    split at hk
    next hkey =>
      subst hkey
      rw [hc] at hk
      obtain rfl := Option.some.inj hk
      obtain ⟨hfits, known, hknown, hext⟩ := h.cached k e hc
      refine ⟨⟨?_, ?_, hfits.bounds, ?_, ?_⟩, known, hknown, Entry.touched_extends hext access⟩
      · rw [Entry.valid_touched, hfits.valid]
      · rw [Entry.vpn_touched, hfits.vpn]
      · intro hopen
        rw [Entry.readOnly_touched, hfits.readOnly hopen]
        rfl
      · intro hro'
        rw [Entry.readOnly_touched] at hro'
        rw [Entry.dirty_touched, hfits.clean hro']
        cases access with
        | read => rfl
        | write =>
          rw [hro rfl] at hro'
          cases hro'
    next => exact ⟨(h.cached k c hk).1.congr rfl id, (h.cached k c hk).2⟩
  slotted := h.slotted
  pending := h.pending
  unpended := h.unpended

theorem isDirty_touched (h : p.WellFormed held) {e : Entry} (hc : p.tlb.cached key = some e)
    (hro : access = .write → e.readOnly = false) (k : PageKey) :
    (p.touched key access).isDirty k =
      (p.isDirty k || (decide (k = key) && decide (access = .write))) := by
  have hcached := cached_touched p key access k
  by_cases hk : k = key
  · subst hk
    obtain ⟨-, known, hknown, -⟩ := h.cached k e hc
    rw [if_pos rfl, hc, Option.map_some] at hcached
    rw [(h.touched hc hro).isDirty_eq hknown, h.isDirty_eq hknown, hcached, hc]
    simp only [Option.getD_some, Entry.dirty_touched, decide_true, Bool.true_and]
    cases access <;> rfl
  · rw [if_neg hk] at hcached
    rw [isDirty, isDirty, hcached]
    simp only [hk, decide_false, Bool.false_and, Bool.or_false]
    rfl

/-! ## Transfers -/

/-- What an access does to its page: a write makes it dirty. Where pages are and what is kept for
them stays. -/
structure Accessed (p p' : Pager) (key : PageKey) (access : Access) : Prop where
  steady : Steady p p'
  swap : p'.swap = p.swap
  frame : ∀ k, p'.frame? k = p.frame? k
  dirty : ∀ k, p'.isDirty k = (p.isDirty k || (decide (k = key) && decide (access = .write)))
  resident : (p.frame? key).isSome = true

theorem accessed_touched (h : p.WellFormed held) {e : Entry} (hc : p.tlb.cached key = some e)
    (hro : access = .write → e.readOnly = false) :
    Accessed p (p.touched key access) key access where
  steady := ⟨rfl, rfl, rfl, rfl, fun _ => rfl, id⟩
  swap := rfl
  frame := fun _ => rfl
  dirty := isDirty_touched h hc hro
  resident := by
    obtain ⟨-, known, hknown, -⟩ := h.cached key e hc
    exact Option.isSome_of_eq_some (h.frame?_of_lookup hknown)

theorem frame?_of_cached (h : p.WellFormed held) {e : Entry} (hc : p.tlb.cached key = some e) :
    p.frame? key = some e.ppn := by
  obtain ⟨-, known, hknown, hext⟩ := h.cached key e hc
  rw [h.frame?_of_lookup hknown, hext.ppn]

/-- The physical address of an access is inside the frame of its page. -/
theorem toNat_physical (h : p.WellFormed held) {ppn : Ppn} (hf : p.frame? key = some ppn)
    (vaddr : VirtAddr) :
    (PhysAddr.ofPage ppn (vaddr.offset p.pageSize) p.pageSize).value.toNat =
      ppn.toNat * p.memory.pageSize + vaddr.offset p.pageSize := by
  have hg := h.sized.geometry
  rw [h.sized.memory]
  exact hg.toNat_ofPage (h.lt_of_frame? hf) (hg.offset_lt vaddr)

/-- A read that stays inside its page delivers the bytes of the page. -/
theorem read_ends (h : p.WellFormed held) (pid : Pid) (vaddr : VirtAddr) (length : Nat) :
    (read pid vaddr length).Ends p fun r p' =>
      p'.WellFormed held ∧
        match r with
        | .ok data => Accessed p p' (p.pageOf pid vaddr) .read ∧ p'.memory = p.memory ∧
            (vaddr.offset p.pageSize + length ≤ p.pageSize →
              data.length = length ∧ ∀ i < length, data.getD i 0 =
                p.byte (p.pageOf pid vaddr) (vaddr.offset p.pageSize + i))
        | .error _ => Same p p' := by
  simp only [read, Op.ends_bind]
  refine (translate_ends h).imp ?_
  rintro r p' (⟨cause, rfl, hsame⟩ | ⟨e, hc, hro, rfl, rfl⟩)
  · exact ⟨h.same hsame, hsame⟩
  · have hf := frame?_of_cached h hc
    have haddr := toNat_physical h hf vaddr
    have hlt : e.ppn.toNat < p.memory.pages := h.sized.pages ▸ h.lt_of_frame? hf
    simp only [Op.ends_get, Op.ends_pure]
    refine ⟨h.touched hc hro, accessed_touched h hc hro, rfl, ?_⟩
    intro hin
    refine ⟨?_, ?_⟩
    · exact PhysicalMemory.length_read h.sized.whole hlt haddr (h.sized.memory.symm ▸ hin)
    · intro i hi
      rw [byte, hf]
      have hbyte := PhysicalMemory.getD_read haddr hi
      rw [h.sized.memory] at hbyte
      exact hbyte

/-- A write that stays inside its page replaces just the bytes that it names. -/
theorem write_ends (h : p.WellFormed held) (pid : Pid) (vaddr : VirtAddr) (data : Bytes) :
    (write pid vaddr data).Ends p fun r p' =>
      p'.WellFormed held ∧
        match r with
        | .ok n => Accessed p p' (p.pageOf pid vaddr) .write ∧
            (vaddr.offset p.pageSize + data.length ≤ p.pageSize →
              n = data.length ∧
              ∀ k ppn, p.frame? k = some ppn → ∀ o < p.pageSize, p'.frameByte ppn o =
                if k = p.pageOf pid vaddr ∧ vaddr.offset p.pageSize ≤ o ∧
                    o < vaddr.offset p.pageSize + data.length
                then data.getD (o - vaddr.offset p.pageSize) 0 else p.frameByte ppn o)
        | .error _ => Same p p' := by
  simp only [write, Op.ends_bind]
  refine (translate_ends h).imp ?_
  rintro r p' (⟨cause, rfl, hsame⟩ | ⟨e, hc, hro, rfl, rfl⟩)
  · exact ⟨h.same hsame, hsame⟩
  · have hf := frame?_of_cached h hc
    have haddr := toNat_physical h hf vaddr
    have hlt : e.ppn.toNat < p.memory.pages := h.sized.pages ▸ h.lt_of_frame? hf
    have ha := accessed_touched h hc hro
    simp only [Op.ends_modifyGet]
    refine ⟨(h.touched hc hro).rememory rfl rfl (ByteStore.size_poke _ _ _),
      ⟨⟨rfl, rfl, rfl, rfl, fun _ => rfl, id⟩, rfl, fun _ => rfl, ha.dirty, ha.resident⟩, ?_⟩
    intro hin
    have hin' : vaddr.offset p.pageSize + data.length ≤ p.memory.pageSize :=
      h.sized.memory.symm ▸ hin
    refine ⟨PhysicalMemory.write_fst h.sized.whole hlt haddr hin', ?_⟩
    intro k q hq o ho
    have ho' : o < p.memory.pageSize := h.sized.memory.symm ▸ ho
    by_cases hk : k = p.pageOf pid vaddr
    · rw [hk, hf] at hq
      obtain rfl := Option.some.inj hq
      have hbyte := PhysicalMemory.byte_write h.sized.whole hlt haddr data ho'
      rw [h.sized.memory] at hbyte
      simp only [hk, true_and]
      exact hbyte
    · have hne : q ≠ e.ppn := by
        rintro rfl
        have ho₁ := h.owner_of_frame? hq
        rw [h.owner_of_frame? hf] at ho₁
        exact hk (Option.some.inj ho₁).symm
      have hbyte := PhysicalMemory.byte_write_other p.memory haddr hin' hne ho'
      rw [h.sized.memory] at hbyte
      rw [if_neg fun hcase => hk hcase.1]
      exact hbyte

end VirtualMemory.Pager
