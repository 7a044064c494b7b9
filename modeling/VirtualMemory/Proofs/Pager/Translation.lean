import VirtualMemory.Proofs.Pager.Closing

/-!
# Translations are neither stale nor shared

An access is answered by the cache alone, without a look at the table. Still an address that is
answered belongs to the frame that the table has for the page, whatever was evicted, taken down or
put back before, and no two pages are ever answered with one address.
-/

namespace VirtualMemory.Pager

variable {p : Pager} {c : Config} {pid pid' : Pid} {vaddr vaddr' : VirtAddr} {access : Access}
  {paddr paddr' : PhysAddr} {e e' : Entry}

/-- The page of an address has entry `e` in the table, and `paddr` is its place in the frame. -/
structure Locates (p : Pager) (pid : Pid) (vaddr : VirtAddr) (paddr : PhysAddr) (e : Entry) :
    Prop where
  space : ∃ space, p.spaces.get? pid = some space ∧
    (vaddr.vpn p.pageSize).toNat < space.numPages
  entry : p.table.lookupValid (p.pageOf pid vaddr) = some e
  allocated : p.frames.allocated[e.ppn.toNat]? = some true
  address : paddr.value.toNat = e.ppn.toNat * p.pageSize + vaddr.offset p.pageSize
  inside : paddr.value.toNat < p.memory.pages * p.memory.pageSize

/-- A frame with an owner is not free. -/
theorem WellFormed.allocated {held : Option Ppn} (h : p.WellFormed held) {key : PageKey}
    (he : p.table.lookup key = some e) : p.frames.allocated[e.ppn.toNat]? = some true := by
  have hlt := h.ppn_lt he
  have hused : ¬ p.frames.isFree e.ppn = true := by
    rw [h.free_iff e.ppn hlt, h.owner he]
    rintro ⟨hnone, -⟩
    cases hnone
  rw [Frames.isFree_iff] at hused
  cases hflag : p.frames.allocated[e.ppn.toNat]? with
  | none => exact absurd hlt (Nat.not_lt.mpr (FrameMarks.getElem?_eq_none_iff.mp hflag))
  | some flag =>
    cases flag with
    | true => rfl
    | false => exact absurd hflag hused

theorem translate_locates (h : p.WellFormed none) (pid : Pid) (vaddr : VirtAddr)
    (access : Access) : (translate pid vaddr access).Ends p fun r _ =>
      ∀ paddr, r = .ok paddr → ∃ e, p.Locates pid vaddr paddr e := by
  refine (translate_ends h).imp ?_
  rintro r p' (⟨cause, rfl, -⟩ | ⟨cached, hcached, -, rfl, -⟩)
  · exact nofun
  rintro paddr ⟨⟩
  obtain ⟨hfits, known, hknown, hext⟩ := h.cached _ cached hcached
  have hframe := frame?_of_cached h hcached
  have haddr := toNat_physical h hframe vaddr
  have hlt := h.lt_of_frame? hframe
  have ho := h.sized.geometry.offset_lt vaddr
  have hend := block_le hlt p.pageSize
  obtain ⟨space, hspace, hbounds⟩ := (Option.any_eq_true _ _).mp hfits.bounds
  refine ⟨known, ⟨space, hspace, of_decide_eq_true hbounds⟩, (h.lookupValid _).trans hknown,
    h.allocated hknown, ?_, ?_⟩
  · rw [haddr, h.sized.memory, hext.ppn]
  · rw [haddr, h.sized.memory, h.sized.pages]
    omega

theorem Locates.frame? (hl : p.Locates pid vaddr paddr e) :
    p.frame? (p.pageOf pid vaddr) = some e.ppn :=
  frame?_of_lookupValid hl.entry

theorem Locates.lt (hl : p.Locates pid vaddr paddr e) (h : p.WellFormed none) :
    e.ppn.toNat < p.memory.pages :=
  h.sized.pages ▸ h.lt_of_frame? hl.frame?

theorem Locates.address_eq (hl : p.Locates pid vaddr paddr e) (h : p.WellFormed none) :
    paddr.value.toNat = e.ppn.toNat * p.memory.pageSize + vaddr.offset p.pageSize := by
  rw [hl.address, h.sized.memory]

/-- What stands at one address is one place of one page. -/
theorem Locates.inj (h : p.WellFormed none) (hl : p.Locates pid vaddr paddr e)
    (hl' : p.Locates pid' vaddr' paddr e') : pid = pid' ∧ vaddr = vaddr' := by
  have hg := h.sized.geometry
  have ho := hg.offset_lt vaddr
  have ho' := hg.offset_lt vaddr'
  have haddr := hl.address.symm.trans hl'.address
  have hppn : e.ppn = e'.ppn := by
    by_contra hne
    have := frame_apart hne p.pageSize _ ho
    omega
  rw [hppn] at haddr
  have hoffset : vaddr.offset p.pageSize = vaddr'.offset p.pageSize := Nat.add_left_cancel haddr
  have hkey : p.pageOf pid vaddr = p.pageOf pid' vaddr' := by
    have hentry := (h.lookupValid _).symm.trans hl.entry
    have hentry' := (h.lookupValid _).symm.trans hl'.entry
    exact h.table.page_unique hentry hentry' (h.entries _ e hentry).valid
      (h.entries _ e' hentry').valid hppn
  obtain ⟨hpid, hvpn⟩ := PageKey.mk.inj hkey
  refine ⟨hpid, VirtAddr.eq_of_toNat ?_⟩
  rw [hg.toNat_eq vaddr, hg.toNat_eq vaddr', hvpn, hoffset]

/-- One place of one page stands at one address. -/
theorem Locates.unique (hl : p.Locates pid vaddr paddr e) (hl' : p.Locates pid vaddr paddr' e') :
    paddr = paddr' := by
  obtain rfl := Option.some.inj (hl.entry.symm.trans hl'.entry)
  exact PhysAddr.eq_of_toNat (hl.address.trans hl'.address.symm)

/-- A translation that succeeds names the frame that the table has for the page, which is allocated,
and two of them name one address only for one address of one process. -/
theorem translate_faithful (h : Reached c p)
    (hok : (translate pid vaddr access p).result = .ok paddr) :
    (∃ e, p.Locates pid vaddr paddr e) ∧
      ∀ pid' vaddr' access' paddr', (translate pid' vaddr' access' p).result = .ok paddr' →
        (paddr = paddr' ↔ pid = pid' ∧ vaddr = vaddr') := by
  obtain ⟨e, hl⟩ := translate_locates h.wellFormed pid vaddr access paddr hok
  refine ⟨⟨e, hl⟩, ?_⟩
  intro pid' vaddr' access' paddr' hok'
  obtain ⟨e', hl'⟩ := translate_locates h.wellFormed pid' vaddr' access' paddr' hok'
  constructor
  · rintro rfl
    exact hl.inj h.wellFormed hl'
  · rintro ⟨rfl, rfl⟩
    exact hl.unique hl'

theorem translate_faithful_neighbours :
    (translate 1 ⟨6⟩ .write (pair.after neighbours).closed).result = .ok ⟨2⟩ ∧
      (translate 1 ⟨2⟩ .read (pair.after neighbours).closed).result = .ok ⟨6⟩ ∧
      (∃ e, (pair.after neighbours).closed.Locates 1 ⟨6⟩ ⟨2⟩ e) ∧
      (PhysAddr.mk 2 = ⟨6⟩ ↔ (1 : Pid) = 1 ∧ VirtAddr.mk 6 = ⟨2⟩) := by
  have hreached : Reached pairConfig (pair.after neighbours).closed :=
    .closed ((Reached.created created_pair).after neighbours)
  have hdata : (translate 1 ⟨6⟩ .write (pair.after neighbours).closed).result = .ok ⟨2⟩ := by
    decide +kernel
  have htext : (translate 1 ⟨2⟩ .read (pair.after neighbours).closed).result = .ok ⟨6⟩ := by
    decide +kernel
  obtain ⟨hlocates, hinjective⟩ := translate_faithful hreached hdata
  exact ⟨hdata, htext, hlocates, hinjective 1 ⟨2⟩ .read ⟨6⟩ htext⟩

end VirtualMemory.Pager
