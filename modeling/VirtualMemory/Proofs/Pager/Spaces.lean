import VirtualMemory.Proofs.Pager.Eviction

/-!
# Spaces come and go

A new pager is well formed and knows no space. Registering a space makes the pages of its image
pending, and taking a space down leaves nothing of its pages, neither frame nor cache slot nor swap
slot. To the pages of other processes nothing happens.
-/

namespace VirtualMemory.Pager

variable {p p' p₁ p₂ p₃ : Pager} {key k : PageKey} {ppn : Ppn} {pid : Pid}

/-! ## A new pager -/

/-- `p` was made for configuration `c`, over a processor that caches nothing. -/
def Created (c : Config) (p : Pager) : Prop :=
  ∃ (host : String → HostPath) (entropy : UInt64) (tlbSize : Nat) (memory : PhysicalMemory),
    memory.Whole ∧
      ((create host c entropy (.new tlbSize c.pageSize) memory : Op Unit MemoryError Pager)
        ()).result = .ok p

theorem openBacking_ends {σ : Type} (host : String → HostPath) (backing : SwapBacking)
    (pageSize : Nat) (s : σ) :
    (Swapper.openBacking host backing pageSize : Op σ MemoryError Swapper).Ends s fun r _ =>
      ∀ swap, r = .ok swap → ∃ file, swap = Swapper.ofFile file pageSize := by
  cases backing with
  | memory =>
    rintro swap ⟨⟩
    exact ⟨_, rfl⟩
  | file path =>
    simp only [Swapper.openBacking, Op.ends_bind, Op.ends_notify]
    split
    next file _ =>
      rintro swap ⟨⟩
      exact ⟨_, rfl⟩
    next => rintro swap ⟨⟩

theorem checkParts_ends {σ : Type} (c : Config) (processor : Processor) (memory : PhysicalMemory)
    (s : σ) :
    (checkParts c processor memory : Op σ MemoryError Unit).Ends s fun r s' =>
      s' = s ∧ (r = .ok () → Geometry c.physPages c.pageSize ∧ 0 < processor.tlbSize ∧
        processor.pageSize = c.pageSize ∧ memory.pages = c.physPages ∧
        memory.pageSize = c.pageSize) := by
  simp only [checkParts, Op.ends_bind]
  refine (validate_ends c s).imp ?_
  rintro (cause | done) s' ⟨rfl, hg⟩
  · exact ⟨rfl, fun h => nomatch h⟩
  simp only [Op.ends_ite, Op.ends_bind, Op.ends_notify, Op.ends_throw, Op.ends_pure]
  split
  · exact ⟨trivial, fun h => nomatch h⟩
  next hprocessor =>
    split
    · exact ⟨trivial, fun h => nomatch h⟩
    next hmemory =>
      simp only [not_or, ne_eq, not_not] at hprocessor hmemory
      exact ⟨trivial, fun _ => ⟨(hg rfl).1, Nat.pos_of_ne_zero hprocessor.1, hprocessor.2,
        hmemory.1, hmemory.2⟩⟩

def initial (c : Config) (draws : Draws) (tlbSize : Nat) (memory : PhysicalMemory)
    (swap : Swapper) : Pager :=
  { pageSize := c.pageSize
    table := .empty c.physPages
    frames := .ofTotal c.physPages
    swap := swap
    draws := draws
    processor := .new tlbSize c.pageSize
    memory := memory }

theorem ofSwap_ends {σ : Type} (c : Config) (entropy : UInt64) (tlbSize : Nat)
    (memory : PhysicalMemory) (swap : Swapper) (s : σ) :
    (ofSwap c entropy (.new tlbSize c.pageSize) memory swap : Op σ MemoryError Pager).Ends s
      fun r _ => ∀ p, r = .ok p →
        p = initial c (.seeded (c.seed.getD entropy)) tlbSize memory swap ∧
          Geometry c.physPages c.pageSize ∧ 0 < tlbSize ∧ memory.pages = c.physPages ∧
          memory.pageSize = c.pageSize := by
  simp only [ofSwap, Op.ends_bind, Op.ends_attempt]
  refine (checkParts_ends c _ memory s).imp ?_
  rintro (cause | done) s' ⟨rfl, hparts⟩
  · simp only [Op.Ends, Op.bind_apply]
    split
    · rintro p ⟨⟩
    · rintro p ⟨⟩
  · obtain ⟨hg, htlb, -, hpages, hpage⟩ := hparts rfl
    simp only [Op.ends_bind, Op.ends_notify, Op.ends_pure]
    rintro p ⟨⟩
    have htlb : 0 < (List.replicate tlbSize TlbSlot.vacant).length := htlb
    rw [List.length_replicate] at htlb
    exact ⟨rfl, hg, htlb, hpages, hpage⟩

theorem wellFormed_initial {c : Config} (hg : Geometry c.physPages c.pageSize) (draws : Draws)
    {tlbSize : Nat} (htlb : 0 < tlbSize) {memory : PhysicalMemory} (hwhole : memory.Whole)
    (hpages : memory.pages = c.physPages) (hpage : memory.pageSize = c.pageSize)
    (file : BackingFile) :
    (initial c draws tlbSize memory (.ofFile file c.pageSize)).WellFormed none := by
  have htotal : (Frames.ofTotal c.physPages).total = c.physPages := rfl
  have hcached := Tlb.cached_empty tlbSize
  have howner : ∀ ppn, (PageTable.empty c.physPages).owner? ppn = none := fun ppn =>
    ResidentIndex.owner?_eq_none_iff.mpr (ResidentIndex.residence?_empty c.physPages ppn)
  constructor
  · refine ⟨htotal.symm ▸ hg, hpages.trans htotal.symm, hpage, ?_, ?_, rfl, rfl, ?_⟩
    · show memory.store.size = (Frames.ofTotal c.physPages).total * c.pageSize
      rw [hwhole, hpages, hpage, htotal]
    · show (Array.replicate c.physPages none).size = (Frames.ofTotal c.physPages).total
      rw [htotal, Array.size_replicate]
    · show 0 < (List.replicate tlbSize TlbSlot.vacant).length
      rw [List.length_replicate]
      exact htlb
  · exact PageTable.wellFormed_empty c.physPages
  · exact Frames.wellFormed_ofTotal hg.pages_le
  · exact Swapper.wellFormed_ofFile file c.pageSize
  · exact Tlb.distinct_empty tlbSize
  · intro ppn hlt
    show (Frames.ofTotal c.physPages).isFree ppn = true ↔
      (PageTable.empty c.physPages).owner? ppn = none ∧ _
    rw [Frames.isFree_ofTotal, howner]
    have hlt : ppn.toNat < (Frames.ofTotal c.physPages).total := hlt
    rw [htotal] at hlt
    simp [hlt]
  · rintro ppn ⟨⟩
  · intro key e he
    cases he
  · intro key e he
    have he : (Tlb.empty tlbSize).cached key = some e := he
    rw [hcached] at he
    cases he
  · intro key i hi
    cases hi
  · intro key hp
    cases hp
  · intro _ key horigin
    cases horigin

/-- A new pager is the one that `ofSwap` puts together, over the parts that it was given. -/
theorem Created.eq_initial {c : Config} (h : Created c p) :
    ∃ (draws : Draws) (tlbSize : Nat) (memory : PhysicalMemory) (file : BackingFile),
      p = initial c draws tlbSize memory (.ofFile file c.pageSize) ∧
        Geometry c.physPages c.pageSize ∧ 0 < tlbSize ∧ memory.Whole ∧
        memory.pages = c.physPages ∧ memory.pageSize = c.pageSize := by
  obtain ⟨host, entropy, tlbSize, memory, hwhole, hp⟩ := h
  have hends : (create host c entropy (.new tlbSize c.pageSize) memory :
      Op Unit MemoryError Pager).Ends () fun r _ => ∀ p, r = .ok p →
        ∃ (draws : Draws) (file : BackingFile),
          p = initial c draws tlbSize memory (.ofFile file c.pageSize) ∧
            Geometry c.physPages c.pageSize ∧ 0 < tlbSize ∧
            memory.pages = c.physPages ∧ memory.pageSize = c.pageSize := by
    simp only [create, Op.ends_bind]
    refine (validate_ends c ()).imp ?_
    rintro (cause | done) s ⟨rfl, -⟩
    · rintro p ⟨⟩
    refine (openBacking_ends host c.swap c.pageSize _).imp ?_
    rintro (cause | swap) s hswap
    · rintro p ⟨⟩
    obtain ⟨file, rfl⟩ := hswap swap rfl
    refine (ofSwap_ends c entropy tlbSize memory _ s).imp ?_
    intro r _ hr p hp
    obtain ⟨rfl, hg, htlb, hpages, hpage⟩ := hr p hp
    exact ⟨_, file, rfl, hg, htlb, hpages, hpage⟩
  obtain ⟨draws, file, rfl, hg, htlb, hpages, hpage⟩ := hends p hp
  exact ⟨draws, tlbSize, memory, file, rfl, hg, htlb, hwhole, hpages, hpage⟩

/-- A new pager is in order, and empty. -/
theorem Created.wellFormed {c : Config} (h : Created c p) :
    p.WellFormed none ∧ (∀ pid, p.extent pid = none) ∧ (∀ key, p.frame? key = none) ∧
      p.pageSize = c.pageSize ∧ p.swap.isOpen = true := by
  obtain ⟨draws, tlbSize, memory, file, rfl, hg, htlb, hwhole, hpages, hpage⟩ := h.eq_initial
  exact ⟨wellFormed_initial hg draws htlb hwhole hpages hpage file, fun _ => rfl, fun _ => rfl, rfl,
    rfl⟩

theorem Created.total {c : Config} (h : Created c p) : p.frames.total = c.physPages := by
  obtain ⟨draws, tlbSize, memory, file, rfl, -⟩ := h.eq_initial
  rfl

theorem Created.inWord {c : Config} (h : Created c p) (hcount : c.physPages < 0x100000000) :
    p.frames.InWord := by
  rw [Frames.InWord, h.total]
  exact hcount

/-! ## What happens to other processes -/

structure Elsewhere (p p' : Pager) (pid : Pid) : Prop where
  pageSize : p'.pageSize = p.pageSize
  total : p'.frames.total = p.frames.total
  swapSize : p'.swap.pageSize = p.swap.pageSize
  isOpen : p'.swap.isOpen = p.swap.isOpen
  pagesOut : p'.swap.counters.pagesOut = p.swap.counters.pagesOut
  reliable : p'.swap.Reliable → p.swap.Reliable
  extent : ∀ q, q ≠ pid → p'.extent q = p.extent q
  kept : ∀ k, k.pid ≠ pid → Kept p p' k

theorem Elsewhere.refl (p : Pager) (pid : Pid) : Elsewhere p p pid :=
  ⟨rfl, rfl, rfl, rfl, rfl, id, fun _ _ => rfl, fun k _ => Kept.refl p k⟩

theorem Elsewhere.byte (h : Elsewhere p p' pid) (hsize : p.swap.pageSize = p.pageSize)
    (hk : key.pid ≠ pid) {o : Nat} (ho : o < p.pageSize) : p'.byte key o = p.byte key o :=
  (h.kept key hk).byte (imageByte_congr (h.extent _ hk) h.pageSize o) hsize ho

/-! ## Registering -/

theorem extent_eq_none_iff : p.extent pid = none ↔ p.spaces.contains pid = false := by
  simp [extent, OrderedMap.contains]

/-- A process without a space has no page. -/
theorem WellFormed.lookup_none {held : Option Ppn} (h : p.WellFormed held)
    (hext : p.extent key.pid = none) : p.table.lookup key = none := by
  cases he : p.table.lookup key with
  | none => rfl
  | some e =>
    have hin := (h.entries key e he).bounds
    rw [inBounds_eq, hext] at hin
    cases hin

theorem WellFormed.slot?_none {held : Option Ppn} (h : p.WellFormed held)
    (hext : p.extent key.pid = none) : p.swap.slot? key = none := by
  cases hi : p.swap.slot? key with
  | none => rfl
  | some i =>
    have hin := (h.slotted key i hi).1
    rw [inBounds_eq, hext] at hin
    cases hin

theorem WellFormed.not_pending {held : Option Ppn} (h : p.WellFormed held)
    (hext : p.extent key.pid = none) : p.swap.isPending key = false := by
  rw [Bool.eq_false_iff]
  intro hp
  have horigin := h.pending key hp
  rw [origin?_eq, hext] at horigin
  cases horigin

theorem WellFormed.frame?_none {held : Option Ppn} (h : p.WellFormed held)
    (hext : p.extent key.pid = none) : p.frame? key = none := by
  rw [h.frame?_eq, h.lookup_none hext]
  rfl

theorem WellFormed.space_of_frame? {held : Option Ppn} (h : p.WellFormed held)
    (hf : p.frame? key = some ppn) : (p.extent key.pid).isSome = true := by
  cases hext : p.extent key.pid with
  | none =>
    rw [h.frame?_none hext] at hf
    cases hf
  | some _ => rfl

/-- The pages that a new space has from its image. -/
def covered (pid : Pid) (image : Option ImageIndex) : List PageKey :=
  ((image.map ImageIndex.vpns).getD []).map fun vpn => ⟨pid, vpn⟩

theorem mem_covered (pid : Pid) (image : Option ImageIndex) (key : PageKey) :
    key ∈ covered pid image ↔
      key.pid = pid ∧ (image.bind (·.locate key.vpn)).isSome = true := by
  obtain ⟨q, vpn⟩ := key
  simp only [covered, List.mem_map, PageKey.mk.injEq]
  cases image with
  | none => simp
  | some index =>
    simp only [Option.map_some, Option.getD_some, Option.bind_some]
    constructor
    · rintro ⟨v, hv, rfl, rfl⟩
      exact ⟨rfl, (index.mem_vpns v).mp hv⟩
    · rintro ⟨rfl, hsome⟩
      exact ⟨vpn, (index.mem_vpns vpn).mpr hsome, rfl, rfl⟩

def registered (p : Pager) (pid : Pid) (numPages : Nat) (image : Option ImageIndex) : Pager :=
  { p with
    swap := (covered pid image).foldr (fun key s => s.markPending key) p.swap
    spaces := p.spaces.insert pid { numPages := numPages, image := image } }

theorem registerSpace_ends (p : Pager) (pid : Pid) (numPages : Nat) (image : Option ImageIndex) :
    (registerSpace pid numPages image).Ends p fun r p' =>
      match r with
      | .ok _ => p.extent pid = none ∧ p' = p.registered pid numPages image
      | .error _ => p.extent pid ≠ none ∧ p' = p := by
  simp only [registerSpace, Op.ends_bind, Op.ends_get, Op.ends_ite]
  split
  next hknown =>
    refine ⟨?_, rfl⟩
    rw [ne_eq, extent_eq_none_iff, hknown]
    decide
  next hnew =>
    rw [Bool.not_eq_true] at hnew
    refine ⟨extent_eq_none_iff.mpr hnew, ?_⟩
    rw [registered, covered, List.foldr_map]
    rfl

theorem extent_registered (p : Pager) (pid : Pid) (numPages : Nat) (image : Option ImageIndex)
    (q : Pid) :
    (p.registered pid numPages image).extent q =
      if q = pid then some (numPages, image) else p.extent q := by
  simp only [extent, registered, OrderedMap.get?_insert]
  split <;> rfl

theorem elsewhere_registered (p : Pager) (pid : Pid) (numPages : Nat)
    (image : Option ImageIndex) : Elsewhere p (p.registered pid numPages image) pid := by
  have hsame := Swapper.sameSlots_markAll p.swap (covered pid image)
  refine ⟨rfl, rfl, hsame.pageSize, hsame.isOpen, congrArg _ hsame.counters, ?_, ?_, ?_⟩
  · rintro ⟨file, hfile, hrel⟩
    refine ⟨file, hsame.file.symm.trans hfile, ?_⟩
    rw [← hsame.capacity, ← hsame.pageSize]
    exact hrel
  · intro q hq
    rw [extent_registered, if_neg hq]
  · intro k hk
    refine ⟨rfl, rfl, fun _ _ _ _ => rfl, fun _ => ⟨hsame.slot? k, ?_, ?_⟩⟩
    · rw [Bool.eq_iff_iff]
      refine (Swapper.isPending_markAll p.swap _ k).trans ?_
      rw [mem_covered]
      exact or_iff_left fun hcase => hk hcase.1.1
    · intro i _ o _
      exact hsame.byte i o

theorem WellFormed.registered (h : p.WellFormed none) (hext : p.extent pid = none)
    (numPages : Nat) (image : Option ImageIndex) :
    (p.registered pid numPages image).WellFormed none := by
  have hsame := Swapper.sameSlots_markAll p.swap (covered pid image)
  have hextent := extent_registered p pid numPages image
  have hother : ∀ k e, p.table.lookup k = some e → k.pid ≠ pid := by
    rintro k e he rfl
    rw [h.lookup_none hext] at he
    cases he
  have hopen : (p.registered pid numPages image).swap.isOpen = true → p.swap.isOpen = true :=
    fun ho => hsame.isOpen.symm.trans ho
  constructor
  · have hz := h.sized
    exact ⟨hz.geometry, hz.pages, hz.memory, hz.store, hz.residences, hz.processor,
      hsame.pageSize.trans hz.swap, hz.slots⟩
  · exact h.table
  · exact h.frames
  · exact h.swap.markAll _
  · exact h.distinct
  · exact h.free_iff
  · exact h.held_apart
  · intro k e he
    exact (h.entries k e he).congr ((hextent k.pid).trans (if_neg (hother k e he))) hopen
  · intro k e he
    obtain ⟨hfits, known, hknown, hle⟩ := h.cached k e he
    exact ⟨hfits.congr ((hextent k.pid).trans (if_neg (hother k known hknown))) hopen, known,
      hknown, hle⟩
  · intro k i hi
    have hslot : p.swap.slot? k = some i := (hsame.slot? k).symm.trans hi
    have hk : (p.registered pid numPages image).extent k.pid = p.extent k.pid := by
      rw [hextent, if_neg]
      rintro rfl
      rw [h.slot?_none hext] at hslot
      cases hslot
    rw [inBounds_congr hk, isReadOnly_congr hk]
    exact ⟨(h.slotted k i hslot).1, fun ho => (h.slotted k i hslot).2 (hopen ho)⟩
  · intro k hp
    rcases (Swapper.isPending_markAll p.swap _ k).mp hp with hold | ⟨hmem, -⟩
    · have hk : k.pid ≠ pid := by
        rintro rfl
        rw [h.not_pending hext] at hold
        cases hold
      rw [origin?_congr ((hextent k.pid).trans (if_neg hk))]
      exact h.pending k hold
    · obtain ⟨rfl, horigin⟩ := (mem_covered pid image k).mp hmem
      rw [origin?_eq, hextent, if_pos rfl]
      exact horigin
  · intro ho k horigin hnone
    have hnone : p.swap.slot? k = none := (hsame.slot? k).symm.trans hnone
    refine (Swapper.isPending_markAll p.swap _ k).mpr ?_
    by_cases hk : k.pid = pid
    · rw [origin?_eq, hextent, if_pos hk] at horigin
      exact Or.inr ⟨(mem_covered pid image k).mpr ⟨hk, horigin⟩, hnone⟩
    · rw [origin?_congr ((hextent k.pid).trans (if_neg hk))] at horigin
      exact Or.inl (h.unpended (hopen ho) k horigin hnone)

/-! ## Taking down -/

theorem Elsewhere.trans (h : Elsewhere p₁ p₂ pid) (h' : Elsewhere p₂ p₃ pid) :
    Elsewhere p₁ p₃ pid where
  pageSize := h'.pageSize.trans h.pageSize
  total := h'.total.trans h.total
  swapSize := h'.swapSize.trans h.swapSize
  isOpen := h'.isOpen.trans h.isOpen
  pagesOut := h'.pagesOut.trans h.pagesOut
  reliable := fun hr => h.reliable (h'.reliable hr)
  extent := fun q hq => (h'.extent q hq).trans (h.extent q hq)
  kept := fun k hk => (h.kept k hk).trans (h'.kept k hk) h.pageSize h.swapSize

/-- What is cached of a process is dropped, with what it saw. -/
theorem drop_wellFormed (h : p.WellFormed none) (pid : Pid) :
    (p.setTlb (p.tlb.invalidateAsid pid).2).WellFormed none where
  sized := by
    have hz := h.sized
    refine ⟨hz.geometry, hz.pages, hz.memory, hz.store, hz.residences, hz.processor, hz.swap, ?_⟩
    exact (Tlb.size_invalidateWhere _ _).symm ▸ hz.slots
  table := h.table
  frames := h.frames
  swap := h.swap
  distinct := h.distinct.invalidateWhere _
  free_iff := h.free_iff
  held_apart := h.held_apart
  entries := fun k e he => (h.entries k e he).congr rfl id
  cached := by
    intro k e he
    have he : (p.tlb.invalidateAsid pid).2.cached k = some e := he
    rw [Tlb.cached_invalidateAsid] at he
    split at he
    · cases he
    · exact ⟨(h.cached k e he).1.congr rfl id, (h.cached k e he).2⟩
  slotted := h.slotted
  pending := h.pending
  unpended := h.unpended

theorem elsewhere_drop (p : Pager) (pid : Pid) :
    Elsewhere p (p.setTlb (p.tlb.invalidateAsid pid).2) pid := by
  refine ⟨rfl, rfl, rfl, rfl, rfl, id, fun _ _ => rfl, ?_⟩
  intro k hk
  refine ⟨rfl, ?_, fun _ _ _ _ => rfl, fun _ => Swapper.Keeps.refl _ _⟩
  have hc : (p.setTlb (p.tlb.invalidateAsid pid).2).tlb.cached k = p.tlb.cached k :=
    (Tlb.cached_invalidateAsid pid k).trans (if_neg hk)
  rw [isDirty, isDirty, hc]
  rfl

/-- Pages of process `pid` were given up, and nothing else was done. -/
structure Emptied (p p' : Pager) (pid : Pid) : Prop where
  elsewhere : Elsewhere p p' pid
  wellFormed : p'.WellFormed none
  tlb : p'.tlb = p.tlb
  swap : p'.swap = p.swap
  memory : p'.memory = p.memory
  spaces : p'.spaces = p.spaces
  lookup : ∀ k e, p'.table.lookup k = some e → p.table.lookup k = some e
  others : ∀ k, k.pid ≠ pid → p'.table.lookup k = p.table.lookup k

theorem Emptied.refl (h : p.WellFormed none) (pid : Pid) : Emptied p p pid :=
  ⟨Elsewhere.refl p pid, h, rfl, rfl, rfl, rfl, fun _ _ => id, fun _ _ => rfl⟩

theorem Emptied.trans (h : Emptied p₁ p₂ pid) (h' : Emptied p₂ p₃ pid) : Emptied p₁ p₃ pid where
  elsewhere := h.elsewhere.trans h'.elsewhere
  wellFormed := h'.wellFormed
  tlb := h'.tlb.trans h.tlb
  swap := h'.swap.trans h.swap
  memory := h'.memory.trans h.memory
  spaces := h'.spaces.trans h.spaces
  lookup := fun k e he => h.lookup k e (h'.lookup k e he)
  others := fun k hk => (h'.others k hk).trans (h.others k hk)

theorem releasePage_ends (h : p.WellFormed none) (hc : p.tlb.cached key = none) :
    (releasePage key).Ends p fun r p' =>
      r = .ok () ∧ Emptied p p' key.pid ∧ p'.table.lookup key = none := by
  simp only [releasePage, Op.ends_bind, Op.ends_attempt, Op.ends_on tablePart]
  cases he : p.table.lookup key with
  | none =>
    refine (PageTable.remove_of_absent he).imp ?_
    rintro r t ⟨rfl, rfl⟩
    exact ⟨rfl, Emptied.refl h _, he⟩
  | some e =>
    have hv := (h.entries key e he).valid
    refine (PageTable.remove_of_valid he hv).imp ?_
    rintro r t ⟨rfl, rfl⟩
    have hlookup := PageTable.lookup_without p.table key e.ppn
    simp only [hv, if_true, Op.ends_bind, Op.ends_attempt]
    refine (release_held (h.detach he hc)).imp ?_
    rintro r p' ⟨rfl, h', rfl, -⟩
    have htotal := Frames.total_withFree (p.detach key e.ppn).frames e.ppn
    have hne : ∀ k : PageKey, k.pid ≠ key.pid → k ≠ key :=
      fun k hk heq => hk (congrArg PageKey.pid heq)
    refine ⟨rfl, ⟨⟨rfl, htotal, rfl, rfl, rfl, id, fun _ _ => rfl, ?_⟩, h', rfl, rfl, rfl, rfl, ?_,
      ?_⟩, (hlookup key).trans (if_pos rfl)⟩
    · intro k hk
      exact (kept_detach p key e.ppn (hne k hk)).trans ((still_reframe htotal).kept k) rfl rfl
    · intro k e' he'
      have he' : (p.table.without key e.ppn).lookup k = some e' := he'
      rw [hlookup] at he'
      split at he'
      · cases he'
      · exact he'
    · intro k hk
      exact (hlookup k).trans (if_neg (hne k hk))

theorem releaseAll_ends (h : p.WellFormed none) (hc : ∀ vpn, p.tlb.cached ⟨pid, vpn⟩ = none)
    (vpns : List Vpn) :
    (vpns.forM fun vpn => releasePage ⟨pid, vpn⟩ : Op Pager Empty PUnit).Ends p fun r p' =>
      r = .ok ⟨⟩ ∧ Emptied p p' pid ∧ ∀ vpn ∈ vpns, p'.table.lookup ⟨pid, vpn⟩ = none := by
  induction vpns generalizing p with
  | nil =>
    refine ⟨rfl, Emptied.refl h pid, ?_⟩
    intro vpn hvpn
    cases hvpn
  | cons vpn rest ih =>
    simp only [List.forM, Op.ends_bind]
    refine (releasePage_ends h (hc vpn)).imp ?_
    rintro r p₁ ⟨rfl, h₁, hnone⟩
    refine (ih h₁.wellFormed (fun v => h₁.tlb.symm ▸ hc v)).imp ?_
    rintro r p₂ ⟨rfl, h₂, hrest⟩
    refine ⟨rfl, h₁.trans h₂, ?_⟩
    intro v hv
    rcases List.mem_cons.mp hv with rfl | hv
    · cases he : p₂.table.lookup ⟨pid, v⟩ with
      | none => rfl
      | some e =>
        rw [h₂.lookup _ e he] at hnone
        cases hnone
    · exact hrest v hv

def forgotten (p : Pager) (pid : Pid) : Pager :=
  { p with swap := p.swap.releaseProcess pid, spaces := p.spaces.erase pid }

theorem extent_forgotten (p : Pager) (pid q : Pid) :
    (p.forgotten pid).extent q = if q = pid then none else p.extent q := by
  simp only [extent, forgotten, OrderedMap.get?_erase]
  split <;> rfl

theorem WellFormed.forgotten (h : p.WellFormed none)
    (hnone : ∀ vpn, p.table.lookup ⟨pid, vpn⟩ = none) : (p.forgotten pid).WellFormed none := by
  have hother : ∀ k e, p.table.lookup k = some e →
      (p.forgotten pid).extent k.pid = p.extent k.pid := by
    intro k e he
    rw [extent_forgotten, if_neg]
    rintro rfl
    rw [hnone k.vpn] at he
    cases he
  have hslot := Swapper.slot?_releaseProcess p.swap pid
  have hopen : (p.forgotten pid).swap.isOpen = true → p.swap.isOpen = true :=
    fun ho => (Swapper.isOpen_releaseProcess p.swap pid).symm.trans ho
  constructor
  · have hz := h.sized
    exact ⟨hz.geometry, hz.pages, hz.memory, hz.store, hz.residences, hz.processor,
      (Swapper.pageSize_releaseProcess p.swap pid).trans hz.swap, hz.slots⟩
  · exact h.table
  · exact h.frames
  · exact h.swap.releaseProcess pid
  · exact h.distinct
  · exact h.free_iff
  · exact h.held_apart
  · intro k e he
    exact (h.entries k e he).congr (hother k e he) hopen
  · intro k e he
    obtain ⟨hfits, known, hknown, hext⟩ := h.cached k e he
    exact ⟨hfits.congr (hother k known hknown) hopen, known, hknown, hext⟩
  · intro k i hi
    rw [show (p.forgotten pid).swap.slot? k = _ from hslot k] at hi
    split at hi
    · cases hi
    next hk =>
      have hext := (extent_forgotten p pid k.pid).trans (if_neg hk)
      rw [inBounds_congr hext, isReadOnly_congr hext]
      exact ⟨(h.slotted k i hi).1, fun ho => (h.slotted k i hi).2 (hopen ho)⟩
  · intro k hp
    obtain ⟨hk, hp⟩ := (Swapper.isPending_releaseProcess p.swap pid k).mp hp
    rw [origin?_congr ((extent_forgotten p pid k.pid).trans (if_neg hk))]
    exact h.pending k hp
  · intro ho k horigin hnone
    have hk : k.pid ≠ pid := by
      intro hk
      rw [origin?_eq, extent_forgotten, if_pos hk] at horigin
      cases horigin
    rw [origin?_congr ((extent_forgotten p pid k.pid).trans (if_neg hk))] at horigin
    rw [show (p.forgotten pid).swap.slot? k = _ from hslot k, if_neg hk] at hnone
    exact (Swapper.isPending_releaseProcess p.swap pid k).mpr
      ⟨hk, h.unpended (hopen ho) k horigin hnone⟩

theorem elsewhere_forgotten (p : Pager) (pid : Pid) : Elsewhere p (p.forgotten pid) pid := by
  have hfile := Swapper.file_releaseProcess p.swap pid
  have hsize := Swapper.pageSize_releaseProcess p.swap pid
  have hkeep := Swapper.sameFile_freeAll (p.swap.unpending pid)
    ((p.swap.unpending pid).slots.keys.filter (·.pid == pid))
  refine ⟨rfl, rfl, hsize, hkeep.isOpen, congrArg SwapCounters.pagesOut hkeep.counters, ?_, ?_,
    ?_⟩
  · rintro ⟨file, hf, hrel⟩
    refine ⟨file, hfile.symm.trans hf, ?_⟩
    rw [show p.swap.capacity = _ from hkeep.capacity.symm, ← hsize]
    exact hrel
  · intro q hq
    rw [extent_forgotten, if_neg hq]
  · intro k hk
    refine ⟨rfl, rfl, fun _ _ _ _ => rfl, fun _ => ⟨?_, ?_, ?_⟩⟩
    · exact (Swapper.slot?_releaseProcess p.swap pid k).trans (if_neg hk)
    · rw [Bool.eq_iff_iff]
      exact (Swapper.isPending_releaseProcess p.swap pid k).trans (and_iff_right hk)
    · intro i _ o _
      show (p.swap.releaseProcess pid).byte i o = _
      rw [Swapper.byte, Swapper.byte, hfile, hsize]

/-- The three stages of taking down: the cache drops what it has of the process, the pages are given
up one after the other, and swap and spaces forget the process. -/
theorem teardown_stages (h : p.WellFormed none) (pid : Pid) :
    (teardown pid).Ends p fun r p' => r = .ok () ∧
      ∃ p₁, Emptied (p.setTlb (p.tlb.invalidateAsid pid).2) p₁ pid ∧
        (∀ vpn, p₁.table.lookup ⟨pid, vpn⟩ = none) ∧ p' = p₁.forgotten pid := by
  have hdrop := drop_wellFormed h pid
  have hc : ∀ vpn, (p.setTlb (p.tlb.invalidateAsid pid).2).tlb.cached ⟨pid, vpn⟩ = none :=
    fun vpn => (Tlb.cached_invalidateAsid pid ⟨pid, vpn⟩).trans (if_pos rfl)
  simp only [teardown, Op.ends_bind, Op.ends_modify, Op.ends_get]
  refine (releaseAll_ends hdrop hc _).imp ?_
  rintro r p₁ ⟨rfl, hempty, hnone⟩
  refine ⟨trivial, p₁, hempty, ?_, rfl⟩
  intro vpn
  cases he : p₁.table.lookup ⟨pid, vpn⟩ with
  | none => rfl
  | some e =>
    have hmem := PageTable.mem_vpnsOf.mpr (Option.isSome_of_eq_some (hempty.lookup _ e he))
    rw [hnone vpn hmem] at he
    cases he

/-- Nothing of the process is left, and no other process notices. -/
theorem teardown_ends (h : p.WellFormed none) (pid : Pid) :
    (teardown pid).Ends p fun r p' =>
      r = .ok () ∧ p'.WellFormed none ∧ Elsewhere p p' pid ∧ p'.extent pid = none := by
  refine (teardown_stages h pid).imp ?_
  rintro r p' ⟨rfl, p₁, hempty, hnone, rfl⟩
  refine ⟨rfl, hempty.wellFormed.forgotten hnone, ?_, ?_⟩
  · exact (elsewhere_drop p pid).trans (hempty.elsewhere.trans (elsewhere_forgotten p₁ pid))
  · exact (extent_forgotten p₁ pid pid).trans (if_pos rfl)

end VirtualMemory.Pager
