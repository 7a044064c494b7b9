import VirtualMemory.Proofs.FrameContents
import VirtualMemory.Proofs.Pager.Caching

/-!
# Eviction takes out one page

An eviction that succeeds takes its page out and writes it to swap exactly if it is dirty. One that
fails moves no page, and fails for a page that is not resident or a write to swap that fails, for
nothing else. So a frame for a page to come in is found whenever the swap is reliable.
-/

namespace VirtualMemory.Pager

variable {p p' : Pager} {key : PageKey} {ppn : Ppn} {held : Option Ppn}

theorem Sized.whole (h : p.Sized) : p.memory.Whole := by
  rw [PhysicalMemory.Whole, h.store, h.pages, h.memory]

theorem Sized.readPage (h : p.Sized) (hlt : ppn.toNat < p.frames.total) :
    ∃ page, p.memory.readPage ppn p.pageSize = .ok page ∧ page.length = p.swap.pageSize ∧
      ∀ o < p.pageSize, page.getD o 0 = p.frameByte ppn o := by
  have hlt' : ppn.toNat < p.memory.pages := h.pages ▸ hlt
  have hpage := PhysicalMemory.readPage_of_lt hlt'
  have hlength := PhysicalMemory.length_page h.whole hlt'
  have hbytes := fun o => PhysicalMemory.getD_page p.memory ppn (o := o)
  rw [h.memory] at hpage hlength hbytes
  exact ⟨_, hpage, hlength.trans h.swap.symm, hbytes⟩

/-! ## Other frames, another memory, another swap -/

theorem WellFormed.reframe (h : p.WellFormed held) {f : Frames} {held' : Option Ppn}
    (hf : f.WellFormed) (htotal : f.total = p.frames.total)
    (hfree : ∀ ppn, ppn.toNat < p.frames.total →
      (f.isFree ppn = true ↔ p.table.owner? ppn = none ∧ held' ≠ some ppn))
    (hheld : ∀ ppn, held' = some ppn →
      ppn.toNat < p.frames.total ∧ p.table.owner? ppn = none) :
    ({ p with frames := f } : Pager).WellFormed held' where
  sized := by
    have hz := h.sized
    constructor
    · exact htotal ▸ hz.geometry
    · exact hz.pages.trans htotal.symm
    · exact hz.memory
    · exact hz.store.trans (congrArg (· * p.pageSize) htotal.symm)
    · exact hz.residences.trans htotal.symm
    · exact hz.processor
    · exact hz.swap
    · exact hz.slots
  table := h.table
  frames := hf
  swap := h.swap
  distinct := h.distinct
  free_iff := fun ppn hlt => hfree ppn (htotal ▸ hlt)
  held_apart := fun ppn hppn => ⟨htotal.symm ▸ (hheld ppn hppn).1, (hheld ppn hppn).2⟩
  entries := fun key e he => (h.entries key e he).congr rfl id
  cached := fun key e he => ⟨(h.cached key e he).1.congr rfl id, (h.cached key e he).2⟩
  slotted := h.slotted
  pending := h.pending
  unpended := h.unpended

theorem still_reframe {f : Frames} (htotal : f.total = p.frames.total) :
    Still p { p with frames := f } :=
  ⟨⟨rfl, htotal, rfl, rfl, fun _ => rfl, id⟩, rfl,
    fun _ => ⟨rfl, rfl, fun _ _ _ _ => rfl, fun _ => Swapper.Keeps.refl _ _⟩⟩

theorem retold_reframe {f : Frames} (htotal : f.total = p.frames.total) :
    Retold p { p with frames := f } :=
  ⟨still_reframe htotal, rfl, rfl, fun _ => .of_eq rfl rfl⟩

theorem WellFormed.rememory (h : p.WellFormed held) {m : PhysicalMemory}
    (hpages : m.pages = p.memory.pages) (hpage : m.pageSize = p.memory.pageSize)
    (hstore : m.store.size = p.memory.store.size) :
    ({ p with memory := m } : Pager).WellFormed held where
  sized := by
    have hz := h.sized
    exact ⟨hz.geometry, hpages.trans hz.pages, hpage.trans hz.memory, hstore.trans hz.store,
      hz.residences, hz.processor, hz.swap, hz.slots⟩
  table := h.table
  frames := h.frames
  swap := h.swap
  distinct := h.distinct
  free_iff := h.free_iff
  held_apart := h.held_apart
  entries := fun key e he => (h.entries key e he).congr rfl id
  cached := fun key e he => ⟨(h.cached key e he).1.congr rfl id, (h.cached key e he).2⟩
  slotted := h.slotted
  pending := h.pending
  unpended := h.unpended

theorem WellFormed.reswap (h : p.WellFormed held) {s : Swapper}
    (ht : p.swap.Transferred key s) (hin : p.inBounds key.pid key.vpn = true)
    (hro : p.swap.isOpen = true → p.isReadOnly key = false) :
    ({ p with swap := s } : Pager).WellFormed held where
  sized := by
    have hz := h.sized
    exact ⟨hz.geometry, hz.pages, hz.memory, hz.store, hz.residences, hz.processor,
      ht.pageSize.trans hz.swap, hz.slots⟩
  table := h.table
  frames := h.frames
  swap := ht.wellFormed
  distinct := h.distinct
  free_iff := h.free_iff
  held_apart := h.held_apart
  entries := fun key e he => (h.entries key e he).congr rfl fun ho => ht.isOpen ▸ ho
  cached := fun key e he =>
    ⟨(h.cached key e he).1.congr rfl fun ho => ht.isOpen ▸ ho, (h.cached key e he).2⟩
  slotted := by
    intro k i hi
    show _ ∧ (s.isOpen = true → p.isReadOnly k = false)
    rw [ht.isOpen]
    by_cases hk : k = key
    · rw [hk]
      exact ⟨hin, hro⟩
    · exact h.slotted k i ((ht.others k hk).slot.symm.trans hi)
  pending := by
    intro k hp
    have hp : s.isPending k = true := hp
    by_cases hk : k = key
    · subst hk
      exact h.pending k (ht.pending.mp hp).1
    · rw [(ht.others k hk).pending] at hp
      exact h.pending k hp
  unpended := by
    intro hopen k horigin hnone
    have hopen : p.swap.isOpen = true := ht.isOpen ▸ hopen
    have hnone : s.slot? k = none := hnone
    show s.isPending k = true
    by_cases hk : k = key
    · subst hk
      refine ht.pending.mpr ⟨h.unpended hopen k horigin ?_, hnone⟩
      cases hslot : p.swap.slot? k with
      | none => rfl
      | some i =>
        rw [ht.kept i hslot] at hnone
        cases hnone
    · rw [(ht.others k hk).slot] at hnone
      rw [(ht.others k hk).pending]
      exact h.unpended hopen k horigin hnone

/-- A dirty page is where it was after it was written out, as it is of no read-only section. -/
theorem WellFormed.transferred (h : p.WellFormed held) {e : Entry}
    (he : p.table.lookup key = some e) (hdirty : e.dirty = true) {s : Swapper}
    (ht : p.swap.Transferred key s) (hsame : Same { p with swap := s } p') :
    p'.WellFormed held ∧ p'.table.lookup key = some e := by
  have hfits := h.entries key e he
  have hro : p.swap.isOpen = true → p.isReadOnly key = false := by
    intro hopen
    rw [← hfits.readOnly hopen, Bool.eq_false_iff]
    intro hro
    rw [hfits.clean hro] at hdirty
    cases hdirty
  exact ⟨(h.reswap ht hfits.bounds hro).same hsame, (congrArg (·.lookup key) hsame.table).trans he⟩

theorem steady_reswap {s : Swapper} (ht : p.swap.Transferred key s) :
    Steady p { p with swap := s } :=
  ⟨rfl, rfl, ht.pageSize, ht.isOpen, fun _ => rfl, ht.reliable⟩

/-- A transfer for a dirty page moves no page. -/
theorem still_reswap {s : Swapper} (ht : p.swap.Transferred key s) (hd : p.isDirty key = true)
    (hout : s.counters.pagesOut = p.swap.counters.pagesOut) : Still p { p with swap := s } := by
  refine ⟨steady_reswap ht, hout, ?_⟩
  intro k
  refine ⟨rfl, rfl, fun _ _ _ _ => rfl, ?_⟩
  intro hclean
  refine ht.others k ?_
  rintro rfl
  rw [hd] at hclean
  cases hclean

/-! ## A page gives up its frame -/

/-- The pager without the entry of a page; its frame `ppn` is held now. -/
def detach (p : Pager) (key : PageKey) (ppn : Ppn) : Pager :=
  { p with table := p.table.without key ppn }

theorem WellFormed.detach (h : p.WellFormed none) {e : Entry} (he : p.table.lookup key = some e)
    (hc : p.tlb.cached key = none) : (p.detach key e.ppn).WellFormed (some e.ppn) := by
  have howner := PageTable.owner?_without h.table key e.ppn
  have hlookup := PageTable.lookup_without p.table key e.ppn
  constructor
  · have hz := h.sized
    refine ⟨hz.geometry, hz.pages, hz.memory, hz.store, ?_, hz.processor, hz.swap, hz.slots⟩
    exact (ResidentIndex.residences_size_unregister _ _).trans hz.residences
  · exact h.table.without he (h.entries key e he).valid
  · exact h.frames
  · exact h.swap
  · exact h.distinct
  · intro q hlt
    show p.frames.isFree q = true ↔ _
    rw [h.free_iff q hlt, show (p.detach key e.ppn).table.owner? q = _ from howner q]
    by_cases hq : q = e.ppn
    · subst hq
      simp [h.owner he]
    · simp [hq, Ne.symm hq]
  · rintro q ⟨⟩
    exact ⟨h.ppn_lt he, (howner e.ppn).trans (if_pos rfl)⟩
  · intro k e' he'
    rw [show (p.detach key e.ppn).table.lookup k = _ from hlookup k] at he'
    split at he'
    · cases he'
    · exact (h.entries k e' he').congr rfl id
  · intro k c hk
    have hcached : p.tlb.cached k = some c := hk
    have hne : k ≠ key := by
      rintro rfl
      rw [hc] at hcached
      cases hcached
    obtain ⟨hfits, known, hknown, hext⟩ := h.cached k c hcached
    exact ⟨hfits.congr rfl id, known, (hlookup k).trans ((if_neg hne).trans hknown), hext⟩
  · exact h.slotted
  · exact h.pending
  · exact h.unpended

theorem lookupValid_detach (p : Pager) (key : PageKey) (ppn : Ppn) (k : PageKey) :
    (p.detach key ppn).table.lookupValid k = if k = key then none else p.table.lookupValid k := by
  show Option.filter _ ((p.table.without key ppn).lookup k) = _
  rw [PageTable.lookup_without]
  split <;> rfl

theorem frame?_detach (p : Pager) (key : PageKey) (ppn : Ppn) (k : PageKey) :
    (p.detach key ppn).frame? k = if k = key then none else p.frame? k := by
  rw [frame?, lookupValid_detach]
  split <;> rfl

theorem kept_detach (p : Pager) (key : PageKey) (ppn : Ppn) {k : PageKey} (hk : k ≠ key) :
    Kept p (p.detach key ppn) k := by
  refine ⟨(frame?_detach p key ppn k).trans (if_neg hk), ?_, fun _ _ _ _ => rfl,
    fun _ => Swapper.Keeps.refl _ _⟩
  rw [isDirty, isDirty, lookupValid_detach, if_neg hk]
  rfl

theorem Same.detach (hs : Same p p') (key : PageKey) (ppn : Ppn) :
    Same (p.detach key ppn) (p'.detach key ppn) := by
  refine ⟨hs.pageSize, ?_, hs.frames, hs.swap, hs.memory, hs.processor, hs.slots, hs.extent⟩
  rw [Pager.detach, Pager.detach, hs.table]

/-- Besides what is known and kept of page `key`, its eviction leaves memory, swap and table
alone. -/
structure Spared (p p' : Pager) (key : PageKey) : Prop where
  memory : p'.memory = p.memory
  swap : p.swap.Transferred key p'.swap
  clean : p.isDirty key = false → p'.swap = p.swap
  learned : ∀ k, k ≠ key → Learned p p' k

theorem Retold.spared {p₁ p₂ p₃ : Pager} (h : Retold p₁ p₂) (h' : Spared p₂ p₃ key) :
    Spared p₁ p₃ key where
  memory := h'.memory.trans h.memory
  swap := h.swap ▸ h'.swap
  clean := fun hd => (h'.clean (((h.still.kept key).dirty).trans hd)).trans h.swap
  learned := fun k hk => (h.learned k).trans (h'.learned k hk)

theorem Spared.retold {p₁ p₂ p₃ : Pager} (h : Spared p₁ p₂ key) (h' : Retold p₂ p₃) :
    Spared p₁ p₃ key where
  memory := h'.memory.trans h.memory
  swap := h'.swap.symm ▸ h.swap
  clean := fun hd => h'.swap.trans (h.clean hd)
  learned := fun k hk => (h.learned k hk).trans (h'.learned k)

theorem spared_detach {s : Swapper} (ppn : Ppn) (ht : p.swap.Transferred key s)
    (hclean : p.isDirty key = false → s = p.swap) :
    Spared p (detach { p with swap := s } key ppn) key := by
  refine ⟨rfl, ht, hclean, ?_⟩
  intro k hk
  exact .of_eq ((PageTable.lookup_without p.table key ppn k).trans (if_neg hk)) rfl

theorem evicted_detach (hf : p.frame? key = some ppn) {s : Swapper}
    (ht : p.swap.Transferred key s)
    (hclean : p.isDirty key = false → s = p.swap)
    (hdirty : p.isDirty key = true → s.isPending key = false ∧
      s.counters.pagesOut = p.swap.counters.pagesOut + 1 ∧
      ∃ slot, s.slot? key = some slot ∧ ∀ o < p.pageSize, s.byte slot o = p.frameByte ppn o) :
    Evicted p (detach { p with swap := s } key ppn) key ppn := by
  refine ⟨⟨rfl, rfl, ht.pageSize, ht.isOpen, fun _ => rfl, ht.reliable⟩, ?_, ⟨hf, ?_, ?_, ?_⟩, ?_⟩
  · cases hd : p.isDirty key with
    | false =>
      rw [hclean hd]
      rfl
    | true => exact (hdirty hd).2.1
  · exact (frame?_detach _ key ppn key).trans (if_pos rfl)
  · intro hd
    rw [hclean hd]
    exact Swapper.Keeps.refl _ _
  · intro hd
    obtain ⟨hp, -, hslot⟩ := hdirty hd
    exact ⟨hp, hslot⟩
  · intro k hk
    have hkept := kept_detach { p with swap := s } key ppn hk
    exact ⟨hkept.frame, hkept.dirty, hkept.bytes, fun _ => ht.others k hk⟩

/-! ## The steps of an eviction -/

/-- Writing the contents of frame `ppn` to the swap slot of a page fails. -/
def WriteFails (p : Pager) (key : PageKey) (ppn : Ppn) (cause : MemoryError) : Prop :=
  ∃ page, p.memory.readPage ppn p.pageSize = .ok page ∧
    (Swapper.write key page p.swap).result = .error cause

/-- The table says that the page is in frame `ppn` and dirty. -/
def MarkedDirty (p : Pager) (key : PageKey) (ppn : Ppn) : Prop :=
  ∃ e, p.table.lookupValid key = some e ∧ e.ppn = ppn ∧ e.dirty = true

theorem writeOut_ends (h : p.WellFormed held) (key : PageKey) (hlt : ppn.toNat < p.frames.total) :
    (writeOut key ppn).Ends p fun r p' =>
      ∃ s, p.swap.Transferred key s ∧ Same { p with swap := s } p' ∧
        (s.Reliable → r = .ok ()) ∧
        match r with
        | .ok _ => s.isPending key = false ∧
            s.counters.pagesOut = p.swap.counters.pagesOut + 1 ∧
            ∃ slot, s.slot? key = some slot ∧
              ∀ o < p.pageSize, s.byte slot o = p.frameByte ppn o
        | .error cause => s.counters.pagesOut = p.swap.counters.pagesOut ∧
            WriteFails p key ppn cause := by
  obtain ⟨page, hpage, hlength, hbytes⟩ := h.sized.readPage hlt
  simp only [writeOut, Op.ends_bind, Op.ends_get, Op.ends_ofExcept, hpage, Op.ends_on]
  refine ((Swapper.write_ends h.swap key hlength).and (Op.ends_self _ _)).imp ?_
  rintro (e | slot) s ⟨⟨ht, hr, hs⟩, hresult, -⟩
  · refine ⟨s, ht, ⟨rfl, rfl, rfl, rfl, rfl, rfl, rfl, fun _ => rfl⟩, ?_, hs, page, hpage,
      hresult.symm⟩
    intro hrel
    obtain ⟨slot, hslot⟩ := hr hrel
    cases hslot
  · obtain ⟨hslot, hpage, hout⟩ := hs
    refine ⟨s, ht, same_count _ 1 .swapOuts, fun _ => rfl, ?_, hout, slot, hslot, ?_⟩
    · rw [Bool.eq_false_iff]
      intro hp
      rw [ht.wellFormed.pending_slotless key hp] at hslot
      cases hslot
    · intro o ho
      rw [hpage o (h.sized.swap.symm ▸ ho), hbytes o ho]

/-- After its page has left, the held frame is given back. -/
theorem release_held (h : p.WellFormed (some ppn)) :
    (Op.on framesPart (Frames.release ppn)).Ends p fun r p' =>
      r = .ok () ∧ p'.WellFormed none ∧ p' = { p with frames := p.frames.withFree ppn } ∧
        ppn ∈ p'.frames.free := by
  obtain ⟨hlt, howner⟩ := h.held_apart ppn rfl
  have hused : p.frames.isFree ppn = false := by
    rw [Bool.eq_false_iff]
    intro hfree
    exact ((h.free_iff ppn hlt).mp hfree).2 rfl
  have hfree := Frames.isFree_withFree hlt
  rw [Op.ends_on]
  refine (Frames.release_of_used hlt hused).imp ?_
  rintro r f ⟨rfl, rfl⟩
  refine ⟨rfl, ?_, rfl, List.mem_concat_self⟩
  refine h.reframe (h.frames.withFree hlt hused) (Frames.total_withFree _ _) ?_ ?_
  · intro q hq
    rw [hfree]
    by_cases hqp : q = ppn
    · simp [hqp, howner]
    · rw [or_iff_right hqp, h.free_iff q hq]
      simp [Ne.symm hqp]
  · rintro q ⟨⟩

/-- The entry goes, and the frame that it held is free. -/
theorem vacate_ends (h : p.WellFormed none) {e : Entry} (he : p.table.lookup key = some e)
    (hc : p.tlb.cached key = none) :
    (vacate key e.ppn).Ends p fun r p' =>
      r = .ok e.ppn ∧ p'.WellFormed none ∧ Retold (p.detach key e.ppn) p' ∧
        e.ppn ∈ p'.frames.free := by
  simp only [vacate, Op.ends_bind, Op.ends_on tablePart]
  refine (PageTable.remove_of_valid he (h.entries key e he).valid).imp ?_
  rintro r t ⟨rfl, rfl⟩
  refine (release_held (h.detach he hc)).imp ?_
  rintro r p₂ ⟨rfl, h₂, rfl, hfree⟩
  simp only [count, Op.ends_modify, Op.ends_pure]
  have hcount := same_count { p.detach key e.ppn with
    frames := (p.detach key e.ppn).frames.withFree e.ppn } 1 .evictions
  have hretold := retold_reframe (Frames.total_withFree (p.detach key e.ppn).frames e.ppn)
  exact ⟨trivial, h₂.same hcount, hretold.trans hcount.retold, hfree⟩

theorem evictPage_ends (h : p.WellFormed none) (key : PageKey) :
    (evictPage key).Ends p fun r p' =>
      p'.WellFormed none ∧
        (p'.swap.Reliable → p.frame? key ≠ none → ∃ ppn, r = .ok ppn) ∧
        match r with
        | .ok ppn => Evicted p p' key ppn ∧ Spared p p' key ∧ ppn ∈ p'.frames.free
        | .error cause => Still p p' ∧ ∀ ppn, p.frame? key = some ppn →
            WriteFails p key ppn cause ∧ MarkedDirty p' key ppn := by
  have hsize := h.sized.swap
  simp only [evictPage, Op.ends_bind]
  refine (flushPage_ends h key).imp ?_
  rintro r p₁ ⟨rfl, t, c, hrec, hnone, rfl⟩
  have h₁ := hrec.wellFormed h
  have hstill := hrec.still h
  simp only [Op.ends_get, h₁.lookupValid]
  cases he : (p.recache t c).table.lookup key with
  | none =>
    have hframe : p.frame? key = none := by
      rw [← (hstill.kept key).frame, h₁.frame?_eq, he]
      rfl
    rw [Op.ends_throw]
    refine ⟨h₁, fun _ hf => absurd hframe hf, hstill, ?_⟩
    intro ppn hf
    rw [hframe] at hf
    cases hf
  | some e =>
    have hf₁ : (p.recache t c).frame? key = some e.ppn := h₁.frame?_of_lookup he
    have hd₁ : (p.recache t c).isDirty key = e.dirty := by
      rw [h₁.isDirty_eq he, show (p.recache t c).tlb.cached key = none from hnone]
      rfl
    have hd : p.isDirty key = e.dirty := (hstill.kept key).dirty.symm.trans hd₁
    simp only [Op.ends_ite]
    split
    next hdirty =>
      rw [Op.ends_bind]
      refine (writeOut_ends h₁ key (h₁.ppn_lt he)).imp ?_
      rintro (cause | done) p₂ ⟨s, ht, hsame, hr, hs⟩
      · obtain ⟨h₂, he₂⟩ := h₁.transferred he hdirty ht hsame
        obtain ⟨hout, hfails⟩ := hs
        have hswap := still_reswap ht (hd₁.trans hdirty) hout
        refine ⟨h₂, ?_, hstill.trans (hswap.trans hsame.still), ?_⟩
        · intro hrel
          rw [hsame.swap] at hrel
          cases hr hrel
        · intro ppn hf
          rw [← (hstill.kept key).frame, hf₁] at hf
          obtain rfl := Option.some.inj hf
          exact ⟨hfails, e, (h₂.lookupValid key).trans he₂, rfl, hdirty⟩
      · obtain ⟨h₂, he₂⟩ := h₁.transferred he hdirty ht hsame
        have hc₂ : p₂.tlb.cached key = none := (hsame.cached key).trans hnone
        refine (vacate_ends h₂ he₂ hc₂).imp ?_
        rintro r p' ⟨rfl, h', hretold, hfree⟩
        have hclean : (p.recache t c).isDirty key = false → s = (p.recache t c).swap :=
          fun hclean => absurd (hd₁.symm.trans hclean) (by simp [hdirty])
        have hout := evicted_detach hf₁ ht hclean (fun _ => hs)
        have hrest := (hsame.detach key e.ppn).retold.trans hretold
        exact ⟨h', fun _ _ => ⟨_, rfl⟩, hstill.evicted (hout.still hrest.still h₁.sized.swap),
          (hrec.retold h).spared ((spared_detach e.ppn ht hclean).retold hrest), hfree⟩
    next hclean =>
      refine (vacate_ends h₁ he hnone).imp ?_
      rintro r p' ⟨rfl, h', hretold, hfree⟩
      have ht : (p.recache t c).swap.Transferred key (p.recache t c).swap := .refl h₁.swap
      have hout := evicted_detach hf₁ ht (fun _ => rfl)
        (fun hdirty => absurd (hd₁.symm.trans hdirty) hclean)
      exact ⟨h', fun _ _ => ⟨_, rfl⟩, hstill.evicted (hout.still hretold.still h₁.sized.swap),
        (hrec.retold h).spared ((spared_detach e.ppn ht fun _ => rfl).retold hretold), hfree⟩

/-! ## A frame for a page to come in -/

/-- The page that is drawn to leave cannot be written to swap; it is where it was, and dirty. -/
def VictimStays (p p' : Pager) (cause : MemoryError) : Prop :=
  ∃ key ppn, (p.table.pickVictim p.draws).1.map (·.1) = some key ∧ p.frame? key = some ppn ∧
    WriteFails p key ppn cause ∧ MarkedDirty p' key ppn

theorem evictOne_ends (h : p.WellFormed none) :
    evictOne.Ends p fun r p' =>
      p'.WellFormed none ∧
        (p'.swap.Reliable → (∃ ppn key, p.table.owner? ppn = some key) → ∃ ppn, r = .ok ppn) ∧
        match r with
        | .ok ppn => (∃ key, Evicted p p' key ppn ∧ Spared p p' key) ∧ ppn ∈ p'.frames.free
        | .error cause => Still p p' ∧ (VictimStays p p' cause ∨
            (∀ ppn, p.table.owner? ppn = none) ∧ cause = .outOfMemory) := by
  have hsame : Same p { p with draws := (p.table.pickVictim p.draws).2 } :=
    ⟨rfl, rfl, rfl, rfl, rfl, rfl, rfl, fun _ => rfl⟩
  have h₁ := h.same hsame
  simp only [evictOne, Op.ends_bind, Op.ends_modifyGet]
  rcases h.table.pickVictim_spec p.draws with ⟨key, e, hpick, he, -⟩ | ⟨hpick, hnone⟩
  · have hf : p.frame? key = some e.ppn := h.frame?_of_lookup he
    simp only [hpick]
    refine (evictPage_ends h₁ key).imp ?_
    rintro (cause | ppn) p' ⟨h', hr, hs⟩
    · obtain ⟨hstill, hstays⟩ := hs
      refine ⟨h', ?_, hsame.still.trans hstill, ?_⟩
      · intro hrel _
        exact hr hrel (hf ▸ Option.some_ne_none _)
      · exact Or.inl ⟨key, e.ppn, by rw [hpick, Option.map_some], hf, hstays e.ppn hf⟩
    · obtain ⟨hout, hspared, hfree⟩ := hs
      exact ⟨h', fun _ _ => ⟨ppn, rfl⟩,
        ⟨key, hsame.still.evicted hout, hsame.retold.spared hspared⟩, hfree⟩
  · simp only [hpick, Op.ends_bind, Op.ends_notify, Op.ends_throw]
    refine ⟨h₁, ?_, hsame.still, Or.inr ⟨hnone, trivial⟩⟩
    rintro - ⟨ppn, key, howner⟩
    rw [hnone] at howner
    cases howner

theorem takeFrame_of_free {ε : Type} (h : p.WellFormed none) (hmem : ppn ∈ p.frames.free) :
    (takeFrame : Op Pager ε (Option Ppn)).Ends p fun r p' =>
      ∃ q, r = .ok (some q) ∧ p'.WellFormed (some q) ∧ Retold p p' := by
  obtain ⟨q, rest, hq⟩ := List.exists_cons_of_ne_nil (List.ne_nil_of_mem hmem)
  have hqfree : p.frames.isFree q = true := h.frames.isFree_of_mem (hq ▸ List.mem_cons_self)
  have hqlt := Frames.lt_total_of_isFree hqfree
  rw [takeFrame, Op.ends_modifyGet, Frames.acquire_cons hq]
  refine ⟨q, rfl, ?_, retold_reframe (Frames.total_without _ _ _)⟩
  refine h.reframe (h.frames.without hq) (Frames.total_without _ _ _) ?_ ?_
  · intro q' hlt
    rw [Frames.isFree_without, h.free_iff q' hlt]
    constructor
    · rintro ⟨hne, howner, -⟩
      exact ⟨howner, fun heq => hne (Option.some.inj heq).symm⟩
    · rintro ⟨howner, hne⟩
      exact ⟨fun heq => hne (congrArg some heq.symm), howner, fun heq => nomatch heq⟩
  · rintro q' ⟨⟩
    exact ⟨hqlt, ((h.free_iff q hqlt).mp hqfree).1⟩

theorem takeFrame_of_nil {ε : Type} (h : p.WellFormed none) (hnil : p.frames.free = []) :
    (takeFrame : Op Pager ε (Option Ppn)).Ends p fun r p' =>
      r = .ok none ∧ p'.WellFormed none ∧
        ∃ f, f.total = p.frames.total ∧ p' = { p with frames := f } := by
  rw [takeFrame, Op.ends_modifyGet, Frames.acquire_nil hnil]
  refine ⟨rfl, ?_, { p.frames with failed := p.frames.failed + 1 }, rfl, rfl⟩
  exact h.reframe ⟨h.frames.nodup, h.frames.mem_free, h.frames.idle⟩ rfl h.free_iff h.held_apart

theorem WellFormed.full_of_nil (h : p.WellFormed held) (hnil : p.frames.free = [])
    (hword : p.frames.InWord) (ppn : Ppn) : p.frames.isFree ppn = false := by
  rw [← Bool.not_eq_true, ← h.frames.mem_free_iff hword, hnil]
  exact List.not_mem_nil

/-- There is a page to evict if no frame is free: the one in frame 0. -/
theorem WellFormed.owner_of_full (h : p.WellFormed none)
    (hfull : ∀ ppn, p.frames.isFree ppn = false) : ∃ ppn key, p.table.owner? ppn = some key := by
  have hnot := mt (h.free_iff 0 h.sized.geometry.pages_pos).mpr (by simp [hfull 0])
  obtain ⟨key, hkey⟩ := Option.ne_none_iff_exists'.mp fun hnone => hnot ⟨hnone, by simp⟩
  exact ⟨0, key, hkey⟩

/-- A frame was free, or else one page left. -/
inductive FoundRoom (p p' : Pager) : Prop
  | free (hfree : ∃ ppn, p.frames.isFree ppn = true) (hretold : Retold p p')
  | evicted {victim : PageKey} {ppn : Ppn} (hfull : ∀ q, p.frames.isFree q = false)
      (hout : Evicted p p' victim ppn) (hspared : Spared p p' victim)

theorem FoundRoom.madeRoom (h : FoundRoom p p') : MadeRoom p p' := by
  cases h with
  | free _ hretold => exact Or.inl hretold.still
  | evicted _ hout _ => exact Or.inr ⟨_, _, hout⟩

theorem Same.foundRoom {p₁ : Pager} (hs : Same p p₁) (h : FoundRoom p₁ p') : FoundRoom p p' := by
  cases h with
  | free hfree hretold => exact .free (hs.frames ▸ hfree) (hs.retold.trans hretold)
  | evicted hfull hout hspared =>
    exact .evicted (hs.frames ▸ hfull) (hs.still.evicted hout) (hs.retold.spared hspared)

/-- Why there is no frame: no page can leave, or the queue never held one. -/
inductive NoFrame (p p' : Pager) : MemoryError → Prop
  | stays {cause : MemoryError} (hfull : ∀ ppn, p.frames.isFree ppn = false)
      (hstays : VictimStays p p' cause) : NoFrame p p' cause
  | uncounted (hmany : ¬ p.frames.InWord) : NoFrame p p' .outOfMemory

/-- One page at most leaves for the page that is to come, and no frame is missing while the swap is
reliable and a word counts the frames. -/
theorem acquireFrame_ends (h : p.WellFormed none) :
    acquireFrame.Ends p fun r p' =>
      (p'.swap.Reliable → p.frames.InWord → ∃ ppn, r = .ok ppn) ∧
        match r with
        | .ok ppn => p'.WellFormed (some ppn) ∧ FoundRoom p p'
        | .error cause => p'.WellFormed none ∧ Still p p' ∧ NoFrame p p' cause := by
  simp only [acquireFrame, Op.ends_bind]
  cases hfree : p.frames.free with
  | cons ppn rest =>
    have hmem : ppn ∈ p.frames.free := hfree ▸ List.mem_cons_self
    refine (takeFrame_of_free h hmem).imp ?_
    rintro r p' ⟨q, rfl, h', hretold⟩
    exact ⟨fun _ _ => ⟨q, rfl⟩, h', .free ⟨ppn, h.frames.isFree_of_mem hmem⟩ hretold⟩
  | nil =>
    refine (takeFrame_of_nil h hfree).imp ?_
    rintro r p₁ ⟨rfl, h₁, f, htotal, rfl⟩
    have hretold : Retold p { p with frames := f } := retold_reframe htotal
    have hstill := hretold.still
    simp only [Op.ends_bind]
    refine (evictOne_ends h₁).imp ?_
    rintro (cause | ppn) p₂ ⟨h₂, hr, hs⟩
    · obtain ⟨hstill', hstays | ⟨hnone, rfl⟩⟩ := hs
      · have hword : p.frames.InWord := by
          obtain ⟨victim, ppn, -, hf, -⟩ := hstays
          exact h.inWord_of_owner (h.owner_of_frame? hf)
        have hfull := h.full_of_nil hfree hword
        refine ⟨?_, h₂, hstill.trans hstill', .stays hfull hstays⟩
        intro hrel _
        obtain ⟨ppn, hppn⟩ := hr hrel (h.owner_of_full hfull)
        cases hppn
      · have hmany : ¬ p.frames.InWord := by
          intro hword
          obtain ⟨ppn, key, howner⟩ := h.owner_of_full (h.full_of_nil hfree hword)
          rw [hnone] at howner
          cases howner
        exact ⟨fun _ hword => absurd hword hmany, h₂, hstill.trans hstill', .uncounted hmany⟩
    · obtain ⟨⟨key, hout, hspared⟩, hppn⟩ := hs
      have hword : p.frames.InWord := h.inWord_of_owner (h.owner_of_frame? hout.left.was)
      have hfull := h.full_of_nil hfree hword
      refine (takeFrame_of_free h₂ hppn).imp ?_
      rintro r p₃ ⟨q, rfl, h₃, hretold'⟩
      exact ⟨fun _ _ => ⟨q, rfl⟩, h₃,
        .evicted hfull (hstill.evicted (hout.still hretold'.still h₁.sized.swap))
          (hretold.spared (hspared.retold hretold'))⟩

end VirtualMemory.Pager
