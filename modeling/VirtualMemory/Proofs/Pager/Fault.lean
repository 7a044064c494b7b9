import VirtualMemory.Pager.Fault
import VirtualMemory.Proofs.Pager.Eviction

/-!
# A fault brings in one page

The page that comes in holds what was kept for it, and is read-only exactly if its section is,
unless the swap was closed. A fault that fails gives its frame back and leaves every page where it
was or, at most, one page fewer in memory. It fails if the page that is to leave cannot be written
or the page that is to come cannot be read, and for nothing else.
-/

namespace VirtualMemory.Pager

variable {p p' : Pager} {key : PageKey} {ppn : Ppn} {held : Option Ppn}

def Readable (p : Pager) (key : PageKey) : Prop :=
  ∀ index, (p.spaces.get? key.pid).bind (·.image) = some index →
    (index.locate key.vpn).isSome = true → ∃ found, index.load key.vpn p.pageSize = .ok found

/-- The page is kept in its image or in a swap slot, and reading it there fails. -/
inductive ReadFails (p : Pager) (key : PageKey) (cause : MemoryError) : Prop
  | image {index : ImageIndex} (hpending : p.pendingImage key = some index)
      (hload : index.load key.vpn p.pageSize = .error cause)
  | slot {slot : Nat} (hslot : p.swap.slot? key = some slot)
      (hread : (Swapper.readInto key p.pageSize p.swap).result = .error cause)

/-! ## The contents of the page -/

theorem pendingImage_of_pending (h : p.WellFormed held) (hp : p.swap.isPending key = true) :
    ∃ index, (p.spaces.get? key.pid).bind (·.image) = some index ∧
      (index.locate key.vpn).isSome = true ∧ p.pendingImage key = some index := by
  obtain ⟨page, hpage⟩ := Option.isSome_iff_exists.mp (h.pending key hp)
  obtain ⟨index, hindex, hlocate⟩ := Option.bind_eq_some_iff.mp hpage
  have hsome : (index.locate key.vpn).isSome = true := Option.isSome_iff_exists.mpr ⟨page, hlocate⟩
  refine ⟨index, hindex, hsome, ?_⟩
  rw [pendingImage, if_pos hp, hindex]
  exact Option.filter_some_pos hsome

/-- Fetching a page moves nothing and gives what is kept for it, or says why it cannot be read. -/
structure Fetched (p : Pager) (held : Option Ppn) (key : PageKey)
    (r : Except MemoryError (Bytes × Bool)) (p' : Pager) : Prop where
  wellFormed : p'.WellFormed held
  still : Still p p'
  succeeds : p'.swap.Reliable → p.Readable key → ∃ found, r = .ok found
  fails : ∀ cause, r = .error cause → p.ReadFails key cause
  mark : ∀ data readOnly, r = .ok (data, readOnly) → p.swap.isOpen = true →
    readOnly = p.isReadOnly key
  length : ∀ data readOnly, r = .ok (data, readOnly) → data.length = p.pageSize
  bytes : ∀ data readOnly, r = .ok (data, readOnly) → ∀ o < p.pageSize,
    data.getD o 0 = p.storedByte key o

theorem Fetched.ok {data : Bytes} {readOnly : Bool} (h : p'.WellFormed held) (hstill : Still p p')
    (hmark : p.swap.isOpen = true → readOnly = p.isReadOnly key)
    (hlength : data.length = p.pageSize)
    (hbytes : ∀ o < p.pageSize, data.getD o 0 = p.storedByte key o) :
    Fetched p held key (.ok (data, readOnly)) p' := by
  refine ⟨h, hstill, fun _ _ => ⟨_, rfl⟩, ?_, ?_, ?_, ?_⟩
  · rintro cause ⟨⟩
  · rintro data readOnly ⟨⟩
    exact hmark
  · rintro data readOnly ⟨⟩
    exact hlength
  · rintro data readOnly ⟨⟩
    exact hbytes

theorem Fetched.error {cause : MemoryError} (h : p'.WellFormed held) (hstill : Still p p')
    (hfails : p.ReadFails key cause) (hunable : p'.swap.Reliable → ¬ p.Readable key) :
    Fetched p held key (.error cause) p' := by
  refine ⟨h, hstill, fun hrel hread => absurd hread (hunable hrel), ?_, ?_, ?_, ?_⟩
  · rintro cause ⟨⟩
    exact hfails
  all_goals rintro data readOnly ⟨⟩

/-- A read from the swap changes at most a count. -/
theorem still_readInto {s : Swapper} {slot : Nat} (h : p.WellFormed held)
    (hslot : p.swap.slot? key = some slot) (hs : s = p.swap ∨ s = p.swap.countPageIn) :
    ({ p with swap := s } : Pager).WellFormed held ∧ Still p { p with swap := s } ∧
      (s.Reliable → p.swap.Reliable) := by
  rcases hs with rfl | rfl
  · exact ⟨h, Still.refl p, id⟩
  · have ht := Swapper.transferred_countPageIn h.swap key
    obtain ⟨hin, hro⟩ := h.slotted key slot hslot
    refine ⟨h.reswap ht hin hro, ⟨steady_reswap ht, rfl, ?_⟩, id⟩
    intro k
    exact ⟨rfl, rfl, fun _ _ _ _ => rfl, fun _ => ⟨rfl, rfl, fun _ _ _ _ => rfl⟩⟩

theorem fetch_ends (h : p.WellFormed held) (key : PageKey) :
    (fetch key).Ends p (Fetched p held key) := by
  simp only [fetch, Op.ends_bind, Op.ends_get]
  cases hp : p.swap.isPending key with
  | true =>
    obtain ⟨index, hindex, hlocate, hpending⟩ := pendingImage_of_pending h hp
    simp only [hpending, Op.ends_bind, Op.ends_ofExcept]
    cases hload : index.load key.vpn p.pageSize with
    | error e =>
      refine .error h (Still.refl p) (.image hpending hload) ?_
      intro _ hread
      obtain ⟨found, hfound⟩ := hread index hindex hlocate
      rw [hload] at hfound
      cases hfound
    | ok found =>
      obtain ⟨data, readOnly⟩ := found
      obtain ⟨⟨page, hpage, hro⟩, hlength, hbytes⟩ := ImageIndex.load_ok hload
      have hcount := same_count p 1 .imageLoads
      simp only [count, Op.ends_modify, Op.ends_pure]
      refine .ok (h.same hcount) hcount.still ?_ hlength ?_
      · intro _
        rw [isReadOnly, origin?, hindex, Option.bind_some, hpage, Option.any_some, hro]
      · intro o ho
        rw [storedByte, if_pos hp, imageByte, hindex, hbytes o ho]
  | false =>
    have hpending : p.pendingImage key = none := by
      rw [pendingImage, hp, if_neg Bool.false_ne_true]
    simp only [hpending, Op.ends_ite, Op.ends_bind]
    cases hslot : p.swap.slot? key with
    | some slot =>
      simp only [Option.isSome_some, if_true, Op.ends_on]
      rw [show swapPart.get p = p.swap from rfl, ← h.sized.swap]
      refine ((Swapper.readInto_ends h.swap hslot).and (Op.ends_self _ _)).imp ?_
      rintro r s ⟨⟨hs, hr, hbytes⟩, hresult, -⟩
      obtain ⟨hwf, hstill, hrel⟩ := still_readInto h hslot hs
      rcases r with cause | found
      · refine .error hwf hstill (.slot hslot (h.sized.swap ▸ hresult.symm)) ?_
        intro hs' _
        obtain ⟨found, hfound⟩ := hr (hrel hs')
        cases hfound
      · obtain ⟨hlength, hbytes⟩ := hbytes found rfl
        have hcount := same_count { p with swap := s } 1 .swapIns
        simp only [count, Op.ends_modify, Op.ends_pure]
        refine .ok (hwf.same hcount) (hstill.trans hcount.still) ?_ (hlength.trans h.sized.swap) ?_
        · intro hopen
          exact ((h.slotted key slot hslot).2 hopen).symm
        · intro o ho
          simp only [storedByte, hp, Bool.false_eq_true, if_false, hslot]
          exact hbytes o (h.sized.swap.symm ▸ ho)
    | none =>
      have hcount := same_count p 1 .zeroFills
      simp only [Option.isSome_none, Bool.false_eq_true, if_false, count, Op.ends_modify,
        Op.ends_pure]
      refine .ok (h.same hcount) hcount.still ?_ (Bytes.length_zeros _) ?_
      · intro hopen
        have hnone : p.origin? key = none := by
          rw [← Option.not_isSome_iff_eq_none]
          intro horigin
          rw [h.unpended hopen key horigin hslot] at hp
          cases hp
        rw [isReadOnly, hnone]
        rfl
      · intro o ho
        simp [storedByte, hp, hslot, Bytes.zeros, ho]

/-- A fetch reads, and counts. -/
theorem fetch_same (h : p.WellFormed held) (key : PageKey) :
    (fetch key).Ends p fun _ p' =>
      ∃ s, (s = p.swap ∨ s = p.swap.countPageIn) ∧ Same { p with swap := s } p' := by
  simp only [fetch, Op.ends_bind, Op.ends_get]
  cases p.pendingImage key with
  | some index =>
    simp only [Op.ends_bind, Op.ends_ofExcept]
    cases index.load key.vpn p.pageSize with
    | error e => exact ⟨p.swap, Or.inl rfl, Same.refl p⟩
    | ok found => exact ⟨p.swap, Or.inl rfl, same_count p 1 .imageLoads⟩
  | none =>
    simp only [Op.ends_ite, Op.ends_bind]
    cases hslot : p.swap.slot? key with
    | none =>
      simp only [Option.isSome_none, Bool.false_eq_true, if_false, count, Op.ends_modify,
        Op.ends_pure]
      exact ⟨p.swap, Or.inl rfl, same_count p 1 .zeroFills⟩
    | some slot =>
      simp only [Option.isSome_some, if_true, Op.ends_on]
      have hread := Swapper.readInto_ends h.swap hslot
      rw [h.sized.swap] at hread
      refine hread.imp ?_
      rintro (e | found) s ⟨hs, -⟩
      · exact ⟨s, hs, Same.refl _⟩
      · exact ⟨s, hs, same_count { p with swap := s } 1 .swapIns⟩

/-! ## The page comes in -/

/-- What a held frame holds is nobody's, so that filling it moves no page. -/
theorem fill_held (h : p.WellFormed (some ppn)) {data : Bytes}
    (hlength : data.length = p.pageSize) :
    ∃ memory, p.memory.writePage ppn data = .ok memory ∧
      ({ p with memory := memory } : Pager).WellFormed (some ppn) ∧
      Still p { p with memory := memory } ∧
      (∀ o < p.pageSize, frameByte { p with memory := memory } ppn o = data.getD o 0) ∧
      ∀ q, q ≠ ppn → ∀ o < p.pageSize,
        frameByte { p with memory := memory } q o = p.frameByte q o := by
  obtain ⟨hlt, howner⟩ := h.held_apart ppn rfl
  have hz := h.sized
  have hlt' : ppn.toNat < p.memory.pages := hz.pages ▸ hlt
  have hlength' : data.length = p.memory.pageSize := hlength.trans hz.memory.symm
  have hown : ∀ o < p.memory.pageSize, _ := fun o ho =>
    PhysicalMemory.byte_replaceFrame hz.whole hlt' hlength' ho
  have hother : ∀ q, q ≠ ppn → ∀ o < p.memory.pageSize, _ := fun q hne o ho =>
    PhysicalMemory.byte_replaceFrame_other p.memory hne hlength' ho
  rw [hz.memory] at hown hother
  refine ⟨_, PhysicalMemory.writePage_of_lt hlt' hlength', ?_, ?_, hown, hother⟩
  · exact h.rememory rfl rfl (ByteStore.size_poke _ _ _)
  · refine ⟨⟨rfl, rfl, rfl, rfl, fun _ => rfl, id⟩, rfl, ?_⟩
    intro k
    refine ⟨rfl, rfl, ?_, fun _ => Swapper.Keeps.refl _ _⟩
    intro q hq o ho
    refine hother q ?_ o ho
    rintro rfl
    rw [h.owner_of_frame? hq] at howner
    cases howner

def Unwritten (p p' : Pager) : Prop := p'.swap = p.swap ∨ p'.swap = p.swap.countPageIn

theorem Unwritten.keeps (h : Unwritten p p') (k : PageKey) : p.swap.Keeps p'.swap k := by
  rcases h with hs | hs
  · rw [hs]
    exact Swapper.Keeps.refl _ _
  · rw [hs]
    exact Swapper.keeps_countPageIn _ _

/-- Besides the entry of page `key` and the bytes of frame `ppn`, a page that comes in there leaves
memory, swap and table alone. -/
structure Filled (p p' : Pager) (key : PageKey) (ppn : Ppn) : Prop where
  frames : ∀ q, q ≠ ppn → ∀ o < p.pageSize, p'.frameByte q o = p.frameByte q o
  swap : Unwritten p p'
  learned : ∀ k, k ≠ key → Learned p p' k

theorem Filled.retold {p₁ p₂ p₃ : Pager} (h : Filled p₁ p₂ key ppn) (h' : Retold p₂ p₃) :
    Filled p₁ p₃ key ppn where
  frames := by
    intro q hq o ho
    rw [frameByte, h'.memory, h'.still.steady.pageSize]
    exact h.frames q hq o ho
  swap := by
    rw [Unwritten, h'.swap]
    exact h.swap
  learned := fun k hk => (h.learned k hk).trans (h'.learned k)

theorem fillFrame_ends (h : p.WellFormed (some ppn)) (key : PageKey) :
    (fillFrame key ppn).Ends p fun r p' =>
      p'.WellFormed (some ppn) ∧ Still p p' ∧
        (p'.swap.Reliable → p.Readable key → ∃ readOnly, r = .ok readOnly) ∧
        (∀ cause, r = .error cause → p.ReadFails key cause) ∧
        ∀ readOnly, r = .ok readOnly →
          (p.swap.isOpen = true → readOnly = p.isReadOnly key) ∧
            (∀ o < p.pageSize, p'.frameByte ppn o = p.storedByte key o) ∧
            Filled p p' key ppn := by
  simp only [fillFrame, Op.ends_bind]
  refine ((fetch_ends h key).and (fetch_same h key)).imp ?_
  rintro (cause | ⟨data, readOnly⟩) p₁ ⟨hf, s, hs, hsame⟩
  · refine ⟨hf.wellFormed, hf.still, ?_, ?_, nofun⟩
    · intro hrel hread
      obtain ⟨found, hfound⟩ := hf.succeeds hrel hread
      cases hfound
    · rintro cause ⟨⟩
      exact hf.fails cause rfl
  · have hsize := hf.still.steady.pageSize
    obtain ⟨memory, hwrite, h₂, hstill', hfilled, hothers⟩ :=
      fill_held hf.wellFormed ((hf.length data readOnly rfl).trans hsize.symm)
    simp only [Op.ends_get, Op.ends_ofExcept, hwrite, Op.ends_modify, Op.ends_pure]
    refine ⟨h₂, hf.still.trans hstill', fun _ _ => ⟨_, rfl⟩, nofun, ?_⟩
    rintro readOnly' ⟨⟩
    refine ⟨hf.mark data readOnly rfl, ?_, ?_, hsame.swap.symm ▸ hs, ?_⟩
    · intro o ho
      rw [hfilled o (hsize.symm ▸ ho), hf.bytes data readOnly rfl o ho]
    · intro q hq o ho
      rw [hothers q hq o (hsize.symm ▸ ho), frameByte, hsame.memory, hsize]
      rfl
    · intro k _
      exact .of_eq (by rw [← hsame.table]) hsame.slots

/-- The pager after a page came into frame `e.ppn`. -/
def attach (p : Pager) (key : PageKey) (e : Entry) : Pager :=
  { p with table := p.table.holding key e }

theorem lookup_attach (p : Pager) (key : PageKey) (e : Entry) (k : PageKey) :
    (p.attach key e).table.lookup k = if k = key then some e else p.table.lookup k :=
  PageTable.lookup_holding p.table key e k

theorem WellFormed.attach {e : Entry} (h : p.WellFormed (some e.ppn))
    (hnone : p.table.lookup key = none) (he : p.Fits key e) :
    (p.attach key e).WellFormed none := by
  obtain ⟨hlt, hfree⟩ := h.held_apart e.ppn rfl
  have hlt' : e.ppn.toNat < p.table.resident.residences.size := h.sized.residences.symm ▸ hlt
  have howner := PageTable.owner?_holding key hlt'
  have hlookup := lookup_attach p key e
  constructor
  · have hz := h.sized
    refine ⟨hz.geometry, hz.pages, hz.memory, hz.store, ?_, hz.processor, hz.swap, hz.slots⟩
    exact (Array.size_setIfInBounds ..).trans hz.residences
  · exact h.table.holding he.valid hnone hlt' hfree
  · exact h.frames
  · exact h.swap
  · exact h.distinct
  · intro q hq
    show p.frames.isFree q = true ↔ (p.table.holding key e).owner? q = none ∧ _
    rw [h.free_iff q hq, howner q]
    by_cases hqp : q = e.ppn
    · simp [hqp]
    · simp [hqp, Ne.symm hqp]
  · rintro q ⟨⟩
  · intro k e' he'
    rw [hlookup] at he'
    split at he'
    next hk =>
      obtain rfl := Option.some.inj he'
      rw [hk]
      exact he.congr rfl id
    next => exact (h.entries k e' he').congr rfl id
  · intro k c hc
    have hcached : p.tlb.cached k = some c := hc
    obtain ⟨hfits, known, hknown, hext⟩ := h.cached k c hcached
    have hne : k ≠ key := by
      rintro rfl
      rw [hnone] at hknown
      cases hknown
    exact ⟨hfits.congr rfl id, known, (hlookup k).trans ((if_neg hne).trans hknown), hext⟩
  · exact h.slotted
  · exact h.pending
  · exact h.unpended

/-- The frame that is held has no owner, so the page is accepted there. -/
theorem WellFormed.insert_ends {e : Entry} (h : p.WellFormed (some e.ppn)) (hv : e.valid = true)
    (hf : p.frame? key = none) :
    (PageTable.insert key e).Ends p.table fun r t => r = .ok () ∧ t = p.table.holding key e := by
  obtain ⟨hlt, howner⟩ := h.held_apart e.ppn rfl
  exact PageTable.insert_of_new hv (h.lookup_of_absent hf) (h.sized.residences.symm ▸ hlt) howner

theorem loaded_attach {e : Entry} (h : p.WellFormed (some e.ppn))
    (hf : p.frame? key = none) (he : p.Fits key e) (hclean : e.dirty = false)
    (hbytes : ∀ o < p.pageSize, p.frameByte e.ppn o = p.storedByte key o) :
    Loaded p (p.attach key e) key := by
  have hnone := h.lookup_of_absent hf
  have h' := h.attach hnone he
  have hlookup := lookup_attach p key e
  have hcached : (p.attach key e).tlb.cached key = none := h.cached_none hnone
  refine ⟨⟨rfl, rfl, rfl, rfl, fun _ => rfl, id⟩, rfl, hf, ?_, ⟨e.ppn, ?_, hbytes⟩,
    Swapper.Keeps.refl _ _, ?_⟩
  · rw [h'.isDirty_eq ((hlookup key).trans (if_pos rfl)), hcached]
    exact hclean
  · rw [h'.frame?_eq, hlookup, if_pos rfl]
    rfl
  · intro k hk
    have hsame : (p.attach key e).table.lookup k = p.table.lookup k :=
      (hlookup k).trans (if_neg hk)
    refine ⟨?_, ?_, fun _ _ _ _ => rfl, fun _ => Swapper.Keeps.refl _ _⟩
    · rw [h'.frame?_eq, h.frame?_eq, hsame]
    · rw [isDirty, isDirty, h'.lookupValid, h.lookupValid, hsame]
      rfl

theorem Filled.attach {p₁ : Pager} {e : Entry} (h : Filled p p₁ key e.ppn) :
    Filled p (p₁.attach key e) key e.ppn where
  frames := h.frames
  swap := h.swap
  learned := by
    intro k hk
    exact (h.learned k hk).trans (.of_eq ((lookup_attach p₁ key e k).trans (if_neg hk)) rfl)

theorem giveBack_ends (h : p.WellFormed (some ppn)) :
    (giveBack ppn).Ends p fun r p' => r = .ok () ∧ p'.WellFormed none ∧ Still p p' := by
  simp only [giveBack, Op.ends_bind, Op.ends_attempt]
  refine (release_held h).imp ?_
  rintro r p' ⟨rfl, h', rfl, -⟩
  exact ⟨rfl, h', still_reframe (Frames.total_withFree _ _)⟩

theorem image?_eq (p : Pager) (pid : Pid) :
    (p.spaces.get? pid).bind (·.image) = (p.extent pid).bind (·.2) := by
  rw [extent]
  cases p.spaces.get? pid <;> rfl

theorem Readable.congr {p' : Pager} (h : p.Readable key)
    (hext : p'.extent key.pid = p.extent key.pid) (hsize : p'.pageSize = p.pageSize) :
    p'.Readable key := by
  intro index hindex hlocate
  rw [image?_eq, hext, ← image?_eq] at hindex
  rw [hsize]
  exact h index hindex hlocate

/-- No frame was free and none could be freed, or the page could not be read after room was made. -/
inductive Unresolved (p p' : Pager) (key : PageKey) (cause : MemoryError) : Prop
  | noFrame (hnone : NoFrame p p' cause) (hstill : Still p p')
  | unread {p₁ : Pager} (hword : p.frames.InWord) (hroom : MadeRoom p p₁)
      (hread : p₁.ReadFails key cause)
      (hstill : Still p₁ p')

theorem Unresolved.madeRoom {cause : MemoryError} (h : Unresolved p p' key cause)
    (hsize : p.swap.pageSize = p.pageSize) : MadeRoom p p' := by
  cases h with
  | noFrame _ hstill => exact Or.inl hstill
  | unread _ hroom _ hstill => exact hroom.still hstill hsize

theorem NoFrame.recount {cause : MemoryError} {stats : Statistics}
    (h : NoFrame { p with stats := stats } p' cause) : NoFrame p p' cause := by
  cases h with
  | stays hfull hstays => exact .stays hfull hstays
  | uncounted hmany => exact .uncounted hmany

/-- Counters have no part in it. -/
theorem Unresolved.recount {cause : MemoryError} {stats : Statistics}
    (h : Unresolved { p with stats := stats } p' key cause) : Unresolved p p' key cause := by
  have hsame : Same p { p with stats := stats } :=
    ⟨rfl, rfl, rfl, rfl, rfl, rfl, rfl, fun _ => rfl⟩
  cases h with
  | noFrame hnone hstill => exact .noFrame hnone.recount (hsame.still.trans hstill)
  | unread hword hroom hread hstill =>
    exact .unread hword (hsame.still.madeRoom hroom) hread hstill

/-- A page that is not resident comes in, after room was made for it. -/
theorem faultIn_ends (h : p.WellFormed none) (hf : p.frame? key = none)
    (hin : p.inBounds key.pid key.vpn = true) :
    (faultIn key).Ends p fun r p' =>
      p'.WellFormed none ∧
        (p'.swap.Reliable → p.frames.InWord → p.Readable key → ∃ e, r = .ok e) ∧
        match r with
        | .ok e => p'.table.lookup key = some e ∧
            ∃ p₁, FoundRoom p p₁ ∧ Loaded p₁ p' key ∧ Filled p₁ p' key e.ppn
        | .error cause => Unresolved p p' key cause := by
  have hcount := same_count p 1 .pageFaults
  simp only [faultIn, Op.ends_bind, count, Op.ends_modify]
  refine (acquireFrame_ends (h.same hcount)).imp ?_
  rintro (cause | ppn) p₁ ⟨hr, hs⟩
  · obtain ⟨h₁, hstill, hnone⟩ := hs
    refine ⟨h₁, ?_, .noFrame hnone.recount (hcount.still.trans hstill)⟩
    intro hrel hword _
    obtain ⟨ppn, hppn⟩ := hr hrel hword
    cases hppn
  obtain ⟨h₁, hfound⟩ := hs
  have hfound := hcount.foundRoom hfound
  have hroom := hfound.madeRoom
  have hext := hroom.steady.extent key.pid
  have hsize := hroom.steady.pageSize
  have hread := fun hread : p.Readable key => hread.congr hext hsize
  have hf₁ := hroom.absent hf
  simp only [Op.ends_attempt]
  refine (fillFrame_ends h₁ key).imp ?_
  rintro (cause | readOnly) p₂ ⟨h₂, hstill, hr, hfails, hfill⟩
  · simp only [Op.ends_bind, Op.ends_liftM, Op.ends_throw]
    refine (giveBack_ends h₂).imp ?_
    rintro r p₃ ⟨rfl, h₃, hstill'⟩
    have hword : p.frames.InWord := h₁.inWord_of_held.of_total hroom.steady.total.symm
    refine ⟨h₃, ?_, .unread hword hroom (hfails cause rfl) (hstill.trans hstill')⟩
    intro hrel _ hp
    obtain ⟨readOnly, hro⟩ := hr (hstill'.steady.reliable hrel) (hread hp)
    cases hro
  · obtain ⟨hro, hbytes, hfilled⟩ := hfill readOnly rfl
    have hf₂ : p₂.frame? key = none := (hstill.kept key).frame.trans hf₁
    have hnone := h₂.lookup_of_absent hf₂
    have hext₂ : p₂.extent key.pid = p.extent key.pid := (hstill.steady.extent _).trans hext
    let e : Entry := ⟨key.vpn, ppn, { valid := true, readOnly := readOnly, used := true }⟩
    have hfits : p₂.Fits key e :=
      ⟨rfl, rfl, (inBounds_congr hext₂ key.vpn).trans hin,
        fun hopen => (hro (hstill.steady.isOpen.symm.trans hopen)).trans
          (isReadOnly_congr (hstill.steady.extent _)).symm, fun _ => rfl⟩
    have hstored : ∀ o < p₂.pageSize, p₂.frameByte ppn o = p₂.storedByte key o := by
      intro o ho
      have ho₁ : o < p₁.pageSize := hstill.steady.pageSize ▸ ho
      rw [hbytes o ho₁, storedByte_congr ((hstill.kept key).stored (isDirty_of_absent hf₁))
        (hstill.steady.imageByte _ _) h₁.sized.swap ho₁]
    simp only [Op.ends_bind, Op.ends_attempt, Op.ends_on]
    refine (h₂.insert_ends (e := e) rfl hf₂).imp ?_
    rintro r t ⟨rfl, rfl⟩
    exact ⟨h₂.attach hnone hfits, fun _ _ _ => ⟨e, rfl⟩,
      (lookup_attach p₂ key e key).trans (if_pos rfl), p₁, hfound,
      hstill.loaded (loaded_attach h₂ hf₂ hfits rfl hstored) h₁.sized.swap,
      Filled.attach (e := e) hfilled⟩

/-! ## Handling a miss -/

/-- The page was resident in frame `ppn`, or has come in there. -/
inductive Resolved (p p' : Pager) (key : PageKey) (ppn : Ppn) : Prop
  | resident (hf : p.frame? key = some ppn) (hretold : Retold p p') (hframes : p'.frames = p.frames)
  | brought {p₁ : Pager} (hf : p.frame? key = none) (hroom : FoundRoom p p₁)
      (hloaded : Loaded p₁ p' key) (hfilled : Filled p₁ p' key ppn)

/-- A miss that is handled leaves the page cached; it was resident, or has come in. -/
theorem handleMiss_ends (h : p.WellFormed none) {pid : Pid} {vaddr : VirtAddr}
    (hkey : key = ⟨pid, vaddr.vpn p.pageSize⟩) :
    (handleMiss pid vaddr).Ends p fun r p' =>
      p'.WellFormed none ∧
        (p'.swap.Reliable → p.frames.InWord → p.inBounds key.pid key.vpn = true →
          p.Readable key → ∃ e, r = .ok e) ∧
        match r with
        | .ok e => (p'.tlb.cached key).isSome = true ∧ p'.table.lookup key = some e ∧
            Resolved p p' key e.ppn
        | .error cause => MadeRoom p p' ∧ (p.inBounds key.pid key.vpn = true →
            p.frame? key = none ∧ Unresolved p p' key cause) := by
  subst hkey
  simp only [handleMiss, Op.ends_bind, Op.ends_get, Op.ends_checkDivisor, Op.ends_ite]
  split
  next hout =>
    simp only [Op.ends_notify, Op.ends_throw]
    have hnot : ¬ p.inBounds pid (vaddr.vpn p.pageSize) = true := by simpa using hout
    exact ⟨h, fun _ _ hin => absurd hin hnot, Or.inl (Still.refl p), fun hin => absurd hin hnot⟩
  next hin =>
    have hin : p.inBounds pid (vaddr.vpn p.pageSize) = true := by simpa using hin
    have hcount := same_count p 1 .tlbMisses
    have h₁ := h.same hcount
    simp only [count, Op.ends_modify, h.lookupValid]
    cases he : p.table.lookup ⟨pid, vaddr.vpn p.pageSize⟩ with
    | some e =>
      have hvpn := (h.entries _ e he).vpn
      have hframe := h.frame?_of_lookup he
      simp only [Op.ends_bind, Op.ends_liftM, Op.ends_pure]
      refine (refill_ends (e := e) h₁ (by rw [hvpn]; exact he)).imp ?_
      rintro r p' ⟨rfl, h', hretold, hframes, hlookup, hcached⟩
      rw [hvpn] at hlookup hcached
      exact ⟨h', fun _ _ _ _ => ⟨e, rfl⟩, hcached, hlookup,
        .resident hframe (hcount.retold.trans hretold) hframes⟩
    | none =>
      have hf : p.frame? ⟨pid, vaddr.vpn p.pageSize⟩ = none := by
        rw [h.frame?_eq, he]
        rfl
      simp only [Op.ends_bind]
      refine (faultIn_ends h₁ hf hin).imp ?_
      rintro (cause | e) p₂ ⟨h₂, hr, hs⟩
      · refine ⟨h₂, ?_, hcount.still.madeRoom (hs.madeRoom h₁.sized.swap), fun _ =>
          ⟨hf, hs.recount⟩⟩
        intro hrel hword _ hread
        obtain ⟨e, he⟩ := hr hrel hword (hread.congr rfl rfl)
        cases he
      · obtain ⟨he₂, p₁, hroom, hload, hfill⟩ := hs
        have hvpn := (h₂.entries _ e he₂).vpn
        simp only [Op.ends_liftM, Op.ends_pure]
        refine (refill_ends (e := e) h₂ (by rw [hvpn]; exact he₂)).imp ?_
        rintro r p' ⟨rfl, h', hretold, -, hlookup, hcached⟩
        rw [hvpn] at hlookup hcached
        exact ⟨h', fun _ _ _ _ => ⟨e, rfl⟩, hcached, hlookup,
          .brought hf (hcount.foundRoom hroom) (hload.still hretold.still)
            (hfill.retold hretold)⟩

end VirtualMemory.Pager
