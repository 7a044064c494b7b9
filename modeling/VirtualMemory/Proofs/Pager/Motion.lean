import VirtualMemory.Proofs.ImageContents
import VirtualMemory.Proofs.Pager.Invariant

/-!
# How pages move

Seen from outside, a page has a frame or not, is dirty or not, and holds bytes: those of its frame,
or else those that its swap slot, its image or nobody keeps for it. An operation of the pager is put
together from three kinds of moves: `Still` moves no page, `Evicted` takes one page out, `Loaded`
brings one in. Under `Backed`, which says that a clean frame agrees with what is kept for its page,
no move changes the bytes of a page.
-/

namespace VirtualMemory.Pager

variable {p p' p₁ p₂ p₃ : Pager} {key k : PageKey} {ppn : Ppn} {held : Option Ppn}

/-! ## The view of a page -/

def frame? (p : Pager) (key : PageKey) : Option Ppn := (p.table.lookupValid key).map (·.ppn)

/-- A resident page is dirty in its table entry or in the cache slot that holds it. -/
def isDirty (p : Pager) (key : PageKey) : Bool :=
  (p.table.lookupValid key).any fun e => e.dirty || (p.tlb.cached key).any (·.dirty)

def frameByte (p : Pager) (ppn : Ppn) (offset : Nat) : UInt8 :=
  p.memory.byte (ppn.toNat * p.pageSize + offset)

/-- The byte that the image of its space has for a page. -/
def imageByte (p : Pager) (key : PageKey) (offset : Nat) : UInt8 :=
  match (p.spaces.get? key.pid).bind (·.image) with
  | some index => index.initialByte key.vpn p.pageSize offset
  | none => 0

/-- What is kept for a page that is not resident. -/
def storedByte (p : Pager) (key : PageKey) (offset : Nat) : UInt8 :=
  if p.swap.isPending key then p.imageByte key offset
  else
    match p.swap.slot? key with
    | some slot => p.swap.byte slot offset
    | none => 0

/-- Byte `offset` of a page, wherever it lives. -/
def byte (p : Pager) (key : PageKey) (offset : Nat) : UInt8 :=
  match p.frame? key with
  | some ppn => p.frameByte ppn offset
  | none => p.storedByte key offset

/-- A clean frame agrees with what is kept for its page. -/
def Backed (p : Pager) : Prop :=
  ∀ key ppn, p.frame? key = some ppn → p.isDirty key = false → ∀ o < p.pageSize,
    p.frameByte ppn o = p.storedByte key o

/-- While page `key` is clean, its frame agrees with what is kept for it. -/
def BackedAt (p : Pager) (key : PageKey) : Prop :=
  ∀ ppn, p.frame? key = some ppn → p.isDirty key = false → ∀ o < p.pageSize,
    p.frameByte ppn o = p.storedByte key o

theorem frame?_eq_none_iff : p.frame? key = none ↔ p.table.lookupValid key = none := by
  rw [frame?, Option.map_eq_none_iff]

theorem frame?_of_lookupValid {e : Entry} (he : p.table.lookupValid key = some e) :
    p.frame? key = some e.ppn := by
  rw [frame?, he, Option.map_some]

theorem isDirty_of_absent (h : p.frame? key = none) : p.isDirty key = false := by
  rw [isDirty, frame?_eq_none_iff.mp h]
  rfl

theorem imageByte_eq (p : Pager) (key : PageKey) (offset : Nat) :
    p.imageByte key offset =
      match (p.extent key.pid).bind (·.2) with
      | some index => index.initialByte key.vpn p.pageSize offset
      | none => 0 := by
  rw [imageByte, extent]
  cases p.spaces.get? key.pid <;> rfl

namespace WellFormed

theorem frame?_eq (h : p.WellFormed held) (key : PageKey) :
    p.frame? key = (p.table.lookup key).map (·.ppn) := by
  rw [frame?, h.lookupValid]

theorem lookup_of_absent (h : p.WellFormed held) (hf : p.frame? key = none) :
    p.table.lookup key = none := by
  rwa [h.frame?_eq, Option.map_eq_none_iff] at hf

theorem frame?_of_lookup (h : p.WellFormed held) {e : Entry} (he : p.table.lookup key = some e) :
    p.frame? key = some e.ppn :=
  frame?_of_lookupValid ((h.lookupValid key).trans he)

/-- The cached entry of a page has the last word on whether the page is dirty. -/
theorem isDirty_eq (h : p.WellFormed held) {e : Entry} (he : p.table.lookup key = some e) :
    p.isDirty key = ((p.tlb.cached key).getD e).dirty := by
  rw [isDirty, h.lookupValid, he, Option.any_some]
  cases hc : p.tlb.cached key with
  | none => exact Bool.or_false _
  | some c =>
    obtain ⟨-, known, hk, hext⟩ := h.cached key c hc
    rw [he] at hk
    obtain rfl := Option.some.inj hk
    rw [Option.any_some, Option.getD_some, Bool.or_eq_right_iff_imp]
    exact hext.dirty

theorem lt_of_frame? (h : p.WellFormed held) (hf : p.frame? key = some ppn) :
    ppn.toNat < p.frames.total := by
  rw [h.frame?_eq, Option.map_eq_some_iff] at hf
  obtain ⟨e, he, rfl⟩ := hf
  exact h.ppn_lt he

/-- The frame of a page is owned by that page. -/
theorem owner_of_frame? (h : p.WellFormed held) (hf : p.frame? key = some ppn) :
    p.table.owner? ppn = some key := by
  rw [h.frame?_eq, Option.map_eq_some_iff] at hf
  obtain ⟨e, he, rfl⟩ := hf
  exact h.owner he

theorem frame?_of_owner (h : p.WellFormed held) (ho : p.table.owner? ppn = some key) :
    p.frame? key = some ppn := by
  obtain ⟨e, he, -, rfl⟩ := (h.table.owner_iff ppn key).mp ho
  exact h.frame?_of_lookup he

/-- A frame that was taken came from the queue. -/
theorem inWord_of_held (h : p.WellFormed (some ppn)) : p.frames.InWord := by
  obtain ⟨hlt, -⟩ := h.held_apart ppn rfl
  refine h.frames.inWord hlt ?_
  rw [Bool.eq_false_iff]
  intro hfree
  exact ((h.free_iff ppn hlt).mp hfree).2 rfl

/-- The frame of a page was taken from the queue once. -/
theorem inWord_of_owner (h : p.WellFormed held) (ho : p.table.owner? ppn = some key) :
    p.frames.InWord := by
  have hlt := h.lt_of_frame? (h.frame?_of_owner ho)
  refine h.frames.inWord hlt ?_
  rw [Bool.eq_false_iff]
  intro hfree
  have hnone := ((h.free_iff ppn hlt).mp hfree).1
  rw [ho] at hnone
  cases hnone

end WellFormed

/-! ## Moves -/

structure Steady (p p' : Pager) : Prop where
  pageSize : p'.pageSize = p.pageSize
  total : p'.frames.total = p.frames.total
  swapSize : p'.swap.pageSize = p.swap.pageSize
  isOpen : p'.swap.isOpen = p.swap.isOpen
  extent : ∀ pid, p'.extent pid = p.extent pid
  reliable : p'.swap.Reliable → p.swap.Reliable

theorem Steady.refl (p : Pager) : Steady p p := ⟨rfl, rfl, rfl, rfl, fun _ => rfl, id⟩

theorem Steady.trans (h : Steady p₁ p₂) (h' : Steady p₂ p₃) : Steady p₁ p₃ where
  pageSize := h'.pageSize.trans h.pageSize
  total := h'.total.trans h.total
  swapSize := h'.swapSize.trans h.swapSize
  isOpen := h'.isOpen.trans h.isOpen
  extent := fun pid => (h'.extent pid).trans (h.extent pid)
  reliable := fun hr => h.reliable (h'.reliable hr)

/-- The page stays where it is; while it is dirty nothing is kept for it. -/
structure Kept (p p' : Pager) (key : PageKey) : Prop where
  frame : p'.frame? key = p.frame? key
  dirty : p'.isDirty key = p.isDirty key
  bytes : ∀ ppn, p.frame? key = some ppn → ∀ o < p.pageSize, p'.frameByte ppn o = p.frameByte ppn o
  stored : p.isDirty key = false → p.swap.Keeps p'.swap key

theorem Kept.refl (p : Pager) (key : PageKey) : Kept p p key :=
  ⟨rfl, rfl, fun _ _ _ _ => rfl, fun _ => Swapper.Keeps.refl _ _⟩

/-- A page that each of two steps leaves alone is left alone by both. -/
theorem Kept.trans (h : Kept p₁ p₂ key) (h' : Kept p₂ p₃ key) (hps : p₂.pageSize = p₁.pageSize)
    (hsize : p₂.swap.pageSize = p₁.swap.pageSize) : Kept p₁ p₃ key where
  frame := h'.frame.trans h.frame
  dirty := h'.dirty.trans h.dirty
  bytes := by
    intro ppn hppn o ho
    rw [h'.bytes ppn (h.frame.trans hppn) o (hps ▸ ho), h.bytes ppn hppn o ho]
  stored := fun hd => (h.stored hd).trans (h'.stored (h.dirty.trans hd)) hsize

/-- The page leaves its frame: a dirty one is in its slot now, for a clean one everything was kept
already. -/
structure Left (p p' : Pager) (key : PageKey) (ppn : Ppn) : Prop where
  was : p.frame? key = some ppn
  gone : p'.frame? key = none
  clean : p.isDirty key = false → p.swap.Keeps p'.swap key
  dirty : p.isDirty key = true → p'.swap.isPending key = false ∧
    ∃ slot, p'.swap.slot? key = some slot ∧
      ∀ o < p.pageSize, p'.swap.byte slot o = p.frameByte ppn o

theorem Kept.left (h : Kept p₁ p₂ key) (h' : Left p₂ p₃ key ppn) (hs : Steady p₁ p₂) :
    Left p₁ p₃ key ppn where
  was := h.frame.symm.trans h'.was
  gone := h'.gone
  clean := fun hd => (h.stored hd).trans (h'.clean (h.dirty.trans hd)) hs.swapSize
  dirty := by
    intro hd
    obtain ⟨hp, slot, hslot, hb⟩ := h'.dirty (h.dirty.trans hd)
    refine ⟨hp, slot, hslot, ?_⟩
    intro o ho
    rw [hb o (hs.pageSize ▸ ho), h.bytes ppn (h.frame.symm.trans h'.was) o ho]

/-- What is kept for a page that has left stays, as long as the page does not come back. -/
theorem Left.kept (h : Left p₁ p₂ key ppn) (h' : Kept p₂ p₃ key) (hs : Steady p₁ p₂)
    (hsize : p₁.swap.pageSize = p₁.pageSize) : Left p₁ p₃ key ppn where
  was := h.was
  gone := h'.frame.trans h.gone
  clean := fun hd => (h.clean hd).trans (h'.stored (isDirty_of_absent h.gone)) hs.swapSize
  dirty := by
    intro hd
    obtain ⟨hp, slot, hslot, hb⟩ := h.dirty hd
    have hkeeps := h'.stored (isDirty_of_absent h.gone)
    refine ⟨hkeeps.pending.trans hp, slot, hkeeps.slot.trans hslot, ?_⟩
    intro o ho
    rw [hkeeps.bytes slot hslot o (hs.swapSize.trans hsize ▸ ho), hb o ho]

structure Still (p p' : Pager) : Prop where
  steady : Steady p p'
  pagesOut : p'.swap.counters.pagesOut = p.swap.counters.pagesOut
  kept : ∀ key, Kept p p' key

theorem Still.refl (p : Pager) : Still p p := ⟨Steady.refl p, rfl, Kept.refl p⟩

theorem Still.trans (h : Still p₁ p₂) (h' : Still p₂ p₃) : Still p₁ p₃ where
  steady := h.steady.trans h'.steady
  pagesOut := h'.pagesOut.trans h.pagesOut
  kept := fun key => (h.kept key).trans (h'.kept key) h.steady.pageSize h.steady.swapSize

/-- Page `key` leaves frame `ppn`; it is written to swap if it is dirty, and only then. -/
structure Evicted (p p' : Pager) (key : PageKey) (ppn : Ppn) : Prop where
  steady : Steady p p'
  pagesOut : p'.swap.counters.pagesOut = p.swap.counters.pagesOut + (p.isDirty key).toNat
  left : Left p p' key ppn
  others : ∀ k, k ≠ key → Kept p p' k

theorem Still.evicted (h : Still p₁ p₂) (h' : Evicted p₂ p₃ key ppn) : Evicted p₁ p₃ key ppn where
  steady := h.steady.trans h'.steady
  pagesOut := by rw [h'.pagesOut, h.pagesOut, (h.kept key).dirty]
  left := (h.kept key).left h'.left h.steady
  others := fun k hk => (h.kept k).trans (h'.others k hk) h.steady.pageSize h.steady.swapSize

theorem Evicted.still (h : Evicted p₁ p₂ key ppn) (h' : Still p₂ p₃)
    (hsize : p₁.swap.pageSize = p₁.pageSize) : Evicted p₁ p₃ key ppn where
  steady := h.steady.trans h'.steady
  pagesOut := h'.pagesOut.trans h.pagesOut
  left := h.left.kept (h'.kept key) h.steady hsize
  others := fun k hk => (h.others k hk).trans (h'.kept k) h.steady.pageSize h.steady.swapSize

/-- Page `key` comes into a frame, with what was kept for it. -/
structure Loaded (p p' : Pager) (key : PageKey) : Prop where
  steady : Steady p p'
  pagesOut : p'.swap.counters.pagesOut = p.swap.counters.pagesOut
  absent : p.frame? key = none
  clean : p'.isDirty key = false
  arrived : ∃ ppn, p'.frame? key = some ppn ∧
    ∀ o < p.pageSize, p'.frameByte ppn o = p.storedByte key o
  stored : p.swap.Keeps p'.swap key
  others : ∀ k, k ≠ key → Kept p p' k

theorem Loaded.still (h : Loaded p₁ p₂ key) (h' : Still p₂ p₃) : Loaded p₁ p₃ key where
  steady := h.steady.trans h'.steady
  pagesOut := h'.pagesOut.trans h.pagesOut
  absent := h.absent
  clean := (h'.kept key).dirty.trans h.clean
  arrived := by
    obtain ⟨ppn, hppn, hbytes⟩ := h.arrived
    refine ⟨ppn, (h'.kept key).frame.trans hppn, ?_⟩
    intro o ho
    rw [(h'.kept key).bytes ppn hppn o (h.steady.pageSize ▸ ho), hbytes o ho]
  stored := h.stored.trans ((h'.kept key).stored h.clean) h.steady.swapSize
  others := fun k hk => (h.others k hk).trans (h'.kept k) h.steady.pageSize h.steady.swapSize

def MadeRoom (p p' : Pager) : Prop := Still p p' ∨ ∃ key ppn, Evicted p p' key ppn

theorem MadeRoom.still (h : MadeRoom p₁ p₂) (h' : Still p₂ p₃)
    (hsize : p₁.swap.pageSize = p₁.pageSize) : MadeRoom p₁ p₃ := by
  rcases h with h | ⟨key, ppn, h⟩
  · exact Or.inl (h.trans h')
  · exact Or.inr ⟨key, ppn, h.still h' hsize⟩

theorem Still.madeRoom (h : Still p₁ p₂) (h' : MadeRoom p₂ p₃) : MadeRoom p₁ p₃ := by
  rcases h' with h' | ⟨key, ppn, h'⟩
  · exact Or.inl (h.trans h')
  · exact Or.inr ⟨key, ppn, h.evicted h'⟩

theorem MadeRoom.steady (h : MadeRoom p p') : Steady p p' := by
  rcases h with h | ⟨key, ppn, h⟩
  · exact h.steady
  · exact h.steady

/-- To make room no page is brought in. -/
theorem MadeRoom.absent (h : MadeRoom p p') (hf : p.frame? key = none) : p'.frame? key = none := by
  rcases h with h | ⟨k, ppn, h⟩
  · exact (h.kept key).frame.trans hf
  · refine (h.others key ?_).frame.trans hf
    rintro rfl
    rw [h.left.was] at hf
    cases hf

/-! ## Moves keep the bytes -/

theorem imageByte_congr (hext : p'.extent key.pid = p.extent key.pid)
    (hps : p'.pageSize = p.pageSize) (o : Nat) : p'.imageByte key o = p.imageByte key o := by
  rw [imageByte_eq, imageByte_eq, hext, hps]

theorem Steady.imageByte (h : Steady p p') (key : PageKey) (o : Nat) :
    p'.imageByte key o = p.imageByte key o :=
  imageByte_congr (h.extent key.pid) h.pageSize o

/-- What is kept for a page is read from the same slot or the same image. -/
theorem storedByte_congr (hk : p.swap.Keeps p'.swap key) {o : Nat}
    (himage : p'.imageByte key o = p.imageByte key o) (hsize : p.swap.pageSize = p.pageSize)
    (ho : o < p.pageSize) : p'.storedByte key o = p.storedByte key o := by
  simp only [storedByte, hk.pending, himage, hk.slot]
  split
  · rfl
  · split
    next slot hslot => exact hk.bytes slot hslot o (hsize ▸ ho)
    next => rfl

/-- A page that stays where it is keeps its bytes. -/
theorem Kept.byte (h : Kept p p' key) {o : Nat} (himage : p'.imageByte key o = p.imageByte key o)
    (hsize : p.swap.pageSize = p.pageSize) (ho : o < p.pageSize) :
    p'.byte key o = p.byte key o := by
  simp only [Pager.byte, h.frame]
  split
  next ppn hppn => exact h.bytes ppn hppn o ho
  next habsent => exact storedByte_congr (h.stored (isDirty_of_absent habsent)) himage hsize ho

theorem Kept.backed (h : Kept p p' key) {o : Nat}
    (himage : p'.imageByte key o = p.imageByte key o) (hps : p'.pageSize = p.pageSize)
    (hsize : p.swap.pageSize = p.pageSize) (hb : p.Backed) (hf : p'.frame? key = some ppn)
    (hd : p'.isDirty key = false) (ho : o < p'.pageSize) :
    p'.frameByte ppn o = p'.storedByte key o := by
  have hf := h.frame.symm.trans hf
  have hd := h.dirty.symm.trans hd
  have ho := hps ▸ ho
  rw [h.bytes ppn hf o ho, hb key ppn hf hd o ho, storedByte_congr (h.stored hd) himage hsize ho]

theorem Still.byte (h : Still p p') (hsize : p.swap.pageSize = p.pageSize) (key : PageKey) {o : Nat}
    (ho : o < p.pageSize) : p'.byte key o = p.byte key o :=
  (h.kept key).byte (h.steady.imageByte _ _) hsize ho

theorem Still.backed (h : Still p p') (hsize : p.swap.pageSize = p.pageSize) (hb : p.Backed) :
    p'.Backed := by
  intro key ppn hf hd o ho
  exact (h.kept key).backed (h.steady.imageByte _ _) h.steady.pageSize hsize hb hf hd ho

/-- A dirty page has its bytes in its slot once it has left. -/
theorem Left.storedByte_of_dirty (h : Left p p' key ppn) (hd : p.isDirty key = true) {o : Nat}
    (ho : o < p.pageSize) : p'.storedByte key o = p.frameByte ppn o := by
  obtain ⟨hp, slot, hslot, hbytes⟩ := h.dirty hd
  simp only [Pager.storedByte, hp, hslot, Bool.false_eq_true, if_false]
  exact hbytes o ho

/-- A page has the bytes of its frame once it has left it, dirty or clean. -/
theorem Left.storedByte (h : Left p p' key ppn) (hs : Steady p p')
    (hsize : p.swap.pageSize = p.pageSize) (hb : p.BackedAt key) {o : Nat} (ho : o < p.pageSize) :
    p'.storedByte key o = p.frameByte ppn o := by
  cases hd : p.isDirty key with
  | false =>
    rw [storedByte_congr (h.clean hd) (hs.imageByte _ _) hsize ho, hb ppn h.was hd o ho]
  | true => exact h.storedByte_of_dirty hd ho

/-- A page keeps its bytes on its way out just if it is dirty, or what is kept for it agrees. -/
theorem Evicted.byte_iff (h : Evicted p p' key ppn) (hsize : p.swap.pageSize = p.pageSize) :
    (∀ o < p.pageSize, p'.byte key o = p.byte key o) ↔
      p.isDirty key = true ∨ ∀ o < p.pageSize, p.storedByte key o = p.byte key o := by
  have hbyte : ∀ o, p'.byte key o = p'.storedByte key o := by
    intro o
    rw [Pager.byte, h.left.gone]
  simp only [hbyte]
  cases hd : p.isDirty key with
  | false =>
    have hkept : ∀ o < p.pageSize, p'.storedByte key o = p.storedByte key o :=
      fun o ho => storedByte_congr (h.left.clean hd) (h.steady.imageByte _ _) hsize ho
    simp +contextual only [hkept, Bool.false_eq_true, false_or]
  | true =>
    refine iff_of_true ?_ (Or.inl rfl)
    intro o ho
    rw [h.left.storedByte_of_dirty hd ho, Pager.byte, h.left.was]

/-- A page keeps its bytes if it is backed, or does not leave. -/
theorem Evicted.byte (h : Evicted p p' key ppn) (hsize : p.swap.pageSize = p.pageSize)
    (k : PageKey) (hb : p'.frame? k = none → p.BackedAt k) {o : Nat} (ho : o < p.pageSize) :
    p'.byte k o = p.byte k o := by
  by_cases hk : k = key
  · subst hk
    rw [Pager.byte, Pager.byte, h.left.gone, h.left.was]
    exact h.left.storedByte h.steady hsize (hb h.left.gone) ho
  · exact (h.others k hk).byte (h.steady.imageByte _ _) hsize ho

theorem Evicted.backed (h : Evicted p p' key ppn) (hsize : p.swap.pageSize = p.pageSize)
    (hb : p.Backed) : p'.Backed := by
  intro k q hf hd o ho
  have hk : k ≠ key := by
    rintro rfl
    rw [h.left.gone] at hf
    cases hf
  exact (h.others k hk).backed (h.steady.imageByte _ _) h.steady.pageSize hsize hb hf hd ho

theorem MadeRoom.byteAt (h : MadeRoom p p') (hsize : p.swap.pageSize = p.pageSize) (k : PageKey)
    (hb : p'.frame? k = none → p.BackedAt k) {o : Nat} (ho : o < p.pageSize) :
    p'.byte k o = p.byte k o := by
  rcases h with h | ⟨key, ppn, h⟩
  · exact h.byte hsize k ho
  · exact h.byte hsize k hb ho

/-- To make room no page loses a byte. -/
theorem MadeRoom.byte (h : MadeRoom p p') (hsize : p.swap.pageSize = p.pageSize) (hb : p.Backed)
    (k : PageKey) {o : Nat} (ho : o < p.pageSize) : p'.byte k o = p.byte k o :=
  h.byteAt hsize k (fun _ => hb k) ho

theorem MadeRoom.backed (h : MadeRoom p p') (hsize : p.swap.pageSize = p.pageSize)
    (hb : p.Backed) : p'.Backed := by
  rcases h with h | ⟨key, ppn, h⟩
  · exact h.backed hsize hb
  · exact h.backed hsize hb

/-- A page that comes in has the bytes that were kept for it. -/
theorem Loaded.byte (h : Loaded p p' key) (hsize : p.swap.pageSize = p.pageSize) (k : PageKey)
    {o : Nat} (ho : o < p.pageSize) : p'.byte k o = p.byte k o := by
  by_cases hk : k = key
  · obtain ⟨ppn, hppn, hbytes⟩ := h.arrived
    rw [hk, Pager.byte, Pager.byte, hppn, h.absent]
    exact hbytes o ho
  · exact (h.others k hk).byte (h.steady.imageByte _ _) hsize ho

/-- What is kept for a page stays while no page moves, so that the page may come in after that. -/
theorem Still.loaded (h : Still p₁ p₂) (h' : Loaded p₂ p₃ key)
    (hsize : p₁.swap.pageSize = p₁.pageSize) : Loaded p₁ p₃ key where
  steady := h.steady.trans h'.steady
  pagesOut := h'.pagesOut.trans h.pagesOut
  absent := (h.kept key).frame.symm.trans h'.absent
  clean := h'.clean
  arrived := by
    obtain ⟨ppn, hppn, hbytes⟩ := h'.arrived
    refine ⟨ppn, hppn, ?_⟩
    intro o ho
    have hkeeps := (h.kept key).stored
      (isDirty_of_absent ((h.kept key).frame.symm.trans h'.absent))
    rw [hbytes o (h.steady.pageSize.symm ▸ ho),
      storedByte_congr hkeeps (h.steady.imageByte key o) hsize ho]
  stored := ((h.kept key).stored
    (isDirty_of_absent ((h.kept key).frame.symm.trans h'.absent))).trans h'.stored h.steady.swapSize
  others := fun k hk => (h.kept k).trans (h'.others k hk) h.steady.pageSize h.steady.swapSize

/-- The page comes in clean, with what is kept for it in its frame. -/
theorem Loaded.backed (h : Loaded p p' key) (hsize : p.swap.pageSize = p.pageSize)
    (hb : p.Backed) : p'.Backed := by
  intro k q hf hd o ho
  by_cases hk : k = key
  · obtain ⟨ppn, hppn, hbytes⟩ := h.arrived
    rw [hk, hppn] at hf
    obtain rfl := Option.some.inj hf
    have ho := h.steady.pageSize ▸ ho
    rw [hk, hbytes o ho,
      storedByte_congr h.stored (h.steady.imageByte _ _) hsize ho]
  · exact (h.others k hk).backed (h.steady.imageByte _ _) h.steady.pageSize hsize hb hf hd ho

end VirtualMemory.Pager
