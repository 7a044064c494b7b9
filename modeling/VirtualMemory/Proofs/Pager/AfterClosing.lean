import VirtualMemory.Proofs.Pager.Coherence
import VirtualMemory.Proofs.Pager.Sealed

/-!
# What is left after closing

Closing the swap forgets which pages of the open spaces have a slot and which are still those of an
image, and nothing that comes later can tell. A page that is in memory then, and stays there, is as
it was; so are the pages of spaces that are registered later. Any other page is lost: when it comes
in again it is full of zeros, and can be written to even if its section is read-only. A page that
was written to is safe, since it cannot leave any more.
-/

namespace VirtualMemory.Pager

open Op

variable {p p' p₀ : Pager} {key : PageKey} {event : Event} {answer : Answer}
  {marks : PageKey → Bool}

/-! ## Which pages are left -/

/-- Page `key` is in memory at `p₀` and after each of these steps. -/
def stayed (p₀ : Pager) (key : PageKey) (since : List Step) : Bool :=
  (p₀.frame? key).isSome && since.all fun s => (s.after.frame? key).isSome

/-- One of these steps registered the space of process `pid`. -/
def renewed (pid : Pid) (since : List Step) : Bool :=
  since.any fun s => s.event.registers pid s.answer

/-- The page has not been lost: it has stayed in memory, or its space is new. -/
def survives (p₀ : Pager) (key : PageKey) (since : List Step) : Bool :=
  stayed p₀ key since || renewed key.pid since

/-- The steps that count for a page: all of them, or those since the swap was closed if it is
lost. -/
def remembered (p₀ : Pager) (before since : List Step) (key : PageKey) : List Step :=
  if survives p₀ key since then since ++ before else since

/-- The page is read-only if its section is, unless it is lost. -/
def protects (p₀ p : Pager) (since : List Step) (key : PageKey) : Bool :=
  survives p₀ key since && p.isReadOnly key

theorem stayed_cons (s : Step) (since : List Step) :
    stayed p₀ key (s :: since) = (stayed p₀ key since && (s.after.frame? key).isSome) := by
  rw [stayed, stayed, List.all_cons, Bool.and_assoc, Bool.and_comm (List.all _ _)]

theorem renewed_cons (pid : Pid) (s : Step) (since : List Step) :
    renewed pid (s :: since) = (s.event.registers pid s.answer || renewed pid since) :=
  List.any_cons

theorem replaced_of_registers (hreg : event.registers key.pid answer = true) (pageSize o : Nat)
    (old old' : UInt8) :
    replaced pageSize key o old event answer = replaced pageSize key o old' event answer := by
  obtain ⟨numPages, image, rfl, rfl⟩ := registers_iff.mp hreg
  rw [replaced, replaced, if_pos rfl, if_pos rfl]

/-- What was in the pages of a space before it was registered does not count. -/
theorem expected_append_of_renewed {since : List Step} (h : renewed key.pid since = true)
    (pageSize o : Nat) (before : List Step) :
    expected pageSize key o (since ++ before) = expected pageSize key o since := by
  induction since with
  | nil => cases h
  | cons s rest ih =>
    rw [renewed_cons, Bool.or_eq_true] at h
    rw [List.cons_append, expected, expected]
    rcases h with hreg | h
    · exact replaced_of_registers hreg pageSize o _ _
    · rw [ih h]

/-! ## Steps while the swap is closed -/

/-- The pages of a space that is registered are not in memory. -/
theorem Effect.arrives (he : Effect p event answer p') (h : p.WellFormed none)
    (hreg : event.registers key.pid answer = true) :
    p.frame? key = none ∧ p'.frame? key = none := by
  obtain ⟨numPages, image, rfl, rfl⟩ := registers_iff.mp hreg
  cases he with
  | idle hidle => exact hidle.elim
  | registered hnew => exact ⟨h.frame?_none hnew, h.frame?_none hnew⟩

theorem Effect.old_of_resident (he : Effect p event answer p') (h : p.WellFormed none)
    (hf : (p'.frame? key).isSome = true) : event.registers key.pid answer = false := by
  rw [Bool.eq_false_iff]
  intro hreg
  rw [(he.arrives h hreg).2] at hf
  cases hf

theorem Effect.space_of_old (he : Effect p event answer p')
    (hspace : (p'.extent key.pid).isSome = true)
    (hold : event.registers key.pid answer = false) : (p.extent key.pid).isSome = true := by
  rcases he.space hspace with hspace | ⟨numPages, image, hevent, hanswer⟩
  · exact hspace
  · rw [registers_iff.mpr ⟨numPages, image, hevent, hanswer⟩] at hold
    cases hold

/-- A page that is clean after a step was clean before, was not written to, and the same is kept for
it: none has got a slot meanwhile. -/
structure Untouched (p p' : Pager) (key : PageKey) (event : Event) (answer : Answer) : Prop where
  clean : p.isDirty key = false
  stored : ∀ o < p.pageSize, p'.storedByte key o = p.storedByte key o
  unwritten : ∀ o old, replaced p.pageSize key o old event answer = old

theorem untouched_of_keeps (hclean : p.isDirty key = false) (hkeeps : p.swap.Keeps p'.swap key)
    (himage : ∀ o, p'.imageByte key o = p.imageByte key o) (hsize : p.swap.pageSize = p.pageSize)
    (hold : ∀ o old, replaced p.pageSize key o old event answer = old) :
    Untouched p p' key event answer :=
  ⟨hclean, fun o ho => storedByte_congr hkeeps (himage o) hsize ho, hold⟩

theorem Kept.untouched (hk : Kept p p' key) (hclean : p'.isDirty key = false)
    (himage : ∀ o, p'.imageByte key o = p.imageByte key o) (hsize : p.swap.pageSize = p.pageSize)
    (hold : ∀ o old, replaced p.pageSize key o old event answer = old) :
    Untouched p p' key event answer := by
  have hd := hk.dirty.symm.trans hclean
  exact untouched_of_keeps hd (hk.stored hd) himage hsize hold

/-- A page that left was clean, or it would have a slot now. -/
theorem MadeRoom.keeps (h : MadeRoom p p') (hclean : p'.isDirty key = false)
    (hnone : p'.swap.slot? key = none) : p.isDirty key = false ∧ p.swap.Keeps p'.swap key := by
  rcases h with h | ⟨k, ppn, h⟩
  · have hd := (h.kept key).dirty.symm.trans hclean
    exact ⟨hd, (h.kept key).stored hd⟩
  · by_cases hk : key = k
    · subst hk
      cases hd : p.isDirty key with
      | false => exact ⟨rfl, h.left.clean hd⟩
      | true =>
        obtain ⟨-, slot, hslot, -⟩ := h.left.dirty hd
        rw [hnone] at hslot
        cases hslot
    · have hd := (h.others key hk).dirty.symm.trans hclean
      exact ⟨hd, (h.others key hk).stored hd⟩

theorem Loaded.keeps (h : Loaded p p' key) (k : PageKey) (hclean : p'.isDirty k = false) :
    p.isDirty k = false ∧ p.swap.Keeps p'.swap k := by
  by_cases hk : k = key
  · subst hk
    exact ⟨isDirty_of_absent h.absent, h.stored⟩
  · have hd := (h.others k hk).dirty.symm.trans hclean
    exact ⟨hd, (h.others k hk).stored hd⟩

theorem Effect.untouched (he : Effect p event answer p') (h : p.WellFormed none)
    (hspace : (p'.extent key.pid).isSome = true) (hnone : p'.swap.slot? key = none)
    (hold : event.registers key.pid answer = false) (hclean : p'.isDirty key = false) :
    Untouched p p' key event answer := by
  have hsize := h.sized.swap
  -- Wherever the page was dirty before and is not now, it left through a slot: `hnone` denies it.
  cases he with
  | idle hidle hs =>
    exact (hs.kept key).untouched hclean (hs.steady.imageByte key) hsize
      fun o old => replaced_of_idle hidle p.pageSize key o old
  | @registered pid numPages image hnew =>
    have hne : key.pid ≠ pid := fun heq => beq_eq_false_iff_ne.mp hold heq.symm
    have hel := elsewhere_registered p pid numPages image
    have himage := imageByte_congr (hel.extent _ hne) hel.pageSize
    exact (hel.kept key hne).untouched hclean himage hsize fun _ _ => if_neg hne
  | loaded _ hroom hl =>
    obtain ⟨hd₁, hkeeps₁⟩ := hl.keeps key hclean
    obtain ⟨hd, hkeeps⟩ := hroom.keeps hd₁ (hkeeps₁.slot.symm.trans hnone)
    have himage := (hroom.steady.trans hl.steady).imageByte key
    have hkeeps := hkeeps.trans hkeeps₁ hroom.steady.swapSize
    exact untouched_of_keeps hd hkeeps himage hsize fun _ _ => rfl
  | unresolved hroom =>
    obtain ⟨hd, hkeeps⟩ := hroom.keeps hclean hnone
    exact untouched_of_keeps hd hkeeps (hroom.steady.imageByte key) hsize fun _ _ => rfl
  | translated ha => exact ⟨(ha.clean hclean).1, fun o _ => ha.storedByte key o, fun _ _ => rfl⟩
  | read ha => exact ⟨(ha.clean hclean).1, fun o _ => ha.storedByte key o, fun _ _ => rfl⟩
  | written ha =>
    obtain ⟨hd, hne⟩ := ha.clean hclean
    exact ⟨hd, fun o _ => ha.storedByte key o, fun _ _ => if_neg fun hin => hne rfl hin.1⟩
  | evicted hev =>
    obtain ⟨hd, hkeeps⟩ := MadeRoom.keeps (Or.inr ⟨_, _, hev⟩) hclean hnone
    exact untouched_of_keeps hd hkeeps (hev.steady.imageByte key) hsize fun _ _ => rfl
  | @tornDown pid _ hel hgone =>
    have hne : key.pid ≠ pid := by
      rintro rfl
      rw [hgone] at hspace
      cases hspace
    have himage := imageByte_congr (hel.extent _ hne) hel.pageSize
    exact (hel.kept key hne).untouched hclean himage hsize fun _ _ => rfl
  | swapFaults =>
    have hu := undisturbed_withSwapFaults p
    exact ((hu _).kept key).untouched hclean ((hu _).image key) hsize fun _ _ => rfl
  | imageFaults =>
    have hu := undisturbed_withImageFaults p
    exact ((hu _ _).kept key).untouched hclean ((hu _ _).image key) hsize fun _ _ => rfl

/-! ## The invariant -/

/-- What is left after the steps `since` the swap was closed at `p₀`, before which there were the
steps `before`. -/
structure Remaining (p₀ : Pager) (before since : List Step) (p : Pager) : Prop where
  closed : p.swap.isOpen = false
  slotless : ∀ key, p.swap.slot? key = none
  pending : ∀ key, (p.extent key.pid).isSome = true →
    p.swap.isPending key = (renewed key.pid since && (p.origin? key).isSome)
  resident : ∀ key, stayed p₀ key since = true → (p.frame? key).isSome = true
  stored : ∀ key, (p.extent key.pid).isSome = true → p.isDirty key = false → ∀ o < p.pageSize,
    p.storedByte key o = expected p.pageSize key o since
  bytes : ∀ key, (p.extent key.pid).isSome = true → ∀ o < p.pageSize,
    p.byte key o = expected p.pageSize key o (remembered p₀ before since key)
  table : p.table.Marked (protects p₀ p since)
  cache : p.tlb.Marked (protects p₀ p since)

variable {before since : List Step}

/-- A page that comes in while the swap is closed has no slot, and its image only if its space is
new. -/
theorem Remaining.arrivalMark (hr : Remaining p₀ before since p) (hf : p.frame? key = none) :
    protects p₀ p since key = p.arrivalMark key := by
  have hstayed : stayed p₀ key since = false := by
    rw [Bool.eq_false_iff]
    intro hstayed
    have hsome := hr.resident key hstayed
    rw [hf] at hsome
    cases hsome
  rw [protects, survives, Pager.arrivalMark, hstayed, Bool.false_or]
  cases hspace : p.extent key.pid with
  | none => rw [isReadOnly, origin?_eq, hspace, Option.bind_none, Option.bind_none, Option.any_none,
      Bool.and_false, Bool.and_false]
  | some space =>
    rw [hr.pending key (Option.isSome_of_eq_some hspace), isReadOnly]
    cases p.origin? key with
    | none => rw [Option.any_none, Bool.and_false, Bool.and_false]
    | some page => rw [Option.isSome_some, Bool.and_true]

variable {s : Step}

/-- A page that is in memory after a step is protected if it was before. -/
theorem protects_cons (h : p.WellFormed none) (he : Effect p s.event s.answer s.after)
    (h' : s.after.WellFormed none) (hs : SealedStep p marks s.event s.answer s.after)
    (hf : (s.after.frame? key).isSome = true) :
    protects p₀ s.after (s :: since) key = protects p₀ p since key := by
  have hold := he.old_of_resident h hf
  obtain ⟨ppn, hppn⟩ := Option.isSome_iff_exists.mp hf
  rw [protects, protects, survives, survives, stayed_cons, renewed_cons, hf, hold, Bool.and_true,
    Bool.false_or, isReadOnly, isReadOnly, hs.origin? (h'.space_of_frame? hppn) hold]

/-- Marks need only be right for pages that are in memory. -/
theorem marked_congr {marks' : PageKey → Bool} (h : p.WellFormed none) (ht : p.table.Marked marks)
    (hc : p.tlb.Marked marks)
    (hsame : ∀ key, (p.frame? key).isSome = true → marks' key = marks key) :
    p.table.Marked marks' ∧ p.tlb.Marked marks' := by
  have hresident : ∀ key e, p.table.lookup key = some e → (p.frame? key).isSome = true :=
    fun key e he => Option.isSome_of_eq_some (h.frame?_of_lookup he)
  rw [Tlb.marked_iff h.distinct] at hc ⊢
  constructor
  · intro key e he
    exact ⟨(ht key e he).vpn, (ht key e he).readOnly.trans (hsame key (hresident key e he)).symm⟩
  · intro key e he
    obtain ⟨-, known, hknown, -⟩ := h.cached key e he
    exact ⟨(hc key e he).vpn, (hc key e he).readOnly.trans (hsame _ (hresident _ _ hknown)).symm⟩

/-- While the swap is open, read-only are the entries of the pages that are. -/
theorem WellFormed.marked (h : p.WellFormed none) (hopen : p.swap.isOpen = true) :
    p.table.Marked p.isReadOnly ∧ p.tlb.Marked p.isReadOnly := by
  have hfits {key : PageKey} {e : Entry} (he : p.Fits key e) : e.Marked p.isReadOnly key :=
    ⟨he.vpn, he.readOnly hopen⟩
  rw [Tlb.marked_iff h.distinct]
  exact ⟨fun key e he => hfits (h.entries key e he), fun key e he => hfits (h.cached key e he).1⟩

/-- Nothing but the steps since the swap was closed counts for what is kept for a clean page. -/
theorem Remaining.stored_stepOf (hr : Remaining p₀ before since p) (h : p.WellFormed none)
    (he : Effect p s.event s.answer s.after) (hin : s.event.InPage p.pageSize)
    (hnone : s.after.swap.slot? key = none) (hspace : (s.after.extent key.pid).isSome = true)
    (hclean : s.after.isDirty key = false) {o : Nat} (ho : o < p.pageSize) :
    s.after.storedByte key o = expected p.pageSize key o (s :: since) := by
  cases hreg : s.event.registers key.pid s.answer with
  | false =>
    have hu := he.untouched h hspace hnone hreg hclean
    rw [hu.stored o ho, hr.stored key (he.space_of_old hspace hreg) hu.clean o ho]
    exact (hu.unwritten o _).symm
  | true =>
    obtain ⟨hf, hf'⟩ := he.arrives h hreg
    have hbacked : s.after.frame? key = none → p.BackedAt key := by
      intro _ ppn hppn
      rw [hf] at hppn
      cases hppn
    have hbyte := he.byteAt h hin hbacked hspace ho
    rw [Pager.byte, hf'] at hbyte
    exact hbyte.trans (replaced_of_registers hreg p.pageSize o _ _)

theorem Remaining.bytes_stepOf (hr : Remaining p₀ before since p) (h : p.WellFormed none)
    (he : Effect p s.event s.answer s.after) (hin : s.event.InPage p.pageSize)
    (hnone : s.after.swap.slot? key = none) (hspace : (s.after.extent key.pid).isSome = true)
    {o : Nat} (ho : o < p.pageSize) :
    s.after.byte key o = expected p.pageSize key o (remembered p₀ before (s :: since) key) := by
  rw [remembered, survives, stayed_cons]
  -- A page that is not in memory now is lost or new, and has what is kept for it.
  cases hf : s.after.frame? key with
  | none =>
    have hstored := hr.stored_stepOf h he hin hnone hspace (isDirty_of_absent hf) ho
    have hbyte : s.after.byte key o = s.after.storedByte key o := by rw [Pager.byte, hf]
    rw [hbyte, hstored, Option.isSome_none, Bool.and_false, Bool.false_or]
    cases hnew : renewed key.pid (s :: since) with
    | true => exact (expected_append_of_renewed hnew _ _ _).symm
    | false => rfl
  | some ppn =>
    -- One that is has the bytes it had, and what the step wrote; whether it survives is settled.
    have hold := he.old_of_resident h (Option.isSome_of_eq_some hf)
    have hbacked : s.after.frame? key = none → p.BackedAt key := by
      intro hnone
      rw [hf] at hnone
      cases hnone
    rw [he.byteAt h hin hbacked hspace ho, hr.bytes key (he.space_of_old hspace hold) o ho,
      remembered, survives, Option.isSome_some, Bool.and_true, renewed_cons, hold, Bool.false_or]
    split
    · rfl
    · rfl

theorem Remaining.stepOf (hr : Remaining p₀ before since p) (h : p.WellFormed none) (event : Event)
    (hin : event.InPage p.pageSize) :
    Remaining p₀ before (p.stepOf event :: since) (p.stepOf event).after := by
  obtain ⟨h', he⟩ := h.stepOf event
  have hs := sealed_stepOf hr.closed hr.table hr.cache event fun key => hr.arrivalMark
  obtain ⟨ht, hc⟩ := hs.marked hr.table hr.cache
  obtain ⟨ht, hc⟩ := marked_congr h' ht hc fun key => protects_cons (s := p.stepOf event) h he h' hs
  have hslotless := hs.slotless hr.slotless
  refine ⟨he.lasting.isOpen.trans hr.closed, hslotless, ?_, ?_, ?_, ?_, ht, hc⟩
  · intro key hspace
    have hevent : (p.stepOf event).event = event := rfl
    rw [hs.isPending h hr.slotless hspace, renewed_cons, hevent]
    cases hreg : event.registers key.pid (p.stepOf event).answer with
    | true => rw [if_pos rfl, Bool.true_or, Bool.true_and]
    | false =>
      rw [if_neg Bool.false_ne_true, hr.pending key (he.space_of_old hspace hreg), Bool.false_or,
        hs.origin? hspace hreg]
  · intro key hstayed
    rw [stayed_cons, Bool.and_eq_true] at hstayed
    exact hstayed.2
  · intro key hspace hclean o ho
    rw [he.lasting.pageSize] at ho ⊢
    exact hr.stored_stepOf (s := p.stepOf event) h he hin (hslotless key) hspace hclean ho
  · intro key hspace o ho
    rw [he.lasting.pageSize] at ho ⊢
    exact hr.bytes_stepOf (s := p.stepOf event) h he hin (hslotless key) hspace ho

/-- When the swap is closed, the pages in memory are left. -/
theorem Remaining.of_closed (h : p.WellFormed none) (hopen : p.swap.isOpen = true)
    (hc : Coherent before p) : Remaining p.closed before [] p.closed := by
  have hshut : p.closed.swap = _ := Swapper.shut_of_open hopen
  have hslotless : ∀ key, p.closed.swap.slot? key = none := by
    intro key
    rw [hshut]
    rfl
  have hpending : ∀ key, p.closed.swap.isPending key = false := by
    intro key
    rw [hshut]
    rfl
  have hstored : ∀ key o, p.closed.storedByte key o = 0 := by
    intro key o
    rw [storedByte, hpending, hslotless, if_neg Bool.false_ne_true]
  have hframe : ∀ key, p.closed.frame? key = p.frame? key := fun _ => rfl
  have hmark : ∀ key, (p.frame? key).isSome = true →
      protects p.closed p.closed [] key = p.isReadOnly key := by
    intro key hf
    rw [protects, survives, stayed, hframe, hf]
    rfl
  obtain ⟨ht, hcache⟩ := h.marked hopen
  obtain ⟨ht, hcache⟩ := marked_congr h ht hcache hmark
  refine ⟨p.swap.isOpen_shut, hslotless, fun key _ => hpending key, ?_,
    fun key _ _ o _ => hstored key o, ?_, ht, hcache⟩
  · intro key hstayed
    rw [stayed, Bool.and_eq_true] at hstayed
    exact hstayed.1
  · intro key hspace o ho
    rw [remembered, survives, stayed, hframe]
    cases hf : p.frame? key with
    | none =>
      rw [Pager.byte, hframe, hf]
      exact hstored key o
    | some ppn =>
      have hbyte := hc.bytes key hspace o ho
      rw [Pager.byte, hf] at hbyte
      rw [Pager.byte, hframe, hf]
      exact hbyte

theorem Remaining.after (h : p.WellFormed none) (hr : Remaining p before [] p)
    (events : List Event) (hin : ∀ event ∈ events, event.InPage p.pageSize) :
    Remaining p before (p.history events) (p.after events) := by
  induction events with
  | nil => exact hr
  | cons event past ih =>
    obtain ⟨hevent, hin⟩ := List.forall_mem_cons.mp hin
    refine (ih hin).stepOf (h.after past) event ?_
    rw [(lasting_after h past).pageSize]
    exact hevent

/-! ## What processes meet -/

/-- Reads of page `key` deliver what `past` left there, its entries are read-only as `readOnly`
says, and once it has been written to it cannot leave. -/
structure Delivers (p : Pager) (key : PageKey) (readOnly : Bool) (past : List Step) : Prop where
  read : ∀ vaddr length data, vaddr.vpn p.pageSize = key.vpn →
    vaddr.offset p.pageSize + length ≤ p.pageSize →
    (Pager.read key.pid vaddr length p).result = .ok data →
      data = (List.range length).map fun i =>
        expected p.pageSize key (vaddr.offset p.pageSize + i) past
  mark : ∀ e, p.table.lookup key = some e ∨ p.tlb.cached key = some e → e.readOnly = readOnly
  stays : p.isDirty key = true → (evictPage key p).result = .error .swapClosed

/-- A page that was written to cannot leave: there is nowhere to write it. -/
theorem Remaining.stays (hr : Remaining p₀ before since p) (h : p.WellFormed none)
    (hd : p.isDirty key = true) : (evictPage key p).result = .error .swapClosed := by
  have hsealed : Sealed p (protects p₀ p since) p := ⟨rfl, fun _ => rfl, hr.table, hr.cache⟩
  have hswap := ((maintains_evictPage hr.closed key).state hsealed).swap
  obtain ⟨-, -, hends⟩ := evictPage_ends h key
  generalize (evictPage key p).result = r at hends ⊢
  cases r with
  | ok ppn =>
    obtain ⟨-, slot, hslot, -⟩ := hends.1.left.dirty hd
    rw [hswap, hr.slotless] at hslot
    cases hslot
  | error cause =>
    cases hf : p.frame? key with
    | none =>
      rw [isDirty_of_absent hf] at hd
      cases hd
    | some ppn =>
      obtain ⟨⟨page, hpage, hwrite⟩, -⟩ := hends.2 ppn hf
      obtain ⟨page', hpage', hlength, -⟩ := h.sized.readPage (h.lt_of_frame? hf)
      rw [hpage] at hpage'
      obtain rfl := Except.ok.inj hpage'
      obtain ⟨-, -, hcause⟩ := Swapper.write_of_closed hr.closed key page
      rw [Except.error.inj (hwrite.symm.trans (hcause hlength))]

theorem Remaining.delivers (hr : Remaining p₀ before since p) (h : p.WellFormed none)
    (key : PageKey) :
    Delivers p key (protects p₀ p since key) (remembered p₀ before since key) where
  read := by
    intro vaddr length data hvpn hlen hread
    obtain ⟨-, hends⟩ := read_ends h key.pid vaddr length
    rw [hread, pageOf, hvpn] at hends
    obtain ⟨haccessed, -, hdata⟩ := hends
    obtain ⟨hlength, hbytes⟩ := hdata hlen
    obtain ⟨ppn, hppn⟩ := Option.isSome_iff_exists.mp haccessed.resident
    have hspace := h.space_of_frame? hppn
    refine Bytes.eq_map_range hlength fun i hi => ?_
    rw [hbytes i hi]
    exact hr.bytes key hspace _ (by omega)
  mark := by
    rintro e (he | he)
    · exact (hr.table key e he).readOnly
    · exact ((Tlb.marked_iff h.distinct).mp hr.cache key e he).readOnly
  stays := hr.stays h

/-- What is kept for a page that is not in memory is not touched when another one leaves. -/
theorem MadeRoom.keeps_of_absent (h : MadeRoom p p') (hf : p.frame? key = none) :
    p.swap.Keeps p'.swap key := by
  rcases h with h | ⟨k, ppn, h⟩
  · exact (h.kept key).stored (isDirty_of_absent hf)
  · refine (h.others key ?_).stored (isDirty_of_absent hf)
    rintro rfl
    rw [h.left.was] at hf
    cases hf

/-- A page of an old space comes in without an error if there is a frame for it, lost or not. -/
theorem Remaining.arrives (hr : Remaining p₀ before since p) (h : p.WellFormed none) {pid : Pid}
    {vaddr : VirtAddr} (hkey : key = ⟨pid, vaddr.vpn p.pageSize⟩)
    (hold : renewed key.pid since = false) (hin : p.inBounds key.pid key.vpn = true)
    (hfree : 0 < p.freePages) : ∃ e, (handleMiss pid vaddr p).result = .ok e := by
  obtain ⟨-, -, hends⟩ := handleMiss_ends h hkey
  generalize (handleMiss pid vaddr p).result = r at hends ⊢
  cases r with
  | ok e => exact ⟨e, rfl⟩
  | error cause =>
    obtain ⟨hf, hunresolved⟩ := hends.2 hin
    cases hunresolved with
    | noFrame hnone =>
      obtain ⟨ppn, hppn⟩ := List.exists_mem_of_length_pos hfree
      obtain ⟨hword, hppn⟩ := (h.frames.mem_free ppn).mp hppn
      cases hnone with
      | stays hfull =>
        rw [hfull] at hppn
        cases hppn
      | uncounted hmany => exact absurd hword hmany
    | unread _ hroom hread =>
      have hkeeps := hroom.keeps_of_absent hf
      cases hread with
      | image hpending =>
        have hspace : (p.extent key.pid).isSome = true := by
          rw [inBounds_eq] at hin
          exact Option.isSome_of_any hin
        rw [pendingImage, hkeeps.pending, hr.pending _ hspace, hold, Bool.false_and,
          if_neg Bool.false_ne_true] at hpending
        cases hpending
      | slot hslot =>
        rw [hkeeps.slot, hr.slotless] at hslot
        cases hslot

/-- Closing again changes nothing. -/
theorem Remaining.close (hr : Remaining p₀ before since p) : (Pager.close p).state = p := by
  obtain ⟨-, hclosed⟩ := close_ends p
  rw [hclosed, Pager.closed, Swapper.shut_of_closed hr.closed]

/-! ## Reads after closing -/

/-- Both pages leave, the page of data after it was written to. -/
def leaving : List Event :=
  [.evict ⟨1, 0⟩, .evict ⟨1, 1⟩, .write 1 ⟨4⟩ [7], .miss 1 ⟨0⟩, .miss 1 ⟨4⟩,
    .register 1 3 (some textAndData)]

/-- Both pages come in again, and something else is written to the page of data. -/
def returning : List Event := [.write 1 ⟨5⟩ [5], .miss 1 ⟨0⟩, .miss 1 ⟨4⟩]

theorem inPage_leaving : ∀ event ∈ leaving, event.InPage pair.pageSize := by
  simp only [leaving, List.forall_mem_cons, List.not_mem_nil, false_implies, implies_true, and_true]
  refine ⟨trivial, trivial, ?_, trivial, trivial, trivial⟩
  show 1 ≤ 4
  decide

theorem inPage_returning : ∀ event ∈ returning, event.InPage pair.pageSize := by
  simp only [returning, List.forall_mem_cons, List.not_mem_nil, false_implies, implies_true,
    and_true]
  refine ⟨?_, trivial, trivial⟩
  show 2 ≤ 4
  decide

def shutPair : Pager := (close (pair.after leaving)).state

/-- Reads after the swap was closed, and the marks of the pages. A page that has stayed in memory
and a page of a space that is new hold what was written last, ever; a page that is lost has only
what came since, is never read-only, and comes in without an error. Closing again changes
nothing. -/
theorem delivers_after_close {c : Config} (hc : Created c p) (before later : List Event)
    (hbefore : ∀ event ∈ before, event.InPage p.pageSize)
    (hlater : ∀ event ∈ later, event.InPage p.pageSize)
    (hclose : p₀ = (close (p.after before)).state) (key : PageKey) :
    Delivers (p₀.after later) key (protects p₀ (p₀.after later) (p₀.history later) key)
        (remembered p₀ (p.history before) (p₀.history later) key) ∧
      (renewed key.pid (p₀.history later) = false →
        ∀ vaddr, vaddr.vpn p.pageSize = key.vpn →
          (p₀.after later).inBounds key.pid key.vpn = true →
          0 < (p₀.after later).freePages →
            ∃ e, (handleMiss key.pid vaddr (p₀.after later)).result = .ok e) ∧
      (close (p₀.after later)).state = p₀.after later := by
  obtain ⟨h, -, -, -, hopen⟩ := hc.wellFormed
  obtain ⟨-, hclosed⟩ := close_ends (p.after before)
  rw [hclosed] at hclose
  subst hclose
  have hcoherent := Coherent.after h (.created hc) before hbefore
  have hlasting := lasting_after h before
  have hsize : (p.after before).closed.pageSize = p.pageSize := hlasting.pageSize
  have hopen := hlasting.isOpen.trans hopen
  have hstart := Remaining.of_closed (h.after before) hopen hcoherent
  have h₀ := (h.after before).closed
  have hr := Remaining.after h₀ hstart later (by rwa [hsize])
  refine ⟨hr.delivers (h₀.after later) key, ?_, hr.close⟩
  intro hold vaddr hvpn hin hfree
  refine hr.arrives (h₀.after later) ?_ hold hin hfree
  rw [(lasting_after h₀ later).pageSize, hsize, hvpn]

theorem delivers_after_close_returning :
    ([0, 5] : Bytes) = (List.range 2).map (fun i =>
        expected 4 ⟨1, 1⟩ (0 + i) (remembered shutPair (pair.history leaving)
          (shutPair.history returning) ⟨1, 1⟩)) ∧
      (evictPage ⟨1, 1⟩ (shutPair.after returning)).result = .error .swapClosed ∧
      ∃ e, (handleMiss 1 ⟨4⟩ shutPair).result = .ok e := by
  have hdelivers := (delivers_after_close created_pair leaving returning inPage_leaving
    inPage_returning (rfl : shutPair = _) ⟨1, 1⟩).1
  refine ⟨hdelivers.read ⟨4⟩ 2 [0, 5] (by decide +kernel) (by decide +kernel) (by decide +kernel),
    hdelivers.stays (by decide +kernel), ?_⟩
  exact (delivers_after_close created_pair leaving [] inPage_leaving (List.forall_mem_nil _)
    (rfl : shutPair = _) ⟨1, 1⟩).2.1 rfl ⟨4⟩ (by decide) (by decide +kernel)
      (by decide +kernel)

/-- What was written is gone without an error, and the text can be written to. -/
theorem close_loses_pages :
    expected pair.pageSize ⟨1, 1⟩ 0 (shutPair.history returning ++ pair.history leaving) = 7 ∧
      (read 1 ⟨4⟩ 1 (shutPair.after returning)).result = .ok [0] ∧
      (pair.after leaving).isReadOnly ⟨1, 0⟩ = true ∧
      (write 1 ⟨0⟩ [9] (shutPair.after returning)).result = .ok 1 := by
  decide +kernel

end VirtualMemory.Pager
