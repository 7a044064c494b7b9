import VirtualMemory.Proofs.Pager.Coherence
import VirtualMemory.Proofs.Pager.Consistency
import VirtualMemory.Proofs.TransferExtent

/-!
# Read-only pages stay as their image has them

What comes in from a swap slot is marked writable, whatever section it is of. Still exactly the
pages of read-only sections are marked read-only while the swap is open: such a page refuses every
write, so it never is dirty, so it never gets a slot and stays pending, so it always comes in from
its image.
-/

namespace VirtualMemory.Pager

variable {p : Pager} {key : PageKey} {c : Config}

/-- The page is marked read-only wherever it is known, refuses writes, and comes from its image. -/
structure Protected (p : Pager) (key : PageKey) : Prop where
  entry : ∀ e, p.table.lookup key = some e → e.readOnly = true ∧ e.dirty = false
  slots : ∀ s ∈ p.tlb.slots, s.valid = true → s.page = key →
    s.entry.readOnly = true ∧ s.entry.dirty = false
  slotless : p.swap.slot? key = none
  pending : p.swap.isPending key = true
  untranslated : ∀ vaddr, p.pageOf key.pid vaddr = key →
    (translate key.pid vaddr .write).Ends p fun r p' => (∃ cause, r = .error cause) ∧ Same p p'
  unwritten : ∀ vaddr data, p.pageOf key.pid vaddr = key →
    (write key.pid vaddr data).Ends p fun r p' => (∃ cause, r = .error cause) ∧ Same p p'

/-- Reads that begin in the page deliver what its image has for it. -/
def ReadsImage (p : Pager) (key : PageKey) : Prop :=
  ∀ vaddr length, p.pageOf key.pid vaddr = key → (read key.pid vaddr length).Ends p fun r _ =>
    ∀ data, r = .ok data → ∀ i < data.length, vaddr.offset p.pageSize + i < p.pageSize →
      data.getD i 0 = p.imageByte key (vaddr.offset p.pageSize + i)

/-- Nothing that is known of the page marks it read-only. -/
structure Writable (p : Pager) (key : PageKey) : Prop where
  entry : ∀ e, p.table.lookup key = some e → e.readOnly = false
  slots : ∀ s ∈ p.tlb.slots, s.valid = true → s.page = key → s.entry.readOnly = false

/-! ## What the invariant says of sections -/

theorem WellFormed.slot_fits (h : p.WellFormed none) {s : TlbSlot} (hmem : s ∈ p.tlb.slots)
    (hv : s.valid = true) (hpage : s.page = key) : p.Fits key s.entry := by
  subst hpage
  exact (h.cached _ _ (h.cached_of_slot hmem hv)).1

theorem Fits.protected {e : Entry} (he : p.Fits key e) (hopen : p.swap.isOpen = true)
    (hro : p.isReadOnly key = true) : e.readOnly = true ∧ e.dirty = false := by
  have hmark : e.readOnly = true := (he.readOnly hopen).trans hro
  exact ⟨hmark, he.clean hmark⟩

/-- A write is refused by the mark, if it is not refused before. -/
theorem translate_refused (h : p.WellFormed none) (hopen : p.swap.isOpen = true)
    {pid : Pid} {vaddr : VirtAddr} (hro : p.isReadOnly (p.pageOf pid vaddr) = true) :
    (translate pid vaddr .write).Ends p fun r p' => (∃ cause, r = .error cause) ∧ Same p p' := by
  refine (translate_ends h).imp ?_
  rintro r p' (⟨cause, rfl, hsame⟩ | ⟨e, hc, hallowed, -, -⟩)
  · exact ⟨⟨cause, rfl⟩, hsame⟩
  · obtain ⟨hmark, -⟩ := (h.cached _ e hc).1.protected hopen hro
    rw [hallowed rfl] at hmark
    cases hmark

theorem write_refused (h : p.WellFormed none) (hopen : p.swap.isOpen = true)
    {pid : Pid} {vaddr : VirtAddr} (hro : p.isReadOnly (p.pageOf pid vaddr) = true)
    (data : Bytes) :
    (write pid vaddr data).Ends p fun r p' => (∃ cause, r = .error cause) ∧ Same p p' := by
  simp only [write, Op.ends_bind]
  refine (translate_refused h hopen hro).imp ?_
  rintro r p' ⟨⟨cause, rfl⟩, hsame⟩
  exact ⟨⟨cause, rfl⟩, hsame⟩

theorem WellFormed.protected (h : p.WellFormed none) (hopen : p.swap.isOpen = true)
    (hro : p.isReadOnly key = true) : p.Protected key := by
  have hslotless : p.swap.slot? key = none := by
    cases hslot : p.swap.slot? key with
    | none => rfl
    | some slot =>
      rw [(h.slotted key slot hslot).2 hopen] at hro
      cases hro
  have horigin : (p.origin? key).isSome = true := by
    rw [isReadOnly] at hro
    cases horigin : p.origin? key with
    | none =>
      rw [horigin] at hro
      cases hro
    | some _ => rfl
  constructor
  · intro e he
    exact (h.entries key e he).protected hopen hro
  · intro s hmem hv hpage
    exact (h.slot_fits hmem hv hpage).protected hopen hro
  · exact hslotless
  · exact (h.pending_iff hopen key).mpr ⟨horigin, hslotless⟩
  · intro vaddr hpage
    exact translate_refused h hopen (hpage.symm ▸ hro)
  · intro vaddr data hpage
    exact write_refused h hopen (hpage.symm ▸ hro) data

theorem WellFormed.writable (h : p.WellFormed none) (hopen : p.swap.isOpen = true)
    (hro : p.isReadOnly key = false) : p.Writable key where
  entry := fun e he => ((h.entries key e he).readOnly hopen).trans hro
  slots := fun _ hmem hv hpage => ((h.slot_fits hmem hv hpage).readOnly hopen).trans hro

/-! ## What reads deliver -/

theorem Protected.clean (hp : p.Protected key) (h : p.WellFormed none) : p.isDirty key = false := by
  cases he : p.table.lookup key with
  | none =>
    refine isDirty_of_absent ?_
    rw [h.frame?_eq, he]
    rfl
  | some e =>
    rw [h.isDirty_eq he]
    cases hc : p.tlb.cached key with
    | none => exact (hp.entry e he).2
    | some cached =>
      obtain ⟨s, hmem, hv, hpage, rfl⟩ := (Tlb.cached_eq_some_iff h.distinct).mp hc
      exact (hp.slots s hmem hv hpage).2

/-- The frame of the page is clean, so it agrees with the image that is kept for it. -/
theorem Protected.frameByte (hp : p.Protected key) (h : p.WellFormed none) (hb : p.Backed)
    {ppn : Ppn} (hf : p.frame? key = some ppn) {o : Nat} (ho : o < p.pageSize) :
    p.frameByte ppn o = p.imageByte key o := by
  rw [hb key ppn hf (hp.clean h) o ho, storedByte, if_pos hp.pending]

theorem Protected.readsImage (hp : p.Protected key) (h : p.WellFormed none) (hb : p.Backed) :
    p.ReadsImage key := by
  intro vaddr length hpage
  refine ((h.transfers key.pid vaddr).reads length).imp ?_
  rintro r p' ⟨-, hread⟩ data hdata i hi ho
  obtain ⟨e, he, hfrom⟩ := hread data hdata
  rw [hpage] at he
  have hf := frame?_of_lookupValid he
  rw [hfrom.bytes i hi, ← hp.frameByte h hb hf ho, h.sized.memory]
  rfl

/-! ## Runs -/

/-- Before the swap is closed, exactly the pages of read-only sections are protected, whatever was
evicted, brought back or failed; and they read as their image, unless a write to another page went
on into them. -/
theorem protected_iff_read_only (hc : Created c p) (events : List Event) (key : PageKey) :
    ((p.after events).isReadOnly key = true → (p.after events).Protected key ∧
        ((∀ event ∈ events, event.InPage p.pageSize) → (p.after events).ReadsImage key)) ∧
      ((p.after events).isReadOnly key = false → (p.after events).Writable key) := by
  obtain ⟨h, -, -, -, hopen⟩ := hc.wellFormed
  have h' := h.after events
  have hopen' : (p.after events).swap.isOpen = true :=
    (lasting_after h events).isOpen.trans hopen
  constructor
  · intro hro
    have hp := h'.protected hopen' hro
    refine ⟨hp, ?_⟩
    intro hin
    exact hp.readsImage h' (Coherent.after h (.created hc) events hin).backed
  · exact h'.writable hopen'

theorem inPage_neighbours : ∀ event ∈ neighbours, event.InPage pair.pageSize := by
  simp [neighbours, Event.InPage]

theorem protected_iff_read_only_neighbours :
    (pair.after neighbours).isReadOnly ⟨1, 0⟩ = true ∧
      (pair.after neighbours).isReadOnly ⟨1, 1⟩ = false ∧
      (pair.after neighbours).Protected ⟨1, 0⟩ ∧ (pair.after neighbours).ReadsImage ⟨1, 0⟩ ∧
      (pair.after neighbours).Writable ⟨1, 1⟩ := by
  have htext : (pair.after neighbours).isReadOnly ⟨1, 0⟩ = true := by decide +kernel
  have hdata : (pair.after neighbours).isReadOnly ⟨1, 1⟩ = false := by decide +kernel
  obtain ⟨hprotected, hreads⟩ :=
    (protected_iff_read_only created_pair neighbours ⟨1, 0⟩).1 htext
  exact ⟨htext, hdata, hprotected, hreads inPage_neighbours,
    (protected_iff_read_only created_pair neighbours ⟨1, 1⟩).2 hdata⟩

/-- The text is marked and refuses a write, but a write to the page in front of it changed its
contents, and a read does not deliver what the image has. -/
theorem text_overwritten :
    (pair.after overrun).isReadOnly ⟨1, 0⟩ = true ∧
      (write 1 ⟨0⟩ [9] (pair.after overrun)).result = .error .readOnly ∧
      (pair.after overrun).imageByte ⟨1, 0⟩ 0 = 0 ∧
      (read 1 ⟨0⟩ 1 (pair.after overrun)).result = .ok [9] := by
  decide +kernel

end VirtualMemory.Pager
