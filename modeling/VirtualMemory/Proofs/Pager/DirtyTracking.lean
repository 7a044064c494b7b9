import VirtualMemory.Proofs.Pager.Closing

/-!
# Dirty pages are the written ones

The dirty bit of a page is set in its cache slot, and reaches the table when the slot is flushed: by
another page that needs it, by an eviction, or when the process leaves the processor. No flush loses
it and none makes it up. So a page that leaves is written to swap just when it was written to since
it came in.
-/

namespace VirtualMemory.Pager

variable {p p' : Pager} {key : PageKey} {event : Event} {answer : Answer} {ppn : Ppn}

/-! ## What a run wrote -/

/-- The step is the miss that made the page resident. -/
def Step.brings (s : Step) (key : PageKey) : Bool :=
  match s.event with
  | .miss pid vaddr =>
    key == s.before.pageOf pid vaddr && (s.before.frame? key).isNone && (s.after.frame? key).isSome
  | _ => false

/-- The step is a write to the page, or a translation for one, that succeeded. -/
def Step.writes (s : Step) (key : PageKey) : Bool :=
  match s.event, s.answer with
  | .translate pid vaddr .write, .translated (.ok _) => key == s.before.pageOf pid vaddr
  | .write pid vaddr _, .written (.ok _) => key == s.before.pageOf pid vaddr
  | _, _ => false

/-- The page was written to since it came in, by these steps, the latest first. -/
def writtenSince (key : PageKey) : List Step → Bool
  | [] => false
  | s :: past => if s.brings key then false else s.writes key || writtenSince key past

/-! ## One step -/

/-- How the dirty bits look after a step, from those before it. -/
def Dirties (s : Step) (key : PageKey) : Prop :=
  (s.after.frame? key).isSome = true →
    (s.brings key = true ∧ s.after.isDirty key = false) ∨
      (s.brings key = false ∧ (s.before.frame? key).isSome = true ∧
        s.after.isDirty key = (s.writes key || s.before.isDirty key))

/-- A page that stays where it is was not brought in. -/
theorem brings_of_frame (s : Step) (h : s.after.frame? key = s.before.frame? key) :
    s.brings key = false := by
  unfold Step.brings
  split
  · rw [h]
    cases s.before.frame? key <;> simp
  · rfl

theorem dirties_of_kept {s : Step} (h : Kept s.before s.after key) (hw : s.writes key = false) :
    Dirties s key := by
  intro hres
  exact Or.inr ⟨brings_of_frame s h.frame, h.frame ▸ hres, by rw [h.dirty, hw, Bool.false_or]⟩

theorem dirties_of_accessed {s : Step} {page : PageKey} {access : Access}
    (h : Accessed s.before s.after page access)
    (hw : s.writes key = (decide (key = page) && decide (access = .write))) : Dirties s key := by
  intro hres
  refine Or.inr ⟨brings_of_frame s (h.frame key), h.frame key ▸ hres, ?_⟩
  rw [h.dirty, hw, Bool.or_comm]

theorem writes_of_idle {s : Step} (hidle : s.event.Idle s.answer) : s.writes key = false := by
  unfold Step.writes
  split
  next hevent hanswer =>
    rw [hevent, hanswer] at hidle
    exact hidle.elim
  next hevent hanswer =>
    rw [hevent, hanswer] at hidle
    exact hidle.elim
  next => rfl

/-- A page that is resident after room was made stayed where it was. -/
theorem MadeRoom.kept (h : MadeRoom p p') (hres : (p'.frame? key).isSome = true) :
    Kept p p' key := by
  rcases h with h | ⟨k, ppn, h⟩
  · exact h.kept key
  · refine h.others key ?_
    rintro rfl
    rw [h.left.gone] at hres
    cases hres

theorem Effect.dirties (he : Effect p event answer p') (h : p'.WellFormed none) (key : PageKey) :
    Dirties ⟨p, event, answer, p'⟩ key := by
  cases he with
  | idle hidle hs => exact dirties_of_kept (hs.kept key) (writes_of_idle hidle)
  | registered hnew => exact fun hres => Or.inr ⟨rfl, hres, rfl⟩
  | @loaded pid vaddr e p₁ _ habsent hroom hl =>
    intro hres
    by_cases hk : key = p.pageOf pid vaddr
    · left
      have hnone : p.frame? key = none := hk ▸ habsent
      refine ⟨?_, hk ▸ hl.clean⟩
      simp only [Step.brings, hnone, hres, ← hk, beq_self_eq_true, Option.isNone_none,
          Bool.and_self]
    · have hkept := hl.others key hk
      have hroom : Kept p p₁ key := hroom.kept (hkept.frame ▸ hres)
      refine Or.inr ⟨?_, hroom.frame ▸ hkept.frame ▸ hres, ?_⟩
      · simp only [Step.brings, beq_eq_false_iff_ne.mpr hk, Bool.false_and]
      · exact hkept.dirty.trans hroom.dirty
  | unresolved hroom => exact fun hres => dirties_of_kept (hroom.kept hres) rfl hres
  | @translated pid vaddr access paddr _ ha _ =>
    refine dirties_of_accessed ha ?_
    cases access with
    | read => exact (Bool.and_false _).symm
    | write => exact (Bool.and_true _).symm
  | read ha _ => exact dirties_of_accessed ha (Bool.and_false _).symm
  | written ha _ => exact dirties_of_accessed ha (Bool.and_true _).symm
  | @evicted k ppn _ hev _ =>
    intro hres
    have hk : key ≠ k := by
      rintro rfl
      rw [hev.left.gone] at hres
      cases hres
    exact dirties_of_kept (hev.others key hk) rfl hres
  | @tornDown pid _ hel hgone =>
    intro hres
    have hk : key.pid ≠ pid := by
      rintro rfl
      obtain ⟨ppn, hframe⟩ := Option.isSome_iff_exists.mp hres
      have hspace := h.space_of_frame? hframe
      rw [hgone] at hspace
      cases hspace
    exact dirties_of_kept (hel.kept key hk) rfl hres
  | swapFaults => exact dirties_of_kept ((undisturbed_withSwapFaults p _).kept key) rfl
  | imageFaults => exact dirties_of_kept ((undisturbed_withImageFaults p _ _).kept key) rfl

/-! ## Runs -/

/-- The steps of these actions, the latest first. Closing the swap makes none. -/
def historyAll (p : Pager) : List Action → List Step
  | [] => []
  | .event event :: past => (p.afterAll past).stepOf event :: p.historyAll past
  | .close :: past => p.historyAll past

/-- The dirty resident pages are those that these steps wrote to since they came in. -/
def DirtyExact (past : List Step) (p : Pager) : Prop :=
  ∀ key, (p.frame? key).isSome = true → p.isDirty key = writtenSince key past

theorem DirtyExact.stepOf {past : List Step} (hd : DirtyExact past p) (h : p.WellFormed none)
    (event : Event) : DirtyExact (p.stepOf event :: past) (p.stepOf event).after := by
  obtain ⟨h', he⟩ := h.stepOf event
  intro key hres
  rcases he.dirties h' key hres with ⟨hbrings, hclean⟩ | ⟨hbrings, hbefore, hdirty⟩
  · have hbrings : (p.stepOf event).brings key = true := hbrings
    rw [writtenSince, if_pos hbrings]
    exact hclean
  · have hbrings : (p.stepOf event).brings key = false := hbrings
    rw [writtenSince, hbrings, if_neg Bool.false_ne_true, ← hd key hbefore]
    exact hdirty

/-- Closing the swap flushes no page and marks none. -/
theorem DirtyExact.closed {past : List Step} (hd : DirtyExact past p) : DirtyExact past p.closed :=
  hd

theorem DirtyExact.afterAll (h : p.WellFormed none) (hnone : ∀ key, p.frame? key = none)
    (actions : List Action) : DirtyExact (p.historyAll actions) (p.afterAll actions) := by
  induction actions with
  | nil =>
    intro key hres
    rw [show (p.afterAll []).frame? key = none from hnone key] at hres
    cases hres
  | cons action past ih =>
    cases action with
    | event event => exact ih.stepOf (h.afterAll past) event
    | close =>
      rw [Pager.afterAll, act_close]
      exact ih.closed

theorem WellFormed.isDirty_iff {held : Option Ppn} (h : p.WellFormed held) {e : Entry}
    (he : p.table.lookupValid key = some e) :
    p.isDirty key = true ↔ e.dirty = true ∨
      ∃ s ∈ p.tlb.slots, s.valid = true ∧ s.page = key ∧ s.entry.dirty = true := by
  rw [isDirty, he, Option.any_some, Bool.or_eq_true]
  refine or_congr Iff.rfl ?_
  rw [Option.any_eq_true]
  constructor
  · rintro ⟨c, hc, hdirty⟩
    obtain ⟨s, hmem, hv, hpage, rfl⟩ := (Tlb.cached_eq_some_iff h.distinct).mp hc
    exact ⟨s, hmem, hv, hpage, hdirty⟩
  · rintro ⟨s, hmem, hv, hpage, hdirty⟩
    exact ⟨s.entry, (Tlb.cached_eq_some_iff h.distinct).mpr ⟨s, hmem, hv, hpage, rfl⟩, hdirty⟩

/-! ## Pages that leave -/

/-- Events in which pages leave for others, or because they are told to. -/
def Event.Evicts : Event → Prop
  | .evict _ => True
  | .miss _ _ => True
  | _ => False

/-- Page `key` left frame `ppn`, and was written to its swap slot if `written`, and only then. -/
structure SwappedOut (p p' : Pager) (key : PageKey) (ppn : Ppn) (written : Bool) : Prop where
  pagesOut : p'.swap.counters.pagesOut = p.swap.counters.pagesOut + written.toNat
  slot : written = true → ∃ slot, p'.swap.slot? key = some slot ∧
    ∀ o < p.pageSize, p'.swap.byte slot o = p.frameByte ppn o
  kept : written = false → p.swap.Keeps p'.swap key

theorem Left.swappedOut (h : Left p p' key ppn)
    (hout : p'.swap.counters.pagesOut = p.swap.counters.pagesOut + (p.isDirty key).toNat) :
    SwappedOut p p' key ppn (p.isDirty key) :=
  ⟨hout, fun hd => (h.dirty hd).2, h.clean⟩

theorem MadeRoom.evicted (h : MadeRoom p p') (hf : p.frame? key = some ppn)
    (hgone : p'.frame? key = none) : Evicted p p' key ppn := by
  rcases h with h | ⟨k, q, h⟩
  · rw [(h.kept key).frame, hf] at hgone
    cases hgone
  · by_cases hk : key = k
    · subst hk
      rw [h.left.was] at hf
      obtain rfl := Option.some.inj hf
      exact h
    · rw [(h.others key hk).frame, hf] at hgone
      cases hgone

theorem Effect.swappedOut (he : Effect p event answer p') (h : p.WellFormed none)
    (hev : event.Evicts) (hf : p.frame? key = some ppn) (hgone : p'.frame? key = none) :
    SwappedOut p p' key ppn (p.isDirty key) := by
  cases he with
  | idle _ hs =>
    rw [(hs.kept key).frame, hf] at hgone
    cases hgone
  | @loaded pid vaddr e p₁ _ habsent hroom hl =>
    have hk : key ≠ p.pageOf pid vaddr := by
      rintro rfl
      rw [habsent] at hf
      cases hf
    have hkept := hl.others key hk
    have hout := hroom.evicted hf (hkept.frame ▸ hgone)
    exact (hout.left.kept hkept hout.steady h.sized.swap).swappedOut
      (hl.pagesOut.trans hout.pagesOut)
  | unresolved hroom =>
    have hout := hroom.evicted hf hgone
    exact hout.left.swappedOut hout.pagesOut
  | @evicted k q _ hout _ =>
    have hout := MadeRoom.evicted (Or.inr ⟨k, q, hout⟩) hf hgone
    exact hout.left.swappedOut hout.pagesOut
  | registered => exact hev.elim
  | translated => exact hev.elim
  | read => exact hev.elim
  | written => exact hev.elim
  | tornDown => exact hev.elim
  | swapFaults => exact hev.elim
  | imageFaults => exact hev.elim

/-- An eviction that answers a frame took the page out of it; a clean page leaves swap as it was. -/
theorem evict_answer (h : p.WellFormed none)
    (ha : (p.stepOf (.evict key)).answer = .evicted (.ok ppn)) :
    p.frame? key = some ppn ∧ (p.stepOf (.evict key)).after.frame? key = none ∧
      (p.isDirty key = false → (p.stepOf (.evict key)).after.swap = p.swap) := by
  obtain ⟨-, he⟩ := h.stepOf (.evict key)
  rw [ha] at he
  cases he with
  | idle hidle _ => exact hidle.elim
  | evicted hout hclean => exact ⟨hout.left.was, hout.left.gone, hclean⟩

/-- A resident page is dirty just when it was written to since it came in, and it is written to swap
on its way out just then. The swap may have been closed meanwhile. -/
theorem dirty_iff_written {c : Config} (hc : Created c p) (actions : List Action) (key : PageKey) :
    (∀ e, (p.afterAll actions).table.lookupValid key = some e →
      ((e.dirty = true ∨ ∃ s ∈ (p.afterAll actions).tlb.slots,
          s.valid = true ∧ s.page = key ∧ s.entry.dirty = true) ↔
        writtenSince key (p.historyAll actions) = true)) ∧
    (∀ event ppn, event.Evicts → (p.afterAll actions).frame? key = some ppn →
      (p.afterAll (.event event :: actions)).frame? key = none →
      SwappedOut (p.afterAll actions) (p.afterAll (.event event :: actions)) key ppn
        (writtenSince key (p.historyAll actions))) ∧
    (∀ ppn, ((p.afterAll actions).stepOf (.evict key)).answer = .evicted (.ok ppn) →
      (p.afterAll actions).frame? key = some ppn ∧
      (p.afterAll (.event (.evict key) :: actions)).frame? key = none ∧
      (writtenSince key (p.historyAll actions) = false →
        (p.afterAll (.event (.evict key) :: actions)).swap = (p.afterAll actions).swap)) := by
  obtain ⟨h, -, hnone, -⟩ := hc.wellFormed
  have h' := h.afterAll actions
  have hexact := DirtyExact.afterAll h hnone actions key
  refine ⟨?_, ?_, ?_⟩
  · intro e he
    have hres : ((p.afterAll actions).frame? key).isSome = true := by
      rw [frame?, he]
      rfl
    rw [← h'.isDirty_iff he, hexact hres]
  · intro event ppn hev hf hgone
    rw [← hexact (Option.isSome_of_eq_some hf)]
    exact (h'.stepOf event).2.swappedOut h' hev hf hgone
  · intro ppn ha
    obtain ⟨hf, hgone, hclean⟩ := evict_answer h' ha
    rw [← hexact (Option.isSome_of_eq_some hf)]
    exact ⟨hf, hgone, hclean⟩

def writtenOnce : List Action := firstWrite.map .event

theorem dirty_iff_written_firstWrite :
    (small.afterAll writtenOnce).frame? ⟨1, 0⟩ = some 0 ∧
      (small.afterAll (.event (.miss 1 ⟨4⟩) :: writtenOnce)).frame? ⟨1, 0⟩ = none ∧
      SwappedOut (small.afterAll writtenOnce) (small.afterAll (.event (.miss 1 ⟨4⟩) :: writtenOnce))
        ⟨1, 0⟩ 0 (writtenSince ⟨1, 0⟩ (small.historyAll writtenOnce)) := by
  have hbefore : (small.afterAll writtenOnce).frame? ⟨1, 0⟩ = some 0 := by decide +kernel
  have hafter : (small.afterAll (.event (.miss 1 ⟨4⟩) :: writtenOnce)).frame? ⟨1, 0⟩ = none := by
    decide +kernel
  exact ⟨hbefore, hafter, (dirty_iff_written created_small writtenOnce ⟨1, 0⟩).2.1
    (.miss 1 ⟨4⟩) 0 trivial hbefore hafter⟩

/-- A dirty page stays where it is once the swap is closed. -/
example : (small.afterAll (.event (.miss 1 ⟨4⟩) :: .close :: writtenOnce)).frame? ⟨1, 0⟩ = some 0 ∧
    writtenSince ⟨1, 0⟩ (small.historyAll (.event (.miss 1 ⟨4⟩) :: .close :: writtenOnce)) =
      true := by
  decide +kernel

end VirtualMemory.Pager
