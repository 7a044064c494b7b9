import VirtualMemory.Proofs.Pager.FailedFault

/-!
# What a miss changes

A miss that is handled caches an entry again, or brings one page in and, if no frame was free,
takes another one out. `Footprint` says what stays wherever neither page is concerned, and
`MissKind` which of the cases it was. A page that is taken out leaves its frame to the page that
comes in.
-/

namespace VirtualMemory.Pager

variable {p p' p₁ : Pager} {key : PageKey} {ppn : Ppn} {left : Option PageKey} {c : Config}

/-- Page `key` is in frame `ppn` and page `left` is in none. Of the other pages the table has
learned at most what the cache saw, no other frame has changed, and what is kept for a page is kept
on. -/
structure Footprint (p p' : Pager) (key : PageKey) (ppn : Ppn) (left : Option PageKey) : Prop where
  steady : Steady p p'
  entries : ∀ k, k ≠ key → left ≠ some k →
    p'.table.lookup k = p.table.lookup k ∨ p'.table.lookup k = p.merged k
  resident : ∀ k, p'.frame? k =
    if k = key then some ppn else if left = some k then none else p.frame? k
  frames : ∀ q, q ≠ ppn → ∀ o < p.pageSize, p'.frameByte q o = p.frameByte q o
  stored : ∀ k, left ≠ some k → p.swap.Keeps p'.swap k

/-- The bytes of frame `ppn`, and no others, were written to the slot of a page. -/
structure WrittenOut (p p' : Pager) (key : PageKey) (ppn : Ppn) : Prop where
  pagesOut : p'.swap.counters.pagesOut = p.swap.counters.pagesOut + 1
  pending : p'.swap.isPending key = false
  bytes : ∃ slot, p'.swap.slot? key = some slot ∧
    ∀ o < p.pageSize, p'.swap.byte slot o = p.frameByte ppn o

/-- How frame `ppn` was found for page `key`, and which page had to leave. -/
inductive MissKind (p p' : Pager) (key : PageKey) (ppn : Ppn) : Option PageKey → Prop
  | resident (hf : p.frame? key = some ppn) (hframes : p'.frames = p.frames)
      (hmemory : p'.memory = p.memory) (hswap : p'.swap = p.swap) : MissKind p p' key ppn none
  | free (hf : p.frame? key = none) (hfree : p.frames.isFree ppn = true)
      (hswap : Unwritten p p') : MissKind p p' key ppn none
  | evicted {victim : PageKey} (hf : p.frame? key = none)
      (hfull : ∀ q, p.frames.isFree q = false) (hwas : p.frame? victim = some ppn)
      (hclean : p.isDirty victim = false → Unwritten p p')
      (hdirty : p.isDirty victim = true → WrittenOut p p' victim ppn) :
      MissKind p p' key ppn (some victim)

/-! ## The page was resident -/

theorem Retold.frameByte (h : Retold p p') (q : Ppn) (o : Nat) :
    p'.frameByte q o = p.frameByte q o := by
  rw [Pager.frameByte, Pager.frameByte, h.memory, h.still.steady.pageSize]

theorem Retold.footprint (hr : Retold p p') (h : p.WellFormed none)
    (hf : p.frame? key = some ppn) : Footprint p p' key ppn none where
  steady := hr.still.steady
  entries := fun k _ _ => (hr.learned k).entry h
  resident := by
    intro k
    rw [(hr.still.kept k).frame]
    by_cases hk : k = key
    · rw [if_pos hk, hk, hf]
    · simp [hk]
  frames := fun q _ o _ => hr.frameByte q o
  stored := by
    intro k _
    rw [hr.swap]
    exact Swapper.Keeps.refl _ _

/-! ## The page came in -/

theorem footprint_brought (h : p.WellFormed none) (hd : Departed p p₁ left)
    (hmemory : p₁.memory = p.memory) (hlearned : ∀ k, left ≠ some k → Learned p p₁ k)
    (hkeeps : ∀ k, left ≠ some k → p.swap.Keeps p₁.swap k) (hload : Loaded p₁ p' key)
    (hfill : Filled p₁ p' key ppn) (hframe : p'.frame? key = some ppn) :
    Footprint p p' key ppn left := by
  have hsteady := hd.madeRoom.steady
  refine ⟨hsteady.trans hload.steady, ?_, ?_, ?_, ?_⟩
  · intro k hk hleft
    exact ((hlearned k hleft).trans (hfill.learned k hk)).entry h
  · intro k
    by_cases hk : k = key
    · rw [if_pos hk, hk, hframe]
    · rw [if_neg hk, (hload.others k hk).frame, hd.frame?]
  · intro q hq o ho
    rw [hfill.frames q hq o (hsteady.pageSize.symm ▸ ho), frameByte, hmemory, hsteady.pageSize]
    rfl
  · intro k hleft
    exact (hkeeps k hleft).trans (hfill.swap.keeps k) hsteady.swapSize

/-- The frame of the page that came in was nobody's, or that of the page that left. -/
theorem Footprint.was (hm : Footprint p p' key ppn left) (h : p.WellFormed none)
    (h' : p'.WellFormed none) (hf : p.frame? key = none) :
    p.frames.isFree ppn = true ∨ ∃ k, left = some k ∧ p.frame? k = some ppn := by
  have hframe : p'.frame? key = some ppn := (hm.resident key).trans (if_pos rfl)
  have hlt : ppn.toNat < p.frames.total := hm.steady.total ▸ h'.lt_of_frame? hframe
  by_cases hused : ∃ k, p.frame? k = some ppn
  · obtain ⟨k, hk⟩ := hused
    have hne : k ≠ key := by
      rintro rfl
      rw [hf] at hk
      cases hk
    refine Or.inr ⟨k, ?_, hk⟩
    by_contra hleft
    -- the page would still be there, and share the frame
    have hstays : p'.frame? k = some ppn := by
      rw [hm.resident, if_neg hne, if_neg hleft, hk]
    have howner := h'.owner_of_frame? hstays
    rw [h'.owner_of_frame? hframe] at howner
    exact hne (Option.some.inj howner).symm
  · exact Or.inl (h.isFree_iff.mpr ⟨hlt, fun k hk => hused ⟨k, hk⟩⟩)

/-- Whether a page has to leave is decided by the free frames alone. -/
theorem FoundRoom.kind (hroom : FoundRoom p p₁) (h : p.WellFormed none) (h' : p'.WellFormed none)
    (hf : p.frame? key = none) (hframe : p'.frame? key = some ppn) (hload : Loaded p₁ p' key)
    (hfill : Filled p₁ p' key ppn) :
    ∃ left, Footprint p p' key ppn left ∧ MissKind p p' key ppn left := by
  cases hroom with
  | free hfree hretold =>
    have hm : Footprint p p' key ppn none :=
      footprint_brought h hretold.still hretold.memory (fun k _ => hretold.learned k)
        (fun k _ => hretold.swap ▸ Swapper.Keeps.refl _ _) hload hfill hframe
    refine ⟨none, hm, .free hf ?_ ?_⟩
    · rcases hm.was h h' hf with hppn | ⟨k, hk, -⟩
      · exact hppn
      · cases hk
    · rw [Unwritten, ← hretold.swap]
      exact hfill.swap
  | @evicted victim q hfull hout hspared =>
    have hne : ∀ k, some victim ≠ some k → k ≠ victim := by
      rintro k hk rfl
      exact hk rfl
    have hm : Footprint p p' key ppn (some victim) :=
      footprint_brought h ⟨q, hout⟩ hspared.memory (fun k hk => hspared.learned k (hne k hk))
        (fun k hk => hspared.swap.others k (hne k hk)) hload hfill hframe
    have hwas : p.frame? victim = some ppn := by
      rcases hm.was h h' hf with hppn | ⟨k, hk, hwas⟩
      · rw [hfull] at hppn
        cases hppn
      · obtain rfl := Option.some.inj hk
        exact hwas
    obtain rfl : q = ppn := Option.some.inj (hout.left.was.symm.trans hwas)
    refine ⟨some victim, hm, .evicted hf hfull hwas ?_ ?_⟩
    · intro hd
      rw [Unwritten, ← hspared.clean hd]
      exact hfill.swap
    · intro hd
      obtain ⟨hpending, slot, hslot, hbytes⟩ := hout.left.dirty hd
      have hkeeps := hfill.swap.keeps victim
      refine ⟨?_, hkeeps.pending.trans hpending, slot, hkeeps.slot.trans hslot, ?_⟩
      · rw [hload.pagesOut, hout.pagesOut, hd, Bool.toNat_true]
      · intro o ho
        rw [hkeeps.bytes slot hslot o ?_, hbytes o ho]
        rw [hout.steady.swapSize, h.sized.swap]
        exact ho

/-- A miss that is handled changes what it must and nothing else, whichever page is drawn to leave
and wherever the page comes from. -/
theorem handled_miss_exact {pid : Pid} {vaddr : VirtAddr} {e : Entry} (hreached : Reached c p)
    (hok : (handleMiss pid vaddr p).result = .ok e) :
    ∃ left, Footprint p (handleMiss pid vaddr p).state (p.pageOf pid vaddr) e.ppn left ∧
      MissKind p (handleMiss pid vaddr p).state (p.pageOf pid vaddr) e.ppn left := by
  have h := hreached.wellFormed
  obtain ⟨h', -, hr⟩ := handleMiss_ends h (rfl : p.pageOf pid vaddr = _)
  rw [hok] at hr
  obtain ⟨-, hlookup, hresolved⟩ := hr
  cases hresolved with
  | resident hf hretold hframes =>
    exact ⟨none, hretold.footprint h hf,
      .resident hf hframes hretold.memory hretold.swap⟩
  | brought hf hroom hload hfill =>
    exact hroom.kind h h' hf (h'.frame?_of_lookup hlookup) hload hfill

theorem handled_miss_exact_firstWrite :
    (handleMiss 1 ⟨4⟩ (small.after firstWrite)).result =
        .ok ⟨1, 0, { valid := true, used := true }⟩ ∧
      ∃ left,
        Footprint (small.after firstWrite) (handleMiss 1 ⟨4⟩ (small.after firstWrite)).state
          ⟨1, 1⟩ 0 left ∧
        MissKind (small.after firstWrite) (handleMiss 1 ⟨4⟩ (small.after firstWrite)).state
          ⟨1, 1⟩ 0 left := by
  have hok : (handleMiss 1 ⟨4⟩ (small.after firstWrite)).result =
      .ok ⟨1, 0, { valid := true, used := true }⟩ := by decide +kernel
  exact ⟨hok, handled_miss_exact ((Reached.created created_small).after firstWrite) hok⟩

end VirtualMemory.Pager
