import VirtualMemory.Proofs.Maintained
import VirtualMemory.Proofs.Pager.Consistency
import VirtualMemory.Proofs.Pager.Teardown

/-!
# The flow of pages

A page comes into memory from its image, from swap or as zeros, and goes by an eviction or with its
space. Each of these is counted, at different places of operations that may fail in between. The
books are balanced all the same: `Balanced` relates the counters to the free frames, and says in
`Open` what an operation under way has still to settle. Each operation moves what is open as far as
it got, and between two operations only what space and faults have cost is left:
`page_flow_conserved`.
-/

namespace VirtualMemory

open Op

/-! ## What swap counts -/

namespace Swapper

variable {s : Swapper} {key : PageKey}

/-- A write is counted if it succeeds. -/
theorem write_counts (s : Swapper) (key : PageKey) (page : Bytes) :
    (write key page).Ends s fun r s' =>
      match r with
      | .ok _ => s'.counters = { s.counters with pagesOut := s.counters.pagesOut + 1 }
      | .error _ => s'.counters = s.counters := by
  have hslot := counters_allocateSlot s key
  refine (write_written s key page).imp ?_
  intro r s' hw
  cases hw with
  | misfit => exact rfl
  | closed => exact rfl
  | failed => exact hslot
  | stored => simp only [countPageOut, writing, hslot]

/-- A read of a page that has a slot is counted if it succeeds, and is no untracked read. -/
theorem readInto_counts {slot : Nat} (hslot : s.slot? key = some slot) (length : Nat) :
    (readInto key length).Ends s fun r s' =>
      match r with
      | .ok _ => s'.counters = { s.counters with pagesIn := s.counters.pagesIn + 1 }
      | .error _ => s'.counters = s.counters := by
  refine (readInto_delivered s key length).imp ?_
  intro r s' hd
  cases hd with
  | misfit => exact rfl
  | closed => exact rfl
  | untracked _ _ hnone =>
    rw [hslot] at hnone
    cases hnone
  | failed => exact rfl
  | loaded => exact rfl

theorem counters_releaseProcess (s : Swapper) (pid : Pid) :
    (s.releaseProcess pid).counters = s.counters :=
  (sameFile_freeAll _ _).counters

theorem counters_shut (s : Swapper) : s.shut.counters = s.counters := by
  unfold shut
  split <;> rfl

end Swapper

namespace Pager

variable {p p' : Pager} {key : PageKey} {ppn : Ppn} {pid : Pid} {ε α : Type}

/-! ## The books -/

def arrivals (p : Pager) : Nat := p.stats.imageLoads + p.stats.swapIns + p.stats.zeroFills

structure Open where
  /-- Frames that were taken for a page that has not come in. -/
  held : Nat := 0
  /-- Pages that were written to swap and have not left. -/
  written : Nat := 0
  /-- Misses that have not become a fault. -/
  missed : Nat := 0
  /-- Pages that went with their space. -/
  released : Nat := 0
  /-- Faults whose page has not come in. -/
  unresolved : Nat := 0

structure Balanced (o : Open) (p : Pager) : Prop where
  frames : p.arrivals + p.freePages + o.held =
    p.frames.counted + p.stats.evictions + o.released
  faults : p.stats.pageFaults = p.arrivals + o.unresolved
  misses : p.stats.pageFaults + o.missed ≤ p.stats.tlbMisses
  written : p.stats.swapOuts ≤ p.stats.evictions + o.written
  swapIns : p.stats.swapIns = p.swap.counters.pagesIn
  swapOuts : p.stats.swapOuts = p.swap.counters.pagesOut
  tracked : p.swap.counters.untracked = 0

variable {o : Open}

/-- Swap that counted nothing leaves the books as they are. -/
theorem Balanced.reswapped (h : p.Balanced o) {s : Swapper} (hs : s.counters = p.swap.counters) :
    ({ p with swap := s } : Pager).Balanced o :=
  { h with
    swapIns := h.swapIns.trans (congrArg SwapCounters.pagesIn hs).symm
    swapOuts := h.swapOuts.trans (congrArg SwapCounters.pagesOut hs).symm
    tracked := (congrArg SwapCounters.untracked hs).trans h.tracked }

/-! ## Operations that are not in the books -/

theorem balances_onTable (x : Op PageTable ε α) :
    Maintains (Balanced o) (fun _ => True) (Op.on tablePart x) :=
  fun _ h => ⟨{ h with }, fun _ _ => trivial⟩

theorem balances_mergeBack (key : PageKey) (entry : Entry) (unmapped : Notice) :
    Maintains (Balanced o) (fun _ => True) (mergeBack key entry unmapped) := by
  refine .bind (balances_onTable _).attempt fun r _ => ?_
  split
  · exact .notify _
  · exact .pure trivial

theorem balances_flushSlot (index : Nat) :
    Maintains (Balanced o) (fun _ => True) (flushSlot index) := by
  refine .bind (A := fun _ => True) (.modifyGet fun p h => ⟨{ h with }, trivial⟩) fun old _ => ?_
  split
  · exact balances_mergeBack _ _ _
  · exact .pure trivial

theorem balances_refill (pid : Pid) (entry : Entry) :
    Maintains (Balanced o) (fun _ => True) (refill pid entry) := by
  have hchoose : Maintains (Balanced o) (fun _ => True) chooseSlot := by
    refine .modifyGet fun p h => ?_
    split
    · exact ⟨h, trivial⟩
    · exact ⟨{ h with }, trivial⟩
  refine .get fun p _ => ?_
  split
  · exact .pure trivial
  · split
    · exact .bind (.notify _) fun _ _ => .pure trivial
    · refine .bind hchoose fun index _ => .bind (balances_flushSlot index) fun _ _ => ?_
      exact .modify fun p h => { h with }

theorem balances_saveContext (pid : Pid) :
    Maintains (Balanced o) (fun _ => True) (saveContext pid) := by
  refine .bind (A := fun _ => True) (.modifyGet fun p h => ⟨{ h with }, trivial⟩) ?_
  intro flushed _
  refine .bind (.forM fun e _ => balances_mergeBack _ _ _) fun _ _ => ?_
  refine .bind (.modify fun p h => { h with }) fun _ _ => ?_
  exact .modify fun p h => { h with }

theorem balances_reinstall (pid : Pid) (saved : Entry) :
    Maintains (Balanced o) (fun _ => True) (reinstall pid saved) := by
  refine .get fun p _ => ?_
  split
  · split
    · exact balances_refill _ _
    · exact .pure trivial
  · exact .pure trivial

theorem balances_restoreContext (pid : Pid) :
    Maintains (Balanced o) (fun _ => True) (restoreContext pid) := by
  refine .get fun p _ => ?_
  split
  · refine .bind (.modify fun p h => { h with }) fun _ _ => ?_
    exact .forM fun saved _ => balances_reinstall _ _
  · exact .pure trivial

theorem balances_registerSpace (pid : Pid) (numPages : Nat) (image : Option ImageIndex) :
    Maintains (Balanced o) (fun _ => True) (registerSpace pid numPages image) := by
  intro p h
  refine (registerSpace_ends p pid numPages image).imp ?_
  rintro (e | done) p' hr
  · obtain ⟨-, rfl⟩ := hr
    exact ⟨h, fun _ _ => trivial⟩
  · obtain ⟨-, rfl⟩ := hr
    have hcounters := (Swapper.sameSlots_markAll p.swap (covered pid image)).counters
    exact ⟨{ h.reswapped hcounters with }, fun _ _ => trivial⟩

theorem balances_translate (pid : Pid) (vaddr : VirtAddr) (access : Access) :
    Maintains (Balanced o) (fun _ => True) (Pager.translate pid vaddr access) := by
  refine .get fun p _ => ?_
  dsimp only
  split
  · exact .throw _
  · exact fun _ h => ⟨{ h with }, fun _ _ => trivial⟩

theorem balances_read (pid : Pid) (vaddr : VirtAddr) (length : Nat) :
    Maintains (Balanced o) (fun _ => True) (Pager.read pid vaddr length) :=
  .bind (balances_translate pid vaddr .read) fun _ _ => .get fun _ _ => .pure trivial

theorem balances_write (pid : Pid) (vaddr : VirtAddr) (data : Bytes) :
    Maintains (Balanced o) (fun _ => True) (Pager.write pid vaddr data) :=
  .bind (balances_translate pid vaddr .write) fun _ _ =>
    .modifyGet fun _ h => ⟨{ h with }, trivial⟩

/-! ## A page leaves -/

/-- A frame that was taken is held until a page is in it. -/
theorem takeFrame_balanced (h : p.Balanced o) :
    (takeFrame : Op Pager ε (Option Ppn)).Ends p fun r p' =>
      match r with
      | .ok (some _) => p'.Balanced { o with held := o.held + 1 }
      | .ok none => p'.Balanced o
      | .error _ => False := by
  rw [takeFrame, ends_modifyGet]
  cases hfree : p.frames.free with
  | nil =>
    rw [Frames.acquire_nil hfree]
    exact { h with }
  | cons ppn rest =>
    rw [Frames.acquire_cons hfree]
    refine { h with frames := ?_ }
    have hframes := h.frames
    rw [freePages, Frames.freeCount, hfree, List.length_cons] at hframes
    show p.arrivals + rest.length + (o.held + 1) =
      (p.frames.without ppn rest).counted + p.stats.evictions + o.released
    rw [Frames.counted_without]
    omega

theorem writeOut_balanced (h : p.Balanced o) (key : PageKey) (ppn : Ppn) :
    (writeOut key ppn).Ends p fun r p' =>
      match r with
      | .ok _ => p'.Balanced { o with written := o.written + 1 }
      | .error _ => p'.Balanced o := by
  simp only [writeOut, ends_bind, ends_get, ends_ofExcept]
  cases p.memory.readPage ppn p.pageSize with
  | error e => exact h
  | ok page =>
    simp only [ends_on]
    refine (Swapper.write_counts p.swap key page).imp ?_
    rintro (e | slot) s hs
    · exact h.reswapped hs
    · refine { h with written := ?_, swapIns := ?_, swapOuts := ?_, tracked := ?_ }
      · exact Nat.add_le_add_right h.written 1
      · exact h.swapIns.trans (congrArg SwapCounters.pagesIn hs).symm
      · exact (congrArg (· + 1) h.swapOuts).trans (congrArg SwapCounters.pagesOut hs).symm
      · exact (congrArg SwapCounters.untracked hs).trans h.tracked

/-- A frame that comes back is free, whoever had it. -/
theorem Balanced.withFree (h : p.Balanced { o with held := o.held + 1 }) (ppn : Ppn) :
    ({ p with frames := p.frames.withFree ppn } : Pager).Balanced o := by
  refine { h with frames := ?_ }
  have hframes := h.frames
  show p.arrivals + (p.frames.free ++ [ppn]).length + o.held =
    (p.frames.withFree ppn).counted + p.stats.evictions + o.released
  rw [freePages, Frames.freeCount] at hframes
  rw [Frames.counted_withFree, List.length_append, List.length_singleton]
  simp only at hframes
  omega

/-- An eviction that is counted covers a page that was written. -/
theorem Balanced.evicted (h : p.Balanced { o with written := o.written + 1 }) :
    ({ p with stats := p.stats.add 1 .evictions } : Pager).Balanced
      { o with held := o.held + 1 } := by
  have hframes := h.frames
  have hwritten := h.written
  refine { h with frames := ?_, written := ?_ }
  · show p.arrivals + p.freePages + (o.held + 1) =
      p.frames.counted + (p.stats.evictions + 1) + o.released
    simp only at hframes
    omega
  · show p.stats.swapOuts ≤ p.stats.evictions + 1 + o.written
    simp only at hwritten
    omega

/-- A clean page leaves without being written. -/
theorem Balanced.unwritten (h : p.Balanced o) : p.Balanced { o with written := o.written + 1 } :=
  { h with written := Nat.le_succ_of_le h.written }

theorem vacate_balanced (h : p.WellFormed none) {e : Entry} (he : p.table.lookup key = some e)
    (hc : p.tlb.cached key = none) (hb : p.Balanced { o with written := o.written + 1 }) :
    (vacate key e.ppn).Ends p fun _ p' => p'.Balanced o := by
  simp only [vacate, ends_bind, ends_on tablePart]
  refine (PageTable.remove_of_valid he (h.entries key e he).valid).imp ?_
  rintro r t ⟨rfl, rfl⟩
  refine (release_held (h.detach he hc)).imp ?_
  rintro r p₂ ⟨rfl, -, rfl, -⟩
  have hout : (p.detach key e.ppn).Balanced { o with written := o.written + 1 } := { hb with }
  simp only [count, ends_modify, ends_pure]
  exact hout.evicted.withFree e.ppn

/-- An eviction balances its books, whether it fails or not. -/
theorem evictPage_balanced (h : p.WellFormed none) (hb : p.Balanced o) (key : PageKey) :
    (evictPage key).Ends p fun _ p' => p'.Balanced o := by
  simp only [evictPage, ends_bind]
  refine (flushPage_ends h key).imp ?_
  rintro r p₁ ⟨rfl, t, c, hrec, hnone, rfl⟩
  have h₁ := hrec.wellFormed h
  have hb₁ : (p.recache t c).Balanced o := { hb with }
  simp only [ends_get, h₁.lookupValid]
  cases he : (p.recache t c).table.lookup key with
  | none => exact hb₁
  | some e =>
    simp only [ends_ite]
    split
    next hdirty =>
      rw [ends_bind]
      refine ((writeOut_ends h₁ key (h₁.ppn_lt he)).and (writeOut_balanced hb₁ key e.ppn)).imp ?_
      rintro (cause | done) p₂ ⟨⟨s, ht, hsame, -⟩, hb₂⟩
      · exact hb₂
      · obtain ⟨h₂, he₂⟩ := h₁.transferred he hdirty ht hsame
        exact vacate_balanced h₂ he₂ ((hsame.cached key).trans hnone) hb₂
    next => exact vacate_balanced h₁ he hnone hb₁.unwritten

theorem evictOne_balanced (h : p.WellFormed none) (hb : p.Balanced o) :
    evictOne.Ends p fun _ p' => p'.Balanced o := by
  have hsame : Same p { p with draws := (p.table.pickVictim p.draws).2 } :=
    ⟨rfl, rfl, rfl, rfl, rfl, rfl, rfl, fun _ => rfl⟩
  simp only [evictOne, ends_bind, ends_modifyGet]
  rcases h.table.pickVictim_spec p.draws with ⟨key, e, hpick, -⟩ | ⟨hpick, -⟩
  · simp only [hpick]
    exact evictPage_balanced (h.same hsame) { hb with } key
  · simp only [hpick, ends_bind, ends_notify, ends_throw]
    exact { hb with }

/-- The frame that is found is held. -/
theorem acquireFrame_balanced (h : p.WellFormed none) (hb : p.Balanced o) :
    acquireFrame.Ends p fun r p' =>
      match r with
      | .ok _ => p'.Balanced { o with held := o.held + 1 }
      | .error _ => p'.Balanced o := by
  simp only [acquireFrame, ends_bind]
  cases hfree : p.frames.free with
  | cons ppn rest =>
    have hmem : ppn ∈ p.frames.free := hfree ▸ List.mem_cons_self
    refine ((takeFrame_of_free h hmem).and (takeFrame_balanced hb)).imp ?_
    rintro r p' ⟨⟨q, rfl, -⟩, hb'⟩
    exact hb'
  | nil =>
    refine ((takeFrame_of_nil h hfree).and (takeFrame_balanced hb)).imp ?_
    rintro r p₁ ⟨⟨rfl, h₁, -⟩, hb₁⟩
    simp only [ends_bind]
    refine ((evictOne_ends h₁).and (evictOne_balanced h₁ hb₁)).imp ?_
    rintro (cause | ppn) p₂ ⟨⟨h₂, -, hs⟩, hb₂⟩
    · exact hb₂
    · refine ((takeFrame_of_free h₂ hs.2).and (takeFrame_balanced hb₂)).imp ?_
      rintro r p₃ ⟨⟨q, rfl, -⟩, hb₃⟩
      exact hb₃

/-! ## A page comes in -/

theorem arrivals_add (p : Pager) (s : Swapper) {c : Counter}
    (hc : c = .imageLoads ∨ c = .swapIns ∨ c = .zeroFills) :
    ({ p with swap := s, stats := p.stats.add 1 c } : Pager).arrivals = p.arrivals + 1 := by
  rcases hc with rfl | rfl | rfl
  all_goals
    simp only [arrivals, Statistics.add]
    omega

/-- A page that arrives settles its fault, and fills the frame that is held for it. -/
theorem Balanced.arrived
    (h : p.Balanced { o with held := o.held + 1, unresolved := o.unresolved + 1 }) :
    p.arrivals + 1 + p.freePages + o.held = p.frames.counted + p.stats.evictions + o.released ∧
      p.stats.pageFaults = p.arrivals + 1 + o.unresolved := by
  have hframes := h.frames
  have hfaults := h.faults
  simp only at hframes hfaults
  omega

theorem fetch_balanced
    (hb : p.Balanced { o with held := o.held + 1, unresolved := o.unresolved + 1 })
    (key : PageKey) :
    (fetch key).Ends p fun r p' =>
      match r with
      | .ok _ => p'.Balanced o
      | .error _ => p'.Balanced { o with held := o.held + 1, unresolved := o.unresolved + 1 } := by
  obtain ⟨hframes, hfaults⟩ := hb.arrived
  simp only [fetch, ends_bind, ends_get]
  cases p.pendingImage key with
  | some index =>
    simp only [ends_bind, ends_ofExcept]
    cases index.load key.vpn p.pageSize with
    | error e => exact hb
    | ok found =>
      have hin := arrivals_add p p.swap (c := .imageLoads) (.inl rfl)
      simp only [count, ends_modify, ends_pure]
      exact { hb with frames := hin ▸ hframes, faults := hin ▸ hfaults }
  | none =>
    simp only [ends_ite, ends_bind]
    cases hslot : p.swap.slot? key with
    | some slot =>
      simp only [Option.isSome_some, if_true, ends_on]
      refine (Swapper.readInto_counts hslot p.pageSize).imp ?_
      rintro (e | found) s hs
      · exact hb.reswapped hs
      · have hin := arrivals_add p s (c := .swapIns) (.inr (.inl rfl))
        simp only [count, ends_modify, ends_pure]
        exact { hb with
          frames := hin ▸ hframes
          faults := hin ▸ hfaults
          swapIns := (congrArg (· + 1) hb.swapIns).trans (congrArg SwapCounters.pagesIn hs).symm
          swapOuts := hb.swapOuts.trans (congrArg SwapCounters.pagesOut hs).symm
          tracked := (congrArg SwapCounters.untracked hs).trans hb.tracked }
    | none =>
      have hin := arrivals_add p p.swap (c := .zeroFills) (.inr (.inr rfl))
      simp only [Option.isSome_none, Bool.false_eq_true, if_false, count, ends_modify, ends_pure]
      exact { hb with frames := hin ▸ hframes, faults := hin ▸ hfaults }

/-- Once a page was fetched nothing else can fail: its frame is held, and has its size. -/
theorem fillFrame_balanced (h : p.WellFormed (some ppn))
    (hb : p.Balanced { o with held := o.held + 1, unresolved := o.unresolved + 1 })
    (key : PageKey) :
    (fillFrame key ppn).Ends p fun r p' =>
      match r with
      | .ok _ => p'.Balanced o
      | .error _ => p'.Balanced { o with held := o.held + 1, unresolved := o.unresolved + 1 } := by
  simp only [fillFrame, ends_bind]
  refine ((fetch_ends h key).and (fetch_balanced hb key)).imp ?_
  rintro (cause | ⟨data, readOnly⟩) p₁ ⟨hf, hb₁⟩
  · exact hb₁
  · have hlength := (hf.length data readOnly rfl).trans hf.still.steady.pageSize.symm
    obtain ⟨memory, hwrite, -⟩ := fill_held hf.wellFormed hlength
    simp only [ends_get, ends_ofExcept, hwrite, ends_modify, ends_pure]
    exact { hb₁ with }

theorem giveBack_balanced (h : p.WellFormed (some ppn))
    (hb : p.Balanced { o with held := o.held + 1 }) :
    (giveBack ppn).Ends p fun _ p' => p'.Balanced o := by
  simp only [giveBack, ends_bind, ends_attempt]
  refine (release_held h).imp ?_
  rintro r p' ⟨rfl, -, rfl, -⟩
  exact hb.withFree ppn

/-- A fault is counted before anything is done for it. -/
theorem Balanced.faulted (h : p.Balanced { o with missed := o.missed + 1 }) :
    ({ p with stats := p.stats.add 1 .pageFaults } : Pager).Balanced
      { o with unresolved := o.unresolved + 1 } := by
  have hmisses := h.misses
  refine { h with faults := congrArg (· + 1) h.faults, misses := ?_ }
  show p.stats.pageFaults + 1 + o.missed ≤ p.stats.tlbMisses
  simp only at hmisses
  omega

theorem faultIn_balanced (h : p.WellFormed none) (hf : p.frame? key = none)
    (hb : p.Balanced { o with missed := o.missed + 1 }) :
    (faultIn key).Ends p fun r p' =>
      match r with
      | .ok _ => p'.Balanced o
      | .error _ => p'.Balanced { o with unresolved := o.unresolved + 1 } := by
  have hcount := same_count p 1 .pageFaults
  have h₀ := h.same hcount
  simp only [faultIn, ends_bind, count, ends_modify]
  refine ((acquireFrame_ends h₀).and (acquireFrame_balanced h₀ hb.faulted)).imp ?_
  rintro (cause | ppn) p₁ ⟨⟨-, hs⟩, hb₁⟩
  · exact hb₁
  obtain ⟨h₁, hroom⟩ := hs
  have hb₁ : p₁.Balanced { o with held := o.held + 1, unresolved := o.unresolved + 1 } := hb₁
  have hf₁ := (hcount.foundRoom hroom).madeRoom.absent hf
  simp only [ends_attempt]
  refine ((fillFrame_ends h₁ key).and (fillFrame_balanced h₁ hb₁ key)).imp ?_
  rintro (cause | readOnly) p₂ ⟨⟨h₂, hstill, -⟩, hb₂⟩
  · have hb₂ : p₂.Balanced { o with held := o.held + 1, unresolved := o.unresolved + 1 } := hb₂
    simp only [ends_bind, ends_liftM, ends_throw]
    refine ((giveBack_ends h₂).and
      (giveBack_balanced (o := { o with unresolved := o.unresolved + 1 }) h₂ hb₂)).imp ?_
    rintro r p₃ ⟨⟨rfl, -⟩, hb₃⟩
    exact hb₃
  · have hf₂ : p₂.frame? key = none := (hstill.kept key).frame.trans hf₁
    let e : Entry := ⟨key.vpn, ppn, { valid := true, readOnly := readOnly, used := true }⟩
    simp only [ends_bind, ends_attempt, ends_on]
    refine (h₂.insert_ends (e := e) rfl hf₂).imp ?_
    rintro r t ⟨rfl, rfl⟩
    exact { hb₂ with }

/-- A miss that fails inside the space leaves one fault unresolved. -/
theorem handleMiss_balanced (h : p.WellFormed none) (hb : p.Balanced o) (pid : Pid)
    (vaddr : VirtAddr) :
    (handleMiss pid vaddr).Ends p fun r p' =>
      if r.isOk = false ∧ p.inBounds pid (vaddr.vpn p.pageSize) = true then
        p'.Balanced { o with unresolved := o.unresolved + 1 }
      else p'.Balanced o := by
  simp only [handleMiss, ends_bind, ends_get, ends_checkDivisor, ends_ite]
  split
  next hout =>
    simp only [ends_notify, ends_throw]
    rw [if_neg]
    · exact hb
    · rintro ⟨-, hin⟩
      rw [hin] at hout
      cases hout
  next hin =>
    have hin : p.inBounds pid (vaddr.vpn p.pageSize) = true := by simpa using hin
    have hcount := same_count p 1 .tlbMisses
    have hmissed : ({ p with stats := p.stats.add 1 .tlbMisses } : Pager).Balanced
        { o with missed := o.missed + 1 } := { hb with misses := Nat.succ_le_succ hb.misses }
    simp only [count, ends_modify, h.lookupValid, hin, and_true]
    cases he : p.table.lookup ⟨pid, vaddr.vpn p.pageSize⟩ with
    | some e =>
      have hhit : ({ p with stats := p.stats.add 1 .tlbMisses } : Pager).Balanced o :=
        { hmissed with misses := Nat.le_of_succ_le hmissed.misses }
      simp only [ends_bind, ends_liftM, ends_pure]
      refine (balances_refill pid e _ hhit).imp ?_
      rintro (cause | done) p' ⟨hb', -⟩
      · exact cause.elim
      · exact hb'
    | none =>
      have hf : p.frame? ⟨pid, vaddr.vpn p.pageSize⟩ = none := by
        rw [h.frame?_eq, he]
        rfl
      simp only [ends_bind]
      refine (faultIn_balanced (h.same hcount) hf hmissed).imp ?_
      rintro (cause | e) p₂ hb₂
      · exact hb₂
      · simp only [ends_liftM, ends_pure]
        refine (balances_refill pid e p₂ hb₂).imp ?_
        rintro (cause | done) p' ⟨hb', -⟩
        · exact cause.elim
        · exact hb'

/-! ## A space goes -/

def residentOf (p : Pager) (pid : Pid) : Nat := p.table.validPairs.countP (·.1.pid == pid)

theorem TornDown.entries_eq (h : TornDown p p' pid) :
    p'.table.entries = p.table.entries.filter (·.pid != pid) := by
  apply OrderedMap.ext_get?
  intro k
  rw [OrderedMap.get?_filter]
  by_cases hk : k.pid = pid
  · obtain ⟨q, vpn⟩ := k
    obtain rfl : q = pid := hk
    rw [bne_self_eq_false, if_neg Bool.false_ne_true]
    exact h.entries vpn
  · rw [bne_iff_ne.mpr hk, if_pos rfl]
    exact h.otherEntries k hk

/-- The pages of the process, and no others, are resident no more. -/
theorem TornDown.resident (h : TornDown p p' pid) (hp : p.WellFormed none)
    (hp' : p'.WellFormed none) : p'.residentPages + p.residentOf pid = p.residentPages := by
  have hpairs : p'.table.validPairs = p.table.validPairs.filter (·.1.pid != pid) := by
    rw [PageTable.validPairs, h.entries_eq, PageTable.validPairs, OrderedMap.filter,
      List.filter_filter, List.filter_filter]
    exact List.filter_congr fun pair _ => Bool.and_comm _ _
  rw [residentPages, residentPages, hp.table.residentCount_eq, hp'.table.residentCount_eq,
    PageTable.validCount_eq, PageTable.validCount_eq, hpairs, residentOf,
    List.length_eq_countP_add_countP (·.1.pid != pid) (l := p.table.validPairs),
    ← List.countP_eq_length_filter]
  refine congrArg _ (List.countP_congr fun pair _ => ?_)
  simp

theorem maintains_stats (stats : Statistics) (pid : Pid) :
    Maintains (fun p => p.stats = stats) (fun _ => True) (teardown pid) := by
  have hrelease (key : PageKey) :
      Maintains (fun p : Pager => p.stats = stats) (fun _ => True) (releasePage key) := by
    have htable : Maintains (fun p : Pager => p.stats = stats) (fun _ => True)
        (Op.on tablePart (PageTable.remove key)) := fun _ h => ⟨h, fun _ _ => trivial⟩
    have hframes (ppn : Ppn) : Maintains (fun p : Pager => p.stats = stats) (fun _ => True)
        (Op.on framesPart (Frames.release ppn)) := fun _ h => ⟨h, fun _ _ => trivial⟩
    refine .bind htable.attempt fun r _ => ?_
    split
    · exact .pure trivial
    · split
      · refine .bind (hframes _).attempt fun r _ => ?_
        split
        · exact .notify _
        · exact .pure trivial
      · exact .pure trivial
  refine .bind (.modify fun _ h => h) fun _ _ => .get fun p _ => ?_
  exact .bind (.forM fun vpn _ => hrelease ⟨pid, vpn⟩) fun _ _ => .modify fun _ h => h

theorem teardown_balanced (h : p.WellFormed none) (hb : p.Balanced o) (pid : Pid) :
    (teardown pid).Ends p fun _ p' =>
      p'.Balanced { o with released := o.released + p.residentOf pid } := by
  have hstats := maintains_stats p.stats pid p rfl
  have hends := (teardown_ends h pid).and (teardown_tornDown h pid)
  refine ((hends.and hstats).and (teardown_stages h pid)).imp ?_
  rintro r p' ⟨⟨⟨⟨-, h', helse, -⟩, -, htorn⟩, hstats, -⟩, -, p₁, hempty, -, rfl⟩
  have hcounters : (p₁.forgotten pid).swap.counters = p.swap.counters :=
    (Swapper.counters_releaseProcess p₁.swap pid).trans (congrArg Swapper.counters hempty.swap)
  have hfree := h.count_frames
  have hfree' := h'.count_frames
  have hresident := htorn.resident h h'
  have hframes := hb.frames
  constructor
  · have hcounted := Frames.counted_of_total helse.total
    rw [arrivals, hstats, hcounted]
    rw [hcounted] at hfree'
    show p.arrivals + _ + o.held = _ + (o.released + p.residentOf pid)
    omega
  · rw [arrivals, hstats]
    exact hb.faults
  · rw [hstats]
    exact hb.misses
  · rw [hstats]
    exact hb.written
  · rw [hstats, hcounters]
    exact hb.swapIns
  · rw [hstats, hcounters]
    exact hb.swapOuts
  · rw [hcounters]
    exact hb.tracked

/-! ## Whole runs -/

/-- The pages in memory that an action takes down with their space. -/
def releasedBy (p : Pager) : Action → Nat
  | .event (.teardown pid) => p.residentOf pid
  | _ => 0

/-- One for a miss inside a space that fails. -/
def unresolvedBy (p : Pager) : Action → Nat
  | .event (.miss pid vaddr) =>
    if (handleMiss pid vaddr p).result.isOk = false ∧
        p.inBounds pid (vaddr.vpn p.pageSize) = true then 1 else 0
  | _ => 0

/-- What a run adds up to, if each action counts for `f`. -/
def total (f : Pager → Action → Nat) (p : Pager) : List Action → Nat
  | [] => 0
  | action :: past => total f p past + f (p.afterAll past) action

/-- Every action leaves the books balanced, up to the pages it releases and the fault it leaves
unresolved. -/
theorem act_balanced (h : p.WellFormed none) (hb : p.Balanced o) (action : Action) :
    (p.act action).Balanced { o with
      released := o.released + p.releasedBy action
      unresolved := o.unresolved + p.unresolvedBy action } := by
  cases action with
  | close =>
    obtain ⟨-, hclosed⟩ := close_ends p
    show (close p).state.Balanced o
    rw [hclosed]
    exact hb.reswapped p.swap.counters_shut
  | event event =>
    cases event with
    | register pid numPages image => exact (balances_registerSpace pid numPages image).state hb
    | miss pid vaddr =>
      have hmiss := handleMiss_balanced h hb pid vaddr
      show (handleMiss pid vaddr p).state.Balanced _
      rw [Ends] at hmiss
      rw [unresolvedBy]
      split at hmiss
      next hfails =>
        rw [if_pos hfails]
        exact hmiss
      next hfails =>
        rw [if_neg hfails]
        exact hmiss
    | translate pid vaddr access => exact (balances_translate pid vaddr access).state hb
    | read pid vaddr length => exact (balances_read pid vaddr length).state hb
    | write pid vaddr data => exact (balances_write pid vaddr data).state hb
    | evict key => exact evictPage_balanced h hb key
    | save pid =>
      have hsave : Maintains (Balanced o) (fun _ => True) (perform (.save pid)) :=
        .bind (balances_saveContext pid) fun _ _ => .pure trivial
      exact hsave.state hb
    | restore pid =>
      have hrestore : Maintains (Balanced o) (fun _ => True) (perform (.restore pid)) :=
        .bind (balances_restoreContext pid) fun _ _ => .pure trivial
      exact hrestore.state hb
    | teardown pid =>
      show (perform (.teardown pid)).Ends p fun _ p' => p'.Balanced _
      simp only [perform, ends_bind, ends_pure]
      refine (teardown_balanced h hb pid).imp ?_
      rintro (e | done) p' hb'
      · exact e.elim
      · exact hb'
    | swapFaults faults => exact { hb with }
    | imageFaults pid faults => exact { hb with }
    | draw draws => exact { hb with }

theorem afterAll_balanced (h : p.WellFormed none) (hb : p.Balanced o) (actions : List Action) :
    (p.afterAll actions).Balanced { o with
      released := o.released + total releasedBy p actions
      unresolved := o.unresolved + total unresolvedBy p actions } := by
  induction actions with
  | nil => exact hb
  | cons action past ih =>
    have hstep := act_balanced (h.afterAll past) ih action
    rw [total, total, ← Nat.add_assoc, ← Nat.add_assoc]
    exact hstep

theorem Created.balanced {c : Config} (hc : Created c p) : p.Balanced {} := by
  obtain ⟨draws, tlbSize, memory, file, rfl, -⟩ := hc.eq_initial
  constructor
  · show 0 + ((List.range c.physPages.toUInt32.toNat).map Nat.toUInt32).length + 0 =
      c.physPages.toUInt32.toNat + 0 + 0
    rw [List.length_map, List.length_range, Nat.zero_add]
  · exact rfl
  · exact Nat.le_refl 0
  · exact Nat.le_refl 0
  · exact rfl
  · exact rfl
  · exact rfl

/-- The counters of a pager, given how many pages went with their spaces and how many misses inside
a space failed. -/
structure FlowConserved (p : Pager) (released unresolved : Nat) : Prop where
  /-- A page that came in is in memory, or was evicted, or went with its space. -/
  arrivals : p.stats.imageLoads + p.stats.swapIns + p.stats.zeroFills =
    p.residentPages + p.stats.evictions + released
  /-- A fault brought its page in, or has failed. -/
  faults : p.stats.pageFaults =
    p.stats.imageLoads + p.stats.swapIns + p.stats.zeroFills + unresolved
  swapIns : p.stats.swapIns = p.swap.counters.pagesIn
  swapOuts : p.stats.swapOuts = p.swap.counters.pagesOut
  swapOuts_le : p.stats.swapOuts ≤ p.stats.evictions
  faults_le : p.stats.pageFaults ≤ p.stats.tlbMisses
  /-- No page without a slot was read from swap. -/
  tracked : p.swap.counters.untracked = 0

/-- Whatever is done to a pager, and whatever fails, the flow of pages is conserved. -/
theorem page_flow_conserved {c : Config} (hc : Created c p) (actions : List Action) :
    (p.afterAll actions).FlowConserved (total releasedBy p actions)
      (total unresolvedBy p actions) := by
  have hb := afterAll_balanced hc.wellFormed.1 hc.balanced actions
  have hcount := (hc.wellFormed.1.afterAll actions).count_frames
  have hframes := hb.frames
  have hfaults := hb.faults
  have hmisses := hb.misses
  have hwritten := hb.written
  simp only [Pager.arrivals, Nat.zero_add, Nat.add_zero] at hframes hfaults hmisses hwritten
  refine ⟨?_, hfaults, hb.swapIns, hb.swapOuts, hwritten, hmisses, hb.tracked⟩
  omega

/-- After a round trip through swap a read fails, so a miss does; then a page is taken down with its
space, and the swap is closed. -/
def eventful : List Action :=
  [.close, .event (.teardown 1), .event (.miss 1 ⟨4⟩), .event (.miss 1 ⟨0⟩),
    .event (.swapFaults { read := some .ioFailure }), .event (.miss 1 ⟨4⟩)] ++ roundTrip.map .event

theorem page_flow_conserved_eventful : (small.afterAll eventful).FlowConserved 1 1 := by
  have hreleased : total releasedBy small eventful = 1 := by decide +kernel
  have hunresolved : total unresolvedBy small eventful = 1 := by decide +kernel
  have h := page_flow_conserved created_small eventful
  rwa [hreleased, hunresolved] at h

end Pager

end VirtualMemory
