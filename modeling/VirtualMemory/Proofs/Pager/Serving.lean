import VirtualMemory.Mmu.Demand
import VirtualMemory.Proofs.Pager.Coherence
import VirtualMemory.Proofs.Loading

/-!
# The pager serves its processes

What the pager holds for a process, in frames, swap and image, is a flat memory. It is ready for an
access while the page is cached; a miss makes it ready, unless the swap fails. Events of other
processes move the pages of this one, but do not change a byte of them.
-/

namespace VirtualMemory.Pager

variable {p p' : Pager} {pid : Pid} {pageSize numPages : Nat} {f : FlatSpace} {vaddr : VirtAddr}
  {event : Event} {answer : Answer}

/-- The pager holds flat memory `f` for process `pid`, and its image can be read. -/
structure Holds (pid : Pid) (pageSize numPages : Nat) (f : FlatSpace) (p : Pager) : Prop where
  wellFormed : p.WellFormed none
  isOpen : p.swap.isOpen = true
  backed : p.Backed
  size : p.pageSize = pageSize
  flatSize : f.pageSize = pageSize
  flatPages : f.numPages = numPages
  extent : (p.extent pid).map (·.1) = some numPages
  readable : ∀ vpn, p.Readable ⟨pid, vpn⟩
  readOnly : ∀ vpn, p.isReadOnly ⟨pid, vpn⟩ = f.readOnly vpn
  bytes : ∀ vpn, ∀ o < pageSize, p.byte ⟨pid, vpn⟩ o = f.byte (vpn.toNat * pageSize + o)

/-- The pager has frames to bring in the memory that it holds. -/
structure Hosts (pid : Pid) (pageSize numPages : Nat) (f : FlatSpace) (p : Pager) : Prop
    extends Holds pid pageSize numPages f p where
  inWord : p.frames.InWord

def Ready (pid : Pid) (vaddr : VirtAddr) (p : Pager) : Prop :=
  (p.tlb.cached (p.pageOf pid vaddr)).isSome = true

namespace Hosts

theorem inBounds (h : Hosts pid pageSize numPages f p)
    (hin : (vaddr.vpn pageSize).toNat < numPages) :
    p.inBounds pid (vaddr.vpn p.pageSize) = true := by
  obtain ⟨e, he, rfl⟩ := Option.map_eq_some_iff.mp h.extent
  rw [inBounds_eq, he, h.size, Option.any_some]
  exact decide_eq_true hin

/-- A change that keeps the space and its bytes. -/
theorem keep (h : Hosts pid pageSize numPages f p) (h' : p'.WellFormed none)
    (htotal : p'.frames.total = p.frames.total) (hopen : p'.swap.isOpen = p.swap.isOpen)
    (hb : p'.Backed) (hps : p'.pageSize = p.pageSize) (hext : p'.extent pid = p.extent pid)
    (hbytes : ∀ vpn, ∀ o < p.pageSize, p'.byte ⟨pid, vpn⟩ o = p.byte ⟨pid, vpn⟩ o) :
    Hosts pid pageSize numPages f p' where
  wellFormed := h'
  isOpen := hopen.trans h.isOpen
  backed := hb
  size := hps.trans h.size
  flatSize := h.flatSize
  flatPages := h.flatPages
  extent := hext.symm ▸ h.extent
  readable := fun vpn => (h.readable vpn).congr hext hps
  readOnly := fun vpn => (isReadOnly_congr hext).trans (h.readOnly vpn)
  bytes := by
    intro vpn o ho
    rw [hbytes vpn o (h.size.symm ▸ ho), h.bytes vpn o ho]
  inWord := h.inWord.of_total htotal

theorem still (h : Hosts pid pageSize numPages f p) (h' : p'.WellFormed none) (hs : Still p p') :
    Hosts pid pageSize numPages f p' :=
  h.keep h' hs.steady.total hs.steady.isOpen (hs.backed h.wellFormed.sized.swap h.backed)
    hs.steady.pageSize (hs.steady.extent pid) fun _ _ ho => hs.byte h.wellFormed.sized.swap _ ho

theorem madeRoom (h : Hosts pid pageSize numPages f p) (h' : p'.WellFormed none)
    (hroom : MadeRoom p p') : Hosts pid pageSize numPages f p' :=
  h.keep h' hroom.steady.total hroom.steady.isOpen (hroom.backed h.wellFormed.sized.swap h.backed)
    hroom.steady.pageSize (hroom.steady.extent pid)
    fun _ _ ho => hroom.byte h.wellFormed.sized.swap h.backed _ ho

theorem loaded {p₁ : Pager} {key : PageKey} (h : Hosts pid pageSize numPages f p)
    (h' : p'.WellFormed none) (hroom : MadeRoom p p₁) (hload : Loaded p₁ p' key) :
    Hosts pid pageSize numPages f p' := by
  have hsize := h.wellFormed.sized.swap
  have hsize₁ : p₁.swap.pageSize = p₁.pageSize :=
    hroom.steady.swapSize.trans (hsize.trans hroom.steady.pageSize.symm)
  refine h.keep h' (hload.steady.total.trans hroom.steady.total)
    (hload.steady.isOpen.trans hroom.steady.isOpen)
    (hload.backed hsize₁ (hroom.backed hsize h.backed))
    (hload.steady.pageSize.trans hroom.steady.pageSize)
    ((hload.steady.extent pid).trans (hroom.steady.extent pid)) ?_
  intro vpn o ho
  rw [hload.byte hsize₁ _ (hroom.steady.pageSize ▸ ho), hroom.byte hsize h.backed _ ho]

end Hosts

/-- Any space can be registered for a process that has none. -/
theorem load_holds (h : p.WellFormed none) (hopen : p.swap.isOpen = true) (hb : p.Backed)
    (hnew : p.extent pid = none) (layout : Layout)
    (hread : ∀ vpn, (layout.index.locate vpn).isSome = true →
      ∃ found, layout.index.load vpn p.pageSize = .ok found) :
    (load pid layout).Ends p fun r p' => r = .ok () ∧ (p'.swap.Reliable → p.swap.Reliable) ∧
      p'.frames.total = p.frames.total ∧
      Holds pid p.pageSize layout.numPages (.ofLayout p.pageSize layout) p' := by
  refine (registerSpace_ends p pid layout.numPages (some layout.index)).imp ?_
  rintro (cause | done) p' hr
  · exact absurd hnew hr.1
  obtain ⟨-, rfl⟩ := hr
  have h' := h.registered hnew layout.numPages (some layout.index)
  have helsewhere := elsewhere_registered p pid layout.numPages (some layout.index)
  have hext := (extent_registered p pid layout.numPages (some layout.index) pid).trans (if_pos rfl)
  refine ⟨rfl, helsewhere.reliable, rfl, h', helsewhere.isOpen.trans hopen, ?_, rfl, rfl, rfl, ?_,
    ?_, ?_, ?_⟩
  · refine helsewhere.backed h.sized.swap hb ?_
    rintro key rfl
    exact h.frame?_none hnew
  · rw [hext, Option.map_some]
  · intro vpn index hindex hlocate
    have himage : (some layout.index) = some index := by
      rw [← hindex, registered, OrderedMap.get?_insert, if_pos rfl, Option.bind_some]
    obtain rfl := Option.some.inj himage
    exact hread vpn hlocate
  · intro vpn
    rw [isReadOnly, origin?_eq, hext]
    rfl
  · intro vpn o ho
    rw [byte_registered h hnew layout.numPages (some layout.index) rfl]
    exact (FlatSpace.byte_ofLayout layout ho vpn).symm

/-- The pager prepares any space for a process that has none. -/
theorem prepares (h : p.WellFormed none) (hword : p.frames.InWord) (hopen : p.swap.isOpen = true)
    (hb : p.Backed) {number : Nat} (hnew : p.extent number.toUInt32 = none) (pages : Nat) :
    Prepares (Hosts number.toUInt32 p.pageSize) (fun p => p.swap.Reliable) number pages p := by
  rintro layout - hread
  refine (load_holds h hopen hb hnew layout hread).imp ?_
  rintro r p' ⟨rfl, hrel, htotal, hholds⟩
  exact ⟨rfl, hrel, hholds, hword.of_total htotal⟩

/-! ## Events of other processes -/

/-- An event of a process other than `pid`, or of the random numbers. The swap does not begin to
fail. -/
def Event.Foreign (pid : Pid) : Event → Prop
  | .register q _ _ => q ≠ pid
  | .write q _ _ => q ≠ pid
  | .teardown q => q ≠ pid
  | .imageFaults q _ => q ≠ pid
  | .swapFaults _ => False
  | _ => True

theorem Effect.reliable (he : Effect p event answer p') (hforeign : event.Foreign pid)
    (hr : p'.swap.Reliable) : p.swap.Reliable := by
  cases he.outline with
  | steady _ h => exact h.reliable hr
  | registered => exact (elsewhere_registered p _ _ _).reliable hr
  | tornDown h => exact h.reliable hr
  | swapFaults => exact hforeign.elim
  | imageFaults => exact hr

theorem Effect.extent (he : Effect p event answer p') (hforeign : event.Foreign pid) :
    p'.extent pid = p.extent pid := by
  cases he.outline with
  | steady _ h => exact h.extent pid
  | registered => exact (elsewhere_registered p _ _ _).extent pid (Ne.symm hforeign)
  | tornDown h => exact h.extent pid (Ne.symm hforeign)
  | swapFaults => exact hforeign.elim
  | imageFaults =>
    rw [Pager.extent, get?_withImageFaults, if_neg (Ne.symm hforeign)]
    rfl

theorem replaced_of_foreign (hforeign : event.Foreign pid) (vpn : Vpn) (o : Nat) (old : UInt8) :
    replaced pageSize ⟨pid, vpn⟩ o old event answer = old := by
  unfold replaced
  split
  · exact if_neg (Ne.symm hforeign)
  · exact if_neg fun hcase => hforeign (congrArg PageKey.pid hcase.1).symm
  · rfl

/-- Other processes do not change the memory of this one. -/
theorem Hosts.after (h : Hosts pid pageSize numPages f p) (events : List Event)
    (hforeign : ∀ event ∈ events, event.Foreign pid)
    (hin : ∀ event ∈ events, event.InPage pageSize) :
    Hosts pid pageSize numPages f (p.after events) ∧
      ((p.after events).swap.Reliable → p.swap.Reliable) := by
  induction events with
  | nil => exact ⟨h, id⟩
  | cons event past ih =>
    obtain ⟨hp, hback⟩ := ih (fun e he => hforeign e (List.mem_cons_of_mem _ he))
      fun e he => hin e (List.mem_cons_of_mem _ he)
    obtain ⟨h', he⟩ := hp.wellFormed.stepOf event
    have hf := hforeign event List.mem_cons_self
    have hpage : event.InPage (p.after past).pageSize :=
      hp.size.symm ▸ hin event List.mem_cons_self
    have hlasting := he.lasting
    refine ⟨hp.keep h' hlasting.total hlasting.isOpen (he.backed hp.wellFormed h' hpage hp.backed)
      hlasting.pageSize (he.extent hf) ?_, fun hr => hback (he.reliable hf hr)⟩
    intro vpn o ho
    have hspace : (((p.after past).stepOf event).after.extent pid).isSome = true := by
      obtain ⟨e, hext, -⟩ := Option.map_eq_some_iff.mp hp.extent
      rw [he.extent hf, hext]
      rfl
    rw [← replaced_of_foreign hf vpn o ((p.after past).byte ⟨pid, vpn⟩ o)]
    exact he.byte hp.wellFormed hpage hp.backed hspace ho

/-! ## Accesses -/

theorem read_of_cached (h : p.WellFormed none) (hin : p.inBounds pid (vaddr.vpn p.pageSize) = true)
    (hready : Ready pid vaddr p) (length : Nat) :
    (read pid vaddr length).Ends p fun r _ => ∃ data, r = .ok data := by
  obtain ⟨e, he⟩ := Option.isSome_iff_exists.mp hready
  simp only [read, Op.ends_bind]
  refine (translate_of_cached h.sized hin he).imp ?_
  intro r p' hr
  rw [if_neg (by simp)] at hr
  obtain ⟨rfl, rfl⟩ := hr
  exact ⟨_, rfl⟩

/-- A write to a cached page is refused if the page is read-only, and then nothing happens. -/
theorem write_of_cached (h : p.WellFormed none) (hopen : p.swap.isOpen = true)
    (hin : p.inBounds pid (vaddr.vpn p.pageSize) = true) (hready : Ready pid vaddr p)
    (data : Bytes) :
    (write pid vaddr data).Ends p fun r p' =>
      if p.isReadOnly (p.pageOf pid vaddr) = true then r = .error .readOnly ∧ p' = p
      else ∃ n, r = .ok n := by
  obtain ⟨e, he⟩ := Option.isSome_iff_exists.mp hready
  have hro := (h.cached _ e he).1.readOnly hopen
  simp only [write, Op.ends_bind]
  refine (translate_of_cached h.sized hin he).imp ?_
  intro r p' hr
  simp only [true_and, hro] at hr
  split at hr
  next hread =>
    obtain ⟨rfl, rfl⟩ := hr
    simp only [hread, if_true]
    exact ⟨trivial, trivial⟩
  next hwrite =>
    obtain ⟨rfl, rfl⟩ := hr
    simp only [if_neg hwrite]
    exact ⟨_, rfl⟩

/-- An access to a page that is not cached misses. -/
theorem Hosts.misses (h : Hosts pid pageSize numPages f p)
    (hin : (vaddr.vpn pageSize).toNat < numPages) (hready : ¬ Ready pid vaddr p) (access : Access) :
    (translate pid vaddr access).Ends p fun r p' =>
      (p'.swap.Reliable → p.swap.Reliable) ∧ r = .error .tlbMiss ∧
        Hosts pid pageSize numPages f p' ∧ ¬ Ready pid vaddr p' := by
  have hnone : p.tlb.cached (p.pageOf pid vaddr) = none := by
    rwa [Ready, Option.not_isSome_iff_eq_none] at hready
  refine (translate_of_uncached h.wellFormed.sized (h.inBounds hin) hnone).imp ?_
  rintro r p' ⟨rfl, rfl⟩
  have hsame := same_countMiss p
  exact ⟨id, rfl, h.still (h.wellFormed.same hsame) hsame.still, hready⟩

theorem Hosts.read (h : Hosts pid pageSize numPages f p)
    (hin : (vaddr.vpn pageSize).toNat < numPages) {length : Nat}
    (hlen : vaddr.offset pageSize + length ≤ pageSize) (hready : Ready pid vaddr p) :
    (read pid vaddr length).Ends p fun r p' =>
      (p'.swap.Reliable → p.swap.Reliable) ∧ r = .ok (f.bytes vaddr.value.toNat length) ∧
        Hosts pid pageSize numPages f p' := by
  refine ((read_of_cached h.wellFormed (h.inBounds hin) hready length).and
    (read_ends h.wellFormed pid vaddr length)).imp ?_
  rintro r p' ⟨⟨data, rfl⟩, h', ha, hmem, hdata⟩
  rw [pageOf, h.size] at hdata
  obtain ⟨hlength, hbytes⟩ := hdata hlen
  refine ⟨ha.steady.reliable, congrArg Except.ok (Bytes.eq_map_range hlength ?_), ?_⟩
  · intro i hi
    have haddr := h.wellFormed.sized.geometry.toNat_eq vaddr
    rw [h.size] at haddr
    rw [hbytes i hi, h.bytes _ _ (by omega), haddr, Nat.add_assoc]
  · exact h.keep h' ha.steady.total ha.steady.isOpen (ha.backed hmem h.backed) ha.steady.pageSize
      (ha.steady.extent pid) fun vpn o _ => ha.byte hmem _ o

theorem Hosts.write (h : Hosts pid pageSize numPages f p)
    (hin : (vaddr.vpn pageSize).toNat < numPages) {data : Bytes}
    (hlen : vaddr.offset pageSize + data.length ≤ pageSize) (hready : Ready pid vaddr p) :
    (write pid vaddr data).Ends p fun r p' =>
      (p'.swap.Reliable → p.swap.Reliable) ∧
        if f.readOnly (vaddr.vpn pageSize) = true then
          r = .error .readOnly ∧ Hosts pid pageSize numPages f p'
        else r = .ok data.length ∧
          Hosts pid pageSize numPages (f.overwritten vaddr.value.toNat data) p' := by
  refine ((write_of_cached h.wellFormed h.isOpen (h.inBounds hin) hready data).and
    (write_ends h.wellFormed pid vaddr data)).imp ?_
  rintro r p' ⟨hr, h', hends⟩
  rw [pageOf, h.size, h.readOnly] at hr
  split at hr
  next hro =>
    obtain ⟨rfl, rfl⟩ := hr
    rw [if_pos hro]
    exact ⟨id, rfl, h⟩
  next hwritable =>
    obtain ⟨n, rfl⟩ := hr
    obtain ⟨ha, hwritten⟩ := hends
    have hlen' : vaddr.offset p.pageSize + data.length ≤ p.pageSize := h.size.symm ▸ hlen
    obtain ⟨rfl, hover⟩ := hwritten hlen'
    rw [if_neg hwritable]
    refine ⟨ha.steady.reliable, rfl, ?_⟩
    have hext := ha.steady.extent pid
    refine ⟨⟨h', ha.steady.isOpen.trans h.isOpen, ha.backed_written hover h.backed,
      ha.steady.pageSize.trans h.size, h.flatSize, h.flatPages, hext.symm ▸ h.extent,
      fun vpn => (h.readable vpn).congr hext ha.steady.pageSize,
      fun vpn => (isReadOnly_congr hext).trans (h.readOnly vpn), ?_⟩,
      h.inWord.of_total ha.steady.total⟩
    intro vpn o ho
    have haddr := h.wellFormed.sized.geometry.toNat_eq vaddr
    rw [ha.byte_written hover _ (h.size.symm ▸ ho), h.bytes vpn o ho, haddr, pageOf, h.size,
      f.byte_overwritten hlen ho]
    simp only [PageKey.mk.injEq, true_and]

theorem ofMiss_ends {σ α : Type} (r : Except MemoryError α) (s : σ) :
    (FaultResult.ofMiss r : Op σ Empty FaultResult).Ends s fun o s' =>
      s' = s ∧ (o = .ok .success ↔ ∃ a, r = .ok a) := by
  unfold FaultResult.ofMiss
  split
  next a => exact ⟨rfl, iff_of_true rfl ⟨a, rfl⟩⟩
  next => exact ⟨rfl, iff_of_false nofun nofun⟩
  next => exact ⟨rfl, iff_of_false nofun nofun⟩
  next => exact ⟨rfl, iff_of_false nofun nofun⟩

theorem handleFault_of_miss (pid : Pid) (vaddr : VirtAddr) (p : Pager) :
    (handleFault pid vaddr .tlbMiss).Ends p fun outcome p' =>
      p' = (handleMiss pid vaddr p).state ∧
        (outcome = .ok .success ↔ ∃ e, (handleMiss pid vaddr p).result = .ok e) := by
  simp only [handleFault, Op.ends_bind, Op.ends_attempt]
  refine (Op.ends_self (handleMiss pid vaddr) p).imp ?_
  rintro r p' ⟨rfl, rfl⟩
  exact ofMiss_ends _ _

theorem handleFault_of_refusal {cause : Exception} (hcause : cause ≠ .tlbMiss) (p : Pager) :
    handleFault pid vaddr cause p = ⟨.ok (.ofException cause), p, []⟩ := by
  cases cause with
  | tlbMiss => exact absurd rfl hcause
  | readOnly => rfl
  | addressError => rfl

/-- A miss is resolved unless the swap fails, and then the page is cached. -/
theorem Hosts.handleMiss (h : Hosts pid pageSize numPages f p)
    (hin : (vaddr.vpn pageSize).toNat < numPages) :
    (handleFault pid vaddr .tlbMiss).Ends p fun r p' =>
      Hosts pid pageSize numPages f p' ∧ (r = .ok .success → Ready pid vaddr p') ∧
        (p'.swap.Reliable → p.swap.Reliable ∧ r = .ok .success) := by
  refine (handleFault_of_miss pid vaddr p).imp ?_
  rintro outcome p' ⟨rfl, hsuccess⟩
  rw [hsuccess]
  refine (handleMiss_ends h.wellFormed rfl).imp (R := fun r p' =>
    Hosts pid pageSize numPages f p' ∧ ((∃ e, r = .ok e) → Ready pid vaddr p') ∧
      (p'.swap.Reliable → p.swap.Reliable ∧ ∃ e, r = .ok e)) ?_
  rintro (cause | e) p' ⟨h', hok, hr⟩
  · refine ⟨h.madeRoom h' hr.1, ?_, ?_⟩
    · rintro ⟨e, he⟩
      cases he
    · intro hrel
      obtain ⟨e, he⟩ := hok hrel h.inWord (h.inBounds hin) (h.readable (vaddr.vpn p.pageSize))
      cases he
  · obtain ⟨hcached, -, hmoved⟩ := hr
    cases hmoved with
    | resident _ hretold _ =>
      have hstill := hretold.still
      have hready : Ready pid vaddr p' := by
        rw [Ready, pageOf, hstill.steady.pageSize]
        exact hcached
      exact ⟨h.still h' hstill, fun _ => hready, fun hrel => ⟨hstill.steady.reliable hrel, e, rfl⟩⟩
    | brought _ hfound hload _ =>
      have hroom := hfound.madeRoom
      have hready : Ready pid vaddr p' := by
        rw [Ready, pageOf, hload.steady.pageSize, hroom.steady.pageSize]
        exact hcached
      exact ⟨h.loaded h' hroom hload, fun _ => hready,
        fun hrel => ⟨hroom.steady.reliable (hload.steady.reliable hrel), e, rfl⟩⟩

/-! ## Serving -/

/-- The pager does for each process what flat memory does, while the swap does not fail. -/
theorem serves (number : Nat) (pageSize numPages : Nat) :
    Serves number pageSize numPages (Hosts number.toUInt32 pageSize numPages)
      (fun p => p.swap.Reliable)
      (Ready number.toUInt32) where
  read := by
    intro vaddr length hin hlen
    constructor
    · intro f p h hready
      have hin' : (vaddr.vpn f.pageSize).toNat < f.numPages := by rwa [h.flatSize, h.flatPages]
      obtain ⟨hr, hstate⟩ := FlatSpace.read_inside hin' length
      refine (h.read hin hlen hready).imp ?_
      rintro r p' ⟨hrel, rfl, h'⟩
      exact ⟨hrel, hr.symm, hstate.symm ▸ h'⟩
    · intro f p h hready
      show (Pager.read number.toUInt32 vaddr length).Ends p _
      simp only [Pager.read, Op.ends_bind]
      refine (h.misses hin hready .read).imp ?_
      rintro r p' ⟨hrel, rfl, hrest⟩
      exact ⟨hrel, rfl, hrest⟩
  write := by
    intro vaddr data hin hlen
    constructor
    · intro f p h hready
      have hin' : (vaddr.vpn f.pageSize).toNat < f.numPages := by rwa [h.flatSize, h.flatPages]
      have hflat := FlatSpace.write_inside hin' data
      rw [Op.Ends, h.flatSize] at hflat
      refine (h.write hin hlen hready).imp ?_
      rintro r p' ⟨hrel, hr⟩
      split at hr
      next hro =>
        rw [if_pos hro] at hflat
        obtain ⟨rfl, h'⟩ := hr
        exact ⟨hrel, hflat.1.symm, hflat.2.symm ▸ h'⟩
      next hro =>
        rw [if_neg hro] at hflat
        obtain ⟨rfl, h'⟩ := hr
        exact ⟨hrel, hflat.1.symm, hflat.2.symm ▸ h'⟩
    · intro f p h hready
      show (Pager.write number.toUInt32 vaddr data).Ends p _
      simp only [Pager.write, Op.ends_bind]
      refine (h.misses hin hready .write).imp ?_
      rintro r p' ⟨hrel, rfl, hrest⟩
      exact ⟨hrel, rfl, hrest⟩
  resolves := fun _ _ _ hin h _ => h.handleMiss hin
  refuses := by
    intro f p vaddr e hmiss h
    show (handleFault number.toUInt32 vaddr e).Ends p _
    rw [Op.Ends, handleFault_of_refusal hmiss]
    exact ⟨id, rfl, h⟩
  save := by
    intro f p h
    refine (saveContext_ends h.wellFormed number.toUInt32).imp ?_
    rintro r p' ⟨rfl, h', hstill⟩
    exact ⟨hstill.steady.reliable, rfl, h.still h' hstill⟩
  restore := by
    intro f p h
    refine (restoreContext_ends h.wellFormed number.toUInt32).imp ?_
    rintro r p' ⟨rfl, h', hstill⟩
    exact ⟨hstill.steady.reliable, rfl, h.still h' hstill⟩
  teardown := by
    intro f p h
    refine (teardown_ends h.wellFormed number.toUInt32).imp ?_
    rintro r p' ⟨-, -, helsewhere, -⟩
    exact helsewhere.reliable

end VirtualMemory.Pager
