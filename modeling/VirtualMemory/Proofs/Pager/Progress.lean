import VirtualMemory.Proofs.Pager.Closing
import VirtualMemory.Proofs.Pager.Reports
import VirtualMemory.Proofs.Pager.Serving

/-!
# Progress after a fault

A miss that was handled leaves its page cached and its entry in the table, down to one frame and one
cache slot (`Settled`). Accesses to the page are then answered from its frame, another miss of it
does nothing, and an access that is tried again after a fault raises no second miss: what a process
does on a page takes two attempts at most, however many rounds it is granted.
-/

namespace VirtualMemory

/-- An access, tried a second time if the fault of the first was resolved. -/
def withOneFault {σ α : Type} [Mmu σ] (number : Nat) (vaddr : VirtAddr)
    (access : Op σ Exception α) : Op σ FaultResult α := do
  match ← Op.attempt access with
  | .ok a => return a
  | .error e =>
    let outcome ← Op.total (Mmu.handleFault number vaddr e)
    if outcome = .success then Op.mapError .ofException access else throw outcome

namespace Pager

variable {p p' : Pager} {c : Config} {pid : Pid} {vpn : Vpn} {vaddr : VirtAddr} {e : Entry}
  {access : Access} {α : Type} {x : Op Pager Exception α}

/-! ## A page that was brought in -/

/-- The table has entry `e` for the page, and the page is cached. -/
structure Settled (p : Pager) (pid : Pid) (vpn : Vpn) (e : Entry) : Prop where
  wellFormed : p.WellFormed none
  isOpen : p.swap.isOpen = true
  entry : p.table.lookup ⟨pid, vpn⟩ = some e
  cached : (p.tlb.cached ⟨pid, vpn⟩).isSome = true

theorem Settled.inBounds (h : p.Settled pid vpn e) : p.inBounds pid vpn = true :=
  (h.wellFormed.entries _ e h.entry).bounds

/-- The page keeps its entry and stays cached when it is accessed. -/
theorem Settled.touched (h : p.Settled pid vpn e) {known : Entry}
    (hc : p.tlb.cached ⟨pid, vpn⟩ = some known) (hro : access = .write → known.readOnly = false) :
    (p.touched ⟨pid, vpn⟩ access).Settled pid vpn e where
  wellFormed := h.wellFormed.touched hc hro
  isOpen := h.isOpen
  entry := h.entry
  cached := by
    rw [cached_touched, if_pos rfl, Option.isSome_map]
    exact h.cached

/-- An access is answered from the frame of the page, but for a write to a read-only one. -/
theorem Settled.translate (h : p.Settled pid (vaddr.vpn p.pageSize) e) (access : Access) :
    (translate pid vaddr access).Ends p fun r p' =>
      p'.Settled pid (vaddr.vpn p.pageSize) e ∧ p'.pageSize = p.pageSize ∧
        if access = .write ∧ p.isReadOnly (p.pageOf pid vaddr) = true then r = .error .readOnly
        else ∃ paddr, r = .ok paddr ∧
          paddr.value.toNat = e.ppn.toNat * p.pageSize + vaddr.offset p.pageSize := by
  obtain ⟨known, hc⟩ := Option.isSome_iff_exists.mp h.cached
  obtain ⟨hfits, known', hknown, hext⟩ := h.wellFormed.cached _ known hc
  obtain rfl := Option.some.inj (hknown.symm.trans h.entry)
  have haddr := toNat_physical h.wellFormed (frame?_of_cached h.wellFormed hc) vaddr
  rw [h.wellFormed.sized.memory, hext.ppn] at haddr
  have hro : known.readOnly = p.isReadOnly (p.pageOf pid vaddr) := hfits.readOnly h.isOpen
  refine (translate_of_cached h.wellFormed.sized h.inBounds hc).imp ?_
  intro r p' hr
  rw [hro] at hr
  split at hr
  next hrefused =>
    obtain ⟨rfl, rfl⟩ := hr
    rw [if_pos hrefused]
    exact ⟨h, rfl, rfl⟩
  next hallowed =>
    obtain ⟨rfl, rfl⟩ := hr
    rw [if_neg hallowed]
    refine ⟨h.touched hc ?_, rfl, _, rfl, hext.ppn ▸ haddr⟩
    intro hwrite
    rw [hro, Bool.eq_false_iff]
    exact fun hread => hallowed ⟨hwrite, hread⟩

theorem refill_of_cached (hc : (p.tlb.cached ⟨pid, e.vpn⟩).isSome = true) :
    refill pid e p = ⟨.ok (), p, []⟩ := by
  have hfind : (p.tlb.find pid e.vpn).isSome = true :=
    (Tlb.find_isSome p.tlb ⟨pid, e.vpn⟩).trans hc
  simp only [refill, Op.bind_apply, Op.get_apply, hfind, if_true, Op.pure_apply, List.append_nil]

theorem checkDivisor_apply {ε : Type} (hdiv : p.pageSize.toUInt32 ≠ 0) :
    (Op.checkDivisor p.pageSize : Op Pager ε Unit) p = ⟨.ok (), p, []⟩ := by
  rw [Op.checkDivisor, if_neg hdiv]

/-- Another miss of the page does nothing but count itself. -/
theorem Settled.handleMiss (h : p.Settled pid (vaddr.vpn p.pageSize) e)
    (hdiv : p.pageSize.toUInt32 ≠ 0) :
    handleMiss pid vaddr p = ⟨.ok e, { p with stats := p.stats.add 1 .tlbMisses }, []⟩ := by
  have hvalid : p.table.lookupValid ⟨pid, vaddr.vpn p.pageSize⟩ = some e :=
    (h.wellFormed.lookupValid _).trans h.entry
  have hvpn : e.vpn = vaddr.vpn p.pageSize := (h.wellFormed.entries _ e h.entry).vpn
  have hrefill : refill pid e { p with stats := p.stats.add 1 .tlbMisses } =
      ⟨.ok (), { p with stats := p.stats.add 1 .tlbMisses }, []⟩ :=
    refill_of_cached (by rw [hvpn]; exact h.cached)
  simp only [Pager.handleMiss, Op.bind_apply, Op.get_apply, checkDivisor_apply hdiv, h.inBounds,
    Bool.not_true, Bool.false_eq_true, if_false, count, Op.modify_apply, hvalid, Op.pure_apply,
    Op.total, hrefill, List.append_nil, liftM, monadLift, MonadLift.monadLift]

/-- A miss that comes back has divided by the page size. -/
theorem divisor_of_handleMiss (hrunning : (Pager.handleMiss pid vaddr p).halted = false) :
    p.pageSize.toUInt32 ≠ 0 := by
  rw [Op.halted_eq_false_iff] at hrunning
  simp only [Pager.handleMiss, Op.issues_bind, Op.ends_get, Op.issues_checkDivisor] at hrunning
  intro hzero
  cases hrunning.2.1 hzero

/-- A miss that is handled settles its page. -/
theorem handleMiss_settles (h : p.WellFormed none) (hopen : p.swap.isOpen = true)
    (hok : (handleMiss pid vaddr p).result = .ok e) :
    (handleMiss pid vaddr p).state.Settled pid (vaddr.vpn p.pageSize) e ∧
      (handleMiss pid vaddr p).state.pageSize = p.pageSize := by
  obtain ⟨h', heffect⟩ := h.stepOf (.miss pid vaddr)
  obtain ⟨-, -, hends⟩ := handleMiss_ends h (rfl : p.pageOf pid vaddr = _)
  rw [hok] at hends
  obtain ⟨hcached, hentry, -⟩ := hends
  have hlasting := heffect.lasting
  exact ⟨⟨h', hlasting.isOpen.trans hopen, hentry, hcached⟩, hlasting.pageSize⟩

/-! ## Trying again -/

/-- Translating the address comes first, and nothing fails after it. -/
def Translates (pid : Pid) (vaddr : VirtAddr) (access : Access) (x : Op Pager Exception α) : Prop :=
  ∀ p, x.Ends p fun r p' => ∀ cause, r = .error cause →
    (translate pid vaddr access p).result = .error cause ∧
      (translate pid vaddr access p).state = p'

theorem translates_bind (pid : Pid) (vaddr : VirtAddr) (access : Access)
    {f : PhysAddr → Op Pager Exception α}
    (hf : ∀ paddr p, (f paddr).Ends p fun r _ => ∃ a, r = .ok a) :
    Translates pid vaddr access (translate pid vaddr access >>= f) := by
  intro p
  rw [Op.ends_bind]
  refine (Op.ends_self (translate pid vaddr access) p).imp ?_
  rintro (cause | paddr) p' ⟨hr, hs⟩
  · rintro cause' ⟨⟩
    exact ⟨hr.symm, hs.symm⟩
  · refine (hf paddr p').imp ?_
    rintro r p'' ⟨a, rfl⟩ cause ⟨⟩

theorem translates_read (pid : Pid) (vaddr : VirtAddr) (length : Nat) :
    Translates pid vaddr .read (read pid vaddr length) :=
  translates_bind pid vaddr .read fun _ _ => ⟨_, rfl⟩

theorem translates_write (pid : Pid) (vaddr : VirtAddr) (data : Bytes) :
    Translates pid vaddr .write (write pid vaddr data) :=
  translates_bind pid vaddr .write fun _ _ => ⟨_, rfl⟩

/-- Only a miss is resolved, and then the page is settled. -/
theorem settled_of_success (h : p.WellFormed none) (hopen : p.swap.isOpen = true)
    {cause : Exception} (hsuccess : (handleFault pid vaddr cause p).result = .ok .success) :
    ∃ e, (handleFault pid vaddr cause p).state.Settled pid
      (vaddr.vpn (handleFault pid vaddr cause p).state.pageSize) e := by
  by_cases hcause : cause = .tlbMiss
  · subst hcause
    obtain ⟨hstate, hiff⟩ := handleFault_of_miss pid vaddr p
    obtain ⟨e, he⟩ := hiff.mp hsuccess
    obtain ⟨hsettled, hsize⟩ := handleMiss_settles h hopen he
    rw [hstate, hsize]
    exact ⟨e, hsettled⟩
  · rw [handleFault_of_refusal hcause] at hsuccess
    exact absurd (Except.ok.inj hsuccess) (ofException_ne_success cause)

/-- An access that fails changes nothing that matters. -/
theorem Translates.same (hx : Translates pid vaddr access x) (h : p.WellFormed none)
    {cause : Exception} (hfails : (x p).result = .error cause) : Same p (x p).state := by
  obtain ⟨hresult, hstate⟩ := hx p cause hfails
  rw [← hstate]
  rcases translate_ends h with ⟨_, -, hsame⟩ | ⟨_, -, -, hok, -⟩
  · exact hsame
  · rw [hresult] at hok
    cases hok

/-- An access to a settled page raises no miss, so one round is enough. -/
theorem Settled.withFaults {number : Nat}
    (h : p.Settled number.toUInt32 (vaddr.vpn p.pageSize) e)
    (hx : Translates number.toUInt32 vaddr access x) (exhausted : Op Pager FaultResult α)
    (rounds : Nat) :
    withFaults number vaddr x exhausted (rounds + 1) p = Op.mapError .ofException x p := by
  rcases hxp : x p with ⟨cause | a, p', notices⟩
  · have hcause : cause ≠ .tlbMiss := by
      obtain ⟨-, -, hr⟩ := h.translate access
      have hfails := (hx p cause (by rw [hxp])).1
      rw [hfails] at hr
      split at hr
      · obtain rfl := Except.error.inj hr
        decide
      · obtain ⟨paddr, hok, -⟩ := hr
        cases hok
    have hfault : (Mmu.handleFault number vaddr cause : Op Pager Empty FaultResult) p' =
        ⟨.ok (.ofException cause), p', []⟩ := handleFault_of_refusal hcause p'
    simp only [VirtualMemory.withFaults, Op.bind_apply, Op.attempt, Op.total, hxp, hfault,
      if_neg (ofException_ne_success cause), Op.throw_apply, Op.mapError, Except.mapError,
      List.append_nil]
  · simp only [VirtualMemory.withFaults, Op.bind_apply, Op.attempt, hxp, Op.pure_apply,
      Op.mapError, Except.mapError, List.append_nil]

/-- An access takes two attempts at most, and does not run out of rounds. -/
theorem withFaults_eq_withOneFault (h : p.WellFormed none) (hopen : p.swap.isOpen = true)
    {number : Nat} (hx : Translates number.toUInt32 vaddr access x)
    (exhausted : Op Pager FaultResult α) (rounds : Nat) :
    withFaults number vaddr x exhausted (rounds + 2) p = withOneFault number vaddr x p := by
  rw [withFaults, withOneFault]
  refine Op.bind_congr ?_
  rintro (cause | a) hattempt
  · have hfails : (x p).result = .error cause := Except.ok.inj hattempt
    have hsame : Same p (x p).state := hx.same h hfails
    refine Op.bind_congr ?_
    intro outcome htotal
    obtain ⟨hresult, hstate⟩ := Op.total_ok htotal
    rw [hstate]
    by_cases hsuccess : outcome = .success
    · rw [if_pos hsuccess, if_pos hsuccess]
      obtain ⟨e, hsettled⟩ := settled_of_success (h.same hsame)
        ((congrArg Swapper.isOpen hsame.swap).trans hopen) (hsuccess ▸ hresult)
      exact hsettled.withFaults hx exhausted rounds
    · rw [if_neg hsuccess, if_neg hsuccess]
  · rfl

/-- What a page that was brought in as `e` is good for, at each of its addresses. -/
structure Usable (p : Pager) (pid : Pid) (vpn : Vpn) (e : Entry) : Prop where
  read : ∀ vaddr, vaddr.vpn p.pageSize = vpn → ∃ paddr,
    (translate pid vaddr .read p).Returns (.ok paddr) ∧
      paddr.value.toNat = e.ppn.toNat * p.pageSize + vaddr.offset p.pageSize
  write : ∀ vaddr, vaddr.vpn p.pageSize = vpn →
    if p.isReadOnly ⟨pid, vpn⟩ = true then (translate pid vaddr .write p).Returns (.error .readOnly)
    else ∃ paddr, (translate pid vaddr .write p).Returns (.ok paddr) ∧
      paddr.value.toNat = e.ppn.toNat * p.pageSize + vaddr.offset p.pageSize
  /-- Another miss counts itself, and does nothing else. -/
  miss : ∀ vaddr, vaddr.vpn p.pageSize = vpn →
    handleMiss pid vaddr p = ⟨.ok e, { p with stats := p.stats.add 1 .tlbMisses }, []⟩

theorem Settled.usable (h : p.Settled pid vpn e) (hdiv : p.pageSize.toUInt32 ≠ 0) :
    p.Usable pid vpn e := by
  have hrunning : ∀ vaddr access, (Pager.translate pid vaddr access p).halted = false := fun _ _ =>
    Op.halted_eq_false_iff.mpr (translate_issues h.wellFormed hdiv _ _ _)
  constructor
  case read =>
    rintro vaddr rfl
    obtain ⟨paddr, hok, haddr⟩ := (h.translate .read).2.2
    exact ⟨paddr, ⟨hok, hrunning _ _⟩, haddr⟩
  case write =>
    rintro vaddr rfl
    have hwrite := (h.translate .write).2.2
    simp only [true_and] at hwrite
    split
    next hread =>
      rw [pageOf, if_pos hread] at hwrite
      exact ⟨hwrite, hrunning _ _⟩
    next hread =>
      rw [pageOf, if_neg hread] at hwrite
      obtain ⟨paddr, hok, haddr⟩ := hwrite
      exact ⟨paddr, ⟨hok, hrunning _ _⟩, haddr⟩
  case miss =>
    rintro vaddr rfl
    exact h.handleMiss hdiv

/-- Wherever a miss is handled before the swap is closed, the page can be used at once, and still
after an access to it; and what a process does on a page takes two attempts at most. -/
theorem progress_after_miss (hreached : Reached c p) (hopen : p.swap.isOpen = true) (pid : Pid)
    (vaddr : VirtAddr) :
    (∀ e, (handleMiss pid vaddr p).Returns (.ok e) →
      (handleMiss pid vaddr p).state.Usable pid (vaddr.vpn p.pageSize) e ∧
      ∀ vaddr' access, vaddr'.vpn p.pageSize = vaddr.vpn p.pageSize →
        (translate pid vaddr' access (handleMiss pid vaddr p).state).state.Usable pid
          (vaddr.vpn p.pageSize) e) ∧
      ∀ process : Process,
        (∀ length, Hosted.withPage process vaddr (Mmu.read process.number vaddr length) p =
          withOneFault process.number vaddr (Mmu.read process.number vaddr length) p) ∧
        ∀ data, Hosted.withPage process vaddr (Mmu.write process.number vaddr data) p =
          withOneFault process.number vaddr (Mmu.write process.number vaddr data) p := by
  have h := hreached.wellFormed
  constructor
  · rintro e ⟨hok, hrunning⟩
    obtain ⟨hsettled, hsize⟩ := handleMiss_settles h hopen hok
    have hdiv := divisor_of_handleMiss hrunning
    rw [← hsize] at hdiv
    refine ⟨hsettled.usable hdiv, ?_⟩
    intro vaddr' access hvpn
    rw [← hsize] at hvpn
    rw [← hsize, ← hvpn] at hsettled ⊢
    obtain ⟨hsettled', hsize', -⟩ := hsettled.translate access
    exact hsettled'.usable (hsize'.symm ▸ hdiv)
  · intro process
    constructor
    · intro length
      exact withFaults_eq_withOneFault h hopen (translates_read _ vaddr length) _
        (maxFaultRounds - 2)
    · intro data
      exact withFaults_eq_withOneFault h hopen (translates_write _ vaddr data) _
        (maxFaultRounds - 2)

/-- A page takes the only frame and the only cache slot from another page that was written to. -/
theorem progress_after_miss_small :
    (handleMiss 1 ⟨4⟩ (small.after firstWrite)).Returns
        (.ok ⟨1, 0, { valid := true, used := true }⟩) ∧
      (handleMiss 1 ⟨4⟩ (small.after firstWrite)).state.Usable 1 1
        ⟨1, 0, { valid := true, used := true }⟩ ∧
      ∀ process : Process, ∀ data,
        Hosted.withPage process ⟨4⟩ (Mmu.write process.number ⟨4⟩ data) (small.after firstWrite) =
          withOneFault process.number ⟨4⟩ (Mmu.write process.number ⟨4⟩ data)
            (small.after firstWrite) := by
  have hreached : Reached smallConfig (small.after firstWrite) :=
    (Reached.created created_small).after firstWrite
  have hok : (handleMiss 1 ⟨4⟩ (small.after firstWrite)).Returns
      (.ok ⟨1, 0, { valid := true, used := true }⟩) := ⟨by decide +kernel, by decide +kernel⟩
  obtain ⟨husable, htwice⟩ := progress_after_miss hreached (by decide +kernel) 1 ⟨4⟩
  exact ⟨hok, (husable _ hok).1, fun process data => (htwice process).2 data⟩

end Pager

end VirtualMemory
