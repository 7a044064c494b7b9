import VirtualMemory.Proofs.LiveProcesses
import VirtualMemory.Proofs.StaticCalls
import VirtualMemory.Proofs.Pager.Closing

/-!
# Numbers that have nothing

A machine is clear of some processes if it has nothing under their numbers: no space, so no page,
frame or slot. Whatever goes on under whatever number, it stays clear of them, unless a space is
loaded for one of them; and taking down a space makes it clear of one process more. A fault of a
process that the machine is clear of is not resolved, and does nothing.
-/

namespace VirtualMemory

variable {S : Nat → Prop} {number pageSize : Nat}

/-! ## Static mappings -/

namespace StaticMachine

variable {m m' : StaticMachine}

/-- The machine is in order, and no frame belongs to a mapping of these numbers. -/
structure ClearOf (S : Nat → Prop) (m : StaticMachine) : Prop where
  wellFormed : m.WellFormed
  noFrames : ∀ q, S q → m.ppns q = []

/-- An access leaves the tables alone. -/
theorem ClearOf.accessed (h : m.ClearOf S) {mapping : Nat} (hwf : m'.WellFormed)
    (haccessed : Accessed mapping m m') : m'.ClearOf S :=
  ⟨hwf, fun q hq => (haccessed.ppns q).trans (h.noFrames q hq)⟩

theorem ClearOf.read (h : m.ClearOf S) (mapping : Nat) (vaddr : VirtAddr) (length : Nat) :
    (StaticMachine.read mapping vaddr length).Ends m fun _ m' => m'.WellFormed := by
  simp only [StaticMachine.read, Op.ends_bind]
  refine (h.wellFormed.translate mapping vaddr .read).imp ?_
  rintro (e | paddr) m' h'
  · exact h'.1
  · exact h'.1

theorem ClearOf.teardown (h : m.ClearOf S) (number : Nat) :
    (StaticMachine.teardown number).Ends m fun _ m' => m'.ClearOf fun q => S q ∨ q = number := by
  simp only [StaticMachine.teardown, Op.ends_bind, Op.ends_get, Op.ends_modify]
  refine (releaseAll_ends (h.wellFormed.retable (m.tables.erase number))
    (m.table number)).imp ?_
  intro r m' hback
  refine ⟨hback.reframed.wellFormed, fun q hq => ?_⟩
  rw [ppns_congr hback.reframed.tables, ppns_erase]
  split
  · rfl
  next hne =>
    rcases hq with hq | rfl
    · exact h.noFrames q hq
    · exact absurd rfl hne

/-- A failed load takes nothing, and one that succeeds gets frames for its own mapping. -/
theorem ClearOf.load (h : m.ClearOf S) (hnew : ∀ q, S q → q ≠ number) (layout : Layout) :
    (StaticMachine.load number number.toUInt32 layout).Ends m fun _ m' => m'.ClearOf S := by
  refine ((load_ends h.wellFormed number number.toUInt32 layout).and
    (load_effect h.wellFormed number number.toUInt32 layout)).imp ?_
  rintro r m' ⟨⟨hwf, -, -⟩, heffect⟩
  refine ⟨hwf, fun q hq => ?_⟩
  cases r with
  | error cause => rw [ppns_congr heffect.untouched.tables, h.noFrames q hq]
  | ok u => rw [ppns, heffect.remapped.others q (hnew q hq), ← ppns, h.noFrames q hq]

theorem handleFault_ends (m : StaticMachine) (pid : Pid) (vaddr : VirtAddr) (e : Exception) :
    (handleFault pid vaddr e).Ends m fun r m' => r = .ok (.ofException e) ∧ m' = m := by
  simp only [handleFault]
  split
  · exact ⟨rfl, rfl⟩
  · exact ⟨rfl, rfl⟩

theorem confined_clearOf (S : Nat → Prop) (number pageSize : Nat) :
    Confined number pageSize (ClearOf S) where
  translate := by
    intro vaddr access m h
    refine ((h.wellFormed.translate number vaddr access).and
      (translate_accessed m number vaddr access)).imp ?_
    exact fun _ _ h' => ⟨h.accessed h'.1.1 h'.2, fun _ _ => trivial⟩
  read := by
    intro vaddr length m h
    refine ((h.read number vaddr length).and (read_accessed m number vaddr length)).imp ?_
    exact fun _ _ h' => ⟨h.accessed h'.1 h'.2, fun _ _ => trivial⟩
  write := by
    intro vaddr data _ m h
    refine ((h.wellFormed.write number vaddr data).and
      (write_accessed m number vaddr data)).imp ?_
    exact fun _ _ h' => ⟨h.accessed h'.1.1 h'.2, fun _ _ => trivial⟩
  handleFault := by
    intro vaddr e m h
    refine (handleFault_ends m number.toUInt32 vaddr e).imp ?_
    rintro _ _ ⟨-, rfl⟩
    exact ⟨h, fun _ _ => trivial⟩
  saveContext := .pure trivial
  restoreContext := .pure trivial
  teardown := by
    intro m h
    refine (h.teardown number).imp ?_
    exact fun _ _ h' => ⟨⟨h'.wellFormed, fun q hq => h'.noFrames q (.inl hq)⟩, fun _ _ => trivial⟩

end StaticMachine

/-! ## Paging -/

namespace Pager

variable {p p' : Pager}

/-- The pager is in order, and no space is registered under the words of these numbers. -/
structure ClearOf (S : Nat → Prop) (p : Pager) : Prop where
  wellFormed : p.WellFormed none
  noSpace : ∀ q, S q → p.extent q.toUInt32 = none

theorem ClearOf.stepOf (h : p.ClearOf S) {event : Event} (hsettled : event.Settled) :
    (p.stepOf event).after.ClearOf S := by
  obtain ⟨hwf, heffect⟩ := h.wellFormed.stepOf event
  exact ⟨hwf, fun q hq => heffect.settled hsettled (h.noSpace q hq)⟩

theorem Event.Stays.settled {event : Event} (h : event.Stays) : event.Settled := by
  cases event with
  | register => exact h
  | _ => trivial

theorem confined_clearOf (S : Nat → Prop) (number pageSize : Nat) :
    Confined number pageSize (ClearOf S) where
  toInUse := inUse_of_steps fun _ _ _ hstays _ h => h.stepOf hstays.settled
  teardown := maintains_done (.teardown number.toUInt32) rfl fun _ h => h.stepOf trivial

theorem ClearOf.teardown (h : p.ClearOf S) (number : Nat) :
    (Pager.teardown number.toUInt32).Ends p fun _ p' =>
      p'.ClearOf fun q => S q ∨ q = number := by
  have hkept : (Pager.teardown number.toUInt32).Maintains (ClearOf S) fun _ => True :=
    maintains_done (.teardown number.toUInt32) rfl fun _ h => h.stepOf trivial
  refine ((hkept p h).and (teardown_ends h.wellFormed number.toUInt32)).imp ?_
  rintro r p' ⟨⟨h', -⟩, -, -, -, hgone⟩
  refine ⟨h'.wellFormed, fun q hq => ?_⟩
  rcases hq with hq | rfl
  · exact h'.noSpace q hq
  · exact hgone

theorem ClearOf.load (h : p.ClearOf S) (hnew : ∀ q, S q → q.toUInt32 ≠ number.toUInt32)
    (layout : Layout) :
    (Pager.load number.toUInt32 layout).Ends p fun _ p' => p'.ClearOf S := by
  refine (registerSpace_ends p number.toUInt32 layout.numPages (some layout.index)).imp ?_
  rintro (cause | u) p' ⟨hspace, rfl⟩
  · exact h
  · refine ⟨h.wellFormed.registered hspace _ _, fun q hq => ?_⟩
    rw [extent_registered, if_neg (hnew q hq), h.noSpace q hq]

theorem ClearOf.closed (h : p.ClearOf S) : p.closed.ClearOf S := ⟨h.wellFormed.closed, h.noSpace⟩

/-- A fault outside every space is refused before anything is counted. -/
theorem handleFault_cleared {pid : Pid} (hnone : p.extent pid = none) (vaddr : VirtAddr)
    (e : Exception) : (handleFault pid vaddr e).Ends p fun r p' =>
      (∃ outcome, r = .ok outcome ∧ outcome ≠ .success) ∧ p' = p := by
  cases e with
  | tlbMiss =>
    have hout : p.inBounds pid (vaddr.vpn p.pageSize) = false := by
      rw [inBounds_eq, hnone, Option.any_none]
    simp only [handleFault, handleMiss, Op.ends_bind, Op.ends_attempt, Op.ends_get, hout,
      Bool.not_false, if_true, Op.ends_notify, Op.ends_throw]
    exact ⟨⟨.invalidAddress, rfl, by decide⟩, rfl⟩
  | readOnly | addressError => exact ⟨⟨_, rfl, ofException_ne_success _⟩, rfl⟩

end Pager

/-! ## Machines of either mode -/

namespace Backend

variable {b : Backend}

/-- The machine is in order, and has nothing under these numbers. -/
def ClearOf (S : Nat → Prop) : Backend → Prop := Each (StaticMachine.ClearOf S) (Pager.ClearOf S)

/-- There is no space for what the machine is clear of. -/
theorem ClearOf.noSpace (h : b.ClearOf S) (hnumber : S number) : b.NoSpace number := by
  cases b with
  | static m => exact StaticMachine.ClearOf.noFrames h number hnumber
  | paged p => exact Pager.ClearOf.noSpace h number hnumber

/-- It is clear of whatever it has nothing of. -/
theorem ClearOf.of_noSpace {T : Nat → Prop} (h : b.ClearOf S)
    (hT : ∀ q, T q → b.NoSpace q) : b.ClearOf T := by
  cases b with
  | static m => exact ⟨StaticMachine.ClearOf.wellFormed h, hT⟩
  | paged p => exact ⟨Pager.ClearOf.wellFormed h, hT⟩

theorem Sound.clearOf {c : Config} (h : b.Sound c) (hS : ∀ q, S q → b.NoSpace q) :
    b.ClearOf S := by
  cases b with
  | static m => exact ⟨StaticMachine.Sound.wellFormed h, hS⟩
  | paged p => exact ⟨Pager.Sound.wellFormed h, hS⟩

theorem confined_clearOf (S : Nat → Prop) (number pageSize : Nat) :
    Confined number pageSize (ClearOf S) :=
  confined_each (StaticMachine.confined_clearOf S number pageSize)
    (Pager.confined_clearOf S number pageSize)

theorem ClearOf.teardown (h : b.ClearOf S) (number : Nat) :
    (Mmu.teardown number : Op Backend Empty Unit).Ends b fun _ b' =>
      b'.ClearOf fun q => S q ∨ q = number := by
  cases b with
  | static m => exact StaticMachine.ClearOf.teardown h number
  | paged p => exact Pager.ClearOf.teardown h number

theorem ClearOf.load (h : b.ClearOf S) (hnew : ∀ q, S q → b.Distinct q number) (layout : Layout) :
    (Mmu.load number layout : Op Backend MemoryError Unit).Ends b fun _ b' => b'.ClearOf S := by
  cases b with
  | static m => exact StaticMachine.ClearOf.load h hnew layout
  | paged p => exact Pager.ClearOf.load h hnew layout

theorem ClearOf.disturbed (h : b.ClearOf S) {events : List Pager.Event}
    (hevents : ∀ event ∈ events, event.Settled) : (b.disturbed events).ClearOf S := by
  cases b with
  | static m => exact h
  | paged p =>
    induction events with
    | nil => exact h
    | cons event past ih =>
      obtain ⟨hevent, hpast⟩ := List.forall_mem_cons.mp hevents
      exact Pager.ClearOf.stepOf (ih hpast) hevent

/-- Closing the swap leaves the spaces as they are. -/
theorem ClearOf.close (h : b.ClearOf S) :
    (dispatch (pure ()) Pager.close : Op Backend Empty Unit).Ends b fun _ b' => b'.ClearOf S := by
  cases b with
  | static m => exact h
  | paged p =>
    obtain ⟨-, hclosed⟩ := Pager.close_ends p
    show (Pager.close p).state.ClearOf S
    rw [hclosed]
    exact Pager.ClearOf.closed h

/-- An exception of a process without a space is never a success, and changes nothing. -/
theorem handleFault_cleared (hnone : b.NoSpace number) (vaddr : VirtAddr) (e : Exception) :
    (Mmu.handleFault number vaddr e : Op Backend Empty FaultResult).Ends b fun r b' =>
      (∃ outcome, r = .ok outcome ∧ outcome ≠ .success) ∧ b' = b := by
  cases b with
  | static m =>
    obtain ⟨hr, hstate⟩ := StaticMachine.handleFault_ends m number.toUInt32 vaddr e
    exact ⟨⟨_, hr, ofException_ne_success e⟩, congrArg Backend.static hstate⟩
  | paged p =>
    obtain ⟨hr, hstate⟩ := Pager.handleFault_cleared hnone vaddr e
    exact ⟨hr, congrArg Backend.paged hstate⟩

end Backend

end VirtualMemory
