import VirtualMemory.Proofs.KernelRuns

/-!
# Live processes have their memory

A process that was spawned has a space of as many pages as it was told, and they fit the address
space. Its own requests keep the space until the process ends, and those of the others do not touch
it. So it has its space after whatever the kernel was asked to do.
-/

namespace VirtualMemory

variable {σ ε α : Type} {c : Config} {n number q pageSize numPages : Nat} {live : Bool}

/-! ## Spaces -/

/-- A mapping of so many pages, each of them in a frame. -/
structure StaticMachine.Houses (mapping numPages : Nat) (m : StaticMachine) : Prop where
  length : (m.table mapping).length = numPages
  valid : ∀ e ∈ m.table mapping, e.valid = true

theorem StaticMachine.Houses.congr {m m' : StaticMachine} {mapping : Nat}
    (h : Houses mapping numPages m) (htable : m'.table mapping = m.table mapping) :
    Houses mapping numPages m' := by
  constructor
  · rw [htable, h.length]
  · rw [htable]
    exact h.valid

/-- An access neither grows nor shrinks the table. -/
theorem StaticMachine.Houses.translate {m : StaticMachine} {mapping : Nat}
    (h : Houses mapping numPages m) (vaddr : VirtAddr) (access : Access) :
    (StaticMachine.translate mapping vaddr access).Ends m fun _ m' =>
      Houses mapping numPages m' := by
  refine (translate_cases m mapping vaddr access).imp ?_
  rintro r m' (⟨cause, -, rfl⟩ | ⟨e, he, hvalid, -, rfl⟩)
  · exact h
  · have htable := table_setTable m mapping
      ((m.table mapping).set (vaddr.vpn m.memory.pageSize).toNat (e.touched access))
    constructor
    · rw [htable, List.length_set, h.length]
    · intro e' he'
      rw [htable] at he'
      rcases List.mem_or_eq_of_mem_set he' with hold | rfl
      · exact h.valid e' hold
      · rw [(Entry.touched_extends (.refl e) access).valid, hvalid]

theorem StaticMachine.inUse_houses (number pageSize numPages : Nat) :
    InUse number pageSize (Houses number numPages) where
  translate := fun vaddr access _ h => (h.translate vaddr access).imp fun _ _ h' =>
    ⟨h', fun _ _ => trivial⟩
  read := by
    intro vaddr length m h
    show (StaticMachine.read number vaddr length).Ends m _
    simp only [StaticMachine.read, Op.ends_bind]
    refine (h.translate vaddr .read).imp ?_
    rintro (e | paddr) m' h'
    · exact ⟨h', fun _ _ => trivial⟩
    · exact ⟨h', fun _ _ => trivial⟩
  write := by
    intro vaddr data _ m h
    show (StaticMachine.write number vaddr data).Ends m _
    simp only [StaticMachine.write, Op.ends_bind]
    refine (h.translate vaddr .write).imp ?_
    rintro (e | paddr) m' h'
    · exact ⟨h', fun _ _ => trivial⟩
    · exact ⟨h'.congr rfl, fun _ _ => trivial⟩
  handleFault := by
    intro vaddr e
    show (StaticMachine.handleFault number.toUInt32 vaddr e).Maintains _ _
    rw [StaticMachine.handleFault]
    split
    · exact .bind (.notify _) fun _ _ => .pure trivial
    · exact .pure trivial
  saveContext := .pure trivial
  restoreContext := .pure trivial

theorem StaticMachine.load_houses {m : StaticMachine} (h : m.WellFormed) (mapping : Nat) (pid : Pid)
    (layout : Layout) : (load mapping pid layout).Ends m fun r m' =>
      r = .ok () → Houses mapping layout.numPages m' := by
  refine (load_effect h mapping pid layout).imp ?_
  intro r m' heffect hr
  cases heffect with
  | refused | undone => cases hr
  | @loaded entries m₁ m₂ htaken hfilled hholds =>
    have htable := table_setTable m₂ mapping (entries.map (mapped layout.index))
    have hvpns := congrArg List.length htaken.acquired.vpns
    simp only [List.length_map, List.length_range] at hvpns
    constructor
    · rw [htable, List.length_map, hvpns]
    · intro e he
      rw [htable] at he
      obtain ⟨e₀, he₀, rfl⟩ := List.mem_map.mp he
      rw [mapped, Entry.valid, htaken.acquired.flags e₀ he₀]

structure Pager.Houses (pid : Pid) (numPages : Nat) (p : Pager) : Prop where
  wellFormed : p.WellFormed none
  extent : (p.extent pid).map (·.1) = some numPages

/-- No step but a registration or a teardown changes how many pages a space has. -/
theorem Pager.Effect.pages {p p' : Pager} {event : Event} {answer : Answer}
    (he : Effect p event answer p') (hstays : event.Stays) (pid : Pid) :
    (p'.extent pid).map (·.1) = (p.extent pid).map (·.1) := by
  cases he.outline with
  | steady _ h => rw [h.extent]
  | registered => exact hstays.elim
  | tornDown => exact hstays.elim
  | swapFaults => rfl
  | imageFaults =>
    rw [Pager.extent, get?_withImageFaults, Pager.extent]
    split
    · cases p.spaces.get? pid <;> rfl
    · rfl

theorem Pager.Houses.stepOf {p : Pager} {pid : Pid} (h : Houses pid numPages p) {event : Event}
    (hstays : event.Stays) : Houses pid numPages (p.stepOf event).after := by
  obtain ⟨h', he⟩ := h.wellFormed.stepOf event
  exact ⟨h', (he.pages hstays pid).trans h.extent⟩

theorem Pager.inUse_houses (number pageSize numPages : Nat) :
    InUse number pageSize (Houses number.toUInt32 numPages) :=
  inUse_of_steps fun _ _ _ hstays _ h => h.stepOf hstays

theorem Pager.load_houses {p : Pager} (h : p.WellFormed none) {pid : Pid}
    (hnew : p.extent pid = none) (layout : Layout) : (load pid layout).Ends p fun r p' =>
      r = .ok () → Houses pid layout.numPages p' := by
  refine (registerSpace_ends p pid layout.numPages (some layout.index)).imp ?_
  rintro (cause | done) p' hr hok
  · cases hok
  · obtain ⟨-, rfl⟩ := hr
    refine ⟨h.registered hnew layout.numPages (some layout.index), ?_⟩
    rw [extent_registered, if_pos rfl, Option.map_some]

namespace Backend

variable {b b' : Backend}

/-- The machine has a space of so many pages for the process. -/
def Houses (number numPages : Nat) : Backend → Prop :=
  Each (StaticMachine.Houses number numPages) (Pager.Houses number.toUInt32 numPages)

theorem inUse_houses (number pageSize numPages : Nat) :
    InUse number pageSize (Houses number numPages) :=
  inUse_each (StaticMachine.inUse_houses number pageSize numPages)
    (Pager.inUse_houses number pageSize numPages)

/-- The spaces of other processes stay. -/
theorem Respects.houses (h : Respects number b b') (hq : b.Distinct q number)
    (hb : b.Houses q numPages) : b'.Houses q numPages := by
  cases h with
  | static h => exact StaticMachine.Houses.congr hb (h.others q hq)
  | paged h =>
    have hext := h.others q.toUInt32 hq
    exact ⟨h.wellFormed, hext ▸ Pager.Houses.extent hb⟩

/-- Numbers that the machine does not tell apart have the same space. -/
theorem Houses.same (hh : b.Houses q numPages) (hsame : ¬ b.Distinct q number) :
    b.Houses number numPages := by
  cases b with
  | static m => exact Decidable.not_not.mp hsame ▸ hh
  | paged p =>
    have hword : q.toUInt32 = number.toUInt32 := Decidable.not_not.mp hsame
    rw [Houses, Each, ← hword]
    exact hh

theorem load_houses (h : b.Sound c) (hnew : b.NoSpace number) (layout : Layout) :
    (Mmu.load number layout : Op Backend MemoryError Unit).Ends b fun r b' =>
      r = .ok () → b'.Houses number layout.numPages := by
  cases b with
  | static m =>
    obtain ⟨hwf, -, -, -⟩ := h
    exact StaticMachine.load_houses hwf number number.toUInt32 layout
  | paged p =>
    obtain ⟨hwf, -, -, -, -⟩ := h
    exact Pager.load_houses hwf hnew layout

/-- There is no space under a free number. -/
theorem Houses.distinct (hh : b.Houses q numPages) (hpos : 0 < numPages)
    (hfree : b.NoSpace number) : b.Distinct q number := by
  by_contra hsame
  have hspace := hh.same hsame
  cases b with
  | static m =>
    have hnil : m.table number = [] := List.map_eq_nil_iff.mp hfree
    have hlength := StaticMachine.Houses.length hspace
    rw [hnil, List.length_nil] at hlength
    omega
  | paged p =>
    have hext := Pager.Houses.extent hspace
    rw [show p.extent number.toUInt32 = none from hfree] at hext
    cases hext

theorem Sound.geometry (h : b.Sound c) : Geometry c.physPages c.pageSize := by
  cases b with
  | static m =>
    obtain ⟨hwf, -, hsize, htotal⟩ := h
    exact htotal ▸ hsize ▸ hwf.geometry
  | paged p =>
    obtain ⟨hwf, -, hsize, htotal, -⟩ := h
    exact htotal ▸ hsize ▸ hwf.sized.geometry

end Backend

/-! ## Calls on a process that has ended -/

namespace Hosted

section

variable [Mmu σ] {s : Hosted σ} (hended : s.process.terminated = true)

include hended

theorem translate_ended (vaddr : VirtAddr) (access : Access) :
    (translate vaddr access : Op (Hosted σ) Exception PhysAddr).Ends s fun r s' =>
      r = .error .addressError ∧ s' = s := by
  simp only [translate, Op.ends_bind, Op.ends_get, hended, if_true, Op.ends_throw, and_self]

/-- Nothing is read for a process that has ended: the copy stops before its first byte. -/
theorem readMemory_ended (vaddr : VirtAddr) (length : Nat) :
    (readMemory vaddr length : Op (Hosted σ) Empty Bytes).Ends s fun r s' =>
      r = .ok [] ∧ s' = s := by
  simp only [readMemory, copyOut, Op.ends_bind, Op.ends_get, hended, if_true, Op.ends_pure,
    and_self]

theorem writeMemory_ended (vaddr : VirtAddr) (data : Bytes) :
    (writeMemory vaddr data : Op (Hosted σ) Empty Nat).Ends s fun r s' => r = .ok 0 ∧ s' = s := by
  simp only [writeMemory, copyIn, Op.ends_bind, Op.ends_get, hended, if_true, Op.ends_pure,
    and_self]

theorem readText_ended (vaddr : VirtAddr) (maxLength : Nat) :
    (readText vaddr maxLength : Op (Hosted σ) Empty (Option String)).Ends s fun r s' =>
      r = .ok none ∧ s' = s := by
  simp only [readText, Op.ends_bind, Op.ends_checkBuffer]
  refine (readMemory_ended hended vaddr _).imp ?_
  rintro _ _ ⟨rfl, rfl⟩
  exact ⟨rfl, rfl⟩

/-- A process that has ended leaves no context behind. -/
theorem switchOut_ended :
    (switchOut : Op (Hosted σ) Empty Unit).Ends s fun r s' => r = .ok () ∧ s' = s := by
  simp only [switchOut, Op.ends_bind, Op.ends_get, hended, Bool.not_true, Bool.false_eq_true,
    if_false, Op.ends_pure, and_self]

theorem switchIn_ended :
    (switchIn : Op (Hosted σ) Empty Unit).Ends s fun r s' => r = .ok () ∧ s' = s := by
  simp only [switchIn, Op.ends_bind, Op.ends_get, hended, Bool.not_true, Bool.false_eq_true,
    if_false, Op.ends_pure, and_self]

theorem exit_ended (status : Int) :
    (exit status : Op (Hosted σ) Empty Unit).Ends s fun r s' => r = .ok () ∧ s' = s := by
  simp only [exit, Op.ends_bind, Op.ends_get, hended, Bool.not_true, Bool.false_eq_true,
    if_false, Op.ends_pure, and_self]

end

end Hosted

/-! ## Processes on their machines -/

section

variable [Mmu σ] {I : σ → Prop}

/-- Every machine is in use in a trivial sense. -/
theorem InUse.always (number pageSize : Nat) : InUse number pageSize (fun _ : σ => True) := by
  constructor
  all_goals
    intros
    intro _ _
    exact ⟨trivial, fun _ _ => trivial⟩

namespace Hosted

structure Fits (number pageSize numPages : Nat) (p : Process) : Prop where
  numbered : Numbered number pageSize p
  pages : p.numPages = numPages

/-- A process that was alive at first, or had ended, as `live` says. While it is what it was its
machine satisfies `I`, and it does not come to life again. -/
structure Settled (live : Bool) (number pageSize numPages : Nat) (I : σ → Prop) (s : Hosted σ) :
    Prop where
  fits : Fits number pageSize numPages s.process
  ended : live = false → s.process.terminated = true
  machine : s.process.terminated = !live → I s.machine

omit [Mmu σ] in
theorem Settled.runs {s : Hosted σ} (h : Settled live number pageSize numPages I s)
    (hs : s.process.terminated = false) :
    live = true ∧ Runs (Fits number pageSize numPages) I s := by
  cases live with
  | true => exact ⟨rfl, h.fits, h.machine hs⟩
  | false =>
    rw [h.ended rfl] at hs
    cases hs

/-- What keeps the process and is kept by the machine. -/
theorem Settled.use {x : Op (Hosted σ) ε α}
    (hx : ∀ J I, InUse number pageSize I → (∀ p, J p → Numbered number pageSize p) →
      x.Maintains (Runs J I) fun _ => True) (hI : InUse number pageSize I) :
    x.Maintains (Settled live number pageSize numPages I) fun _ => True := by
  intro s h
  have hnumbered : ∀ p, p = s.process → Numbered number pageSize p :=
    fun p hp => hp ▸ h.fits.numbered
  -- such an operation does not change the process
  obtain ⟨hsame, -⟩ := hx (· = s.process) _ (.always number pageSize) hnumbered s ⟨rfl, trivial⟩
  refine ⟨⟨hsame.process ▸ h.fits, hsame.process ▸ h.ended, ?_⟩, fun _ _ => trivial⟩
  intro hkept
  rw [hsame.process] at hkept
  exact ((hx (· = s.process) I hI hnumbered).state ⟨rfl, h.machine hkept⟩).machine

omit [Mmu σ] in
/-- What does nothing to a process that has ended. -/
theorem Settled.unlessEnded {x : Op (Hosted σ) ε α}
    (hended : ∀ s : Hosted σ, s.process.terminated = true → x.Ends s fun _ s' => s' = s)
    (hlive : x.Maintains (Runs (Fits number pageSize numPages) I) fun _ => True) :
    x.Maintains (Settled live number pageSize numPages I) fun _ => True := by
  intro s h
  refine ⟨?_, fun _ _ => trivial⟩
  cases hs : s.process.terminated with
  | true =>
    have hsame : (x s).state = s := hended s hs
    rw [hsame]
    exact h
  | false =>
    obtain ⟨rfl, hruns⟩ := h.runs hs
    have hruns' := hlive.state hruns
    exact ⟨hruns'.process, fun hfalse => absurd hfalse (by decide), fun _ => hruns'.machine⟩

theorem Settled.switchOut (hI : InUse number pageSize I) :
    (switchOut : Op (Hosted σ) Empty Unit).Maintains (Settled live number pageSize numPages I)
      fun _ => True := by
  refine Settled.unlessEnded (fun _ hs => (switchOut_ended hs).2) ?_
  exact switchOut_keeps hI (fun _ hp => hp.numbered) fun _ hp => ⟨hp.numbered, hp.pages⟩

theorem Settled.switchIn (hI : InUse number pageSize I) :
    (switchIn : Op (Hosted σ) Empty Unit).Maintains (Settled live number pageSize numPages I)
      fun _ => True := by
  refine Settled.unlessEnded (fun _ hs => (switchIn_ended hs).2) ?_
  exact switchIn_keeps hI (fun _ hp => hp.numbered) fun _ hp => ⟨hp.numbered, hp.pages⟩

/-- When it ends nothing is promised of the machine. -/
theorem Settled.exit (status : Int) :
    (exit status : Op (Hosted σ) Empty Unit).Maintains (Settled live number pageSize numPages I)
      fun _ => True := by
  intro s h
  simp only [Hosted.exit, Op.ends_bind, Op.ends_get, Op.ends_ite]
  split
  next hs =>
    rw [Bool.not_eq_true'] at hs
    obtain ⟨rfl, -⟩ := h.runs hs
    rw [Op.ends_on]
    refine (Op.ends_self (Mmu.teardown s.process.number) s.machine).imp ?_
    rintro (e | u) m -
    · exact e.elim
    · simp only [Op.ends_modify, Op.ends_notify]
      refine ⟨⟨⟨h.fits.numbered, h.fits.pages⟩, fun _ => rfl, ?_⟩, fun _ _ => trivial⟩
      rintro ⟨⟩
  next => exact ⟨h, fun _ _ => trivial⟩

theorem Settled.handleException (hI : InUse number pageSize I) (e : Exception) (vaddr : VirtAddr) :
    (handleException e vaddr : Op (Hosted σ) Empty FaultResult).Maintains
      (Settled live number pageSize numPages I) fun _ => True := by
  have hend : ∀ (pid : Pid) (outcome : FaultResult), Op.Maintains
      (Settled live number pageSize numPages I) (fun _ => True) (do
        if outcome ≠ .success then
          Op.notify (.exceptionUnhandled pid vaddr)
          Hosted.exit (-1)
        return outcome : Op (Hosted σ) Empty FaultResult) := by
    intro pid outcome
    dsimp only
    split
    · exact .bind (.notify _) fun _ _ => .bind (Settled.exit (-1)) fun _ _ => .pure trivial
    · exact .pure trivial
  have hhandled : (Op.on machinePart (Mmu.handleFault number vaddr e) :
      Op (Hosted σ) Empty FaultResult).Maintains (Settled live number pageSize numPages I)
        fun _ => True := by
    intro s h
    refine ⟨⟨h.fits, h.ended, ?_⟩, fun _ _ => trivial⟩
    exact fun hkept => (hI.handleFault vaddr e).state (h.machine hkept)
  apply Op.Maintains.get
  intro s hs
  obtain ⟨hnumber, -⟩ := hs.fits.numbered
  dsimp only
  rw [hnumber]
  refine .bind (.checkDivisor _) fun _ _ => ?_
  split
  · exact .bind hhandled fun outcome _ => hend _ outcome
  · exact hend _ .invalidAddress

end Hosted

/-! ## Loading -/

namespace Loader

/-- A process that was loaded has its space. -/
theorem load_housed {I : Nat → σ → Prop} (hI : ∀ numPages, InUse number pageSize (I numPages))
    (hpower : pageSize.isPowerOfTwo) (name : String) (image : Image) (args : List String)
    (stackPages : Nat) {m : σ} (hsize : Mmu.pageSize m = pageSize)
    (hload : ∀ layout, (Mmu.load number layout : Op σ MemoryError Unit).Ends m fun r m' =>
      r = .ok () → I layout.numPages m') :
    (load number name image args stackPages).Ends m fun r m' => ∀ process, r = .ok process →
      process.number = number ∧ Geometry process.numPages pageSize ∧ I process.numPages m' := by
  obtain ⟨planned, hplan⟩ : (plan image (args.map textBytes) stackPages pageSize :
    Op σ MemoryError Layout).Stateless := stateless_plan _ _ _ _
  simp only [load, Op.ends_bind, Op.ends_get, hsize]
  refine ((hplan m).and (plan_ends image (args.map textBytes) stackPages pageSize m)).imp ?_
  rintro r m₁ ⟨⟨rfl, rfl⟩, hplanned⟩
  cases r with
  | error e => rintro _ ⟨⟩
  | ok layout =>
    obtain ⟨hpages, hroom, -⟩ := hplanned layout rfl
    have hpos : 0 < layout.numPages := by omega
    refine (hload layout).imp ?_
    rintro (e | u) m₂ hm₂
    · rintro _ ⟨⟩
    have hruns : Hosted.Runs (Hosted.Numbered number pageSize) (I layout.numPages)
        ⟨newProcess number name layout (args.map textBytes).length pageSize, m₂⟩ :=
      ⟨⟨rfl, rfl⟩, hm₂ rfl⟩
    have hwritten := Hosted.writeArguments_keeps (hI layout.numPages) (fun _ hp => hp)
      (newProcess number name layout (args.map textBytes).length pageSize).initialSp.value
      ((newProcess number name layout (args.map textBytes).length pageSize).initialSp.value +
        ((args.map textBytes).length * argumentPointerSize).toUInt32) (args.map textBytes) _ hruns
    refine enter_of_written (hwritten.imp ?_)
    rintro (e | u) s ⟨hs, -⟩
    · refine (Op.ends_self (Hosted.exit (-1)) s).imp ?_
      rintro _ s' - _ ⟨⟩
    · rintro process ⟨⟩
      exact ⟨rfl, ⟨hpower, hpos, hroom⟩, hs.machine⟩

end Loader

end

theorem Request.serve_settled {I : Backend → Prop} (h : InUse number pageSize I)
    (request : Request) :
    (request.serve : Op (Hosted Backend) Empty Reply).Maintains
      (Hosted.Settled live number pageSize numPages I) fun _ => True := by
  cases request with
  | read vaddr length =>
    refine .bind (Hosted.Settled.use ?_ h) fun _ _ => .pure trivial
    exact fun _ _ hI hJ => Hosted.readMemory_keeps hI hJ vaddr length
  | write vaddr data =>
    refine .bind (Hosted.Settled.use ?_ h) fun _ _ => .pure trivial
    exact fun _ _ hI hJ => Hosted.writeMemory_keeps hI hJ vaddr data
  | text vaddr maxLength =>
    refine .bind (Hosted.Settled.use ?_ h) fun _ _ => .pure trivial
    exact fun _ _ hI hJ => Hosted.readText_keeps hI hJ vaddr maxLength
  | switchOut => exact .bind (Hosted.Settled.switchOut h) fun _ _ => .pure trivial
  | switchIn => exact .bind (Hosted.Settled.switchIn h) fun _ _ => .pure trivial

/-- What happens in the pager besides moves pages, and leaves each process its space. -/
def Pager.Event.Gentle : Pager.Event → Prop
  | .write .. => False
  | event => event.Stays

theorem Pager.Event.Gentle.settled {event : Pager.Event} (h : event.Gentle) :
    event.InPage pageSize ∧ event.Settled := by
  cases event with
  | write | register | teardown => exact h.elim
  | _ => exact ⟨trivial, trivial⟩

theorem Backend.Houses.disturbed {b : Backend} (h : b.Houses number numPages)
    {events : List Pager.Event} (hevents : ∀ event ∈ events, event.Gentle) :
    (b.disturbed events).Houses number numPages := by
  cases b with
  | static m => exact h
  | paged p =>
    induction events with
    | nil => exact h
    | cons event past ih =>
      obtain ⟨hevent, hpast⟩ := List.forall_mem_cons.mp hevents
      refine Pager.Houses.stepOf (ih hpast) ?_
      cases event with
      | write => exact hevent.elim
      | _ => exact hevent

/-! ## Kernels -/

namespace Kernel

variable {k : Kernel}

/-- The kernel knows the process by this number, and it has not ended. -/
structure Alive (k : Kernel) (number : Nat) (process : Process) : Prop where
  known : k.processes.get? number = some process
  live : process.terminated = false

/-- Every process that has not ended has its space, and shares it with no other such process. -/
structure Housed (c : Config) (k : Kernel) : Prop where
  geometry : ∀ number process, k.Alive number process → Geometry process.numPages c.pageSize
  houses : ∀ number process, k.Alive number process → k.backend.Houses number process.numPages
  apart : ∀ i p j q, k.Alive i p → k.Alive j q → i ≠ j → k.backend.Distinct i j

/-- The invariant from one state to the next: live processes were there before and keep their
spaces. -/
theorem Housed.lasting {k' : Kernel} (h : Housed c k)
    (hdistinct : ∀ i j, k.backend.Distinct i j → k'.backend.Distinct i j)
    (hold : ∀ number process, k'.Alive number process → k'.backend.Houses number process.numPages ∧
      ∃ old, k.Alive number old ∧ old.numPages = process.numPages) : Housed c k' where
  geometry := by
    intro number process hp
    obtain ⟨-, old, halive, hpages⟩ := hold number process hp
    exact hpages ▸ h.geometry number old halive
  houses number process hp := (hold number process hp).1
  apart := by
    intro i p j q hp hq hne
    obtain ⟨-, p₀, hp₀, -⟩ := hold i p hp
    obtain ⟨-, q₀, hq₀, -⟩ := hold j q hq
    exact hdistinct i j (h.apart i p₀ j q₀ hp₀ hq₀ hne)

/-- A process that is at work keeps its own space, and those of the others. One that has ended may
go by the same word as a live one, and keeps the space of that. -/
theorem Housed.onProcess (h : Housed c k) (hs : Sound c n k) {x : Op (Hosted Backend) ε α}
    (hx : ∀ I, Confined number c.pageSize I →
      x.Maintains (Hosted.Runs (Hosted.Numbered number c.pageSize) I) fun _ => True)
    (hown : ∀ live numPages I, InUse number c.pageSize I →
      x.Maintains (Hosted.Settled live number c.pageSize numPages I) fun _ => True) :
    Housed c (onProcess number x k).state := by
  unfold Kernel.onProcess
  cases hp : k.processes.get? number with
  | none => exact h
  | some process =>
    obtain ⟨-, hnum⟩ := hs.processes number process hp
    have hrespects := (hs.runs hp hx).machine
    have hsettled : ∀ I, InUse number c.pageSize I → I k.backend →
        Hosted.Settled (!process.terminated) number c.pageSize process.numPages I
          (x ⟨process, k.backend⟩).state := fun I hI hk =>
      (hown _ _ I hI).state ⟨⟨hnum, rfl⟩, fun hwas => (Bool.not_eq_false' ..).mp hwas, fun _ => hk⟩
    refine h.lasting (fun i j => hrespects.distinct_iff.mpr) ?_
    rintro q other ⟨hq, hlive⟩
    rcases OrderedMap.get?_insert_eq_some.mp hq with ⟨rfl, rfl⟩ | ⟨hne, hq⟩
    · obtain ⟨hstart, -, hpages⟩ := ((hsettled _ (.always q _) trivial).runs hlive).imp_right
        (·.process)
      have halive : k.Alive q process := ⟨hp, (Bool.not_eq_true' ..).mp hstart⟩
      have hruns := (hsettled _ (Backend.inUse_houses q _ process.numPages)
        (h.houses q process halive)).runs hlive
      rw [hpages]
      exact ⟨hruns.2.machine, process, halive, rfl⟩
    · have halive : k.Alive q other := ⟨hq, hlive⟩
      have hhoused := h.houses q other halive
      refine ⟨?_, other, halive, rfl⟩
      by_cases hdistinct : k.backend.Distinct q number
      · exact hrespects.houses hdistinct hhoused
      · have hended : process.terminated = true := by
          by_contra hwas
          have hboth : k.Alive number process := ⟨hp, Bool.eq_false_iff.mpr hwas⟩
          exact hdistinct (h.apart q other number process halive hboth hne)
        have hkept := hsettled _ (Backend.inUse_houses number _ other.numPages)
          (hhoused.same hdistinct)
        rw [hended] at hkept
        refine (hkept.machine (hkept.ended rfl)).same fun hback => hdistinct ?_
        exact (hrespects.distinct_iff.mp hback).symm

/-- A new process that has its space, apart from those of the others. -/
theorem Housed.register (h : Housed c k) {process : Process}
    (hg : Geometry process.numPages c.pageSize)
    (hhoused : k.backend.Houses number process.numPages)
    (hnew : ∀ q other, k.Alive q other → k.backend.Distinct q number) :
    Housed c { k with processes := k.processes.insert number process } := by
  have hold : ∀ q other, Alive { k with processes := k.processes.insert number process } q other →
      q = number ∧ other = process ∨ k.Alive q other := by
    rintro q other ⟨hq, hlive⟩
    rcases OrderedMap.get?_insert_eq_some.mp hq with hmade | ⟨-, hq⟩
    · exact .inl hmade
    · exact .inr ⟨hq, hlive⟩
  refine ⟨fun q other hq => ?_, fun q other hq => ?_, fun i p j q hp hq hne => ?_⟩
  · rcases hold q other hq with ⟨rfl, rfl⟩ | hq
    · exact hg
    · exact h.geometry q other hq
  · rcases hold q other hq with ⟨rfl, rfl⟩ | hq
    · exact hhoused
    · exact h.houses q other hq
  · rcases hold i p hp with ⟨rfl, -⟩ | hp₀
    · rcases hold j q hq with ⟨rfl, -⟩ | hq₀
      · exact absurd rfl hne
      · exact (hnew j q hq₀).symm
    · rcases hold j q hq with ⟨rfl, -⟩ | hq₀
      · exact hnew i p hp₀
      · exact h.apart i p j q hp₀ hq₀ hne

/-- A new process has its space, and the others keep theirs. -/
theorem Housed.spawn (h : Housed c k) (hs : Sound c n k) (name : String) (image : Image)
    (args : List String) : Housed c (spawn name image args k).state := by
  have hends : (Kernel.spawn name image args).Ends k fun _ k' => Housed c k' := by
    simp only [Kernel.spawn, Op.ends_bind, Op.ends_get, Op.ends_set, Op.ends_on]
    rcases hs.free_or_taken with hfree | ⟨-, p, hb, htaken⟩
    swap
    · refine (Backend.loader_taken hb htaken name image args k.config.stackPages).imp ?_
      rintro r b ⟨⟨cause, rfl⟩, rfl⟩
      refine h.lasting (fun _ _ => id) fun q process hp => ?_
      have halive : k.Alive q process := ⟨hp.known, hp.live⟩
      exact ⟨h.houses q process halive, process, halive, rfl⟩
    have hapart : ∀ q process, k.Alive q process → k.backend.Distinct q k.next := by
      intro q process hp
      exact (h.houses q process hp).distinct (h.geometry q process hp).pages_pos hfree
    have hothers : ∀ b, Backend.Respects k.next k.backend b →
        Housed c { k with next := k.next + 1, backend := b } := by
      intro b hrespects
      refine h.lasting (fun _ _ => hrespects.distinct_iff.mpr) fun q process hp => ?_
      have halive : k.Alive q process := ⟨hp.known, hp.live⟩
      have hkept := hrespects.houses (hapart q process halive) (h.houses q process halive)
      exact ⟨hkept, process, halive, rfl⟩
    refine ((Backend.loader_respects hs.backend hfree name image args k.config.stackPages).and
      (Loader.load_housed (Backend.inUse_houses k.next c.pageSize) hs.backend.geometry.power name
        image args k.config.stackPages hs.backend.size_eq
          (Backend.load_houses hs.backend hfree))).imp ?_
    rintro (e | process) b ⟨⟨hrespects, -⟩, hmade⟩
    · exact hothers b hrespects
    · obtain ⟨hnumber, hg, hhoused⟩ := hmade process rfl
      simp only [Op.ends_modify, Op.ends_pure, hnumber]
      refine (hothers b hrespects).register hg hhoused fun q other hq => ?_
      exact hrespects.distinct_iff.mpr (hapart q other ⟨hq.known, hq.live⟩)
  exact hends

/-- What one process does keeps its own space, and that of every other process besides. -/
theorem maintains_housed {x : Op (Hosted Backend) ε α}
    (hx : ∀ I, Confined number c.pageSize I →
      x.Maintains (Hosted.Runs (Hosted.Numbered number c.pageSize) I) fun _ => True)
    (hown : ∀ live numPages I, InUse number c.pageSize I →
      x.Maintains (Hosted.Settled live number c.pageSize numPages I) fun _ => True) :
    (Kernel.onProcess number x).Maintains (fun k => Sound c n k ∧ Housed c k) fun _ => True := by
  rintro k ⟨hs, h⟩
  exact ⟨⟨hs.onProcess hx, h.onProcess hs hx hown⟩, fun _ _ => trivial⟩

theorem Housed.contextSwitch (h : Housed c k) (hs : Sound c n k) (leaving : Option Nat)
    (entering : Nat) : Housed c (contextSwitch leaving entering k).state := by
  have hboth := maintains_contextSwitch (fun q => maintains_housed (c := c) (n := n)
      (fun _ hI => Hosted.switchOut_keeps hI.toInUse (fun _ hp => hp) fun _ hp => hp)
      fun _ _ _ hI => Hosted.Settled.switchOut hI)
    (fun q => maintains_housed
      (fun _ hI => Hosted.switchIn_keeps hI.toInUse (fun _ hp => hp) fun _ hp => hp)
      fun _ _ _ hI => Hosted.Settled.switchIn hI) leaving entering
  exact (hboth.state ⟨hs, h⟩).2

theorem Housed.discard (h : Housed c k) (hs : Sound c n k) (number : Nat) :
    Housed c (discard number k).state := by
  have hexit : Housed c (Kernel.onProcess number (Hosted.exit 0) k).state :=
    h.onProcess hs (fun _ hI => Hosted.exit_keeps hI 0) fun _ _ _ _ => Hosted.Settled.exit 0
  have hends : (Kernel.discard number).Ends k fun _ k' => Housed c k' := by
    simp only [Kernel.discard, Op.ends_bind]
    refine (Op.ends_self (Kernel.onProcess number (Hosted.exit 0)) k).imp ?_
    rintro (e | found) k' ⟨-, rfl⟩
    · exact e.elim
    · simp only [Op.ends_modify, Op.ends_pure]
      refine hexit.lasting (fun _ _ => id) fun q process hq => ?_
      have halive : Alive (Kernel.onProcess number (Hosted.exit 0) k).state q process :=
        ⟨(OrderedMap.get?_erase_eq_some.mp hq.known).2, hq.live⟩
      exact ⟨hexit.houses q process halive, process, halive, rfl⟩
  exact hends

/-- A kernel that has just booted houses nobody yet. -/
theorem housed_boot {host : String → HostPath} {entropy : UInt64}
    (h : ((boot host c entropy : Op Unit MemoryError Kernel) ()).result = .ok k) :
    Housed c k := by
  have hnone : ∀ number process, ¬ k.Alive number process := by
    intro number process hp
    obtain ⟨⟨hpos, hle⟩, -⟩ := (sound_boot h).processes number process hp.known
    omega
  exact ⟨fun i p hp => absurd hp (hnone i p), fun i p hp => absurd hp (hnone i p),
    fun i p _ _ hp _ _ => absurd hp (hnone i p)⟩

/-! ## Histories -/

/-- What a kernel is asked for, and what happens in its pager besides. -/
inductive Deed
  | spawn (name : String) (image : Image) (args : List String)
  | serve (number : Nat) (request : Request)
  | translate (number : Nat) (vaddr : VirtAddr) (access : Access)
  | interrupt (number : Nat) (e : Exception) (vaddr : VirtAddr)
  | exit (number : Nat) (status : Int)
  | switch (leaving : Option Nat) (entering : Nat)
  | discard (number : Nat)
  | disturb (event : Pager.Event) (hgentle : event.Gentle)

def done (k : Kernel) : Deed → Kernel
  | .spawn name image args => (Kernel.spawn name image args k).state
  | .serve number request => (Kernel.onProcess number request.serve k).state
  | .translate number vaddr access =>
    (Kernel.onProcess number (Hosted.translate vaddr access) k).state
  | .interrupt number e vaddr => (Kernel.onProcess number (Hosted.handleException e vaddr) k).state
  | .exit number status => (Kernel.onProcess number (Hosted.exit status) k).state
  | .switch leaving entering => (Kernel.contextSwitch leaving entering k).state
  | .discard number => (Kernel.discard number k).state
  | .disturb event _ => k.disturb [event]

/-- The kernel after these deeds, the latest of which is the first in the list. -/
def after (k : Kernel) : List Deed → Kernel
  | [] => k
  | deed :: past => (k.after past).done deed

def spawns (deeds : List Deed) : Nat :=
  deeds.countP fun
    | .spawn .. => true
    | _ => false

def Booted (c : Config) (k : Kernel) : Prop :=
  ∃ host entropy, ((boot host c entropy : Op Unit MemoryError Kernel) ()).result = .ok k

/-- Every list of deeds is a run of the kernel. -/
theorem reached_after (hboot : Booted c k) (deeds : List Deed) :
    Reached c (spawns deeds) (k.after deeds) := by
  induction deeds with
  | nil =>
    obtain ⟨host, entropy, h⟩ := hboot
    exact .booted h
  | cons deed past ih =>
    cases deed with
    | spawn name image args =>
      rw [spawns, List.countP_cons_of_pos rfl]
      exact .spawned name image args ih
    | serve number request => exact .served number request ih
    | translate number vaddr access => exact .translated number vaddr access ih
    | interrupt number e vaddr => exact .interrupted number e vaddr ih
    | exit number status => exact .exited number status ih
    | switch leaving entering => exact .switched leaving entering ih
    | discard number => exact .discarded number ih
    | disturb event hgentle =>
      exact .disturbed (List.forall_mem_singleton.mpr hgentle.settled) ih

/-- Whatever the kernel was asked to do, live processes have their spaces. -/
theorem housed_after (hboot : Booted c k) (deeds : List Deed) : Housed c (k.after deeds) := by
  induction deeds with
  | nil =>
    obtain ⟨host, entropy, h⟩ := hboot
    exact housed_boot h
  | cons deed past ih =>
    have hs := (reached_after hboot past).sound
    cases deed with
    | spawn name image args => exact ih.spawn hs name image args
    | serve number request =>
      refine ih.onProcess hs (fun _ hI => ?_) fun _ _ _ hI => request.serve_settled hI
      exact request.serve_keeps hI.toInUse (fun _ hp => hp) (fun _ hp => hp) fun _ hp => hp
    | translate number vaddr access =>
      refine ih.onProcess hs ?_ fun _ _ _ hI => Hosted.Settled.use ?_ hI
      · exact fun _ hI => Hosted.translate_keeps hI.toInUse (fun _ hp => hp) vaddr access
      · exact fun _ _ hI hJ => Hosted.translate_keeps hI hJ vaddr access
    | interrupt number e vaddr =>
      exact ih.onProcess hs (fun _ hI => Hosted.handleException_keeps hI e vaddr)
        fun _ _ _ hI => Hosted.Settled.handleException hI e vaddr
    | exit number status =>
      exact ih.onProcess hs (fun _ hI => Hosted.exit_keeps hI status)
        fun _ _ _ _ => Hosted.Settled.exit status
    | switch leaving entering => exact ih.contextSwitch hs leaving entering
    | discard number => exact ih.discard hs number
    | disturb event hgentle =>
      refine ih.lasting (fun _ _ => Backend.distinct_disturbed.mpr) fun number process hp => ?_
      have halive : (k.after past).Alive number process := ⟨hp.known, hp.live⟩
      exact ⟨(ih.houses number process halive).disturbed (List.forall_mem_singleton.mpr hgentle),
        process, halive, rfl⟩

/-- The kernel was booted with this configuration, and has spawned `n` times among other deeds. -/
def Lived (c : Config) (n : Nat) (k : Kernel) : Prop :=
  ∃ booted deeds, Booted c booted ∧ spawns deeds = n ∧ booted.after deeds = k

theorem Lived.sound (h : Lived c n k) : Sound c n k := by
  obtain ⟨booted, deeds, hboot, rfl, rfl⟩ := h
  exact (reached_after hboot deeds).sound

theorem Lived.housed (h : Lived c n k) : Housed c k := by
  obtain ⟨booted, deeds, hboot, rfl, rfl⟩ := h
  exact housed_after hboot deeds

end Kernel

end VirtualMemory
