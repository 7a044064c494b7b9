import VirtualMemory.Proofs.Modes
import VirtualMemory.Proofs.StaticConfinement
import VirtualMemory.Proofs.Pager.Confinement

/-!
# Kernels at work

The states of a kernel after it was booted, processes were spawned, used, switched, ended and
forgotten, and while pages were moved, the swap and the images failed and random numbers were drawn.
Numbers are given out in order, so that the next one was never used. A mapping has the number
itself. The pager knows a process by the word of its number, which is new too as long as the numbers
fit a word; later a space may be found under it, and then the spawn is refused.
-/

namespace VirtualMemory

variable {ε α : Type} {c : Config} {n : Nat} {k : Kernel} {number q : Nat} {pageSize : Nat}

/-! ## Machines of either mode -/

structure StaticMachine.Sound (c : Config) (m : StaticMachine) : Prop where
  wellFormed : m.WellFormed
  apart : m.Apart
  pageSize : m.memory.pageSize = c.pageSize
  total : m.frames.total = c.physPages

structure Pager.Sound (c : Config) (p : Pager) : Prop where
  wellFormed : p.WellFormed none
  backed : p.Backed
  pageSize : p.pageSize = c.pageSize
  total : p.frames.total = c.physPages
  isOpen : p.swap.isOpen = true

namespace Backend

variable {I : StaticMachine → Prop} {J : Pager → Prop} {b b' : Backend}

/-- The machine is of one kind and satisfies `I`, or of the other and satisfies `J`. -/
def Each (I : StaticMachine → Prop) (J : Pager → Prop) : Backend → Prop
  | .static m => I m
  | .paged p => J p

theorem maintains_dispatch {A : α → Prop} {x : Op StaticMachine ε α} {y : Op Pager ε α}
    (hx : x.Maintains I A) (hy : y.Maintains J A) : (dispatch x y).Maintains (Each I J) A := by
  rintro (m | p) h
  · exact hx m h
  · exact hy p h

theorem inUse_each (hs : InUse number pageSize I) (hp : InUse number pageSize J) :
    InUse number pageSize (Each I J) where
  translate := fun vaddr access =>
    maintains_dispatch (hs.translate vaddr access) (hp.translate vaddr access)
  read := fun vaddr length => maintains_dispatch (hs.read vaddr length) (hp.read vaddr length)
  write := fun vaddr data hin =>
    maintains_dispatch (hs.write vaddr data hin) (hp.write vaddr data hin)
  handleFault := fun vaddr e => maintains_dispatch (hs.handleFault vaddr e) (hp.handleFault vaddr e)
  saveContext := maintains_dispatch hs.saveContext hp.saveContext
  restoreContext := maintains_dispatch hs.restoreContext hp.restoreContext

theorem confined_each (hs : Confined number pageSize I) (hp : Confined number pageSize J) :
    Confined number pageSize (Each I J) where
  toInUse := inUse_each hs.toInUse hp.toInUse
  teardown := maintains_dispatch hs.teardown hp.teardown

/-- Only process `number` was at work. -/
inductive Respects (number : Nat) : Backend → Backend → Prop
  | static {m m' : StaticMachine} (h : m.Respects number m') :
      Respects number (.static m) (.static m')
  | paged {p p' : Pager} (h : p.Respects number.toUInt32 p') :
      Respects number (.paged p) (.paged p')

/-- The machine tells the spaces of two processes apart. -/
def Distinct (i j : Nat) : Backend → Prop
  | .static _ => i ≠ j
  | .paged _ => i.toUInt32 ≠ j.toUInt32

theorem Distinct.symm {i j : Nat} (h : b.Distinct i j) : b.Distinct j i := by
  cases b with
  | static => exact Ne.symm h
  | paged => exact Ne.symm h

/-- There is nothing under the number of the process. -/
def NoSpace (number : Nat) : Backend → Prop :=
  Each (fun m => m.ppns number = []) fun p => p.extent number.toUInt32 = none

def Sound (c : Config) : Backend → Prop := Each (StaticMachine.Sound c) (Pager.Sound c)

theorem Sound.size_eq (h : b.Sound c) : Mmu.pageSize b = c.pageSize := by
  cases b with
  | static m => exact StaticMachine.Sound.pageSize h
  | paged p => exact Pager.Sound.pageSize h

theorem Sound.respects (h : b.Sound c) (number : Nat) : Respects number b b := by
  cases b with
  | static m =>
    obtain ⟨hwf, hapart, -, -⟩ := h
    exact .static (.refl hwf hapart number)
  | paged p =>
    obtain ⟨hwf, hbacked, -, -, -⟩ := h
    exact .paged (.refl hwf hbacked number.toUInt32)

theorem confined (b : Backend) (number : Nat) :
    Confined number (Mmu.pageSize b) (Respects number b) := by
  cases b with
  | static m =>
    refine (confined_each (m.confined number) (.never number _)).congr ?_
    rintro (m' | p')
    · exact ⟨.static, fun | .static h => h⟩
    · exact ⟨False.elim, nofun⟩
  | paged p =>
    refine (confined_each (.never number _) (p.confined number)).congr ?_
    rintro (m' | p')
    · exact ⟨False.elim, nofun⟩
    · exact ⟨.paged, fun | .paged h => h⟩

theorem Respects.sound (h : Respects number b b') (hs : b.Sound c) : b'.Sound c := by
  cases h with
  | static h =>
    obtain ⟨-, -, hsize, htotal⟩ := hs
    exact ⟨h.wellFormed, h.apart, h.pageSize.trans hsize, h.total.trans htotal⟩
  | paged h =>
    obtain ⟨-, -, hsize, htotal, hopen⟩ := hs
    exact ⟨h.wellFormed, h.backed, h.pageSize.trans hsize, h.total.trans htotal,
      h.isOpen.trans hopen⟩

theorem Respects.distinct_iff (h : Respects number b b') {i j : Nat} :
    b'.Distinct i j ↔ b.Distinct i j := by
  cases h with
  | static => exact Iff.rfl
  | paged => exact Iff.rfl

/-- Nothing is put under another number. -/
theorem Respects.noSpace (h : Respects number b b') (hq : b.Distinct q number) (hs : b.NoSpace q) :
    b'.NoSpace q := by
  cases h with
  | static h => exact (h.ppns hq).trans hs
  | paged h => exact (h.others q.toUInt32 hq).trans hs

/-- Numbers that fit a word are distinct for every machine. -/
theorem distinct_of_fits {i j : Nat} (hne : i ≠ j) (hi : i ≤ 0x100000000) (hj : j ≤ 0x100000000)
    (hpos : 0 < i) (hpos' : 0 < j) : b.Distinct i j := by
  cases b with
  | static => exact hne
  | paged =>
    intro heq
    have hword := congrArg UInt32.toNat heq
    simp only [Nat.toUInt32_eq, UInt32.toNat_ofNat'] at hword
    omega

/-! ## Loading -/

theorem load_respects (h : b.Sound c) (hnew : b.NoSpace number) (layout : Layout) :
    (Mmu.load number layout : Op Backend MemoryError Unit).Ends b fun r b' => Respects number b b' ∧
      match r with
      | .ok _ => True
      | .error _ => b'.NoSpace number := by
  cases b with
  | static m =>
    obtain ⟨hwf, hapart, -, -⟩ := h
    obtain ⟨hrespects, hr⟩ := StaticMachine.load_respects hwf hapart hnew number.toUInt32 layout
    exact ⟨.static hrespects, hr⟩
  | paged p =>
    obtain ⟨hwf, hbacked, -, -, -⟩ := h
    obtain ⟨hrespects, hr⟩ := Pager.load_respects hwf hbacked hnew layout
    exact ⟨.paged hrespects, hr⟩

theorem teardown_noSpace {b₁ : Backend} (h : Respects number b b₁) :
    (Mmu.teardown number : Op Backend Empty Unit).Ends b₁ fun _ b' => b'.NoSpace number := by
  cases h with
  | static h => exact (StaticMachine.teardown_respects h.wellFormed h.apart number).2
  | paged h => exact (Pager.teardown_ends h.wellFormed number.toUInt32).2.2.2

/-- Loading a process touches nothing of the others, and leaves nothing if it fails. -/
theorem loader_respects (h : b.Sound c) (hnew : b.NoSpace number) (name : String) (image : Image)
    (args : List String) (stackPages : Nat) :
    (Loader.load number name image args stackPages : Op Backend MemoryError Process).Ends b
      fun r b' => Respects number b b' ∧
        match r with
        | .ok process => Hosted.Numbered number c.pageSize process
        | .error _ => b'.NoSpace number := by
  have hconfined := b.confined number
  rw [h.size_eq] at hconfined
  exact Loader.load_keeps hconfined (fun _ h₁ => teardown_noSpace h₁) name image args stackPages
    (load_respects h hnew) h.size_eq (h.respects number) hnew

theorem load_taken {p : Pager} (hb : b = .paged p) (htaken : p.extent number.toUInt32 ≠ none)
    (layout : Layout) : (Mmu.load number layout : Op Backend MemoryError Unit).Ends b fun r b' =>
      (∃ cause, r = .error cause) ∧ b' = b := by
  subst hb
  have hload : (Pager.load number.toUInt32 layout).Ends p fun r p' =>
      (∃ cause, r = .error cause) ∧ p' = p := by
    refine (p.registerSpace_ends number.toUInt32 layout.numPages (some layout.index)).imp ?_
    rintro (e | done) p' ⟨hfree, rfl⟩
    · exact ⟨⟨e, rfl⟩, rfl⟩
    · exact absurd hfree htaken
  exact ⟨hload.1, congrArg _ hload.2⟩

/-- In demand mode no process is loaded under the word of another that is there. -/
theorem loader_taken {p : Pager} (hb : b = .paged p) (htaken : p.extent number.toUInt32 ≠ none)
    (name : String) (image : Image) (args : List String) (stackPages : Nat) :
    (Loader.load number name image args stackPages : Op Backend MemoryError Process).Ends b
      fun r b' => (∃ cause, r = .error cause) ∧ b' = b := by
  obtain ⟨planned, hplan⟩ : (Loader.plan image (args.map textBytes) stackPages (Mmu.pageSize b) :
    Op Backend MemoryError Layout).Stateless := Loader.stateless_plan _ _ _ _
  simp only [Loader.load, Op.ends_bind, Op.ends_get]
  refine (hplan b).imp ?_
  rintro r b₁ ⟨rfl, rfl⟩
  cases r with
  | error e => exact ⟨⟨e, rfl⟩, rfl⟩
  | ok layout =>
    refine (load_taken hb htaken layout).imp ?_
    rintro r b₂ ⟨⟨cause, rfl⟩, rfl⟩
    exact ⟨⟨cause, rfl⟩, rfl⟩

end Backend

def Pager.Event.Settled : Pager.Event → Prop
  | .register .. => False
  | _ => True

theorem Pager.Effect.settled {p p' : Pager} {event : Event} {answer : Answer} {pid : Pid}
    (he : Effect p event answer p') (hsettled : event.Settled) (hnone : p.extent pid = none) :
    p'.extent pid = none := by
  rw [← Option.not_isSome_iff_eq_none] at hnone ⊢
  intro hspace
  rcases he.space hspace with hold | ⟨_, _, rfl, -⟩
  · exact hnone hold
  · exact hsettled

theorem Backend.distinct_disturbed {b : Backend} {events : List Pager.Event} {i j : Nat} :
    (b.disturbed events).Distinct i j ↔ b.Distinct i j := by
  cases b with
  | static m => exact Iff.rfl
  | paged p => exact Iff.rfl

theorem Backend.Sound.disturbed {b : Backend} (h : b.Sound c) {events : List Pager.Event}
    (hevents : ∀ event ∈ events, event.InPage c.pageSize ∧ event.Settled) :
    (b.disturbed events).Sound c ∧
      ∀ number, b.NoSpace number → (b.disturbed events).NoSpace number := by
  cases b with
  | static m => exact ⟨h, fun _ hnone => hnone⟩
  | paged p =>
    induction events with
    | nil => exact ⟨h, fun _ hnone => hnone⟩
    | cons event past ih =>
      obtain ⟨hevent, hpast⟩ := List.forall_mem_cons.mp hevents
      obtain ⟨⟨hwf, hbacked, hsize, htotal, hopen⟩, hnone⟩ := ih hpast
      obtain ⟨hwf', he⟩ := hwf.stepOf event
      have hin : event.InPage (p.after past).pageSize := hsize.symm ▸ hevent.1
      have hlasting := he.lasting
      refine ⟨⟨hwf', he.backed hwf hwf' hin hbacked, hlasting.pageSize.trans hsize,
        hlasting.total.trans htotal, hlasting.isOpen.trans hopen⟩, ?_⟩
      intro number hp
      exact he.settled hevent.2 (hnone number hp)

/-! ## Kernels -/

/-- What a request asks for is kept, if each of its parts is. -/
theorem Request.serve_keeps {I : Backend → Prop} {J : Process → Prop} (h : InUse number pageSize I)
    (hJ : ∀ p, J p → Hosted.Numbered number pageSize p)
    (hready : ∀ p, J p → J { p with state := .ready })
    (hrunning : ∀ p, J p → J { p with state := .running }) (request : Request) :
    (request.serve : Op (Hosted Backend) Empty Reply).Maintains (Hosted.Runs J I)
      fun _ => True := by
  cases request with
  | read vaddr length =>
    exact .bind (Hosted.readMemory_keeps h hJ vaddr length) fun _ _ => .pure trivial
  | write vaddr data =>
    exact .bind (Hosted.writeMemory_keeps h hJ vaddr data) fun _ _ => .pure trivial
  | text vaddr maxLength =>
    exact .bind (Hosted.readText_keeps h hJ vaddr maxLength) fun _ _ => .pure trivial
  | switchOut => exact .bind (Hosted.switchOut_keeps h hJ hready) fun _ _ => .pure trivial
  | switchIn => exact .bind (Hosted.switchIn_keeps h hJ hrunning) fun _ _ => .pure trivial

namespace Kernel

/-- The kernels that the configuration leads to, by the number of spawns until then. -/
inductive Reached (c : Config) : Nat → Kernel → Prop
  | booted {host : String → HostPath} {entropy : UInt64} {k : Kernel}
      (h : ((boot host c entropy : Op Unit MemoryError Kernel) ()).result = .ok k) : Reached c 0 k
  | spawned {n : Nat} {k : Kernel} (name : String) (image : Image) (args : List String)
      (h : Reached c n k) : Reached c (n + 1) (spawn name image args k).state
  | served {n : Nat} {k : Kernel} (number : Nat) (request : Request) (h : Reached c n k) :
      Reached c n (onProcess number request.serve k).state
  | translated {n : Nat} {k : Kernel} (number : Nat) (vaddr : VirtAddr) (access : Access)
      (h : Reached c n k) : Reached c n (onProcess number (Hosted.translate vaddr access) k).state
  | interrupted {n : Nat} {k : Kernel} (number : Nat) (e : Exception) (vaddr : VirtAddr)
      (h : Reached c n k) : Reached c n (onProcess number (Hosted.handleException e vaddr) k).state
  | exited {n : Nat} {k : Kernel} (number : Nat) (status : Int) (h : Reached c n k) :
      Reached c n (onProcess number (Hosted.exit status) k).state
  | switched {n : Nat} {k : Kernel} (leaving : Option Nat) (entering : Nat) (h : Reached c n k) :
      Reached c n (contextSwitch leaving entering k).state
  | discarded {n : Nat} {k : Kernel} (number : Nat) (h : Reached c n k) :
      Reached c n (discard number k).state
  /-- What happens in the pager besides. -/
  | disturbed {n : Nat} {k : Kernel} {events : List Pager.Event}
      (hevents : ∀ event ∈ events, event.InPage c.pageSize ∧ event.Settled) (h : Reached c n k) :
      Reached c n (k.disturb events)

def Issued (n number : Nat) : Prop := 0 < number ∧ number ≤ n

theorem Issued.mono {m : Nat} (h : Issued n number) (hle : n ≤ m) : Issued m number :=
  ⟨h.1, Nat.le_trans h.2 hle⟩

/-- The machine tells the space of a process apart from all that were there. -/
def New (n number : Nat) (b : Backend) : Prop := ∀ i, Issued n i → b.Distinct number i

/-- The next number is new, in demand mode as long as it fits a word. -/
theorem new_succ (h : n < 0x100000000 ∨ k.pager? = none) : New n (n + 1) k.backend := by
  rintro i ⟨hpos, hle⟩
  rcases h with hfew | hstatic
  · exact Backend.distinct_of_fits (by omega) (by omega) (by omega) (by omega) hpos
  · rw [pager?] at hstatic
    cases hb : k.backend with
    | static => exact show n + 1 ≠ i by omega
    | paged p =>
      rw [hb] at hstatic
      cases hstatic

structure Sound (c : Config) (n : Nat) (k : Kernel) : Prop where
  next : k.next = n + 1
  backend : k.backend.Sound c
  /-- Nothing is held under a number that is new. -/
  vacant : ∀ number, New n number k.backend → k.backend.NoSpace number
  processes : ∀ number process, k.processes.get? number = some process →
    Issued n number ∧ Hosted.Numbered number c.pageSize process

/-! ## What keeps the invariant -/

/-- Only process `number` was at work on the machine, and the processes are numbered as before. -/
theorem Sound.worked (h : Sound c n k) {b : Backend} (hissued : Issued n number)
    (hrespects : Backend.Respects number k.backend b) {processes : OrderedMap Nat Process}
    (hprocesses : ∀ q process, processes.get? q = some process →
      Issued n q ∧ Hosted.Numbered q c.pageSize process) :
    Sound c n { k with backend := b, processes := processes } where
  next := h.next
  backend := hrespects.sound h.backend
  vacant := by
    intro q hq
    have hnew : New n q k.backend := fun i hi => hrespects.distinct_iff.mp (hq i hi)
    exact hrespects.noSpace (hnew _ hissued) (h.vacant q hnew)
  processes := hprocesses

/-- While a process runs, the others are left alone. -/
theorem Sound.runs (h : Sound c n k) {process : Process}
    (hp : k.processes.get? number = some process) {x : Op (Hosted Backend) ε α}
    (hx : ∀ I, Confined number c.pageSize I →
      x.Maintains (Hosted.Runs (Hosted.Numbered number c.pageSize) I) fun _ => True) :
    Hosted.Runs (Hosted.Numbered number c.pageSize) (Backend.Respects number k.backend)
      (x ⟨process, k.backend⟩).state := by
  obtain ⟨-, hnum⟩ := h.processes number process hp
  have hconfined := k.backend.confined number
  rw [h.backend.size_eq] at hconfined
  exact (hx _ hconfined).state ⟨hnum, h.backend.respects number⟩

theorem Sound.onProcess (h : Sound c n k) {x : Op (Hosted Backend) ε α}
    (hx : ∀ I, Confined number c.pageSize I →
      x.Maintains (Hosted.Runs (Hosted.Numbered number c.pageSize) I) fun _ => True) :
    Sound c n (onProcess number x k).state := by
  unfold Kernel.onProcess
  cases hp : k.processes.get? number with
  | none => exact h
  | some process =>
    obtain ⟨hissued, -⟩ := h.processes number process hp
    have hruns := h.runs hp hx
    refine h.worked hissued hruns.machine ?_
    intro q other hq
    rcases OrderedMap.get?_insert_eq_some.mp hq with ⟨rfl, rfl⟩ | ⟨-, hq⟩
    · exact ⟨hissued, hruns.process⟩
    · exact h.processes q other hq

/-- A context switch is two calls. -/
theorem maintains_contextSwitch {I : Kernel → Prop}
    (hout : ∀ q, (Kernel.onProcess q Hosted.switchOut).Maintains I fun _ => True)
    (hin : ∀ q, (Kernel.onProcess q Hosted.switchIn).Maintains I fun _ => True)
    (leaving : Option Nat) (entering : Nat) :
    (Kernel.contextSwitch leaving entering).Maintains I fun _ => True := by
  cases leaving with
  | none => exact .bind (hin entering) fun _ _ => .pure trivial
  | some q => exact .bind (hout q) fun _ _ => .bind (hin entering) fun _ _ => .pure trivial

theorem Sound.contextSwitch (h : Sound c n k) (leaving : Option Nat) (entering : Nat) :
    Sound c n (contextSwitch leaving entering k).state := by
  refine (maintains_contextSwitch (I := Sound c n) (fun q k hk => ?_) (fun q k hk => ?_) leaving
    entering).state h
  · exact ⟨hk.onProcess fun _ hI =>
      Hosted.switchOut_keeps hI.toInUse (fun _ hp => hp) fun _ hp => hp, fun _ _ => trivial⟩
  · exact ⟨hk.onProcess fun _ hI =>
      Hosted.switchIn_keeps hI.toInUse (fun _ hp => hp) fun _ hp => hp, fun _ _ => trivial⟩

theorem Sound.discard (h : Sound c n k) (number : Nat) : Sound c n (discard number k).state := by
  have hexit : (Kernel.onProcess number (Hosted.exit 0)).Maintains (Sound c n) fun _ => True :=
    fun _ hk => ⟨hk.onProcess fun _ hI => Hosted.exit_keeps hI 0, fun _ _ => trivial⟩
  have hall : (Kernel.discard number).Maintains (Sound c n) fun _ => True := by
    refine .bind hexit fun _ _ => .bind (.modify ?_) fun _ _ => .pure trivial
    intro k hk
    refine ⟨hk.next, hk.backend, hk.vacant, ?_⟩
    intro q process hq
    exact hk.processes q process (OrderedMap.get?_erase_eq_some.mp hq).2
  exact hall.state h

theorem Sound.served (h : Sound c n k) (number : Nat) (request : Request) :
    Sound c n (Kernel.onProcess number request.serve k).state :=
  h.onProcess fun _ hI =>
    request.serve_keeps hI.toInUse (fun _ hp => hp) (fun _ hp => hp) fun _ hp => hp

/-- The next number is free, or a number that does not fit a word any more is taken. -/
theorem Sound.free_or_taken (h : Sound c n k) : k.backend.NoSpace k.next ∨
    0x100000000 ≤ n ∧ ∃ p, k.backend = .paged p ∧ p.extent k.next.toUInt32 ≠ none := by
  by_cases hfew : n < 0x100000000 ∨ k.pager? = none
  · exact .inl (h.vacant _ (h.next ▸ new_succ hfew))
  · obtain ⟨hmany, hpaged⟩ := not_or.mp hfew
    cases hb : k.backend with
    | static m =>
      rw [pager?, hb] at hpaged
      exact absurd rfl hpaged
    | paged p =>
      by_cases hfree : p.extent k.next.toUInt32 = none
      · exact .inl hfree
      · exact .inr ⟨Nat.le_of_not_lt hmany, p, rfl, hfree⟩

/-- A spawn uses up a number and touches nothing of the others. If it fails, nothing is put under
the number. -/
theorem Sound.spawn (h : Sound c n k) (name : String) (image : Image) (args : List String) :
    (spawn name image args).Ends k fun r k' => Sound c (n + 1) k' ∧
      k.backend.Respects k.next k'.backend ∧
      match r with
      | .ok _ => True
      | .error _ => (k.backend.NoSpace k.next → k'.backend.NoSpace k.next) ∧
          k'.processes = k.processes := by
  have hissued : Issued (n + 1) k.next := by
    rw [h.next]
    exact ⟨Nat.succ_pos n, Nat.le_refl _⟩
  have hold : Sound c (n + 1) { k with next := k.next + 1 } := by
    refine ⟨congrArg (· + 1) h.next, h.backend,
      fun q hq => h.vacant q fun i hi => hq i (hi.mono (Nat.le_succ n)), ?_⟩
    intro q process hq
    obtain ⟨hn, hnum⟩ := h.processes q process hq
    exact ⟨hn.mono (Nat.le_succ n), hnum⟩
  simp only [Kernel.spawn, Op.ends_bind, Op.ends_get, Op.ends_set, Op.ends_on]
  rcases h.free_or_taken with hfree | ⟨-, p, hb, htaken⟩
  swap
  · have hsame := h.backend.respects k.next
    refine (Backend.loader_taken hb htaken name image args k.config.stackPages).imp ?_
    rintro r b ⟨⟨cause, rfl⟩, rfl⟩
    exact ⟨hold.worked hissued hsame hold.processes, hsame, id, rfl⟩
  refine (Backend.loader_respects h.backend hfree name image args k.config.stackPages).imp ?_
  rintro (e | process) b ⟨hrespects, hr⟩
  · exact ⟨hold.worked hissued hrespects hold.processes, hrespects, fun _ => hr, rfl⟩
  · simp only [Op.ends_modify, Op.ends_pure]
    refine ⟨hold.worked hissued hrespects ?_, hrespects, trivial⟩
    intro q other hq
    rcases OrderedMap.get?_insert_eq_some.mp hq with ⟨heq, rfl⟩ | ⟨-, hq⟩
    · obtain ⟨hnumber, hsize⟩ := hr
      obtain rfl : q = k.next := heq.trans hnumber
      exact ⟨hissued, hnumber, hsize⟩
    · exact hold.processes q other hq

theorem sound_booted {b : Backend} (hb : b.Sound c) (hnone : ∀ number, b.NoSpace number) :
    Sound c 0 { config := c, backend := b } where
  next := rfl
  backend := hb
  vacant := fun number _ => hnone number
  processes := by
    intro q process hq
    cases hq

theorem sound_boot {host : String → HostPath} {entropy : UInt64}
    (h : ((boot host c entropy : Op Unit MemoryError Kernel) ()).result = .ok k) :
    Sound c 0 k := by
  have hends : (boot host c entropy : Op Unit MemoryError Kernel).Ends () fun r _ =>
      ∀ k, r = .ok k → Sound c 0 k := by
    rw [boot, Op.ends_bind, Op.ends_notify]
    dsimp only
    rw [Op.ends_bind]
    refine (validate_ends c ()).imp ?_
    rintro (e | u) s ⟨rfl, hvalid⟩
    · rintro k ⟨⟩
    dsimp only
    split
    next =>
      rintro k ⟨⟩
      have hg := (hvalid rfl).1
      refine sound_booted ⟨StaticMachine.wellFormed_ofSizes hg, ?_, rfl, rfl⟩ fun _ => rfl
      exact StaticMachine.apart_ofSizes _ _
    next =>
      rw [Op.ends_bind, Op.ends_notify]
      dsimp only
      rw [Op.ends_bind]
      refine (Op.ends_self (Pager.create host c entropy _ _) ()).imp ?_
      rintro (e | p) s ⟨hp, rfl⟩
      · rintro k ⟨⟩
      have hwhole : (PhysicalMemory.zeroed c.physPages c.pageSize).Whole := ByteStore.size_zeros _
      have hcreated : Pager.Created c p := ⟨host, entropy, c.tlbSize, _, hwhole, hp.symm⟩
      obtain ⟨hwf, hnone, -, hsize, hopen⟩ := hcreated.wellFormed
      rintro k ⟨⟩
      have hbacked := (Pager.Coherent.created hcreated).backed
      exact sound_booted ⟨hwf, hbacked, hsize, hcreated.total, hopen⟩ fun number =>
        hnone number.toUInt32
  exact hends k h

/-- The invariant holds of every kernel. -/
theorem Reached.sound (h : Reached c n k) : Sound c n k := by
  induction h with
  | booted h => exact sound_boot h
  | spawned name image args _ ih => exact (ih.spawn name image args).1
  | served number request _ ih => exact ih.served number request
  | translated number vaddr access _ ih =>
    exact ih.onProcess fun _ hI =>
      Hosted.translate_keeps hI.toInUse (fun _ hp => hp) vaddr access
  | interrupted number e vaddr _ ih =>
    exact ih.onProcess fun _ hI => Hosted.handleException_keeps hI e vaddr
  | exited number status _ ih => exact ih.onProcess fun _ hI => Hosted.exit_keeps hI status
  | switched leaving entering _ ih => exact ih.contextSwitch leaving entering
  | discarded number _ ih => exact ih.discard number
  | disturbed hevents _ ih =>
    obtain ⟨hsound, hnone⟩ := ih.backend.disturbed hevents
    refine ⟨ih.next, hsound, fun q hq => hnone q (ih.vacant q fun i hi => ?_), ih.processes⟩
    exact Backend.distinct_disturbed.mp (hq i hi)

end Kernel

end VirtualMemory
