import VirtualMemory.Proofs.Pager.Access
import VirtualMemory.Proofs.Pager.Fault
import VirtualMemory.Proofs.Pager.Spaces

/-!
# Runs of the pager

An event is an operation of the pager, or a change of what surrounds it: which accesses to the swap
file and to an image fail from now on, and which random numbers come next. `Effect` says once what
each event may do, and `perform_effect` that it does nothing else; whatever holds along every run is
read off there.
-/

namespace VirtualMemory

/-- The file from now on, in memory and with these faults. -/
def BackingFile.disturbed (faults : FileFaults) : BackingFile → BackingFile
  | .memory f => .faulty f faults
  | .host f => .faulty { contents := f.contents, closed := f.closed } faults
  | .faulty f _ => .faulty f faults

def Swapper.disturbed (s : Swapper) (faults : FileFaults) : Swapper :=
  { s with file := s.file.map (·.disturbed faults) }

theorem Swapper.byte_disturbed (s : Swapper) (faults : FileFaults) (slot offset : Nat) :
    (s.disturbed faults).byte slot offset = s.byte slot offset := by
  unfold Swapper.byte Swapper.disturbed
  rcases s.file with _ | _ | _ | _ <;> rfl

theorem Swapper.isOpen_disturbed (s : Swapper) (faults : FileFaults) :
    (s.disturbed faults).isOpen = s.isOpen := Option.isSome_map

theorem Swapper.WellFormed.disturbed {s : Swapper} (h : s.WellFormed) (faults : FileFaults) :
    (s.disturbed faults).WellFormed :=
  ⟨h.slot_lt, h.slot_unique, h.free_nodup, h.free_lt, h.free_unused,
    fun hopen => h.covered ((isOpen_disturbed s faults).symm.trans hopen), h.pending_slotless⟩

def ImageIndex.disturbed (index : ImageIndex) (faults : List ((Nat × Nat) × MemoryError)) :
    ImageIndex :=
  { index with image.faults := faults }

namespace Pager

variable {p p' : Pager} {key : PageKey} {pid : Pid}

/-! ## Events -/

inductive Event
  | register (pid : Pid) (numPages : Nat) (image : Option ImageIndex)
  | miss (pid : Pid) (vaddr : VirtAddr)
  | translate (pid : Pid) (vaddr : VirtAddr) (access : Access)
  | read (pid : Pid) (vaddr : VirtAddr) (length : Nat)
  | write (pid : Pid) (vaddr : VirtAddr) (data : Bytes)
  | evict (key : PageKey)
  | save (pid : Pid)
  | restore (pid : Pid)
  | teardown (pid : Pid)
  /-- How accesses to the swap file fail from now on. -/
  | swapFaults (faults : FileFaults)
  /-- Which pages of the image of a process cannot be read from now on. -/
  | imageFaults (pid : Pid) (faults : List ((Nat × Nat) × MemoryError))
  /-- The random numbers to come. -/
  | draw (draws : Draws)

inductive Answer
  | registered (r : Except MemoryError Unit)
  | resolved (r : Except MemoryError Entry)
  | translated (r : Except Exception PhysAddr)
  | read (r : Except Exception Bytes)
  | written (r : Except Exception Nat)
  | evicted (r : Except MemoryError Ppn)
  | done

def withSwapFaults (p : Pager) (faults : FileFaults) : Pager :=
  { p with swap := p.swap.disturbed faults }

def withImageFaults (p : Pager) (pid : Pid) (faults : List ((Nat × Nat) × MemoryError)) : Pager :=
  { p with spaces := p.spaces.modify pid fun space =>
      { space with image := space.image.map (·.disturbed faults) } }

def withDraws (p : Pager) (draws : Draws) : Pager := { p with draws := draws }

def perform : Event → Op Pager Empty Answer
  | .register pid numPages image => do
    return .registered (← Op.attempt (registerSpace pid numPages image))
  | .miss pid vaddr => do return .resolved (← Op.attempt (handleMiss pid vaddr))
  | .translate pid vaddr access => do
    return .translated (← Op.attempt (Pager.translate pid vaddr access))
  | .read pid vaddr length => do return .read (← Op.attempt (Pager.read pid vaddr length))
  | .write pid vaddr data => do return .written (← Op.attempt (Pager.write pid vaddr data))
  | .evict key => do return .evicted (← Op.attempt (evictPage key))
  | .save pid => do saveContext pid; return .done
  | .restore pid => do restoreContext pid; return .done
  | .teardown pid => do Pager.teardown pid; return .done
  | .swapFaults faults => do modify (·.withSwapFaults faults); return .done
  | .imageFaults pid faults => do modify (·.withImageFaults pid faults); return .done
  | .draw draws => do modify (·.withDraws draws); return .done

/-- One step of a run: an event, its answer and the pager around it. -/
structure Step where
  before : Pager
  event : Event
  answer : Answer
  after : Pager

def stepOf (p : Pager) (event : Event) : Step :=
  ⟨p, event, Op.value (perform event p), (perform event p).state⟩

/-- The pager after these events, the latest of which is the first in the list. -/
def after (p : Pager) : List Event → Pager
  | [] => p
  | event :: past => ((p.after past).stepOf event).after

/-- The steps that these events make, the latest first. -/
def history (p : Pager) : List Event → List Step
  | [] => []
  | event :: past => (p.after past).stepOf event :: p.history past

/-! ## Changes of the surroundings -/

structure Undisturbed (p p' : Pager) : Prop where
  pageSize : p'.pageSize = p.pageSize
  pagesOut : p'.swap.counters.pagesOut = p.swap.counters.pagesOut
  kept : ∀ key, Kept p p' key
  spaces : ∀ pid, (p'.extent pid).isSome = (p.extent pid).isSome
  image : ∀ key o, p'.imageByte key o = p.imageByte key o

theorem undisturbed_withSwapFaults (p : Pager) (faults : FileFaults) :
    Undisturbed p (p.withSwapFaults faults) where
  pageSize := rfl
  pagesOut := rfl
  kept := fun _ => ⟨rfl, rfl, fun _ _ _ _ => rfl, fun _ =>
    ⟨rfl, rfl, fun i _ o _ => p.swap.byte_disturbed faults i o⟩⟩
  spaces := fun _ => rfl
  image := fun _ _ => rfl

theorem isOpen_withSwapFaults (p : Pager) (faults : FileFaults) :
    (p.withSwapFaults faults).swap.isOpen = p.swap.isOpen :=
  p.swap.isOpen_disturbed faults

theorem WellFormed.withSwapFaults (h : p.WellFormed none) (faults : FileFaults) :
    (p.withSwapFaults faults).WellFormed none where
  sized := ⟨h.sized.geometry, h.sized.pages, h.sized.memory, h.sized.store, h.sized.residences,
    h.sized.processor, h.sized.swap, h.sized.slots⟩
  table := h.table
  frames := h.frames
  swap := h.swap.disturbed faults
  distinct := h.distinct
  free_iff := h.free_iff
  held_apart := h.held_apart
  entries := fun key e he => (h.entries key e he).congr rfl fun ho =>
    (isOpen_withSwapFaults p faults).symm.trans ho
  cached := fun key e he =>
    ⟨(h.cached key e he).1.congr rfl fun ho =>
      (isOpen_withSwapFaults p faults).symm.trans ho, (h.cached key e he).2⟩
  slotted := fun key i hi =>
    ⟨(h.slotted key i hi).1, fun ho =>
      (h.slotted key i hi).2 ((isOpen_withSwapFaults p faults).symm.trans ho)⟩
  pending := h.pending
  unpended := fun ho => h.unpended ((isOpen_withSwapFaults p faults).symm.trans ho)

theorem same_withDraws (p : Pager) (draws : Draws) : Same p (p.withDraws draws) :=
  ⟨rfl, rfl, rfl, rfl, rfl, rfl, rfl, fun _ => rfl⟩

theorem get?_withImageFaults (p : Pager) (pid : Pid) (faults : List ((Nat × Nat) × MemoryError))
    (q : Pid) :
    (p.withImageFaults pid faults).spaces.get? q =
      if q = pid then (p.spaces.get? q).map fun space =>
        { space with image := space.image.map (·.disturbed faults) }
      else p.spaces.get? q := by
  rw [withImageFaults, OrderedMap.get?_modify]
  split
  next hq => rw [hq]
  next => rfl

theorem inBounds_withImageFaults (p : Pager) (pid : Pid)
    (faults : List ((Nat × Nat) × MemoryError)) (q : Pid) (vpn : Vpn) :
    (p.withImageFaults pid faults).inBounds q vpn = p.inBounds q vpn := by
  rw [inBounds, inBounds, get?_withImageFaults]
  split
  · cases p.spaces.get? q <;> rfl
  · rfl

theorem origin?_withImageFaults (p : Pager) (pid : Pid)
    (faults : List ((Nat × Nat) × MemoryError)) (key : PageKey) :
    (p.withImageFaults pid faults).origin? key = p.origin? key := by
  rw [origin?, origin?, get?_withImageFaults]
  split
  · cases p.spaces.get? key.pid with
    | none => rfl
    | some space =>
      rw [Option.map_some, Option.bind_some, Option.bind_some]
      cases space.image <;> rfl
  · rfl

theorem isReadOnly_withImageFaults (p : Pager) (pid : Pid)
    (faults : List ((Nat × Nat) × MemoryError)) (key : PageKey) :
    (p.withImageFaults pid faults).isReadOnly key = p.isReadOnly key := by
  rw [isReadOnly, isReadOnly, origin?_withImageFaults]

theorem undisturbed_withImageFaults (p : Pager) (pid : Pid)
    (faults : List ((Nat × Nat) × MemoryError)) : Undisturbed p (p.withImageFaults pid faults) where
  pageSize := rfl
  pagesOut := rfl
  kept := fun _ => ⟨rfl, rfl, fun _ _ _ _ => rfl, fun _ => Swapper.Keeps.refl _ _⟩
  spaces := by
    intro q
    rw [extent, extent, get?_withImageFaults, Option.isSome_map, Option.isSome_map]
    split
    · exact Option.isSome_map
    · rfl
  image := by
    intro key o
    rw [imageByte, imageByte, get?_withImageFaults]
    by_cases hk : key.pid = pid
    · rw [if_pos hk]
      cases p.spaces.get? key.pid with
      | none => rfl
      | some space =>
        rw [Option.map_some, Option.bind_some, Option.bind_some]
        cases space.image <;> rfl
    · rw [if_neg hk]
      rfl

theorem WellFormed.withImageFaults (h : p.WellFormed none) (pid : Pid)
    (faults : List ((Nat × Nat) × MemoryError)) :
    (p.withImageFaults pid faults).WellFormed none := by
  have hbounds := inBounds_withImageFaults p pid faults
  have hro := isReadOnly_withImageFaults p pid faults
  constructor
  · exact ⟨h.sized.geometry, h.sized.pages, h.sized.memory, h.sized.store, h.sized.residences,
      h.sized.processor, h.sized.swap, h.sized.slots⟩
  · exact h.table
  · exact h.frames
  · exact h.swap
  · exact h.distinct
  · exact h.free_iff
  · exact h.held_apart
  · intro key e he
    exact (h.entries key e he).of_eq (hbounds key.pid key.vpn) (hro key) id
  · intro key e he
    exact ⟨(h.cached key e he).1.of_eq (hbounds key.pid key.vpn) (hro key) id,
      (h.cached key e he).2⟩
  · intro key i hi
    rw [hbounds, hro]
    exact h.slotted key i hi
  · intro key
    rw [origin?_withImageFaults]
    exact h.pending key
  · intro hopen key
    rw [origin?_withImageFaults]
    exact h.unpended hopen key

/-! ## What an event may do -/

/-- Events that touch no page when they are answered so. -/
def Event.Idle : Event → Answer → Prop
  | .register .., .registered (.error _) => True
  | .miss .., .resolved (.ok _) => True
  | .translate .., .translated (.error _) => True
  | .read .., .read (.error _) => True
  | .write .., .written (.error _) => True
  | .evict _, .evicted (.error _) => True
  | .save _, .done => True
  | .restore _, .done => True
  | .draw _, .done => True
  | _, _ => False

/-- What a write does to the frames that hold pages: `data` from byte `start` of page `key` on. -/
def Overwrote (p p' : Pager) (key : PageKey) (start : Nat) (data : Bytes) : Prop :=
  ∀ k ppn, p.frame? k = some ppn → ∀ o < p.pageSize, p'.frameByte ppn o =
    if k = key ∧ start ≤ o ∧ o < start + data.length then data.getD (o - start) 0
    else p.frameByte ppn o

/-- What each event may do to a pager, by its answer. -/
inductive Effect (p : Pager) : Event → Answer → Pager → Prop
  | idle {event : Event} {answer : Answer} {p' : Pager} (hidle : event.Idle answer)
      (h : Still p p') : Effect p event answer p'
  | registered {pid : Pid} {numPages : Nat} {image : Option ImageIndex}
      (hnew : p.extent pid = none) :
      Effect p (.register pid numPages image) (.registered (.ok ()))
        (p.registered pid numPages image)
  | loaded {pid : Pid} {vaddr : VirtAddr} {e : Entry} {p₁ p' : Pager}
      (habsent : p.frame? (p.pageOf pid vaddr) = none) (hroom : MadeRoom p p₁)
      (h : Loaded p₁ p' (p.pageOf pid vaddr)) :
      Effect p (.miss pid vaddr) (.resolved (.ok e)) p'
  | unresolved {pid : Pid} {vaddr : VirtAddr} {cause : MemoryError} {p' : Pager}
      (h : MadeRoom p p') : Effect p (.miss pid vaddr) (.resolved (.error cause)) p'
  | translated {pid : Pid} {vaddr : VirtAddr} {access : Access} {paddr : PhysAddr} {p' : Pager}
      (h : Accessed p p' (p.pageOf pid vaddr) access) (hmem : p'.memory = p.memory) :
      Effect p (.translate pid vaddr access) (.translated (.ok paddr)) p'
  | read {pid : Pid} {vaddr : VirtAddr} {length : Nat} {data : Bytes} {p' : Pager}
      (h : Accessed p p' (p.pageOf pid vaddr) .read) (hmem : p'.memory = p.memory) :
      Effect p (.read pid vaddr length) (.read (.ok data)) p'
  | written {pid : Pid} {vaddr : VirtAddr} {data : Bytes} {n : Nat} {p' : Pager}
      (h : Accessed p p' (p.pageOf pid vaddr) .write)
      (hover : vaddr.offset p.pageSize + data.length ≤ p.pageSize →
        Overwrote p p' (p.pageOf pid vaddr) (vaddr.offset p.pageSize) data) :
      Effect p (.write pid vaddr data) (.written (.ok n)) p'
  | evicted {key : PageKey} {ppn : Ppn} {p' : Pager} (h : Evicted p p' key ppn)
      (hclean : p.isDirty key = false → p'.swap = p.swap) :
      Effect p (.evict key) (.evicted (.ok ppn)) p'
  | tornDown {pid : Pid} {p' : Pager} (h : Elsewhere p p' pid) (hgone : p'.extent pid = none) :
      Effect p (.teardown pid) .done p'
  | swapFaults {faults : FileFaults} :
      Effect p (.swapFaults faults) .done (p.withSwapFaults faults)
  | imageFaults {pid : Pid} {faults : List ((Nat × Nat) × MemoryError)} :
      Effect p (.imageFaults pid faults) .done (p.withImageFaults pid faults)

/-- An event keeps the invariant and does only what it may. -/
theorem perform_ends (h : p.WellFormed none) (event : Event) :
    (perform event).Ends p fun r p' =>
      ∃ a, r = .ok a ∧ p'.WellFormed none ∧ Effect p event a p' := by
  cases event with
  | register pid numPages image =>
    simp only [perform, Op.ends_bind, Op.ends_attempt, Op.ends_pure]
    refine (registerSpace_ends p pid numPages image).imp ?_
    rintro (cause | done) p' hr
    · obtain ⟨-, rfl⟩ := hr
      exact ⟨_, rfl, h, .idle trivial (Still.refl _)⟩
    · obtain ⟨hnew, rfl⟩ := hr
      exact ⟨_, rfl, h.registered hnew numPages image, .registered hnew⟩
  | miss pid vaddr =>
    simp only [perform, Op.ends_bind, Op.ends_attempt, Op.ends_pure]
    refine (handleMiss_ends h rfl).imp ?_
    rintro (cause | e) p' ⟨h', -, hr⟩
    · exact ⟨_, rfl, h', .unresolved hr.1⟩
    · cases hr.2.2 with
      | resident _ hretold _ => exact ⟨_, rfl, h', .idle trivial hretold.still⟩
      | brought habsent hroom hloaded _ =>
        exact ⟨_, rfl, h', .loaded habsent hroom.madeRoom hloaded⟩
  | translate pid vaddr access =>
    simp only [perform, Op.ends_bind, Op.ends_attempt, Op.ends_pure]
    refine (translate_ends h).imp ?_
    rintro r p' (⟨cause, rfl, hsame⟩ | ⟨e, hc, hro, rfl, rfl⟩)
    · exact ⟨_, rfl, h.same hsame, .idle trivial hsame.still⟩
    · exact ⟨_, rfl, h.touched hc hro, .translated (accessed_touched h hc hro) rfl⟩
  | read pid vaddr length =>
    simp only [perform, Op.ends_bind, Op.ends_attempt, Op.ends_pure]
    refine (read_ends h pid vaddr length).imp ?_
    rintro (cause | data) p' ⟨h', hr⟩
    · exact ⟨_, rfl, h', .idle trivial hr.still⟩
    · exact ⟨_, rfl, h', .read hr.1 hr.2.1⟩
  | write pid vaddr data =>
    simp only [perform, Op.ends_bind, Op.ends_attempt, Op.ends_pure]
    refine (write_ends h pid vaddr data).imp ?_
    rintro (cause | n) p' ⟨h', hr⟩
    · exact ⟨_, rfl, h', .idle trivial hr.still⟩
    · exact ⟨_, rfl, h', .written hr.1 fun hin => (hr.2 hin).2⟩
  | evict key =>
    simp only [perform, Op.ends_bind, Op.ends_attempt, Op.ends_pure]
    refine (evictPage_ends h key).imp ?_
    rintro (cause | ppn) p' ⟨h', -, hr⟩
    · exact ⟨_, rfl, h', .idle trivial hr.1⟩
    · exact ⟨_, rfl, h', .evicted hr.1 hr.2.1.clean⟩
  | save pid =>
    simp only [perform, Op.ends_bind, Op.ends_pure]
    refine (saveContext_ends h pid).imp ?_
    rintro r p' ⟨rfl, h', hstill⟩
    exact ⟨_, rfl, h', .idle trivial hstill⟩
  | restore pid =>
    simp only [perform, Op.ends_bind, Op.ends_pure]
    refine (restoreContext_ends h pid).imp ?_
    rintro r p' ⟨rfl, h', hstill⟩
    exact ⟨_, rfl, h', .idle trivial hstill⟩
  | teardown pid =>
    simp only [perform, Op.ends_bind, Op.ends_pure]
    refine (teardown_ends h pid).imp ?_
    rintro r p' ⟨rfl, h', helse, hgone⟩
    exact ⟨_, rfl, h', .tornDown helse hgone⟩
  | swapFaults faults => exact ⟨_, rfl, h.withSwapFaults faults, .swapFaults⟩
  | imageFaults pid faults => exact ⟨_, rfl, h.withImageFaults pid faults, .imageFaults⟩
  | draw draws =>
    have hsame := same_withDraws p draws
    exact ⟨_, rfl, h.same hsame, .idle trivial hsame.still⟩

/-- What the steps of a run are. -/
theorem WellFormed.stepOf (h : p.WellFormed none) (event : Event) :
    (p.stepOf event).after.WellFormed none ∧
      Effect p event (p.stepOf event).answer (p.stepOf event).after := by
  obtain ⟨a, ha, h', heffect⟩ := perform_ends h event
  have hvalue : (p.stepOf event).answer = a := by
    simp only [Pager.stepOf, Op.value, ha]
  exact ⟨h', hvalue ▸ heffect⟩

/-- The invariant holds along every run. -/
theorem WellFormed.after (h : p.WellFormed none) (events : List Event) :
    (p.after events).WellFormed none := by
  induction events with
  | nil => exact h
  | cons event past ih => exact (ih.stepOf event).1

/-! ## What lasts -/

/-- The event, answered so, gives no process a space and takes none away. -/
def Event.KeepsSpaces : Event → Answer → Prop
  | .register .., .registered (.ok _) => False
  | .teardown _, _ => False
  | _, _ => True

theorem Event.Idle.keepsSpaces {event : Event} {answer : Answer} (hidle : event.Idle answer) :
    event.KeepsSpaces answer := by
  unfold Event.KeepsSpaces
  split
  · exact hidle
  · exact hidle
  · trivial

/-- What each event may do, where it does not matter which pages move: `steady` is all of that. -/
inductive Outline (p : Pager) : Event → Answer → Pager → Prop
  | steady {event : Event} {answer : Answer} {p' : Pager} (hkeeps : event.KeepsSpaces answer)
      (h : Steady p p') : Outline p event answer p'
  | registered {pid : Pid} {numPages : Nat} {image : Option ImageIndex} :
      Outline p (.register pid numPages image) (.registered (.ok ()))
        (p.registered pid numPages image)
  | tornDown {pid : Pid} {p' : Pager} (h : Elsewhere p p' pid) (hgone : p'.extent pid = none) :
      Outline p (.teardown pid) .done p'
  | swapFaults {faults : FileFaults} :
      Outline p (.swapFaults faults) .done (p.withSwapFaults faults)
  | imageFaults {pid : Pid} {faults : List ((Nat × Nat) × MemoryError)} :
      Outline p (.imageFaults pid faults) .done (p.withImageFaults pid faults)

theorem Effect.outline {event : Event} {answer : Answer} (he : Effect p event answer p') :
    Outline p event answer p' := by
  cases he with
  | idle hidle h => exact .steady hidle.keepsSpaces h.steady
  | registered => exact .registered
  | loaded _ hroom h => exact .steady trivial (hroom.steady.trans h.steady)
  | unresolved h => exact .steady trivial h.steady
  | translated h => exact .steady trivial h.steady
  | read h => exact .steady trivial h.steady
  | written h => exact .steady trivial h.steady
  | evicted h => exact .steady trivial h.steady
  | tornDown h hgone => exact .tornDown h hgone
  | swapFaults => exact .swapFaults
  | imageFaults => exact .imageFaults

/-- What no event changes: the sizes, and whether the swap is open. -/
structure Lasting (p p' : Pager) : Prop where
  pageSize : p'.pageSize = p.pageSize
  total : p'.frames.total = p.frames.total
  isOpen : p'.swap.isOpen = p.swap.isOpen

theorem Lasting.trans {p₁ p₂ p₃ : Pager} (h : Lasting p₁ p₂) (h' : Lasting p₂ p₃) :
    Lasting p₁ p₃ where
  pageSize := h'.pageSize.trans h.pageSize
  total := h'.total.trans h.total
  isOpen := h'.isOpen.trans h.isOpen

theorem Effect.lasting {event : Event} {answer : Answer} (he : Effect p event answer p') :
    Lasting p p' := by
  cases he.outline with
  | steady _ h => exact ⟨h.pageSize, h.total, h.isOpen⟩
  | registered => exact ⟨rfl, rfl, (elsewhere_registered p _ _ _).isOpen⟩
  | tornDown h => exact ⟨h.pageSize, h.total, h.isOpen⟩
  | swapFaults => exact ⟨rfl, rfl, isOpen_withSwapFaults p _⟩
  | imageFaults => exact ⟨rfl, rfl, rfl⟩

/-- No run changes the sizes or closes the swap. -/
theorem lasting_after (h : p.WellFormed none) (events : List Event) :
    Lasting p (p.after events) := by
  induction events with
  | nil => exact ⟨rfl, rfl, rfl⟩
  | cons event past ih => exact ih.trans ((h.after past).stepOf event).2.lasting

/-! ## A small pager -/

/-- One frame of four bytes, one cache slot, and a swap in memory. -/
def smallConfig : Config :=
  { pageSize := 4, physPages := 1, tlbSize := 1, swap := .memory, seed := some 0 }

def small : Pager := initial smallConfig (.seeded 0) 1 (.zeroed 1 4) (.ofFile (.memory {}) 4)

theorem created_small : Created smallConfig small :=
  ⟨fun _ => .writable, 0, 1, .zeroed 1 4, rfl, rfl⟩

def firstWrite : List Event :=
  [.draw (.ofWords [0]), .write 1 ⟨1⟩ [7], .miss 1 ⟨0⟩, .register 1 2 none]

/-- The page loses the only frame to another page and comes back. -/
def roundTrip : List Event := .miss 1 ⟨0⟩ :: .miss 1 ⟨4⟩ :: firstWrite

/-! ## Sizes that a word has no room for -/

/-- As many frames of one byte as an address can name. -/
def countlessConfig : Config :=
  { pageSize := 1, physPages := 0x100000000, tlbSize := 1, stackPages := 0, swap := .memory,
    seed := some 0 }

def countless : Pager :=
  initial countlessConfig (.seeded 0) 1 (.zeroed 0x100000000 1) (.ofFile (.memory {}) 1)

theorem created_countless : Created countlessConfig countless :=
  ⟨fun _ => .writable, 0, 1, .zeroed 0x100000000 1, rfl, rfl⟩

/-- One frame, as large as the address space. -/
def vastConfig : Config :=
  { pageSize := 0x100000000, physPages := 1, tlbSize := 1, stackPages := 0, swap := .memory,
    seed := some 0 }

def vast : Pager :=
  initial vastConfig (.seeded 0) 1 (.zeroed 1 0x100000000) (.ofFile (.memory {}) 0x100000000)

theorem created_vast : Created vastConfig vast :=
  ⟨fun _ => .writable, 0, 1, .zeroed 1 0x100000000, rfl, rfl⟩

end Pager

end VirtualMemory
