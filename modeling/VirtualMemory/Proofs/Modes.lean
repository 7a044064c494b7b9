import VirtualMemory.Kernel
import VirtualMemory.Proofs.Embedding
import VirtualMemory.Proofs.Loading
import VirtualMemory.Proofs.Pager.Serving
import VirtualMemory.Proofs.StaticMapping

/-!
# Both modes show the same

A process that is spawned and then makes requests cannot tell static mode from demand mode: not by
its layout, and not by an answer. In either mode its memory is flat memory, so both are compared
with that. In demand mode other processes may be at work between the requests.
-/

namespace VirtualMemory

/-! ## Machines of either mode -/

namespace Backend

theorem embeds_static : Embeds Backend.static where
  injective := fun _ _ => Backend.static.inj
  pageSize := fun _ => rfl
  load := fun _ _ _ _ => Iff.rfl
  read := fun _ _ _ _ _ => Iff.rfl
  write := fun _ _ _ _ _ => Iff.rfl
  handleFault := fun _ _ _ _ _ => Iff.rfl
  saveContext := fun _ _ _ => Iff.rfl
  restoreContext := fun _ _ _ => Iff.rfl
  teardown := fun _ _ _ => Iff.rfl

theorem embeds_paged : Embeds Backend.paged where
  injective := fun _ _ => Backend.paged.inj
  pageSize := fun _ => rfl
  load := fun _ _ _ _ => Iff.rfl
  read := fun _ _ _ _ _ => Iff.rfl
  write := fun _ _ _ _ _ => Iff.rfl
  handleFault := fun _ _ _ _ _ => Iff.rfl
  saveContext := fun _ _ _ => Iff.rfl
  restoreContext := fun _ _ _ => Iff.rfl
  teardown := fun _ _ _ => Iff.rfl

/-- The machine after these events of its pager, if it has one. -/
def disturbed (events : List Pager.Event) : Backend → Backend
  | .static m => .static m
  | .paged p => .paged (p.after events)

end Backend

/-! ## Requests -/

inductive Request
  | read (vaddr : VirtAddr) (length : Nat)
  | write (vaddr : VirtAddr) (data : Bytes)
  | text (vaddr : VirtAddr) (maxLength : Nat)
  | switchOut
  | switchIn

/-- What it answers: the bytes that were read, the number of bytes that were written, a text. -/
inductive Reply
  | bytes (data : Bytes)
  | written (n : Nat)
  | text (s : Option String)
  | done
  deriving DecidableEq

def Request.serve {σ : Type} [Mmu σ] : Request → Op (Hosted σ) Empty Reply
  | .read vaddr length => do return .bytes (← Hosted.readMemory vaddr length)
  | .write vaddr data => do return .written (← Hosted.writeMemory vaddr data)
  | .text vaddr maxLength => do return .text (← Hosted.readText vaddr maxLength)
  | .switchOut => do Hosted.switchOut; return .done
  | .switchIn => do Hosted.switchIn; return .done

theorem Request.simulates_serve {σ : Type} [Mmu σ] {R : FlatSpace → σ → Prop} {G : σ → Prop}
    {Ready : VirtAddr → σ → Prop} {number : Nat} {pageSize numPages : Nat}
    (hs : Serves number pageSize numPages R G Ready) (request : Request) :
    (request.serve : Op (Hosted σ) Empty Reply).Simulates (Hosted.Alike number pageSize numPages R)
      (fun s => G s.machine) request.serve := by
  cases request with
  | read vaddr length => exact .bind (Hosted.simulates_readMemory hs vaddr length) fun _ => .pure _
  | write vaddr data => exact .bind (Hosted.simulates_writeMemory hs vaddr data) fun _ => .pure _
  | text vaddr n => exact .bind (Hosted.simulates_readText hs vaddr n) fun _ => .pure _
  | switchOut => exact .bind (Hosted.simulates_switchOut hs) fun _ => .pure _
  | switchIn => exact .bind (Hosted.simulates_switchIn hs) fun _ => .pure _

/-! ## Kernels at work -/

/-- A request to a process, and what happens in the pager before it, the latest first. -/
structure Turn where
  others : List Pager.Event
  request : Request

/-- Everything that a process can be seen to be and to do. -/
structure Observation where
  numPages : Nat
  initialSp : VirtAddr
  argv : VirtAddr
  /-- There is no reply if there is no process. -/
  replies : List (Option Reply)
  deriving DecidableEq

namespace Kernel

def disturb (events : List Pager.Event) (k : Kernel) : Kernel :=
  { k with backend := k.backend.disturbed events }

def respond (number : Nat) (turn : Turn) : Op Kernel Empty (Option Reply) := do
  modify (disturb turn.others)
  onProcess number turn.request.serve

def observe (name : String) (image : Image) (args : List String) (turns : List Turn) :
    Op Kernel MemoryError Observation := do
  let process ← spawn name image args
  let replies ← Op.total (turns.mapM (respond process.number))
  return ⟨process.numPages, process.initialSp, process.argv, replies⟩

variable {k : Kernel} {number : Nat} {pageSize numPages : Nat} {G : Backend → Prop}
  {Ready : VirtAddr → Backend → Prop}

/-- Process `number` is as `t` on flat memory. -/
def Hosts (R : FlatSpace → Backend → Prop) (number : Nat) (pageSize numPages : Nat)
    (t : Hosted FlatSpace) (k : Kernel) : Prop :=
  ∃ process, k.processes.get? number = some process ∧
    Hosted.Alike number pageSize numPages R t ⟨process, k.backend⟩

section

variable {R : FlatSpace → Backend → Prop}

/-- What the others do does not change the memory of this process. -/
def Harmless (R : FlatSpace → Backend → Prop) (G : Backend → Prop) (events : List Pager.Event) :
    Prop :=
  ∀ f b, R f b → R f (b.disturbed events) ∧ (G (b.disturbed events) → G b)

theorem simulates_disturb {events : List Pager.Event} (hevents : Harmless R G events) :
    (modify (disturb events) : Op Kernel Empty PUnit).Simulates (Hosts R number pageSize numPages)
      (fun k => G k.backend) (pure ⟨⟩) := by
  rintro t k ⟨process, hprocess, halike⟩
  obtain ⟨hR, hback⟩ := hevents _ _ halike.machine
  have hosts : Hosts R number pageSize numPages t (k.disturb events) :=
    ⟨process, hprocess, hR, halike.number, halike.spans, halike.flat, halike.state⟩
  exact ⟨⟨t, hosts⟩, fun hg => ⟨hback hg, rfl, hosts⟩⟩

theorem simulates_onProcess {ε α : Type} {x : Op (Hosted Backend) ε α}
    {y : Op (Hosted FlatSpace) ε α}
    (h : x.Simulates (Hosted.Alike number pageSize numPages R) (fun s => G s.machine) y) :
    (onProcess number x).Simulates (Hosts R number pageSize numPages) (fun k => G k.backend)
      (do return some (← y)) := by
  rintro t k ⟨process, hprocess, halike⟩
  obtain ⟨⟨t', ht'⟩, hgood⟩ := h t ⟨process, k.backend⟩ halike
  obtain ⟨hresult, hstate⟩ := Op.bind_return y some t
  have hget := (k.processes.get?_insert number number (x ⟨process, k.backend⟩).state.process).trans
    (if_pos rfl)
  rw [Op.SimulatesAt, hresult, hstate, Op.Ends]
  simp only [onProcess, hprocess]
  refine ⟨⟨t', _, hget, ht'⟩, ?_⟩
  intro hg
  obtain ⟨hk, hr, hR⟩ := hgood hg
  exact ⟨hk, congrArg _ hr, _, hget, hR⟩

/-- A turn of the process on flat memory, where nobody else is at work. -/
def flatTurn (turn : Turn) : Op (Hosted FlatSpace) Empty (Option Reply) := do
  return some (← turn.request.serve)

theorem simulates_respond (hs : Serves number pageSize numPages R G Ready) {turn : Turn}
    (hothers : Harmless R G turn.others) :
    (respond number turn).Simulates (Hosts R number pageSize numPages) (fun k => G k.backend)
      (flatTurn turn) := by
  have hquiet : (modify (disturb turn.others) : Op Kernel Empty PUnit).Simulates
      (Hosts R number pageSize numPages) (fun k => G k.backend) (pure ⟨⟩) :=
    simulates_disturb hothers
  have hturn := hquiet.bind fun _ => simulates_onProcess (turn.request.simulates_serve hs)
  rwa [pure_bind] at hturn

end

variable {R : Nat → FlatSpace → Backend → Prop}

theorem respondAll_ends (hs : ∀ numPages, Serves number pageSize numPages (R numPages) G Ready)
    {turns : List Turn}
    (hothers : ∀ turn ∈ turns, ∀ numPages, Harmless (R numPages) G turn.others) :
    (turns.mapM (respond number)).Ends k fun r k' => ∀ numPages t,
      Hosts (R numPages) number pageSize numPages t k → G k'.backend →
        G k.backend ∧ r = .ok (Op.value (turns.mapM flatTurn t)) := by
  intro numPages t hosts hg
  have hall : (turns.mapM (respond number)).Simulates (Hosts (R numPages) number pageSize numPages)
      (fun k => G k.backend) (turns.mapM flatTurn) :=
    .mapM fun turn hturn => simulates_respond (hs numPages) (hothers turn hturn numPages)
  obtain ⟨hk, hr, -⟩ := (hall t k hosts).2 hg
  exact ⟨hk, hr.trans (Op.result_eq_value _)⟩

/-! ## The whole life of a process -/

theorem hosts_spawned {layout : Layout} {f : FlatSpace} {b : Backend} (k : Kernel) (name : String)
    (argc : Nat) (hR : R layout.numPages f b) :
    Hosts (R layout.numPages) number pageSize layout.numPages
      ⟨Loader.newProcess 0 "" layout argc pageSize, f⟩
      { k with
        backend := b
        processes := k.processes.insert number
          (Loader.newProcess number name layout argc pageSize) } :=
  ⟨_, (OrderedMap.get?_insert _ _ _ _).trans (if_pos rfl), hR, rfl, ⟨rfl, rfl⟩, ⟨rfl, rfl⟩, rfl⟩

theorem spawn_ends (name : String) {image : Image} (args : List String)
    {planned : Except MemoryError Layout}
    (hs : ∀ numPages, Serves k.next pageSize numPages (R numPages) G Ready)
    (hprepares : Prepares R G k.next (image.countedPages + k.config.stackPages + 1) k.backend)
    (hsize : Mmu.pageSize k.backend = pageSize) (hread : image.Readable pageSize)
    (hplan : (Loader.plan image (args.map textBytes) k.config.stackPages pageSize).Ends k.backend
      fun r b => r = planned ∧ b = k.backend) :
    (spawn name image args).Ends k fun r k' =>
      (∀ process, r = .ok process → process.number = k.next ∧
        ∃ numPages t, Hosts (R numPages) k.next pageSize numPages t k') ∧
      (G k'.backend →
        match Loader.flat pageSize (args.map textBytes) planned with
        | .error e => r = .error e
        | .ok (layout, f) =>
          r = .ok (Loader.newProcess k.next name layout (args.map textBytes).length pageSize) ∧
            Hosts (R layout.numPages) k.next pageSize layout.numPages
              ⟨Loader.newProcess 0 "" layout (args.map textBytes).length pageSize, f⟩ k') := by
  simp only [spawn, Op.ends_bind, Op.ends_get, Op.ends_set, Op.ends_on]
  refine (Loader.load_ends name args hs hprepares hsize hread hplan).imp ?_
  rintro (e | process) b ⟨hmade, hgood⟩
  · refine ⟨nofun, ?_⟩
    intro hg
    obtain ⟨-, hr⟩ := hgood hg
    rw [Loader.eq_error_of_failed hr]
  · obtain ⟨layout, rfl, f, hR⟩ := hmade process rfl
    simp only [Op.ends_modify, Op.ends_pure]
    constructor
    · rintro made ⟨⟩
      exact ⟨rfl, _, _, hosts_spawned _ name _ hR⟩
    · intro hg
      obtain ⟨-, hr⟩ := hgood hg
      cases hflat : Loader.flat pageSize (args.map textBytes) planned with
      | error e' =>
        rw [hflat] at hr
        cases hr
      | ok found =>
        obtain ⟨layout', f'⟩ := found
        rw [hflat] at hr
        obtain ⟨hprocess, hR'⟩ := hr
        refine ⟨hprocess, ?_⟩
        rw [Except.ok.inj hprocess]
        exact hosts_spawned _ name _ hR'

/-- What is observed of a process whose memory is flat. -/
def flatObservation (pageSize : Nat) (args : List Bytes) (planned : Except MemoryError Layout)
    (turns : List Turn) : Except MemoryError Observation := do
  let (layout, f) ← Loader.flat pageSize args planned
  let process := Loader.newProcess 0 "" layout args.length pageSize
  return ⟨layout.numPages, process.initialSp, process.argv,
    Op.value (turns.mapM flatTurn ⟨process, f⟩)⟩

theorem observe_ends (name : String) {image : Image} (args : List String) {turns : List Turn}
    {planned : Except MemoryError Layout}
    (hs : ∀ numPages, Serves k.next pageSize numPages (R numPages) G Ready)
    (hprepares : Prepares R G k.next (image.countedPages + k.config.stackPages + 1) k.backend)
    (hsize : Mmu.pageSize k.backend = pageSize) (hread : image.Readable pageSize)
    (hplan : (Loader.plan image (args.map textBytes) k.config.stackPages pageSize).Ends k.backend
      fun r b => r = planned ∧ b = k.backend)
    (hothers : ∀ turn ∈ turns, ∀ numPages, Harmless (R numPages) G turn.others) :
    (observe name image args turns).Ends k fun r k' => G k'.backend →
      r = flatObservation pageSize (args.map textBytes) planned turns := by
  simp only [observe, Op.ends_bind]
  refine (spawn_ends name args hs hprepares hsize hread hplan).imp ?_
  rintro (e | process) k₁ ⟨hmade, hgood⟩
  · intro hg
    rw [flatObservation, Loader.eq_error_of_failed (hgood hg)]
    rfl
  · obtain ⟨hnumber, numPages, t, hosts⟩ := hmade process rfl
    simp only [Op.ends_total, Op.ends_pure, hnumber]
    refine (respondAll_ends hs hothers).imp ?_
    rintro (e | replies) k₂ hall
    · exact nomatch e
    intro hg
    have hr := hgood (hall numPages t hosts hg).1
    rw [flatObservation]
    cases hflat : Loader.flat pageSize (args.map textBytes) planned with
    | error e' =>
      rw [hflat] at hr
      cases hr
    | ok found =>
      obtain ⟨layout, f⟩ := found
      rw [hflat] at hr
      obtain ⟨hprocess, hosts'⟩ := hr
      obtain ⟨-, hreplies⟩ := hall _ _ hosts' hg
      obtain rfl := Except.ok.inj hprocess
      obtain rfl := Except.ok.inj hreplies
      rfl

/-! ## One mode against the other -/

/-- The kernel is in static mode, and its machine was used in any way. -/
def InStaticMode (c : Config) (k : Kernel) : Prop := ∃ m, k.backend = .static m ∧ m.Reached c

/-- The kernel is in demand mode, its pager was used in any way, and the number of the next process
is free. -/
def InDemandMode (c : Config) (k : Kernel) : Prop :=
  ∃ p past, k.backend = .paged (p.after past) ∧ Pager.Created c p ∧
    (∀ event ∈ past, event.InPage c.pageSize) ∧ (p.after past).extent k.next.toUInt32 = none

/-- A process in static mode is seen as on flat memory. -/
theorem InStaticMode.observe_ends {c : Config} (h : k.InStaticMode c) (name : String)
    {image : Image} (args : List String) (turns : List Turn) {planned : Except MemoryError Layout}
    (hread : image.Readable c.pageSize)
    (henough : image.pageCount + k.config.stackPages + 1 ≤ k.freePages)
    (hplan : (Loader.plan image (args.map textBytes) k.config.stackPages c.pageSize).Ends k.backend
      fun r b => r = planned ∧ b = k.backend) :
    (observe name image args turns).Ends k fun r _ =>
      r = flatObservation c.pageSize (args.map textBytes) planned turns := by
  obtain ⟨m, hm, hreached⟩ := h
  obtain ⟨hwf, hsize⟩ := hreached.wellFormed
  rw [freePages, hm] at henough
  have hcounted : image.countedPages + k.config.stackPages + 1 ≤ m.frames.freeCount := by
    have hle := image.countedPages_le
    exact Nat.le_trans (by omega) henough
  have hprepares := (StaticMachine.prepares hwf k.next hcounted).lift Backend.embeds_static
  rw [hsize, ← hm] at hprepares
  have hs := fun numPages =>
    (StaticMachine.serves k.next c.pageSize numPages).lift Backend.embeds_static
  have hpage : Mmu.pageSize k.backend = c.pageSize := hm ▸ hsize
  have hothers : ∀ turn ∈ turns, ∀ numPages, Harmless
      (Holding Backend.static (StaticMachine.Hosts k.next c.pageSize numPages))
      (Unspoiled Backend.static fun _ => True) turn.others := by
    rintro turn - numPages f b ⟨m, rfl, hosts⟩
    exact ⟨⟨m, rfl, hosts⟩, id⟩
  refine (Kernel.observe_ends name args hs hprepares hpage hread hplan hothers).imp ?_
  intro r k' hr
  exact hr fun _ _ => trivial

/-- So is a process in demand mode, unless the swap fails. -/
theorem InDemandMode.observe_ends {c : Config} (h : k.InDemandMode c)
    (hcount : c.physPages < 0x100000000) (name : String)
    {image : Image} (args : List String) {turns : List Turn} {planned : Except MemoryError Layout}
    (hread : image.Readable c.pageSize)
    (hforeign : ∀ turn ∈ turns, ∀ event ∈ turn.others,
      event.Foreign k.next.toUInt32 ∧ event.InPage c.pageSize)
    (hplan : (Loader.plan image (args.map textBytes) k.config.stackPages c.pageSize).Ends k.backend
      fun r b => r = planned ∧ b = k.backend) :
    (observe name image args turns).Ends k fun r k' =>
      (∀ p, k'.pager? = some p → p.swap.Reliable) →
        r = flatObservation c.pageSize (args.map textBytes) planned turns := by
  obtain ⟨p, past, hp, hc, hin, hnew⟩ := h
  obtain ⟨hwf, -, -, hsize, hopen⟩ := hc.wellFormed
  have hlasting := Pager.lasting_after hwf past
  have hopen' := hlasting.isOpen.trans hopen
  have hcoherent := Pager.Coherent.after hwf (.created hc) past (hsize.symm ▸ hin)
  have hsize' := hlasting.pageSize.trans hsize
  have hword : (p.after past).frames.InWord :=
    (hc.inWord hcount).of_total hlasting.total
  have hprepares := (Pager.prepares (hwf.after past) hword hopen' hcoherent.backed hnew
    (image.countedPages + k.config.stackPages + 1)).lift Backend.embeds_paged
  rw [hsize', ← hp] at hprepares
  have hs := fun numPages =>
    (Pager.serves k.next c.pageSize numPages).lift Backend.embeds_paged
  have hpage : Mmu.pageSize k.backend = c.pageSize := hp ▸ hsize'
  have hothers : ∀ turn ∈ turns, ∀ numPages, Harmless
      (Holding Backend.paged (Pager.Hosts k.next.toUInt32 c.pageSize numPages))
      (Unspoiled Backend.paged fun p => p.swap.Reliable) turn.others := by
    rintro turn hturn numPages f b ⟨q, rfl, hosts⟩
    obtain ⟨hosts', hback⟩ := hosts.after turn.others
      (fun event hevent => (hforeign turn hturn event hevent).1)
      fun event hevent => (hforeign turn hturn event hevent).2
    rw [Backend.disturbed, Backend.embeds_paged.unspoiled_iff, Backend.embeds_paged.unspoiled_iff]
    exact ⟨⟨_, rfl, hosts'⟩, hback⟩
  refine (Kernel.observe_ends name args hs hprepares hpage hread hplan hothers).imp ?_
  intro r k' hr hreliable
  refine hr ?_
  intro q hq
  refine hreliable q ?_
  rw [pager?, hq]
  rfl

/-- A process cannot tell the modes apart, whatever it asks for and whatever others do meanwhile,
as long as static mode has frames enough, a word counts the frames of demand mode, and its swap does
not fail. -/
theorem modes_agree {c c' : Config} {demand static : Kernel} (hdemand : demand.InDemandMode c)
    (hcount : c.physPages < 0x100000000) (hstatic : static.InStaticMode c')
    (hsize : c'.pageSize = c.pageSize)
    (hstack : static.config.stackPages = demand.config.stackPages) (name : String) {image : Image}
    (hread : image.Readable c.pageSize) (args : List String)
    (henough : image.pageCount + static.config.stackPages + 1 ≤ static.freePages)
    (turns : List Turn)
    (hforeign : ∀ turn ∈ turns, ∀ event ∈ turn.others,
      event.Foreign demand.next.toUInt32 ∧ event.InPage c.pageSize)
    (hreliable : ∀ p, (observe name image args turns demand).state.pager? = some p →
      p.swap.Reliable) :
    (observe name image args turns demand).result =
      (observe name image args turns static).result := by
  obtain ⟨planned, hplan⟩ : (Loader.plan image (args.map textBytes) demand.config.stackPages
    c.pageSize : Op Backend MemoryError Layout).Stateless := Loader.stateless_plan _ _ _ _
  have hplan' := hplan static.backend
  rw [← hstack, ← hsize] at hplan'
  have h := hdemand.observe_ends hcount name args hread hforeign (hplan demand.backend) hreliable
  have h' := hstatic.observe_ends name args turns (hsize.symm ▸ hread) henough hplan'
  rw [hsize] at h'
  exact h.trans h'.symm

/-! ## A small process -/

def demandConfig : Config :=
  { pageSize := 8, physPages := 1, tlbSize := 1, stackPages := 1, swap := .memory, seed := some 0 }

def staticConfig : Config :=
  { pageSize := 8, physPages := 4, tlbSize := 1, stackPages := 1, mode := .static }

def smallPager : Pager :=
  .initial demandConfig (.seeded 0) 1 (.zeroed 1 8) (.ofFile (.memory {}) 8)

/-- One frame, one cache slot, and a swap in memory. -/
def smallDemand : Kernel :=
  { config := demandConfig
    backend := .paged (smallPager.after [.draw (.ofWords [])]) }

/-- As many frames as the process has pages. -/
def smallStatic : Kernel :=
  { config := staticConfig
    backend := .static (.ofSizes 4 8) }

/-- A page of text that is read-only, and a page of data. -/
def smallImage : Image := .scripted [⟨"text", 0, 1, true⟩, ⟨"data", 1, 1, false⟩] [] ⟨0⟩

/-- The data run over into the stack, another process takes the only frame, and the text is written
to in vain. -/
def smallTurns : List Turn :=
  [⟨[], .write ⟨14⟩ [1, 2, 3]⟩, ⟨[.miss 2 ⟨0⟩, .register 2 1 none], .read ⟨13⟩ 5⟩,
    ⟨[], .switchOut⟩, ⟨[.miss 2 ⟨0⟩], .switchIn⟩, ⟨[], .write ⟨7⟩ [9]⟩, ⟨[], .text ⟨28⟩ 2⟩]

def smallObservation : Observation :=
  ⟨4, ⟨24⟩, ⟨24⟩, [some (.written 3), some (.bytes [16, 1, 2, 3, 0]), some .done, some .done,
    some (.written 0), some (.text (some "a"))]⟩

theorem inDemandMode_small : smallDemand.InDemandMode demandConfig := by
  refine ⟨smallPager, _, rfl, ⟨fun _ => .writable, 0, 1, .zeroed 1 8, rfl, rfl⟩, ?_, rfl⟩
  intro event hevent
  obtain rfl := List.mem_singleton.mp hevent
  trivial

theorem inStaticMode_small : smallStatic.InStaticMode staticConfig := ⟨_, rfl, .booted rfl⟩

theorem foreign_smallTurns : ∀ turn ∈ smallTurns, ∀ event ∈ turn.others,
    event.Foreign smallDemand.next.toUInt32 ∧ event.InPage demandConfig.pageSize := by
  simp [smallTurns, smallDemand, Pager.Event.Foreign, Pager.Event.InPage]

theorem reliable_small (p : Pager)
    (hp : (observe "small" smallImage ["a"] smallTurns smallDemand).state.pager? = some p) :
    p.swap.Reliable := by
  have hall : (observe "small" smallImage ["a"] smallTurns smallDemand).state.pager?.all
      (fun p => decide p.swap.Reliable) = true := by decide +kernel
  rw [hp] at hall
  exact of_decide_eq_true hall

theorem modes_agree_small :
    (observe "small" smallImage ["a"] smallTurns smallDemand).result = .ok smallObservation ∧
      (observe "small" smallImage ["a"] smallTurns smallDemand).result =
        (observe "small" smallImage ["a"] smallTurns smallStatic).result := by
  refine ⟨by decide +kernel, ?_⟩
  exact modes_agree inDemandMode_small (by decide) inStaticMode_small rfl rfl "small"
    (fun _ _ _ _ _ => ⟨_, rfl⟩) ["a"] (by decide) smallTurns foreign_smallTurns reliable_small

/-- As many frames of one byte as an address can name, in demand mode. -/
def countlessDemand : Kernel :=
  { config := Pager.countlessConfig
    backend := .paged Pager.countless }

def singleConfig : Config := { pageSize := 1, physPages := 1, stackPages := 0, mode := .static }

def singleStatic : Kernel :=
  { config := singleConfig
    backend := .static (.ofSizes 1 1) }

def emptyImage : Image := .scripted [] [] ⟨0⟩

/-- A process reads its only byte, unless the frames of demand mode are as many as an address can
name. -/
theorem modes_differ :
    countlessDemand.InDemandMode Pager.countlessConfig ∧ singleStatic.InStaticMode singleConfig ∧
      (observe "empty" emptyImage [] [⟨[], .read ⟨0⟩ 1⟩] countlessDemand).result =
        .ok ⟨1, ⟨0⟩, ⟨0⟩, [some (.bytes [])]⟩ ∧
      (observe "empty" emptyImage [] [⟨[], .read ⟨0⟩ 1⟩] singleStatic).result =
        .ok ⟨1, ⟨0⟩, ⟨0⟩, [some (.bytes [0])]⟩ := by
  refine ⟨?_, ⟨_, rfl, .booted rfl⟩, by decide +kernel, by decide +kernel⟩
  exact ⟨Pager.countless, [], rfl, Pager.created_countless, nofun, rfl⟩

end Kernel

end VirtualMemory
