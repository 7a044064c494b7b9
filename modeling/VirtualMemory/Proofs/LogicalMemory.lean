import VirtualMemory.Proofs.FlatCopies
import VirtualMemory.Proofs.LiveProcesses

/-!
# The memory that a process sees

What a machine holds for a process, wherever it is kept, is flat memory. An operation of a process
that has not ended changes this memory as it would change flat memory of its own, and it changes
neither the memory of another process nor what the kernel knows of any.
-/

namespace VirtualMemory

variable {c : Config} {n number q pageSize numPages : Nat} {pid : Pid}

/-! ## Flat memory read off a machine -/

/-- The same pages with the same bytes. -/
structure FlatSpace.Agrees (f g : FlatSpace) : Prop where
  pageSize : g.pageSize = f.pageSize
  numPages : g.numPages = f.numPages
  readOnly : ∀ vpn : Vpn, vpn.toNat < f.numPages → g.readOnly vpn = f.readOnly vpn
  bytes : ∀ a < f.numPages * f.pageSize, g.byte a = f.byte a

/-- The memory of a mapping: its table and its frames. -/
def StaticMachine.space (m : StaticMachine) (mapping : Nat) : FlatSpace where
  pageSize := m.memory.pageSize
  numPages := (m.table mapping).length
  readOnly vpn := (m.entry? mapping vpn).any (·.readOnly)
  byte a :=
    match m.entry? mapping (a / m.memory.pageSize).toUInt32 with
    | some e => m.frameByte e.ppn (a % m.memory.pageSize)
    | none => 0

/-- The memory of a process: its pages, in their frames or wherever they are kept. -/
def Pager.space (p : Pager) (pid : Pid) : FlatSpace where
  pageSize := p.pageSize
  numPages := ((p.extent pid).map (·.1)).getD 0
  readOnly vpn := p.isReadOnly ⟨pid, vpn⟩
  byte a := p.byte ⟨pid, (a / p.pageSize).toUInt32⟩ (a % p.pageSize)

/-- The address of a byte of a page tells both apart. -/
theorem split_page (vpn : Vpn) {o : Nat} (ho : o < pageSize) :
    ((vpn.toNat * pageSize + o) / pageSize).toUInt32 = vpn ∧
      (vpn.toNat * pageSize + o) % pageSize = o := by
  rw [block_div ho, block_mod ho]
  exact ⟨by simp, rfl⟩

theorem StaticMachine.hosts_space {m : StaticMachine} (h : m.Sound c)
    (hh : m.Houses number numPages) : Hosts number c.pageSize numPages (m.space number) m where
  maps :=
    { wellFormed := h.wellFormed
      pageSize := rfl
      length := rfl
      entry := by
        intro vpn e he
        have hused := h.apart.used number e.ppn (mem_ppns he)
        refine ⟨hh.valid e (List.mem_of_getElem? he), hused.1, ?_⟩
        simp only [space, he, Option.any_some]
      apart := fun vpn vpn' e e' he he' hppn => (h.apart.unique he he' hppn).2
      bytes := by
        intro vpn e he o ho
        obtain ⟨hvpn, hoffset⟩ := split_page vpn ho
        simp only [space] at ho hvpn hoffset ⊢
        rw [hvpn, hoffset, he] }
  pageSize := h.pageSize
  numPages := hh.length

theorem StaticMachine.Hosts.agrees {m : StaticMachine} {f : FlatSpace}
    (h : Hosts number pageSize numPages f m) (hg : Geometry numPages pageSize) :
    f.Agrees (m.space number) := by
  obtain ⟨hmaps, rfl, rfl⟩ := h
  have hentry : ∀ vpn : Vpn, vpn.toNat < f.numPages →
      ∃ e, m.entry? number vpn = some e := fun vpn hvpn =>
    ⟨_, List.getElem?_eq_getElem (hmaps.length.symm ▸ hvpn)⟩
  refine ⟨hmaps.pageSize, hmaps.length, ?_, ?_⟩
  · intro vpn hvpn
    obtain ⟨e, he⟩ := hentry vpn hvpn
    simp only [space, he, Option.any_some, (hmaps.entry vpn e he).2.2]
  · intro a ha
    obtain ⟨hvpn, hsplit⟩ := hg.split ha
    obtain ⟨e, he⟩ := hentry _ hvpn
    have hbyte := hmaps.bytes _ e he (a % f.pageSize) (Nat.mod_lt a hg.pos)
    rw [← hsplit] at hbyte
    simp only [space, hmaps.pageSize, he]
    exact hbyte

theorem Pager.hosts_space {p : Pager} (h : p.Sound c) (hcount : c.physPages < 0x100000000)
    (hh : p.Houses pid numPages) (hread : ∀ vpn, p.Readable ⟨pid, vpn⟩) :
    Hosts pid c.pageSize numPages (p.space pid) p where
  wellFormed := h.wellFormed
  inWord := (congrArg (· < 0x100000000) h.total).mpr hcount
  isOpen := h.isOpen
  backed := h.backed
  size := h.pageSize
  flatSize := h.pageSize
  flatPages := by
    rw [space, hh.extent, Option.getD_some]
  extent := hh.extent
  readable := hread
  readOnly := fun _ => rfl
  bytes := by
    intro vpn o ho
    rw [← h.pageSize] at ho ⊢
    obtain ⟨hvpn, hoffset⟩ := split_page vpn ho
    simp only [space, hvpn, hoffset]

theorem Pager.Holds.agrees {p : Pager} {f : FlatSpace} (h : Holds pid pageSize numPages f p)
    (hg : Geometry numPages pageSize) : f.Agrees (p.space pid) := by
  refine ⟨h.size.trans h.flatSize.symm, ?_, fun vpn _ => h.readOnly vpn, ?_⟩
  · rw [space, h.extent, Option.getD_some, h.flatPages]
  · intro a ha
    rw [h.flatPages, h.flatSize] at ha
    obtain ⟨-, hsplit⟩ := hg.split ha
    have hbyte := h.bytes (a / pageSize).toUInt32 (a % pageSize) (Nat.mod_lt a hg.pos)
    rw [← hsplit] at hbyte
    simp only [space, h.size, hbyte]

/-- Whether the image of a process can be read is told from the pages that it covers. -/
theorem Pager.readable_iff {p : Pager} : (∀ vpn, p.Readable ⟨pid, vpn⟩) ↔
    ∀ index ∈ (p.spaces.get? pid).bind (·.image),
      (index.vpns.all fun vpn => (index.load vpn p.pageSize).isOk) = true := by
  -- `all` goes through the pages of the image; a quantifier may be decided for every `Vpn` there is
  have hok : ∀ r : Except MemoryError (Bytes × Bool), (∃ found, r = .ok found) ↔ r.isOk = true := by
    rintro (e | found) <;> simp [Except.isOk, Except.toBool]
  simp only [List.all_eq_true]
  constructor
  · intro h index hindex vpn hvpn
    exact (hok _).mp (h vpn index hindex ((index.mem_vpns vpn).mp hvpn))
  · intro h vpn index hindex hlocate
    exact (hok _).mpr (h index hindex vpn ((index.mem_vpns vpn).mpr hlocate))

/-! ## Machines of either mode -/

namespace Backend

variable {b b' : Backend}

def space (number : Nat) : Backend → FlatSpace
  | .static m => m.space number
  | .paged p => p.space number.toUInt32

/-- The pages of the image of a process can be read. They are not read any more in static mode. -/
def Readable (number : Nat) : Backend → Prop :=
  Each (fun _ => True) fun p => ∀ vpn, p.Readable ⟨number.toUInt32, vpn⟩

instance decidableReadable (number : Nat) : (b : Backend) → Decidable (b.Readable number)
  | .static _ => isTrue trivial
  | .paged _ => decidable_of_iff _ Pager.readable_iff.symm

/-- The swap does not fail. In static mode there is none. -/
def Reliable : Backend → Prop := Each (fun _ => True) fun p => p.swap.Reliable

instance decidableReliable : (b : Backend) → Decidable b.Reliable
  | .static _ => isTrue trivial
  | .paged p => inferInstanceAs (Decidable p.swap.Reliable)

theorem Houses.size (hh : b.Houses number numPages) (hs : b.Sound c) :
    (b.space number).pageSize = c.pageSize ∧ (b.space number).numPages = numPages := by
  cases b with
  | static m => exact ⟨StaticMachine.Sound.pageSize hs, StaticMachine.Houses.length hh⟩
  | paged p =>
    refine ⟨Pager.Sound.pageSize hs, ?_⟩
    rw [space, Pager.space, Pager.Houses.extent hh, Option.getD_some]

/-- Only process `number` was at work, and the memory of the others is as it was. -/
theorem Respects.agrees (h : Respects number b b') (hs : b.Sound c) (hq : b.Distinct q number)
    (hh : b.Houses q numPages) : (b.space q).Agrees (b'.space q) := by
  cases h with
  | @static m m' h =>
    have htable := h.others q hq
    have hentry : ∀ vpn, m'.entry? q vpn = m.entry? q vpn := by
      intro vpn
      rw [StaticMachine.entry?, StaticMachine.entry?, htable]
    refine ⟨h.pageSize, congrArg List.length htable, ?_, ?_⟩
    · intro vpn _
      simp only [space, StaticMachine.space, hentry]
    · intro a _
      have hmod : a % m.memory.pageSize < m.memory.pageSize :=
        Nat.mod_lt a (StaticMachine.Sound.wellFormed hs).geometry.pos
      simp only [space, StaticMachine.space, hentry, h.pageSize]
      split
      next e he => exact h.bytes q hq e.ppn (StaticMachine.mem_ppns he) _ hmod
      next => rfl
  | @paged p p' h =>
    have hext := h.others q.toUInt32 hq
    have hspace : (p.extent q.toUInt32).isSome = true := by
      rw [← Option.isSome_map (f := (·.1)), Pager.Houses.extent hh]
      rfl
    refine ⟨h.pageSize, ?_, fun vpn _ => Pager.isReadOnly_congr hext, ?_⟩
    · simp only [space, Pager.space, hext]
    · intro a _
      have hmod : a % p.pageSize < p.pageSize :=
        Nat.mod_lt a (Pager.Sound.wellFormed hs).sized.geometry.pos
      simp only [space, Pager.space, h.pageSize]
      exact h.bytes ⟨q.toUInt32, _⟩ hq hspace _ hmod

/-- The machine serves a process that has its space, as flat memory with the same bytes. -/
theorem Houses.serves (hh : b.Houses number numPages) (hs : b.Sound c)
    (hcount : c.physPages < 0x100000000) (hg : Geometry numPages c.pageSize)
    (hread : b.Readable number) :
    ∃ R G Ready, Serves number c.pageSize numPages R G Ready ∧ R (b.space number) b ∧
      (∀ f b', R f b' → f.Agrees (b'.space number)) ∧ ∀ b', b'.Reliable → G b' := by
  cases b with
  | static m =>
    refine ⟨_, _, _, (StaticMachine.serves number c.pageSize numPages).lift embeds_static,
      ⟨m, rfl, StaticMachine.hosts_space hs hh⟩, ?_, fun _ _ _ _ => trivial⟩
    rintro f b' ⟨m', rfl, hosts⟩
    exact hosts.agrees hg
  | paged p =>
    refine ⟨_, _, _, (Pager.serves number c.pageSize numPages).lift embeds_paged,
      ⟨p, rfl, Pager.hosts_space hs hcount hh hread⟩, ?_, ?_⟩
    · rintro f b' ⟨p', rfl, hosts⟩
      exact hosts.toHolds.agrees hg
    · rintro b' hreliable p' rfl
      exact hreliable

end Backend

/-! ## Kernels -/

namespace Kernel

variable {ε α : Type} {k k' : Kernel}

def space (k : Kernel) (number : Nat) : FlatSpace := k.backend.space number

/-- Process `number` has memory `f` now. The kernel knows of all processes what it knew, and the
memory of the others is as it was. -/
structure OnlyMemory (number : Nat) (f : FlatSpace) (k k' : Kernel) : Prop where
  processes : ∀ q, k'.processes.get? q = k.processes.get? q
  memory : f.Agrees (k'.space number)
  others : ∀ q process, q ≠ number → k.processes.get? q = some process →
    process.terminated = false → (k.space q).Agrees (k'.space q)

/-- A process that has not ended has the pages that it was told. -/
theorem Housed.size_space (hs : Sound c n k) (hh : Housed c k) {process : Process}
    (hp : k.processes.get? number = some process) (hlive : process.terminated = false) :
    Geometry (k.space number).numPages (k.space number).pageSize ∧
      Hosted.Spans process (k.space number).pageSize (k.space number).numPages := by
  obtain ⟨-, hnum⟩ := hs.processes number process hp
  have halive : k.Alive number process := ⟨hp, hlive⟩
  obtain ⟨hsize, hpages⟩ := (hh.houses number process halive).size hs.backend
  rw [space, hsize, hpages]
  exact ⟨hh.geometry number process halive, hnum.2, rfl⟩

/-- What a process that has not ended does to its memory, and what it answers, is the same as on
flat memory, unless the swap fails. -/
theorem onProcess_flat (hs : Sound c n k) (hh : Housed c k) (hcount : c.physPages < 0x100000000)
    {process : Process} (hp : k.processes.get? number = some process)
    (hlive : process.terminated = false) (hread : k.backend.Readable number)
    {x : Op (Hosted Backend) Empty α} {y : Op (Hosted FlatSpace) Empty α}
    {Q : Except Empty α → Hosted FlatSpace → Prop}
    (hy : y.Ends ⟨process, k.space number⟩ Q)
    (hx : ∀ R G Ready, Serves number c.pageSize process.numPages R G Ready →
      x.Simulates (Hosted.Alike number c.pageSize process.numPages R) (fun s => G s.machine) y)
    (hkeeps : ∀ J I, InUse number c.pageSize I →
      (∀ p, J p → Hosted.Numbered number c.pageSize p) →
      x.Maintains (Hosted.Runs J I) fun _ => True) :
    (onProcess number x).Ends k fun r k' => k'.backend.Reliable →
      ∃ a t, r = .ok (some a) ∧ Q (.ok a) t ∧ OnlyMemory number t.machine k k' := by
  obtain ⟨-, hnum⟩ := hs.processes number process hp
  have halive : k.Alive number process := ⟨hp, hlive⟩
  have hhoused := hh.houses number process halive
  obtain ⟨R, G, Ready, hserves, hR, hagrees, hgood⟩ :=
    hhoused.serves hs.backend hcount (hh.geometry number process halive) hread
  have hspans : Hosted.Spans process c.pageSize process.numPages := ⟨hnum.2, rfl⟩
  have halike : Hosted.Alike number c.pageSize process.numPages R ⟨process, k.space number⟩
      ⟨process, k.backend⟩ := ⟨hR, hnum.1, hspans, hspans, rfl⟩
  have hrespects := (hs.runs hp fun I hI => hkeeps _ I hI.toInUse fun _ hp => hp).machine
  obtain ⟨hsame, -⟩ := hkeeps (· = process) _ (.always number c.pageSize) (fun p hp => hp ▸ hnum)
    ⟨process, k.backend⟩ ⟨rfl, trivial⟩
  obtain ⟨-, hend⟩ := hx R G Ready hserves _ _ halike
  simp only [Op.Ends, onProcess, hp]
  intro hreliable
  obtain ⟨-, hresult, halike'⟩ := hend (hgood _ hreliable)
  have hvalue := Op.result_eq_value (y ⟨process, k.space number⟩)
  rw [Op.Ends, hvalue] at hy
  refine ⟨_, _, ?_, hy, ?_, hagrees _ _ halike'.machine, ?_⟩
  · rw [hresult, hvalue]
    rfl
  · intro q
    rw [OrderedMap.get?_insert, hsame.process]
    split
    next hq => rw [hq, hp]
    next => rfl
  · intro q other hq hother hotherlive
    have halive' : k.Alive q other := ⟨hother, hotherlive⟩
    exact hrespects.agrees hs.backend (hh.apart q other number process halive' halive hq)
      (hh.houses q other halive')

end Kernel

end VirtualMemory
