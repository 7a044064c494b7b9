import VirtualMemory.Proofs.ProgramLayout
import VirtualMemory.Proofs.VirtualCopies

/-!
# What a new process finds

A spawn lays the program out in the memory of the new process: the image, a stack of zeros, and the
arguments. The process can follow its pointers from there. This is so in either mode, whatever the
kernel has done before. A program that cannot be laid out is refused.
-/

namespace VirtualMemory

variable {c : Config} {n number pageSize : Nat} {f g : FlatSpace} {image : Image}
  {args : List Bytes} {stackPages : Nat}

/-! ## Layouts of other memory -/

theorem FlatSpace.Agrees.bytes_eq (h : f.Agrees g) {start length : Nat}
    (hin : start + length ≤ f.size) : g.bytes start length = f.bytes start length :=
  bytes_congr fun i hi => h.bytes (start + i) (Nat.lt_of_lt_of_le (by omega) hin)

theorem Image.LaidOut.agrees (h : image.LaidOut args stackPages pageSize f)
    (hcontig : image.Contiguous) (hg : f.Agrees g) : image.LaidOut args stackPages pageSize g := by
  have hsize := h.size_eq
  have hstack : (image.pageCount + stackPages) * pageSize =
      image.pageCount * pageSize + stackPages * pageSize := Nat.add_mul _ _ _
  refine ⟨hg.pageSize.trans h.size, hg.numPages.trans h.numPages, ?_, ?_, ?_⟩
  · intro i sec hi page hpage
    have hbefore := block_le (hcontig.lt hi hpage) pageSize
    rw [hg.bytes_eq (by omega)]
    exact h.contents i sec hi page hpage
  · rw [hg.bytes_eq (by omega)]
    exact h.stack
  · rw [hg.bytes_eq (by omega)]
    exact h.arguments

/-- The claim of texts on the argument page is counted in their bytes. -/
theorem Loader.Accepts.of_texts {args : List String}
    (h : (args.map fun arg => 4 + arg.utf8ByteSize + 1).sum ≤ pageSize)
    (hcontig : image.Contiguous)
    (hfits : (image.pageCount + stackPages + 1) * pageSize ≤ 0x100000000) :
    Accepts image (args.map textBytes) stackPages pageSize :=
  ⟨hcontig, (argumentsSize_texts args).trans_le h, hfits⟩

/-- No argument fits a page of one byte. -/
theorem Loader.Accepts.one_lt {args : List String} (hne : args ≠ [])
    (h : Accepts image (args.map textBytes) stackPages pageSize) : 1 < pageSize := by
  have hsum := h.arguments
  obtain ⟨arg, rest, rfl⟩ := List.exists_cons_of_ne_nil hne
  rw [argumentsSize_texts, List.map_cons, List.sum_cons] at hsum
  omega

/-! ## Machines of either mode -/

/-- A new space holds its layout. -/
theorem Backend.Sound.loads {b : Backend} (hs : b.Sound c) (hnew : b.NoSpace number)
    {layout : Layout} (hg : Geometry layout.numPages c.pageSize)
    (henough : b.pager? = none → layout.numPages ≤ b.freePages)
    (hread : ∀ vpn, (layout.index.locate vpn).isSome = true →
      ∃ found, layout.index.load vpn c.pageSize = .ok found) :
    (Mmu.load number layout : Op Backend MemoryError Unit).Ends b fun r b' => r = .ok () ∧
      b'.Readable number ∧ (FlatSpace.ofLayout c.pageSize layout).Agrees (b'.space number) := by
  cases b with
  | static m =>
    obtain ⟨hwf, -, hsize, -⟩ := hs
    rw [← hsize] at hg hread ⊢
    obtain ⟨hr, -, hosts⟩ := StaticMachine.prepares hwf number (henough rfl) layout rfl hread
    exact ⟨hr, trivial, hosts.agrees hg⟩
  | paged p =>
    obtain ⟨hwf, hbacked, hsize, -, hopen⟩ := hs
    rw [← hsize] at hg hread ⊢
    obtain ⟨hr, -, -, hholds⟩ := Pager.load_holds hwf hopen hbacked hnew layout hread
    exact ⟨hr, hholds.readable, hholds.agrees hg⟩

/-- The machine serves a new process, and prepares a space for it if that has room. -/
theorem Backend.Sound.prepares {b : Backend} (hs : b.Sound c) (hcount : c.physPages < 0x100000000)
    (hnew : b.NoSpace number) {pages : Nat} (henough : b.pager? = none → pages ≤ b.freePages) :
    ∃ R G Ready, (∀ numPages, Serves number c.pageSize numPages (R numPages) G Ready) ∧
      Prepares R G number pages b ∧
      (∀ numPages f b', R numPages f b' →
        b'.Readable number ∧ (Geometry numPages c.pageSize → f.Agrees (b'.space number))) ∧
      ∀ b', b'.Reliable → G b' := by
  cases b with
  | static m =>
    obtain ⟨hwf, -, hsize, -⟩ := hs
    refine ⟨_, _, _, fun numPages =>
      (StaticMachine.serves number c.pageSize numPages).lift embeds_static, ?_, ?_,
      fun _ _ _ _ => trivial⟩
    · rw [← hsize]
      exact (StaticMachine.prepares hwf number (henough rfl)).lift embeds_static
    · rintro numPages f b' ⟨m', rfl, hosts⟩
      exact ⟨trivial, hosts.agrees⟩
  | paged p =>
    obtain ⟨hwf, hbacked, hsize, htotal, hopen⟩ := hs
    refine ⟨_, _, _, fun numPages =>
      (Pager.serves number c.pageSize numPages).lift embeds_paged, ?_, ?_, ?_⟩
    · rw [← hsize]
      have hword : p.frames.InWord := (congrArg (· < 0x100000000) htotal).mpr hcount
      exact (Pager.prepares hwf hword hopen hbacked hnew pages).lift embeds_paged
    · rintro numPages f b' ⟨p', rfl, hosts⟩
      exact ⟨hosts.readable, hosts.toHolds.agrees⟩
    · rintro b' hreliable p' rfl
      exact hreliable

/-! ## Spawns -/

namespace Kernel

variable {k : Kernel}

theorem Lived.spawn (h : Lived c n k) (name : String) (image : Image) (args : List String) :
    Lived c (n + 1) (spawn name image args k).state := by
  obtain ⟨booted, deeds, hboot, rfl, rfl⟩ := h
  exact ⟨booted, .spawn name image args :: deeds, hboot, List.countP_cons_of_pos rfl, rfl⟩

theorem spawn_registers (name : String) (image : Image) (args : List String) :
    (spawn name image args).Ends k fun r k' => ∀ process, r = .ok process →
      k'.processes.get? process.number = some process := by
  simp only [Kernel.spawn, Op.ends_bind, Op.ends_get, Op.ends_set, Op.ends_on]
  refine (Op.ends_self (Loader.load k.next name image args k.config.stackPages) k.backend).imp ?_
  rintro (e | process) b -
  · rintro _ ⟨⟩
  · simp only [Op.ends_modify, Op.ends_pure]
    rintro made ⟨⟩
    exact (OrderedMap.get?_insert _ _ _ _).trans (if_pos rfl)

/-- A program without arguments is laid out by its load alone. -/
theorem spawn_bare (hs : Sound c n k) (hnew : k.backend.NoSpace k.next) (name : String)
    (h : Loader.Accepts image [] k.config.stackPages c.pageSize)
    (hfits : (image.pageCount + k.config.stackPages + 1) * c.pageSize < 0x100000000)
    (hread : image.Readable c.pageSize)
    (henough : k.pager? = none → image.pageCount + k.config.stackPages + 1 ≤ k.freePages) :
    (spawn name image []).Ends k fun r k' =>
      r = .ok (Loader.newProcess k.next name (image.layout k.config.stackPages) 0 c.pageSize) ∧
      image.LaidOut [] k.config.stackPages c.pageSize (k'.space k.next) ∧
      k'.backend.Readable k.next := by
  have hpower := hs.backend.geometry.power
  have hpos : 0 < c.pageSize := Nat.pos_of_isPowerOfTwo hpower
  have hg : Geometry (image.layout k.config.stackPages).numPages c.pageSize :=
    ⟨hpower, Nat.succ_pos _, Nat.le_of_lt hfits⟩
  have hplan := Loader.plan_accepts hpos h k.backend
  obtain ⟨f, hflat, hlaid⟩ := h.flat_ok hpower hread hfits
  obtain rfl : FlatSpace.ofLayout c.pageSize (image.layout k.config.stackPages) = f :=
    congrArg Prod.snd (Except.ok.inj hflat)
  have hindex : ∀ vpn, ((image.layout k.config.stackPages).index.locate vpn).isSome = true →
      ∃ found, (image.layout k.config.stackPages).index.load vpn c.pageSize = .ok found := by
    obtain ⟨hr, -⟩ := hplan
    have hends := Loader.plan_ends image [] k.config.stackPages c.pageSize k.backend
    exact (hends _ hr).2.2 hread
  simp only [Kernel.spawn, Op.ends_bind, Op.ends_get, Op.ends_set, Op.ends_on]
  refine (Loader.load_bare name hs.backend.size_eq hplan
    (hs.backend.loads hnew hg henough hindex)).imp ?_
  rintro r b ⟨rfl, hreadable, hagrees⟩
  exact ⟨rfl, hlaid.agrees h.contiguous hagrees, hreadable⟩

/-- A program that is accepted is laid out in the memory of its process. -/
theorem spawn_accepts (hs : Sound c n k) (hnew : k.backend.NoSpace k.next) (name : String)
    {args : List String}
    (h : Loader.Accepts image (args.map textBytes) k.config.stackPages c.pageSize)
    (hfits : (image.pageCount + k.config.stackPages + 1) * c.pageSize < 0x100000000)
    (hread : image.Readable c.pageSize)
    (henough : k.pager? = none → image.pageCount + k.config.stackPages + 1 ≤ k.freePages) :
    (spawn name image args).Ends k fun r k' => k'.backend.Reliable →
      r = .ok (Loader.newProcess k.next name (image.layout k.config.stackPages)
        (args.map textBytes).length c.pageSize) ∧
      image.LaidOut (args.map textBytes) k.config.stackPages c.pageSize (k'.space k.next) ∧
      k'.backend.Readable k.next := by
  by_cases hne : args = []
  · subst hne
    exact (spawn_bare hs hnew name h hfits hread henough).imp fun _ _ hr _ => hr
  have hcount := hs.backend.geometry.counted (h.one_lt hne)
  have hpower := hs.backend.geometry.power
  have hpos : 0 < c.pageSize := Nat.pos_of_isPowerOfTwo hpower
  have hg : Geometry (image.layout k.config.stackPages).numPages c.pageSize :=
    ⟨hpower, Nat.succ_pos _, Nat.le_of_lt hfits⟩
  obtain ⟨R, G, Ready, hserves, hprepares, hmemory, hgood⟩ :=
    hs.backend.prepares hcount hnew henough
  obtain ⟨f, hflat, hlaid⟩ := h.flat_ok hpower hread hfits
  rw [← Image.countedPages_eq (h.counted hpos)] at hprepares
  have hspawn := spawn_ends name args hserves hprepares hs.backend.size_eq hread
    (Loader.plan_accepts hpos h k.backend)
  rw [hflat] at hspawn
  refine hspawn.imp ?_
  rintro r k' ⟨-, hend⟩ hreliable
  obtain ⟨hr, process, -, halike⟩ := hend (hgood _ hreliable)
  obtain ⟨hreadable, hagrees⟩ := hmemory _ _ _ halike.machine
  exact ⟨hr, hlaid.agrees h.contiguous (hagrees hg), hreadable⟩

/-- A program that is not accepted is refused before anything else is done. Its number is used
up. -/
theorem spawn_refused (hs : Sound c n k) (name : String) {args : List String}
    (h : c.pageSize < argumentsSize (args.map textBytes) ∨ image.pageCount < 0x100000000 ∧
      ¬ Loader.Accepts image (args.map textBytes) k.config.stackPages c.pageSize) :
    (spawn name image args).Ends k fun r k' =>
      r = .error .invalidImage ∧ k' = { k with next := k.next + 1 } := by
  have hpos : 0 < c.pageSize := Nat.pos_of_isPowerOfTwo hs.backend.geometry.power
  simp only [Kernel.spawn, Loader.load, Op.ends_bind, Op.ends_get, Op.ends_set, Op.ends_on,
    backendPart, hs.backend.size_eq]
  refine (Loader.plan_refuses hpos h k.backend).imp ?_
  rintro r b ⟨rfl, rfl⟩
  exact ⟨rfl, rfl⟩

theorem spawn_refuses (hs : Sound c n k) (name : String) {args : List String}
    (h : c.pageSize < argumentsSize (args.map textBytes) ∨ image.pageCount < 0x100000000 ∧
      ¬ Loader.Accepts image (args.map textBytes) k.config.stackPages c.pageSize) :
    (spawn name image args k).Returns (.error .invalidImage) := by
  have hpos : 0 < c.pageSize := Nat.pos_of_isPowerOfTwo hs.backend.geometry.power
  have hplan := Loader.plan_refuses hpos h k.backend
  constructor
  · exact (spawn_refused hs name h).1
  · rw [Op.halted_eq_false_iff]
    simp only [Kernel.spawn, Loader.load, Op.issues_bind, Op.issues_get, Op.ends_get, Op.ends_set,
      Op.issues_on, Op.ends_on, Op.ends_bind, backendPart, hs.backend.size_eq, true_and]
    refine ⟨Op.issues_set _ _, ⟨Loader.plan_issues _ _ _ _, ?_⟩, ?_⟩
    all_goals
      refine hplan.imp ?_
      rintro r b ⟨rfl, -⟩
      trivial

/-! ## What the process finds -/

/-- A process in the state in which it was spawned: its layout, its memory, and its arguments, which
it finds and reads through their pointers. -/
structure Loaded (image : Image) (args : List String) (stackPages pageSize : Nat)
    (process : Process) (k : Kernel) : Prop where
  known : k.processes.get? process.number = some process
  numPages : process.numPages = image.pageCount + stackPages + 1
  initialSp : process.initialSp = process.argv
  argc : process.argc = args.length
  argv : process.argv.value.toNat = (process.numPages - 1) * pageSize
  memory : image.LaidOut (args.map textBytes) stackPages pageSize (k.space process.number)
  addressed : ∀ i arg, args[i]? = some arg →
    (k.space process.number).bytes
      ((k.space process.number).word (process.argv.value.toNat + 4 * i)) (arg.utf8ByteSize + 1) =
        textBytes arg ++ [0]
  read : ∀ i arg, args[i]? = some arg → 0 ∉ textBytes arg → ∀ maxLength ≥ arg.utf8ByteSize,
    maxLength + 1 < 0x8000000000000000 →
      let text : Op Kernel Empty (Option (Option String)) :=
        onProcess process.number (Hosted.readText
          ⟨((k.space process.number).word (process.argv.value.toNat + 4 * i)).toUInt32⟩ maxLength)
      (text k).halted = false ∧ text.Ends k fun r k' => k'.backend.Reliable →
        r = .ok (some (some arg)) ∧ OnlyMemory process.number (k.space process.number) k k'

/-- A process whose program is laid out finds its arguments. -/
theorem loaded_of_laidOut (hs : Sound c n k) (hh : Housed c k) (hsize : c.pageSize < 0x100000000)
    {process : Process} {args : List String}
    (hknown : k.processes.get? process.number = some process)
    (hlive : process.terminated = false) (hreadable : k.backend.Readable process.number)
    (hpages : process.numPages = image.pageCount + stackPages + 1)
    (hinitialSp : process.initialSp = process.argv) (hargc : process.argc = args.length)
    (hargv : process.argv.value.toNat = (image.pageCount + stackPages) * c.pageSize)
    (h : Loader.Accepts image (args.map textBytes) stackPages c.pageSize)
    (hlaid : image.LaidOut (args.map textBytes) stackPages c.pageSize (k.space process.number)) :
    Loaded image args stackPages c.pageSize process k := by
  obtain ⟨hg, hspans⟩ := hh.size_space hs hknown hlive
  have hargument : ∀ i arg, args[i]? = some arg →
      (k.space process.number).word (process.argv.value.toNat + 4 * i) + (textBytes arg).length +
          1 ≤ (k.space process.number).size ∧
        (k.space process.number).bytes
          ((k.space process.number).word (process.argv.value.toNat + 4 * i))
          ((textBytes arg).length + 1) = textBytes arg ++ [0] := by
    intro i arg hi
    rw [hargv]
    exact hlaid.argument h (by rw [List.getElem?_map, hi]; rfl)
  refine ⟨hknown, hpages, hinitialSp, hargc, ?_, hlaid, ?_, ?_⟩
  · rw [hargv, hpages, Nat.add_sub_cancel]
  · intro i arg hi
    rw [← length_textBytes]
    exact (hargument i arg hi).2
  · intro i arg hi hnul maxLength hlength hbuffer
    rw [← length_textBytes] at hlength
    have hne : args ≠ [] := List.ne_nil_of_mem (List.mem_of_getElem? hi)
    have hcount := hs.backend.geometry.counted (h.one_lt hne)
    have hsteady := hs.backend.steady hsize hcount process.number
    obtain ⟨hend, hfound⟩ := hargument i arg hi
    generalize (k.space process.number).word (process.argv.value.toNat + 4 * i) = pointer at *
    have hword : pointer.toUInt32.toNat = pointer :=
      toNat_word (Nat.lt_of_lt_of_le (Nat.lt_of_lt_of_le (by omega) hend) hg.fits)
    have hflat := Hosted.readText_flat hg hspans hlive ⟨pointer.toUInt32⟩ (by rwa [hword])
      (by rwa [hword]) hnul hlength hbuffer
    refine ⟨onProcess_running hs hknown (Hosted.readText_continues hsteady (fun _ hp => hp) _
      hbuffer), ?_⟩
    refine (onProcess_flat hs hh hcount hknown hlive hreadable hflat
      (fun _ _ _ hserves => Hosted.simulates_readText hserves _ maxLength)
      fun _ _ hI hJ => Hosted.readText_keeps hI hJ _ maxLength).imp ?_
    intro r k' hend hreliable
    obtain ⟨text, t, rfl, ⟨htext, rfl⟩, honly⟩ := hend hreliable
    rw [Except.ok.inj htext, decode_textBytes]
    exact ⟨rfl, honly⟩

/-- Every spawn lays out a program whose sections are contiguous and can be read, and whose
arguments and pages fit, unless the frames of static mode are used up or the swap fails. It refuses
a program whose arguments do not fit, and one that is not contiguous or does not fit if a word
counts its pages. In demand mode a process goes by the word of its number, which is surely free in
the first `2 ^ 32` spawns only. -/
theorem spawn_lays_out (h : Lived c n k) (name : String) (image : Image) (args : List String) :
    (n < 0x100000000 ∨ k.pager? = none → image.Contiguous → image.Readable c.pageSize →
      (args.map fun arg => 4 + arg.utf8ByteSize + 1).sum ≤ c.pageSize →
      (image.pageCount + k.config.stackPages + 1) * c.pageSize < 0x100000000 →
      (k.pager? = none → image.pageCount + k.config.stackPages + 1 ≤ k.freePages) →
      (spawn name image args k).halted = false ∧
        (spawn name image args).Ends k fun r k' => k'.backend.Reliable →
          ∃ process, r = .ok process ∧
            Loaded image args k.config.stackPages c.pageSize process k') ∧
    (c.pageSize < (args.map fun arg => 4 + arg.utf8ByteSize + 1).sum ∨
        image.pageCount < 0x100000000 ∧ (¬ image.Contiguous ∨
          0x100000000 < (image.pageCount + k.config.stackPages + 1) * c.pageSize) →
      (spawn name image args k).Returns (.error .invalidImage)) := by
  have hs := h.sound
  constructor
  · intro hcount hcontig hread hargs hfits henough
    have hnew := hs.vacant _ (hs.next ▸ new_succ hcount)
    have haccepts := Loader.Accepts.of_texts hargs hcontig (Nat.le_of_lt hfits)
    have hlived := h.spawn name image args
    have hsize : c.pageSize < 0x100000000 :=
      Nat.lt_of_le_of_lt (Nat.le_mul_of_pos_left _ (Nat.succ_pos _)) hfits
    refine ⟨spawn_running hs name image fun hne => ?_, ?_⟩
    · exact ⟨hsize, hs.backend.geometry.counted (haccepts.one_lt hne)⟩
    refine ((spawn_accepts hs hnew name haccepts hfits hread henough).and
      ((spawn_registers name image args).and (Op.ends_self _ k))).imp ?_
    rintro r k' ⟨hend, hregistered, -, rfl⟩ hreliable
    obtain ⟨rfl, hlaid, hreadable⟩ := hend hreliable
    have hargv : ((image.pageCount + k.config.stackPages) * c.pageSize).toUInt32.toNat =
        (image.pageCount + k.config.stackPages) * c.pageSize := by
      refine toNat_word (Nat.lt_of_le_of_lt ?_ hfits)
      exact Nat.mul_le_mul_right c.pageSize (Nat.le_succ _)
    exact ⟨_, rfl, loaded_of_laidOut hlived.sound hlived.housed hsize (hregistered _ rfl) rfl
      hreadable rfl rfl (List.length_map textBytes) hargv haccepts hlaid⟩
  · intro hbad
    rw [← argumentsSize_texts] at hbad
    refine spawn_refuses hs name (hbad.imp_right fun ⟨hcounted, hbad⟩ => ⟨hcounted, ?_⟩)
    intro haccepts
    rcases hbad with hscattered | hlarge
    · exact hscattered haccepts.contiguous
    · exact absurd hlarge (Nat.not_lt.mpr haccepts.fits)

/-- The only argument ends with the last byte of the space. One byte more is refused. -/
theorem spawn_lays_out_full :
    ((spawn "third" smallImage ["é!"] busyDemand).halted = false ∧
      ∃ process, (spawn "third" smallImage ["é!"] busyDemand).result = .ok process ∧
        Loaded smallImage ["é!"] 1 8 process (spawn "third" smallImage ["é!"] busyDemand).state) ∧
    (spawn "third" smallImage ["four"] busyStatic).Returns (.error .invalidImage) := by
  have hstack : busyDemand.config.stackPages = 1 := by decide +kernel
  have hpaged : busyDemand.pager?.isSome = true := by decide +kernel
  obtain ⟨haccepted, -⟩ :=
    spawn_lays_out lived_busyDemand "third" smallImage ["é!"]
  obtain ⟨-, hrefused⟩ :=
    spawn_lays_out lived_busyStatic "third" smallImage ["four"]
  rw [hstack] at haccepted
  refine ⟨?_, hrefused (.inl (by decide +kernel))⟩
  have henough : busyDemand.pager? = none →
      smallImage.pageCount + 1 + 1 ≤ busyDemand.freePages := by
    intro hnone
    rw [hnone] at hpaged
    cases hpaged
  obtain ⟨hrunning, hloaded⟩ := haccepted (.inl (by decide)) (by decide) (fun _ _ _ _ _ => ⟨_, rfl⟩)
    (by decide +kernel) (by decide) henough
  exact ⟨hrunning, hloaded (by decide +kernel)⟩

/-- As many frames of one byte as an address can name, in static mode. -/
def countlessStatic : Kernel :=
  { config := { Pager.countlessConfig with mode := .static }
    backend := .static (.ofSizes 0x100000000 1) }

/-- More pages than an address can name. -/
def hugeImage : Image := .scripted [⟨"huge", 0, 0x100000000, false⟩] [] ⟨0⟩

theorem plan_hugeImage {σ : Type} (s : σ) :
    (Loader.plan hugeImage [] 0 1 : Op σ MemoryError Layout).Ends s fun r _ =>
      r = .ok ⟨1, ⟨hugeImage, ImageIndex.listed 0 hugeImage.sections⟩⟩ := by
  simp only [Loader.plan, ImageIndex.ofImage, Op.ends_bind]
  refine (ImageIndex.collect_aligned 0 0 hugeImage.sections s).imp ?_
  rintro _ _ ⟨rfl, ⟨hgap, -⟩ | ⟨-, rfl⟩⟩
  · exact absurd ⟨rfl, trivial⟩ hgap
  have hcount := hugeImage.numPages_layout 0
  rw [Image.layout] at hcount
  have hnone : hugeImage.countedPages = 0 := by decide +kernel
  have hfits : Loader.layoutPages 0 0 1 = some 1 := by decide +kernel
  simp only [Op.ends_pure, hcount, hnone, hfits]
  exact rfl

/-- Any number of refused spawns uses up as many numbers, and nothing else comes of it. -/
theorem Lived.refusals (h : Lived c n k) (name : String) (image : Image) {args : List String}
    (hlarge : c.pageSize < argumentsSize (args.map textBytes)) (m : Nat) :
    Lived c (n + m) { k with next := k.next + m } := by
  induction m with
  | zero => exact h
  | succ m ih =>
    have hspawned := ih.spawn name image args
    rwa [(spawn_refused ih.sound name (.inl hlarge)).2] at hspawned

/-- After its two spawns `busyDemand` has refused as many as it takes for the word of the first
number to come again. -/
def exhaustedDemand : Kernel := { busyDemand with next := 0x100000001 }

theorem lived_exhaustedDemand : Lived demandConfig 0x100000000 exhaustedDemand := by
  have hnext : busyDemand.next = 3 := by decide +kernel
  have hlarge : demandConfig.pageSize < argumentsSize (["four"].map textBytes) := by decide +kernel
  have hrefused := lived_busyDemand.refusals "third" smallImage hlarge 0xfffffffe
  rwa [hnext] at hrefused

/-- Five numbers that do not fit their words. No frame is found for a program of one page where
there are as many as an address can name; an argument is not read if it may be as long as a word can
say, nor if it may be half as long; a section of too many pages is planned as one of none; and the
number of a live process comes again after too many spawns. -/
theorem sizes_overflow :
    (Booted countlessStatic.config countlessStatic ∧
      (spawn "empty" emptyImage [] countlessStatic).result = .error .outOfMemory) ∧
    ((onProcess 3 (Hosted.readText ⟨28⟩ 0xffffffffffffffff)
        (spawn "third" smallImage ["é!"] busyDemand).state).result = .ok (some none) ∧
      (onProcess 3 (Hosted.readText ⟨28⟩ 0x7fffffffffffffff)
        (spawn "third" smallImage ["é!"] busyDemand).state).halted = true ∧
      (onProcess 3 (Hosted.readText ⟨28⟩ 3)
        (spawn "third" smallImage ["é!"] busyDemand).state).result = .ok (some (some "é!"))) ∧
    (0x100000000 < (hugeImage.pageCount + 0 + 1) * 1 ∧
      ((Loader.plan hugeImage [] 0 1 : Op Unit MemoryError Layout) ()).result =
        .ok ⟨1, ⟨hugeImage, ImageIndex.listed 0 hugeImage.sections⟩⟩) ∧
    Lived demandConfig 0x100000000 exhaustedDemand ∧
      (spawn "third" smallImage ["é!"] exhaustedDemand).result = .error .alreadyMapped := by
  have hthird : (spawn "third" smallImage ["é!"] busyDemand).state.processes.get? 3 =
      some { firstProcess with number := 3, name := "third" } := by decide +kernel
  refine ⟨⟨⟨fun _ => .writable, 0, rfl⟩, by decide +kernel⟩, ⟨by decide +kernel, ?_,
    by decide +kernel⟩, ⟨by decide +kernel, plan_hugeImage ()⟩, lived_exhaustedDemand,
    by decide +kernel⟩
  exact onProcess_halts hthird (Hosted.readText_halts _ _ (by decide))

end Kernel

end VirtualMemory
