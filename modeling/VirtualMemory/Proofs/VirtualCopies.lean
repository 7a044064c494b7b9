import VirtualMemory.Proofs.Continuing
import VirtualMemory.Proofs.FailedSpawn
import VirtualMemory.Proofs.LogicalMemory

/-!
# Copies to and from a process

A copy goes as far as it can. A read ends where the space of the process does, a write also before
the first page that is read-only. Up to there everything is copied, however the range lies across
the pages and whatever pages had to be moved for it, and nothing else is changed.
-/

namespace VirtualMemory

/-! ## Copies that stop the program -/

namespace Hosted

variable {σ : Type} [Mmu σ]

/-- If no word holds the page size, looking for the first piece divides by zero. -/
theorem readMemory_halts {s : Hosted σ} (hlive : s.process.terminated = false)
    (hzero : s.process.pageSize.toUInt32 = 0) (vaddr : VirtAddr) {length : Nat}
    (hpos : 0 < length) : (readMemory vaddr length s).halted = true := by
  obtain ⟨rest, rfl⟩ := Nat.exists_eq_succ_of_ne_zero (Nat.ne_of_gt hpos)
  have hadd : (vaddr.add? 0).isSome = true := by
    have hlt := vaddr.value.toNat_lt
    simp [VirtAddr.add?, addressSpaceSize, hlt]
  by_contra hrunning
  rw [Bool.not_eq_true, Op.halted_eq_false_iff] at hrunning
  simp only [readMemory, copyOut, readPieces, checkPiece, Op.issues_bind, Op.issues_get,
    Op.ends_bind, Op.ends_get, hlive, Op.issues_on, hadd, if_true, Op.issues_checkDivisor, hzero,
    Nat.succ_ne_zero, if_false, Bool.false_eq_true] at hrunning
  obtain ⟨⟨-, hdivides, -⟩, -⟩ := hrunning
  cases hdivides trivial

/-- There is no buffer for a text of a length that a signed word does not hold. -/
theorem readText_halts (s : Hosted σ) (vaddr : VirtAddr) {maxLength : Nat}
    (hlarge : 0x8000000000000000 ≤ (maxLength + 1).toUInt64.toNat) :
    (readText vaddr maxLength s).halted = true := by
  by_contra hrunning
  rw [Bool.not_eq_true, Op.halted_eq_false_iff] at hrunning
  simp only [readText, Op.issues_bind, Op.issues_checkBuffer] at hrunning
  cases hrunning.1 (Nat.not_lt.mpr hlarge)

end Hosted

namespace Kernel

variable {c : Config} {n number : Nat} {k : Kernel} {process : Process}

/-! ## Copies of a live process -/

/-- What stops a process stops the kernel. -/
theorem onProcess_halts {ε α : Type} (hp : k.processes.get? number = some process)
    {x : Op (Hosted Backend) ε α} (hx : (x ⟨process, k.backend⟩).halted = true) :
    (onProcess number x k).halted = true := by
  simp only [onProcess, hp]
  exact hx

/-- Copies of a process that has not ended come back, and move the longest prefix that there is, in
either mode, unless its image cannot be read or the swap fails. A word has to hold the size of a
page and the number of the frames. -/
theorem copies_exact (h : Lived c n k) (hsize : c.pageSize < 0x100000000)
    (hcount : c.physPages < 0x100000000)
    (hp : k.processes.get? number = some process) (hlive : process.terminated = false)
    (hread : k.backend.Readable number) (vaddr : VirtAddr) :
    (k.space number).size = process.numPages * process.pageSize ∧
      (∀ length, (onProcess number (Hosted.readMemory vaddr length) k).halted = false ∧
        (onProcess number (Hosted.readMemory vaddr length)).Ends k fun r k' =>
          k'.backend.Reliable →
            r = .ok (some ((k.space number).bytes vaddr.value.toNat
              (min length ((k.space number).size - vaddr.value.toNat)))) ∧
            OnlyMemory number (k.space number) k k') ∧
      ∀ data, (onProcess number (Hosted.writeMemory vaddr data) k).halted = false ∧
        (onProcess number (Hosted.writeMemory vaddr data)).Ends k fun r k' =>
          k'.backend.Reliable → ∃ moved, r = .ok (some moved) ∧
            LongestPrefix (fun i => (k.space number).Writable (vaddr.value.toNat + i)) data.length
              moved ∧
            OnlyMemory number
              ((k.space number).overwritten vaddr.value.toNat (data.take moved)) k k' := by
  have hs := h.sound
  have hh := h.housed
  have hsteady := hs.backend.steady hsize hcount number
  obtain ⟨hg, hspans⟩ := hh.size_space hs hp hlive
  refine ⟨?_, ?_, ?_⟩
  · rw [FlatSpace.size, hspans.1, hspans.2]
  · intro length
    refine ⟨onProcess_running hs hp (Hosted.readMemory_continues hsteady (fun _ hp => hp) vaddr
      length), ?_⟩
    have hflat := Hosted.readMemory_flat (t := ⟨process, k.space number⟩) hg hspans hlive vaddr
      length
    refine (onProcess_flat hs hh hcount hp hlive hread hflat
      (fun _ _ _ hserves => Hosted.simulates_readMemory hserves vaddr length)
      fun _ _ hI hJ => Hosted.readMemory_keeps hI hJ vaddr length).imp ?_
    intro r k' hend hreliable
    obtain ⟨data, t, rfl, ⟨hdata, rfl⟩, honly⟩ := hend hreliable
    rw [Except.ok.inj hdata]
    exact ⟨rfl, honly⟩
  · intro data
    refine ⟨onProcess_running hs hp (Hosted.writeMemory_continues hsteady (fun _ hp => hp) vaddr
      data), ?_⟩
    have hflat := Hosted.writeMemory_flat (t := ⟨process, k.space number⟩) hg hspans hlive vaddr
      data
    refine (onProcess_flat hs hh hcount hp hlive hread hflat
      (fun _ _ _ hserves => Hosted.simulates_writeMemory hserves vaddr data)
      fun _ _ hI hJ => Hosted.writeMemory_keeps hI hJ vaddr data).imp ?_
    intro r k' hend hreliable
    obtain ⟨moved, t, rfl, ⟨_, ⟨⟩, hprefix, rfl⟩, honly⟩ := hend hreliable
    exact ⟨moved, rfl, hprefix, honly⟩

/-! ## Two small kernels -/

/-- A page of data, and a page of text that is read-only. -/
def mixedImage : Image := .scripted [⟨"data", 0, 1, false⟩, ⟨"text", 1, 1, true⟩] [] ⟨0⟩

/-- Of the two processes the second was spawned last. -/
def twoSpawns : List Deed := [.spawn "second" smallImage ["b"], .spawn "first" mixedImage ["a"]]

/-- The pages of the first process left the only frame when the second was spawned. -/
def busyDemand : Kernel :=
  after { config := demandConfig, backend := .paged smallPager }
    (twoSpawns ++ [.disturb (.draw (.ofWords [])) trivial])

def busyStatic : Kernel :=
  after { config := roomyConfig, backend := .static (.ofSizes 8 8) } twoSpawns

theorem lived_busyDemand : Lived demandConfig 2 busyDemand :=
  ⟨_, _, ⟨fun _ => .writable, 0, rfl⟩, rfl, rfl⟩

theorem lived_busyStatic : Lived roomyConfig 2 busyStatic :=
  ⟨_, _, ⟨fun _ => .writable, 0, rfl⟩, rfl, rfl⟩

def firstProcess : Process :=
  { number := 1, name := "first", pageSize := 8, numPages := 4, initialSp := ⟨24⟩,
    entryPoint := ⟨0⟩, argc := 1, argv := ⟨24⟩ }

def readOver : Op Kernel Empty (Option Bytes) := onProcess 1 (Hosted.readMemory ⟨27⟩ 9)

def writeOver : Op Kernel Empty (Option Nat) :=
  onProcess 1 (Hosted.writeMemory ⟨5⟩ [1, 2, 3, 4, 5, 6])

theorem copies_exact_small :
    ((readOver busyDemand).Returns (.ok (some [0, 97, 0, 0, 0])) ∧
      OnlyMemory 1 (busyDemand.space 1) busyDemand (readOver busyDemand).state) ∧
    (writeOver busyStatic).Returns (.ok (some 3)) ∧
      OnlyMemory 1 ((busyStatic.space 1).overwritten 5 [1, 2, 3]) busyStatic
        (writeOver busyStatic).state := by
  have hread : (readOver busyDemand).result = .ok (some [0, 97, 0, 0, 0]) := by decide +kernel
  have hwrite : (writeOver busyStatic).result = .ok (some 3) := by decide +kernel
  have hdemand : busyDemand.processes.get? 1 = some firstProcess := by decide +kernel
  have hstatic : busyStatic.processes.get? 1 = some firstProcess := by decide +kernel
  obtain ⟨-, hreads, -⟩ := copies_exact lived_busyDemand (by decide) (by decide) hdemand rfl
    (by decide +kernel) ⟨27⟩
  obtain ⟨-, -, hwrites⟩ := copies_exact lived_busyStatic (by decide) (by decide) hstatic rfl
    (by decide +kernel) ⟨5⟩
  obtain ⟨hrunning, hreads⟩ := hreads 9
  obtain ⟨hrunning', hwrites⟩ := hwrites [1, 2, 3, 4, 5, 6]
  obtain ⟨moved, hmoved, -, honly⟩ := hwrites (by decide +kernel)
  obtain rfl : 3 = moved := Option.some.inj (Except.ok.inj (hwrite.symm.trans hmoved))
  exact ⟨⟨⟨hread, hrunning⟩, (hreads (by decide +kernel)).2⟩, ⟨hwrite, hrunning'⟩, honly⟩

/-- One frame, as large as the address space, in demand mode. -/
def vastDemand : Kernel := { config := Pager.vastConfig, backend := .paged Pager.vast }

def loneSpawn : List Deed := [.spawn "empty" emptyImage []]

/-- The process of `loneSpawn`: its arguments, of which there are none, are its only page. -/
def loneProcess (pageSize : Nat) : Process :=
  { number := 1, name := "empty", pageSize := pageSize, numPages := 1, initialSp := ⟨0⟩,
    entryPoint := ⟨0⟩, argc := 0, argv := ⟨0⟩ }

/-- A live process reads nothing of its only page if the frames are as many as an address can name.
If that page is as large as the address space, the read divides by zero. -/
theorem reads_nothing :
    (Lived Pager.countlessConfig 1 (countlessDemand.after loneSpawn) ∧
      (countlessDemand.after loneSpawn).processes.get? 1 = some (loneProcess 1) ∧
      (onProcess 1 (Hosted.readMemory ⟨0⟩ 1) (countlessDemand.after loneSpawn)).result =
        .ok (some [])) ∧
    Lived Pager.vastConfig 1 (vastDemand.after loneSpawn) ∧
      (vastDemand.after loneSpawn).processes.get? 1 = some (loneProcess 0x100000000) ∧
      (onProcess 1 (Hosted.readMemory ⟨0⟩ 1) (vastDemand.after loneSpawn)).halted = true := by
  have hcountless : Lived Pager.countlessConfig 1 (countlessDemand.after loneSpawn) :=
    ⟨_, _, ⟨fun _ => .writable, 0, rfl⟩, rfl, rfl⟩
  have hvast : Lived Pager.vastConfig 1 (vastDemand.after loneSpawn) :=
    ⟨_, _, ⟨fun _ => .writable, 0, rfl⟩, rfl, rfl⟩
  have hlone : (vastDemand.after loneSpawn).processes.get? 1 = some (loneProcess 0x100000000) := by
    decide +kernel
  exact ⟨⟨hcountless, by decide +kernel, by decide +kernel⟩, hvast, hlone,
    onProcess_halts hlone (Hosted.readMemory_halts rfl rfl ⟨0⟩ Nat.one_pos)⟩

end Kernel

end VirtualMemory
