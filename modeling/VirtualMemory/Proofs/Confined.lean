import VirtualMemory.Proofs.Loading
import VirtualMemory.Proofs.Maintained

/-!
# What a process can do to its machine

Whatever a process is asked to do, it asks its machine for few things, each under its own number: to
translate, to read, to write inside a page, to handle a fault, to save and to restore its context,
and to take its space down. What all of these keep is kept by the process, in every loop of its
copies and also while its arguments are written.
-/

namespace VirtualMemory

variable {σ ε α : Type} [Mmu σ] {I Gone : σ → Prop} {number : Nat} {pageSize : Nat}

/-- What process `number` may ask its machine for while it lives keeps `I`. -/
structure InUse (number : Nat) (pageSize : Nat) (I : σ → Prop) : Prop where
  translate : ∀ vaddr access,
    (Mmu.translate number vaddr access : Op σ Exception PhysAddr).Maintains I fun _ => True
  read : ∀ vaddr length,
    (Mmu.read number vaddr length : Op σ Exception Bytes).Maintains I fun _ => True
  write : ∀ vaddr data, vaddr.offset pageSize + data.length ≤ pageSize →
    (Mmu.write number vaddr data : Op σ Exception Nat).Maintains I fun _ => True
  handleFault : ∀ vaddr e,
    (Mmu.handleFault number vaddr e : Op σ Empty FaultResult).Maintains I fun _ => True
  saveContext : (Mmu.saveContext number : Op σ Empty Unit).Maintains I fun _ => True
  restoreContext : (Mmu.restoreContext number : Op σ Empty Unit).Maintains I fun _ => True

/-- All that process `number` may ask its machine for keeps `I`. -/
structure Confined (number : Nat) (pageSize : Nat) (I : σ → Prop) : Prop
    extends InUse number pageSize I where
  teardown : (Mmu.teardown number : Op σ Empty Unit).Maintains I fun _ => True

theorem Confined.congr {J : σ → Prop} (h : Confined number pageSize I) (heq : ∀ m, I m ↔ J m) :
    Confined number pageSize J := by
  rwa [← funext fun m => propext (heq m)]

theorem Confined.never (number : Nat) (pageSize : Nat) :
    Confined number pageSize (fun _ : σ => False) := by
  refine ⟨⟨?_, ?_, ?_, ?_, ?_, ?_⟩, ?_⟩
  all_goals
    intros
    intro _ h
    exact h.elim

theorem InUse.withFaults (h : InUse number pageSize I) {access : Op σ Exception α}
    {exhausted : Op σ FaultResult α} (haccess : access.Maintains I fun _ => True)
    (hexhausted : exhausted.Maintains I fun _ => True) (vaddr : VirtAddr) (rounds : Nat) :
    (withFaults number vaddr access exhausted rounds).Maintains I fun _ => True := by
  induction rounds with
  | zero => exact hexhausted
  | succ rounds ih =>
    rw [VirtualMemory.withFaults]
    apply Op.Maintains.bind haccess.attempt
    rintro (e | a) -
    · apply Op.Maintains.bind (h.handleFault vaddr e).liftM
      intro outcome _
      split
      · exact ih
      · exact .throw _
    · exact .pure trivial

namespace Hosted

/-! ## Copies -/

section

variable {p : Process}

theorem withPage_keeps (h : InUse p.number pageSize I) {access : Op σ Exception α}
    (haccess : access.Maintains I fun _ => True) (vaddr : VirtAddr) :
    (withPage p vaddr access).Maintains I fun _ => True :=
  h.withFaults haccess (.bind (.notify _) fun _ _ => .throw _) vaddr maxFaultRounds

omit [Mmu σ] in
theorem checkPiece_keeps (p : Process) (vaddr : VirtAddr) (done : Nat) :
    (checkPiece p vaddr done : Op σ ε Unit).Maintains I fun _ => True := by
  unfold checkPiece
  split
  · exact .checkDivisor _
  · exact .pure trivial

theorem readPieces_keeps (h : InUse p.number p.pageSize I) (vaddr : VirtAddr)
    (done missing pieces : Nat) :
    (readPieces p vaddr done missing pieces : Op σ Empty (Copied Bytes)).Maintains I
      fun _ => True := by
  induction pieces generalizing done missing with
  | zero => exact .pure trivial
  | succ pieces ih =>
    rw [readPieces]
    split
    · exact .pure trivial
    · refine .bind (checkPiece_keeps p vaddr done) fun _ _ => ?_
      cases nextPiece p vaddr done with
      | none => exact .pure trivial
      | some piece =>
        obtain ⟨address, room⟩ := piece
        have hpiece := h.read address (min room missing)
        apply Op.Maintains.bind (withPage_keeps h hpiece address).attempt
        rintro (fault | data) -
        · exact .pure trivial
        · dsimp only
          split
          · exact .pure trivial
          · exact .bind (ih _ _) fun rest _ => .pure trivial

/-- Each piece of a copy is inside a page. -/
theorem writePieces_keeps (h : InUse p.number p.pageSize I) (vaddr : VirtAddr) (done : Nat)
    (rest : Bytes) (pieces : Nat) :
    (writePieces p vaddr done rest pieces : Op σ Empty (Copied Nat)).Maintains I fun _ => True := by
  induction pieces generalizing done rest with
  | zero => exact .pure trivial
  | succ pieces ih =>
    rw [writePieces]
    split
    · exact .pure trivial
    · refine .bind (checkPiece_keeps p vaddr done) fun _ _ => ?_
      cases hn : nextPiece p vaddr done with
      | none => exact .pure trivial
      | some piece =>
        obtain ⟨address, room⟩ := piece
        obtain ⟨-, hroom⟩ := nextPiece_some ⟨rfl, rfl⟩ hn
        have hlength : (rest.take room).length ≤ room := List.length_take_le _ _
        have hpiece := h.write address (rest.take room) (by omega)
        apply Op.Maintains.bind (withPage_keeps h hpiece address).attempt
        rintro (fault | n) -
        · exact .pure trivial
        · dsimp only
          split
          · exact ih _ _
          · exact .pure trivial

end

/-! ## Processes on their machines -/

variable {J : Process → Prop}

section

omit [Mmu σ]

structure Runs (J : Process → Prop) (I : σ → Prop) (s : Hosted σ) : Prop where
  process : J s.process
  machine : I s.machine

/-- The process has this number and this size of pages. -/
def Numbered (number : Nat) (pageSize : Nat) (p : Process) : Prop :=
  p.number = number ∧ p.pageSize = pageSize

theorem Runs.on {x : Op σ ε α} {A : α → Prop} (hx : x.Maintains I A) :
    (Op.on machinePart x).Maintains (Runs J I) A :=
  hx.on (fun _ h => h.machine) fun _ _ h hI => ⟨h.process, hI⟩

end

section

variable (h : InUse number pageSize I) (hJ : ∀ p, J p → Numbered number pageSize p)

include h hJ

theorem copyOut_keeps (vaddr : VirtAddr) (length : Nat) :
    (copyOut vaddr length : Op (Hosted σ) Empty (Copied Bytes)).Maintains (Runs J I)
      fun _ => True := by
  apply Op.Maintains.get
  intro s hs
  obtain ⟨rfl, rfl⟩ := hJ _ hs.process
  dsimp only
  split
  · exact .pure trivial
  · exact Runs.on (readPieces_keeps h vaddr 0 length length)

theorem copyIn_keeps (vaddr : VirtAddr) (data : Bytes) :
    (copyIn vaddr data : Op (Hosted σ) Empty (Copied Nat)).Maintains (Runs J I) fun _ => True := by
  apply Op.Maintains.get
  intro s hs
  obtain ⟨rfl, rfl⟩ := hJ _ hs.process
  dsimp only
  split
  · exact .pure trivial
  · exact Runs.on (writePieces_keeps h vaddr 0 data data.length)

theorem readMemory_keeps (vaddr : VirtAddr) (length : Nat) :
    (readMemory vaddr length : Op (Hosted σ) Empty Bytes).Maintains (Runs J I) fun _ => True :=
  .bind (copyOut_keeps h hJ vaddr length) fun _ _ => .pure trivial

theorem writeMemory_keeps (vaddr : VirtAddr) (data : Bytes) :
    (writeMemory vaddr data : Op (Hosted σ) Empty Nat).Maintains (Runs J I) fun _ => True :=
  .bind (copyIn_keeps h hJ vaddr data) fun _ _ => .pure trivial

theorem readText_keeps (vaddr : VirtAddr) (maxLength : Nat) :
    (readText vaddr maxLength : Op (Hosted σ) Empty (Option String)).Maintains (Runs J I)
      fun _ => True := by
  refine .bind (.checkBuffer _) fun _ _ => .bind (readMemory_keeps h hJ vaddr _) ?_
  intro data _
  split
  · exact .pure trivial
  · exact .pure trivial

theorem translate_keeps (vaddr : VirtAddr) (access : Access) :
    (translate vaddr access : Op (Hosted σ) Exception PhysAddr).Maintains (Runs J I)
      fun _ => True := by
  apply Op.Maintains.get
  intro s hs
  obtain ⟨rfl, rfl⟩ := hJ _ hs.process
  dsimp only
  split
  · exact .bind (A := fun _ => False) (.throw _) fun _ hfalse => hfalse.elim
  · refine .bind (.checkDivisor _) fun _ _ => ?_
    split
    · exact .bind (A := fun _ => False) (.throw _) fun _ hfalse => hfalse.elim
    · exact Runs.on (h.translate vaddr access)

theorem writeAll_keeps (vaddr : VirtAddr) (data : Bytes) :
    (writeAll vaddr data : Op (Hosted σ) MemoryError Unit).Maintains (Runs J I)
      fun _ => True := by
  apply Op.Maintains.bind (copyIn_keeps h hJ vaddr data).liftM
  intro copied _
  split
  · exact .throw _
  · exact .pure trivial

theorem writeArguments_keeps (pointer text : UInt32) (args : List Bytes) :
    (writeArguments pointer text args : Op (Hosted σ) MemoryError Unit).Maintains (Runs J I)
      fun _ => True := by
  induction args generalizing pointer text with
  | nil => exact .pure trivial
  | cons arg rest ih =>
    rw [writeArguments]
    apply Op.Maintains.bind (writeAll_keeps h hJ _ _)
    intro _ _
    apply Op.Maintains.bind (writeAll_keeps h hJ _ _)
    intro _ _
    apply Op.Maintains.bind (writeAll_keeps h hJ _ _)
    intro _ _
    exact ih _ _

theorem switchOut_keeps (hready : ∀ p, J p → J { p with state := .ready }) :
    (switchOut : Op (Hosted σ) Empty Unit).Maintains (Runs J I) fun _ => True := by
  apply Op.Maintains.get
  intro s hs
  obtain ⟨rfl, rfl⟩ := hJ _ hs.process
  dsimp only
  split
  · apply Op.Maintains.bind (Runs.on h.saveContext)
    intro _ _
    exact .modify fun s hs => ⟨hready _ hs.process, hs.machine⟩
  · exact .pure trivial

theorem switchIn_keeps (hrunning : ∀ p, J p → J { p with state := .running }) :
    (switchIn : Op (Hosted σ) Empty Unit).Maintains (Runs J I) fun _ => True := by
  apply Op.Maintains.get
  intro s hs
  obtain ⟨rfl, rfl⟩ := hJ _ hs.process
  dsimp only
  split
  · apply Op.Maintains.bind (Runs.on h.restoreContext)
    intro _ _
    exact .modify fun s hs => ⟨hrunning _ hs.process, hs.machine⟩
  · exact .pure trivial

end

/-! ## The end of a process -/

section

variable (h : Confined number pageSize I)

include h

theorem exit_keeps (status : Int) :
    (exit status : Op (Hosted σ) Empty Unit).Maintains (Runs (Numbered number pageSize) I)
      fun _ => True := by
  apply Op.Maintains.get
  intro s hs
  obtain ⟨rfl, rfl⟩ := hs.process
  dsimp only
  split
  · apply Op.Maintains.bind (Runs.on h.teardown)
    intro _ _
    refine .bind (.modify ?_) fun _ _ => .notify _
    exact fun _ hs => ⟨hs.process, hs.machine⟩
  · exact .pure trivial

theorem handleException_keeps (e : Exception) (vaddr : VirtAddr) :
    (handleException e vaddr : Op (Hosted σ) Empty FaultResult).Maintains
      (Runs (Numbered number pageSize) I) fun _ => True := by
  apply Op.Maintains.get
  intro s hs
  obtain ⟨rfl, rfl⟩ := hs.process
  have hend : ∀ outcome : FaultResult, Op.Maintains
      (Runs (Numbered s.process.number s.process.pageSize) I) (fun _ => True) (do
        if outcome ≠ .success then
          Op.notify (.exceptionUnhandled s.process.pid vaddr)
          exit (-1)
        return outcome : Op (Hosted σ) Empty FaultResult) := by
    intro outcome
    dsimp only
    split
    · apply Op.Maintains.bind (.notify _)
      intro _ _
      apply Op.Maintains.bind (exit_keeps h (-1))
      intro _ _
      exact .pure trivial
    · exact .pure trivial
  refine .bind (.checkDivisor _) fun _ _ => ?_
  dsimp only
  split
  · exact .bind (Runs.on (h.handleFault vaddr e)) fun outcome _ => hend outcome
  · exact hend .invalidAddress

end

end Hosted

/-! ## Loading -/

namespace Loader

variable (h : Confined number pageSize I)
  (hgone : ∀ m, I m → (Mmu.teardown number : Op σ Empty Unit).Ends m fun _ m' => Gone m')

include h hgone

/-- If the arguments cannot be written, the space is taken down again. -/
theorem enter_keeps {process : Process} (hp : Hosted.Numbered number pageSize process)
    (halive : process.terminated = false) (args : List Bytes) {m : σ} (hm : I m) :
    (enter process args).Ends m fun r m' => I m' ∧
      match r with
      | .ok entered => entered = process
      | .error _ => Gone m' := by
  have hwrite := Hosted.writeArguments_keeps h.toInUse (J := (· = process))
    (by rintro _ rfl; exact hp) process.initialSp.value
    (process.initialSp.value + (args.length * argumentPointerSize).toUInt32) args
    ⟨process, m⟩ ⟨rfl, hm⟩
  refine enter_of_written (hwrite.imp ?_)
  rintro (e | u) s ⟨hs, -⟩
  · obtain ⟨hsame, hI⟩ := hs
    have hdown := (h.teardown s.machine hI).and (hgone s.machine hI)
    simp only [Hosted.exit, Op.ends_bind, Op.ends_get, hsame, halive, Bool.not_false, if_true,
      Op.ends_on, hp.1]
    refine hdown.imp ?_
    rintro (e' | u) m' ⟨⟨hI', -⟩, hg⟩
    · exact e'.elim
    · exact ⟨hI', hg⟩
  · exact ⟨hs.machine, rfl⟩

/-- A process that cannot be loaded has no space, whatever went wrong. -/
theorem load_keeps (name : String) (image : Image) (args : List String) (stackPages : Nat) {m : σ}
    (hload : ∀ layout, (Mmu.load number layout : Op σ MemoryError Unit).Ends m fun r m' => I m' ∧
      match r with
      | .ok _ => True
      | .error _ => Gone m')
    (hsize : Mmu.pageSize m = pageSize) (hm : I m) (hnew : Gone m) :
    (load number name image args stackPages).Ends m fun r m' => I m' ∧
      match r with
      | .ok process => Hosted.Numbered number pageSize process
      | .error _ => Gone m' := by
  obtain ⟨planned, hplan⟩ : (plan image (args.map textBytes) stackPages pageSize :
    Op σ MemoryError Layout).Stateless := stateless_plan _ _ _ _
  simp only [load, Op.ends_bind, Op.ends_get, hsize]
  refine (hplan m).imp ?_
  rintro r m₁ ⟨rfl, rfl⟩
  cases r with
  | error e => exact ⟨hm, hnew⟩
  | ok layout =>
    refine (hload layout).imp ?_
    rintro (e | u) m₂ ⟨hm₂, hg⟩
    · exact ⟨hm₂, hg⟩
    · refine (enter_keeps h hgone ⟨rfl, rfl⟩ rfl _ hm₂).imp ?_
      rintro (e | process) m₃ ⟨hm₃, hr⟩
      · exact ⟨hm₃, hr⟩
      · obtain rfl := hr
        exact ⟨hm₃, rfl, rfl⟩

end Loader

end VirtualMemory
