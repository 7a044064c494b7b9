import VirtualMemory.Proofs.LiveProcesses
import VirtualMemory.Proofs.Pager.Reports
import VirtualMemory.Proofs.StaticPartition

/-!
# Calls that do not stop the program

The program stops where it divides by a page size whose low 32 bits are zero, and where it asks for
too large a buffer. `x.Continues I`: from a state where `I` holds, `x` does not stop and `I` holds
after it. Where a word holds the page size and the number of the frames, the copies of a process
continue in either mode, and so does a spawn.
-/

namespace VirtualMemory

variable {σ τ ε ε' α β : Type} {number : Nat} {pageSize : Nat}

namespace Op

variable {I : σ → Prop} {A : α → Prop}

/-- `x` keeps `I`, and does not stop the program. -/
structure Continues (I : σ → Prop) (x : Op σ ε α) : Prop where
  keeps : x.Maintains I fun _ => True
  issues : ∀ s, I s → x.Issues s (·.isHalt = false)

theorem Continues.running {x : Op σ ε α} (h : x.Continues I) {s : σ} (hs : I s) :
    (x s).halted = false :=
  halted_eq_false_iff.mpr (h.issues s hs)

theorem Continues.pure (a : α) : (pure a : Op σ ε α).Continues I :=
  ⟨.pure trivial, fun _ _ => issues_pure _ _⟩

theorem Continues.throw (e : ε) : (throw e : Op σ ε α).Continues I :=
  ⟨.throw e, fun _ _ => issues_throw _ _⟩

theorem Continues.notify {n : Notice} (hn : n.isHalt = false) :
    (notify n : Op σ ε Unit).Continues I :=
  ⟨.notify n, fun s _ => (issues_notify n s).mpr hn⟩

theorem Continues.checkDivisor (hdiv : pageSize.toUInt32 ≠ 0) :
    (checkDivisor pageSize : Op σ ε Unit).Continues I :=
  ⟨.checkDivisor pageSize, fun s _ =>
    (issues_checkDivisor pageSize s).mpr fun hzero => absurd hzero hdiv⟩

theorem Continues.checkBuffer {size : Nat} (hsize : size < 0x8000000000000000) :
    (checkBuffer size : Op σ ε Unit).Continues I :=
  ⟨.checkBuffer size, fun s _ => (issues_checkBuffer size s).mpr fun hlarge => absurd hsize hlarge⟩

theorem Continues.modify {f : σ → σ} (h : ∀ s, I s → I (f s)) :
    (modify f : Op σ ε PUnit).Continues I :=
  ⟨.modify h, fun s _ => issues_modify f s⟩

/-- The invariant that the first step keeps is what lets the second go on. -/
theorem Continues.bind {x : Op σ ε α} {f : α → Op σ ε β} (hx : x.Continues I)
    (hf : ∀ a, (f a).Continues I) : (x >>= f).Continues I where
  keeps := hx.keeps.bind fun a _ => (hf a).keeps
  issues := by
    intro s hs
    rw [issues_bind]
    refine ⟨hx.issues s hs, (hx.keeps s hs).imp ?_⟩
    rintro (e | a) s' ⟨hs', -⟩
    · trivial
    · exact (hf a).issues s' hs'

theorem Continues.get {f : σ → Op σ ε α} (h : ∀ s, I s → (f s).Continues I) :
    (MonadState.get >>= f).Continues I where
  keeps := .get fun s hs => (h s hs).keeps
  issues s hs := (h s hs).issues s hs

theorem Continues.attempt {x : Op σ ε α} (h : x.Continues I) :
    (attempt x : Op σ ε' (Except ε α)).Continues I where
  keeps s hs := ⟨(h.keeps s hs).1, fun _ _ => trivial⟩
  issues s hs := (issues_attempt x s).mpr (h.issues s hs)

theorem Continues.liftM {x : Op σ Empty α} (h : x.Continues I) :
    (liftM x : Op σ ε α).Continues I where
  keeps := h.keeps.liftM
  issues s hs := (issues_liftM x s).mpr (h.issues s hs)

/-- A step on a part goes on where the invariant of the whole gives that of the part, and is put
back by it. -/
theorem Continues.on {J : τ → Prop} {part : Part σ τ} {x : Op τ ε α} (h : x.Continues J)
    (hget : ∀ s, I s → J (part.get s)) (hput : ∀ s t, I s → J t → I (part.put t s)) :
    (on part x).Continues I where
  keeps := h.keeps.on hget hput
  issues s hs := (issues_on part x s).mpr (h.issues _ (hget s hs))

end Op

/-! ## Copies -/

section

variable [Mmu σ] {I : σ → Prop} {J : Process → Prop}

structure Steady (number : Nat) (pageSize : Nat) (I : σ → Prop) : Prop where
  divisor : pageSize.toUInt32 ≠ 0
  read : ∀ vaddr length, (Mmu.read number vaddr length : Op σ Exception Bytes).Continues I
  write : ∀ vaddr data, vaddr.offset pageSize + data.length ≤ pageSize →
    (Mmu.write number vaddr data : Op σ Exception Nat).Continues I
  handleFault : ∀ vaddr e, (Mmu.handleFault number vaddr e : Op σ Empty FaultResult).Continues I

namespace Hosted

section

variable {p : Process} (h : Steady p.number p.pageSize I)

include h

/-- An access that faults is retried after the exception was handled, and both go on. -/
theorem withPage_continues {access : Op σ Exception α} (haccess : access.Continues I)
    (vaddr : VirtAddr) : (withPage p vaddr access).Continues I := by
  have hrounds : ∀ rounds,
      (withFaults p.number vaddr access (faultsExhausted p vaddr) rounds).Continues I := by
    intro rounds
    induction rounds with
    | zero => exact .bind (.notify rfl) fun _ => .throw _
    | succ rounds ih =>
      rw [withFaults]
      refine haccess.attempt.bind ?_
      rintro (e | a)
      · refine (h.handleFault vaddr e).liftM.bind fun outcome => ?_
        split
        · exact ih
        · exact .throw _
      · exact .pure _
  exact hrounds maxFaultRounds

/-- The divisor is the page size, which the machine keeps apart from zero. -/
theorem checkPiece_continues (vaddr : VirtAddr) (done : Nat) :
    (checkPiece p vaddr done : Op σ ε Unit).Continues I := by
  unfold checkPiece
  split
  · exact .checkDivisor h.divisor
  · exact .pure _

/-- Every piece is one access, so the copy goes on as its pieces do. -/
theorem readPieces_continues (vaddr : VirtAddr) (done missing pieces : Nat) :
    (readPieces p vaddr done missing pieces : Op σ Empty (Copied Bytes)).Continues I := by
  induction pieces generalizing done missing with
  | zero => exact .pure _
  | succ pieces ih =>
    rw [readPieces]
    split
    · exact .pure _
    refine (checkPiece_continues h vaddr done).bind fun _ => ?_
    cases nextPiece p vaddr done with
    | none => exact .pure _
    | some piece =>
      obtain ⟨address, room⟩ := piece
      have hpiece := h.read address (min room missing)
      refine (withPage_continues h hpiece address).attempt.bind ?_
      rintro (fault | data)
      · exact .pure _
      · dsimp only
        split
        · exact .pure _
        · exact (ih _ _).bind fun _ => .pure _

theorem writePieces_continues (vaddr : VirtAddr) (done : Nat) (rest : Bytes) (pieces : Nat) :
    (writePieces p vaddr done rest pieces : Op σ Empty (Copied Nat)).Continues I := by
  induction pieces generalizing done rest with
  | zero => exact .pure _
  | succ pieces ih =>
    rw [writePieces]
    split
    · exact .pure _
    refine (checkPiece_continues h vaddr done).bind fun _ => ?_
    cases hn : nextPiece p vaddr done with
    | none => exact .pure _
    | some piece =>
      obtain ⟨address, room⟩ := piece
      obtain ⟨-, hroom⟩ := nextPiece_some ⟨rfl, rfl⟩ hn
      have hlength : (rest.take room).length ≤ room := List.length_take_le _ _
      have hpiece := h.write address (rest.take room) (by omega)
      refine (withPage_continues h hpiece address).attempt.bind ?_
      rintro (fault | n)
      · exact .pure _
      · dsimp only
        split
        · exact ih _ _
        · exact .pure _

end

omit [Mmu σ] in
/-- What the machine does on its own leaves the process that runs on it alone. -/
theorem Runs.continues_on {x : Op σ ε α} (hx : x.Continues I) :
    (Op.on machinePart x).Continues (Runs J I) :=
  hx.on (fun _ h => h.machine) fun _ _ h hI => ⟨h.process, hI⟩

section

variable (h : Steady number pageSize I) (hJ : ∀ p, J p → Numbered number pageSize p)

include h hJ

theorem copyOut_continues (vaddr : VirtAddr) (length : Nat) :
    (copyOut vaddr length : Op (Hosted σ) Empty (Copied Bytes)).Continues (Runs J I) := by
  apply Op.Continues.get
  intro s hs
  obtain ⟨rfl, rfl⟩ := hJ _ hs.process
  dsimp only
  split
  · exact .pure _
  · exact Runs.continues_on (readPieces_continues h vaddr 0 length length)

theorem copyIn_continues (vaddr : VirtAddr) (data : Bytes) :
    (copyIn vaddr data : Op (Hosted σ) Empty (Copied Nat)).Continues (Runs J I) := by
  apply Op.Continues.get
  intro s hs
  obtain ⟨rfl, rfl⟩ := hJ _ hs.process
  dsimp only
  split
  · exact .pure _
  · exact Runs.continues_on (writePieces_continues h vaddr 0 data data.length)

theorem readMemory_continues (vaddr : VirtAddr) (length : Nat) :
    (readMemory vaddr length : Op (Hosted σ) Empty Bytes).Continues (Runs J I) :=
  (copyOut_continues h hJ vaddr length).bind fun _ => .pure _

theorem writeMemory_continues (vaddr : VirtAddr) (data : Bytes) :
    (writeMemory vaddr data : Op (Hosted σ) Empty Nat).Continues (Runs J I) :=
  (copyIn_continues h hJ vaddr data).bind fun _ => .pure _

/-- A text is the one copy with a buffer, whose size must be allocated first. -/
theorem readText_continues (vaddr : VirtAddr) {maxLength : Nat}
    (hbuffer : maxLength + 1 < 0x8000000000000000) :
    (readText vaddr maxLength : Op (Hosted σ) Empty (Option String)).Continues (Runs J I) := by
  have hsize : (maxLength + 1).toUInt64.toNat < 0x8000000000000000 :=
    Nat.lt_of_le_of_lt (Nat.mod_le _ _) hbuffer
  refine .bind (.checkBuffer hsize) fun _ => (readMemory_continues h hJ vaddr _).bind fun data => ?_
  split
  · exact .pure _
  · exact .pure _

theorem writeAll_continues (vaddr : VirtAddr) (data : Bytes) :
    (writeAll vaddr data : Op (Hosted σ) MemoryError Unit).Continues (Runs J I) := by
  refine (copyIn_continues h hJ vaddr data).liftM.bind fun copied => ?_
  split
  · exact .throw _
  · exact .pure _

/-- Each argument is three copies: its pointer, its text and the NUL. -/
theorem writeArguments_continues (pointer text : UInt32) (args : List Bytes) :
    (writeArguments pointer text args : Op (Hosted σ) MemoryError Unit).Continues (Runs J I) := by
  induction args generalizing pointer text with
  | nil => exact .pure _
  | cons arg rest ih =>
    rw [writeArguments]
    refine (writeAll_continues h hJ _ _).bind fun _ => ?_
    refine (writeAll_continues h hJ _ _).bind fun _ => ?_
    exact (writeAll_continues h hJ _ _).bind fun _ => ih _ _

end

theorem exit_continues (h : (Mmu.teardown number : Op σ Empty Unit).Continues I) (status : Int) :
    (exit status : Op (Hosted σ) Empty Unit).Continues (Runs (Numbered number pageSize) I) := by
  apply Op.Continues.get
  intro s hs
  obtain ⟨rfl, rfl⟩ := hs.process
  dsimp only
  split
  · refine (Runs.continues_on h).bind fun _ => ?_
    exact .bind (.modify fun _ hs => ⟨hs.process, hs.machine⟩) fun _ => .notify rfl
  · exact .pure _

end Hosted

namespace Loader

omit [Mmu σ] in
/-- The layout is worked out before the machine is touched: it can be refused, but stops nothing. -/
theorem plan_issues (image : Image) (args : List Bytes) (stackPages : Nat) (s : σ) :
    (plan image args stackPages pageSize).Issues s (·.isHalt = false) := by
  have hcollect : ∀ sections sectionIndex next, (ImageIndex.collect sectionIndex next sections :
      Op σ MemoryError (List ImagePage)).Continues fun _ => True := by
    intro sections
    induction sections with
    | nil => exact fun _ _ => .pure _
    | cons sec rest ih =>
      intro sectionIndex next
      rw [ImageIndex.collect]
      have hrest := (ih (sectionIndex + 1) (next + sec.numPages.toUInt32)).bind fun pages =>
        .pure (ε := MemoryError) (I := fun _ : σ => True) (sec.pageList sectionIndex ++ pages)
      dsimp only
      split
      · exact .bind (.notify rfl) fun _ => .bind (.throw _) fun _ => hrest
      · exact hrest
  have hplan : (plan image args stackPages pageSize : Op σ MemoryError Layout).Continues
      fun _ => True := by
    refine .bind ((hcollect image.sections 0 0).bind fun _ => .pure _) fun index => ?_
    cases layoutPages index.numPages stackPages pageSize with
    | none =>
      have hend := (Op.Continues.notify (ε := MemoryError) (I := fun _ : σ => True)
        (n := .addressSpaceTooLarge stackPages) rfl).bind fun _ =>
          .throw (α := Layout) .invalidImage
      dsimp only
      split
      · exact .bind (.notify rfl) fun _ => .bind (.throw _) fun _ => hend
      · exact hend
    | some numPages =>
      have hend := Op.Continues.pure (ε := MemoryError) (I := fun _ : σ => True)
        (⟨numPages, index⟩ : Layout)
      dsimp only
      split
      · exact .bind (.notify rfl) fun _ => .bind (.throw _) fun _ => hend
      · exact hend
  exact hplan.issues s trivial

/-- The arguments are written, or the machine is torn down again. Neither stops the program. -/
theorem enter_issues {process : Process} {args : List Bytes} {m : σ}
    (hwrite : (Hosted.writeArguments process.initialSp.value
      (process.initialSp.value + (args.length * argumentPointerSize).toUInt32) args).Continues
        (Hosted.Runs (Hosted.Numbered number pageSize) I))
    (hdown : (Mmu.teardown number : Op σ Empty Unit).Continues I)
    (hp : Hosted.Numbered number pageSize process) (hm : I m) :
    (enter process args).Issues m (·.isHalt = false) := by
  have hruns : Hosted.Runs (Hosted.Numbered number pageSize) I ⟨process, m⟩ := ⟨hp, hm⟩
  simp only [enter, Op.issues_bind, Op.issues_get, Op.ends_get, Op.issues_apart, Op.issues_attempt,
    Op.ends_apart, Op.ends_attempt, true_and]
  refine ⟨hwrite.issues _ hruns, (hwrite.keeps _ hruns).imp ?_⟩
  rintro (e | u) s ⟨hs, -⟩
  · have hexit := (Hosted.exit_continues hdown (-1)).issues s hs
    simp only [Op.issues_bind, Op.issues_apart, Op.ends_apart]
    refine ⟨?_, ?_⟩
    · exact (Op.issues_liftM _ _).mpr hexit
    · refine (Op.ends_self _ _).imp ?_
      rintro (e' | u) s' -
      · trivial
      · exact ⟨Op.issues_set _ _, Op.issues_throw _ _⟩
  · simp only [Op.issues_bind, Op.ends_set, Op.ends_notify, Op.issues_notify]
    exact ⟨Op.issues_set _ _, rfl, Op.issues_pure _ _⟩

end Loader

end

/-! ## Machines of either mode -/

theorem StaticMachine.handleFault_issues (m : StaticMachine) (pid : Pid) (vaddr : VirtAddr)
    (e : Exception) : (handleFault pid vaddr e).Issues m (·.isHalt = false) := by
  have hend : (pure (.ofException e) : Op StaticMachine Empty FaultResult).Continues
      fun _ => True := .pure _
  have hall : (handleFault pid vaddr e).Continues fun _ => True := by
    rw [handleFault]
    split
    · exact .bind (.notify rfl) fun _ => hend
    · exact hend
  exact hall.issues m trivial

/-- A miss is the only exception the pager does work for. -/
theorem Pager.handleFault_issues {p : Pager} (h : p.WellFormed none) (hword : p.frames.InWord)
    (hdiv : p.pageSize.toUInt32 ≠ 0) (pid : Pid) (vaddr : VirtAddr) (e : Exception) :
    (handleFault pid vaddr e).Issues p (·.isHalt = false) := by
  cases e with
  | readOnly | addressError => exact Op.issues_pure _ _
  | tlbMiss =>
    have hmiss := Op.halted_eq_false_iff.mp (handleMiss_reports h hword hdiv pid vaddr).running
    refine Op.Issues.bind ((Op.issues_attempt _ _).mpr hmiss) fun r p' => ?_
    unfold FaultResult.ofMiss
    split
    · exact Op.issues_pure _ _
    · exact Op.issues_pure _ _
    · exact Op.issues_pure _ _
    · exact .bind ((Op.issues_notify _ _).mpr rfl) fun _ _ =>
        .bind ((Op.issues_notify _ _).mpr rfl) fun _ _ => Op.issues_pure _ _

namespace Backend

variable {b : Backend} {c : Config}

/-- The machine does not stop the program while process `number` uses it, whatever it did before. -/
theorem Sound.steady (hs : b.Sound c) (hsize : c.pageSize < 0x100000000)
    (hcount : c.physPages < 0x100000000) (number : Nat) :
    Steady number c.pageSize (Respects number b) := by
  have hconfined := b.confined number
  rw [hs.size_eq] at hconfined
  have hdiv := hs.geometry.divisor hsize
  refine ⟨hdiv, fun vaddr length => ⟨hconfined.read vaddr length, ?_⟩,
    fun vaddr data hin => ⟨hconfined.write vaddr data hin, ?_⟩,
    fun vaddr e => ⟨hconfined.handleFault vaddr e, ?_⟩⟩
  all_goals
    intro b' hb'
    have hs' := hb'.sound hs
  · cases b' with
    | static m =>
      rw [← StaticMachine.Sound.pageSize hs'] at hdiv
      exact StaticMachine.read_issues (fun hzero => absurd hzero hdiv) number vaddr length
    | paged p =>
      rw [← Pager.Sound.pageSize hs'] at hdiv
      exact Pager.read_issues (Pager.Sound.wellFormed hs') hdiv number.toUInt32 vaddr length
  · cases b' with
    | static m =>
      rw [← StaticMachine.Sound.pageSize hs'] at hdiv
      exact StaticMachine.write_issues (fun hzero => absurd hzero hdiv) number vaddr data
    | paged p =>
      rw [← Pager.Sound.pageSize hs'] at hdiv
      exact Pager.write_issues (Pager.Sound.wellFormed hs') hdiv number.toUInt32 vaddr data
  · cases b' with
    | static m => exact m.handleFault_issues number.toUInt32 vaddr e
    | paged p =>
      have hword : p.frames.InWord :=
        (congrArg (· < 0x100000000) (Pager.Sound.total hs')).mpr hcount
      rw [← Pager.Sound.pageSize hs'] at hdiv
      exact Pager.handleFault_issues (Pager.Sound.wellFormed hs') hword hdiv number.toUInt32 vaddr e

theorem Sound.teardown_continues (hs : b.Sound c) (number : Nat) :
    (Mmu.teardown number : Op Backend Empty Unit).Continues (Respects number b) := by
  refine ⟨(b.confined number).teardown, ?_⟩
  intro b' hb'
  have hs' := hb'.sound hs
  cases b' with
  | static m =>
    obtain ⟨hwf, hapart, -, -⟩ := hs'
    exact StaticMachine.teardown_issues hwf hapart number
  | paged p => exact Pager.teardown_issues (Pager.Sound.wellFormed hs') number.toUInt32

/-- Loading takes frames or registers a space, and at most reports that it cannot. -/
theorem Sound.load_issues (hs : b.Sound c) (number : Nat) (layout : Layout) :
    (Mmu.load number layout : Op Backend MemoryError Unit).Issues b (·.isHalt = false) := by
  cases b with
  | static m =>
    have hwf := StaticMachine.Sound.wellFormed hs
    exact StaticMachine.load_issues hwf number number.toUInt32 layout rfl
  | paged p =>
    have hreports :=
      Pager.registerSpace_reports p number.toUInt32 layout.numPages (some layout.index)
    exact Op.halted_eq_false_iff.mp hreports.running

end Backend

/-! ## Kernels -/

namespace Kernel

variable {c : Config} {n : Nat} {k : Kernel}

/-- What a process does goes on as long as its machine does. -/
theorem onProcess_running (hs : Sound c n k) {process : Process}
    (hp : k.processes.get? number = some process) {x : Op (Hosted Backend) ε α}
    (hx : x.Continues (Hosted.Runs (Hosted.Numbered number c.pageSize)
      (Backend.Respects number k.backend))) : (onProcess number x k).halted = false := by
  obtain ⟨-, hnum⟩ := hs.processes number process hp
  simp only [onProcess, hp]
  exact hx.running ⟨hnum, hs.backend.respects number⟩

/-- A spawn does not stop the program, unless it writes arguments and no word holds the number of
the frames or the page size. -/
theorem spawn_running (hs : Sound c n k) (name : String) (image : Image) {args : List String}
    (hwords : args ≠ [] → c.pageSize < 0x100000000 ∧ c.physPages < 0x100000000) :
    (spawn name image args k).halted = false := by
  have hload : (Loader.load k.next name image args k.config.stackPages).Issues k.backend
      (·.isHalt = false) := by
    obtain ⟨planned, hplan⟩ : (Loader.plan image (args.map textBytes) k.config.stackPages
      c.pageSize : Op Backend MemoryError Layout).Stateless := Loader.stateless_plan _ _ _ _
    simp only [Loader.load, Op.issues_bind, Op.issues_get, Op.ends_get, hs.backend.size_eq,
      true_and]
    refine ⟨Loader.plan_issues _ _ _ _, (hplan k.backend).imp ?_⟩
    rintro r b ⟨rfl, rfl⟩
    cases r with
    | error e => trivial
    | ok layout =>
      refine ⟨hs.backend.load_issues k.next layout, ?_⟩
      rcases hs.free_or_taken with hfree | ⟨-, p, hb, htaken⟩
      · refine (Backend.load_respects hs.backend hfree layout).imp ?_
        rintro (e | u) b ⟨hb, -⟩
        · trivial
        refine Loader.enter_issues (I := Backend.Respects k.next k.backend) ?_
          (hs.backend.teardown_continues k.next) ⟨rfl, rfl⟩ hb
        by_cases hargs : args = []
        · rw [hargs]
          exact .pure _
        · obtain ⟨hsize, hcount⟩ := hwords hargs
          exact Hosted.writeArguments_continues (hs.backend.steady hsize hcount k.next)
            (fun _ hp => hp) _ _ _
      · refine (Backend.load_taken hb htaken layout).imp ?_
        rintro r b ⟨⟨cause, rfl⟩, -⟩
        trivial
  rw [Op.halted_eq_false_iff]
  simp only [Kernel.spawn, Op.issues_bind, Op.issues_get, Op.ends_get, Op.ends_set, Op.issues_on,
    Op.ends_on, true_and]
  refine ⟨Op.issues_set _ _, hload, (Op.ends_self _ _).imp ?_⟩
  rintro (e | process) b -
  · trivial
  · exact ⟨Op.issues_modify _ _, Op.issues_pure _ _⟩

end Kernel

end VirtualMemory
