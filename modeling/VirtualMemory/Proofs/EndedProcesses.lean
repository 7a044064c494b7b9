import VirtualMemory.Proofs.ClearedSpaces

/-!
# Processes that have ended

When a process ends its space is taken down, and the machine stays clear of it. The calls on a
process that has ended are guarded by its state, all but one: an exception is handed to the machine
whatever the state is, and it is the machine that knows nothing of the process any more
(`Hosted.handleException_ended`). So each call leaves a process that has ended and its machine as
they were, and clears the machine of a process that it ends (`Hosted.EndsWell`).
-/

namespace VirtualMemory

variable {σ ε α : Type} {S : Nat → Prop} {number : Nat} {process : Process}

def Process.ended (p : Process) (status : Int) : Process :=
  { p with state := .terminated, exitStatus := some status }

namespace Hosted

variable {s : Hosted Backend}

/-- There is no guard for the state here: the machine does not know the process. -/
theorem handleException_ended (hended : s.process.terminated = true)
    (hnone : s.machine.NoSpace s.process.number) (e : Exception) (vaddr : VirtAddr) :
    (handleException e vaddr : Op (Hosted Backend) Empty FaultResult).Ends s fun r s' =>
      (∃ outcome, r = .ok outcome ∧ outcome ≠ .success) ∧ s' = s := by
  have hend : ∀ outcome : FaultResult, outcome ≠ .success → (do
      if outcome ≠ .success then
        Op.notify (.exceptionUnhandled s.process.pid vaddr)
        exit (-1)
      return outcome : Op (Hosted Backend) Empty FaultResult).Ends s fun r s' =>
        (∃ outcome, r = .ok outcome ∧ outcome ≠ .success) ∧ s' = s := by
    intro outcome hne
    simp only [if_pos hne, Op.ends_bind, Op.ends_notify]
    refine (exit_ended hended (-1)).imp ?_
    rintro _ _ ⟨rfl, rfl⟩
    exact ⟨⟨outcome, rfl, hne⟩, rfl⟩
  simp only [handleException, Op.ends_bind, Op.ends_get, Op.ends_checkDivisor]
  split
  · rw [Op.ends_bind, Op.ends_on]
    refine (Backend.handleFault_cleared hnone vaddr e).imp ?_
    rintro _ _ ⟨⟨outcome, rfl, hne⟩, rfl⟩
    exact hend outcome hne
  · exact hend .invalidAddress (by decide)

/-! ## Processes that end -/

/-- The exit gives up the space of the process, and the machine has nothing of it any more. -/
theorem exit_live (hlive : s.process.terminated = false) (hclear : s.machine.ClearOf S)
    (status : Int) :
    (exit status : Op (Hosted Backend) Empty Unit).Ends s fun r s' => r = .ok () ∧
      s'.process = s.process.ended status ∧
      s'.machine.ClearOf fun q => S q ∨ q = s.process.number := by
  simp only [exit, Op.ends_bind, Op.ends_get, hlive, Bool.not_false, if_true, Op.ends_on]
  refine (hclear.teardown s.process.number).imp ?_
  rintro (e | u) m hm
  · exact e.elim
  · simp only [Op.ends_modify, Op.ends_notify]
    exact ⟨trivial, rfl, hm⟩

/-- An exception that is resolved leaves the process as it is, and any other ends it. -/
theorem handleException_live (hlive : s.process.terminated = false) (hclear : s.machine.ClearOf S)
    (e : Exception) (vaddr : VirtAddr) :
    (handleException e vaddr : Op (Hosted Backend) Empty FaultResult).Ends s fun r s' =>
      ∃ outcome, r = .ok outcome ∧
        (outcome = .success ∧ s'.process = s.process ∧ s'.machine.ClearOf S ∨
          outcome ≠ .success ∧ s'.process = s.process.ended (-1) ∧
            s'.machine.ClearOf fun q => S q ∨ q = s.process.number) := by
  have hend : ∀ (outcome : FaultResult) (m : Backend), m.ClearOf S → (do
      if outcome ≠ .success then
        Op.notify (.exceptionUnhandled s.process.pid vaddr)
        exit (-1)
      return outcome : Op (Hosted Backend) Empty FaultResult).Ends ⟨s.process, m⟩ fun r s' =>
        ∃ outcome, r = .ok outcome ∧
          (outcome = .success ∧ s'.process = s.process ∧ s'.machine.ClearOf S ∨
            outcome ≠ .success ∧ s'.process = s.process.ended (-1) ∧
              s'.machine.ClearOf fun q => S q ∨ q = s.process.number) := by
    intro outcome m hm
    by_cases hok : outcome = .success
    · simp only [hok, ne_eq, not_true_eq_false, if_false, Op.ends_pure]
      exact ⟨.success, rfl, .inl ⟨rfl, trivial, hm⟩⟩
    · simp only [ne_eq, hok, not_false_eq_true, if_true, Op.ends_bind, Op.ends_notify]
      have hexit := exit_live (s := ⟨s.process, m⟩) hlive hm (-1)
      refine hexit.imp ?_
      rintro _ s' ⟨rfl, hp, hm'⟩
      exact ⟨outcome, rfl, .inr ⟨hok, hp, hm'⟩⟩
  simp only [handleException, Op.ends_bind, Op.ends_get, Op.ends_checkDivisor]
  split
  · rw [Op.ends_bind, Op.ends_on]
    have hconfined := Backend.confined_clearOf S s.process.number s.process.pageSize
    refine (hconfined.handleFault vaddr e s.machine hclear).imp ?_
    rintro (e' | outcome) m ⟨hm, -⟩
    · exact e'.elim
    · exact hend outcome m hm
  · exact hend .invalidAddress s.machine hclear

/-! ## Calls on a process -/

/-- The machine is clear of these processes, and of this one if it has ended. -/
structure Tidy (number : Nat) (S : Nat → Prop) (s : Hosted Backend) : Prop where
  numbered : s.process.number = number
  machine : s.machine.ClearOf S
  ended : s.process.terminated = true → s.machine.NoSpace number

/-- A call that takes down the space of a process that it ends, and does nothing to a process that
has ended. -/
structure EndsWell (x : Op (Hosted Backend) ε α) : Prop where
  live : ∀ S s, s.process.terminated = false → s.machine.ClearOf S →
    Tidy s.process.number S (x s).state
  ended : ∀ s, s.process.terminated = true → s.machine.NoSpace s.process.number → (x s).state = s

/-- A process is not ended by what only uses it. -/
theorem EndsWell.use {x : Op (Hosted Backend) ε α}
    (huse : ∀ number pageSize S, x.Maintains
      (Runs (fun p => Numbered number pageSize p ∧ p.terminated = false) (Backend.ClearOf S))
      fun _ => True)
    (hended : ∀ s, s.process.terminated = true → x.Ends s fun _ s' => s' = s) : EndsWell x where
  live S s hlive hclear := by
    have hruns := (huse s.process.number s.process.pageSize S).state
      ⟨⟨⟨rfl, rfl⟩, hlive⟩, hclear⟩
    refine ⟨hruns.process.1.1, hruns.machine, fun ht => ?_⟩
    rw [hruns.process.2] at ht
    cases ht
  ended s hs _ := hended s hs

/-- Whatever is asked of a process that has ended is answered without the machine. -/
theorem endsWell_serve (request : Request) :
    EndsWell (request.serve : Op (Hosted Backend) Empty Reply) := by
  refine .use (fun number pageSize S => ?_) fun s hs => ?_
  · exact request.serve_keeps (Backend.confined_clearOf S number pageSize).toInUse
      (fun _ hp => hp.1) (fun _ hp => ⟨hp.1, rfl⟩) fun _ hp => ⟨hp.1, rfl⟩
  · cases request with
    | read vaddr length =>
      exact (Op.bind_return _ Reply.bytes s).2.trans (readMemory_ended hs vaddr length).2
    | write vaddr data =>
      exact (Op.bind_return _ Reply.written s).2.trans (writeMemory_ended hs vaddr data).2
    | text vaddr maxLength =>
      exact (Op.bind_return _ Reply.text s).2.trans (readText_ended hs vaddr maxLength).2
    | switchOut => exact (Op.bind_return _ (fun _ => Reply.done) s).2.trans (switchOut_ended hs).2
    | switchIn => exact (Op.bind_return _ (fun _ => Reply.done) s).2.trans (switchIn_ended hs).2

theorem endsWell_translate (vaddr : VirtAddr) (access : Access) :
    EndsWell (translate vaddr access : Op (Hosted Backend) Exception PhysAddr) :=
  .use (fun number pageSize S =>
    translate_keeps (Backend.confined_clearOf S number pageSize).toInUse (fun _ hp => hp.1) vaddr
      access) fun _ hs => (translate_ended hs vaddr access).2

theorem endsWell_switchOut : EndsWell (switchOut : Op (Hosted Backend) Empty Unit) :=
  .use (fun number pageSize S =>
    switchOut_keeps (Backend.confined_clearOf S number pageSize).toInUse (fun _ hp => hp.1)
      fun _ hp => ⟨hp.1, rfl⟩) fun _ hs => (switchOut_ended hs).2

theorem endsWell_switchIn : EndsWell (switchIn : Op (Hosted Backend) Empty Unit) :=
  .use (fun number pageSize S =>
    switchIn_keeps (Backend.confined_clearOf S number pageSize).toInUse (fun _ hp => hp.1)
      fun _ hp => ⟨hp.1, rfl⟩) fun _ hs => (switchIn_ended hs).2

/-- The machine is clear of a process that has just ended. -/
theorem Tidy.of_ended {status : Int} (hnumber : process.number = number)
    (hp : s.process = process.ended status) (hclear : s.machine.ClearOf fun q => S q ∨ q = number) :
    Tidy number S s where
  numbered := by rw [hp, ← hnumber]; rfl
  machine := hclear.of_noSpace fun _ hq => hclear.noSpace (.inl hq)
  ended _ := hclear.noSpace (.inr rfl)

theorem endsWell_exit (status : Int) :
    EndsWell (exit status : Op (Hosted Backend) Empty Unit) where
  live S s hlive hclear := by
    obtain ⟨-, hp, hgone⟩ := exit_live hlive hclear status
    exact .of_ended rfl hp hgone
  ended s hs _ := (exit_ended hs status).2

theorem endsWell_handleException (e : Exception) (vaddr : VirtAddr) :
    EndsWell (handleException e vaddr : Op (Hosted Backend) Empty FaultResult) where
  live S s hlive hclear := by
    obtain ⟨outcome, -, ⟨-, hp, hkept⟩ | ⟨-, hp, hgone⟩⟩ :=
      handleException_live hlive hclear e vaddr
    · refine ⟨congrArg Process.number hp, hkept, fun ht => ?_⟩
      rw [hp, hlive] at ht
      cases ht
    · exact .of_ended rfl hp hgone
  ended s hs hnone := (handleException_ended hs hnone e vaddr).2

end Hosted

/-! ## New processes -/

namespace Loader

/-- A process that was loaded is alive. -/
theorem load_live [Mmu σ] (number : Nat) (name : String) (image : Image) (args : List String)
    (stackPages : Nat) (m : σ) :
    (load number name image args stackPages).Ends m fun r _ =>
      ∀ process, r = .ok process → process.terminated = false := by
  refine (load_newProcess number name image args stackPages m).imp ?_
  intro r _ hnew process hok
  obtain ⟨layout, -, rfl⟩ := hnew process hok
  rfl

/-- Loading a process brings back no space that was given up. -/
theorem load_clearOf {b : Backend} (h : b.ClearOf S) (hnew : ∀ q, S q → b.Distinct q number)
    (name : String) (image : Image) (args : List String) (stackPages : Nat) :
    (load number name image args stackPages : Op Backend MemoryError Process).Ends b fun r b' =>
      b'.ClearOf S ∧ ∀ process, r = .ok process →
        process.number = number ∧ process.terminated = false := by
  have hgone : ∀ b₁ : Backend, b₁.ClearOf S →
      (Mmu.teardown number : Op Backend Empty Unit).Ends b₁ fun _ _ => True := fun _ _ => trivial
  have hkept := load_keeps (Backend.confined_clearOf S number (Mmu.pageSize b)) hgone name image
    args stackPages
    (fun layout => (h.load hnew layout).imp fun r _ h' => ⟨h', by cases r <;> trivial⟩) rfl h
    trivial
  refine (hkept.and (load_live number name image args stackPages b)).imp ?_
  rintro (e | process) b' ⟨⟨hb, hr⟩, hlive⟩
  · exact ⟨hb, nofun⟩
  · refine ⟨hb, ?_⟩
    rintro _ ⟨⟩
    exact ⟨hr.1, hlive process rfl⟩

end Loader

end VirtualMemory
