import VirtualMemory.Proofs.EndedProcesses
import VirtualMemory.Proofs.VirtualCopies

/-!
# Termination is final

The machine of a kernel is clear of every process that has ended (`Orderly.cleared`), so that none
of the calls on such a process does anything (`Orderly.inert`). This is an invariant of whatever is
done with the kernel, and so is the record of the process, until it is forgotten (`Orderly.acted`
for one act, `Orderly.through` for a run). `termination_absorbing` says so of every kernel that was
booted, and how a live process ends.
-/

namespace VirtualMemory

variable {ε α : Type} {c : Config} {n number q : Nat} {process : Process}

namespace Kernel

variable {k k₀ : Kernel}

/-- The processes that have ended and are not forgotten. -/
def Ended (processes : OrderedMap Nat Process) (number : Nat) : Prop :=
  ∃ process, processes.get? number = some process ∧ process.terminated = true

/-- The invariant of a kernel after `n` spawns: numbers are given out in order, and the machine is
clear of every process that has ended. -/
structure Orderly (n : Nat) (k : Kernel) : Prop where
  next : k.next = n + 1
  issued : ∀ number process, k.processes.get? number = some process →
    Issued n number ∧ process.number = number
  cleared : k.backend.ClearOf (Ended k.processes)

theorem Orderly.noSpace (h : Orderly n k) (hp : k.processes.get? number = some process)
    (hended : process.terminated = true) : k.backend.NoSpace process.number := by
  rw [(h.issued number process hp).2]
  exact h.cleared.noSpace ⟨process, hp, hended⟩

/-- A call on a process that has ended leaves the kernel as it was. -/
theorem Orderly.onProcess_ended (h : Orderly n k) {x : Op (Hosted Backend) ε α}
    (hx : Hosted.EndsWell x) (hp : k.processes.get? number = some process)
    (hended : process.terminated = true) : (onProcess number x k).state = k := by
  have hsame := hx.ended ⟨process, k.backend⟩ hended (h.noSpace hp hended)
  simp only [Kernel.onProcess, hp, hsame, OrderedMap.insert_eq_self hp]

theorem get?_onProcess_other {x : Op (Hosted Backend) ε α} (hq : q ≠ number) :
    (onProcess number x k).state.processes.get? q = k.processes.get? q := by
  unfold Kernel.onProcess
  cases hp : k.processes.get? number with
  | none => rfl
  | some process =>
    dsimp only
    rw [OrderedMap.get?_insert, if_neg hq]

theorem Orderly.onProcess (h : Orderly n k) {x : Op (Hosted Backend) ε α}
    (hx : Hosted.EndsWell x) (number : Nat) : Orderly n (onProcess number x k).state := by
  cases hp : k.processes.get? number with
  | none =>
    rw [Kernel.onProcess, hp]
    exact h
  | some process =>
    cases hended : process.terminated with
    | true =>
      rw [h.onProcess_ended hx hp hended]
      exact h
    | false =>
      obtain ⟨hissued, hnumber⟩ := h.issued number process hp
      have htidy := hx.live _ ⟨process, k.backend⟩ hended h.cleared
      rw [hnumber] at htidy
      simp only [Kernel.onProcess, hp]
      refine ⟨h.next, fun q other hq => ?_, htidy.machine.of_noSpace fun q hq => ?_⟩
      · rcases OrderedMap.get?_insert_eq_some.mp hq with ⟨rfl, rfl⟩ | ⟨-, hq⟩
        · exact ⟨hissued, htidy.numbered⟩
        · exact h.issued q other hq
      · obtain ⟨other, hother, ht⟩ := hq
        rcases OrderedMap.get?_insert_eq_some.mp hother with ⟨rfl, rfl⟩ | ⟨-, hother⟩
        · exact htidy.ended ht
        · exact htidy.machine.noSpace ⟨other, hother, ht⟩

/-- Nothing has become of processes that have ended, nor of numbers that have no process. -/
structure Retains (n : Nat) (k₀ k : Kernel) : Prop where
  orderly : Orderly n k
  record : ∀ number,
    (∀ process, k₀.processes.get? number = some process → process.terminated = true) →
    k.processes.get? number = k₀.processes.get? number

theorem Orderly.retains (h : Orderly n k) : Retains n k k := ⟨h, fun _ _ => rfl⟩

theorem maintains_retains {x : Op (Hosted Backend) ε α} (hx : Hosted.EndsWell x) (q : Nat) :
    (Kernel.onProcess q x).Maintains (Retains n k₀) fun _ => True := by
  refine fun k h => ⟨⟨h.orderly.onProcess hx q, fun number hended => ?_⟩, fun _ _ => trivial⟩
  rw [← h.record number hended]
  by_cases heq : number = q
  · subst heq
    cases hp : k.processes.get? number with
    | none =>
      rw [Kernel.onProcess, hp]
      exact hp
    | some process =>
      have hover := hended process ((h.record number hended).symm.trans hp)
      rw [h.orderly.onProcess_ended hx hp hover, hp]
  · exact get?_onProcess_other heq

theorem contextSwitch_retains (leaving : Option Nat) (entering : Nat) :
    (Kernel.contextSwitch leaving entering).Maintains (Retains n k₀) fun _ => True :=
  maintains_contextSwitch (maintains_retains Hosted.endsWell_switchOut)
    (maintains_retains Hosted.endsWell_switchIn) leaving entering

/-- The machine stays clear of the ended processes that are not forgotten. -/
theorem Orderly.forget (h : Orderly n k) (number : Nat) :
    Orderly n { k with processes := k.processes.erase number } where
  next := h.next
  issued q process hq := h.issued q process (OrderedMap.get?_erase_eq_some.mp hq).2
  cleared := by
    refine h.cleared.of_noSpace fun q hq => ?_
    obtain ⟨process, hq, ht⟩ := hq
    exact h.cleared.noSpace ⟨process, (OrderedMap.get?_erase_eq_some.mp hq).2, ht⟩

theorem Orderly.discard (h : Orderly n k) (number : Nat) :
    (Kernel.discard number).Ends k fun r k' =>
      r = .ok (k.processes.get? number).isSome ∧ Orderly n k' ∧
      k' = { (Kernel.onProcess number (Hosted.exit 0) k).state with
        processes :=
          (Kernel.onProcess number (Hosted.exit 0) k).state.processes.erase number } := by
  have hexit := h.onProcess (Hosted.endsWell_exit 0) number
  have hfound : (Kernel.onProcess number (Hosted.exit 0) k).result =
      .ok ((k.processes.get? number).map fun _ => ()) := by
    unfold Kernel.onProcess
    cases hp : k.processes.get? number with
    | none => rfl
    | some process =>
      have hvalue := Op.result_eq_value (Hosted.exit 0 (⟨process, k.backend⟩ : Hosted Backend))
      dsimp only
      rw [hvalue]
      rfl
  simp only [Kernel.discard, Op.ends_bind]
  refine (Op.ends_self (Kernel.onProcess number (Hosted.exit 0)) k).imp ?_
  rintro (e | found) k' ⟨hr, rfl⟩
  · exact e.elim
  · rw [hfound] at hr
    obtain rfl := Except.ok.inj hr
    simp only [Op.ends_modify, Op.ends_pure, Option.isSome_map]
    exact ⟨trivial, hexit.forget number, trivial⟩

/-- A spawn gives out a new number, and nothing becomes of the older ones. -/
theorem Orderly.spawn (h : Orderly n k) (hfew : n < 0x100000000) (name : String) (image : Image)
    (args : List String) :
    (Kernel.spawn name image args).Ends k fun _ k' => Orderly (n + 1) k' ∧
      ∀ q, Issued n q → k'.processes.get? q = k.processes.get? q := by
  have hnew : New n k.next k.backend := h.next ▸ new_succ (.inl hfew)
  -- the new number is not that of a process that has ended, so its space may be loaded
  have hfresh : ∀ q, Ended k.processes q → k.backend.Distinct q k.next := by
    rintro q ⟨process, hp, -⟩
    exact (hnew q (h.issued q process hp).1).symm
  have hissued : Issued (n + 1) k.next := by
    rw [h.next]
    exact ⟨Nat.succ_pos n, Nat.le_refl _⟩
  have hold : ∀ q process, k.processes.get? q = some process →
      Issued (n + 1) q ∧ process.number = q := by
    intro q process hq
    obtain ⟨hn, hnumber⟩ := h.issued q process hq
    exact ⟨hn.mono (Nat.le_succ n), hnumber⟩
  simp only [Kernel.spawn, Op.ends_bind, Op.ends_get, Op.ends_set, Op.ends_on]
  refine (Loader.load_clearOf h.cleared hfresh name image args k.config.stackPages).imp ?_
  rintro (e | process) b ⟨hclear, hr⟩
  · exact ⟨⟨congrArg (· + 1) h.next, hold, hclear⟩, fun _ _ => rfl⟩
  · obtain ⟨hnumber, hlive⟩ := hr process rfl
    simp only [Op.ends_modify, Op.ends_pure]
    refine ⟨⟨congrArg (· + 1) h.next, fun q other hq => ?_, hclear.of_noSpace fun q hq => ?_⟩,
      fun q hq => ?_⟩
    · rcases OrderedMap.get?_insert_eq_some.mp hq with ⟨rfl, rfl⟩ | ⟨-, hq⟩
      · exact ⟨hnumber ▸ hissued, rfl⟩
      · exact hold q other hq
    · obtain ⟨other, hother, ht⟩ := hq
      rcases OrderedMap.get?_insert_eq_some.mp hother with ⟨-, rfl⟩ | ⟨-, hother⟩
      · rw [hlive] at ht
        cases ht
      · exact hclear.noSpace ⟨other, hother, ht⟩
    · have hother : q ≠ process.number := by
        have hlast := h.next
        have hle := hq.2
        omega
      rw [OrderedMap.get?_insert, if_neg hother]
      rfl

/-! ## Whatever is done -/

inductive Act
  | deed (deed : Deed)
  | shutdown

def acted (k : Kernel) : Act → Kernel
  | .deed deed => k.done deed
  | .shutdown => (Kernel.shutdown k).state

/-- The kernel after these acts, the latest of which is the first in the list. -/
def through (k : Kernel) : List Act → Kernel
  | [] => k
  | act :: past => (k.through past).acted act

def launches (acts : List Act) : Nat :=
  acts.countP fun
    | .deed (.spawn ..) => true
    | _ => false

theorem launches_cons (act : Act) (past : List Act) :
    launches (act :: past) = launches past + launches [act] := by
  rw [← List.singleton_append, Nat.add_comm]
  exact List.countP_append

theorem Orderly.disturb (h : Orderly n k) {event : Pager.Event} (hgentle : event.Gentle) :
    Orderly n (k.disturb [event]) := by
  obtain ⟨-, hsettled⟩ : event.InPage k.config.pageSize ∧ event.Settled := hgentle.settled
  exact ⟨h.next, h.issued, h.cleared.disturbed (List.forall_mem_singleton.mpr hsettled)⟩

theorem Orderly.shutdown (h : Orderly n k) :
    (Kernel.shutdown).Ends k fun _ k' => Orderly n k' ∧ k'.processes = k.processes := by
  simp only [Kernel.shutdown, Op.ends_bind, Op.ends_on]
  refine h.cleared.close.imp ?_
  rintro (e | u) b hb
  · exact e.elim
  · exact ⟨⟨h.next, h.issued, hb⟩, rfl⟩

/-- The number was given out, and no live process has it. -/
structure Over (n : Nat) (k : Kernel) (number : Nat) : Prop where
  issued : Issued n number
  ended : ∀ process, k.processes.get? number = some process → process.terminated = true

/-- One act: the invariant is kept, and of a process that has ended the record is, unless the act
is to forget it. -/
theorem Orderly.acted (h : Orderly n k) (act : Act) (hfew : n + launches [act] ≤ 0x100000000) :
    Orderly (n + launches [act]) (k.acted act) ∧ ∀ number, Over n k number →
      (k.acted act).processes.get? number = k.processes.get? number ∨
        (k.acted act).processes.get? number = none ∧ act = .deed (.discard number) := by
  -- only a spawn gives out a number, and only a discard forgets a process
  have hkeeps : ∀ {ε α : Type} {x : Op Kernel ε α},
      x.Maintains (Retains n k) (fun _ => True) → Orderly n (x k).state ∧
        ∀ number, Over n k number → (x k).state.processes.get? number = k.processes.get? number ∨
          (x k).state.processes.get? number = none ∧ act = .deed (.discard number) := by
    intro ε α x hx
    have hretains := hx.state h.retains
    exact ⟨hretains.orderly, fun number hover => .inl (hretains.record number hover.ended)⟩
  cases act with
  | shutdown =>
    obtain ⟨horderly, hsame⟩ := h.shutdown
    exact ⟨horderly, fun number _ => .inl (congrArg (·.get? number) hsame)⟩
  | deed deed =>
    cases deed with
    | spawn name image args =>
      obtain ⟨horderly, hold⟩ := h.spawn (Nat.lt_of_succ_le hfew) name image args
      exact ⟨horderly, fun number hover => .inl (hold number hover.issued)⟩
    | serve q request => exact hkeeps (maintains_retains (Hosted.endsWell_serve request) q)
    | translate q vaddr access =>
      exact hkeeps (maintains_retains (Hosted.endsWell_translate vaddr access) q)
    | interrupt q e vaddr =>
      exact hkeeps (maintains_retains (Hosted.endsWell_handleException e vaddr) q)
    | exit q status => exact hkeeps (maintains_retains (Hosted.endsWell_exit status) q)
    | switch leaving entering => exact hkeeps (contextSwitch_retains leaving entering)
    | discard q =>
      obtain ⟨-, horderly, hstate⟩ := h.discard q
      refine ⟨horderly, fun number hover => ?_⟩
      have hexit := (maintains_retains (Hosted.endsWell_exit 0) q).state h.retains
      show (Kernel.discard q k).state.processes.get? number = _ ∨
        (Kernel.discard q k).state.processes.get? number = none ∧ _
      rw [hstate, OrderedMap.get?_erase]
      split
      next heq => exact .inr ⟨rfl, by rw [heq]⟩
      next => exact .inl (hexit.record number hover.ended)
    | disturb event hgentle => exact ⟨h.disturb hgentle, fun _ _ => .inl rfl⟩

theorem orderly_booted (hboot : Booted c k) : Orderly 0 k := by
  obtain ⟨host, entropy, h⟩ := hboot
  have hs := sound_boot h
  refine ⟨hs.next, fun number process hp => ?_, hs.backend.clearOf fun number _ => ?_⟩
  · obtain ⟨hissued, hnum⟩ := hs.processes number process hp
    exact ⟨hissued, hnum.1⟩
  · exact hs.vacant number fun i ⟨hpos, hle⟩ => absurd hpos (Nat.not_lt.mpr hle)

/-- A run: what has ended stays as it is, until it is forgotten. -/
theorem Orderly.through (h : Orderly n k) (later : List Act)
    (hfew : n + launches later ≤ 0x100000000) :
    Orderly (n + launches later) (k.through later) ∧ ∀ number, Over n k number →
      (k.through later).processes.get? number = k.processes.get? number ∨
        (k.through later).processes.get? number = none ∧ .deed (.discard number) ∈ later := by
  induction later with
  | nil => exact ⟨h, fun _ _ => .inl rfl⟩
  | cons act later ih =>
    rw [launches_cons, ← Nat.add_assoc] at hfew ⊢
    obtain ⟨hrun, hkept⟩ := ih (by omega)
    obtain ⟨hnext, hact⟩ := hrun.acted act hfew
    refine ⟨hnext, fun number hover => ?_⟩
    have hissued := hover.issued.mono (Nat.le_add_right n (launches later))
    rcases hkept number hover with hsame | ⟨hnone, hmem⟩
    · have hlast := hact number ⟨hissued, fun process hp => hover.ended process (hsame ▸ hp)⟩
      rcases hlast with hlast | ⟨hnone, rfl⟩
      · exact .inl (hlast.trans hsame)
      · exact .inr ⟨hnone, List.mem_cons_self⟩
    · have hlast := hact number ⟨hissued, fun process hp => by rw [hnone] at hp; cases hp⟩
      rcases hlast with hlast | ⟨hlast, -⟩
      · exact .inr ⟨hlast.trans hnone, List.mem_cons_of_mem act hmem⟩
      · exact .inr ⟨hlast, List.mem_cons_of_mem act hmem⟩

theorem through_append (k : Kernel) (later past : List Act) :
    k.through (later ++ past) = (k.through past).through later := by
  induction later with
  | nil => rfl
  | cons act later ih => exact congrArg (acted · act) ih

/-- Whatever is asked of the process does nothing to the kernel, and gives nothing. To forget the
process does no more than that. -/
structure Inert (k : Kernel) (number : Nat) : Prop where
  translate : ∀ vaddr access, (onProcess number (Hosted.translate vaddr access)).Ends k fun r k' =>
    r = .error .addressError ∧ k' = k
  handleException : ∀ e vaddr,
    (onProcess number (Hosted.handleException e vaddr)).Ends k fun r k' =>
      (∃ outcome, r = .ok (some outcome) ∧ outcome ≠ .success) ∧ k' = k
  readMemory : ∀ vaddr length,
    (onProcess number (Hosted.readMemory vaddr length)).Ends k fun r k' =>
      r = .ok (some []) ∧ k' = k
  writeMemory : ∀ vaddr data,
    (onProcess number (Hosted.writeMemory vaddr data)).Ends k fun r k' =>
      r = .ok (some 0) ∧ k' = k
  readText : ∀ vaddr maxLength,
    (onProcess number (Hosted.readText vaddr maxLength)).Ends k fun r k' =>
      r = .ok (some none) ∧ k' = k
  switchOut : (onProcess number Hosted.switchOut).Ends k fun r k' => r = .ok (some ()) ∧ k' = k
  switchIn : (onProcess number Hosted.switchIn).Ends k fun r k' => r = .ok (some ()) ∧ k' = k
  exit : ∀ status, (onProcess number (Hosted.exit status)).Ends k fun r k' =>
    r = .ok (some ()) ∧ k' = k
  discard : (Kernel.discard number).Ends k fun r k' =>
    r = .ok true ∧ k' = { k with processes := k.processes.erase number }

theorem ends_onProcess {x : Op (Hosted Backend) ε α} (hp : k.processes.get? number = some process)
    (Q : Except ε (Option α) → Kernel → Prop) :
    (onProcess number x).Ends k Q ↔ x.Ends ⟨process, k.backend⟩ fun r s =>
      Q (r.map some) { k with
        backend := s.machine, processes := k.processes.insert number s.process } := by
  simp only [Op.Ends, Kernel.onProcess, hp]

theorem onProcess_same {x : Op (Hosted Backend) ε α} {P : Except ε α → Prop}
    {Q : Except ε (Option α) → Prop} (hp : k.processes.get? number = some process)
    (hx : x.Ends ⟨process, k.backend⟩ fun r s => P r ∧ s = ⟨process, k.backend⟩)
    (hQ : ∀ r, P r → Q (r.map some)) : (onProcess number x).Ends k fun r k' => Q r ∧ k' = k := by
  rw [ends_onProcess hp]
  refine hx.imp ?_
  rintro r _ ⟨hr, rfl⟩
  exact ⟨hQ r hr, by rw [OrderedMap.insert_eq_self hp]⟩

theorem Orderly.inert (h : Orderly n k) (hp : k.processes.get? number = some process)
    (hended : process.terminated = true) : Inert k number where
  translate vaddr access :=
    onProcess_same hp (Hosted.translate_ended hended vaddr access) (by rintro _ rfl; rfl)
  handleException e vaddr := by
    refine onProcess_same hp
      (Hosted.handleException_ended hended (h.noSpace hp hended) e vaddr) ?_
    rintro _ ⟨outcome, rfl, hne⟩
    exact ⟨outcome, rfl, hne⟩
  readMemory vaddr length :=
    onProcess_same hp (Hosted.readMemory_ended hended vaddr length) (by rintro _ rfl; rfl)
  writeMemory vaddr data :=
    onProcess_same hp (Hosted.writeMemory_ended hended vaddr data) (by rintro _ rfl; rfl)
  readText vaddr maxLength :=
    onProcess_same hp (Hosted.readText_ended hended vaddr maxLength) (by rintro _ rfl; rfl)
  switchOut := onProcess_same hp (Hosted.switchOut_ended hended) (by rintro _ rfl; rfl)
  switchIn := onProcess_same hp (Hosted.switchIn_ended hended) (by rintro _ rfl; rfl)
  exit status := onProcess_same hp (Hosted.exit_ended hended status) (by rintro _ rfl; rfl)
  discard := by
    obtain ⟨hr, -, hstate⟩ := h.discard number
    rw [h.onProcess_ended (Hosted.endsWell_exit 0) hp hended] at hstate
    rw [hp] at hr
    exact ⟨hr, hstate⟩

/-- A live process is ended with the status that it exits with, and with status -1 by an exception,
exactly if that is not resolved. -/
structure Mortal (k : Kernel) (number : Nat) (process : Process) : Prop where
  exit : ∀ status, (onProcess number (Hosted.exit status)).Ends k fun r k' =>
    r = .ok (some ()) ∧ k'.processes.get? number = some (process.ended status)
  handleException : ∀ e vaddr,
    (onProcess number (Hosted.handleException e vaddr)).Ends k fun r k' =>
      ∃ outcome process', r = .ok (some outcome) ∧ k'.processes.get? number = some process' ∧
        (process'.terminated = true ↔ outcome ≠ .success) ∧
        process' = if outcome = .success then process else process.ended (-1)

theorem Orderly.mortal (h : Orderly n k) (hp : k.processes.get? number = some process)
    (hlive : process.terminated = false) : Mortal k number process where
  exit status := by
    rw [ends_onProcess hp]
    refine (Hosted.exit_live hlive h.cleared status).imp ?_
    rintro _ s ⟨rfl, hprocess, -⟩
    rw [OrderedMap.get?_insert, if_pos rfl, hprocess]
    exact ⟨rfl, rfl⟩
  handleException e vaddr := by
    rw [ends_onProcess hp]
    refine (Hosted.handleException_live hlive h.cleared e vaddr).imp ?_
    rintro _ s ⟨outcome, rfl, hend⟩
    refine ⟨outcome, s.process, rfl, by rw [OrderedMap.get?_insert, if_pos rfl], ?_⟩
    rcases hend with ⟨rfl, hprocess, -⟩ | ⟨hne, hprocess, -⟩
    · rw [hprocess, hlive]
      exact ⟨⟨nofun, fun hne => absurd rfl hne⟩, rfl⟩
    · rw [hprocess, if_neg hne]
      exact ⟨⟨fun _ => hne, fun _ => rfl⟩, rfl⟩

/-- Once a process has ended, its record stays as it is whatever is done with the kernel, and no
call on it does anything any more, until it is forgotten. -/
theorem termination_absorbing {booted : Kernel} (hboot : Booted c booted) (past later : List Act)
    (hfew : launches (later ++ past) < 0x100000000)
    (hp : (booted.through past).processes.get? number = some process) :
    (process.terminated = true →
      (booted.through (later ++ past)).processes.get? number = some process ∧
          Inert (booted.through (later ++ past)) number ∨
        (booted.through (later ++ past)).processes.get? number = none ∧
          .deed (.discard number) ∈ later) ∧
    (process.terminated = false → Mortal (booted.through past) number process) := by
  rw [launches, List.countP_append, ← launches, ← launches] at hfew
  obtain ⟨hpast, -⟩ := (orderly_booted hboot).through past (by omega)
  obtain ⟨hlater, hkept⟩ := hpast.through later (by omega)
  refine ⟨fun hended => ?_, hpast.mortal hp⟩
  have hover : Over (0 + launches past) (booted.through past) number := by
    refine ⟨(hpast.issued number process hp).1, fun other hother => ?_⟩
    obtain rfl := Option.some.inj (hp.symm.trans hother)
    exact hended
  rw [through_append]
  rcases hkept number hover with hsame | hforgotten
  · rw [hp] at hsame
    exact .inl ⟨hsame, hlater.inert hsame hended⟩
  · exact .inr hforgotten

/-! ## Two small kernels -/

/-- The kernels of `busyDemand` and `busyStatic` before anything was done. -/
def idleDemand : Kernel := { config := demandConfig, backend := .paged smallPager }

def idleStatic : Kernel := { config := roomyConfig, backend := .static (.ofSizes 8 8) }

def exited : List Act := .deed (.exit 1 7) :: twoSpawns.map .deed

/-- The first of two processes is ended by an exception, after its pages left the only frame. -/
def faulted : List Act :=
  .deed (.interrupt 1 .readOnly ⟨0⟩) :: twoSpawns.map .deed ++
    [.deed (.disturb (.draw (.ofWords [])) trivial)]

/-- Calls on the first process that come too late, between calls on the second. -/
def tooLate : List Act :=
  [.shutdown, .deed (.exit 1 9), .deed (.serve 2 (.write ⟨8⟩ [1, 2])),
    .deed (.interrupt 1 .tlbMiss ⟨0⟩), .deed (.serve 2 (.write ⟨0⟩ [3, 4]))]

theorem termination_absorbing_first :
    ((idleDemand.through (tooLate ++ faulted)).processes.get? 1 = some (firstProcess.ended (-1)) ∧
        Inert (idleDemand.through (tooLate ++ faulted)) 1) ∧
      ((idleStatic.through (tooLate ++ exited)).processes.get? 1 = some (firstProcess.ended 7) ∧
        Inert (idleStatic.through (tooLate ++ exited)) 1) ∧
      Mortal (idleStatic.through (twoSpawns.map .deed)) 1 firstProcess := by
  have hdemand : Booted demandConfig idleDemand := ⟨fun _ => .writable, 0, rfl⟩
  have hstatic : Booted roomyConfig idleStatic := ⟨fun _ => .writable, 0, rfl⟩
  have hfaulted : (idleDemand.through faulted).processes.get? 1 =
      some (firstProcess.ended (-1)) := by decide +kernel
  have hexited : (idleStatic.through exited).processes.get? 1 =
      some (firstProcess.ended 7) := by decide +kernel
  have hlive : (idleStatic.through (twoSpawns.map .deed)).processes.get? 1 =
      some firstProcess := by decide +kernel
  have hkept : .deed (.discard 1) ∉ tooLate := by simp [tooLate]
  refine ⟨?_, ?_, ?_⟩
  · obtain ⟨hend, -⟩ := termination_absorbing hdemand faulted tooLate (by decide) hfaulted
    exact (hend rfl).resolve_right fun hforgotten => hkept hforgotten.2
  · obtain ⟨hend, -⟩ := termination_absorbing hstatic exited tooLate (by decide) hexited
    exact (hend rfl).resolve_right fun hforgotten => hkept hforgotten.2
  · obtain ⟨-, hmortal⟩ :=
      termination_absorbing hstatic (twoSpawns.map .deed) [] (by decide) hlive
    exact hmortal rfl

end Kernel

end VirtualMemory
