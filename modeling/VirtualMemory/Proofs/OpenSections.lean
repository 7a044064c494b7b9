import VirtualMemory.Interrupts
import Mathlib.Data.Finset.Card

/-!
# Interrupts are on exactly while no section is open

Locks that share one flag, and sections without a lock, open and close in any order; a section that
opened later may close earlier. `Counted` says that the depth is the number of sections that are
open, and `Counted.locked`, `Counted.dropped`, `Counted.disabled` and `Counted.restored` say so of
each step. What a section found when it opened plays no part in it, which is why the flag is right
although the answers are stale by the time they are given back.
-/

namespace VirtualMemory

namespace IrqLock

variable {α : Type}

theorem held_lock (l : IrqLock α) (i : Interrupts) : (l.lock i).1.held = true := rfl

theorem depth_lock (l : IrqLock α) (i : Interrupts) : (l.lock i).2.depth = i.depth + 1 := rfl

theorem tryLock_of_free {l : IrqLock α} (h : l.held = false) (i : Interrupts) :
    l.tryLock i = (true, l.lock i) := by
  simp [tryLock, h]

/-- A refusal leaves the lock and the depth as they were. -/
theorem tryLock_of_held {l : IrqLock α} (h : l.held = true) (i : Interrupts) :
    l.tryLock i = (false, l, { i with disables := i.disables + 1 }) := by
  simp [tryLock, h, Interrupts.disable, Interrupts.restore]

theorem unlock_of_held {l : IrqLock α} (h : l.held = true) (i : Interrupts) :
    (l.unlock i).1.held = false ∧ (l.unlock i).2.depth = i.depth - 1 := by
  obtain ⟨wasEnabled, hs⟩ := Option.isSome_iff_exists.mp h
  simp only [unlock, hs]
  exact ⟨rfl, rfl⟩

end IrqLock

/-- Locks that share one flag, and what the sections without a lock found that are still open. -/
structure Sections (ι : Type) (α : ι → Type) where
  interrupts : Interrupts
  locks : (i : ι) → IrqLock (α i)
  found : List Bool

namespace Sections

variable {ι : Type} {α : ι → Type} {s : Sections ι α}

/-- No lock is held, and no section is open without one. -/
def NoneOpen (s : Sections ι α) : Prop := (∀ i, (s.locks i).held = false) ∧ s.found = []

/-- The depth is the number of the held locks and of the other open sections. -/
structure Counted (s : Sections ι α) (held : Finset ι) : Prop where
  mem_iff : ∀ i, i ∈ held ↔ (s.locks i).held = true
  depth : s.interrupts.depth = held.card + s.found.length

/-- Interrupts are on exactly while nobody asks for them to be off. -/
theorem Counted.enabled_iff {held : Finset ι} (h : s.Counted held) :
    s.interrupts.enabled = true ↔ s.NoneOpen := by
  have hnone : held = ∅ ↔ ∀ i, (s.locks i).held = false := by
    rw [Finset.eq_empty_iff_forall_notMem]
    exact forall_congr' fun i => by rw [h.mem_iff, Bool.not_eq_true]
  rw [Interrupts.enabled, beq_iff_eq, h.depth, Nat.add_eq_zero_iff, Finset.card_eq_zero,
    List.length_eq_zero_iff, hnone, NoneOpen]

/-! ## Sections without a lock -/

/-- Opens a section without a lock, and answers what it found. -/
def disable (s : Sections ι α) : Bool × Sections ι α :=
  let (wasEnabled, interrupts) := s.interrupts.disable
  (wasEnabled, { s with interrupts, found := wasEnabled :: s.found })

/-- Closes the section at position `j`, giving back what it found. -/
def restore (s : Sections ι α) (j : Nat) (h : j < s.found.length) : Sections ι α :=
  { s with interrupts := s.interrupts.restore s.found[j], found := s.found.eraseIdx j }

theorem Counted.disabled {held : Finset ι} (h : s.Counted held) : s.disable.2.Counted held where
  mem_iff := h.mem_iff
  depth := congrArg (· + 1) h.depth

/-- Restoring takes one disable off the count, whichever was made last. -/
theorem Counted.restored {held : Finset ι} (h : s.Counted held) {j : Nat}
    (hj : j < s.found.length) : (s.restore j hj).Counted held where
  mem_iff := h.mem_iff
  depth := by
    have hdepth : (s.restore j hj).interrupts.depth = s.interrupts.depth - 1 := rfl
    have hfound : (s.restore j hj).found = s.found.eraseIdx j := rfl
    rw [hdepth, hfound, h.depth, List.length_eraseIdx_of_lt hj]
    omega

/-! ## Guards -/

variable [DecidableEq ι]

/-- What remains when lock `i` and the flag have become these. -/
def putLock (s : Sections ι α) (i : ι) (after : IrqLock (α i) × Interrupts) : Sections ι α :=
  { s with locks := Function.update s.locks i after.1, interrupts := after.2 }

def lock (s : Sections ι α) (i : ι) : Sections ι α := s.putLock i ((s.locks i).lock s.interrupts)

def tryLock (s : Sections ι α) (i : ι) : Bool × Sections ι α :=
  let (taken, after) := (s.locks i).tryLock s.interrupts
  (taken, s.putLock i after)

def drop (s : Sections ι α) (i : ι) : Sections ι α := s.putLock i ((s.locks i).unlock s.interrupts)

variable {held : Finset ι}

theorem held_putLock (s : Sections ι α) (i j : ι) (after : IrqLock (α i) × Interrupts) :
    ((s.putLock i after).locks j).held = if j = i then after.1.held else (s.locks j).held := by
  simp only [putLock]
  by_cases h : j = i
  · subst h
    simp
  · simp [h]

theorem Counted.locked (h : s.Counted held) {i : ι} (hfree : (s.locks i).held = false) :
    (s.lock i).Counted (insert i held) where
  mem_iff j := by
    rw [lock, held_putLock, Finset.mem_insert, h.mem_iff, IrqLock.held_lock]
    by_cases hj : j = i <;> simp [hj]
  depth := by
    have hnew : i ∉ held := by simp [h.mem_iff, hfree]
    have hdepth : (s.lock i).interrupts.depth = s.interrupts.depth + 1 :=
      IrqLock.depth_lock (s.locks i) s.interrupts
    have hfound : (s.lock i).found = s.found := rfl
    rw [hdepth, hfound, h.depth, Finset.card_insert_of_notMem hnew]
    omega

/-- A lock that is held is not taken, and the disable made for it is undone. -/
theorem Counted.refused (h : s.Counted held) {i : ι} (hheld : (s.locks i).held = true) :
    (s.tryLock i).2.Counted held where
  mem_iff j := by
    rw [tryLock, IrqLock.tryLock_of_held hheld, held_putLock, h.mem_iff]
    by_cases hj : j = i
    · subst hj
      simp
    · simp [hj]
  depth := by
    rw [tryLock, IrqLock.tryLock_of_held hheld]
    exact h.depth

/-- A guard may be dropped out of order: the count is all that matters. -/
theorem Counted.dropped (h : s.Counted held) {i : ι} (hheld : (s.locks i).held = true) :
    (s.drop i).Counted (held.erase i) where
  mem_iff j := by
    rw [drop, held_putLock, Finset.mem_erase, h.mem_iff, (IrqLock.unlock_of_held hheld _).1]
    by_cases hj : j = i <;> simp [hj]
  depth := by
    have hmem : i ∈ held := (h.mem_iff i).mpr hheld
    have hpos : 0 < held.card := Finset.card_pos.mpr ⟨i, hmem⟩
    have hdepth : (s.drop i).interrupts.depth = s.interrupts.depth - 1 :=
      (IrqLock.unlock_of_held hheld _).2
    have hfound : (s.drop i).found = s.found := rfl
    rw [hdepth, hfound, h.depth, Finset.card_erase_of_mem hmem]
    omega

/-! ## Every run -/

/-- What can come about from free locks. A guard is dropped once, a section without a lock is closed
once with what it found, in whatever order, and nobody waits for a held lock. -/
inductive Reached : Sections ι α → Prop
  | start {locks : (i : ι) → IrqLock (α i)} (h : ∀ i, (locks i).held = false) :
    Reached ⟨{}, locks, []⟩
  | locked {s : Sections ι α} (i : ι) (hfree : (s.locks i).held = false) (h : Reached s) :
    Reached (s.lock i)
  | tried {s : Sections ι α} (i : ι) (h : Reached s) : Reached (s.tryLock i).2
  | dropped {s : Sections ι α} (i : ι) (hheld : (s.locks i).held = true) (h : Reached s) :
    Reached (s.drop i)
  | disabled {s : Sections ι α} (h : Reached s) : Reached s.disable.2
  | restored {s : Sections ι α} (j : Nat) (hj : j < s.found.length) (h : Reached s) :
    Reached (s.restore j hj)

theorem tryLock_of_free {i : ι} (hfree : (s.locks i).held = false) :
    s.tryLock i = (true, s.lock i) := by
  rw [tryLock, IrqLock.tryLock_of_free hfree]
  rfl

/-- Every state that is reached counts the locks held and the disables outstanding. -/
theorem Reached.counted (h : Reached s) : ∃ held, s.Counted held := by
  induction h with
  | start hfree => exact ⟨∅, fun i => by simp [hfree], rfl⟩
  | locked i hfree _ ih =>
    obtain ⟨held, hc⟩ := ih
    exact ⟨_, hc.locked hfree⟩
  | @tried s i _ ih =>
    obtain ⟨held, hc⟩ := ih
    cases hheld : (s.locks i).held with
    | false =>
      rw [tryLock_of_free hheld]
      exact ⟨_, hc.locked hheld⟩
    | true => exact ⟨_, hc.refused hheld⟩
  | dropped i hheld _ ih =>
    obtain ⟨held, hc⟩ := ih
    exact ⟨_, hc.dropped hheld⟩
  | disabled _ ih =>
    obtain ⟨held, hc⟩ := ih
    exact ⟨_, hc.disabled⟩
  | restored j hj _ ih =>
    obtain ⟨held, hc⟩ := ih
    exact ⟨_, hc.restored hj⟩

/-- Wherever a run has come to, interrupts are on exactly if no section is open. A section that
opens is told whether they are, and a lock that is refused leaves them so. The depth is the number
of open sections, so a counter of 64 bits holds it while fewer than `2 ^ 64` are open. -/
theorem enabled_iff_none_open (h : Reached s) :
    (s.interrupts.enabled = true ↔ s.NoneOpen) ∧
      (s.disable.1 = true ↔ s.interrupts.enabled = true) ∧
      (∀ i, (s.tryLock i).1 = true ↔ (s.locks i).held = false) ∧
      (∀ i, (s.tryLock i).1 = false →
        (s.tryLock i).2.interrupts.enabled = s.interrupts.enabled ∧
          (s.tryLock i).2.interrupts.depth = s.interrupts.depth ∧
          (s.tryLock i).2.locks = s.locks) ∧
      ∃ held : Finset ι, (∀ i, i ∈ held ↔ (s.locks i).held = true) ∧
        s.interrupts.depth = held.card + s.found.length := by
  obtain ⟨held, hc⟩ := h.counted
  refine ⟨hc.enabled_iff, Iff.rfl, fun i => ?_, fun i => ?_, held, hc.mem_iff, hc.depth⟩
  · cases hheld : (s.locks i).held with
    | false => simp [tryLock_of_free hheld]
    | true => simp [tryLock, IrqLock.tryLock_of_held hheld]
  · cases hheld : (s.locks i).held with
    | false => simp [tryLock_of_free hheld]
    | true =>
      intro _
      rw [tryLock, IrqLock.tryLock_of_held hheld]
      refine ⟨rfl, rfl, ?_⟩
      simp [putLock]

def twoLocks : Sections Bool fun _ => Nat := ⟨{}, fun _ => ⟨0, none⟩, []⟩

/-- Within the first lock a section opens and the second lock is taken. A second taker of the first
lock is refused, and the lock is given back before the section closes. -/
def overlapped : Sections Bool fun _ => Nat :=
  (((twoLocks.lock false).disable.2.lock true).tryLock false).2.drop false

/-- The section that found interrupts off, and then the second lock, are closed too. -/
def overlapClosed : Sections Bool fun _ => Nat := (overlapped.restore 0 (by decide)).drop true

theorem reached_overlapped : overlapped.Reached := by
  have hfirst : (twoLocks.lock false).Reached := .locked false rfl (.start fun _ => rfl)
  have hsecond : ((twoLocks.lock false).disable.2.lock true).Reached :=
    .locked true rfl (.disabled hfirst)
  exact .dropped false rfl (.tried false hsecond)

theorem reached_overlapClosed : overlapClosed.Reached :=
  .dropped true rfl (.restored 0 (by decide) reached_overlapped)

theorem enabled_iff_none_open_overlapped :
    (overlapped.found = [false] ∧ overlapped.interrupts.enabled = false ∧ ¬ overlapped.NoneOpen) ∧
      ((overlapped.tryLock true).1 = false ∧
        (overlapped.tryLock true).2.interrupts.enabled = false) ∧
      overlapClosed.interrupts.enabled = true ∧ overlapClosed.NoneOpen := by
  obtain ⟨hiff, -, -, hrefused, -⟩ := enabled_iff_none_open reached_overlapped
  have hoff : overlapped.interrupts.enabled = false := rfl
  refine ⟨⟨rfl, hoff, fun hnone => ?_⟩, ⟨rfl, (hrefused true rfl).1⟩, rfl,
    (enabled_iff_none_open reached_overlapClosed).1.mp rfl⟩
  rw [hiff.mpr hnone] at hoff
  cases hoff

end Sections

end VirtualMemory
