import VirtualMemory.Proofs.Pager.Run
import VirtualMemory.Proofs.SwapClosing

/-!
# Closing the swap

Closing takes the file away, and with it the slots and the marks of all pages. Table, frames and
cache stay as they were, and processes may go on. `Reached` are the pagers that come about when the
swap may be closed at any time; the invariant holds of all of them.
-/

namespace VirtualMemory.Pager

variable {p : Pager} {c : Config}

def closed (p : Pager) : Pager := { p with swap := p.swap.shut }

theorem close_ends (p : Pager) : close.Ends p fun r p' => r = .ok () ∧ p' = p.closed := by
  rw [close, Op.ends_on]
  refine (Swapper.close_ends p.swap).imp ?_
  rintro r s ⟨rfl, rfl⟩
  exact ⟨rfl, rfl⟩

theorem not_isOpen_closed (p : Pager) : ¬ p.closed.swap.isOpen = true := by
  rw [show p.closed.swap.isOpen = false from p.swap.isOpen_shut]
  exact Bool.false_ne_true

/-- What closing takes from the invariant was promised of an open swap only. -/
theorem WellFormed.closed (h : p.WellFormed none) : p.closed.WellFormed none where
  sized := by
    have hz := h.sized
    exact ⟨hz.geometry, hz.pages, hz.memory, hz.store, hz.residences, hz.processor,
      p.swap.pageSize_shut.trans hz.swap, hz.slots⟩
  table := h.table
  frames := h.frames
  swap := h.swap.shut
  distinct := h.distinct
  free_iff := h.free_iff
  held_apart := h.held_apart
  entries := fun key e he =>
    (h.entries key e he).congr rfl fun hopen => absurd hopen p.not_isOpen_closed
  cached := fun key e he =>
    ⟨(h.cached key e he).1.congr rfl fun hopen => absurd hopen p.not_isOpen_closed,
      (h.cached key e he).2⟩
  slotted := fun key i hi =>
    ⟨(h.slotted key i (Swapper.slot?_of_shut hi)).1, fun hopen => absurd hopen p.not_isOpen_closed⟩
  pending := fun key hp => h.pending key (Swapper.isPending_of_shut hp)
  unpended := fun hopen => absurd hopen p.not_isOpen_closed

/-! ## Pagers of the past -/

/-- Pagers of an accepted configuration after any events, among which the swap may be closed. -/
inductive Reached (c : Config) : Pager → Prop
  | created {p : Pager} (h : Created c p) : Reached c p
  | stepped {p : Pager} (event : Event) (h : Reached c p) : Reached c (p.stepOf event).after
  | closed {p : Pager} (h : Reached c p) : Reached c (close p).state

theorem Reached.wellFormed (h : Reached c p) : p.WellFormed none := by
  induction h with
  | created h => exact h.wellFormed.1
  | stepped event _ ih => exact (ih.stepOf event).1
  | @closed p _ ih =>
    obtain ⟨-, hclosed⟩ := close_ends p
    rw [hclosed]
    exact ih.closed

/-- Every run before closing is among them. -/
theorem Reached.after (h : Reached c p) (events : List Event) : Reached c (p.after events) := by
  induction events with
  | nil => exact h
  | cons event past ih => exact .stepped event ih

/-! ## Runs in which the swap is closed -/

inductive Action
  | event (event : Event)
  /-- The swap is closed. -/
  | close

def act (p : Pager) : Action → Pager
  | .event event => (p.stepOf event).after
  | .close => (close p).state

/-- The pager after these actions, the latest of which is the first in the list. -/
def afterAll (p : Pager) : List Action → Pager
  | [] => p
  | action :: past => (p.afterAll past).act action

theorem act_close (p : Pager) : p.act .close = p.closed := (close_ends p).2

theorem WellFormed.act (h : p.WellFormed none) (action : Action) :
    (p.act action).WellFormed none := by
  cases action with
  | event event => exact (h.stepOf event).1
  | close =>
    rw [act_close]
    exact h.closed

theorem WellFormed.afterAll (h : p.WellFormed none) (actions : List Action) :
    (p.afterAll actions).WellFormed none := by
  induction actions with
  | nil => exact h
  | cons action past ih => exact ih.act action

/-! ## A pager with two frames -/

/-- Two frames of four bytes, two cache slots, and a swap in memory. -/
def pairConfig : Config :=
  { pageSize := 4, physPages := 2, tlbSize := 2, swap := .memory, seed := some 0 }

def pair : Pager := initial pairConfig (.seeded 0) 2 (.zeroed 2 4) (.ofFile (.memory {}) 4)

theorem created_pair : Created pairConfig pair :=
  ⟨fun _ => .writable, 0, 2, .zeroed 2 4, rfl, rfl⟩

/-- A page of text that is read-only and full of zeros, and two pages of data, the second of which
cannot be read. -/
def textAndData : ImageIndex :=
  ⟨.scripted [⟨"text", 0, 1, true⟩, ⟨"data", 1, 2, false⟩] [((1, 1), .invariantViolation)] ⟨0⟩,
    [⟨0, 0, true⟩, ⟨1, 0, false⟩, ⟨1, 1, false⟩]⟩

/-- A page of data comes into frame 0, and the text into frame 1. -/
def neighbours : List Event := [.miss 1 ⟨0⟩, .miss 1 ⟨4⟩, .register 1 3 (some textAndData)]

/-- A write to the last two bytes of the page of data goes on into the text. -/
def overrun : List Event := .write 1 ⟨6⟩ [9, 9, 9, 9] :: neighbours

end VirtualMemory.Pager
