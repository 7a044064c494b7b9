import VirtualMemory.Proofs.SwapAudit
import VirtualMemory.Proofs.SwapClosing
import VirtualMemory.Proofs.SwapTransfers
import Mathlib.Order.Bounds.Defs

/-!
# Calls of the swap

A run is a list of calls, between which the file may change in any way and begin to fail. What a
call does to the slots and marks of pages is `Call.booked`, and the file has no say in it: it
decides only what a call answers. So along every run, before the swap is closed, the slots of pages
and the free ones are all slots up to the capacity, each of them once, no pending page has a slot,
and the capacity is the largest number of slots that were in use at one time. The audit passes after
closing too.
-/

namespace VirtualMemory.Swapper

variable {s s' : Swapper} {key : PageKey}

/-! ## The next slot -/

/-- The slot for a page that has none: the first that was given back, or else a new one. -/
def nextSlot (s : Swapper) : Nat := s.freeSlots.headD s.capacity

/-- `s` after `key`, which had no slot, was given the next one. -/
def taking (s : Swapper) (key : PageKey) : Swapper :=
  s.giving key s.nextSlot s.freeSlots.tail
    (if s.freeSlots.isEmpty then s.capacity + 1 else s.capacity)

theorem allocateSlot_of_slotless (h : s.slot? key = none) :
    s.allocateSlot key = (s.nextSlot, s.taking key) := by
  unfold taking nextSlot
  cases hfree : s.freeSlots with
  | nil => exact allocateSlot_of_full h hfree
  | cons slot rest => exact allocateSlot_of_free h hfree

/-! ## Calls -/

inductive Call
  | markPending (key : PageKey)
  | allocateSlot (key : PageKey)
  | freeSlot (key : PageKey)
  | releaseProcess (pid : Pid)
  | readInto (key : PageKey) (length : Nat)
  | read (key : PageKey)
  | write (key : PageKey) (page : Bytes)
  | close
  /-- From now on the file is this one: it may hold other bytes and fail in other ways. -/
  | alterFile (file : BackingFile)
  deriving DecidableEq

def Call.run : Call → Op Swapper Empty Unit
  | .markPending key => modify (·.markPending key)
  | .allocateSlot key => modify fun s => (s.allocateSlot key).2
  | .freeSlot key => modify (·.freeSlot key)
  | .releaseProcess pid => modify (·.releaseProcess pid)
  | .readInto key length => do let _ ← Op.attempt (Swapper.readInto key length)
  | .read key => do let _ ← Op.attempt (Swapper.read key)
  | .write key page => do let _ ← Op.attempt (Swapper.write key page)
  | .close => Swapper.close
  | .alterFile file => modify fun s => { s with file := s.file.map fun _ => file }

/-- The swap after these calls, the latest of which comes first. -/
def after (s : Swapper) : List Call → Swapper
  | [] => s
  | call :: past => (call.run (s.after past)).state

/-! ## What a call does to the accounts -/

structure SameAccounts (s s' : Swapper) : Prop where
  pageSize : s'.pageSize = s.pageSize
  slots : s'.slots = s.slots
  pending : s'.pending = s.pending
  freeSlots : s'.freeSlots = s.freeSlots
  capacity : s'.capacity = s.capacity
  isOpen : s'.isOpen = s.isOpen

theorem SameAccounts.refl (s : Swapper) : SameAccounts s s := ⟨rfl, rfl, rfl, rfl, rfl, rfl⟩

theorem sameAccounts_recounted (s : Swapper) (counters : SwapCounters) :
    SameAccounts s (s.recounted counters) := ⟨rfl, rfl, rfl, rfl, rfl, rfl⟩

theorem WellFormed.sameAccounts (h : s.WellFormed) (hs : SameAccounts s s') : s'.WellFormed := by
  have hslot : ∀ k, s'.slot? k = s.slot? k := by
    intro k
    rw [slot?, slot?, hs.slots]
  constructor
  · intro k i hk
    rw [hs.capacity]
    exact h.slot_lt k i (hslot k ▸ hk)
  · intro k k' i hk hk'
    exact h.slot_unique k k' i (hslot k ▸ hk) (hslot k' ▸ hk')
  · exact hs.freeSlots ▸ h.free_nodup
  · rw [hs.freeSlots, hs.capacity]
    exact h.free_lt
  · intro i hi k
    rw [hslot]
    exact h.free_unused i (hs.freeSlots ▸ hi) k
  · intro hopen i hi
    simp only [hs.freeSlots, hslot]
    exact h.covered (hs.isOpen ▸ hopen) i (hs.capacity ▸ hi)
  · intro k hk
    rw [isPending, hs.pending] at hk
    rw [hslot]
    exact h.pending_slotless k hk

def Call.booked (s : Swapper) : Call → Swapper
  | .markPending key => s.markPending key
  | .allocateSlot key => (s.allocateSlot key).2
  | .freeSlot key => s.freeSlot key
  | .releaseProcess pid => s.releaseProcess pid
  | .write key page =>
    if page.length = s.pageSize ∧ s.isOpen = true then (s.allocateSlot key).2 else s
  | .close => s.shut
  | .readInto .. => s
  | .read _ => s
  | .alterFile _ => s

theorem isOpen_writing (s : Swapper) (file : BackingFile) (key : PageKey) (page : Bytes) :
    (s.writing file key page).isOpen = true := rfl

/-- A write that gets as far as the file leaves the accounts as assigning a slot does. -/
theorem sameAccounts_writing {file : BackingFile} (hfile : s.file = some file) (key : PageKey)
    (page : Bytes) : SameAccounts (s.allocateSlot key).2 (s.writing file key page) := by
  refine ⟨rfl, rfl, rfl, rfl, rfl, ?_⟩
  rw [isOpen_writing, isOpen_of_file ((file_allocateSlot s key).trans hfile)]

theorem Written.sameAccounts {page : Bytes} {r : Except MemoryError Nat}
    (h : Written s key page r s') : SameAccounts ((Call.write key page).booked s) s' := by
  have hbooked : page.length = s.pageSize → s.isOpen = true →
      (Call.write key page).booked s = (s.allocateSlot key).2 :=
    fun hsize hopen => if_pos ⟨hsize, hopen⟩
  cases h with
  | misfit hsize =>
    rw [Call.booked, if_neg fun h => hsize h.1]
    exact .refl s
  | closed _ hclosed =>
    rw [Call.booked, if_neg fun h => absurd h.2 (by rw [hclosed]; exact Bool.false_ne_true)]
    exact .refl s
  | failed hsize hfile _ =>
    rw [hbooked hsize (isOpen_of_file hfile)]
    exact sameAccounts_writing hfile key page
  | stored hsize hfile _ =>
    rw [hbooked hsize (isOpen_of_file hfile)]
    have hsame := sameAccounts_writing hfile key page
    exact ⟨hsame.pageSize, hsame.slots, hsame.pending, hsame.freeSlots, hsame.capacity,
      hsame.isOpen⟩

/-- Whatever the file does, the accounts after a call are what the call books. -/
theorem call_books (s : Swapper) (call : Call) :
    call.run.Ends s fun _ s' => SameAccounts (call.booked s) s' := by
  have hread : ∀ key length,
      (Swapper.readInto key length).Ends s fun _ s' => SameAccounts s s' := by
    intro key length
    refine (readInto_delivered s key length).imp ?_
    intro r s' hd
    obtain ⟨counters, rfl⟩ := hd.recounts
    exact sameAccounts_recounted s counters
  cases call with
  | readInto key length =>
    simp only [Call.run, Op.ends_bind, Op.ends_attempt, Op.ends_pure]
    exact hread key length
  | read key =>
    simp only [Call.run, Swapper.read, Op.ends_bind, Op.ends_attempt, Op.ends_get]
    refine (hread key s.pageSize).imp ?_
    rintro (e | found) s' hs
    · exact hs
    · exact hs
  | write key page =>
    simp only [Call.run, Op.ends_bind, Op.ends_attempt, Op.ends_pure]
    exact (write_written s key page).imp fun r s' hw => hw.sameAccounts
  | close =>
    refine (close_ends s).imp ?_
    rintro r s' ⟨-, rfl⟩
    exact .refl _
  | alterFile file => exact ⟨rfl, rfl, rfl, rfl, rfl, Option.isSome_map⟩
  | markPending key => exact .refl _
  | allocateSlot key => exact .refl _
  | freeSlot key => exact .refl _
  | releaseProcess pid => exact .refl _

theorem WellFormed.booked (h : s.WellFormed) (call : Call) : (call.booked s).WellFormed := by
  cases call with
  | markPending key => exact h.markAll [key]
  | allocateSlot key => exact (assigned_allocateSlot h key).wellFormed
  | freeSlot key => exact h.freeSlot key
  | releaseProcess pid => exact h.releaseProcess pid
  | write key page =>
    rw [Call.booked]
    split
    · exact (assigned_allocateSlot h key).wellFormed
    · exact h
  | close => exact h.shut
  | readInto key length => exact h
  | read key => exact h
  | alterFile file => exact h

theorem isOpen_booked (s : Swapper) {call : Call} (hopen : call ≠ .close) :
    (call.booked s).isOpen = s.isOpen := by
  have halloc : ∀ key, (s.allocateSlot key).2.isOpen = s.isOpen := by
    intro key
    rw [isOpen, isOpen, file_allocateSlot]
  cases call with
  | markPending key => exact (sameSlots_markAll s [key]).isOpen
  | allocateSlot key => exact halloc key
  | freeSlot key => exact (sameFile_freeSlot s key).isOpen
  | releaseProcess pid => exact isOpen_releaseProcess s pid
  | write key page =>
    rw [Call.booked]
    split
    · exact halloc key
    · rfl
  | close => exact absurd rfl hopen
  | readInto key length => rfl
  | read key => rfl
  | alterFile file => rfl

/-- The file grows by one slot at a time, and only while no slot is free. -/
theorem allocateSlot_grows (s : Swapper) (key : PageKey) :
    (s.allocateSlot key).2.capacity = s.capacity ∨
      (s.freeSlots = [] ∧ (s.allocateSlot key).2.freeSlots = [] ∧
        (s.allocateSlot key).2.capacity = s.capacity + 1) := by
  cases hslot : s.slot? key with
  | some slot =>
    rw [allocateSlot_of_slot hslot]
    exact Or.inl rfl
  | none =>
    cases hfree : s.freeSlots with
    | cons slot rest =>
      rw [allocateSlot_of_free hslot hfree]
      exact Or.inl rfl
    | nil =>
      rw [allocateSlot_of_full hslot hfree]
      exact Or.inr ⟨rfl, rfl, rfl⟩

theorem booked_grows (s : Swapper) (call : Call) :
    (call.booked s).capacity = s.capacity ∨
      (s.freeSlots = [] ∧ (call.booked s).freeSlots = [] ∧
        (call.booked s).capacity = s.capacity + 1) := by
  cases call with
  | markPending key => exact Or.inl (sameSlots_markAll s [key]).capacity
  | allocateSlot key => exact allocateSlot_grows s key
  | freeSlot key => exact Or.inl (sameFile_freeSlot s key).capacity
  | releaseProcess pid => exact Or.inl (sameFile_freeAll (s.unpending pid) _).capacity
  | write key page =>
    rw [Call.booked]
    split
    · exact allocateSlot_grows s key
    · exact Or.inl rfl
  | close => exact Or.inl s.capacity_shut
  | readInto key length => exact Or.inl rfl
  | read key => exact Or.inl rfl
  | alterFile file => exact Or.inl rfl

/-! ## Calls in a row -/

theorem after_books (s : Swapper) (call : Call) (past : List Call) :
    SameAccounts (call.booked (s.after past)) (s.after (call :: past)) :=
  call_books (s.after past) call

theorem WellFormed.after (h : s.WellFormed) (calls : List Call) : (s.after calls).WellFormed := by
  induction calls with
  | nil => exact h
  | cons call past ih => exact (ih.booked call).sameAccounts (after_books s call past)

theorem isOpen_after (s : Swapper) {calls : List Call} (hopen : .close ∉ calls) :
    (s.after calls).isOpen = s.isOpen := by
  induction calls with
  | nil => rfl
  | cons call past ih =>
    have hcall : call ≠ .close := Ne.symm (List.ne_of_not_mem_cons hopen)
    rw [(after_books s call past).isOpen, isOpen_booked _ hcall,
      ih (List.not_mem_of_not_mem_cons hopen)]

/-- The numbers of slots that were in use at some time of a run. -/
def uses (s : Swapper) (calls : List Call) : Set Nat :=
  {n | ∃ past, past <:+ calls ∧ (s.after past).slots.size = n}

/-- The file never grows further than was needed at some time. -/
theorem capacity_isGreatest (file : BackingFile) (pageSize : Nat) {calls : List Call}
    (hopen : .close ∉ calls) :
    IsGreatest ((ofFile file pageSize).uses calls)
      ((ofFile file pageSize).after calls).capacity := by
  induction calls with
  | nil =>
    refine ⟨⟨[], List.suffix_refl [], rfl⟩, ?_⟩
    rintro n ⟨past, hpast, rfl⟩
    obtain rfl := List.suffix_nil.mp hpast
    exact Nat.le_refl 0
  | cons call past ih =>
    obtain ⟨⟨peak, hpeak, hreached⟩, hbound⟩ := ih (List.not_mem_of_not_mem_cons hopen)
    have hbooks := after_books (ofFile file pageSize) call past
    have hcount : ((ofFile file pageSize).after (call :: past)).slots.size +
        ((ofFile file pageSize).after (call :: past)).freeSlots.length =
          ((ofFile file pageSize).after (call :: past)).capacity :=
      ((wellFormed_ofFile file pageSize).after _).count_slots (isOpen_after _ hopen)
    have hgrows := booked_grows ((ofFile file pageSize).after past) call
    rw [← hbooks.capacity, ← hbooks.freeSlots] at hgrows
    constructor
    · rcases hgrows with hsame | ⟨-, hfull, -⟩
      · exact ⟨peak, hpeak.trans (List.suffix_cons call past), hreached.trans hsame.symm⟩
      · -- no slot is free after the file grew, so all of them are in use now
        rw [hfull, List.length_nil] at hcount
        exact ⟨call :: past, List.suffix_refl _, hcount⟩
    · rintro n ⟨before, hbefore, rfl⟩
      rcases List.suffix_cons_iff.mp hbefore with rfl | hbefore
      · omega
      · have hle := hbound ⟨before, hbefore, rfl⟩
        omega

/-- What the accounts of an open swap say of its slots. -/
structure Accounted (s : Swapper) : Prop where
  /-- Slots of pages and free slots are all slots, each of them once. -/
  partition : (s.slots.values ++ s.freeSlots).Perm (List.range s.capacity)
  slotless : ∀ key, s.isPending key = true → s.slot? key = none
  /-- No call makes the file grow while a slot is free. -/
  reuses : s.freeSlots ≠ [] → ∀ call, (s.after [call]).capacity = s.capacity

theorem WellFormed.accounted (h : s.WellFormed) (hopen : s.isOpen = true) : s.Accounted where
  partition := h.slots_perm hopen
  slotless := h.pending_slotless
  reuses := by
    intro hfree call
    rw [(after_books s call []).capacity]
    exact (booked_grows s call).resolve_right fun hgrown => hfree hgrown.1

/-- Whatever is called and however the file fails: the audit passes, and until the swap is closed
every slot is accounted for and as many were in use at one time as the file has. -/
theorem slots_accounted (file : BackingFile) (pageSize : Nat) (calls : List Call) :
    (((ofFile file pageSize).after calls).audit () : Outcome Unit MemoryError Unit).result =
        .ok () ∧
      (.close ∉ calls → ((ofFile file pageSize).after calls).Accounted ∧
        IsGreatest ((ofFile file pageSize).uses calls)
          ((ofFile file pageSize).after calls).capacity) := by
  have h := (wellFormed_ofFile file pageSize).after calls
  refine ⟨audit_ends h (), ?_⟩
  intro hopen
  exact ⟨h.accounted (isOpen_after _ hopen), capacity_isGreatest file pageSize hopen⟩

/-- A page is written and its slot given back; a marked page takes the slot, but the file fails to
store it. -/
def reusing : List Call :=
  [.write ⟨2, 0⟩ [7, 7, 7, 7],
    .alterFile (.faulty {} { write := some .ioFailure }),
    .freeSlot ⟨1, 0⟩,
    .write ⟨1, 0⟩ [5, 5, 5, 5],
    .markPending ⟨2, 0⟩]

theorem slots_accounted_reusing :
    .close ∉ reusing ∧ ((ofFile (.memory {}) 4).after reusing).capacity = 1 ∧
      ((ofFile (.memory {}) 4).after reusing).Accounted ∧
      IsGreatest ((ofFile (.memory {}) 4).uses reusing) 1 := by
  have hopen : .close ∉ reusing := by decide
  have hcapacity : ((ofFile (.memory {}) 4).after reusing).capacity = 1 := by decide +kernel
  obtain ⟨haccounted, hgreatest⟩ := (slots_accounted (.memory {}) 4 reusing).2 hopen
  exact ⟨hopen, hcapacity, haccounted, hcapacity ▸ hgreatest⟩

end VirtualMemory.Swapper
