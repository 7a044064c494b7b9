import VirtualMemory.Proofs.Pager.FailedFault

/-!
# Taking a space down leaves nothing behind

A page can have left traces in the table and its reverse map, in the free list, in the cache, in the
slots of the swap and among the pending pages; a slot may even stem from a write that failed. Taking
down a space wipes out those of its process and touches no others. So once every space is gone, all
frames and all slots are free again, whatever happened in between.
-/

namespace VirtualMemory.Pager

variable {p p' p₁ : Pager} {pid : Pid} {event : Event} {answer : Answer} {c : Config}

/-! ## One process -/

/-- `p'` is `p` without everything that process `pid` had, and nothing else of a page is missing. -/
structure TornDown (p p' : Pager) (pid : Pid) : Prop where
  space : p'.spaces.get? pid = none
  entries : ∀ vpn, p'.table.lookup ⟨pid, vpn⟩ = none
  cacheSlots : ∀ slot ∈ p'.tlb.slots, slot.valid = true → slot.asid ≠ pid
  swapSlots : ∀ vpn, p'.swap.slot? ⟨pid, vpn⟩ = none
  pending : ∀ vpn, p'.swap.isPending ⟨pid, vpn⟩ = false
  /-- Its frames are free. -/
  frames : ∀ ppn, p'.frames.isFree ppn = true ↔
    p.frames.isFree ppn = true ∨ ∃ vpn, p.frame? ⟨pid, vpn⟩ = some ppn
  /-- Its swap slots are free. -/
  freeSlots : ∀ i, i ∈ p'.swap.freeSlots ↔
    i ∈ p.swap.freeSlots ∨ ∃ vpn, p.swap.slot? ⟨pid, vpn⟩ = some i
  otherSpaces : ∀ q, q ≠ pid → p'.spaces.get? q = p.spaces.get? q
  otherEntries : ∀ k, k.pid ≠ pid → p'.table.lookup k = p.table.lookup k
  otherOwners : ∀ ppn k, k.pid ≠ pid →
    (p'.table.owner? ppn = some k ↔ p.table.owner? ppn = some k)
  otherCacheSlots : ∀ (i : Nat) (slot : TlbSlot), slot.asid ≠ pid →
    (p'.tlb.slots[i]? = some slot ↔ p.tlb.slots[i]? = some slot)
  otherSwapSlots : ∀ k, k.pid ≠ pid → p'.swap.slot? k = p.swap.slot? k
  otherPending : ∀ k, k.pid ≠ pid → p'.swap.isPending k = p.swap.isPending k
  /-- No byte of memory or of the swap file changes. -/
  memory : p'.memory = p.memory
  file : p'.swap.file = p.swap.file
  slotSize : p'.swap.pageSize = p.swap.pageSize

/-- The slots of a process lose their valid flag, the others stay where they are. -/
theorem slots_invalidateAsid (t : Tlb) (pid : Pid) :
    (∀ slot ∈ (t.invalidateAsid pid).2.slots, slot.valid = true → slot.asid ≠ pid) ∧
      ∀ (i : Nat) (slot : TlbSlot), slot.asid ≠ pid →
        ((t.invalidateAsid pid).2.slots[i]? = some slot ↔ t.slots[i]? = some slot) := by
  rw [Tlb.invalidateAsid, Tlb.slots_invalidateWhere]
  constructor
  · intro slot hmem hv hasid
    obtain ⟨old, -, rfl⟩ := List.mem_map.mp hmem
    split at hv
    · cases hv
    next hkept =>
      rw [if_neg hkept] at hasid
      exact hkept (by rw [hv, hasid, beq_self_eq_true, Bool.and_self])
  · intro i slot hother
    rw [List.getElem?_map]
    cases t.slots[i]? with
    | none => exact Iff.rfl
    | some old =>
      rw [Option.map_some]
      split
      next hswept =>
        -- a swept slot has the identifier of the process, before and after
        have hasid : old.asid = pid := by
          rw [Bool.and_eq_true, beq_iff_eq] at hswept
          exact hswept.2
        constructor
        · rintro ⟨⟩
          exact absurd hasid hother
        · rintro ⟨⟩
          exact absurd hasid hother
      next => exact Iff.rfl

/-- Taking down goes through its stages without touching what other processes have. -/
theorem Emptied.tornDown (h : p.WellFormed none)
    (hempty : Emptied (p.setTlb (p.tlb.invalidateAsid pid).2) p₁ pid)
    (hnone : ∀ vpn, p₁.table.lookup ⟨pid, vpn⟩ = none) : TornDown p (p₁.forgotten pid) pid := by
  have h₁ := hempty.wellFormed
  have htlb : (p₁.forgotten pid).tlb = (p.tlb.invalidateAsid pid).2 := hempty.tlb
  have hswap : p₁.swap = p.swap := hempty.swap
  have hframes : ∀ ppn k, p₁.frame? k = some ppn ↔ k.pid ≠ pid ∧ p.frame? k = some ppn := by
    intro ppn k
    rw [h₁.frame?_eq, h.frame?_eq]
    by_cases hk : k.pid = pid
    · obtain ⟨q, vpn⟩ := k
      obtain rfl : q = pid := hk
      simp [hnone vpn]
    · rw [hempty.others k hk, and_iff_right hk]
      rfl
  constructor
  · exact (OrderedMap.get?_erase _ _ _).trans (if_pos rfl)
  · exact hnone
  · rw [htlb]
    exact (slots_invalidateAsid p.tlb pid).1
  · intro vpn
    exact (Swapper.slot?_releaseProcess p₁.swap pid _).trans (if_pos rfl)
  · intro vpn
    rw [Bool.eq_false_iff]
    intro hp
    exact ((Swapper.isPending_releaseProcess p₁.swap pid _).mp hp).1 rfl
  · intro ppn
    rw [show (p₁.forgotten pid).frames = p₁.frames from rfl, h₁.isFree_iff, h.isFree_iff,
      hempty.elsewhere.total]
    constructor
    · rintro ⟨hlt, hunused⟩
      by_cases hused : ∃ k, p.frame? k = some ppn
      · obtain ⟨⟨q, vpn⟩, hk⟩ := hused
        have hq : q = pid := by
          by_contra hq
          exact hunused _ ((hframes ppn ⟨q, vpn⟩).mpr ⟨hq, hk⟩)
        exact Or.inr ⟨vpn, hq ▸ hk⟩
      · exact Or.inl ⟨hlt, fun k hk => hused ⟨k, hk⟩⟩
    · rintro (⟨hlt, hunused⟩ | ⟨vpn, hf⟩)
      · exact ⟨hlt, fun k hk => hunused k ((hframes ppn k).mp hk).2⟩
      · refine ⟨h.lt_of_frame? hf, ?_⟩
        intro k hk
        obtain ⟨hother, hk⟩ := (hframes ppn k).mp hk
        have howner := h.owner_of_frame? hk
        rw [h.owner_of_frame? hf] at howner
        exact hother (congrArg PageKey.pid (Option.some.inj howner)).symm
  · intro i
    refine Swapper.mem_freeSlots_releaseProcess.trans ?_
    rw [hswap]
    refine or_congr_right ?_
    constructor
    · rintro ⟨⟨_, vpn⟩, rfl, hi⟩
      exact ⟨vpn, hi⟩
    · rintro ⟨vpn, hi⟩
      exact ⟨_, rfl, hi⟩
  · intro q hq
    refine (OrderedMap.get?_erase _ _ _).trans ((if_neg hq).trans ?_)
    rw [hempty.spaces]
    rfl
  · exact hempty.others
  · intro ppn k hk
    rw [show (p₁.forgotten pid).table = p₁.table from rfl, h₁.table.owner_iff, h.table.owner_iff,
      hempty.others k hk]
    rfl
  · rw [htlb]
    exact (slots_invalidateAsid p.tlb pid).2
  · intro k hk
    exact (Swapper.slot?_releaseProcess p₁.swap pid k).trans ((if_neg hk).trans (by rw [hswap]))
  · intro k hk
    rw [Bool.eq_iff_iff, ← hswap]
    exact (Swapper.isPending_releaseProcess p₁.swap pid k).trans (and_iff_right hk)
  · exact hempty.memory
  · exact (Swapper.file_releaseProcess p₁.swap pid).trans (congrArg Swapper.file hswap)
  · exact (Swapper.pageSize_releaseProcess p₁.swap pid).trans (congrArg Swapper.pageSize hswap)

theorem teardown_tornDown (h : p.WellFormed none) (pid : Pid) :
    (teardown pid).Ends p fun r p' => r = .ok () ∧ TornDown p p' pid := by
  refine (teardown_stages h pid).imp ?_
  rintro r p' ⟨rfl, p₁, hempty, hnone, rfl⟩
  exact ⟨rfl, hempty.tornDown h hnone⟩

/-! ## All processes -/

/-- Whether process `pid` has a space after an event, if `had` says so for before. -/
def hasSpaceAfter (pid : Pid) (had : Bool) : Event → Answer → Bool
  | .register q _ _, .registered (.ok _) => q == pid || had
  | .teardown q, _ => q != pid && had
  | _, _ => had

/-- A space was registered for process `pid` and not taken down since, by these steps, the latest
first. -/
def hasSpace (pid : Pid) : List Step → Bool
  | [] => false
  | s :: past => hasSpaceAfter pid (hasSpace pid past) s.event s.answer

theorem hasSpaceAfter_of_keepsSpaces (hkeeps : event.KeepsSpaces answer) (pid : Pid) (had : Bool) :
    hasSpaceAfter pid had event answer = had := by
  unfold hasSpaceAfter
  split
  · exact hkeeps.elim
  · exact hkeeps.elim
  · rfl

theorem Effect.hasSpace (he : Effect p event answer p') (pid : Pid) :
    (p'.extent pid).isSome = hasSpaceAfter pid (p.extent pid).isSome event answer := by
  cases he.outline with
  | steady hkeeps h => rw [hasSpaceAfter_of_keepsSpaces hkeeps, h.extent]
  | @registered q =>
    rw [extent_registered, hasSpaceAfter]
    by_cases hq : pid = q
    · simp [hq]
    · simp [hq, Ne.symm hq]
  | @tornDown q _ h hgone =>
    rw [hasSpaceAfter]
    by_cases hq : pid = q
    · simp [hq, hgone]
    · simp [h.extent pid hq, Ne.symm hq]
  | swapFaults => rfl
  | imageFaults => exact (undisturbed_withImageFaults p _ _).spaces pid

/-- The steps of a run say which processes have a space at its end. -/
theorem hasSpace_history (hc : Created c p) (events : List Event) (pid : Pid) :
    hasSpace pid (p.history events) = ((p.after events).extent pid).isSome := by
  obtain ⟨h, hext, -⟩ := hc.wellFormed
  induction events with
  | nil =>
    rw [after, hext]
    rfl
  | cons event past ih =>
    rw [history, hasSpace, ih]
    exact (((h.after past).stepOf event).2.hasSpace pid).symm

structure Vacant (p : Pager) (pages : Nat) : Prop where
  /-- All frames, unless they are more than a word counts. -/
  freePages : p.freePages = if pages < 0x100000000 then pages else 0
  frames : ∀ ppn, p.frames.isFree ppn = true ↔ ppn.toNat < pages
  entries : p.table.entries = .empty
  residentPages : p.residentPages = 0
  cacheSlots : ∀ slot ∈ p.tlb.slots, slot.valid = false
  pending : p.swap.pending = .empty
  swapSlots : p.swap.slots = .empty
  freeSlots : p.swap.freeSlots.length = p.swap.capacity

theorem WellFormed.vacant (h : p.WellFormed none) (hopen : p.swap.isOpen = true)
    (hext : ∀ pid, p.extent pid = none) : Vacant p p.frames.total := by
  have hframe : ∀ k, p.frame? k = none := fun k => h.frame?_none (hext k.pid)
  have hlookup : ∀ k, p.table.lookup k = none := fun k => h.lookup_none (hext k.pid)
  have hslot : ∀ k, p.swap.slot? k = none := fun k => h.slot?_none (hext k.pid)
  have hresident : p.table.resident.dense.toList = [] := by
    rw [List.eq_nil_iff_forall_not_mem]
    intro ppn hmem
    obtain ⟨k, hk⟩ := Option.isSome_iff_exists.mp ((h.table.index.mem_dense ppn).mp hmem)
    have hf := h.frame?_of_owner (show p.table.owner? ppn = some k from hk)
    rw [hframe k] at hf
    cases hf
  have hresidents : p.residentPages = 0 := congrArg List.length hresident
  constructor
  · have hcount := h.count_frames
    rw [hresidents, Nat.add_zero] at hcount
    rw [hcount]
    split
    next hword => exact Frames.InWord.counted_eq hword
    next hmany => exact Frames.counted_of_many h.sized.geometry.pages_le hmany
  · intro ppn
    rw [h.isFree_iff]
    refine and_iff_left ?_
    intro k hk
    rw [hframe k] at hk
    cases hk
  · exact OrderedMap.ext_get? hlookup
  · exact hresidents
  · intro slot hmem
    rw [Bool.eq_false_iff]
    intro hv
    have hcached := h.cached_of_slot hmem hv
    rw [h.cached_none (hlookup slot.page)] at hcached
    cases hcached
  · refine OrderedMap.ext_get? ?_
    intro k
    have hp := h.not_pending (hext k.pid)
    rwa [Swapper.isPending, OrderedMap.contains, Option.isSome_eq_false_iff,
      Option.isNone_iff_eq_none] at hp
  · exact OrderedMap.ext_get? hslot
  · have hcount := h.swap.count_slots hopen
    have hempty : p.swap.slots = .empty := OrderedMap.ext_get? hslot
    rw [hempty] at hcount
    exact (Nat.zero_add _).symm.trans hcount

/-- Taking down a space releases what its process has and nothing else, so that after the last
space nothing is in use. -/
theorem teardown_exact (c : Config) (p : Pager) :
    (Reached c p → ∀ pid,
        (teardown pid p).result = .ok () ∧ TornDown p (teardown pid p).state pid) ∧
      (Created c p → ∀ events, (∀ pid, hasSpace pid (p.history events) = false) →
        Vacant (p.after events) c.physPages) := by
  constructor
  · intro hr pid
    exact teardown_tornDown hr.wellFormed pid
  · intro hc events hgone
    obtain ⟨h, -, -, -, hopen⟩ := hc.wellFormed
    have hlasting := lasting_after h events
    have hvacant := (h.after events).vacant (hlasting.isOpen.trans hopen) fun pid => by
      rw [← Option.not_isSome_iff_eq_none, ← hasSpace_history hc, hgone pid]
      exact Bool.false_ne_true
    rwa [hlasting.total, hc.total] at hvacant

/-- A written page gets a slot although it cannot be written out, and both spaces are taken down. -/
def abandoned : List Event :=
  [.teardown 1, .teardown 2, .evict ⟨1, 1⟩, .swapFaults { write := some .closed },
    .miss 2 ⟨0⟩, .register 2 1 none, .write 1 ⟨4⟩ [7], .miss 1 ⟨4⟩,
    .register 1 3 (some textAndData)]

theorem teardown_exact_abandoned :
    TornDown (pair.after abandoned.tail) (pair.after abandoned) 1 ∧
      (∀ pid, hasSpace pid (pair.history abandoned) = false) ∧
      Vacant (pair.after abandoned) 2 := by
  have hgone : ∀ pid, hasSpace pid (pair.history abandoned) = false := by
    intro pid
    have hsteps : hasSpace pid (pair.history abandoned) =
        (1 != pid && (2 != pid && (2 == pid || (1 == pid || false)))) := rfl
    rw [hsteps]
    by_cases h₁ : 1 = pid
    · simp [h₁]
    · by_cases h₂ : 2 = pid
      · simp [h₂]
      · simp [h₁, h₂]
  have hreached := (Reached.created created_pair).after abandoned.tail
  exact ⟨((teardown_exact pairConfig _).1 hreached 1).2, hgone,
    (teardown_exact pairConfig pair).2 created_pair abandoned hgone⟩

/-- Of as many frames as an address can name, none is free after the last space is gone. -/
theorem no_frame_after_teardown :
    Created countlessConfig countless ∧
      (∀ pid, hasSpace pid (countless.history [.teardown 1, .register 1 1 none]) = false) ∧
      (countless.after [.teardown 1, .register 1 1 none]).frames.total = 0x100000000 ∧
      (countless.after [.teardown 1, .register 1 1 none]).freePages = 0 := by
  refine ⟨created_countless, ?_, rfl, by decide +kernel⟩
  intro pid
  have hsteps : hasSpace pid (countless.history [.teardown 1, .register 1 1 none]) =
      (1 != pid && (1 == pid || false)) := rfl
  rw [hsteps]
  by_cases h : 1 = pid <;> simp [h]

end VirtualMemory.Pager
