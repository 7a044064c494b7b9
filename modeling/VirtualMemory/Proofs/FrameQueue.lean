import Mathlib.Data.List.Perm.Subperm
import VirtualMemory.Frames
import VirtualMemory.Proofs.AddressArithmetic

/-!
# The queue of free frames

An allocator whose frames a word can count is well formed when its queue holds exactly the frames
that are marked free, none of them twice. One frame more, and the queue is empty from the start: no
frame is ever taken. Taking the first frame of the queue and giving an allocated frame back keep
this, and `Released` says what else giving a frame back can come to.
-/

namespace VirtualMemory.Frames

variable {f f' : Frames} {ppn : Ppn} {result : Except MemoryError Unit}

/-- A word can count the frames. -/
def InWord (f : Frames) : Prop := f.total < 0x100000000

/-- The frames that a word counts: all of them, or none. -/
def counted (f : Frames) : Nat := f.total.toUInt32.toNat

theorem InWord.of_total (h : f.InWord) (htotal : f'.total = f.total) : f'.InWord := by
  rw [InWord, htotal]
  exact h

theorem counted_of_total (htotal : f'.total = f.total) : f'.counted = f.counted := by
  rw [counted, htotal, counted]

theorem InWord.counted_eq (h : f.InWord) : f.counted = f.total := toNat_word h

/-- There is one such number: the word for it is zero. -/
theorem counted_of_many (hle : f.total ≤ 0x100000000) (hmany : ¬ f.InWord) : f.counted = 0 := by
  have htotal : f.total = 0x100000000 := Nat.le_antisymm hle (Nat.le_of_not_lt hmany)
  rw [counted, htotal]
  decide

structure WellFormed (f : Frames) : Prop where
  nodup : f.free.Nodup
  mem_free : ∀ ppn, ppn ∈ f.free ↔ f.InWord ∧ f.isFree ppn = true
  idle : ¬ f.InWord → ∀ ppn, ppn.toNat < f.total → f.isFree ppn = true

theorem isFree_iff : f.isFree ppn = true ↔ f.allocated[ppn.toNat]? = some false := by
  simp [isFree]

theorem lt_total_of_mark {allocated : Bool} (h : f.allocated[ppn.toNat]? = some allocated) :
    ppn.toNat < f.total :=
  (FrameMarks.getElem?_eq_some_iff.mp h).1

theorem lt_total_of_isFree (h : f.isFree ppn = true) : ppn.toNat < f.total :=
  lt_total_of_mark (isFree_iff.mp h)

theorem mark_of_lt (hlt : ppn.toNat < f.total) :
    f.allocated[ppn.toNat]? = some (!f.isFree ppn) := by
  obtain ⟨allocated, hmark⟩ : ∃ allocated, f.allocated[ppn.toNat]? = some allocated :=
    ⟨_, if_pos hlt⟩
  rw [isFree, hmark]
  cases allocated <;> rfl

/-- An allocated frame was taken from the queue once. -/
theorem WellFormed.inWord (h : f.WellFormed) (hlt : ppn.toNat < f.total)
    (hused : f.isFree ppn = false) : f.InWord := by
  by_contra hmany
  rw [h.idle hmany ppn hlt] at hused
  cases hused

/-- Where a word counts the frames, the queue holds all that are free. -/
theorem WellFormed.mem_free_iff (h : f.WellFormed) (hword : f.InWord) :
    ppn ∈ f.free ↔ f.isFree ppn = true := (h.mem_free ppn).trans (and_iff_right hword)

theorem WellFormed.isFree_of_mem (h : f.WellFormed) (hmem : ppn ∈ f.free) : f.isFree ppn = true :=
  ((h.mem_free ppn).mp hmem).2

theorem WellFormed.not_mem (h : f.WellFormed) (hused : f.isFree ppn = false) : ppn ∉ f.free := by
  intro hmem
  rw [h.isFree_of_mem hmem] at hused
  cases hused

/-- Otherwise it holds none. -/
theorem WellFormed.free_eq_nil (h : f.WellFormed) (hmany : ¬ f.InWord) : f.free = [] :=
  List.eq_nil_iff_forall_not_mem.mpr fun ppn hmem => hmany ((h.mem_free ppn).mp hmem).1

/-- The queue holds no frame twice, and so no more of them than a word counts. -/
theorem WellFormed.freeCount_inWord (h : f.WellFormed) : f.freeCount < 0x100000000 := by
  by_cases hword : f.InWord
  · have hsubset : f.free ⊆ (List.range f.total).map Nat.toUInt32 := by
      intro ppn hmem
      rw [mem_words (Nat.le_of_lt hword)]
      exact lt_total_of_isFree (h.isFree_of_mem hmem)
    have hle := (List.subperm_of_subset h.nodup hsubset).length_le
    rw [List.length_map, List.length_range] at hle
    exact Nat.lt_of_le_of_lt hle hword
  · rw [freeCount, h.free_eq_nil hword]
    decide

theorem isFree_ofTotal (total : Nat) (ppn : Ppn) :
    (ofTotal total).isFree ppn = true ↔ ppn.toNat < total := by
  simp [isFree_iff, ofTotal, FrameMarks.getElem?_unset]

theorem free_ofTotal {total : Nat} (h : total < 0x100000000) :
    (ofTotal total).free = (List.range total).map Nat.toUInt32 := by
  rw [ofTotal, toNat_word h]

/-- As many frames as there are words are counted as none. -/
theorem free_ofTotal_full : (ofTotal 0x100000000).free = [] := rfl

/-- Queue and marks agree at first. -/
theorem wellFormed_ofTotal {total : Nat} (h : total ≤ 0x100000000) :
    (ofTotal total).WellFormed := by
  rcases Nat.lt_or_eq_of_le h with hlt | rfl
  · refine ⟨?_, ?_, fun hmany => absurd hlt hmany⟩
    · rw [free_ofTotal hlt]
      exact nodup_words h
    · intro ppn
      rw [isFree_ofTotal, free_ofTotal hlt, mem_words h]
      exact (and_iff_right hlt).symm
  · have hmany : ¬ (ofTotal 0x100000000).InWord := Nat.lt_irrefl 0x100000000
    refine ⟨?_, ?_, fun _ ppn hppn => (isFree_ofTotal _ ppn).mpr hppn⟩
    · rw [free_ofTotal_full]
      exact List.nodup_nil
    · intro ppn
      rw [free_ofTotal_full]
      exact iff_of_false List.not_mem_nil fun hin => hmany hin.1

/-! ## Taking a frame -/

/-- The frames after `ppn` was taken from the front of the queue. -/
def without (f : Frames) (ppn : Ppn) (rest : List Ppn) : Frames :=
  { f with
    free := rest
    allocated := f.allocated.set ppn.toNat true
    used := f.used + 1 }

theorem acquire_cons {rest : List Ppn} (h : f.free = ppn :: rest) :
    f.acquire = (some ppn, f.without ppn rest) := by
  simp [acquire, h, without]

theorem acquire_nil (h : f.free = []) : f.acquire = (none, { f with failed := f.failed + 1 }) := by
  simp [acquire, h]

theorem total_without (f : Frames) (ppn : Ppn) (rest : List Ppn) :
    (f.without ppn rest).total = f.total := rfl

theorem counted_without (f : Frames) (ppn : Ppn) (rest : List Ppn) :
    (f.without ppn rest).counted = f.counted := rfl

theorem isFree_without (f : Frames) (ppn : Ppn) (rest : List Ppn) (q : Ppn) :
    (f.without ppn rest).isFree q = true ↔ q ≠ ppn ∧ f.isFree q = true := by
  simp only [isFree_iff, without, FrameMarks.getElem?_set, UInt32.toNat_inj]
  by_cases hq : q = ppn
  · subst hq
    by_cases hlt : q.toNat < f.allocated.size <;> simp [hlt]
  · simp [hq, Ne.symm hq]

/-- They agree after the front of the queue was taken. -/
theorem WellFormed.without (h : f.WellFormed) {rest : List Ppn} (hf : f.free = ppn :: rest) :
    (f.without ppn rest).WellFormed := by
  have hnodup := h.nodup
  rw [hf, List.nodup_cons] at hnodup
  have hword : f.InWord := ((h.mem_free ppn).mp (hf ▸ List.mem_cons_self)).1
  refine ⟨hnodup.2, ?_, fun hmany => absurd hword hmany⟩
  intro q
  show q ∈ rest ↔ f.InWord ∧ _
  rw [isFree_without, and_left_comm, ← h.mem_free, hf, List.mem_cons]
  constructor
  · intro hq
    exact ⟨fun he => hnodup.1 (he ▸ hq), Or.inr hq⟩
  · rintro ⟨hne, he | hq⟩
    · exact absurd he hne
    · exact hq

/-! ## Giving a frame back -/

/-- The frames after `ppn` came back to the end of the queue. -/
def withFree (f : Frames) (ppn : Ppn) : Frames :=
  { f with
    free := f.free ++ [ppn]
    allocated := f.allocated.set ppn.toNat false
    used := f.used - 1 }

theorem total_withFree (f : Frames) (ppn : Ppn) : (f.withFree ppn).total = f.total := rfl

theorem counted_withFree (f : Frames) (ppn : Ppn) : (f.withFree ppn).counted = f.counted := rfl

theorem isFree_withFree (hlt : ppn.toNat < f.total) (q : Ppn) :
    (f.withFree ppn).isFree q = true ↔ q = ppn ∨ f.isFree q = true := by
  have hsize : ppn.toNat < f.allocated.size := hlt
  simp only [isFree_iff, withFree, FrameMarks.getElem?_set, UInt32.toNat_inj]
  by_cases hq : q = ppn
  · simp [hq, hsize]
  · simp [hq, Ne.symm hq]

/-- They agree after a frame that is in use came back. -/
theorem WellFormed.withFree (h : f.WellFormed) (hlt : ppn.toNat < f.total)
    (hused : f.isFree ppn = false) : (f.withFree ppn).WellFormed := by
  have hnot : ppn ∉ f.free := h.not_mem hused
  have hword : f.InWord := h.inWord hlt hused
  refine ⟨?_, ?_, fun hmany => absurd hword hmany⟩
  · refine List.Nodup.append h.nodup (List.nodup_singleton ppn) ?_
    intro q hq hs
    rw [List.mem_singleton] at hs
    exact hnot (hs ▸ hq)
  · intro q
    show q ∈ f.free ++ [ppn] ↔ f.InWord ∧ _
    rw [isFree_withFree hlt, ← h.mem_free_iff hword, or_comm, and_iff_right hword,
      List.mem_append, List.mem_singleton]

inductive Released (ppn : Ppn) (f : Frames) : Except MemoryError Unit → Frames → Prop
  | outOfBounds (hout : f.total ≤ ppn.toNat) : Released ppn f (.error .outOfBounds) f
  | twice (hfree : f.isFree ppn = true) : Released ppn f (.error .doubleFree) f
  | done (hlt : ppn.toNat < f.total) (hused : f.isFree ppn = false) :
    Released ppn f (.ok ()) (f.withFree ppn)

/-- A release ends in one of the three ways. -/
theorem release_ends (ppn : Ppn) (f : Frames) : (release ppn).Ends f (Released ppn f) := by
  simp only [release, Op.ends_bind, Op.ends_get]
  cases hmark : f.allocated[ppn.toNat]? with
  | none => exact .outOfBounds (FrameMarks.getElem?_eq_none_iff.mp hmark)
  | some allocated =>
    cases allocated with
    | false =>
      simp only [Op.ends_bind, Op.ends_notify, Op.ends_throw]
      exact .twice (isFree_iff.mpr hmark)
    | true =>
      simp only [Op.ends_set]
      exact .done (lt_total_of_mark hmark) (by simp [isFree, hmark])

namespace Released

theorem outOfBounds_iff (h : Released ppn f result f') :
    result = .error .outOfBounds ↔ f.total ≤ ppn.toNat := by
  cases h with
  | outOfBounds hout => simp [hout]
  | twice hfree => simp [lt_total_of_isFree hfree]
  | done hlt _ => simp [hlt]

theorem doubleFree_iff (h : Released ppn f result f') :
    result = .error .doubleFree ↔ f.allocated[ppn.toNat]? = some false := by
  rw [← isFree_iff]
  cases h with
  | outOfBounds hout =>
    have hnot : ¬ f.isFree ppn = true := fun hfree => Nat.not_lt.mpr hout (lt_total_of_isFree hfree)
    simp [hnot]
  | twice hfree => simp [hfree]
  | done _ hused => simp [hused]

theorem ok_iff (h : Released ppn f result f') :
    result = .ok () ↔ f.allocated[ppn.toNat]? = some true := by
  cases h with
  | outOfBounds hout => simp [FrameMarks.getElem?_eq_none_iff.mpr hout]
  | twice hfree => simp [isFree_iff.mp hfree]
  | done hlt hused => simp [mark_of_lt hlt, hused]

/-- A refusal changes nothing. -/
theorem eq_of_error (h : Released ppn f result f') {e : MemoryError} (he : result = .error e) :
    f' = f := by
  cases h with
  | outOfBounds _ => rfl
  | twice _ => rfl
  | done _ _ => cases he

end Released

/-- A frame that is in use can be given back. -/
theorem release_of_used (hlt : ppn.toNat < f.total) (hused : f.isFree ppn = false) :
    (release ppn).Ends f fun r f' => r = .ok () ∧ f' = f.withFree ppn := by
  refine (release_ends ppn f).imp ?_
  rintro _ _ (hout | hfree | -)
  · omega
  · simp [hused] at hfree
  · exact ⟨rfl, rfl⟩

end VirtualMemory.Frames
