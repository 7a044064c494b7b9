import VirtualMemory.Proofs.Cache

/-!
# Invalidation loses nothing and touches nothing else

Here the slots hold anything: several may translate one page, with different frames and flags, and
those that are not valid still hold what they held. Invalidating a page or a process clears the
valid flag of the slots that are meant and of no other (`Cleared`). What comes back is all that
these slots knew: for a page the entry that a lookup finds first, with what any of them saw of the
hardware; for a process the entries in the order of the slots. One sweep over the slots does the
same as invalidating slot after slot (`invalidateEach_range`).
-/

namespace VirtualMemory

/-! ## Merging -/

theorem foldl_absorb (e : Entry) (rest : List Entry) :
    rest.foldl Entry.absorb e =
      { e with flags := { e.flags with
          used := e.used || rest.any (·.used)
          dirty := e.dirty || rest.any (·.dirty) } } := by
  induction rest generalizing e with
  | nil => simp [Entry.used, Entry.dirty]
  | cons next rest ih =>
    simp [ih, Entry.absorb, Flags.absorb, Entry.used, Entry.dirty, Bool.or_assoc]

namespace Tlb

variable {p : TlbSlot → Bool}

/-- What is known of a page after one more of its slots. -/
def mergeNext (merged : Option Entry) (e : Entry) : Option Entry :=
  match merged with
  | some known => some (known.absorb e)
  | none => some e

/-- The entries of a page can be merged as they come. -/
theorem foldl_mergeNext (entries : List Entry) :
    entries.foldl mergeNext none = mergeEntries entries := by
  have hknown : ∀ (e : Entry) (rest : List Entry),
      rest.foldl mergeNext (some e) = some (rest.foldl Entry.absorb e) := by
    intro e rest
    induction rest generalizing e with
    | nil => rfl
    | cons next rest ih => exact ih (e.absorb next)
  cases entries with
  | nil => rfl
  | cons e rest => exact hknown e rest

/-! ## Slot after slot -/

/-- Looks at these slots, one after the other, and invalidates those that satisfy `p`; answers what
the ones that were valid held. -/
def invalidateEach (p : TlbSlot → Bool) : List Nat → Tlb → List Entry × Tlb
  | [], t => ([], t)
  | i :: rest, t =>
    if (t.read i).any p then
      let (old, t) := t.invalidate i
      let (entries, t) := invalidateEach p rest t
      ((old.map (·.entry)).toList ++ entries, t)
    else invalidateEach p rest t

theorem invalidateEach_range' (front rest : List TlbSlot) (counters : TlbCounters) :
    invalidateEach p (List.range' front.length rest.length) ⟨front ++ rest, counters⟩ =
      ((sweep p rest).1,
        countInvalidations ⟨front ++ (sweep p rest).2, counters⟩ (sweep p rest).1.length) := by
  induction rest generalizing front counters with
  | nil => rfl
  | cons s rest ih =>
    have hnext : ∀ (s' : TlbSlot) (counters : TlbCounters),
        invalidateEach p (List.range' (front.length + 1) rest.length)
            ⟨front ++ s' :: rest, counters⟩ =
          ((sweep p rest).1,
            countInvalidations ⟨front ++ s' :: (sweep p rest).2, counters⟩
              (sweep p rest).1.length) := by
      intro s' counters
      have h := ih (front ++ [s']) counters
      simpa using h
    rw [List.length_cons, List.range'_succ, invalidateEach, sweep]
    cases hp : p s with
    | false => simp [read, hp, hnext]
    | true =>
      cases hv : s.valid with
      | false => simp [read, hp, invalidate, hv, hnext]
      | true =>
        simp [read, hp, invalidate, hv, countInvalidations, hnext, Nat.add_assoc, Nat.add_comm]

/-- One sweep does the same as slot after slot. -/
theorem invalidateEach_range (t : Tlb) (p : TlbSlot → Bool) :
    invalidateEach p (List.range t.size) t = t.invalidateWhere p := by
  have h := invalidateEach_range' (p := p) [] t.slots t.counters
  simpa [List.range_eq_range', invalidateWhere, size] using h

/-! ## What is left of the slots -/

/-- The number of slots that are valid in `t` and no longer in `t'`. -/
def lost (t t' : Tlb) : Nat := (t.slots.zip t'.slots).countP fun (s, s') => s.valid && !s'.valid

/-- From `t` to `t'` the valid slots that satisfy `p` lose their valid flag and nothing else, each
of them is counted, and all else stays as it is. -/
structure Cleared (p : TlbSlot → Bool) (t t' : Tlb) : Prop where
  size_eq : t'.size = t.size
  cleared : ∀ i s, t.read i = some s → s.valid = true → p s = true →
    t'.read i = some { s with entry.flags.valid := false }
  kept : ∀ i s, t.read i = some s → (s.valid && p s) = false → t'.read i = some s
  counters_eq : t'.counters =
    { t.counters with invalidations := t.counters.invalidations + lost t t' }

theorem length_sweep (p : TlbSlot → Bool) (slots : List TlbSlot) :
    (sweep p slots).1.length =
      (slots.zip (sweep p slots).2).countP fun (s, s') => s.valid && !s'.valid := by
  induction slots with
  | nil => rfl
  | cons s rest ih =>
    rw [sweep]
    cases hv : s.valid with
    | false => simp [hv, ih]
    | true =>
      have hgone : s.invalidate.valid = false := rfl
      cases hp : p s with
      | false => simp [hv, ih]
      | true => simp [hv, hgone, ih]

theorem read_invalidateWhere (t : Tlb) (p : TlbSlot → Bool) (i : Nat) :
    (t.invalidateWhere p).2.read i =
      (t.read i).map fun s => if s.valid && p s then s.invalidate else s := by
  rw [read, slots_invalidateWhere, List.getElem?_map, read]

theorem cleared_invalidateWhere (t : Tlb) (p : TlbSlot → Bool) :
    Cleared p t (t.invalidateWhere p).2 where
  size_eq := size_invalidateWhere t p
  cleared i s hs hv hp := by
    simp [read_invalidateWhere, hs, hv, hp, TlbSlot.invalidate, Entry.invalidate]
  kept i s hs hnot := by
    simp only [read_invalidateWhere, hs, Option.map_some, hnot, Bool.false_eq_true, if_false]
  counters_eq := by
    have hcount := length_sweep p t.slots
    simp only [invalidateWhere, countInvalidations, lost, hcount]

/-! ## What comes back -/

variable {t : Tlb} {asid : Pid} {vpn : Vpn}

/-- The entry, with what any slot of the page saw of the hardware. -/
def gathered (t : Tlb) (asid : Pid) (vpn : Vpn) (e : Entry) : Entry :=
  { e with flags := { e.flags with
      used := t.slots.any fun s => s.translates asid vpn && s.entry.used
      dirty := t.slots.any fun s => s.translates asid vpn && s.entry.dirty } }

theorem invalidatePage_merged (t : Tlb) (asid : Pid) (vpn : Vpn) :
    (t.invalidatePage asid vpn).1 = (t.lookup asid vpn).map (t.gathered asid vpn) := by
  have hentries : (t.invalidatePage asid vpn).1 =
      mergeEntries ((t.slots.filter (·.translates asid vpn)).map (·.entry)) := by
    rw [← filter_translates, ← invalidateWhere_fst]
    rfl
  unfold gathered
  rw [hentries, lookup, ← List.head?_filter]
  simp only [← List.any_filter]
  cases t.slots.filter (·.translates asid vpn) with
  | nil => rfl
  | cons s rest => simp [mergeEntries, foldl_absorb, List.any_map, Function.comp_def]

theorem lookup_eq_none_iff (t : Tlb) (asid : Pid) (vpn : Vpn) :
    t.lookup asid vpn = none ↔ ∀ s ∈ t.slots, s.translates asid vpn = false := by
  simp [lookup]

theorem lookup_of_first {i : Nat} {s : TlbSlot} (hs : t.read i = some s)
    (ht : s.translates asid vpn = true)
    (hfirst : ∀ j < i, ∀ s', t.read j = some s' → s'.translates asid vpn = false) :
    t.lookup asid vpn = some s.entry := by
  obtain ⟨hi, hget⟩ := List.getElem?_eq_some_iff.mp hs
  have hfind : t.slots.find? (·.translates asid vpn) = some s := by
    refine List.find?_eq_some_iff_getElem.mpr ⟨ht, i, hi, hget, fun j hj => ?_⟩
    simp [hfirst j hj _ (List.getElem?_eq_getElem (Nat.lt_trans hj hi))]
  rw [lookup, hfind]
  rfl

theorem find_of_not_cached (h : t.cached ⟨asid, vpn⟩ = none) : t.find asid vpn = none := by
  rw [← Option.not_isSome_iff_eq_none, find_isSome t ⟨asid, vpn⟩, h]
  exact Bool.false_ne_true

/-- The page was invalidated in `t`, and the answer tells what the cache knew of it. -/
structure PageInvalidated (t : Tlb) (asid : Pid) (vpn : Vpn) (answer : Option Entry) (t' : Tlb) :
    Prop where
  none_iff : answer = none ↔ ∀ s ∈ t.slots, s.translates asid vpn = false
  merged : ∀ i s, t.read i = some s → s.translates asid vpn = true →
    (∀ j < i, ∀ s', t.read j = some s' → s'.translates asid vpn = false) →
    answer = some (t.gathered asid vpn s.entry)
  gone : t'.find asid vpn = none
  cleared : Cleared (·.translates asid vpn) t t'
  each : ∃ entries, invalidateEach (·.translates asid vpn) (List.range t.size) t = (entries, t') ∧
    answer = entries.foldl mergeNext none

/-- The process was invalidated in `t`, and the answer is its entries in the order of the slots. -/
structure AsidInvalidated (t : Tlb) (asid : Pid) (answer : List Entry) (t' : Tlb) : Prop where
  entries : answer = (t.slots.filter fun s => s.valid && s.asid == asid).map (·.entry)
  gone : ∀ vpn, t'.find asid vpn = none
  cleared : Cleared (·.asid == asid) t t'
  each : invalidateEach (·.asid == asid) (List.range t.size) t = (answer, t')

theorem page_invalidated (t : Tlb) (asid : Pid) (vpn : Vpn) :
    PageInvalidated t asid vpn (t.invalidatePage asid vpn).1 (t.invalidatePage asid vpn).2 where
  none_iff := by rw [invalidatePage_merged, Option.map_eq_none_iff, lookup_eq_none_iff]
  merged i s hs ht hfirst := by
    rw [invalidatePage_merged, lookup_of_first hs ht hfirst, Option.map_some]
  gone := find_of_not_cached ((cached_invalidatePage ⟨asid, vpn⟩ ⟨asid, vpn⟩).trans (if_pos rfl))
  cleared := cleared_invalidateWhere t _
  each := ⟨_, invalidateEach_range t _, (foldl_mergeNext _).symm⟩

theorem asid_invalidated (t : Tlb) (asid : Pid) :
    AsidInvalidated t asid (t.invalidateAsid asid).1 (t.invalidateAsid asid).2 where
  entries := invalidateWhere_fst t _
  gone vpn := find_of_not_cached ((cached_invalidateAsid asid ⟨asid, vpn⟩).trans (if_pos rfl))
  cleared := cleared_invalidateWhere t _
  each := invalidateEach_range t _

/-- Whatever the slots hold, invalidating a page and invalidating a process lose nothing that the
slots knew, and touch no other slot. -/
theorem invalidation_exact (t : Tlb) (asid : Pid) (vpn : Vpn) :
    PageInvalidated t asid vpn (t.invalidatePage asid vpn).1 (t.invalidatePage asid vpn).2 ∧
      AsidInvalidated t asid (t.invalidateAsid asid).1 (t.invalidateAsid asid).2 :=
  ⟨page_invalidated t asid vpn, asid_invalidated t asid⟩

-- three slots about one page, the first of which is not valid, and one of another process
example : (Tlb.invalidatePage
    { slots := [⟨1, 3, 5, { dirty := true }⟩, ⟨1, 3, 7, { valid := true, used := true }⟩,
        ⟨2, 3, 9, { valid := true }⟩, ⟨1, 3, 8, { valid := true, dirty := true }⟩] } 1 3).1 =
    some ⟨3, 7, { valid := true, used := true, dirty := true }⟩ := by decide

end Tlb

end VirtualMemory
