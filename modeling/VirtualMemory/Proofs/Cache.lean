import VirtualMemory.Tlb
import VirtualMemory.Proofs.Ownership

/-!
# The address cache as a partial map

As long as no two valid slots translate the same page, the cache is a partial map from pages to
entries (`cached`). Touching a page, filling a free slot and invalidating slots keep the slots
distinct, and are described through that map alone.
-/

namespace VirtualMemory

def TlbSlot.page (s : TlbSlot) : PageKey := ⟨s.asid, s.entry.vpn⟩

theorem TlbSlot.translates_iff {s : TlbSlot} {key : PageKey} :
    s.translates key.pid key.vpn = true ↔ s.valid = true ∧ s.page = key := by
  obtain ⟨pid, vpn⟩ := key
  simp only [translates, page, Bool.and_eq_true, beq_iff_eq, PageKey.mk.injEq, and_assoc]

namespace Tlb

variable {t : Tlb} {key : PageKey}

/-- What the cache knows of a page. -/
def cached (t : Tlb) (key : PageKey) : Option Entry := t.lookup key.pid key.vpn

/-- No two slots of the list translate the same page. -/
def DistinctSlots (slots : List TlbSlot) : Prop :=
  slots.Pairwise fun s s' => s.valid = true → s'.valid = true → s.page ≠ s'.page

def Distinct (t : Tlb) : Prop := DistinctSlots t.slots

theorem valid_vacant_mem {n : Nat} {s : TlbSlot} (h : s ∈ List.replicate n TlbSlot.vacant) :
    s.valid = false := by
  rw [List.eq_of_mem_replicate h]
  rfl

theorem distinct_empty (size : Nat) : (empty size).Distinct := by
  refine List.pairwise_replicate.mpr (Or.inr ?_)
  intro hv
  cases hv

theorem cached_empty (size : Nat) (key : PageKey) : (empty size).cached key = none := by
  simp only [cached, lookup, empty, Option.map_eq_none_iff, List.find?_eq_none]
  intro s hs ht
  rw [TlbSlot.translates_iff, valid_vacant_mem hs] at ht
  exact absurd ht.1 (by decide)

theorem find?_eq_some_iff {slots : List TlbSlot} (h : DistinctSlots slots) {s : TlbSlot} :
    slots.find? (·.translates key.pid key.vpn) = some s ↔
      s ∈ slots ∧ s.valid = true ∧ s.page = key := by
  constructor
  · intro hf
    exact ⟨List.mem_of_find?_eq_some hf, TlbSlot.translates_iff.mp (List.find?_some hf :)⟩
  · rintro ⟨hmem, hv, hp⟩
    induction slots with
    | nil => cases hmem
    | cons head rest ih =>
      obtain ⟨hhead, hrest⟩ := List.pairwise_cons.mp h
      rcases List.mem_cons.mp hmem with rfl | hmem
      · exact List.find?_cons_of_pos (TlbSlot.translates_iff.mpr ⟨hv, hp⟩)
      · refine (List.find?_cons_of_neg ?_).trans (ih hrest hmem)
        intro ht
        obtain ⟨hv', hp'⟩ := TlbSlot.translates_iff.mp ht
        exact hhead s hmem hv' hv (hp'.trans hp.symm)

/-- The entry that is cached for a page is that of the only valid slot of the page. -/
theorem cached_eq_some_iff (h : t.Distinct) {e : Entry} :
    t.cached key = some e ↔ ∃ s ∈ t.slots, s.valid = true ∧ s.page = key ∧ s.entry = e := by
  simp only [cached, lookup, Option.map_eq_some_iff, find?_eq_some_iff h]
  constructor
  · rintro ⟨s, ⟨hmem, hv, hp⟩, he⟩
    exact ⟨s, hmem, hv, hp, he⟩
  · rintro ⟨s, hmem, hv, hp, he⟩
    exact ⟨s, ⟨hmem, hv, hp⟩, he⟩

theorem cached_eq_none_iff :
    t.cached key = none ↔ ∀ s ∈ t.slots, s.valid = true → s.page ≠ key := by
  simp only [cached, lookup, Option.map_eq_none_iff, List.find?_eq_none,
    TlbSlot.translates_iff, not_and, ne_eq]

theorem find_isSome (t : Tlb) (key : PageKey) :
    (t.find key.pid key.vpn).isSome = (t.cached key).isSome := by
  rw [find, cached, lookup, Option.isSome_map, List.findIdx?_isSome, List.isSome_find?]

/-- Two caches that hold the same slots about a page know the same of it. -/
theorem cached_congr {t' : Tlb} (h : t.Distinct) (h' : t'.Distinct)
    (hs : ∀ s, s.valid = true → s.page = key → (s ∈ t'.slots ↔ s ∈ t.slots)) :
    t'.cached key = t.cached key := by
  ext e
  rw [cached_eq_some_iff h, cached_eq_some_iff h']
  constructor
  · rintro ⟨s, hmem, hv, hp, he⟩
    exact ⟨s, (hs s hv hp).mp hmem, hv, hp, he⟩
  · rintro ⟨s, hmem, hv, hp, he⟩
    exact ⟨s, (hs s hv hp).mpr hmem, hv, hp, he⟩

/-! ## Recording an access -/

theorem page_touched (s : TlbSlot) (access : Access) :
    TlbSlot.page { s with entry := s.entry.touched access } = s.page := by
  simp only [TlbSlot.page, Entry.vpn_touched]

theorem find?_modifyFirst_self {p : TlbSlot → Bool} {f : Entry → Entry} (slots : List TlbSlot)
    (hp : ∀ s : TlbSlot, p { s with entry := f s.entry } = p s) :
    (modifyFirst p f slots).find? p =
      (slots.find? p).map fun s => { s with entry := f s.entry } := by
  induction slots with
  | nil => rfl
  | cons s rest ih =>
    rw [modifyFirst]
    cases hps : p s
    · simp [hps, ih]
    · simp [hps, hp]

/-- A slot that is looked for by something else is found as before. -/
theorem find?_modifyFirst_other {p q : TlbSlot → Bool} {f : Entry → Entry}
    (slots : List TlbSlot) (hq : ∀ s : TlbSlot, q { s with entry := f s.entry } = q s)
    (hpq : ∀ s, p s = true → q s = false) :
    (modifyFirst p f slots).find? q = slots.find? q := by
  induction slots with
  | nil => rfl
  | cons s rest ih =>
    rw [modifyFirst]
    cases hps : p s
    · simp [List.find?_cons, ih]
    · simp [hq, hpq s hps]

/-- An access is recorded in the slot of its page and in no other. -/
theorem cached_touch (key : PageKey) (access : Access) (k : PageKey) :
    (t.touch key.pid key.vpn access).cached k =
      if k = key then (t.cached k).map (·.touched access) else t.cached k := by
  have hsame : ∀ (k : PageKey) (s : TlbSlot),
      TlbSlot.translates { s with entry := s.entry.touched access } k.pid k.vpn =
        s.translates k.pid k.vpn := by
    intro k s
    simp [TlbSlot.translates, TlbSlot.valid, Entry.valid_touched, Entry.vpn_touched]
  simp only [cached, lookup, touch]
  by_cases hk : k = key
  · rw [if_pos hk, hk, find?_modifyFirst_self t.slots (hsame key), Option.map_map, Option.map_map]
    rfl
  · rw [if_neg hk, find?_modifyFirst_other t.slots (hsame k)]
    intro s hs
    rw [Bool.eq_false_iff]
    intro hs'
    exact hk ((TlbSlot.translates_iff.mp hs').2.symm.trans (TlbSlot.translates_iff.mp hs).2)

theorem length_modifyFirst (p : TlbSlot → Bool) (f : Entry → Entry) (slots : List TlbSlot) :
    (modifyFirst p f slots).length = slots.length := by
  induction slots with
  | nil => rfl
  | cons s rest ih =>
    rw [modifyFirst]
    split
    · rfl
    · simp [ih]

theorem mem_modifyFirst {p : TlbSlot → Bool} {f : Entry → Entry} {slots : List TlbSlot}
    {s : TlbSlot} (h : s ∈ modifyFirst p f slots) :
    s ∈ slots ∨ ∃ old ∈ slots, s = { old with entry := f old.entry } := by
  induction slots with
  | nil => exact Or.inl h
  | cons head rest ih =>
    rw [modifyFirst] at h
    split at h
    · rcases List.mem_cons.mp h with rfl | h
      · exact Or.inr ⟨head, List.mem_cons_self, rfl⟩
      · exact Or.inl (List.mem_cons_of_mem _ h)
    · rcases List.mem_cons.mp h with rfl | h
      · exact Or.inl List.mem_cons_self
      · rcases ih h with h | ⟨old, hold, he⟩
        · exact Or.inl (List.mem_cons_of_mem _ h)
        · exact Or.inr ⟨old, List.mem_cons_of_mem _ hold, he⟩

theorem Distinct.touch (h : t.Distinct) (pid : Pid) (vpn : Vpn) (access : Access) :
    (t.touch pid vpn access).Distinct := by
  simp only [Distinct, Tlb.touch] at h ⊢
  generalize t.slots = slots at h
  induction slots with
  | nil => exact h
  | cons s rest ih =>
    obtain ⟨hhead, hrest⟩ := List.pairwise_cons.mp h
    rw [modifyFirst]
    split
    · refine List.pairwise_cons.mpr ⟨?_, hrest⟩
      intro s' hs' hv hv'
      rw [page_touched]
      exact hhead s' hs' (by rwa [TlbSlot.valid, Entry.valid_touched] at hv) hv'
    · refine List.pairwise_cons.mpr ⟨?_, ih hrest⟩
      intro s' hs' hv hv'
      rcases mem_modifyFirst hs' with hmem | ⟨old, hmem, rfl⟩
      · exact hhead s' hmem hv hv'
      · rw [page_touched]
        exact hhead old hmem hv (by rwa [TlbSlot.valid, Entry.valid_touched] at hv')

theorem size_touch (t : Tlb) (pid : Pid) (vpn : Vpn) (access : Access) :
    (t.touch pid vpn access).size = t.size :=
  length_modifyFirst _ _ _

/-! ## Invalidating a set of slots -/

/-- A sweep over the slots is a filter and a map. -/
theorem sweep_eq (p : TlbSlot → Bool) (slots : List TlbSlot) :
    sweep p slots =
      ((slots.filter fun s => s.valid && p s).map (·.entry),
        slots.map fun s => if s.valid && p s then s.invalidate else s) := by
  induction slots with
  | nil => rfl
  | cons s rest ih =>
    simp only [sweep, ih, List.filter_cons, List.map_cons]
    split <;> rfl

theorem invalidateWhere_fst (t : Tlb) (p : TlbSlot → Bool) :
    (t.invalidateWhere p).1 = (t.slots.filter fun s => s.valid && p s).map (·.entry) := by
  simp only [invalidateWhere, sweep_eq]

theorem slots_invalidateWhere (t : Tlb) (p : TlbSlot → Bool) :
    (t.invalidateWhere p).2.slots =
      t.slots.map fun s => if s.valid && p s then s.invalidate else s := by
  simp only [invalidateWhere, sweep_eq]
  rfl

/-- What is invalidated by its page is not cached any more, and the rest is. -/
theorem cached_invalidateWhere {p : TlbSlot → Bool} {P : PageKey → Bool}
    (hp : ∀ s : TlbSlot, s.valid = true → p s = P s.page) (k : PageKey) :
    (t.invalidateWhere p).2.cached k = if P k then none else t.cached k := by
  simp only [cached, lookup, slots_invalidateWhere]
  induction t.slots with
  | nil => simp
  | cons s rest ih =>
    simp only [List.map_cons, List.find?_cons]
    cases ht : s.translates k.pid k.vpn with
    | true =>
      obtain ⟨hv, hpage⟩ := TlbSlot.translates_iff.mp ht
      have hps : p s = P k := hpage ▸ hp s hv
      cases hk : P k with
      | true =>
        have hinv : s.invalidate.translates k.pid k.vpn = false := rfl
        rw [hk] at ih
        simp only [hv, hps, hk, Bool.and_self, if_true, hinv]
        exact ih
      | false =>
        simp [hv, hps, hk, ht]
    | false =>
      have hnot : (if (s.valid && p s) = true then s.invalidate else s).translates k.pid k.vpn =
          false := by
        split
        · rfl
        · exact ht
      rw [hnot]
      exact ih

theorem Distinct.invalidateWhere (h : t.Distinct) (p : TlbSlot → Bool) :
    (t.invalidateWhere p).2.Distinct := by
  simp only [Distinct, slots_invalidateWhere]
  refine List.pairwise_map.mpr (List.Pairwise.imp ?_ h)
  intro s s' hss hv hv'
  split at hv
  · cases hv
  split at hv'
  · cases hv'
  next hs hs' =>
  rw [if_neg hs, if_neg hs']
  exact hss hv hv'

theorem size_invalidateWhere (t : Tlb) (p : TlbSlot → Bool) :
    (t.invalidateWhere p).2.size = t.size := by
  simp only [size, slots_invalidateWhere, List.length_map]

theorem invalidatePage_snd (t : Tlb) (key : PageKey) :
    (t.invalidatePage key.pid key.vpn).2 =
      (t.invalidateWhere (·.translates key.pid key.vpn)).2 := rfl

theorem filter_translates (t : Tlb) (pid : Pid) (vpn : Vpn) :
    (t.slots.filter fun s => s.valid && s.translates pid vpn) =
      t.slots.filter (·.translates pid vpn) := by
  refine List.filter_congr ?_
  intro s _
  cases hv : s.valid <;> simp [TlbSlot.translates, hv]

/-- Where slots are distinct, a page has one slot at most, and what comes back is its entry. -/
theorem invalidatePage_fst (h : t.Distinct) (key : PageKey) :
    (t.invalidatePage key.pid key.vpn).1 = t.cached key := by
  simp only [invalidatePage, invalidateWhere_fst, cached, lookup]
  rw [← List.head?_filter]
  rw [filter_translates]
  have hpair := List.Pairwise.filter (p := (·.translates key.pid key.vpn)) h
  cases hl : t.slots.filter (·.translates key.pid key.vpn) with
  | nil => rfl
  | cons s rest =>
    cases rest with
    | nil => rfl
    | cons s' rest =>
      have hs := List.mem_filter.mp (hl ▸ List.mem_cons_self : s ∈ t.slots.filter _)
      have hs' := List.mem_filter.mp
        (hl ▸ List.mem_cons_of_mem _ List.mem_cons_self : s' ∈ t.slots.filter _)
      obtain ⟨hv, hp⟩ := TlbSlot.translates_iff.mp hs.2
      obtain ⟨hv', hp'⟩ := TlbSlot.translates_iff.mp hs'.2
      rw [hl] at hpair
      have hne := (List.pairwise_cons.mp hpair).1 s' List.mem_cons_self hv hv'
      exact absurd (hp.trans hp'.symm) hne

theorem cached_invalidatePage (key k : PageKey) :
    (t.invalidatePage key.pid key.vpn).2.cached k = if k = key then none else t.cached k := by
  rw [invalidatePage_snd, cached_invalidateWhere (P := fun k => decide (k = key))]
  · simp
  · intro s hv
    rw [Bool.eq_iff_iff, TlbSlot.translates_iff, decide_eq_true_iff]
    exact ⟨And.right, And.intro hv⟩

theorem cached_invalidateAsid (pid : Pid) (k : PageKey) :
    (t.invalidateAsid pid).2.cached k = if k.pid = pid then none else t.cached k := by
  rw [invalidateAsid, cached_invalidateWhere (P := fun k => k.pid == pid)]
  · simp
  · intro s _
    rfl

/-- The entries that come back from a process are those that were cached for it. -/
theorem mem_invalidateAsid (h : t.Distinct) {pid : Pid} {e : Entry} :
    e ∈ (t.invalidateAsid pid).1 ↔ t.cached ⟨pid, e.vpn⟩ = some e := by
  rw [cached_eq_some_iff h, invalidateAsid, invalidateWhere_fst]
  simp only [List.mem_map, List.mem_filter, Bool.and_eq_true, beq_iff_eq]
  constructor
  · rintro ⟨s, ⟨hmem, hv, rfl⟩, rfl⟩
    exact ⟨s, hmem, hv, rfl, rfl⟩
  · rintro ⟨s, hmem, hv, hp, rfl⟩
    exact ⟨s, ⟨hmem, hv, congrArg PageKey.pid hp⟩, rfl⟩

/-- The entries of a process that come back are about different pages. -/
theorem nodup_invalidateAsid (h : t.Distinct) (pid : Pid) :
    ((t.invalidateAsid pid).1.map (·.vpn)).Nodup := by
  rw [invalidateAsid, invalidateWhere_fst, List.map_map]
  refine List.pairwise_map.mpr ?_
  refine List.Pairwise.imp_of_mem ?_ (List.Pairwise.filter _ h)
  intro s s' hs hs' hne heq
  simp only [List.mem_filter, Bool.and_eq_true, beq_iff_eq] at hs hs'
  refine hne hs.2.1 hs'.2.1 ?_
  rw [TlbSlot.page, TlbSlot.page, hs.2.2, hs'.2.2]
  exact congrArg (PageKey.mk pid) heq

/-! ## Replacing one slot -/

theorem split_at {slots : List TlbSlot} {i : Nat} {old : TlbSlot} (h : slots[i]? = some old)
    (s : TlbSlot) :
    ∃ front back, slots = front ++ old :: back ∧ slots.set i s = front ++ s :: back := by
  obtain ⟨hi, rfl⟩ := List.getElem?_eq_some_iff.mp h
  refine ⟨slots.take i, slots.drop (i + 1), ?_, List.set_eq_take_append_cons_drop.trans (if_pos hi)⟩
  simp

/-- A slot may be replaced by one whose page is in no other slot. -/
theorem DistinctSlots.replace {front back : List TlbSlot} {old s : TlbSlot}
    (h : DistinctSlots (front ++ old :: back))
    (hs : s.valid = true → ∀ s' ∈ front ++ back, s'.valid = true → s'.page ≠ s.page) :
    DistinctSlots (front ++ s :: back) := by
  obtain ⟨hf, hb, hfb⟩ := List.pairwise_append.mp h
  obtain ⟨-, hb⟩ := List.pairwise_cons.mp hb
  refine List.pairwise_append.mpr ⟨hf, List.pairwise_cons.mpr ⟨?_, hb⟩, ?_⟩
  · intro s' hs' hv hv' heq
    exact hs hv s' (List.mem_append_right _ hs') hv' heq.symm
  · intro s' hs' s'' hs'' hv' hv''
    rcases List.mem_cons.mp hs'' with rfl | hs''
    · exact hs hv'' s' (List.mem_append_left _ hs') hv'
    · exact hfb s' hs' s'' (List.mem_cons_of_mem _ hs'') hv' hv''

/-- In a distinct list the other slots are about other pages. -/
theorem DistinctSlots.others {front back : List TlbSlot} {old : TlbSlot}
    (h : DistinctSlots (front ++ old :: back)) (hold : old.valid = true) {s : TlbSlot}
    (hs : s ∈ front ++ back) (hv : s.valid = true) : s.page ≠ old.page := by
  obtain ⟨-, hb, hfb⟩ := List.pairwise_append.mp h
  rcases List.mem_append.mp hs with hs | hs
  · exact hfb s hs old List.mem_cons_self hv hold
  · exact ((List.pairwise_cons.mp hb).1 s hs hold hv).symm

theorem mem_replace {front back : List TlbSlot} {old s : TlbSlot} :
    s ∈ front ++ old :: back ↔ s = old ∨ s ∈ front ++ back := by
  simp only [List.mem_append, List.mem_cons]
  tauto

theorem invalidate_of_valid {i : Nat} {old : TlbSlot} (hi : t.slots[i]? = some old)
    (hv : old.valid = true) :
    t.invalidate i =
      (some old, { t with slots := t.slots.set i old.invalidate }.countInvalidations 1) := by
  simp [invalidate, hi, hv]

theorem invalidate_of_invalid {i : Nat} {old : TlbSlot} (hi : t.slots[i]? = some old)
    (hv : old.valid = false) : t.invalidate i = (none, t) := by
  simp [invalidate, hi, hv]

theorem distinct_invalidate (h : t.Distinct) {i : Nat} {old : TlbSlot}
    (hi : t.slots[i]? = some old) (hv : old.valid = true) : (t.invalidate i).2.Distinct := by
  rw [invalidate_of_valid hi hv]
  obtain ⟨front, back, hs, hset⟩ := split_at hi old.invalidate
  simp only [Distinct, hs] at h
  simp only [Distinct, countInvalidations, hset]
  refine h.replace ?_
  intro hinv
  cases hinv

/-- Invalidating a slot forgets its page. -/
theorem cached_invalidate (h : t.Distinct) {i : Nat} {old : TlbSlot}
    (hi : t.slots[i]? = some old) (hv : old.valid = true) (k : PageKey) :
    (t.invalidate i).2.cached k = if k = old.page then none else t.cached k := by
  have h' := distinct_invalidate h hi hv
  rw [invalidate_of_valid hi hv] at h' ⊢
  obtain ⟨front, back, hs, hset⟩ := split_at hi old.invalidate
  have hd : DistinctSlots (front ++ old :: back) := hs ▸ h
  by_cases hk : k = old.page
  · rw [if_pos hk, cached_eq_none_iff]
    simp only [countInvalidations, hset]
    intro s hmem hsv
    rcases mem_replace.mp hmem with rfl | hmem
    · cases hsv
    · exact hk ▸ hd.others hv hmem hsv
  · rw [if_neg hk]
    refine cached_congr h h' ?_
    intro s hsv hp
    simp only [countInvalidations, hset]
    rw [hs, mem_replace, mem_replace]
    constructor
    · rintro (rfl | hmem)
      · cases hsv
      · exact Or.inr hmem
    · rintro (rfl | hmem)
      · exact absurd hp.symm hk
      · exact Or.inr hmem

theorem write_of_slot {i : Nat} {old : TlbSlot} (hi : t.slots[i]? = some old) (pid : Pid)
    (e : Entry) :
    t.write i pid e = (some old, { t with slots := t.slots.set i ⟨pid, e⟩ }.countRefill) := by
  simp [write, hi]

/-- A page that is not cached may be written to any slot. -/
theorem distinct_write (h : t.Distinct) {i : Nat} {old : TlbSlot}
    (hi : t.slots[i]? = some old) {pid : Pid} {e : Entry} (hnew : t.cached ⟨pid, e.vpn⟩ = none) :
    (t.write i pid e).2.Distinct := by
  rw [write_of_slot hi]
  obtain ⟨front, back, hs, hset⟩ := split_at hi ⟨pid, e⟩
  have hd : DistinctSlots (front ++ old :: back) := hs ▸ h
  simp only [Distinct, countRefill, hset]
  refine hd.replace ?_
  intro _ s hmem hsv
  refine cached_eq_none_iff.mp hnew s ?_ hsv
  rw [hs]
  exact mem_replace.mpr (Or.inr hmem)

/-- Filling a slot that is not valid adds its page to the map. -/
theorem cached_write (h : t.Distinct) {i : Nat} {old : TlbSlot} (hi : t.slots[i]? = some old)
    (hfree : old.valid = false) {pid : Pid} {e : Entry} (hv : e.valid = true)
    (hnew : t.cached ⟨pid, e.vpn⟩ = none) (k : PageKey) :
    (t.write i pid e).2.cached k = if k = ⟨pid, e.vpn⟩ then some e else t.cached k := by
  have h' := distinct_write h hi hnew
  rw [write_of_slot hi] at h' ⊢
  obtain ⟨front, back, hs, hset⟩ := split_at hi ⟨pid, e⟩
  by_cases hk : k = ⟨pid, e.vpn⟩
  · rw [if_pos hk, cached_eq_some_iff h']
    simp only [countRefill, hset]
    exact ⟨⟨pid, e⟩, mem_replace.mpr (Or.inl rfl), hv, hk.symm, rfl⟩
  · rw [if_neg hk]
    refine cached_congr h h' ?_
    intro s hsv hp
    simp only [countRefill, hset]
    rw [hs, mem_replace, mem_replace]
    constructor
    · rintro (rfl | hmem)
      · exact absurd hp.symm hk
      · exact Or.inr hmem
    · rintro (rfl | hmem)
      · rw [hfree] at hsv
        cases hsv
      · exact Or.inr hmem

theorem size_write (t : Tlb) (i : Nat) (pid : Pid) (e : Entry) :
    (t.write i pid e).2.size = t.size := by
  unfold write
  split
  · simp [countRefill, size]
  · rfl

theorem freeSlot_eq_some {i : Nat} (h : t.freeSlot = some i) :
    ∃ old, t.slots[i]? = some old ∧ old.valid = false := by
  obtain ⟨hi, hv, -⟩ := List.findIdx?_eq_some_iff_getElem.mp h
  exact ⟨t.slots[i], List.getElem?_eq_getElem hi, by simpa using hv⟩

end Tlb

end VirtualMemory
