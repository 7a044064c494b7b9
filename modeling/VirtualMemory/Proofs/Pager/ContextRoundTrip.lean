import VirtualMemory.Proofs.Pager.Closing

/-!
# Saving and restoring a context

A process that leaves the processor and comes back at once finds the cache as it was. Its entries go
back into the first slots that are free, so that they may stand in other slots than before; there is
room for them because their own slots became free. What goes back is what the table says of a page,
and that is what the slot of the page had seen, since the table was told on the way out.
-/

namespace VirtualMemory

namespace Tlb

variable {t : Tlb} {pid : Pid} {entries : List Entry} {e : Entry} {i : Nat} {s : TlbSlot}

def validOnes (t : Tlb) : List TlbSlot := t.slots.filter (·.valid)

/-- The cache after an entry went into the first slot that is free. -/
def placed (t : Tlb) (pid : Pid) (e : Entry) : Tlb :=
  match t.freeSlot with
  | some i => (t.write i pid e).2
  | none => t

/-- The cache after the entries went in one after the other. -/
def placedAll (t : Tlb) (pid : Pid) (entries : List Entry) : Tlb :=
  entries.foldl (fun t e => t.placed pid e) t

/-! ## Slots that are taken stay as they are -/

theorem getElem?_placed (hi : t.slots[i]? = some s) (hv : s.valid = true) :
    (t.placed pid e).slots[i]? = some s := by
  rw [placed]
  split
  next j hj =>
    obtain ⟨old, hold, hfree⟩ := freeSlot_eq_some hj
    have hne : j ≠ i := by
      rintro rfl
      rw [hi] at hold
      obtain rfl := Option.some.inj hold
      rw [hv] at hfree
      cases hfree
    rw [write_of_slot hold]
    simp [countRefill, List.getElem?_set_ne hne, hi]
  next => exact hi

theorem getElem?_placedAll (hi : t.slots[i]? = some s) (hv : s.valid = true) :
    (t.placedAll pid entries).slots[i]? = some s := by
  induction entries generalizing t with
  | nil => exact hi
  | cons e rest ih => exact ih (getElem?_placed hi hv)

/-! ## Room for all entries -/

theorem exists_freeSlot (h : t.validOnes.length < t.size) : ∃ i, t.freeSlot = some i := by
  cases hf : t.freeSlot with
  | some i => exact ⟨i, rfl⟩
  | none =>
    have hall : ∀ s ∈ t.slots, s.valid = true := by
      simpa [freeSlot, List.findIdx?_eq_none_iff] using hf
    rw [validOnes, List.filter_eq_self.mpr hall] at h
    exact absurd h (Nat.lt_irrefl _)

theorem perm_placed (hv : e.valid = true) (hroom : t.validOnes.length < t.size) :
    (t.placed pid e).validOnes.Perm (⟨pid, e⟩ :: t.validOnes) := by
  obtain ⟨i, hi⟩ := exists_freeSlot hroom
  obtain ⟨old, hold, hfree⟩ := freeSlot_eq_some hi
  obtain ⟨front, back, hs, hset⟩ := split_at hold ⟨pid, e⟩
  have hnew : TlbSlot.valid ⟨pid, e⟩ = true := hv
  simp only [placed, hi, write_of_slot hold, countRefill, validOnes, hset]
  rw [hs, List.filter_append, List.filter_append, List.filter_cons_of_pos hnew,
    List.filter_cons_of_neg (by simp [hfree])]
  exact List.perm_middle

theorem size_placed (t : Tlb) (pid : Pid) (e : Entry) : (t.placed pid e).size = t.size := by
  rw [placed]
  split
  · exact size_write _ _ _ _
  · rfl

/-- Each entry takes one slot. -/
theorem perm_placedAll (hv : ∀ e ∈ entries, e.valid = true)
    (hroom : entries.length + t.validOnes.length ≤ t.size) :
    (t.placedAll pid entries).validOnes.Perm
      (entries.map (fun e => ⟨pid, e⟩) ++ t.validOnes) := by
  induction entries generalizing t with
  | nil => exact .refl _
  | cons e rest ih =>
    obtain ⟨he, hrest⟩ := List.forall_mem_cons.mp hv
    rw [List.length_cons] at hroom
    have hplaced : (t.placed pid e).validOnes.Perm (⟨pid, e⟩ :: t.validOnes) :=
      perm_placed he (by omega)
    have hroom' : rest.length + (t.placed pid e).validOnes.length ≤ (t.placed pid e).size := by
      rw [hplaced.length_eq, size_placed, List.length_cons]
      omega
    exact ((ih hrest hroom').trans (hplaced.append_left _)).trans List.perm_middle

/-! ## The slots of a process leave and come back -/

theorem validOnes_invalidateAsid (t : Tlb) (pid : Pid) :
    (t.invalidateAsid pid).2.validOnes = t.validOnes.filter fun s => !(s.asid == pid) := by
  rw [validOnes, validOnes, invalidateAsid, slots_invalidateWhere]
  induction t.slots with
  | nil => rfl
  | cons s rest ih =>
    have hgone : s.invalidate.valid = false := rfl
    cases hv : s.valid <;> cases hs : s.asid == pid <;>
      simp only [List.map_cons, List.filter_cons, hv, hs, hgone, ih, Bool.and_self, Bool.and_false,
        Bool.false_and, Bool.not_false, Bool.not_true, Bool.false_eq_true, if_true, if_false]

theorem map_invalidateAsid (t : Tlb) (pid : Pid) :
    (t.invalidateAsid pid).1.map (fun e => ⟨pid, e⟩) =
      t.validOnes.filter fun s => s.asid == pid := by
  have hself : ∀ s ∈ t.slots.filter (fun s => s.valid && s.asid == pid),
      (⟨pid, s.entry⟩ : TlbSlot) = s := by
    intro s hs
    have hpid : s.asid = pid := by
      simpa using (Bool.and_eq_true_iff.mp (List.mem_filter.mp hs).2).2
    rw [← hpid]
  rw [invalidateAsid, invalidateWhere_fst, List.map_map, validOnes, List.filter_filter]
  refine (List.map_congr_left hself).trans (List.map_id' _ |>.trans ?_)
  exact List.filter_congr fun s _ => Bool.and_comm _ _

/-- A process whose slots were invalidated has room for what they held. -/
theorem perm_placedAll_invalidated (t' : Tlb) (hs : t'.slots = (t.invalidateAsid pid).2.slots)
    (hv : ∀ e ∈ (t.invalidateAsid pid).1, e.valid = true) :
    (t.invalidateAsid pid).1.length + t'.validOnes.length ≤ t'.size ∧
      (t'.placedAll pid (t.invalidateAsid pid).1).validOnes.Perm t.validOnes := by
  have hparts : (t.validOnes.filter (fun s => s.asid == pid) ++
      t.validOnes.filter fun s => !(s.asid == pid)).Perm t.validOnes :=
    List.filter_append_perm _ _
  have hones : t'.validOnes = t.validOnes.filter fun s => !(s.asid == pid) := by
    rw [← validOnes_invalidateAsid, validOnes, validOnes, hs]
  have hsize : t'.size = t.size := by
    rw [size, hs, ← size, invalidateAsid, size_invalidateWhere]
  rw [← hones, ← map_invalidateAsid] at hparts
  have hroom : (t.invalidateAsid pid).1.length + t'.validOnes.length ≤ t'.size := by
    have hlength := hparts.length_eq
    rw [List.length_append, List.length_map] at hlength
    rw [hlength, hsize]
    exact List.length_filter_le _ _
  exact ⟨hroom, (perm_placedAll hv hroom).trans hparts⟩

/-! ## What is known of pages -/

theorem distinct_placed (h : t.Distinct) (hnew : t.cached ⟨pid, e.vpn⟩ = none) :
    (t.placed pid e).Distinct := by
  rw [placed]
  split
  next i hi =>
    obtain ⟨old, hold, -⟩ := freeSlot_eq_some hi
    exact distinct_write h hold hnew
  next => exact h

theorem cached_placed_other (h : t.Distinct) (hv : e.valid = true)
    (hnew : t.cached ⟨pid, e.vpn⟩ = none) {k : PageKey} (hk : k ≠ ⟨pid, e.vpn⟩) :
    (t.placed pid e).cached k = t.cached k := by
  rw [placed]
  split
  next i hi =>
    obtain ⟨old, hold, hfree⟩ := freeSlot_eq_some hi
    exact (cached_write h hold hfree hv hnew k).trans (if_neg hk)
  next => rfl

end Tlb

namespace Pager

variable {p p' : Pager} {pid : Pid} {e : Entry} {entries : List Entry} {held : Option Ppn}
  {c : Config}

/-! ## Restoring -/

/-- With a free slot, an entry that the table knows goes back as it is. -/
theorem reinstall_placed (hlookup : p.table.lookup ⟨pid, e.vpn⟩ = some e) (hv : e.valid = true)
    (hnew : p.tlb.cached ⟨pid, e.vpn⟩ = none) (hroom : p.tlb.validOnes.length < p.tlb.size) :
    (reinstall pid e).Ends p fun r p' => r = .ok () ∧ p' = p.setTlb (p.tlb.placed pid e) := by
  have hvalid : p.table.lookupValid ⟨pid, e.vpn⟩ = some e :=
    PageTable.lookupValid_eq_some_iff.mpr ⟨hlookup, hv⟩
  have hfind : (p.tlb.find pid e.vpn).isSome = false := by
    rw [Tlb.find_isSome p.tlb ⟨pid, e.vpn⟩, hnew]
    rfl
  have hsize : p.tlb.size ≠ 0 := Nat.ne_of_gt (Nat.zero_lt_of_lt hroom)
  obtain ⟨i, hi⟩ := Tlb.exists_freeSlot hroom
  obtain ⟨old, hold, hfree⟩ := Tlb.freeSlot_eq_some hi
  simp only [reinstall, refill, chooseSlot, flushSlot, Op.ends_bind, Op.ends_get, hvalid, if_true,
    hfind, Bool.false_eq_true, if_false, hsize, Op.ends_modifyGet, hi,
    Tlb.invalidate_of_invalid hold hfree, Op.ends_pure, Op.ends_modify, Tlb.placed]
  exact ⟨trivial, rfl⟩

theorem reinstallAll_placed (hd : p.tlb.Distinct) (hnodup : (entries.map (·.vpn)).Nodup)
    (hk : ∀ e ∈ entries, p.table.lookup ⟨pid, e.vpn⟩ = some e ∧ e.valid = true)
    (hnew : ∀ e ∈ entries, p.tlb.cached ⟨pid, e.vpn⟩ = none)
    (hroom : entries.length + p.tlb.validOnes.length ≤ p.tlb.size) :
    (entries.forM (reinstall pid) : Op Pager Empty PUnit).Ends p fun r p' =>
      r = .ok ⟨⟩ ∧ p' = p.setTlb (p.tlb.placedAll pid entries) := by
  induction entries generalizing p with
  | nil => exact ⟨rfl, rfl⟩
  | cons e rest ih =>
    obtain ⟨hhead, hrest⟩ := List.nodup_cons.mp hnodup
    obtain ⟨⟨hlookup, hv⟩, hk⟩ := List.forall_mem_cons.mp hk
    obtain ⟨hnone, hnew⟩ := List.forall_mem_cons.mp hnew
    rw [List.length_cons] at hroom
    simp only [List.forM, Op.ends_bind]
    refine (reinstall_placed hlookup hv hnone (by omega)).imp ?_
    rintro r p₁ ⟨rfl, rfl⟩
    refine ih (Tlb.distinct_placed hd hnone) hrest hk ?_ ?_
    · intro e' he'
      refine (Tlb.cached_placed_other hd hv hnone ?_).trans (hnew e' he')
      intro heq
      exact hhead (List.mem_map.mpr ⟨e', he', congrArg PageKey.vpn heq⟩)
    · have hplaced : (p.tlb.placed pid e).validOnes.Perm (⟨pid, e⟩ :: p.tlb.validOnes) :=
        Tlb.perm_placed hv (by omega)
      show rest.length + (p.tlb.placed pid e).validOnes.length ≤ (p.tlb.placed pid e).size
      rw [hplaced.length_eq, Tlb.size_placed, List.length_cons]
      omega

/-! ## The round trip -/

/-- On its way out the table has learned what the slots of the process saw. -/
theorem lookup_saved (h : p.WellFormed held) (pid : Pid) (k : PageKey) :
    (p.saved pid).table.lookup k = if k.pid = pid then p.merged k else p.table.lookup k := by
  have hc := cached_saved p pid k
  cases (recaching_saved h pid).pages k with
  | same ht hcached =>
    rw [ht]
    split
    next hpid =>
      rw [if_pos hpid, hcached] at hc
      exact (merged_of_uncached hc).symm
    next => rfl
  | flushed seen hcached ht hnone =>
    rw [hnone, hcached] at hc
    split at hc
    next hpid => rw [if_pos hpid, ht, h.merged_of_cached hcached]
    next => cases hc
  | filled known hcached hp ht _ =>
    rw [ht, merged_of_uncached hcached, hp, ite_self]

/-- The cache holds what it held, the entries of process `pid` in other slots perhaps, and the table
has learned what they saw. Nothing is left aside, and nothing else has changed. -/
structure Returned (p p' : Pager) (pid : Pid) : Prop where
  slots : p'.tlb.validOnes.Perm p.tlb.validOnes
  others : ∀ (i : Nat) (s : TlbSlot), p.tlb.slots[i]? = some s → s.valid = true → s.asid ≠ pid →
    p'.tlb.slots[i]? = some s
  draws : p'.draws = p.draws
  entries : ∀ k, p'.table.lookup k = if k.pid = pid then p.merged k else p.table.lookup k
  resident : p'.table.resident = p.table.resident
  frames : p'.frames = p.frames
  memory : p'.memory = p.memory
  swap : p'.swap = p.swap
  spaces : ∀ q, p'.spaces.get? q =
    if q = pid then (p.spaces.get? q).map fun space => { space with snapshot := [] }
    else p.spaces.get? q

theorem restoreContext_saved (h : p.WellFormed held) {space : Space}
    (hspace : p.spaces.get? pid = some space) :
    (restoreContext pid).Ends (p.saved pid) fun r p' =>
      r = .ok () ∧ p' = ((p.saved pid).setSnapshot pid []).setTlb
        ((p.saved pid).tlb.placedAll pid (p.tlb.invalidateAsid pid).1) := by
  obtain ⟨hnodup, hk⟩ := h.invalidated pid
  have hget : (p.saved pid).spaces.get? pid =
      some { space with snapshot := (p.tlb.invalidateAsid pid).1 } := by
    simp [saved, setSnapshot, recache, OrderedMap.get?_modify, hspace]
  have hcached : ∀ e ∈ (p.tlb.invalidateAsid pid).1, p.tlb.cached ⟨pid, e.vpn⟩ = some e :=
    fun e he => (Tlb.mem_invalidateAsid h.distinct).mp he
  have hv : ∀ e ∈ (p.tlb.invalidateAsid pid).1, e.valid = true :=
    fun e he => (h.cached _ e (hcached e he)).1.valid
  have hroom := (Tlb.perm_placedAll_invalidated (p.saved pid).tlb rfl hv).1
  simp only [restoreContext, Op.ends_bind, Op.ends_get, hget, Op.ends_modify]
  refine reinstallAll_placed (recaching_saved h pid).distinct hnodup ?_ ?_ hroom
  · intro e he
    refine ⟨?_, hv e he⟩
    show (p.saved pid).table.lookup ⟨pid, e.vpn⟩ = some e
    rw [lookup_saved h, if_pos rfl, h.merged_of_cached (hcached e he)]
  · intro e he
    exact (cached_saved p pid ⟨pid, e.vpn⟩).trans (if_pos rfl)

/-- A context that is saved and at once restored comes back, whatever it holds. -/
theorem context_returns (hreached : Reached c p) (hspace : p.spaces.contains pid = true) :
    Returned p (restoreContext pid (saveContext pid p).state).state pid := by
  have h := hreached.wellFormed
  obtain ⟨space, hspace⟩ := Option.isSome_iff_exists.mp hspace
  obtain ⟨-, hsaved⟩ := saveContext_saved h pid
  obtain ⟨-, hrestored⟩ := restoreContext_saved h hspace
  rw [hsaved, hrestored]
  have hv : ∀ e ∈ (p.tlb.invalidateAsid pid).1, e.valid = true := fun e he =>
    (h.cached _ e ((Tlb.mem_invalidateAsid h.distinct).mp he)).1.valid
  constructor
  · exact (Tlb.perm_placedAll_invalidated (p.saved pid).tlb rfl hv).2
  · intro i s hi hs hpid
    refine Tlb.getElem?_placedAll ?_ hs
    show (p.tlb.invalidateAsid pid).2.slots[i]? = some s
    rw [Tlb.invalidateAsid, Tlb.slots_invalidateWhere, List.getElem?_map, hi]
    simp [hpid]
  · rfl
  · exact lookup_saved h pid
  · exact PageTable.resident_learningAll _ _ _
  · rfl
  · rfl
  · rfl
  · intro q
    simp only [setTlb, saved, setSnapshot, recache, OrderedMap.get?_modify]
    split
    next hq =>
      subst hq
      simp only [if_true, Option.map_map]
      rfl
    next => rfl

/-- Two processes, both of whose pages are cached, the one in the first slot having written. -/
def sharing : List Event :=
  [.write 1 ⟨1⟩ [7], .miss 2 ⟨0⟩, .miss 1 ⟨0⟩, .register 2 1 none, .register 1 1 none]

theorem context_returns_sharing :
    (pair.after sharing).spaces.contains 1 = true ∧
      Returned (pair.after sharing)
        (restoreContext 1 (saveContext 1 (pair.after sharing)).state).state 1 := by
  have hspace : (pair.after sharing).spaces.contains 1 = true := by decide +kernel
  exact ⟨hspace, context_returns ((Reached.created created_pair).after sharing) hspace⟩

end Pager

end VirtualMemory
