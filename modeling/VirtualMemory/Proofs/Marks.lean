import VirtualMemory.Proofs.Maintained
import VirtualMemory.Proofs.Pager.Caching

/-!
# The marks of entries

An entry is read-only or not from when it is made. `marks` says which; the table and the cache are
marked by it when all their entries are, and entries that move between them, are merged or touched
keep their mark.
-/

namespace VirtualMemory

open Op

variable {marks : PageKey → Bool}

/-! ## The table -/

/-- The entry is about page `key`, and read-only if `marks` says so. -/
structure Entry.Marked (marks : PageKey → Bool) (key : PageKey) (e : Entry) : Prop where
  vpn : e.vpn = key.vpn
  readOnly : e.readOnly = marks key

/-- Only what the hardware saw is added, which is no mark. -/
theorem Entry.Marked.absorb {key : PageKey} {e : Entry} (h : e.Marked marks key) (other : Entry) :
    (e.absorb other).Marked marks key := ⟨h.vpn, h.readOnly⟩

def PageTable.Marked (marks : PageKey → Bool) (t : PageTable) : Prop :=
  ∀ key e, t.lookup key = some e → e.Marked marks key

def Tlb.Marked (marks : PageKey → Bool) (c : Tlb) : Prop :=
  ∀ s ∈ c.slots, s.valid = true → s.entry.Marked marks s.page

namespace PageTable

variable {t : PageTable} {key : PageKey} {e : Entry}

theorem Marked.congr {t' : PageTable} (h : t.Marked marks) (hentries : t'.entries = t.entries) :
    t'.Marked marks := by
  intro key e he
  rw [PageTable.lookup, hentries] at he
  exact h key e he

theorem Marked.insert (h : t.Marked marks) (he : e.Marked marks key) :
    Marked marks { t with entries := t.entries.insert key e } := by
  intro k e' hk
  rcases OrderedMap.get?_insert_eq_some.mp hk with ⟨rfl, rfl⟩ | ⟨-, hk⟩
  · exact he
  · exact h k e' hk

theorem maintains_onResident {α : Type} (x : Op ResidentIndex MemoryError α) :
    Maintains (Marked marks) (fun _ => True) (Op.on residentPart x) :=
  fun _ h => ⟨h.congr rfl, fun _ _ => trivial⟩

theorem maintains_insert (he : e.Marked marks key) :
    Maintains (Marked marks) (fun _ => True) (insert key e) := by
  refine .get fun t _ => ?_
  dsimp only
  split
  · exact .bind (.notify _) fun _ _ => .throw _
  have hstore : Maintains (Marked marks) (fun _ => True)
      (modify fun t => { t with entries := t.entries.insert key e } :
        Op PageTable MemoryError PUnit) := .modify fun t h => h.insert he
  split
  · exact .bind (maintains_onResident _) fun _ _ => hstore
  · exact hstore

/-- What `update` does last: the frame is the page's, and so is the entry. -/
theorem maintains_store (ppn : Ppn) (he : e.Marked marks key) :
    Maintains (Marked marks) (fun _ => True) (do
      Op.on residentPart (ResidentIndex.register ppn key)
      modify fun t => { t with entries := t.entries.insert key e } :
        Op PageTable MemoryError PUnit) :=
  .bind (maintains_onResident _) fun _ _ => .modify fun _ h => h.insert he

theorem maintains_update (he : e.Marked marks key) :
    Maintains (Marked marks) (fun _ => True) (update key e) := by
  refine .get fun t ht => ?_
  dsimp only
  split
  next old _ =>
    have hstore := maintains_store e.ppn (he.absorb old)
    split
    · split
      · split
        · exact .bind (.notify _) fun _ _ => .throw _
        · split
          · exact .bind (.set (ht.congr rfl)) fun _ _ => hstore
          · exact hstore
      · split
        · exact .bind (.set (ht.congr rfl)) fun _ _ => hstore
        · exact hstore
    · exact .pure trivial
  · exact .throw _

theorem maintains_remove (key : PageKey) :
    Maintains (Marked marks) (fun _ => True) (remove key) := by
  refine .get fun t ht => ?_
  split
  · refine .bind (.set ?_) fun _ _ => .pure trivial
    intro k e hk
    exact ht k e (OrderedMap.get?_erase_eq_some.mp hk).2
  · exact .throw _

end PageTable

/-! ## The cache -/

namespace Tlb

variable {c : Tlb} {key : PageKey} {e : Entry}

/-- It is enough to look at the entries that are cached. -/
theorem marked_iff (h : c.Distinct) :
    c.Marked marks ↔ ∀ key e, c.cached key = some e → e.Marked marks key := by
  simp only [cached_eq_some_iff h]
  constructor
  · rintro hc key e ⟨s, hs, hv, rfl, rfl⟩
    exact hc s hs hv
  · intro hc s hs hv
    exact hc s.page s.entry ⟨s, hs, hv, rfl, rfl⟩

/-- What leaves the cache is marked as it was in there. -/
theorem Marked.invalidateWhere (h : c.Marked marks) (p : TlbSlot → Bool) :
    (c.invalidateWhere p).2.Marked marks ∧ ∀ e ∈ (c.invalidateWhere p).1,
      ∃ s ∈ c.slots, p s = true ∧ s.entry = e ∧ e.Marked marks s.page := by
  constructor
  · intro s hs hv
    rw [slots_invalidateWhere, List.mem_map] at hs
    obtain ⟨old, hold, rfl⟩ := hs
    split at hv
    · cases hv
    next hkeep =>
      rw [if_neg hkeep]
      exact h old hold hv
  · intro e he
    rw [invalidateWhere_fst, List.mem_map] at he
    obtain ⟨s, hs, rfl⟩ := he
    rw [List.mem_filter, Bool.and_eq_true] at hs
    exact ⟨s, hs.1, hs.2.2, rfl, h s hs.1 hs.2.1⟩

/-- Entries of one page merge into one that is marked as they are. -/
theorem marked_mergeEntries {entries : List Entry} (h : ∀ e ∈ entries, e.Marked marks key)
    (he : mergeEntries entries = some e) : e.Marked marks key := by
  have habsorb : ∀ (rest : List Entry) (e : Entry), e.Marked marks key →
      (rest.foldl Entry.absorb e).Marked marks key := by
    intro rest
    induction rest with
    | nil => exact fun e he => he
    | cons head rest ih => exact fun e he => ih (e.absorb head) (he.absorb head)
  cases entries with
  | nil => cases he
  | cons head rest =>
    obtain rfl := Option.some.inj he
    exact habsorb rest head (h head List.mem_cons_self)

theorem Marked.invalidatePage (h : c.Marked marks) (key : PageKey) :
    (c.invalidatePage key.pid key.vpn).2.Marked marks ∧
      ∀ e, (c.invalidatePage key.pid key.vpn).1 = some e → e.Marked marks key := by
  obtain ⟨hc, hentries⟩ := h.invalidateWhere (·.translates key.pid key.vpn)
  refine ⟨hc, fun e he => marked_mergeEntries ?_ he⟩
  intro e he
  obtain ⟨s, -, ht, -, hmark⟩ := hentries e he
  exact (TlbSlot.translates_iff.mp ht).2 ▸ hmark

theorem Marked.invalidateAsid (h : c.Marked marks) (pid : Pid) :
    (c.invalidateAsid pid).2.Marked marks ∧
      ∀ e ∈ (c.invalidateAsid pid).1, e.Marked marks ⟨pid, e.vpn⟩ := by
  obtain ⟨hc, hentries⟩ := h.invalidateWhere (·.asid == pid)
  refine ⟨hc, fun e he => ?_⟩
  obtain ⟨s, -, hasid, rfl, hmark⟩ := hentries e he
  exact beq_iff_eq.mp hasid ▸ hmark

theorem Marked.set (h : c.Marked marks) {c' : Tlb} {i : Nat} {s : TlbSlot}
    (hslots : c'.slots = c.slots.set i s) (hs : s.valid = true → s.entry.Marked marks s.page) :
    c'.Marked marks := by
  intro s' hs' hv
  rw [hslots] at hs'
  rcases List.mem_or_eq_of_mem_set hs' with hmem | rfl
  · exact h s' hmem hv
  · exact hs hv

theorem Marked.invalidate (h : c.Marked marks) (i : Nat) :
    (c.invalidate i).2.Marked marks ∧
      ∀ old, (c.invalidate i).1 = some old → old.entry.Marked marks old.page := by
  cases hi : c.slots[i]? with
  | none =>
    simp only [Tlb.invalidate, hi]
    refine ⟨h, ?_⟩
    rintro old ⟨⟩
  | some old =>
    cases hv : old.valid with
    | false =>
      rw [invalidate_of_invalid hi hv]
      refine ⟨h, ?_⟩
      rintro old ⟨⟩
    | true =>
      rw [invalidate_of_valid hi hv]
      refine ⟨h.set rfl fun hv' => absurd hv' Bool.false_ne_true, ?_⟩
      rintro s ⟨⟩
      exact h old (List.mem_of_getElem? hi) hv

theorem Marked.write (h : c.Marked marks) (i : Nat) {pid : Pid}
    (he : e.Marked marks ⟨pid, e.vpn⟩) : (c.write i pid e).2.Marked marks := by
  unfold Tlb.write
  split
  · exact h.set rfl fun _ => he
  · exact h

theorem Marked.touch (h : c.Marked marks) (pid : Pid) (vpn : Vpn) (access : Access) :
    (c.touch pid vpn access).Marked marks := by
  intro s hs hv
  rcases mem_modifyFirst hs with hmem | ⟨old, hmem, rfl⟩
  · exact h s hmem hv
  · rw [TlbSlot.valid, Entry.valid_touched] at hv
    obtain ⟨hvpn, hro⟩ := h old hmem hv
    rw [page_touched]
    exact ⟨(Entry.vpn_touched ..).trans hvpn, (Entry.readOnly_touched ..).trans hro⟩

end Tlb

/-- An access sets the flags of use, which are no marks. -/
theorem Processor.maintains_translate (pid : Pid) (vaddr : VirtAddr) (access : Access) :
    Maintains (fun c : Processor => c.tlb.Marked marks) (fun _ => True)
      (translate pid vaddr access) := by
  refine .get fun c hc => .bind (.checkDivisor _) fun _ _ => ?_
  dsimp only
  split
  · split
    · exact .throw _
    · exact .bind (.set (hc.touch pid _ access)) fun _ _ => .pure trivial
  · exact .bind (.set hc) fun _ _ => .throw _

end VirtualMemory
