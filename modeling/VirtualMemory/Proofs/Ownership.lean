import VirtualMemory.PageTable
import VirtualMemory.Proofs.Residence

/-!
# Entries and owners agree

In a well formed table a frame is owned by a page exactly when the page has a valid entry for that
frame. The changes that the pager makes keep this: a page comes in on a frame without owner
(`holding`), an entry takes over what a cached copy has seen (`learning`), a page leaves with its
frame (`without`). A well formed table passes its audit.
-/

namespace VirtualMemory

/-- `cached` is a copy of `known` that may have seen more of the page. -/
structure Entry.Extends (cached known : Entry) : Prop where
  vpn : cached.vpn = known.vpn
  ppn : cached.ppn = known.ppn
  valid : cached.valid = known.valid
  readOnly : cached.readOnly = known.readOnly
  used : known.used = true → cached.used = true
  dirty : known.dirty = true → cached.dirty = true

namespace Entry

theorem Extends.refl (e : Entry) : e.Extends e := ⟨rfl, rfl, rfl, rfl, id, id⟩

/-- Nothing is learned from a copy but what the copy says. -/
theorem Extends.absorb {cached known : Entry} (h : cached.Extends known) :
    cached.absorb known = cached := by
  obtain ⟨vpn, ppn, ⟨valid, readOnly, used, dirty⟩⟩ := cached
  have hu := h.used
  have hd := h.dirty
  simp only [Entry.used, Entry.dirty] at hu hd
  simp only [Entry.absorb, Flags.absorb, Entry.mk.injEq, Flags.mk.injEq, true_and,
    Bool.or_eq_left_iff_imp]
  exact ⟨hu, hd⟩

/-- Absorbing what a copy has seen gives the copy. -/
theorem Extends.absorbed {cached known : Entry} (h : cached.Extends known) :
    known.absorb cached = cached := by
  obtain ⟨vpn, ppn, ⟨valid, readOnly, used, dirty⟩⟩ := known
  obtain ⟨vpn', ppn', ⟨valid', readOnly', used', dirty'⟩⟩ := cached
  obtain ⟨rfl, rfl, hvalid, hro, hu, hd⟩ := h
  simp only [Entry.valid, Entry.readOnly, Entry.used, Entry.dirty] at hvalid hro hu hd
  simp only [Entry.absorb, Flags.absorb, Entry.mk.injEq, Flags.mk.injEq, hvalid, hro, true_and,
    Bool.or_eq_right_iff_imp]
  exact ⟨hu, hd⟩

theorem touched_extends {cached known : Entry} (h : cached.Extends known) (access : Access) :
    (cached.touched access).Extends known := by
  cases access with
  | read => exact ⟨h.vpn, h.ppn, h.valid, h.readOnly, fun _ => rfl, h.dirty⟩
  | write => exact ⟨h.vpn, h.ppn, h.valid, h.readOnly, fun _ => rfl, fun _ => rfl⟩

theorem valid_touched (e : Entry) (access : Access) : (e.touched access).valid = e.valid := by
  cases access <;> rfl

theorem vpn_touched (e : Entry) (access : Access) : (e.touched access).vpn = e.vpn := by
  cases access <;> rfl

theorem ppn_touched (e : Entry) (access : Access) : (e.touched access).ppn = e.ppn := by
  cases access <;> rfl

theorem readOnly_touched (e : Entry) (access : Access) :
    (e.touched access).readOnly = e.readOnly := by
  cases access <;> rfl

theorem dirty_touched (e : Entry) (access : Access) :
    (e.touched access).dirty = (e.dirty || access == .write) := by
  cases access
  · exact (Bool.or_false e.dirty).symm
  · exact (Bool.or_true e.dirty).symm

end Entry

namespace PageTable

variable {t : PageTable} {key : PageKey}

/-- A page owns a frame exactly when its valid entry maps it there. -/
structure WellFormed (t : PageTable) : Prop where
  index : t.resident.WellFormed
  owner_iff : ∀ ppn key, t.owner? ppn = some key ↔
    ∃ e, t.lookup key = some e ∧ e.valid = true ∧ e.ppn = ppn

theorem wellFormed_empty (pages : Nat) : (empty pages).WellFormed := by
  constructor
  · exact ResidentIndex.wellFormed_empty pages
  · intro ppn key
    have hnone : (empty pages).owner? ppn = none :=
      ResidentIndex.owner?_eq_none_iff.mpr (ResidentIndex.residence?_empty pages ppn)
    rw [hnone]
    constructor
    · intro h
      cases h
    · rintro ⟨e, he, -⟩
      cases he

/-- A valid entry owns its frame. -/
theorem WellFormed.owner {t : PageTable} (h : t.WellFormed) {key : PageKey} {e : Entry}
    (he : t.lookup key = some e) (hv : e.valid = true) : t.owner? e.ppn = some key :=
  (h.owner_iff e.ppn key).mpr ⟨e, he, hv, rfl⟩

/-- Two pages do not share a frame. -/
theorem WellFormed.page_unique {t : PageTable} (h : t.WellFormed) {k k' : PageKey} {e e' : Entry}
    (he : t.lookup k = some e) (he' : t.lookup k' = some e') (hv : e.valid = true)
    (hv' : e'.valid = true) (hppn : e.ppn = e'.ppn) : k = k' := by
  have ho := h.owner he hv
  rw [hppn, h.owner he' hv'] at ho
  exact (Option.some.inj ho).symm

theorem lookupValid_eq_some_iff {e : Entry} :
    t.lookupValid key = some e ↔ t.lookup key = some e ∧ e.valid = true := by
  simp [lookupValid, Option.filter_eq_some_iff]

/-! ## A page comes in -/

def holding (t : PageTable) (key : PageKey) (e : Entry) : PageTable :=
  ⟨t.entries.insert key e, t.resident.add e.ppn key⟩

theorem lookup_holding (t : PageTable) (key : PageKey) (e : Entry) (k : PageKey) :
    (t.holding key e).lookup k = if k = key then some e else t.lookup k :=
  OrderedMap.get?_insert t.entries key k e

theorem owner?_holding (key : PageKey) {e : Entry}
    (hlt : e.ppn.toNat < t.resident.residences.size) (ppn : Ppn) :
    (t.holding key e).owner? ppn = if ppn = e.ppn then some key else t.owner? ppn :=
  ResidentIndex.owner?_add key hlt ppn

/-- A new page may hold a frame that exists and has no owner. -/
theorem WellFormed.holding (h : t.WellFormed) {e : Entry} (hv : e.valid = true)
    (hnew : t.lookup key = none) (hlt : e.ppn.toNat < t.resident.residences.size)
    (hfree : t.owner? e.ppn = none) : (t.holding key e).WellFormed := by
  constructor
  · exact h.index.add key hlt hfree
  · intro ppn k
    rw [owner?_holding key hlt, lookup_holding]
    by_cases hp : ppn = e.ppn
    · subst hp
      rw [if_pos rfl]
      constructor
      · intro hk
        obtain rfl := Option.some.inj hk
        exact ⟨e, if_pos rfl, hv, rfl⟩
      · rintro ⟨e', he', hv', hp'⟩
        by_cases hk : k = key
        · rw [hk]
        · rw [if_neg hk] at he'
          have ho := h.owner he' hv'
          rw [hp', hfree] at ho
          cases ho
    · rw [if_neg hp, h.owner_iff]
      by_cases hk : k = key
      · subst hk
        rw [if_pos rfl, hnew]
        constructor
        · rintro ⟨e', he', -⟩
          cases he'
        · rintro ⟨e', he', -, hp'⟩
          obtain rfl := Option.some.inj he'
          exact absurd hp'.symm hp
      · rw [if_neg hk]

/-- Such a page is stored. -/
theorem insert_of_new {e : Entry} (hv : e.valid = true) (hnew : t.lookup key = none)
    (hlt : e.ppn.toNat < t.resident.residences.size) (hfree : t.owner? e.ppn = none) :
    (insert key e).Ends t fun r t' => r = .ok () ∧ t' = t.holding key e := by
  have hc : t.entries.contains key = false := by
    rw [OrderedMap.contains, show t.entries.get? key = none from hnew]
    rfl
  simp only [insert, Op.ends_bind, Op.ends_get, hc, Bool.false_eq_true, if_false, hv, if_true,
    Op.ends_on, residentPart]
  refine (ResidentIndex.register_of_free key hlt hfree).imp ?_
  rintro r r' ⟨rfl, rfl⟩
  exact ⟨rfl, rfl⟩

/-! ## An entry learns what a cached copy has seen -/

def learning (t : PageTable) (key : PageKey) (e : Entry) : PageTable :=
  { t with entries := t.entries.insert key e }

theorem lookup_learning (t : PageTable) (key : PageKey) (e : Entry) (k : PageKey) :
    (t.learning key e).lookup k = if k = key then some e else t.lookup k :=
  OrderedMap.get?_insert t.entries key k e

/-- The other entries of a process are as before. -/
theorem lookup_learning_of_mem {pid : Pid} {head : Entry} {rest : List Entry}
    (hhead : head.vpn ∉ rest.map (·.vpn)) {e : Entry} (he : e ∈ rest) (t : PageTable) :
    (t.learning ⟨pid, head.vpn⟩ head).lookup ⟨pid, e.vpn⟩ = t.lookup ⟨pid, e.vpn⟩ := by
  rw [lookup_learning, if_neg]
  intro heq
  exact hhead (List.mem_map.mpr ⟨e, he, congrArg PageKey.vpn heq⟩)

theorem WellFormed.learning (h : t.WellFormed) {e known : Entry}
    (hk : t.lookup key = some known) (he : e.Extends known) : (t.learning key e).WellFormed := by
  constructor
  · exact h.index
  · intro ppn k
    rw [show (t.learning key e).owner? ppn = t.owner? ppn from rfl, h.owner_iff, lookup_learning]
    by_cases hkey : k = key
    · rw [hkey, hk, if_pos rfl]
      simp only [Option.some.injEq, exists_eq_left', he.valid, he.ppn]
    · rw [if_neg hkey]

/-- An update by what a copy has seen moves no page. -/
theorem update_of_extends (h : t.WellFormed) {e known : Entry} (hk : t.lookup key = some known)
    (hv : known.valid = true) (he : e.Extends known) :
    (update key e).Ends t fun r t' => r = .ok () ∧ t' = t.learning key e := by
  have hown : t.owner? known.ppn = some key := h.owner hk hv
  have hev : e.valid = true := he.valid.trans hv
  simp only [update, Op.ends_bind, Op.ends_get, hk, hev, if_true, he.ppn, hown, ne_eq,
    not_true_eq_false, if_false, bne_self_eq_false, Bool.and_false, Bool.false_eq_true, Op.ends_on,
    residentPart]
  refine (ResidentIndex.register_of_owner hown).imp ?_
  rintro r r' ⟨rfl, rfl⟩
  refine ⟨rfl, ?_⟩
  rw [he.absorb]
  rfl

/-- A table that learns of several pages of a process. -/
def learningAll (t : PageTable) (pid : Pid) (entries : List Entry) : PageTable :=
  entries.foldl (fun t e => t.learning ⟨pid, e.vpn⟩ e) t

theorem resident_learningAll (t : PageTable) (pid : Pid) (entries : List Entry) :
    (t.learningAll pid entries).resident = t.resident := by
  induction entries generalizing t with
  | nil => rfl
  | cons e rest ih => exact ih _

theorem lookup_learningAll_other {k : PageKey} {pid : Pid} {entries : List Entry}
    (h : ∀ e ∈ entries, k ≠ ⟨pid, e.vpn⟩) (t : PageTable) :
    (t.learningAll pid entries).lookup k = t.lookup k := by
  induction entries generalizing t with
  | nil => rfl
  | cons e rest ih =>
    obtain ⟨he, hrest⟩ := List.forall_mem_cons.mp h
    exact (ih hrest _).trans ((lookup_learning t _ e k).trans (if_neg he))

/-- Of each page the table has learned its entry, if there is only one for it. -/
theorem lookup_learningAll {entries : List Entry} (hnodup : (entries.map (·.vpn)).Nodup)
    {e : Entry} (he : e ∈ entries) (pid : Pid) (t : PageTable) :
    (t.learningAll pid entries).lookup ⟨pid, e.vpn⟩ = some e := by
  induction entries generalizing t with
  | nil => cases he
  | cons head rest ih =>
    obtain ⟨hhead, hrest⟩ := List.nodup_cons.mp hnodup
    rcases List.mem_cons.mp he with rfl | he
    · have hother : ∀ e' ∈ rest, (⟨pid, e.vpn⟩ : PageKey) ≠ ⟨pid, e'.vpn⟩ := by
        intro e' he' heq
        exact hhead (List.mem_map.mpr ⟨e', he', (congrArg PageKey.vpn heq).symm⟩)
      refine (lookup_learningAll_other hother (t.learning ⟨pid, e.vpn⟩ e)).trans ?_
      rw [lookup_learning, if_pos rfl]
    · exact ih hrest he (t.learning ⟨pid, head.vpn⟩ head)

theorem WellFormed.learningAll (h : t.WellFormed) {pid : Pid} {entries : List Entry}
    (hnodup : (entries.map (·.vpn)).Nodup)
    (hk : ∀ e ∈ entries, ∃ known, t.lookup ⟨pid, e.vpn⟩ = some known ∧ e.Extends known) :
    (t.learningAll pid entries).WellFormed := by
  induction entries generalizing t with
  | nil => exact h
  | cons head rest ih =>
    obtain ⟨hhead, hrest⟩ := List.nodup_cons.mp hnodup
    obtain ⟨hknown, hk⟩ := List.forall_mem_cons.mp hk
    obtain ⟨known, hlookup, hext⟩ := hknown
    refine ih (h.learning hlookup hext) hrest ?_
    intro e he
    rw [lookup_learning_of_mem hhead he]
    exact hk e he

/-! ## A page leaves -/

def without (t : PageTable) (key : PageKey) (ppn : Ppn) : PageTable :=
  ⟨t.entries.erase key, (t.resident.unregister ppn).2⟩

theorem lookup_without (t : PageTable) (key : PageKey) (ppn : Ppn) (k : PageKey) :
    (t.without key ppn).lookup k = if k = key then none else t.lookup k :=
  OrderedMap.get?_erase t.entries key k

theorem owner?_without (h : t.WellFormed) (key : PageKey) (ppn q : Ppn) :
    (t.without key ppn).owner? q = if q = ppn then none else t.owner? q :=
  ResidentIndex.owner?_unregister h.index ppn q

/-- A page and its frame leave the table together. -/
theorem WellFormed.without (h : t.WellFormed) {e : Entry} (he : t.lookup key = some e)
    (hv : e.valid = true) : (t.without key e.ppn).WellFormed := by
  constructor
  · exact h.index.unregister e.ppn
  · intro ppn k
    rw [owner?_without h, lookup_without]
    by_cases hk : k = key
    · subst hk
      rw [if_pos rfl]
      constructor
      · intro ho
        split at ho
        · cases ho
        next hp =>
          obtain ⟨e', he', -, hp'⟩ := (h.owner_iff ppn k).mp ho
          rw [he] at he'
          obtain rfl := Option.some.inj he'
          exact absurd hp'.symm hp
      · rintro ⟨e', he', -⟩
        cases he'
    · rw [if_neg hk]
      by_cases hp : ppn = e.ppn
      · subst hp
        rw [if_pos rfl]
        constructor
        · intro ho
          cases ho
        · rintro ⟨e', he', hv', hp'⟩
          exact absurd (h.page_unique he' he hv' hv hp') hk
      · rw [if_neg hp, h.owner_iff]

/-- Removing a page answers its entry. -/
theorem remove_of_valid {e : Entry} (he : t.lookup key = some e) (hv : e.valid = true) :
    (remove key).Ends t fun r t' => r = .ok e ∧ t' = t.without key e.ppn := by
  simp only [remove, Op.ends_bind, Op.ends_get, he, hv, if_true, Op.ends_set, Op.ends_pure]
  exact ⟨trivial, rfl⟩

theorem remove_of_absent (he : t.lookup key = none) :
    (remove key).Ends t fun r t' => r = .error .notMapped ∧ t' = t := by
  simp only [remove, Op.ends_bind, Op.ends_get, he, Op.ends_throw]
  exact ⟨trivial, trivial⟩

theorem mem_vpnsOf {pid : Pid} {vpn : Vpn} :
    vpn ∈ t.vpnsOf pid ↔ (t.lookup ⟨pid, vpn⟩).isSome := by
  simp only [vpnsOf, List.mem_map, List.mem_filter, OrderedMap.keys, beq_iff_eq]
  constructor
  · rintro ⟨k, ⟨⟨⟨k', e⟩, hmem, rfl⟩, rfl⟩, rfl⟩
    rw [lookup, OrderedMap.get?_eq_some_of_mem hmem]
    rfl
  · intro h
    obtain ⟨e, he⟩ := Option.isSome_iff_exists.mp h
    exact ⟨⟨pid, vpn⟩, ⟨⟨_, (OrderedMap.mem_toList_iff _ _ _).mpr he, rfl⟩, rfl⟩, rfl⟩

/-- A draw finds a page in a frame if there is one. -/
theorem WellFormed.pickVictim_spec (h : t.WellFormed) (draws : Draws) :
    (∃ key e, (t.pickVictim draws).1 = some (key, e) ∧ t.lookup key = some e ∧ e.valid = true) ∨
      ((t.pickVictim draws).1 = none ∧ ∀ ppn, t.owner? ppn = none) := by
  rw [pickVictim]
  rcases ResidentIndex.pick_spec h.index draws with ⟨ppn, key, hpick, howner⟩ | ⟨hpick, hnone⟩
  · obtain ⟨e, he, hv, -⟩ := (h.owner_iff ppn key).mp howner
    refine Or.inl ⟨key, e, ?_, he, hv⟩
    simp only [hpick, Option.bind_eq_bind, Option.bind_some, he]
    rfl
  · refine Or.inr ⟨?_, hnone⟩
    simp only [hpick]
    rfl

end PageTable

end VirtualMemory
