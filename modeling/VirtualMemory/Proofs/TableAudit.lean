import VirtualMemory.Proofs.Ownership

/-!
# The audit of a table

The audit of a table looks at each entry, and then at two numbers: of valid entries and of resident
frames. That it does not look at the owners is made up for by the count. Valid entries that own
their frames have different frames, all of them resident; if there are as many as there are resident
frames, no frame is left over whose owner has no entry for it. So the audit passes exactly if owners
and valid entries match (`audit_exact`), whatever has become of the entries. All it relies on is
that the index lists the frames that have an owner, each of them once.
-/

namespace VirtualMemory

variable {σ : Type}

namespace ResidentIndex

variable {r : ResidentIndex}

/-- The frames without gaps are those that have an owner, each of them once. -/
structure Listed (r : ResidentIndex) : Prop where
  nodup : r.dense.toList.Nodup
  mem_iff : ∀ ppn, ppn ∈ r.dense.toList ↔ (r.owner? ppn).isSome = true

theorem WellFormed.nodup_dense (h : r.WellFormed) : r.dense.toList.Nodup := by
  rw [List.nodup_iff_pairwise_ne, List.pairwise_iff_getElem]
  intro i j hi hj hlt heq
  have hi : r.dense[i]? = some r.dense.toList[i] := by simp
  have hj : r.dense[j]? = some r.dense.toList[i] := by
    rw [heq]
    simp
  exact Nat.ne_of_lt hlt (h.place_unique hi hj)

theorem WellFormed.mem_dense (h : r.WellFormed) (ppn : Ppn) :
    ppn ∈ r.dense.toList ↔ (r.owner? ppn).isSome = true := by
  rw [Option.isSome_iff_exists, Array.mem_toList_iff, Array.mem_iff_getElem?]
  constructor
  · rintro ⟨i, hi⟩
    obtain ⟨key, hk⟩ := h.resident i ppn hi
    exact ⟨key, owner?_eq_some_iff.mpr ⟨i, hk⟩⟩
  · rintro ⟨key, hk⟩
    obtain ⟨place, hp⟩ := owner?_eq_some_iff.mp hk
    exact ⟨place, h.listed ppn _ hp⟩

theorem WellFormed.isListed (h : r.WellFormed) : r.Listed := ⟨h.nodup_dense, h.mem_dense⟩

end ResidentIndex

namespace PageTable

variable {t : PageTable}

/-! ## Entries that own their frames -/

def validPairs (t : PageTable) : List (PageKey × Entry) := t.entries.toList.filter (·.2.valid)

theorem mem_validPairs {key : PageKey} {e : Entry} :
    (key, e) ∈ t.validPairs ↔ t.lookup key = some e ∧ e.valid = true := by
  rw [validPairs, List.mem_filter, OrderedMap.mem_toList_iff]
  rfl

theorem validCount_eq (t : PageTable) : t.validCount = t.validPairs.length := by
  rw [validCount, OrderedMap.values, List.countP_map, validPairs, ← List.countP_eq_length_filter]
  rfl

theorem nodup_toList (t : PageTable) : t.entries.toList.Nodup := by
  refine List.Pairwise.imp ?_ t.entries.ascending
  rintro a b hlt rfl
  exact Nat.lt_irrefl _ hlt

def mappedFrames (t : PageTable) : List Ppn := t.validPairs.map (·.2.ppn)

theorem length_mappedFrames (t : PageTable) : t.mappedFrames.length = t.validCount := by
  rw [mappedFrames, List.length_map, validCount_eq]

def EntriesOwn (t : PageTable) : Prop :=
  ∀ key e, t.lookup key = some e → e.valid = true → t.owner? e.ppn = some key

/-- A page owns a frame exactly if its entry is valid and maps the frame. -/
def OwnersAgree (t : PageTable) : Prop :=
  ∀ key ppn, t.owner? ppn = some key ↔ ∃ e, t.lookup key = some e ∧ e.valid = true ∧ e.ppn = ppn

theorem OwnersAgree.entriesOwn (h : t.OwnersAgree) : t.EntriesOwn :=
  fun key e he hv => (h key e.ppn).mpr ⟨e, he, hv, rfl⟩

/-- A frame has one owner, so the frames of different pages differ. -/
theorem EntriesOwn.nodup_mappedFrames (h : t.EntriesOwn) : t.mappedFrames.Nodup := by
  refine List.Nodup.map_on ?_ ((nodup_toList t).filter _)
  rintro ⟨k, e⟩ hp ⟨k', e'⟩ hp' hppn
  obtain ⟨he, hv⟩ := mem_validPairs.mp hp
  obtain ⟨he', hv'⟩ := mem_validPairs.mp hp'
  have howner := h k e he hv
  rw [hppn, h k' e' he' hv'] at howner
  obtain rfl := Option.some.inj howner
  rw [he] at he'
  rw [Option.some.inj he']

theorem EntriesOwn.mappedFrames_subset (h : t.EntriesOwn) (hr : t.resident.Listed) :
    t.mappedFrames ⊆ t.resident.dense.toList := by
  intro ppn hppn
  obtain ⟨⟨key, e⟩, hp, rfl⟩ := List.mem_map.mp hppn
  obtain ⟨he, hv⟩ := mem_validPairs.mp hp
  rw [hr.mem_iff]
  exact Option.isSome_of_eq_some (h key e he hv)

/-- The frames of the valid entries are the resident frames. -/
theorem OwnersAgree.frames_perm (h : t.OwnersAgree) (hr : t.resident.Listed) :
    t.mappedFrames.Perm t.resident.dense.toList := by
  rw [List.perm_ext_iff_of_nodup h.entriesOwn.nodup_mappedFrames hr.nodup]
  intro ppn
  refine ⟨fun hppn => h.entriesOwn.mappedFrames_subset hr hppn, ?_⟩
  rw [hr.mem_iff, Option.isSome_iff_exists]
  rintro ⟨key, hk⟩
  obtain ⟨e, he, hv, rfl⟩ := (h key ppn).mp hk
  exact List.mem_map.mpr ⟨(key, e), mem_validPairs.mpr ⟨he, hv⟩, rfl⟩

/-- As many different frames as there are resident ones are all of them, so no owner lacks its
entry. -/
theorem EntriesOwn.ownersAgree (h : t.EntriesOwn) (hr : t.resident.Listed)
    (hcount : t.validCount = t.resident.size) : t.OwnersAgree := by
  have hsub : t.mappedFrames.Subperm t.resident.dense.toList :=
    List.subperm_of_subset h.nodup_mappedFrames (h.mappedFrames_subset hr)
  have hperm : t.mappedFrames.Perm t.resident.dense.toList := by
    refine hsub.perm_of_length_le ?_
    rw [length_mappedFrames, hcount]
    exact Nat.le_refl _
  intro key ppn
  constructor
  · intro hk
    have hmem : ppn ∈ t.resident.dense.toList := (hr.mem_iff ppn).mpr (Option.isSome_of_eq_some hk)
    obtain ⟨⟨key', e⟩, hp, rfl⟩ := List.mem_map.mp (hperm.mem_iff.mpr hmem)
    obtain ⟨he, hv⟩ := mem_validPairs.mp hp
    -- the entry owns the frame too, so it is the entry of the owner
    have hk' := h key' e he hv
    obtain rfl := Option.some.inj (hk.symm.trans hk')
    exact ⟨e, he, hv, rfl⟩
  · rintro ⟨e, he, hv, rfl⟩
    exact h key e he hv

theorem ownersAgree_iff (hr : t.resident.Listed) :
    t.OwnersAgree ↔ t.EntriesOwn ∧ t.validCount = t.resident.size := by
  constructor
  · intro h
    refine ⟨h.entriesOwn, ?_⟩
    rw [← length_mappedFrames, (h.frames_perm hr).length_eq]
    rfl
  · rintro ⟨h, hcount⟩
    exact h.ownersAgree hr hcount

theorem WellFormed.ownersAgree (h : t.WellFormed) : t.OwnersAgree :=
  fun key ppn => h.owner_iff ppn key

theorem WellFormed.residentCount_eq (h : t.WellFormed) : t.residentCount = t.validCount :=
  ((ownersAgree_iff h.index.isListed).mp h.ownersAgree).2.symm

/-! ## The audit -/

/-- The entries pass, or one of them is found that is valid and does not own its frame. -/
theorem auditOwners_ends (pairs : List (PageKey × Entry)) (s : σ) :
    (t.auditOwners pairs : Op σ MemoryError Unit).Ends s fun r _ =>
      (r = .ok () ∧ ∀ pair ∈ pairs, pair.2.valid = true → t.owner? pair.2.ppn = some pair.1) ∨
        (r = .error .invariantViolation ∧
          ∃ pair ∈ pairs, pair.2.valid = true ∧ t.owner? pair.2.ppn ≠ some pair.1) := by
  induction pairs with
  | nil => exact Or.inl ⟨rfl, nofun⟩
  | cons pair rest ih =>
    obtain ⟨key, e⟩ := pair
    simp only [auditOwners]
    split
    next hfound =>
      rw [Bool.and_eq_true, bne_iff_ne] at hfound
      exact Or.inr ⟨rfl, (key, e), List.mem_cons_self, hfound⟩
    next hpass =>
      rw [Bool.and_eq_true, bne_iff_ne, not_and_not_right] at hpass
      refine ih.imp ?_
      rintro r s' (⟨rfl, hrest⟩ | ⟨rfl, pair, hp, hfound⟩)
      · exact Or.inl ⟨rfl, List.forall_mem_cons.mpr ⟨hpass, hrest⟩⟩
      · exact Or.inr ⟨rfl, pair, List.mem_cons_of_mem _ hp, hfound⟩

/-- What the audit has looked at when it passes, and that it refuses otherwise. -/
theorem audit_cases (t : PageTable) (s : σ) :
    (t.audit : Op σ MemoryError Unit).Ends s fun r _ =>
      (r = .ok () ∧ t.EntriesOwn ∧ t.validCount = t.resident.size) ∨
        (r = .error .invariantViolation ∧
          ¬ (t.EntriesOwn ∧ t.validCount = t.resident.size)) := by
  simp only [audit, Op.ends_bind]
  refine (auditOwners_ends t.entries.toList s).imp ?_
  rintro r s' (⟨rfl, hown⟩ | ⟨rfl, ⟨key, e⟩, hp, hv, ho⟩)
  · have hown : t.EntriesOwn := fun key e he hv =>
      hown (key, e) ((OrderedMap.mem_toList_iff _ _ _).mpr he) hv
    simp only [Op.ends_ite, Op.ends_bind, Op.ends_notify, Op.ends_throw, Op.ends_pure]
    split
    next hcount => exact Or.inr ⟨trivial, fun h => hcount h.2⟩
    next hcount => exact Or.inl ⟨trivial, hown, not_not.mp hcount⟩
  · exact Or.inr ⟨rfl, fun h => ho (h.1 key e ((OrderedMap.mem_toList_iff _ _ _).mp hp) hv)⟩

theorem audit_ends (h : t.WellFormed) (s : σ) :
    (t.audit : Op σ MemoryError Unit).Ends s fun r _ => r = .ok () := by
  refine (audit_cases t s).imp ?_
  rintro r s' (⟨rfl, -⟩ | ⟨-, hnot⟩)
  · rfl
  · exact absurd ((ownersAgree_iff h.index.isListed).mp h.ownersAgree) hnot

/-- A valid entry that does not own its frame is found. -/
theorem audit_fails {key : PageKey} {e : Entry} (he : t.lookup key = some e)
    (hv : e.valid = true) (ho : t.owner? e.ppn ≠ some key) (s : σ) :
    (t.audit : Op σ MemoryError Unit).Ends s fun r _ => r = .error .invariantViolation := by
  refine (audit_cases t s).imp ?_
  rintro r s' (⟨-, hown, -⟩ | ⟨rfl, -⟩)
  · exact absurd (hown key e he hv) ho
  · rfl

/-- Over an index that lists its frames, and for whatever entries, the audit passes exactly if a
page owns a frame where its entry is valid and maps the frame, and nowhere else. It refuses all
other tables. -/
theorem audit_exact (hr : t.resident.Listed) (s : σ) :
    (((t.audit : Op σ MemoryError Unit) s).result = .ok () ↔ t.OwnersAgree) ∧
      (((t.audit : Op σ MemoryError Unit) s).result = .error .invariantViolation ↔
        ¬ t.OwnersAgree) := by
  rw [ownersAgree_iff hr]
  rcases audit_cases t s with ⟨hpass, hgood⟩ | ⟨hrefuse, hbad⟩
  · rw [hpass]
    exact ⟨⟨fun _ => hgood, fun _ => rfl⟩, nofun, fun hbad => absurd hgood hbad⟩
  · rw [hrefuse]
    exact ⟨⟨nofun, fun hgood => absurd hgood hbad⟩, fun _ => hbad, fun _ => rfl⟩

/-- Two frames with owners, and any entries. -/
def overPair (entries : OrderedMap PageKey Entry) : PageTable :=
  ⟨entries, ((ResidentIndex.empty 2).add 0 ⟨1, 0⟩).add 1 ⟨2, 0⟩⟩

theorem listed_overPair (entries : OrderedMap PageKey Entry) :
    (overPair entries).resident.Listed := by
  have hfirst : ((ResidentIndex.empty 2).add 0 ⟨1, 0⟩).WellFormed :=
    (ResidentIndex.wellFormed_empty 2).add ⟨1, 0⟩ (by decide) rfl
  have hsecond : (((ResidentIndex.empty 2).add 0 ⟨1, 0⟩).add 1 ⟨2, 0⟩).WellFormed :=
    hfirst.add ⟨2, 0⟩ (by decide) rfl
  exact hsecond.isListed

/-- The entries of both owners, and one that is not valid. -/
def matched : PageTable :=
  overPair (((OrderedMap.empty.insert ⟨1, 0⟩ ⟨0, 0, { valid := true }⟩).insert
    ⟨2, 0⟩ ⟨0, 1, { valid := true }⟩).insert ⟨3, 0⟩ ⟨0, 1, {}⟩)

/-- As many valid entries as frames, but the second is that of another page. -/
def usurped : PageTable :=
  overPair ((OrderedMap.empty.insert ⟨1, 0⟩ ⟨0, 0, { valid := true }⟩).insert
    ⟨3, 0⟩ ⟨0, 1, { valid := true }⟩)

/-- The only entry owns its frame, and the other owner has none. -/
def orphaned : PageTable :=
  overPair (OrderedMap.empty.insert ⟨1, 0⟩ ⟨0, 0, { valid := true }⟩)

theorem audit_exact_overPair :
    (((matched.audit : Op Unit MemoryError Unit) ()).result = .ok () ∧ matched.OwnersAgree) ∧
      (((usurped.audit : Op Unit MemoryError Unit) ()).result = .error .invariantViolation ∧
        ¬ usurped.OwnersAgree) ∧
      ((orphaned.audit : Op Unit MemoryError Unit) ()).result = .error .invariantViolation ∧
        ¬ orphaned.OwnersAgree := by
  have hpass : ((matched.audit : Op Unit MemoryError Unit) ()).result = .ok () := by decide
  have husurped : ((usurped.audit : Op Unit MemoryError Unit) ()).result =
      .error .invariantViolation := by decide
  have horphaned : ((orphaned.audit : Op Unit MemoryError Unit) ()).result =
      .error .invariantViolation := by decide
  exact ⟨⟨hpass, (audit_exact (listed_overPair _) ()).1.mp hpass⟩,
    ⟨husurped, (audit_exact (listed_overPair _) ()).2.mp husurped⟩,
    horphaned, (audit_exact (listed_overPair _) ()).2.mp horphaned⟩

end PageTable

end VirtualMemory
