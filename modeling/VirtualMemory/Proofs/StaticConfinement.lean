import VirtualMemory.Proofs.Confined
import VirtualMemory.Proofs.StaticOwnership

/-!
# A static mapping keeps to itself

What is done under the number of a mapping touches its own table and its own frames. The frames that
are free or its own stay the same, so that what it gets is gone from the free frames, and what it
gives back is among them again. A load that fails gives all of its frames back.
-/

namespace VirtualMemory.StaticMachine

variable {m m' m₁ m₂ m₃ : StaticMachine} {mapping : Nat}

/-- From `m` to `m'` nothing happened but to the table of a mapping and to frames that are its own
or free. -/
structure Respects (mapping : Nat) (m m' : StaticMachine) : Prop where
  wellFormed : m'.WellFormed
  apart : m'.Apart
  pageSize : m'.memory.pageSize = m.memory.pageSize
  total : m'.frames.total = m.frames.total
  others : ∀ k, k ≠ mapping → m'.table k = m.table k
  frames : ∀ ppn, (m'.frames.isFree ppn = true ∨ ppn ∈ m'.ppns mapping) ↔
    (m.frames.isFree ppn = true ∨ ppn ∈ m.ppns mapping)
  bytes : ∀ k, k ≠ mapping → ∀ ppn ∈ m.ppns k, ∀ o < m.memory.pageSize,
    m'.frameByte ppn o = m.frameByte ppn o

theorem Respects.refl (h : m.WellFormed) (ha : m.Apart) (mapping : Nat) : Respects mapping m m :=
  ⟨h, ha, rfl, rfl, fun _ _ => rfl, fun _ => Iff.rfl, fun _ _ _ _ _ _ => rfl⟩

theorem Respects.ppns (h : Respects mapping m m') {k : Nat} (hk : k ≠ mapping) :
    m'.ppns k = m.ppns k := by
  rw [StaticMachine.ppns, h.others k hk, StaticMachine.ppns]

theorem Respects.trans (h : Respects mapping m₁ m₂) (h' : Respects mapping m₂ m₃) :
    Respects mapping m₁ m₃ where
  wellFormed := h'.wellFormed
  apart := h'.apart
  pageSize := h'.pageSize.trans h.pageSize
  total := h'.total.trans h.total
  others := fun k hk => (h'.others k hk).trans (h.others k hk)
  frames := fun ppn => (h'.frames ppn).trans (h.frames ppn)
  bytes := by
    intro k hk ppn hppn o ho
    rw [h'.bytes k hk ppn (h.ppns hk ▸ hppn) o (h.pageSize ▸ ho), h.bytes k hk ppn hppn o ho]

/-! ## Loading -/

/-- Frames that were taken and filled belong to no mapping. -/
theorem Taken.byte_other {vpns : List Vpn} {entries : List Entry} (htaken : Taken m m₁ vpns entries)
    (hfilled : Refilled (entries.map (·.ppn)) m₁ m₂) (ha : m.Apart) {k : Nat} {ppn : Ppn}
    (hppn : ppn ∈ m.ppns k) {o : Nat} (ho : o < m.memory.pageSize) :
    m₂.frameByte ppn o = m.frameByte ppn o := by
  have hmem := htaken.reframed.memory
  have hnot : ppn ∉ entries.map (·.ppn) := by
    intro hin
    obtain ⟨e, he, rfl⟩ := List.mem_map.mp hin
    have hused := (ha.used k e.ppn hppn).2
    rw [htaken.acquired.free e he] at hused
    cases hused
  rw [hfilled.others ppn hnot o (hmem ▸ ho), frameByte, frameByte, hmem]

/-- A load changes no frame that a mapping has. -/
theorem LoadEffect.byte_other {layout : Layout} {r : Except MemoryError Unit}
    (h : LoadEffect m mapping layout r m') (ha : m.Apart) {k : Nat} {ppn : Ppn}
    (hppn : ppn ∈ m.ppns k) {o : Nat} (ho : o < m.memory.pageSize) :
    m'.frameByte ppn o = m.frameByte ppn o := by
  cases h with
  | refused _ => rfl
  | undone htaken hfilled _ hback =>
    rw [frameByte, hback.reframed.memory]
    exact htaken.byte_other hfilled ha hppn ho
  | loaded htaken hfilled _ => exact htaken.byte_other hfilled ha hppn ho

/-- A load takes free frames, and none of them if it fails. -/
theorem load_respects (h : m.WellFormed) (ha : m.Apart) (hnew : m.ppns mapping = []) (pid : Pid)
    (layout : Layout) : (load mapping pid layout).Ends m fun r m' => Respects mapping m m' ∧
      match r with
      | .ok _ => True
      | .error _ => m'.ppns mapping = [] := by
  refine ((load_ends h mapping pid layout).and
    ((load_effect h mapping pid layout).and (load_apart h ha mapping pid layout))).imp ?_
  rintro (cause | u) m' ⟨⟨hwf, hsize, -⟩, heffect, ha'⟩
  · have hsame := heffect.untouched
    have hppns := ppns_congr hsame.tables mapping
    refine ⟨⟨hwf, ha', hsize, hsame.total, ?_, ?_, ?_⟩, hppns.trans hnew⟩
    · intro k _
      rw [table, table, hsame.tables]
    · intro ppn
      rw [hppns, hsame.free]
    · intro k _ ppn hppn o ho
      exact heffect.byte_other ha hppn ho
  · have hmapped := heffect.remapped
    refine ⟨⟨hwf, ha', hsize, hmapped.total, hmapped.others, ?_, ?_⟩, trivial⟩
    · intro ppn
      have htaken := hmapped.taken ppn
      rw [hmapped.free, hnew, List.mem_nil_iff]
      tauto
    · intro k _ ppn hppn o ho
      exact heffect.byte_other ha hppn ho

/-! ## Accesses -/

/-- Only the marks of the own table change. -/
theorem translate_respects (h : m.WellFormed) (ha : m.Apart) (mapping : Nat) (vaddr : VirtAddr)
    (access : Access) :
    (translate mapping vaddr access).Ends m fun r m' => Respects mapping m m' ∧
      m'.memory = m.memory ∧ ∀ paddr, r = .ok paddr → ∃ ppn ∈ m'.ppns mapping,
        paddr = .ofPage ppn (vaddr.offset m.memory.pageSize) m.memory.pageSize := by
  refine ((translate_apart ha mapping vaddr access).and
    (translate_cases m mapping vaddr access)).imp ?_
  rintro r m' ⟨ha', ⟨cause, rfl, rfl⟩ | ⟨e, he, -, rfl, rfl⟩⟩
  · exact ⟨.refl h ha mapping, rfl, nofun⟩
  · have hppns := ppns_touch m he access mapping
    refine ⟨⟨h.retable _, ha', rfl, rfl, fun k hk => table_setTable_other hk _, ?_, ?_⟩, rfl, ?_⟩
    · intro ppn
      rw [hppns]
      rfl
    · intro k _ ppn _ o _
      rfl
    · rintro paddr ⟨⟩
      exact ⟨e.ppn, hppns ▸ mem_ppns he, rfl⟩

theorem read_respects (h : m.WellFormed) (ha : m.Apart) (mapping : Nat) (vaddr : VirtAddr)
    (length : Nat) :
    (read mapping vaddr length).Ends m fun _ m' => Respects mapping m m' := by
  simp only [StaticMachine.read, Op.ends_bind]
  refine (translate_respects h ha mapping vaddr .read).imp ?_
  rintro (e | paddr) m' ⟨hm', -⟩
  · exact hm'
  · exact hm'

/-- A write inside a page changes a frame of the mapping only. -/
theorem write_respects (h : m.WellFormed) (ha : m.Apart) (mapping : Nat) {vaddr : VirtAddr}
    {data : Bytes} (hin : vaddr.offset m.memory.pageSize + data.length ≤ m.memory.pageSize) :
    (write mapping vaddr data).Ends m fun _ m' => Respects mapping m m' := by
  simp only [StaticMachine.write, Op.ends_bind]
  refine (translate_respects h ha mapping vaddr .write).imp ?_
  rintro (e | paddr) m' ⟨hm', hmem, hpaddr⟩
  · exact hm'
  · obtain ⟨ppn, hppn, rfl⟩ := hpaddr paddr rfl
    simp only [Op.ends_modifyGet]
    rw [← hmem] at hin ⊢
    have haddr := hm'.wellFormed.geometry.toNat_ofPage (hm'.apart.used mapping ppn hppn).1
      (hm'.wellFormed.geometry.offset_lt vaddr)
    refine hm'.trans ⟨hm'.wellFormed.rememory rfl rfl (ByteStore.size_poke _ _ _),
      ⟨hm'.apart.used, hm'.apart.distinct, hm'.apart.apart⟩, rfl, rfl, fun _ _ => rfl,
      fun _ => Iff.rfl, ?_⟩
    intro k hk q hq o ho
    have hne : q ≠ ppn := by
      rintro rfl
      exact hm'.apart.apart k mapping hk q hq hppn
    exact m'.memory.byte_write_other haddr hin hne ho

/-! ## The end of a mapping -/

theorem teardown_respects (h : m.WellFormed) (ha : m.Apart) (mapping : Nat) :
    (teardown mapping).Ends m fun _ m' => Respects mapping m m' ∧ m'.ppns mapping = [] := by
  have hapart := teardown_apart h ha mapping
  simp only [teardown, Op.ends_bind, Op.ends_get, Op.ends_modify] at hapart ⊢
  refine (hapart.and
    (releaseAll_ends (h.retable (m.tables.erase mapping)) (m.table mapping))).imp ?_
  rintro r m' ⟨ha', hm', hfree⟩
  have hppns : m'.ppns mapping = [] := by
    rw [ppns_congr hm'.tables, ppns_erase, if_pos rfl]
  refine ⟨⟨hm'.wellFormed, ha', congrArg _ hm'.memory, hm'.total, ?_, ?_, ?_⟩, hppns⟩
  · intro k hk
    rw [table, hm'.tables, OrderedMap.get?_erase, if_neg hk, table]
  · intro ppn
    have hlt : ppn ∈ m.ppns mapping → ppn.toNat < m.frames.total :=
      fun hppn => (ha.used mapping ppn hppn).1
    rw [hppns, hfree, ← ppns, and_iff_left_of_imp hlt]
    simp
  · intro k _ ppn _ o _
    rw [frameByte, hm'.memory, frameByte]

/-! ## All of it -/

/-- A process keeps to its mapping, whatever it asks for. -/
theorem confined (m : StaticMachine) (number : Nat) :
    Confined number m.memory.pageSize (Respects number m) where
  translate := by
    intro vaddr access m₁ h
    refine (translate_respects h.wellFormed h.apart number vaddr access).imp ?_
    exact fun _ _ hm' => ⟨h.trans hm'.1, fun _ _ => trivial⟩
  read := by
    intro vaddr length m₁ h
    refine (read_respects h.wellFormed h.apart number vaddr length).imp ?_
    exact fun _ _ hm' => ⟨h.trans hm', fun _ _ => trivial⟩
  write := by
    intro vaddr data hin m₁ h
    rw [← h.pageSize] at hin
    refine (write_respects h.wellFormed h.apart number hin).imp ?_
    exact fun _ _ hm' => ⟨h.trans hm', fun _ _ => trivial⟩
  handleFault := by
    intro vaddr e
    have hend : (pure (.ofException e) : Op StaticMachine Empty FaultResult).Maintains
        (Respects number m) fun _ => True := .pure trivial
    show (handleFault number.toUInt32 vaddr e).Maintains _ _
    rw [handleFault]
    split
    · exact .bind (.notify _) fun _ _ => hend
    · exact hend
  saveContext := .pure trivial
  restoreContext := .pure trivial
  teardown := by
    intro m₁ h
    refine (teardown_respects h.wellFormed h.apart number).imp ?_
    exact fun _ _ hm' => ⟨h.trans hm'.1, fun _ _ => trivial⟩

end VirtualMemory.StaticMachine
