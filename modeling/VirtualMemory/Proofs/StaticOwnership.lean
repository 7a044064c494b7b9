import VirtualMemory.Proofs.StaticMapping

/-!
# No frame serves two pages of static mappings

A mapping is loaded into frames that are free, and its teardown gives back the frames of its own
table. So whatever is loaded and taken down, and whether it succeeds or not, a frame that a table
names is allocated, and it is named once in that table and in no other.
-/

namespace VirtualMemory.StaticMachine

variable {m m' : StaticMachine} {mapping : Nat}

/-- The frames of the pages of a mapping, in the order of the pages. -/
def ppns (m : StaticMachine) (mapping : Nat) : List Ppn := (m.table mapping).map (·.ppn)

/-- Each frame that a table names is allocated, and it is named nowhere else. -/
structure Apart (m : StaticMachine) : Prop where
  used : ∀ mapping, ∀ ppn ∈ m.ppns mapping,
    ppn.toNat < m.frames.total ∧ m.frames.isFree ppn = false
  distinct : ∀ mapping, (m.ppns mapping).Nodup
  apart : ∀ mapping mapping', mapping ≠ mapping' → ∀ ppn ∈ m.ppns mapping,
    ppn ∉ m.ppns mapping'

theorem ppns_congr (htables : m'.tables = m.tables) (mapping : Nat) :
    m'.ppns mapping = m.ppns mapping := by
  rw [ppns, ppns, table, table, htables]

theorem ppns_setTable (m : StaticMachine) (mapping : Nat) (entries : List Entry) (k : Nat) :
    (m.setTable mapping entries).ppns k =
      if k = mapping then entries.map (·.ppn) else m.ppns k := by
  rw [ppns, ppns, table, table, setTable, OrderedMap.get?_insert]
  split <;> rfl

theorem ppns_erase (m : StaticMachine) (mapping k : Nat) :
    ppns { m with tables := m.tables.erase mapping } k =
      if k = mapping then [] else m.ppns k := by
  rw [ppns, ppns, table, table, OrderedMap.get?_erase]
  split <;> rfl

/-- Marking an entry leaves the frames of the table. -/
theorem ppns_touch (m : StaticMachine) {vpn : Vpn} {e : Entry}
    (he : m.entry? mapping vpn = some e) (access : Access) (k : Nat) :
    ppns (m.setTable mapping ((m.table mapping).set vpn.toNat (e.touched access))) k =
      m.ppns k := by
  rw [ppns_setTable]
  split
  next hk =>
    subst hk
    have hat : ((m.table k).map (·.ppn))[vpn.toNat]? = some (e.touched access).ppn := by
      rw [List.getElem?_map, show (m.table k)[vpn.toNat]? = some e from he, Option.map_some,
        Entry.ppn_touched]
    rw [List.map_set, ppns]
    obtain ⟨hlt, hget⟩ := List.getElem?_eq_some_iff.mp hat
    rw [← hget, List.set_getElem_self]
  next => rfl

theorem mem_ppns {vpn : Vpn} {e : Entry} (he : m.entry? mapping vpn = some e) :
    e.ppn ∈ m.ppns mapping :=
  List.mem_map_of_mem (List.mem_of_getElem? he)

theorem apart_ofSizes (pages pageSize : Nat) : (ofSizes pages pageSize).Apart where
  used := by
    intro mapping ppn hppn
    cases hppn
  distinct := fun _ => List.nodup_nil
  apart := by
    intro mapping mapping' _ ppn hppn
    cases hppn

/-- Two pages with one frame are one page. -/
theorem Apart.unique (h : m.Apart) {mapping' : Nat} {vpn vpn' : Vpn} {e e' : Entry}
    (he : m.entry? mapping vpn = some e) (he' : m.entry? mapping' vpn' = some e')
    (hppn : e.ppn = e'.ppn) : mapping = mapping' ∧ vpn = vpn' := by
  have hmapping : mapping = mapping' := by
    by_contra hne
    exact h.apart mapping mapping' hne e.ppn (mem_ppns he) (hppn ▸ mem_ppns he')
  subst hmapping
  refine ⟨rfl, UInt32.toNat_inj.mp ?_⟩
  have hat : (m.ppns mapping)[vpn.toNat]? = some e.ppn := by
    rw [ppns, List.getElem?_map, show (m.table mapping)[vpn.toNat]? = some e from he,
      Option.map_some]
  have hat' : (m.ppns mapping)[vpn'.toNat]? = some e.ppn := by
    rw [ppns, List.getElem?_map, show (m.table mapping)[vpn'.toNat]? = some e' from he',
      Option.map_some, hppn]
  exact (List.getElem?_inj (List.getElem?_eq_some_iff.mp hat).choose (h.distinct mapping)).mp
    (hat.trans hat'.symm)

/-- The frames of the tables are those of memory. -/
theorem Apart.lt (ha : m.Apart) (h : m.WellFormed) {vpn : Vpn} {e : Entry}
    (he : m.entry? mapping vpn = some e) : e.ppn.toNat < m.memory.pages :=
  h.pages ▸ (ha.used mapping e.ppn (mem_ppns he)).1

theorem Apart.address_eq (ha : m.Apart) (h : m.WellFormed) {vpn : Vpn} {e : Entry}
    (he : m.entry? mapping vpn = some e) (vaddr : VirtAddr) :
    (PhysAddr.ofPage e.ppn (vaddr.offset m.memory.pageSize) m.memory.pageSize).value.toNat =
      e.ppn.toNat * m.memory.pageSize + vaddr.offset m.memory.pageSize :=
  h.geometry.toNat_ofPage (h.pages ▸ ha.lt h he) (h.geometry.offset_lt vaddr)

/-! ## What keeps frames apart -/

/-- The tables name the same frames, and none of these was given back. -/
theorem Apart.reframed (h : m.Apart) (hppns : ∀ k, m'.ppns k = m.ppns k)
    (htotal : m'.frames.total = m.frames.total)
    (hused : ∀ k, ∀ ppn ∈ m.ppns k, m'.frames.isFree ppn = false) : m'.Apart where
  used := by
    intro k ppn hppn
    rw [hppns] at hppn
    exact ⟨htotal.symm ▸ (h.used k ppn hppn).1, hused k ppn hppn⟩
  distinct := by
    intro k
    rw [hppns]
    exact h.distinct k
  apart := by
    intro k k' hne ppn hppn
    rw [hppns] at hppn ⊢
    exact h.apart k k' hne ppn hppn

/-- A table of frames that were free takes the place of another. -/
theorem Apart.mapped (h : m.Apart) {taken : List Ppn}
    (hppns : ∀ k, m'.ppns k = if k = mapping then taken else m.ppns k)
    (htotal : m'.frames.total = m.frames.total)
    (hused : ∀ ppn, m.frames.isFree ppn = false → m'.frames.isFree ppn = false)
    (hfree : ∀ ppn ∈ taken, m.frames.isFree ppn = true)
    (htaken : ∀ ppn ∈ taken, m'.frames.isFree ppn = false) (hdistinct : taken.Nodup) :
    m'.Apart where
  used := by
    intro k ppn hppn
    rw [hppns] at hppn
    rw [htotal]
    split at hppn
    · exact ⟨Frames.lt_total_of_isFree (hfree ppn hppn), htaken ppn hppn⟩
    · exact ⟨(h.used k ppn hppn).1, hused ppn (h.used k ppn hppn).2⟩
  distinct := by
    intro k
    rw [hppns]
    split
    · exact hdistinct
    · exact h.distinct k
  apart := by
    have hnew : ∀ k, ∀ ppn ∈ taken, ppn ∉ m.ppns k := by
      intro k ppn hppn hold
      have hfalse := (h.used k ppn hold).2
      rw [hfree ppn hppn] at hfalse
      cases hfalse
    intro k k' hne ppn hppn hppn'
    rw [hppns] at hppn hppn'
    split at hppn
    next hk =>
      rw [if_neg fun hk' => hne (hk.trans hk'.symm)] at hppn'
      exact hnew k' ppn hppn hppn'
    next hk =>
      split at hppn'
      · exact hnew k ppn hppn' hppn
      · exact h.apart k k' hne ppn hppn hppn'

/-! ## Loads -/

/-- A load that fails leaves the tables and the free frames. -/
structure Untouched (m m' : StaticMachine) : Prop where
  tables : m'.tables = m.tables
  total : m'.frames.total = m.frames.total
  free : ∀ ppn, m'.frames.isFree ppn = m.frames.isFree ppn

/-- A load that succeeds takes frames that were free, and they are what the mapping has then. -/
structure Remapped (mapping : Nat) (m m' : StaticMachine) : Prop where
  others : ∀ k, k ≠ mapping → m'.table k = m.table k
  total : m'.frames.total = m.frames.total
  taken : ∀ ppn ∈ m'.ppns mapping, m.frames.isFree ppn = true
  distinct : (m'.ppns mapping).Nodup
  free : ∀ ppn, m'.frames.isFree ppn = true ↔
    m.frames.isFree ppn = true ∧ ppn ∉ m'.ppns mapping

theorem table_setTable_other {k : Nat} (hk : k ≠ mapping) (entries : List Entry) :
    (m.setTable mapping entries).table k = m.table k := by
  rw [table, setTable, OrderedMap.get?_insert, if_neg hk, table]

theorem LoadEffect.untouched {layout : Layout} {cause : MemoryError}
    (h : LoadEffect m mapping layout (.error cause) m') : Untouched m m' := by
  cases h with
  | refused _ => exact ⟨rfl, rfl, fun _ => rfl⟩
  | @undone entries m₁ m₂ _ _ htaken hfilled _ hback =>
    refine ⟨?_, ?_, ?_⟩
    · rw [hback.reframed.tables, hfilled.tables, htaken.reframed.tables]
    · rw [hback.reframed.total, hfilled.frames, htaken.reframed.total]
    · intro ppn
      rw [Bool.eq_iff_iff, hback.free, hfilled.frames, htaken.left, htaken.reframed.total]
      -- a frame that was taken was free, and is free again
      by_cases hmem : ppn ∈ entries.map (·.ppn)
      · obtain ⟨e, he, rfl⟩ := List.mem_map.mp hmem
        have hfree := htaken.acquired.free e he
        simp [hmem, hfree, Frames.lt_total_of_isFree hfree]
      · simp [hmem]

theorem LoadEffect.remapped {layout : Layout} {u : Unit}
    (h : LoadEffect m mapping layout (.ok u) m') : Remapped mapping m m' := by
  cases h with
  | @loaded entries m₁ m₂ htaken hfilled _ =>
    have htables := hfilled.tables.trans htaken.reframed.tables
    have hppns : ppns (m₂.setTable mapping (entries.map (mapped layout.index))) mapping =
        entries.map (·.ppn) := by
      rw [ppns_setTable, if_pos rfl, List.map_map]
      rfl
    constructor
    · intro k hk
      rw [table_setTable_other hk, table, htables, table]
    · exact (congrArg Frames.total hfilled.frames).trans htaken.reframed.total
    · rw [hppns]
      intro ppn hppn
      obtain ⟨e, he, rfl⟩ := List.mem_map.mp hppn
      exact htaken.acquired.free e he
    · rw [hppns]
      exact htaken.acquired.distinct
    · rw [hppns]
      intro ppn
      show m₂.frames.isFree ppn = true ↔ _
      rw [hfilled.frames]
      exact htaken.left ppn

theorem Remapped.ppns (h : Remapped mapping m m') (k : Nat) :
    m'.ppns k = if k = mapping then m'.ppns mapping else m.ppns k := by
  split
  next hk => rw [hk]
  next hk => rw [StaticMachine.ppns, h.others k hk, StaticMachine.ppns]

theorem Remapped.used (h : Remapped mapping m m') {ppn : Ppn}
    (hppn : m.frames.isFree ppn = false ∨ ppn ∈ m'.ppns mapping) :
    m'.frames.isFree ppn = false := by
  rw [← Bool.not_eq_true, h.free]
  rintro ⟨hfree, hnot⟩
  rcases hppn with hused | hmem
  · rw [hfree] at hused
    cases hused
  · exact hnot hmem

theorem load_apart (h : m.WellFormed) (ha : m.Apart) (mapping : Nat) (pid : Pid)
    (layout : Layout) : (load mapping pid layout).Ends m fun _ m' => m'.Apart := by
  refine (load_effect h mapping pid layout).imp ?_
  rintro (cause | u) m' heffect
  · have hsame := heffect.untouched
    exact ha.reframed (ppns_congr hsame.tables) hsame.total fun k ppn hppn =>
      (hsame.free ppn).trans (ha.used k ppn hppn).2
  · have hnew := heffect.remapped
    exact ha.mapped hnew.ppns hnew.total (fun ppn hused => hnew.used (.inl hused)) hnew.taken
      (fun ppn hmem => hnew.used (.inr hmem)) hnew.distinct

/-! ## The other operations -/

theorem translate_apart (ha : m.Apart) (mapping : Nat) (vaddr : VirtAddr) (access : Access) :
    (translate mapping vaddr access).Ends m fun _ m' => m'.Apart := by
  refine (translate_cases m mapping vaddr access).imp ?_
  rintro r m' (⟨cause, -, rfl⟩ | ⟨e, he, -, -, rfl⟩)
  · exact ha
  · exact ha.reframed (ppns_touch m he access) rfl fun k ppn hppn => (ha.used k ppn hppn).2

theorem read_apart (ha : m.Apart) (mapping : Nat) (vaddr : VirtAddr) (length : Nat) :
    (read mapping vaddr length).Ends m fun _ m' => m'.Apart := by
  simp only [StaticMachine.read, Op.ends_bind]
  refine (translate_apart ha mapping vaddr .read).imp ?_
  rintro (e | paddr) m' ha'
  · exact ha'
  · exact ha'

theorem write_apart (ha : m.Apart) (mapping : Nat) (vaddr : VirtAddr) (data : Bytes) :
    (write mapping vaddr data).Ends m fun _ m' => m'.Apart := by
  simp only [StaticMachine.write, Op.ends_bind]
  refine (translate_apart ha mapping vaddr .write).imp ?_
  rintro (e | paddr) m' ha'
  · exact ha'
  · exact ⟨ha'.used, ha'.distinct, ha'.apart⟩

/-- The frames of a mapping go, and no other mapping has any of them. -/
theorem teardown_apart (h : m.WellFormed) (ha : m.Apart) (mapping : Nat) :
    (teardown mapping).Ends m fun _ m' => m'.Apart := by
  have hppns := ppns_erase m mapping
  have herased : Apart { m with tables := m.tables.erase mapping } :=
    ha.mapped hppns rfl (fun _ hq => hq) nofun nofun List.nodup_nil
  simp only [teardown, Op.ends_bind, Op.ends_get, Op.ends_modify]
  refine (releaseAll_ends (h.retable (m.tables.erase mapping)) (m.table mapping)).imp ?_
  rintro r m' ⟨hm', hfrees⟩
  refine herased.reframed (ppns_congr hm'.tables) hm'.total ?_
  intro k ppn hppn
  rw [Bool.eq_false_iff]
  intro hfree
  rcases (hfrees ppn).mp hfree with hfree | ⟨hmem, -⟩
  · rw [(herased.used k ppn hppn).2] at hfree
    cases hfree
  · rw [hppns] at hppn
    split at hppn
    next => cases hppn
    next hk => exact ha.apart k mapping hk ppn hppn hmem

/-! ## Every machine -/

/-- Frames are apart whatever was loaded, used and given back. -/
theorem Reached.apart {c : Config} (h : Reached c m) : m.Apart := by
  induction h with
  | booted _ => exact apart_ofSizes _ _
  | loaded mapping pid layout h ih => exact load_apart h.wellFormed.1 ih mapping pid layout
  | translated mapping vaddr access _ ih => exact translate_apart ih mapping vaddr access
  | read mapping vaddr length _ ih => exact read_apart ih mapping vaddr length
  | written mapping vaddr data _ ih => exact write_apart ih mapping vaddr data
  | tornDown mapping h ih => exact teardown_apart h.wellFormed.1 ih mapping

end VirtualMemory.StaticMachine
