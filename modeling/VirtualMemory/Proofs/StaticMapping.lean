import VirtualMemory.Proofs.Loading
import VirtualMemory.Proofs.Ownership
import VirtualMemory.Proofs.StaticFrames

/-!
# Static mappings serve their processes

A mapping that was loaded has a frame for each page, and no frame for two of them. Its table and its
frames together are a flat memory, and the accesses of its process keep it so.
-/

namespace VirtualMemory.StaticMachine

variable {m m' : StaticMachine} {mapping : Nat} {f : FlatSpace} {vaddr : VirtAddr} {access : Access}

/-- The table of a mapping and its frames hold a flat memory. -/
structure Maps (mapping : Nat) (f : FlatSpace) (m : StaticMachine) : Prop where
  wellFormed : m.WellFormed
  pageSize : m.memory.pageSize = f.pageSize
  length : (m.table mapping).length = f.numPages
  entry : ∀ vpn e, m.entry? mapping vpn = some e →
    e.valid = true ∧ e.ppn.toNat < m.frames.total ∧ e.readOnly = f.readOnly vpn
  apart : ∀ vpn vpn' e e', m.entry? mapping vpn = some e → m.entry? mapping vpn' = some e' →
    e.ppn = e'.ppn → vpn = vpn'
  bytes : ∀ vpn e, m.entry? mapping vpn = some e → ∀ o < f.pageSize,
    m.frameByte e.ppn o = f.byte (vpn.toNat * f.pageSize + o)

/-! ## Loading -/

theorem table_setTable (m : StaticMachine) (mapping : Nat) (entries : List Entry) :
    (m.setTable mapping entries).table mapping = entries := by
  rw [table, setTable, OrderedMap.get?_insert, if_pos rfl, Option.getD_some]

theorem entry_setTable (m : StaticMachine) (mapping : Nat) (entries : List Entry) (vpn : Vpn) :
    StaticMachine.entry? (m.setTable mapping entries) mapping vpn = entries[vpn.toNat]? := by
  unfold StaticMachine.entry?
  rw [table_setTable]

/-- The page of each entry is its place in the table. -/
theorem vpn_of_getElem? {n : Nat} {entries : List Entry}
    (hvpns : entries.map (·.vpn) = (List.range n).map Nat.toUInt32) {vpn : Vpn} {e : Entry}
    (he : entries[vpn.toNat]? = some e) : e.vpn = vpn := by
  have hat := congrArg (·[vpn.toNat]?) hvpns
  simp only [List.getElem?_map, he, Option.map_some] at hat
  obtain ⟨i, hi, hword⟩ := Option.map_eq_some_iff.mp hat.symm
  obtain ⟨hlt, rfl⟩ := List.getElem?_eq_some_iff.mp hi
  rw [← hword, List.getElem_range]
  simp

theorem maps_mapped (h : m.WellFormed) {layout : Layout} {entries : List Entry}
    (hvpns : entries.map (·.vpn) = (List.range layout.numPages).map Nat.toUInt32)
    (hflags : ∀ e ∈ entries, e.flags = { valid := true })
    (hlt : ∀ e ∈ entries, e.ppn.toNat < m.frames.total) (hdistinct : (entries.map (·.ppn)).Nodup)
    (hholds : ∀ e ∈ entries, Holds layout.index m e) :
    Maps mapping (.ofLayout m.memory.pageSize layout)
      (m.setTable mapping (entries.map (mapped layout.index))) := by
  have htable := table_setTable m mapping (entries.map (mapped layout.index))
  have hentry : ∀ vpn e, StaticMachine.entry?
      (m.setTable mapping (entries.map (mapped layout.index))) mapping vpn = some e →
        ∃ e₀ ∈ entries, e₀.vpn = vpn ∧ mapped layout.index e₀ = e := by
    intro vpn e he
    rw [entry_setTable, List.getElem?_map, Option.map_eq_some_iff] at he
    obtain ⟨e₀, he₀, hmapped⟩ := he
    exact ⟨e₀, List.mem_of_getElem? he₀, vpn_of_getElem? hvpns he₀, hmapped⟩
  constructor
  · exact ⟨h.geometry, h.frames, h.pages, h.whole⟩
  · rfl
  · have hlength := congrArg List.length hvpns
    simp only [List.length_map, List.length_range] at hlength
    rw [htable, List.length_map, hlength]
    rfl
  · intro vpn e he
    obtain ⟨e₀, he₀, rfl, rfl⟩ := hentry vpn e he
    refine ⟨?_, hlt e₀ he₀, rfl⟩
    rw [mapped, Entry.valid, hflags e₀ he₀]
  · intro vpn vpn' e e' he he' hppn
    obtain ⟨e₀, he₀, rfl, rfl⟩ := hentry vpn e he
    obtain ⟨e₁, he₁, rfl, rfl⟩ := hentry vpn' e' he'
    rw [List.inj_on_of_nodup_map hdistinct he₀ he₁ hppn]
  · intro vpn e he o ho
    obtain ⟨e₀, he₀, rfl, rfl⟩ := hentry vpn e he
    exact (hholds e₀ he₀ o ho).trans (FlatSpace.byte_ofLayout layout ho e₀.vpn).symm

/-- What loading a mapping may do: nothing, or take frames and give them back, or map them. -/
inductive LoadEffect (m : StaticMachine) (mapping : Nat) (layout : Layout) :
    Except MemoryError Unit → StaticMachine → Prop
  | refused (hfew : m.frames.freeCount < layout.numPages) :
      LoadEffect m mapping layout (.error .outOfMemory) m
  | undone {entries : List Entry} {m₁ m₂ m₃ : StaticMachine} {cause : MemoryError}
      (htaken : Taken m m₁ ((List.range layout.numPages).map Nat.toUInt32) entries)
      (hfilled : Refilled (entries.map (·.ppn)) m₁ m₂)
      (hunread : ¬ ∀ e ∈ entries, (layout.index.locate e.vpn).isSome = true →
        ∃ found, layout.index.load e.vpn m₁.memory.pageSize = .ok found)
      (hback : Returned entries m₂ m₃) : LoadEffect m mapping layout (.error cause) m₃
  | loaded {entries : List Entry} {m₁ m₂ : StaticMachine}
      (htaken : Taken m m₁ ((List.range layout.numPages).map Nat.toUInt32) entries)
      (hfilled : Refilled (entries.map (·.ppn)) m₁ m₂)
      (hholds : ∀ e ∈ entries, Holds layout.index m₂ e) :
      LoadEffect m mapping layout (.ok ())
        (m₂.setTable mapping (entries.map (mapped layout.index)))

theorem load_effect (h : m.WellFormed) (mapping : Nat) (pid : Pid) (layout : Layout) :
    (load mapping pid layout).Ends m (LoadEffect m mapping layout) := by
  simp only [load, Op.ends_bind, Op.ends_get, Op.ends_ite]
  split
  next hfew =>
    simp only [Op.ends_notify, Op.ends_throw]
    exact .refused hfew
  next henough =>
    have hle : layout.numPages ≤ m.frames.freeCount := Nat.le_of_not_lt henough
    rw [toNat_word (Nat.lt_of_le_of_lt hle h.frames.freeCount_inWord)]
    refine (acquireAll_ends h _).imp ?_
    rintro (e | entries) m₁ ⟨hok, hall⟩
    · obtain ⟨entries, hentries⟩ := hok (by simpa using hle)
      cases hentries
    have htaken := hall entries rfl
    have ha := htaken.acquired
    have hlt : ∀ e ∈ entries, e.ppn.toNat < m₁.frames.total := fun e he =>
      htaken.reframed.total ▸ Frames.lt_total_of_isFree (ha.free e he)
    simp only [Op.ends_attempt]
    refine (fillAll_ends htaken.reframed.wellFormed layout.index hlt ha.flags ha.distinct).imp ?_
    rintro (e | all) m₂ ⟨hm₂, hread, hfilled⟩
    · simp only [Op.ends_bind, Op.ends_liftM]
      refine (releaseAll_ends hm₂.wellFormed entries).imp ?_
      rintro (e' | u) m₃ hm₃
      · exact nomatch e'
      · refine .undone htaken hm₂ ?_ hm₃
        intro hreadable
        obtain ⟨all, hall⟩ := hread hreadable
        cases hall
    · obtain ⟨rfl, hholds⟩ := hfilled _ rfl
      exact .loaded htaken hm₂ hholds

theorem load_ends (h : m.WellFormed) (mapping : Nat) (pid : Pid) (layout : Layout) :
    (load mapping pid layout).Ends m fun r m' => m'.WellFormed ∧
      m'.memory.pageSize = m.memory.pageSize ∧
      (layout.numPages ≤ m.frames.freeCount →
        (∀ vpn, (layout.index.locate vpn).isSome = true →
          ∃ found, layout.index.load vpn m.memory.pageSize = .ok found) → r = .ok ()) ∧
      (r = .ok () → Maps mapping (.ofLayout m.memory.pageSize layout) m') := by
  refine (load_effect h mapping pid layout).imp ?_
  intro r m' heffect
  cases heffect with
  | refused hfew => exact ⟨h, rfl, fun hle => absurd hfew (Nat.not_lt.mpr hle), nofun⟩
  | undone htaken hfilled hunread hback =>
    refine ⟨hback.reframed.wellFormed, ?_, ?_, nofun⟩
    · rw [hback.reframed.memory, hfilled.pageSize, htaken.reframed.memory]
    · intro _ hreadable
      refine absurd ?_ hunread
      intro e _ hlocate
      exact htaken.reframed.memory ▸ hreadable e.vpn hlocate
  | @loaded entries m₁ m₂ htaken hfilled hholds =>
    have ha := htaken.acquired
    have hsize : m₂.memory.pageSize = m.memory.pageSize := by
      rw [hfilled.pageSize, htaken.reframed.memory]
    have hlt : ∀ e ∈ entries, e.ppn.toNat < m₂.frames.total := by
      intro e he
      rw [hfilled.frames, htaken.reframed.total]
      exact Frames.lt_total_of_isFree (ha.free e he)
    have hmaps : Maps mapping (.ofLayout m₂.memory.pageSize layout) _ :=
      maps_mapped hfilled.wellFormed ha.vpns ha.flags hlt ha.distinct hholds
    rw [hsize] at hmaps
    exact ⟨hmaps.wellFormed, hsize, fun _ _ => rfl, fun _ => hmaps⟩

/-! ## Accesses -/

theorem Maps.geometry (h : Maps mapping f m) : Geometry m.frames.total f.pageSize :=
  h.pageSize ▸ h.wellFormed.geometry

/-- Marking an entry changes nothing that a flat memory shows. -/
theorem Maps.touch (h : Maps mapping f m) {vpn : Vpn} {e : Entry}
    (he : m.entry? mapping vpn = some e) (access : Access) :
    Maps mapping f (m.setTable mapping ((m.table mapping).set vpn.toNat (e.touched access))) := by
  have htable := table_setTable m mapping ((m.table mapping).set vpn.toNat (e.touched access))
  have hentry : ∀ vpn' e', StaticMachine.entry?
      (m.setTable mapping ((m.table mapping).set vpn.toNat (e.touched access))) mapping vpn' =
        some e' → ∃ e₀, m.entry? mapping vpn' = some e₀ ∧ e'.Extends e₀ := by
    intro vpn' e' he'
    rw [entry_setTable, List.getElem?_set] at he'
    split at he'
    next hvpn =>
      obtain rfl := UInt32.toNat_inj.mp hvpn
      split at he'
      · obtain rfl := Option.some.inj he'
        exact ⟨e, he, Entry.touched_extends (.refl e) access⟩
      · cases he'
    next => exact ⟨e', he', .refl e'⟩
  have hwf := h.wellFormed
  constructor
  · exact ⟨hwf.geometry, hwf.frames, hwf.pages, hwf.whole⟩
  · exact h.pageSize
  · rw [htable, List.length_set, h.length]
  · intro vpn' e' he'
    obtain ⟨e₀, he₀, hext⟩ := hentry vpn' e' he'
    rw [hext.valid, hext.ppn, hext.readOnly]
    exact h.entry vpn' e₀ he₀
  · intro vpn₁ vpn₂ e₁ e₂ he₁ he₂ hppn
    obtain ⟨e₁', he₁', hext₁⟩ := hentry vpn₁ e₁ he₁
    obtain ⟨e₂', he₂', hext₂⟩ := hentry vpn₂ e₂ he₂
    rw [hext₁.ppn, hext₂.ppn] at hppn
    exact h.apart vpn₁ vpn₂ e₁' e₂' he₁' he₂' hppn
  · intro vpn' e' he' o ho
    obtain ⟨e₀, he₀, hext⟩ := hentry vpn' e' he'
    rw [hext.ppn]
    exact h.bytes vpn' e₀ he₀ o ho

/-- A translation inside the space is refused for a write to a read-only page only. -/
theorem translate_ends (h : Maps mapping f m) (hin : (vaddr.vpn f.pageSize).toNat < f.numPages) :
    (translate mapping vaddr access).Ends m fun r m' =>
      if access = .write ∧ f.readOnly (vaddr.vpn f.pageSize) = true then
        r = .error .readOnly ∧ m' = m
      else Maps mapping f m' ∧ m'.memory = m.memory ∧
        ∃ e, m'.entry? mapping (vaddr.vpn f.pageSize) = some e ∧
          r = .ok (.ofPage e.ppn (vaddr.offset f.pageSize) f.pageSize) := by
  obtain ⟨e, he⟩ : ∃ e, m.entry? mapping (vaddr.vpn f.pageSize) = some e :=
    ⟨_, List.getElem?_eq_getElem (h.length.symm ▸ hin)⟩
  obtain ⟨hvalid, hppn, hro⟩ := h.entry _ e he
  simp only [translate, Op.ends_bind, Op.ends_get, Op.ends_checkDivisor, h.pageSize, he,
    Option.filter_some, hvalid, if_true, Op.ends_ite, Op.ends_throw, Op.ends_set, Op.ends_pure, hro,
    Bool.and_eq_true, decide_eq_true_eq]
  split
  · exact ⟨trivial, trivial⟩
  · refine ⟨h.touch he access, rfl, e.touched access, ?_, ?_⟩
    · rw [entry_setTable, List.getElem?_set_self (h.length.symm ▸ hin)]
    · rw [Entry.ppn_touched]

/-- A physical address of the mapping is inside the frame of its page. -/
theorem Maps.toNat_physical (h : Maps mapping f m) {e : Entry}
    (he : m.entry? mapping (vaddr.vpn f.pageSize) = some e) :
    (PhysAddr.ofPage e.ppn (vaddr.offset f.pageSize) f.pageSize).value.toNat =
      e.ppn.toNat * m.memory.pageSize + vaddr.offset f.pageSize := by
  rw [h.pageSize]
  exact h.geometry.toNat_ofPage (h.entry _ e he).2.1 (h.geometry.offset_lt vaddr)

theorem read_ends (h : Maps mapping f m) (hin : (vaddr.vpn f.pageSize).toNat < f.numPages)
    {length : Nat} (hlen : vaddr.offset f.pageSize + length ≤ f.pageSize) :
    (read mapping vaddr length).Ends m fun r m' =>
      r = .ok (f.bytes vaddr.value.toNat length) ∧ Maps mapping f m' := by
  simp only [read, Op.ends_bind]
  refine (translate_ends h hin).imp ?_
  intro r m' hr
  rw [if_neg (by simp)] at hr
  obtain ⟨h', -, e, he, rfl⟩ := hr
  have haddr := h'.toNat_physical he
  have hlt : e.ppn.toNat < m'.memory.pages := h'.wellFormed.pages.symm ▸ (h'.entry _ e he).2.1
  simp only [Op.ends_get, Op.ends_pure]
  refine ⟨congrArg Except.ok (Bytes.eq_map_range ?_ ?_), h'⟩
  · exact PhysicalMemory.length_read h'.wellFormed.whole hlt haddr (h'.pageSize.symm ▸ hlen)
  · intro i hi
    rw [PhysicalMemory.getD_read haddr hi, h'.geometry.toNat_eq vaddr, Nat.add_assoc]
    exact h'.bytes _ e he _ (by omega)

/-- Writing inside a frame changes the bytes of its page only. -/
theorem Maps.write (h : Maps mapping f m) {e : Entry}
    (he : m.entry? mapping (vaddr.vpn f.pageSize) = some e) {data : Bytes}
    (hlen : vaddr.offset f.pageSize + data.length ≤ f.pageSize) :
    Maps mapping (f.overwritten vaddr.value.toNat data)
      { m with memory := (m.memory.write
          (.ofPage e.ppn (vaddr.offset f.pageSize) f.pageSize) data).2 } where
  wellFormed := h.wellFormed.rememory rfl rfl (ByteStore.size_poke _ _ _)
  pageSize := h.pageSize
  length := h.length
  entry := h.entry
  apart := h.apart
  bytes := by
    intro vpn e' he' o ho
    have haddr := h.toNat_physical he
    have hlt : e.ppn.toNat < m.memory.pages := h.wellFormed.pages.symm ▸ (h.entry _ e he).2.1
    have ho' : o < m.memory.pageSize := h.pageSize.symm ▸ ho
    have hlen' : vaddr.offset f.pageSize + data.length ≤ m.memory.pageSize := h.pageSize.symm ▸ hlen
    have hold := h.bytes vpn e' he' o ho
    rw [h.geometry.toNat_eq vaddr]
    refine Eq.trans ?_ (f.byte_overwritten hlen ho vpn (vaddr.vpn f.pageSize)).symm
    by_cases hvpn : vpn = vaddr.vpn f.pageSize
    · subst hvpn
      obtain rfl : e = e' := Option.some.inj (he.symm.trans he')
      simp only [true_and]
      rw [← hold]
      exact PhysicalMemory.byte_write h.wellFormed.whole hlt haddr data ho'
    · have hne : e'.ppn ≠ e.ppn := fun heq => hvpn (h.apart _ _ e' e he' he heq)
      rw [if_neg fun hcase => hvpn hcase.1, ← hold]
      exact PhysicalMemory.byte_write_other m.memory haddr hlen' hne ho'

theorem write_ends (h : Maps mapping f m) (hin : (vaddr.vpn f.pageSize).toNat < f.numPages)
    {data : Bytes} (hlen : vaddr.offset f.pageSize + data.length ≤ f.pageSize) :
    (write mapping vaddr data).Ends m fun r m' =>
      if f.readOnly (vaddr.vpn f.pageSize) = true then r = .error .readOnly ∧ m' = m
      else r = .ok data.length ∧ Maps mapping (f.overwritten vaddr.value.toNat data) m' := by
  simp only [write, Op.ends_bind]
  refine (translate_ends h hin).imp ?_
  intro r m' hr
  simp only [true_and] at hr
  split at hr
  next hro =>
    obtain ⟨rfl, rfl⟩ := hr
    simp only [hro, if_true]
    exact ⟨trivial, trivial⟩
  next hro =>
    obtain ⟨h', -, e, he, rfl⟩ := hr
    have hlt : e.ppn.toNat < m'.memory.pages := h'.wellFormed.pages.symm ▸ (h'.entry _ e he).2.1
    simp only [hro, Bool.false_eq_true, if_false, Op.ends_modifyGet]
    refine ⟨congrArg Except.ok ?_, h'.write he hlen⟩
    exact PhysicalMemory.write_fst h'.wellFormed.whole hlt (h'.toNat_physical he)
      (h'.pageSize.symm ▸ hlen)

/-! ## Serving -/

/-- The memory of process `number`, of `numPages` pages of `pageSize` bytes. -/
structure Hosts (number : Nat) (pageSize numPages : Nat) (f : FlatSpace) (m : StaticMachine) :
    Prop where
  maps : Maps number f m
  pageSize : f.pageSize = pageSize
  numPages : f.numPages = numPages

/-- A static mapping never misses and never fails. -/
theorem serves (number : Nat) (pageSize numPages : Nat) :
    Serves number pageSize numPages (Hosts number pageSize numPages) (fun _ => True)
      fun _ _ => True where
  read := by
    intro vaddr length hin hlen
    refine ⟨?_, fun _ _ _ hready => absurd trivial hready⟩
    rintro f m ⟨hmaps, rfl, rfl⟩ -
    refine (read_ends hmaps hin hlen).imp ?_
    rintro r m' ⟨rfl, hmaps'⟩
    obtain ⟨hr, hstate⟩ := FlatSpace.read_inside hin length
    exact ⟨id, hr.symm, hstate.symm ▸ ⟨hmaps', rfl, rfl⟩⟩
  write := by
    intro vaddr data hin hlen
    refine ⟨?_, fun _ _ _ hready => absurd trivial hready⟩
    rintro f m ⟨hmaps, rfl, rfl⟩ -
    have hflat := FlatSpace.write_inside hin data
    refine (write_ends hmaps hin hlen).imp ?_
    intro r m' hr
    rw [Op.Ends] at hflat
    split at hflat
    next hro =>
      simp only [hro, if_true] at hr
      obtain ⟨rfl, rfl⟩ := hr
      exact ⟨id, hflat.1.symm, hflat.2.symm ▸ ⟨hmaps, rfl, rfl⟩⟩
    next hro =>
      simp only [hro, Bool.false_eq_true, if_false] at hr
      obtain ⟨rfl, hmaps'⟩ := hr
      exact ⟨id, hflat.1.symm, hflat.2.symm ▸ ⟨hmaps', rfl, rfl⟩⟩
  resolves := fun _ _ _ _ _ hready => absurd trivial hready
  refuses := by
    intro f m vaddr e hmiss hosts
    show (handleFault number.toUInt32 vaddr e).Ends m _
    simp only [handleFault, hmiss, if_false, Op.ends_pure]
    exact ⟨id, trivial, hosts⟩
  save := fun _ _ hosts => ⟨id, rfl, hosts⟩
  restore := fun _ _ hosts => ⟨id, rfl, hosts⟩
  teardown := fun _ _ _ => id

theorem prepares (h : m.WellFormed) (number : Nat) {pages : Nat}
    (hle : pages ≤ m.frames.freeCount) :
    Prepares (Hosts number m.memory.pageSize) (fun _ => True) number pages m := by
  rintro layout rfl hread
  obtain ⟨-, -, hok, hmaps⟩ := load_ends h number number.toUInt32 layout
  have hr := hok hle hread
  exact ⟨hr, id, hmaps hr, rfl, rfl⟩

/-! ## Machines of the past -/

/-- Machines of an accepted configuration, after mappings were loaded, used and given back in any
order. -/
inductive Reached (c : Config) : StaticMachine → Prop
  | booted (h : ((c.validate : Op Unit MemoryError Unit) ()).result = .ok ()) :
      Reached c (ofSizes c.physPages c.pageSize)
  | loaded {m : StaticMachine} (mapping : Nat) (pid : Pid) (layout : Layout) (h : Reached c m) :
      Reached c (load mapping pid layout m).state
  | translated {m : StaticMachine} (mapping : Nat) (vaddr : VirtAddr) (access : Access)
      (h : Reached c m) : Reached c (translate mapping vaddr access m).state
  | read {m : StaticMachine} (mapping : Nat) (vaddr : VirtAddr) (length : Nat)
      (h : Reached c m) : Reached c (read mapping vaddr length m).state
  | written {m : StaticMachine} (mapping : Nat) (vaddr : VirtAddr) (data : Bytes)
      (h : Reached c m) : Reached c (write mapping vaddr data m).state
  | tornDown {m : StaticMachine} (mapping : Nat) (h : Reached c m) :
      Reached c (teardown mapping m).state

theorem WellFormed.retable (h : m.WellFormed) (tables : OrderedMap Nat (List Entry)) :
    { m with tables := tables }.WellFormed := ⟨h.geometry, h.frames, h.pages, h.whole⟩

/-- A translation fails and changes nothing, or answers an address in the frame of a valid entry and
marks the entry. -/
theorem translate_cases (m : StaticMachine) (mapping : Nat) (vaddr : VirtAddr) (access : Access) :
    (translate mapping vaddr access).Ends m fun r m' =>
      (∃ cause, r = .error cause ∧ m' = m) ∨
        ∃ e, m.entry? mapping (vaddr.vpn m.memory.pageSize) = some e ∧ e.valid = true ∧
          r = .ok (.ofPage e.ppn (vaddr.offset m.memory.pageSize) m.memory.pageSize) ∧
          m' = m.setTable mapping
            ((m.table mapping).set (vaddr.vpn m.memory.pageSize).toNat (e.touched access)) := by
  simp only [translate, Op.ends_bind, Op.ends_get, Op.ends_checkDivisor]
  split
  next e he =>
    obtain ⟨he, hv⟩ := Option.filter_eq_some_iff.mp he
    simp only [Op.ends_ite, Op.ends_bind, Op.ends_throw, Op.ends_set, Op.ends_pure]
    split
    · exact Or.inl ⟨_, rfl, trivial⟩
    · exact Or.inr ⟨e, he, hv, rfl, rfl⟩
  next => exact Or.inl ⟨_, rfl, rfl⟩

theorem WellFormed.translate (h : m.WellFormed) (mapping : Nat) (vaddr : VirtAddr)
    (access : Access) : (translate mapping vaddr access).Ends m fun _ m' =>
      m'.WellFormed ∧ m'.memory = m.memory := by
  refine (translate_cases m mapping vaddr access).imp ?_
  rintro r m' (⟨cause, -, rfl⟩ | ⟨e, -, -, -, rfl⟩)
  · exact ⟨h, rfl⟩
  · exact ⟨h.retable _, rfl⟩

theorem WellFormed.write (h : m.WellFormed) (mapping : Nat) (vaddr : VirtAddr) (data : Bytes) :
    (write mapping vaddr data).Ends m fun _ m' =>
      m'.WellFormed ∧ m'.memory.pageSize = m.memory.pageSize := by
  simp only [StaticMachine.write, Op.ends_bind]
  refine (h.translate mapping vaddr .write).imp ?_
  rintro (e | paddr) m' ⟨h', hmem⟩
  · exact ⟨h', by rw [hmem]⟩
  · have hsize : m'.memory.pageSize = m.memory.pageSize := by rw [hmem]
    simp only [Op.ends_modifyGet]
    exact ⟨h'.rememory rfl rfl (ByteStore.size_poke _ _ _), hsize⟩

theorem Reached.wellFormed {c : Config} (h : Reached c m) :
    m.WellFormed ∧ m.memory.pageSize = c.pageSize := by
  induction h with
  | booted h =>
    obtain ⟨-, hvalid⟩ := validate_ends c ()
    exact ⟨wellFormed_ofSizes (hvalid h).1, rfl⟩
  | loaded mapping pid layout _ ih =>
    obtain ⟨h', hsize, -⟩ := load_ends ih.1 mapping pid layout
    exact ⟨h', hsize.trans ih.2⟩
  | translated mapping vaddr access _ ih =>
    obtain ⟨h', hmem⟩ := ih.1.translate mapping vaddr access
    exact ⟨h', (congrArg _ hmem).trans ih.2⟩
  | @read m mapping vaddr length _ ih =>
    have hends : (StaticMachine.read mapping vaddr length).Ends m fun _ m' =>
        m'.WellFormed ∧ m'.memory = m.memory := by
      simp only [StaticMachine.read, Op.ends_bind]
      refine (ih.1.translate mapping vaddr .read).imp ?_
      rintro (e | paddr) m' h'
      · exact h'
      · exact h'
    exact ⟨hends.1, (congrArg _ hends.2).trans ih.2⟩
  | written mapping vaddr data _ ih =>
    obtain ⟨h', hsize⟩ := ih.1.write mapping vaddr data
    exact ⟨h', hsize.trans ih.2⟩
  | @tornDown m mapping _ ih =>
    have hreleased := releaseAll_ends (ih.1.retable (m.tables.erase mapping)) (m.table mapping)
    exact ⟨hreleased.reframed.wellFormed, (congrArg _ hreleased.reframed.memory).trans ih.2⟩

end VirtualMemory.StaticMachine
