import VirtualMemory.Proofs.StaticCalls

/-!
# Static mappings divide the frames among them

Any number of mappings are loaded when they have nothing, used inside of their pages, and taken
down, and loads may fail for want of frames or because a page cannot be read. All along, the frames
that are not free are those that the tables name, each in one place of one table, and entry `vpn` of
a table belongs to page `vpn`. No frame fails to be given back, a load that fails leaves no trace,
and what is done through one mapping is not seen through another.
-/

namespace VirtualMemory.StaticMachine

variable {m m' : StaticMachine} {mapping : Nat} {vaddr : VirtAddr} {length : Nat}

/-! ## What a read shows -/

/-- A read inside of a page shows the bytes of its frame. -/
theorem read_result (h : m.WellFormed) (ha : m.Apart)
    (hin : vaddr.offset m.memory.pageSize + length ≤ m.memory.pageSize) :
    (read mapping vaddr length m).result =
      match (m.entry? mapping (vaddr.vpn m.memory.pageSize)).filter (·.valid) with
      | none => .error .addressError
      | some e => .ok ((List.range length).map fun i =>
          m.frameByte e.ppn (vaddr.offset m.memory.pageSize + i)) := by
  show (read mapping vaddr length).Ends m fun r _ => r = _
  simp only [read, translate, Op.ends_bind, Op.ends_get]
  cases hfound : (m.entry? mapping (vaddr.vpn m.memory.pageSize)).filter (·.valid) with
  | none => exact rfl
  | some e =>
    have he := (Option.filter_eq_some_iff.mp hfound).1
    have haddr := ha.address_eq h he vaddr
    simp only [reduceCtorEq, decide_false, Bool.false_and, Bool.false_eq_true, if_false,
      Op.ends_bind, Op.ends_set, Op.ends_pure]
    refine congrArg Except.ok (Bytes.eq_map_range ?_ ?_)
    · exact PhysicalMemory.length_read h.whole (ha.lt h he) haddr hin
    · intro i hi
      exact PhysicalMemory.getD_read haddr hi

structure SameView (mapping : Nat) (m m' : StaticMachine) : Prop where
  table : m'.table mapping = m.table mapping
  reads : ∀ vaddr length, VirtAddr.offset vaddr m.memory.pageSize + length ≤ m.memory.pageSize →
    (read mapping vaddr length m').result = (read mapping vaddr length m).result

/-- A mapping shows what is in its table and in the frames that the table names. -/
theorem sameView_of_bytes (h : m.WellFormed) (ha : m.Apart) (h' : m'.WellFormed) (ha' : m'.Apart)
    (hsize : m'.memory.pageSize = m.memory.pageSize) (htable : m'.table mapping = m.table mapping)
    (hbytes : ∀ ppn ∈ m.ppns mapping, ∀ o < m.memory.pageSize,
      m'.frameByte ppn o = m.frameByte ppn o) : SameView mapping m m' where
  table := htable
  reads := by
    intro vaddr length hin
    rw [read_result h' ha' (hsize.symm ▸ hin), read_result h ha hin, entry?, entry?, htable, hsize]
    split
    next => rfl
    next e he =>
      refine congrArg Except.ok (List.map_congr_left ?_)
      intro i hi
      rw [List.mem_range] at hi
      exact hbytes e.ppn (mem_ppns (Option.filter_eq_some_iff.mp he).1) _ (by omega)

/-- What respects one mapping is not seen through the others. -/
theorem Respects.sameView (h : m.WellFormed) (ha : m.Apart) (hr : Respects mapping m m') {k : Nat}
    (hk : k ≠ mapping) : SameView k m m' :=
  sameView_of_bytes h ha hr.wellFormed hr.apart hr.pageSize (hr.others k hk) (hr.bytes k hk)

/-! ## The division -/

/-- Entry `vpn` of each table belongs to page `vpn` and maps it. -/
def Indexed (m : StaticMachine) : Prop :=
  ∀ mapping i (e : Entry), (m.table mapping)[i]? = some e → e.vpn.toNat = i ∧ e.valid = true

/-- The queue holds the frames that are free, the other frames are those that the tables name, each
in one place, and entry `vpn` of a table belongs to page `vpn`. -/
structure Partitioned (m : StaticMachine) : Prop where
  queue : m.frames.WellFormed
  apart : m.Apart
  named : ∀ ppn, ppn.toNat < m.frames.total → m.frames.isFree ppn = false →
    ∃ mapping, ppn ∈ m.ppns mapping
  indexed : m.Indexed

theorem partitioned_ofSizes {pages pageSize : Nat} (h : (ofSizes pages pageSize).WellFormed) :
    (ofSizes pages pageSize).Partitioned where
  queue := h.frames
  apart := apart_ofSizes pages pageSize
  named := by
    intro ppn hlt hused
    rw [show (ofSizes pages pageSize).frames = .ofTotal pages from rfl] at hlt hused
    rw [(Frames.isFree_ofTotal pages ppn).mpr hlt] at hused
    cases hused
  indexed := by
    rintro mapping i e ⟨⟩

/-- Distinct frames are no more than there are. -/
theorem Acquired.length_le {vpns : List Vpn} {entries : List Entry} (h : m.WellFormed)
    (ha : Acquired m vpns entries) : entries.length ≤ m.frames.total := by
  have hsubset : entries.map (·.ppn) ⊆ (List.range m.frames.total).map Nat.toUInt32 := by
    intro ppn hppn
    obtain ⟨e, he, rfl⟩ := List.mem_map.mp hppn
    exact (mem_words h.geometry.pages_le).mpr (Frames.lt_total_of_isFree (ha.free e he))
  have hle := (List.subperm_of_subset ha.distinct hsubset).length_le
  simpa using hle

/-- A page of a mapping that was loaded has its place. -/
theorem Acquired.indexed {n i : Nat} {entries : List Entry} (h : m.WellFormed)
    (ha : Acquired m ((List.range n).map Nat.toUInt32) entries) {e : Entry}
    (he : entries[i]? = some e) : e.vpn.toNat = i ∧ e.valid = true := by
  have hlt : i < 0x100000000 := by
    have hi := (List.getElem?_eq_some_iff.mp he).choose
    have hle := ha.length_le h
    have htotal := h.geometry.pages_le
    omega
  have hi : (Nat.toUInt32 i).toNat = i := by
    rw [Nat.toUInt32_eq, UInt32.toNat_ofNat']
    exact Nat.mod_eq_of_lt hlt
  have hplace : entries[(Nat.toUInt32 i).toNat]? = some e := hi.symm ▸ he
  have hvpn := vpn_of_getElem? ha.vpns hplace
  refine ⟨by rw [hvpn, hi], ?_⟩
  rw [Entry.valid, ha.flags e (List.mem_of_getElem? he)]

theorem Indexed.congr (hi : m.Indexed) (htables : m'.tables = m.tables) : m'.Indexed := by
  intro k i e he
  rw [table, htables] at he
  exact hi k i e he

/-- One table is replaced. -/
theorem Indexed.setTable (hi : m.Indexed) {entries : List Entry}
    (hentries : ∀ (i : Nat) e, entries[i]? = some e → e.vpn.toNat = i ∧ e.valid = true) :
    (m.setTable mapping entries).Indexed := by
  intro k i e he
  by_cases hk : k = mapping
  · rw [hk, table_setTable] at he
    exact hentries i e he
  · rw [table_setTable_other hk] at he
    exact hi k i e he

theorem LoadEffect.indexed {layout : Layout} {r : Except MemoryError Unit}
    (h : LoadEffect m mapping layout r m') (hwf : m.WellFormed) (hi : m.Indexed) :
    m'.Indexed := by
  cases h with
  | refused _ => exact hi
  | undone htaken hfilled _ hback =>
    refine hi.congr ?_
    rw [hback.reframed.tables, hfilled.tables, htaken.reframed.tables]
  | loaded htaken hfilled _ =>
    refine Indexed.setTable (hi.congr (hfilled.tables.trans htaken.reframed.tables)) ?_
    intro i e he
    rw [List.getElem?_map, Option.map_eq_some_iff] at he
    obtain ⟨e₀, he₀, rfl⟩ := he
    obtain ⟨hvpn, hvalid⟩ := htaken.acquired.indexed hwf he₀
    exact ⟨hvpn, hvalid⟩

theorem Accessed.indexed (h : Accessed mapping m m') (hi : m.Indexed) : m'.Indexed := by
  rcases h.tables with htables | ⟨vpn, e, access, he, htables⟩
  · exact hi.congr htables
  · refine (hi.setTable ?_).congr htables
    intro i e' he'
    rw [List.getElem?_set] at he'
    split at he'
    next hvpn =>
      split at he'
      · obtain rfl := Option.some.inj he'
        have hext := Entry.touched_extends (.refl e) access
        rw [hext.vpn, hext.valid, ← hvpn]
        exact hi mapping _ e he
      · cases he'
    next => exact hi mapping i e' he'

theorem Call.Effect.indexed (h : Effect m mapping m') (hwf : m.WellFormed) (hi : m.Indexed) :
    m'.Indexed := by
  cases h with
  | load h => exact h.indexed hwf hi
  | access h => exact h.indexed hi
  | teardown h =>
    intro k i e he
    rw [table, h.reframed.tables, OrderedMap.get?_erase] at he
    split at he
    · cases he
    · exact hi k i e he

/-- Frames that are free or its own stay so, so that the other frames are named as before. -/
theorem Respects.named (hr : Respects mapping m m') (htotal : m'.frames.total = m.frames.total)
    (hp : m.Partitioned) (ppn : Ppn) (hlt : ppn.toNat < m'.frames.total)
    (hused : m'.frames.isFree ppn = false) : ∃ k, ppn ∈ m'.ppns k := by
  by_cases hown : ppn ∈ m'.ppns mapping
  · exact ⟨mapping, hown⟩
  have hother : ¬ (m.frames.isFree ppn = true ∨ ppn ∈ m.ppns mapping) := by
    rw [← hr.frames, hused]
    exact fun h => h.elim Bool.false_ne_true hown
  rw [not_or, Bool.not_eq_true] at hother
  obtain ⟨k, hk⟩ := hp.named ppn (htotal ▸ hlt) hother.1
  have hne : k ≠ mapping := fun heq => hother.2 (heq ▸ hk)
  exact ⟨k, hr.ppns hne ▸ hk⟩

/-! ## Calls -/

/-- A mapping that is loaded has nothing before, and a write stays inside its page. -/
def Call.Fits (m : StaticMachine) : Call → Prop
  | load mapping _ _ => m.table mapping = []
  | write _ vaddr data => vaddr.offset m.memory.pageSize + data.length ≤ m.memory.pageSize
  | _ => True

def Admissible (m : StaticMachine) : List Call → Prop
  | [] => True
  | call :: past => call.Fits (m.after past) ∧ m.Admissible past

instance Call.decidableFits (m : StaticMachine) : (call : Call) → Decidable (call.Fits m)
  | load mapping _ _ => inferInstanceAs (Decidable (m.table mapping = []))
  | translate .. => inferInstanceAs (Decidable True)
  | read .. => inferInstanceAs (Decidable True)
  | write _ vaddr data =>
    inferInstanceAs (Decidable (vaddr.offset m.memory.pageSize + data.length ≤ m.memory.pageSize))
  | teardown _ => inferInstanceAs (Decidable True)

instance decidableAdmissible (m : StaticMachine) : (calls : List Call) →
    Decidable (m.Admissible calls)
  | [] => inferInstanceAs (Decidable True)
  | call :: past =>
    have := decidableAdmissible m past
    inferInstanceAs (Decidable (call.Fits (m.after past) ∧ m.Admissible past))

theorem Call.run_respects (h : m.WellFormed) (ha : m.Apart) {call : Call} (hfits : call.Fits m) :
    call.run.Ends m fun _ m' => Respects call.mapping m m' := by
  cases call with
  | load mapping pid layout =>
    have hnew : m.ppns mapping = [] := by rw [ppns, hfits, List.map_nil]
    exact (load_respects h ha hnew pid layout).1
  | translate mapping vaddr access => exact (translate_respects h ha mapping vaddr access).1
  | read mapping vaddr length => exact read_respects h ha mapping vaddr length
  | write mapping vaddr data => exact write_respects h ha mapping hfits
  | teardown mapping => exact (teardown_respects h ha mapping).1

/-- A load that fails leaves the free frames and what every mapping shows. -/
theorem failed_load_traceless (h : m.WellFormed) (ha : m.Apart) (mapping : Nat) (pid : Pid)
    (layout : Layout) : (load mapping pid layout).Ends m fun r m' => ∀ cause, r = .error cause →
      (∀ ppn, m'.frames.isFree ppn = m.frames.isFree ppn) ∧ ∀ k, SameView k m m' := by
  refine ((load_ends h mapping pid layout).and
    ((load_effect h mapping pid layout).and (load_apart h ha mapping pid layout))).imp ?_
  rintro r m' ⟨⟨hwf, hsize, -⟩, heffect, ha'⟩ cause rfl
  have hsame := heffect.untouched
  refine ⟨hsame.free, fun k => sameView_of_bytes h ha hwf ha' hsize ?_ ?_⟩
  · rw [table, hsame.tables, table]
  · exact fun ppn hppn o ho => heffect.byte_other ha hppn ho

theorem Call.run_partitioned (h : m.WellFormed) (hp : m.Partitioned) {call : Call}
    (hfits : call.Fits m) : call.run.Ends m fun _ m' => m'.Partitioned := by
  refine ((run_respects h hp.apart hfits).and (run_effect h call)).imp ?_
  rintro r m' ⟨hr, heffect⟩
  exact ⟨hr.wellFormed.frames, hr.apart, hr.named heffect.total hp, heffect.indexed h hp.indexed⟩

theorem Partitioned.after {c : Config} (hreached : Reached c m) (hp : m.Partitioned)
    {calls : List Call} (hadm : m.Admissible calls) : (m.after calls).Partitioned := by
  induction calls with
  | nil => exact hp
  | cons call past ih =>
    exact Call.run_partitioned (hreached.after past).wellFormed.1 (ih hadm.2) hadm.1

theorem total_after {c : Config} (hreached : Reached c m) (calls : List Call) :
    (m.after calls).frames.total = m.frames.total := by
  induction calls with
  | nil => rfl
  | cons call past ih =>
    exact (Call.run_effect (hreached.after past).wellFormed.1 call).total.trans ih

theorem Admissible.suffix {calls past : List Call} (hadm : m.Admissible calls)
    (hsuffix : past <:+ calls) : m.Admissible past := by
  induction calls with
  | nil =>
    rw [List.suffix_nil.mp hsuffix]
    exact hadm
  | cons call rest ih =>
    rcases List.suffix_cons_iff.mp hsuffix with rfl | hrest
    · exact hadm
    · exact ih hadm.2 hrest

/-- What a call leaves alone. No frame fails to be given back, which would be reported; the other
mappings show the same; and a load that fails changes neither the free frames nor what any mapping
shows. -/
structure Call.Contained (call : Call) (m : StaticMachine) : Prop where
  notices : ∀ n ∈ (call.run m).notices, (∃ pid pages, n = .framesInsufficient pid pages) ∨
    m.memory.pageSize = 0x100000000 ∧ n = .halted .divisionByZero
  others : ∀ k, k ≠ call.mapping → SameView k m (call.run m).state
  undone : ∀ mapping pid layout cause, call = .load mapping pid layout →
    (StaticMachine.load mapping pid layout m).result = .error cause →
    (∀ ppn, (call.run m).state.frames.isFree ppn = m.frames.isFree ppn) ∧
      ∀ k, SameView k m (call.run m).state

theorem Call.contained (h : m.WellFormed) (ha : m.Apart) {call : Call} (hfits : call.Fits m) :
    call.Contained m where
  notices := call.run_issues h ha
  others := fun _ hk => Respects.sameView h ha (call.run_respects h ha hfits) hk
  undone := by
    rintro mapping pid layout cause rfl hfail
    exact failed_load_traceless h ha mapping pid layout cause hfail

/-- On every run of calls that fit, the frames stay divided among the mappings, and every call is
contained. -/
theorem frames_partitioned {c : Config}
    (hc : ((c.validate : Op Unit MemoryError Unit) ()).result = .ok ()) {calls : List Call}
    (hadm : (ofSizes c.physPages c.pageSize).Admissible calls) :
    ((ofSizes c.physPages c.pageSize).after calls).Partitioned ∧
    ((ofSizes c.physPages c.pageSize).after calls).frames.total = c.physPages ∧
    ∀ call past, call :: past <:+ calls →
      call.Contained ((ofSizes c.physPages c.pageSize).after past) := by
  have hreached := Reached.booted hc
  refine ⟨(partitioned_ofSizes hreached.wellFormed.1).after hreached hadm, ?_, ?_⟩
  · exact total_after hreached calls
  · intro call past hsuffix
    have hpast := hreached.after past
    exact Call.contained hpast.wellFormed.1 hpast.apart (hadm.suffix hsuffix).1

def halfReadable : ImageIndex :=
  ⟨.scripted [⟨"data", 0, 2, false⟩] [((0, 1), .invariantViolation)] ⟨0⟩,
    [⟨0, 0, false⟩, ⟨0, 1, false⟩]⟩

/-- One page is loaded and written to; then a load fails at a page that cannot be read, another
finds its frame, and a third does not find its two; then the first mapping is taken down and loaded
anew. -/
def sharing : List Call :=
  [.load 0 0 ⟨1, halfReadable⟩, .teardown 0, .write 1 ⟨1⟩ [9], .load 2 2 ⟨2, halfReadable⟩,
    .load 1 1 ⟨1, halfReadable⟩, .load 1 1 ⟨2, halfReadable⟩, .write 0 ⟨1⟩ [7, 7],
    .load 0 0 ⟨1, ⟨.scripted [] [] ⟨0⟩, []⟩⟩]

theorem frames_partitioned_sharing :
    (ofSizes 3 4).Admissible sharing ∧ ((ofSizes 3 4).after sharing).Partitioned ∧
      (load 1 1 ⟨2, halfReadable⟩ ((ofSizes 3 4).after (sharing.drop 6))).result =
        .error .invariantViolation ∧
      Call.Contained (.load 1 1 ⟨2, halfReadable⟩) ((ofSizes 3 4).after (sharing.drop 6)) ∧
      (load 2 2 ⟨2, halfReadable⟩ ((ofSizes 3 4).after (sharing.drop 4))).result =
        .error .outOfMemory ∧
      ((ofSizes 3 4).after sharing).ppns 0 = [2] ∧
      ((ofSizes 3 4).after sharing).ppns 1 = [1] := by
  have hadm : (ofSizes 3 4).Admissible sharing := by decide +kernel
  obtain ⟨hpart, -, hcontained⟩ :=
    frames_partitioned (c := { pageSize := 4, physPages := 3 }) rfl hadm
  refine ⟨hadm, hpart, by decide +kernel, hcontained _ _ ?_, by decide +kernel, by decide +kernel,
    by decide +kernel⟩
  exact List.drop_suffix 5 sharing

end VirtualMemory.StaticMachine
