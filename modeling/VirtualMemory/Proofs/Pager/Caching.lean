import VirtualMemory.Pager.Context
import VirtualMemory.Proofs.Pager.Motion

/-!
# The cache moves no page

A slot that is flushed tells the table what it saw, and a slot that is filled copies what the table
knows: either way the two together know as much of the page as before. So flushing a page, filling
a slot, and putting the entries of a process aside and back are all `Still`.
-/

namespace VirtualMemory.Pager

variable {p : Pager} {t : PageTable} {c : Tlb} {key : PageKey} {held : Option Ppn}

def recache (p : Pager) (t : PageTable) (c : Tlb) : Pager :=
  { p with table := t, processor.tlb := c }

/-- What table `t` and cache `c` know of a page, against what those of `p` do. -/
inductive Recached (p : Pager) (t : PageTable) (c : Tlb) (key : PageKey) : Prop
  | same : t.lookup key = p.table.lookup key → c.cached key = p.tlb.cached key →
    Recached p t c key
  | flushed (e : Entry) : p.tlb.cached key = some e → t.lookup key = some e →
    c.cached key = none → Recached p t c key
  | filled (e : Entry) : p.tlb.cached key = none → p.table.lookup key = some e →
    t.lookup key = some e → c.cached key = some e → Recached p t c key

/-- Table and cache change, but know together of every page what they knew before. -/
structure Recaching (p : Pager) (t : PageTable) (c : Tlb) : Prop where
  table : t.WellFormed
  resident : t.resident = p.table.resident
  distinct : c.Distinct
  size : c.size = p.tlb.size
  pages : ∀ key, Recached p t c key

theorem Recaching.wellFormed (hr : Recaching p t c) (h : p.WellFormed held) :
    (p.recache t c).WellFormed held where
  sized := by
    have hz := h.sized
    constructor
    · exact hz.geometry
    · exact hz.pages
    · exact hz.memory
    · exact hz.store
    · show t.resident.residences.size = p.frames.total
      rw [hr.resident]
      exact hz.residences
    · exact hz.processor
    · exact hz.swap
    · show 0 < c.size
      rw [hr.size]
      exact hz.slots
  table := hr.table
  frames := h.frames
  swap := h.swap
  distinct := hr.distinct
  free_iff := by
    intro ppn hlt
    show p.frames.isFree ppn = true ↔ t.resident.owner? ppn = none ∧ held ≠ some ppn
    rw [hr.resident]
    exact h.free_iff ppn hlt
  held_apart := by
    intro ppn hheld
    show ppn.toNat < p.frames.total ∧ t.resident.owner? ppn = none
    rw [hr.resident]
    exact h.held_apart ppn hheld
  entries := by
    intro key e he
    cases hr.pages key with
    | same ht _ => exact (h.entries key e (ht.symm.trans he)).congr rfl id
    | flushed e' hc ht _ =>
      obtain rfl := Option.some.inj (ht.symm.trans he)
      exact (h.cached key e' hc).1.congr rfl id
    | filled e' _ hp ht _ =>
      obtain rfl := Option.some.inj (ht.symm.trans he)
      exact (h.entries key e' hp).congr rfl id
  cached := by
    intro key e he
    have he : c.cached key = some e := he
    cases hr.pages key with
    | same ht hc =>
      obtain ⟨hfits, hknown⟩ := h.cached key e (hc.symm.trans he)
      rw [← ht] at hknown
      exact ⟨hfits.congr rfl id, hknown⟩
    | flushed e' _ _ hc =>
      rw [hc] at he
      cases he
    | filled e' _ hp ht hc =>
      obtain rfl := Option.some.inj (hc.symm.trans he)
      exact ⟨(h.entries key e' hp).congr rfl id, e', ht, Entry.Extends.refl e'⟩
  slotted := h.slotted
  pending := h.pending
  unpended := h.unpended

theorem Recaching.kept (hr : Recaching p t c) (h : p.WellFormed held) (key : PageKey) :
    Kept p (p.recache t c) key := by
  have h' := hr.wellFormed h
  have hframe : (p.recache t c).frame? key = p.frame? key := by
    rw [h.frame?_eq, h'.frame?_eq]
    show (t.lookup key).map (·.ppn) = _
    cases hr.pages key with
    | same ht _ => rw [ht]
    | flushed e hc ht _ =>
      obtain ⟨-, known, hk, hext⟩ := h.cached key e hc
      rw [ht, hk, Option.map_some, Option.map_some, hext.ppn]
    | filled e _ hp ht _ => rw [ht, hp]
  refine ⟨hframe, ?_, fun _ _ _ _ => rfl, fun _ => Swapper.Keeps.refl _ _⟩
  cases hf : p.frame? key with
  | none => rw [isDirty_of_absent hf, isDirty_of_absent (hframe.trans hf)]
  | some ppn =>
    rw [h.frame?_eq, Option.map_eq_some_iff] at hf
    obtain ⟨known, hk, -⟩ := hf
    rw [h.isDirty_eq hk]
    cases hr.pages key with
    | same ht hc =>
      rw [h'.isDirty_eq (ht.trans hk)]
      show ((c.cached key).getD known).dirty = _
      rw [hc]
    | flushed e hcached ht hc =>
      rw [h'.isDirty_eq ht, hcached]
      show ((c.cached key).getD e).dirty = _
      rw [hc]
      rfl
    | filled e hcached hp ht hc =>
      rw [h'.isDirty_eq ht, hcached]
      show ((c.cached key).getD e).dirty = _
      obtain rfl := Option.some.inj (hp.symm.trans hk)
      rw [hc]
      rfl

theorem Recaching.still (hr : Recaching p t c) (h : p.WellFormed held) :
    Still p (p.recache t c) :=
  ⟨⟨rfl, rfl, rfl, rfl, fun _ => rfl, id⟩, rfl, hr.kept h⟩

theorem Same.refl (p : Pager) : Same p p := ⟨rfl, rfl, rfl, rfl, rfl, rfl, rfl, fun _ => rfl⟩

theorem Same.still {p' : Pager} (hs : Same p p') : Still p p' := by
  have hframe : ∀ key, p'.frame? key = p.frame? key := by
    intro key
    rw [frame?, frame?, hs.table]
  have hdirty : ∀ key, p'.isDirty key = p.isDirty key := by
    intro key
    rw [isDirty, isDirty, hs.table, hs.cached]
  refine ⟨⟨hs.pageSize, congrArg _ hs.frames, congrArg _ hs.swap, congrArg _ hs.swap, hs.extent,
    fun hr => hs.swap ▸ hr⟩, congrArg (·.counters.pagesOut) hs.swap, ?_⟩
  intro key
  refine ⟨hframe key, hdirty key, ?_, ?_⟩
  · intro ppn _ o _
    rw [frameByte, frameByte, hs.memory, hs.pageSize]
  · intro _
    rw [hs.swap]
    exact Swapper.Keeps.refl _ _

/-! ## What the table learns -/

/-- The table knows of a page what it knew or what the cache saw; the cache holds the page as it did
or as the table knows it now. -/
structure Learned (p p' : Pager) (key : PageKey) : Prop where
  table : p'.table.lookup key = p.table.lookup key ∨
    ∃ seen, p.tlb.cached key = some seen ∧ p'.table.lookup key = some seen
  cache : ∀ e, p'.tlb.cached key = some e →
    p.tlb.cached key = some e ∨ p'.table.lookup key = some e

theorem Learned.trans {p₁ p₂ p₃ : Pager} (h : Learned p₁ p₂ key) (h' : Learned p₂ p₃ key) :
    Learned p₁ p₃ key where
  table := by
    rcases h'.table with ht | ⟨seen, hc, ht⟩
    · rw [ht]
      exact h.table
    · rcases h.cache seen hc with hc | hknown
      · exact Or.inr ⟨seen, hc, ht⟩
      · rw [ht, ← hknown]
        exact h.table
  cache := by
    intro e he
    rcases h'.cache e he with hc | hknown
    · rcases h.cache e hc with hc₁ | hknown
      · exact Or.inl hc₁
      · rcases h'.table with ht | ⟨seen, hseen, ht⟩
        · exact Or.inr (ht.trans hknown)
        · rw [hc] at hseen
          exact Or.inr (ht.trans hseen.symm)
    · exact Or.inr hknown

theorem Learned.of_eq {p' : Pager} (ht : p'.table.lookup key = p.table.lookup key)
    (hslots : p'.tlb.slots = p.tlb.slots) : Learned p p' key := by
  refine ⟨Or.inl ht, ?_⟩
  intro e he
  rw [Tlb.cached, Tlb.lookup, hslots] at he
  exact Or.inl he

theorem Recaching.learned (hr : Recaching p t c) (key : PageKey) :
    Learned p (p.recache t c) key := by
  cases hr.pages key with
  | same ht hc => exact ⟨Or.inl ht, fun e he => Or.inl (hc.symm.trans he)⟩
  | flushed seen hcached ht hc =>
    refine ⟨Or.inr ⟨seen, hcached, ht⟩, ?_⟩
    intro e he
    cases hc.symm.trans he
  | filled known _ hp ht hc =>
    exact ⟨Or.inl (ht.trans hp.symm), fun e he => Or.inr (ht.trans (hc.symm.trans he))⟩

/-- The entry of a page, with the marks of the cache slot that holds it. -/
def merged (p : Pager) (key : PageKey) : Option Entry :=
  (p.table.lookup key).map fun known => (p.tlb.cached key).elim known known.absorb

theorem merged_of_uncached (hc : p.tlb.cached key = none) :
    p.merged key = p.table.lookup key := by
  simp [merged, hc]

theorem WellFormed.merged_of_cached (h : p.WellFormed held) {seen : Entry}
    (hc : p.tlb.cached key = some seen) : p.merged key = some seen := by
  obtain ⟨-, known, hk, hext⟩ := h.cached key seen hc
  simp [merged, hk, hc, hext.absorbed]

/-- The entry of a page changes at most by the marks of its slot. -/
theorem Learned.entry {p' : Pager} (hl : Learned p p' key) (h : p.WellFormed held) :
    p'.table.lookup key = p.table.lookup key ∨ p'.table.lookup key = p.merged key := by
  refine hl.table.imp_right ?_
  rintro ⟨seen, hc, ht⟩
  rw [ht, h.merged_of_cached hc]

/-- Memory and swap stay, table and cache know of the pages what they knew, and no page moves. -/
structure Retold (p p' : Pager) : Prop where
  still : Still p p'
  memory : p'.memory = p.memory
  swap : p'.swap = p.swap
  learned : ∀ key, Learned p p' key

theorem Retold.refl (p : Pager) : Retold p p :=
  ⟨Still.refl p, rfl, rfl, fun _ => .of_eq rfl rfl⟩

theorem Retold.trans {p₁ p₂ p₃ : Pager} (h : Retold p₁ p₂) (h' : Retold p₂ p₃) : Retold p₁ p₃ where
  still := h.still.trans h'.still
  memory := h'.memory.trans h.memory
  swap := h'.swap.trans h.swap
  learned := fun key => (h.learned key).trans (h'.learned key)

theorem Same.learned {p' : Pager} (hs : Same p p') (key : PageKey) : Learned p p' key :=
  .of_eq (by rw [hs.table]) hs.slots

theorem Same.retold {p' : Pager} (hs : Same p p') : Retold p p' :=
  ⟨hs.still, hs.memory, hs.swap, hs.learned⟩

theorem Recaching.retold (hr : Recaching p t c) (h : p.WellFormed held) :
    Retold p (p.recache t c) :=
  ⟨hr.still h, rfl, rfl, hr.learned⟩

/-! ## Flushing a page -/

theorem recaching_flush (h : p.WellFormed held) {e : Entry} (he : p.tlb.cached key = some e)
    (hd : c.Distinct) (hsize : c.size = p.tlb.size)
    (hc : ∀ k, c.cached k = if k = key then none else p.tlb.cached k) :
    Recaching p (p.table.learning key e) c := by
  obtain ⟨-, known, hk, hext⟩ := h.cached key e he
  refine ⟨h.table.learning hk hext, rfl, hd, hsize, ?_⟩
  intro k
  have hlookup := PageTable.lookup_learning p.table key e k
  by_cases hkey : k = key
  · subst hkey
    exact .flushed e he (hlookup.trans (if_pos rfl)) ((hc k).trans (if_pos rfl))
  · exact .same (hlookup.trans (if_neg hkey)) ((hc k).trans (if_neg hkey))

theorem update_of_cached (h : p.WellFormed held) {e : Entry} (he : p.tlb.cached key = some e) :
    (PageTable.update key e).Ends p.table fun r t => r = .ok () ∧ t = p.table.learning key e := by
  obtain ⟨-, known, hk, hext⟩ := h.cached key e he
  exact PageTable.update_of_extends h.table hk (h.entries key known hk).valid hext

/-- After a flush the table alone knows of the page. -/
theorem flushPage_ends (h : p.WellFormed held) (key : PageKey) :
    (flushPage key).Ends p fun r p' =>
      r = .ok () ∧ ∃ t c, Recaching p t c ∧ c.cached key = none ∧ p' = p.recache t c := by
  have hd : (p.tlb.invalidatePage key.pid key.vpn).2.Distinct := h.distinct.invalidateWhere _
  have hsize : (p.tlb.invalidatePage key.pid key.vpn).2.size = p.tlb.size :=
    Tlb.size_invalidateWhere _ _
  have hc := Tlb.cached_invalidatePage (t := p.tlb) key
  have hnone := (hc key).trans (if_pos rfl)
  simp only [flushPage, Op.ends_bind, Op.ends_modifyGet, Tlb.invalidatePage_fst h.distinct]
  cases he : p.tlb.cached key with
  | none =>
    refine ⟨rfl, p.table, _, ⟨h.table, rfl, hd, hsize, ?_⟩, hnone, rfl⟩
    intro k
    refine .same rfl ((hc k).trans ?_)
    split
    next hk => rw [hk, he]
    next => rfl
  | some e =>
    simp only [Op.ends_on]
    refine (update_of_cached h he).imp ?_
    rintro r t ⟨rfl, rfl⟩
    exact ⟨rfl, _, _, recaching_flush h he hd hsize hc, hnone, rfl⟩

/-! ## Filling a slot -/

theorem chooseSlot_ends (h : 0 < p.tlb.size) :
    chooseSlot.Ends p fun r p' =>
      ∃ i old, r = .ok i ∧ p.tlb.slots[i]? = some old ∧ Same p p' ∧ p'.processor = p.processor := by
  rw [chooseSlot, Op.ends_modifyGet]
  cases hf : p.tlb.freeSlot with
  | some i =>
    obtain ⟨old, hold, -⟩ := Tlb.freeSlot_eq_some hf
    exact ⟨i, old, rfl, hold, ⟨rfl, rfl, rfl, rfl, rfl, rfl, rfl, fun _ => rfl⟩, rfl⟩
  | none =>
    have hlt := Draws.below_lt h p.draws
    refine ⟨_, _, rfl, List.getElem?_eq_getElem hlt, ?_, rfl⟩
    exact ⟨rfl, rfl, rfl, rfl, rfl, rfl, rfl, fun _ => rfl⟩

theorem mergeBack_ends (h : p.table.WellFormed) {e known : Entry}
    (hk : p.table.lookup key = some known) (hv : known.valid = true) (he : e.Extends known)
    (n : Notice) :
    (mergeBack key e n).Ends p fun r p' =>
      r = .ok () ∧ p' = { p with table := p.table.learning key e } := by
  simp only [mergeBack, Op.ends_bind, Op.ends_attempt, Op.ends_on]
  refine (PageTable.update_of_extends h hk hv he).imp ?_
  rintro r t ⟨rfl, rfl⟩
  exact ⟨rfl, rfl⟩

/-- A flushed slot is free, and no page is cached that was not cached before. -/
theorem flushSlot_ends (h : p.WellFormed held) {i : Nat} {old : TlbSlot}
    (hi : p.tlb.slots[i]? = some old) :
    (flushSlot i).Ends p fun r p' =>
      r = .ok () ∧ ∃ t c, Recaching p t c ∧ p' = p.recache t c ∧
        (∀ k, p.tlb.cached k = none → c.cached k = none) ∧
        ∃ free, c.slots[i]? = some free ∧ free.valid = false := by
  simp only [flushSlot, Op.ends_bind, Op.ends_modifyGet]
  cases hv : old.valid with
  | false =>
    rw [Tlb.invalidate_of_invalid hi hv]
    exact ⟨rfl, p.table, p.tlb, ⟨h.table, rfl, h.distinct, rfl, fun k => .same rfl rfl⟩, rfl,
      fun k hk => hk, old, hi, hv⟩
  | true =>
    have he : p.tlb.cached old.page = some old.entry :=
      (Tlb.cached_eq_some_iff h.distinct).mpr ⟨old, List.mem_of_getElem? hi, hv, rfl, rfl⟩
    have hd := Tlb.distinct_invalidate h.distinct hi hv
    have hc := Tlb.cached_invalidate h.distinct hi hv
    obtain ⟨-, known, hk, hext⟩ := h.cached _ _ he
    have hmerge := fun c =>
      mergeBack_ends (p := p.setTlb c) h.table hk (h.entries _ _ hk).valid hext
    rw [Tlb.invalidate_of_valid hi hv] at hd hc ⊢
    refine (hmerge _ _).imp ?_
    rintro r p' ⟨rfl, rfl⟩
    refine ⟨rfl, _, _, recaching_flush h he hd ?_ hc, rfl, ?_, old.invalidate, ?_, rfl⟩
    · exact List.length_set
    · intro k hknone
      rw [hc k, hknone]
      exact ite_self none
    · obtain ⟨hlt, -⟩ := List.getElem?_eq_some_iff.mp hi
      exact List.getElem?_set_self hlt

theorem recaching_write (h : p.WellFormed held) {i : Nat} {free : TlbSlot}
    (hi : p.tlb.slots[i]? = some free) (hfree : free.valid = false) {pid : Pid} {e : Entry}
    (he : p.table.lookup ⟨pid, e.vpn⟩ = some e) (hnew : p.tlb.cached ⟨pid, e.vpn⟩ = none) :
    Recaching p p.table (p.tlb.write i pid e).2 := by
  refine ⟨h.table, rfl, Tlb.distinct_write h.distinct hi hnew, Tlb.size_write _ _ _ _, ?_⟩
  intro k
  have hc := Tlb.cached_write h.distinct hi hfree (h.entries _ e he).valid hnew k
  by_cases hk : k = ⟨pid, e.vpn⟩
  · subst hk
    exact .filled e hnew he he (hc.trans (if_pos rfl))
  · exact .same rfl (hc.trans (if_neg hk))

/-- A refill leaves the page cached, and the table knows of it what it did. -/
theorem refill_ends (h : p.WellFormed held) {pid : Pid} {e : Entry}
    (he : p.table.lookup ⟨pid, e.vpn⟩ = some e) :
    (refill pid e).Ends p fun r p' =>
      r = .ok () ∧ p'.WellFormed held ∧ Retold p p' ∧ p'.frames = p.frames ∧
        p'.table.lookup ⟨pid, e.vpn⟩ = some e ∧ (p'.tlb.cached ⟨pid, e.vpn⟩).isSome := by
  have hfind : (p.tlb.find pid e.vpn).isSome = (p.tlb.cached ⟨pid, e.vpn⟩).isSome :=
    Tlb.find_isSome p.tlb ⟨pid, e.vpn⟩
  simp only [refill, Op.ends_bind, Op.ends_get, Op.ends_ite, Op.ends_pure, hfind]
  split
  next hc => exact ⟨trivial, h, Retold.refl p, trivial, he, hc⟩
  next hc =>
    rw [if_neg (Nat.ne_of_gt h.sized.slots)]
    refine (chooseSlot_ends h.sized.slots).imp ?_
    rintro r p₁ ⟨i, old, rfl, hi, hsame, hproc⟩
    have h₁ := h.same hsame
    have hi₁ : p₁.tlb.slots[i]? = some old := hsame.slots ▸ hi
    refine (flushSlot_ends h₁ hi₁).imp ?_
    rintro r p₂ ⟨rfl, t, c, hrec, rfl, hnone, free, hfree, hv⟩
    have h₂ := hrec.wellFormed h₁
    have hcached : p₁.tlb.cached ⟨pid, e.vpn⟩ = none := by
      rw [hsame.cached]
      exact Option.not_isSome_iff_eq_none.mp hc
    have hlookup : t.lookup ⟨pid, e.vpn⟩ = some e := by
      cases hrec.pages ⟨pid, e.vpn⟩ with
      | same ht _ => rw [ht, hsame.table, he]
      | flushed e' hc' _ _ =>
        rw [hcached] at hc'
        cases hc'
      | filled e' _ hp ht _ => rw [ht, ← hp, hsame.table, he]
    have hwrite := recaching_write h₂ hfree hv hlookup (hnone _ hcached)
    refine ⟨rfl, hwrite.wellFormed h₂, ?_, hsame.frames, hlookup, ?_⟩
    · exact hsame.retold.trans ((hrec.retold h₁).trans (hwrite.retold h₂))
    · have hc := Tlb.cached_write h₂.distinct hfree hv (h₂.entries _ e hlookup).valid
        (hnone _ hcached) ⟨pid, e.vpn⟩
      rw [if_pos rfl] at hc
      exact Option.isSome_iff_exists.mpr ⟨e, hc⟩

/-! ## Context switches -/

theorem same_setSnapshot (p : Pager) (pid : Pid) (entries : List Entry) :
    Same p (p.setSnapshot pid entries) := by
  refine ⟨rfl, rfl, rfl, rfl, rfl, rfl, rfl, ?_⟩
  intro q
  simp only [extent, setSnapshot, OrderedMap.get?_modify]
  split
  next hq =>
    rw [hq]
    cases p.spaces.get? pid <;> rfl
  next => rfl

theorem same_count (p : Pager) (n : Nat) (c : Counter) :
    Same p { p with stats := p.stats.add n c } :=
  ⟨rfl, rfl, rfl, rfl, rfl, rfl, rfl, fun _ => rfl⟩

theorem mergeAll_ends (h : p.table.WellFormed) {pid : Pid} {entries : List Entry}
    (hnodup : (entries.map (·.vpn)).Nodup)
    (hk : ∀ e ∈ entries, ∃ known, p.table.lookup ⟨pid, e.vpn⟩ = some known ∧
      known.valid = true ∧ e.Extends known) :
    (entries.forM fun e =>
        mergeBack ⟨pid, e.vpn⟩ e (.savedSlotUnmapped ⟨pid, e.vpn⟩) : Op Pager Empty PUnit).Ends p
      fun r p' => r = .ok ⟨⟩ ∧ p' = { p with table := p.table.learningAll pid entries } := by
  induction entries generalizing p with
  | nil => exact ⟨rfl, rfl⟩
  | cons e rest ih =>
    obtain ⟨hhead, hrest⟩ := List.nodup_cons.mp hnodup
    obtain ⟨hknown, hk⟩ := List.forall_mem_cons.mp hk
    obtain ⟨known, hlookup, hv, hext⟩ := hknown
    simp only [List.forM, Op.ends_bind]
    refine (mergeBack_ends h hlookup hv hext _).imp ?_
    rintro r p' ⟨rfl, rfl⟩
    refine ih (h.learning hlookup hext) hrest ?_
    intro e' he'
    rw [PageTable.lookup_learning_of_mem hhead he']
    exact hk e' he'

/-- What the cache drops of a process extends entries of the table, one each. -/
theorem WellFormed.invalidated (h : p.WellFormed held) (pid : Pid) :
    ((p.tlb.invalidateAsid pid).1.map (·.vpn)).Nodup ∧
      ∀ e ∈ (p.tlb.invalidateAsid pid).1, ∃ known, p.table.lookup ⟨pid, e.vpn⟩ = some known ∧
        known.valid = true ∧ e.Extends known := by
  refine ⟨Tlb.nodup_invalidateAsid h.distinct pid, ?_⟩
  intro e he
  obtain ⟨-, known, hknown, hext⟩ := h.cached _ e ((Tlb.mem_invalidateAsid h.distinct).mp he)
  exact ⟨known, hknown, (h.entries _ known hknown).valid, hext⟩

/-- The pager after the entries of a process were taken out of the cache and kept aside. -/
def saved (p : Pager) (pid : Pid) : Pager :=
  { (p.recache (p.table.learningAll pid (p.tlb.invalidateAsid pid).1)
      (p.tlb.invalidateAsid pid).2.countContextFlush).setSnapshot pid
        (p.tlb.invalidateAsid pid).1 with
    stats := p.stats.add 1 .contextSaves }

theorem saveContext_saved (h : p.WellFormed held) (pid : Pid) :
    (saveContext pid).Ends p fun r p' => r = .ok () ∧ p' = p.saved pid := by
  obtain ⟨hnodup, hk⟩ := h.invalidated pid
  have hmerge := fun c => mergeAll_ends (p := p.setTlb c) h.table hnodup hk
  simp only [saveContext, Op.ends_bind, Op.ends_modifyGet]
  refine (hmerge _).imp ?_
  rintro r p₁ ⟨rfl, rfl⟩
  exact ⟨rfl, rfl⟩

theorem cached_saved (p : Pager) (pid : Pid) (k : PageKey) :
    (p.saved pid).tlb.cached k = if k.pid = pid then none else p.tlb.cached k :=
  Tlb.cached_invalidateAsid pid k

theorem recaching_saved (h : p.WellFormed held) (pid : Pid) :
    Recaching p (p.saved pid).table (p.saved pid).tlb := by
  obtain ⟨hnodup, hk⟩ := h.invalidated pid
  refine ⟨h.table.learningAll hnodup ?_, PageTable.resident_learningAll _ _ _,
    h.distinct.invalidateWhere _, Tlb.size_invalidateWhere _ _, ?_⟩
  · intro e he
    obtain ⟨known, hknown, -, hext⟩ := hk e he
    exact ⟨known, hknown, hext⟩
  intro k
  have hc := cached_saved p pid k
  by_cases hpid : k.pid = pid
  · subst hpid
    rw [if_pos rfl] at hc
    cases he : p.tlb.cached k with
    | none =>
      refine .same (PageTable.lookup_learningAll_other ?_ _) (hc.trans he.symm)
      rintro e hmem hkey
      rw [Tlb.mem_invalidateAsid h.distinct, ← hkey, he] at hmem
      cases hmem
    | some e =>
      have hvpn : e.vpn = k.vpn := (h.cached k e he).1.vpn
      have hkey : (⟨k.pid, e.vpn⟩ : PageKey) = k := by rw [hvpn]
      have hmem : e ∈ (p.tlb.invalidateAsid k.pid).1 :=
        (Tlb.mem_invalidateAsid h.distinct).mpr (hkey.symm ▸ he)
      have ht := PageTable.lookup_learningAll hnodup hmem k.pid p.table
      rw [hkey] at ht
      exact .flushed e he ht hc
  · rw [if_neg hpid] at hc
    refine .same (PageTable.lookup_learningAll_other ?_ _) hc
    rintro e - rfl
    exact hpid rfl

/-- Saving a context flushes the slots of the process, all of them. -/
theorem saveContext_ends (h : p.WellFormed held) (pid : Pid) :
    (saveContext pid).Ends p fun r p' => r = .ok () ∧ p'.WellFormed held ∧ Still p p' := by
  refine (saveContext_saved h pid).imp ?_
  rintro r p' ⟨rfl, rfl⟩
  have hrec := recaching_saved h pid
  have hsnapshot := same_setSnapshot (p.recache (p.saved pid).table (p.saved pid).tlb) pid
    (p.tlb.invalidateAsid pid).1
  have hsame : Same (p.recache (p.saved pid).table (p.saved pid).tlb) (p.saved pid) :=
    { hsnapshot with }
  exact ⟨rfl, (hrec.wellFormed h).same hsame, (hrec.still h).trans hsame.still⟩

theorem reinstall_ends (h : p.WellFormed held) (pid : Pid) (saved : Entry) :
    (reinstall pid saved).Ends p fun r p' => r = .ok () ∧ p'.WellFormed held ∧ Still p p' := by
  simp only [reinstall, Op.ends_bind, Op.ends_get]
  split
  next current hcurrent =>
    simp only [Op.ends_ite, Op.ends_pure]
    split
    next =>
      rw [h.lookupValid] at hcurrent
      have hvpn := (h.entries _ current hcurrent).vpn
      have hlookup : p.table.lookup ⟨pid, current.vpn⟩ = some current := by rw [hvpn, hcurrent]
      refine (refill_ends h hlookup).imp ?_
      rintro r p' ⟨hr, hwf, hretold, -⟩
      exact ⟨hr, hwf, hretold.still⟩
    next => exact ⟨trivial, h, Still.refl p⟩
  next => exact ⟨rfl, h, Still.refl p⟩

theorem reinstallAll_ends (h : p.WellFormed held) (pid : Pid) (entries : List Entry) :
    (entries.forM (reinstall pid) : Op Pager Empty PUnit).Ends p fun r p' =>
      r = .ok ⟨⟩ ∧ p'.WellFormed held ∧ Still p p' := by
  induction entries generalizing p with
  | nil => exact ⟨rfl, h, Still.refl p⟩
  | cons e rest ih =>
    simp only [List.forM, Op.ends_bind]
    refine (reinstall_ends h pid e).imp ?_
    rintro r p₁ ⟨rfl, h₁, hstill⟩
    refine (ih h₁).imp ?_
    rintro r p₂ ⟨hr, h₂, hstill'⟩
    exact ⟨hr, h₂, hstill.trans hstill'⟩

theorem restoreContext_ends (h : p.WellFormed held) (pid : Pid) :
    (restoreContext pid).Ends p fun r p' => r = .ok () ∧ p'.WellFormed held ∧ Still p p' := by
  simp only [restoreContext, Op.ends_bind, Op.ends_get]
  split
  next space _ =>
    simp only [Op.ends_modify, Op.ends_bind]
    have hsame := same_setSnapshot p pid []
    refine (reinstallAll_ends (h.same hsame) pid space.snapshot).imp ?_
    rintro r p' ⟨hr, hwf, hstill⟩
    exact ⟨hr, hwf, hsame.still.trans hstill⟩
  next => exact ⟨rfl, h, Still.refl p⟩

end VirtualMemory.Pager
