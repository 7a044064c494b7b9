import VirtualMemory.Mmu.Static
import VirtualMemory.Proofs.AddressArithmetic
import VirtualMemory.Proofs.FrameContents
import VirtualMemory.Proofs.FrameQueue
import VirtualMemory.Proofs.ImageContents

/-!
# Frames of static mappings

A mapping takes its frames one after the other, all of them from the free ones and so no frame
twice, and then fills them one after the other: filling a frame touches no other. Taking succeeds if
there are frames enough, filling if the pages of the image can be read.
-/

namespace VirtualMemory

/-- The frame that is given back is free then, if there is such a frame, and no other is that was
not before. -/
theorem Frames.WellFormed.release {f : Frames} (h : f.WellFormed) (ppn : Ppn) :
    (Frames.release ppn).Ends f fun _ f' => f'.WellFormed ∧ f'.total = f.total ∧
      ∀ q, f'.isFree q = true ↔ f.isFree q = true ∨ q = ppn ∧ ppn.toNat < f.total := by
  refine (Frames.release_ends ppn f).imp ?_
  rintro _ _ (hout | hfree | ⟨hlt, hused⟩)
  · exact ⟨h, rfl, fun q => (or_iff_left fun hq => Nat.not_lt.mpr hout hq.2).symm⟩
  · refine ⟨h, rfl, fun q => (or_iff_left_of_imp ?_).symm⟩
    rintro ⟨rfl, -⟩
    exact hfree
  · refine ⟨h.withFree hlt hused, Frames.total_withFree f ppn, fun q => ?_⟩
    rw [Frames.isFree_withFree hlt, and_iff_left hlt, or_comm]

namespace StaticMachine

variable {m m' : StaticMachine} {entries : List Entry}

/-! ## The invariant -/

structure WellFormed (m : StaticMachine) : Prop where
  geometry : Geometry m.frames.total m.memory.pageSize
  frames : m.frames.WellFormed
  pages : m.memory.pages = m.frames.total
  whole : m.memory.Whole

/-- A machine of checked sizes starts well-formed. -/
theorem wellFormed_ofSizes {pages pageSize : Nat} (hg : Geometry pages pageSize) :
    (ofSizes pages pageSize).WellFormed := by
  have htotal : (Frames.ofTotal pages).total = pages := rfl
  refine ⟨?_, Frames.wellFormed_ofTotal hg.pages_le, htotal.symm, ?_⟩
  · show Geometry (Frames.ofTotal pages).total pageSize
    rw [htotal]
    exact hg
  · exact ByteStore.size_zeros _

theorem WellFormed.reframe (h : m.WellFormed) {f : Frames} (hf : f.WellFormed)
    (htotal : f.total = m.frames.total) : { m with frames := f }.WellFormed :=
  ⟨htotal ▸ h.geometry, hf, h.pages.trans htotal.symm, h.whole⟩

theorem WellFormed.rememory (h : m.WellFormed) {x : PhysicalMemory}
    (hpages : x.pages = m.memory.pages) (hsize : x.pageSize = m.memory.pageSize)
    (hstore : x.store.size = m.memory.store.size) : { m with memory := x }.WellFormed := by
  refine ⟨?_, h.frames, hpages.trans h.pages, ?_⟩
  · show Geometry m.frames.total x.pageSize
    rw [hsize]
    exact h.geometry
  · show x.store.size = x.pages * x.pageSize
    rw [hstore, hpages, hsize]
    exact h.whole

structure Reframed (m m' : StaticMachine) : Prop where
  wellFormed : m'.WellFormed
  memory : m'.memory = m.memory
  total : m'.frames.total = m.frames.total
  tables : m'.tables = m.tables

theorem Reframed.refl (h : m.WellFormed) : Reframed m m := ⟨h, rfl, rfl, rfl⟩

theorem Reframed.trans {m₁ m₂ m₃ : StaticMachine} (h : Reframed m₁ m₂) (h' : Reframed m₂ m₃) :
    Reframed m₁ m₃ :=
  ⟨h'.wellFormed, h'.memory.trans h.memory, h'.total.trans h.total, h'.tables.trans h.tables⟩

structure Returned (entries : List Entry) (m m' : StaticMachine) : Prop where
  reframed : Reframed m m'
  free : ∀ q, m'.frames.isFree q = true ↔
    m.frames.isFree q = true ∨ q ∈ entries.map (·.ppn) ∧ q.toNat < m.frames.total

theorem Returned.cons {e : Entry} {m₁ m₂ m₃ : StaticMachine} (h : Reframed m₁ m₂)
    (hfree : ∀ q, m₂.frames.isFree q = true ↔
      m₁.frames.isFree q = true ∨ q = e.ppn ∧ e.ppn.toNat < m₁.frames.total)
    (h' : Returned entries m₂ m₃) : Returned (e :: entries) m₁ m₃ where
  reframed := h.trans h'.reframed
  free := by
    intro q
    rw [h'.free, hfree, h.total, List.map_cons, List.mem_cons, or_and_right, or_assoc]
    have heq : q = e.ppn ∧ e.ppn.toNat < m₁.frames.total ↔
        q = e.ppn ∧ q.toNat < m₁.frames.total :=
      and_congr_right fun hq => by rw [hq]
    rw [heq]

/-- The frames of the entries are free afterwards, in memory that is otherwise as before. -/
theorem releaseAll_ends (h : m.WellFormed) (entries : List Entry) :
    (releaseAll entries).Ends m fun _ m' => Returned entries m m' := by
  simp only [releaseAll]
  induction entries generalizing m with
  | nil => exact ⟨.refl h, fun q => by simp [Op.pure_apply]⟩
  | cons e rest ih =>
    simp only [List.forM, Op.ends_bind, Op.ends_attempt, Op.ends_on]
    refine (h.frames.release e.ppn).imp ?_
    rintro r f ⟨hf, htotal, hfree⟩
    have h' : Reframed m { m with frames := f } := ⟨h.reframe hf htotal, rfl, htotal, rfl⟩
    cases r with
    | error cause =>
      simp only [Op.ends_notify]
      refine (ih h'.wellFormed).imp ?_
      intro _ m' hm
      exact .cons h' hfree hm
    | ok _ =>
      simp only [Op.ends_pure]
      refine (ih h'.wellFormed).imp ?_
      intro _ m' hm
      exact .cons h' hfree hm

/-! ## Taking frames -/

/-- These entries map the pages to frames that were free. -/
structure Acquired (m : StaticMachine) (vpns : List Vpn) (entries : List Entry) : Prop where
  vpns : entries.map (·.vpn) = vpns
  flags : ∀ e ∈ entries, e.flags = { valid := true }
  free : ∀ e ∈ entries, m.frames.isFree e.ppn = true
  distinct : (entries.map (·.ppn)).Nodup

theorem Acquired.cons {ppn : Ppn} {rest : List Ppn} {vpn : Vpn} {vpns : List Vpn}
    (hfree : m.frames.free = ppn :: rest) (h : m.WellFormed)
    (ha : Acquired { m with frames := m.frames.without ppn rest } vpns entries) :
    Acquired m (vpn :: vpns) (⟨vpn, ppn, { valid := true }⟩ :: entries) where
  vpns := congrArg (vpn :: ·) ha.vpns
  flags := by
    intro e he
    rcases List.mem_cons.mp he with rfl | he
    · rfl
    · exact ha.flags e he
  free := by
    intro e he
    rcases List.mem_cons.mp he with rfl | he
    · exact h.frames.isFree_of_mem (hfree ▸ List.mem_cons_self)
    · exact ((Frames.isFree_without _ _ _ _).mp (ha.free e he)).2
  distinct := by
    rw [List.map_cons, List.nodup_cons, List.mem_map]
    refine ⟨?_, ha.distinct⟩
    rintro ⟨e, he, heq⟩
    exact ((Frames.isFree_without _ _ _ _).mp (ha.free e he)).1 heq

/-- These entries map the pages to frames that were free, and these frames are no longer. -/
structure Taken (m m' : StaticMachine) (vpns : List Vpn) (entries : List Entry) : Prop where
  reframed : Reframed m m'
  acquired : Acquired m vpns entries
  left : ∀ q, m'.frames.isFree q = true ↔
    m.frames.isFree q = true ∧ q ∉ entries.map (·.ppn)

/-- No frame of the entries is free, so none can be taken a second time. -/
theorem Taken.used {vpns : List Vpn} (h : Taken m m' vpns entries) (e : Entry) (he : e ∈ entries) :
    m'.frames.isFree e.ppn = false := by
  rw [Bool.eq_false_iff, ne_eq, h.left]
  exact fun hq => hq.2 (List.mem_map_of_mem he)

theorem Taken.cons {ppn : Ppn} {rest : List Ppn} {vpn : Vpn} {vpns : List Vpn}
    (hfree : m.frames.free = ppn :: rest) (h : m.WellFormed)
    (h₁ : Reframed m { m with frames := m.frames.without ppn rest })
    (ht : Taken { m with frames := m.frames.without ppn rest } m' vpns entries) :
    Taken m m' (vpn :: vpns) (⟨vpn, ppn, { valid := true }⟩ :: entries) := by
  refine ⟨h₁.trans ht.reframed, ht.acquired.cons hfree h, ?_⟩
  intro q
  rw [ht.left, Frames.isFree_without, List.map_cons, List.mem_cons, not_or, and_assoc,
    and_left_comm]

/-- As many frames as there are pages can be had as long as that many are free; one too few is an
error, after which the caller gives back what it has. -/
theorem acquireAll_ends (h : m.WellFormed) (vpns : List Vpn) :
    (acquireAll vpns).Ends m fun r m' =>
      (vpns.length ≤ m.frames.freeCount → ∃ entries, r = .ok entries) ∧
      ∀ entries, r = .ok entries → Taken m m' vpns entries := by
  simp only [acquireAll]
  induction vpns generalizing m with
  | nil =>
    refine ⟨fun _ => ⟨[], rfl⟩, ?_⟩
    rintro entries ⟨⟩
    have hnone : Acquired m [] [] :=
      ⟨rfl, List.forall_mem_nil _, List.forall_mem_nil _, List.nodup_nil⟩
    exact ⟨.refl h, hnone, fun q => by simp [Op.pure_apply]⟩
  | cons vpn vpns ih =>
    simp only [List.mapM_cons, Op.ends_bind, Op.ends_modifyGet]
    cases hfree : m.frames.free with
    | nil =>
      simp only [Frames.acquire_nil hfree, Op.ends_throw]
      constructor
      · intro hle
        rw [Frames.freeCount, hfree] at hle
        cases hle
      · rintro entries ⟨⟩
    | cons ppn rest =>
      have h₁ : Reframed m { m with frames := m.frames.without ppn rest } :=
        ⟨h.reframe (h.frames.without hfree) (Frames.total_without _ _ _), rfl,
          Frames.total_without _ _ _, rfl⟩
      simp only [Frames.acquire_cons hfree, Op.ends_pure]
      refine (ih h₁.wellFormed).imp ?_
      rintro (e | entries) m' ⟨hok, hall⟩
      · constructor
        · intro hle
          rw [Frames.freeCount, hfree] at hle
          obtain ⟨entries, hentries⟩ := hok (Nat.le_of_succ_le_succ hle)
          cases hentries
        · rintro entries ⟨⟩
      · refine ⟨fun _ => ⟨_, rfl⟩, ?_⟩
        rintro all ⟨⟩
        exact (hall entries rfl).cons hfree h h₁

/-! ## Filling frames -/

def frameByte (m : StaticMachine) (ppn : Ppn) (offset : Nat) : UInt8 :=
  m.memory.byte (ppn.toNat * m.memory.pageSize + offset)

structure Refilled (ppns : List Ppn) (m m' : StaticMachine) : Prop where
  wellFormed : m'.WellFormed
  frames : m'.frames = m.frames
  tables : m'.tables = m.tables
  pageSize : m'.memory.pageSize = m.memory.pageSize
  others : ∀ q ∉ ppns, ∀ o < m.memory.pageSize, m'.frameByte q o = m.frameByte q o

theorem Refilled.refl (ppns : List Ppn) (h : m.WellFormed) : Refilled ppns m m :=
  ⟨h, rfl, rfl, rfl, fun _ _ _ _ => rfl⟩

theorem Refilled.cons {ppn : Ppn} {ppns : List Ppn} {m₁ m₂ m₃ : StaticMachine}
    (h : Refilled [ppn] m₁ m₂) (h' : Refilled ppns m₂ m₃) : Refilled (ppn :: ppns) m₁ m₃ where
  wellFormed := h'.wellFormed
  frames := h'.frames.trans h.frames
  tables := h'.tables.trans h.tables
  pageSize := h'.pageSize.trans h.pageSize
  others := by
    intro q hq o ho
    rw [List.mem_cons, not_or] at hq
    rw [h'.others q hq.2 o (h.pageSize ▸ ho), h.others q (by simpa using hq.1) o ho]

theorem refilled_replaceFrame (h : m.WellFormed) {ppn : Ppn} {data : Bytes}
    (hlength : data.length = m.memory.pageSize) :
    Refilled [ppn] m { m with memory := m.memory.replaceFrame ppn data } where
  wellFormed := h.rememory rfl rfl (ByteStore.size_poke _ _ _)
  frames := rfl
  tables := rfl
  pageSize := rfl
  others := by
    intro q hq o ho
    exact m.memory.byte_replaceFrame_other (List.ne_of_not_mem_cons hq) hlength ho

def mapped (index : ImageIndex) (e : Entry) : Entry :=
  { e with flags.readOnly := (index.locate e.vpn).any (·.readOnly) }

def Holds (index : ImageIndex) (m : StaticMachine) (e : Entry) : Prop :=
  ∀ o < m.memory.pageSize, m.frameByte e.ppn o = index.initialByte e.vpn m.memory.pageSize o

/-- A page keeps its contents while frames that are not its own are refilled. -/
theorem Refilled.holds {ppns : List Ppn} {index : ImageIndex} {e : Entry}
    (h : Refilled ppns m m') (he : e.ppn ∉ ppns) (hholds : Holds index m e) :
    Holds index m' e := by
  intro o ho
  rw [h.pageSize] at ho ⊢
  rw [h.others e.ppn he o ho, hholds o ho]

/-- A page is filled with its bytes of the image and zeros, or its image file fails. -/
theorem fillPage_ends (h : m.WellFormed) (index : ImageIndex) {e : Entry}
    (hlt : e.ppn.toNat < m.frames.total) (hflags : e.flags = { valid := true }) :
    (fillPage index e).Ends m fun r m' => Refilled [e.ppn] m m' ∧
      (((index.locate e.vpn).isSome = true →
        ∃ found, index.load e.vpn m.memory.pageSize = .ok found) → ∃ e', r = .ok e') ∧
      ∀ e', r = .ok e' → e' = mapped index e ∧ Holds index m' e := by
  have hpage : e.ppn.toNat < m.memory.pages := h.pages.symm ▸ hlt
  simp only [fillPage, Op.ends_bind, Op.ends_get]
  split
  next hlocate =>
    cases hload : index.load e.vpn m.memory.pageSize with
    | error cause =>
      simp only [Op.ends_bind, Op.ends_ofExcept]
      refine ⟨.refl _ h, ?_, ?_⟩
      · intro hread
        obtain ⟨found, hfound⟩ := hread hlocate
        cases hfound
      · rintro e' ⟨⟩
    | ok found =>
      obtain ⟨data, readOnly⟩ := found
      obtain ⟨⟨page, hp, hro⟩, hlength, hbytes⟩ := ImageIndex.load_ok hload
      simp only [Op.ends_bind, Op.ends_ofExcept,
        PhysicalMemory.writePage_of_lt hpage hlength, Op.ends_set, Op.ends_pure]
      refine ⟨refilled_replaceFrame h hlength, fun _ => ⟨_, rfl⟩, ?_⟩
      rintro e' ⟨⟩
      refine ⟨?_, ?_⟩
      · rw [mapped, hp, Option.any_some, hro]
      · intro o ho
        exact (PhysicalMemory.byte_replaceFrame h.whole hpage hlength ho).trans (hbytes o ho)
  next hlocate =>
    have hnone : index.locate e.vpn = none := by simpa using hlocate
    have hlength : (Bytes.zeros m.memory.pageSize).length = m.memory.pageSize :=
      List.length_replicate
    have hzero : m.memory.zeroPage e.ppn =
        .ok (m.memory.replaceFrame e.ppn (Bytes.zeros m.memory.pageSize)) := by
      simp [PhysicalMemory.zeroPage, PhysicalMemory.frameStart, hpage, bind, Except.bind, pure,
        Except.pure, PhysicalMemory.replaceFrame]
    simp only [Op.ends_bind, Op.ends_ofExcept, hzero, Op.ends_set, Op.ends_pure]
    refine ⟨refilled_replaceFrame h hlength, fun _ => ⟨_, rfl⟩, ?_⟩
    rintro e' ⟨⟩
    refine ⟨?_, ?_⟩
    · rw [mapped, hnone, Option.any_none]
      obtain ⟨vpn, ppn, flags⟩ := e
      obtain rfl : flags = { valid := true } := hflags
      rfl
    · intro o ho
      have hbyte := PhysicalMemory.byte_replaceFrame h.whole hpage hlength ho
      rw [ImageIndex.initialByte, hnone]
      refine hbyte.trans ?_
      rw [Bytes.zeros, List.getD_eq_getElem?_getD, List.getElem?_replicate]
      split <;> rfl

/-- The pages are filled in turn, and a frame is filled for one page only. -/
theorem fillAll_ends (h : m.WellFormed) (index : ImageIndex)
    (hlt : ∀ e ∈ entries, e.ppn.toNat < m.frames.total)
    (hflags : ∀ e ∈ entries, e.flags = { valid := true })
    (hdistinct : (entries.map (·.ppn)).Nodup) :
    (entries.mapM (fillPage index)).Ends m fun r m' => Refilled (entries.map (·.ppn)) m m' ∧
      ((∀ e ∈ entries, (index.locate e.vpn).isSome = true →
        ∃ found, index.load e.vpn m.memory.pageSize = .ok found) → ∃ all, r = .ok all) ∧
      ∀ all, r = .ok all → all = entries.map (mapped index) ∧ ∀ e ∈ entries, Holds index m' e := by
  induction entries generalizing m with
  | nil =>
    refine ⟨.refl _ h, fun _ => ⟨[], rfl⟩, ?_⟩
    rintro all ⟨⟩
    exact ⟨rfl, fun e he => nomatch he⟩
  | cons e rest ih =>
    rw [List.map_cons, List.nodup_cons] at hdistinct
    simp only [List.mapM_cons, Op.ends_bind]
    refine (fillPage_ends h index (hlt e List.mem_cons_self) (hflags e List.mem_cons_self)).imp ?_
    rintro (cause | e') m₁ ⟨hm₁, hok, hfilled⟩
    · refine ⟨hm₁.cons (.refl _ hm₁.wellFormed), ?_, ?_⟩
      · intro hread
        obtain ⟨e', he'⟩ := hok (hread e List.mem_cons_self)
        cases he'
      · rintro all ⟨⟩
    obtain ⟨rfl, hholds⟩ := hfilled _ rfl
    refine (ih hm₁.wellFormed (fun e he => hm₁.frames ▸ hlt e (List.mem_cons_of_mem _ he))
      (fun e he => hflags e (List.mem_cons_of_mem _ he)) hdistinct.2).imp ?_
    rintro (cause | others) m₂ ⟨hm₂, hoks, hall⟩
    · refine ⟨hm₁.cons hm₂, ?_, ?_⟩
      · intro hread
        obtain ⟨all, hall⟩ := hoks fun e he =>
          hm₁.pageSize ▸ hread e (List.mem_cons_of_mem _ he)
        cases hall
      · rintro all ⟨⟩
    obtain ⟨rfl, hothers⟩ := hall _ rfl
    refine ⟨hm₁.cons hm₂, fun _ => ⟨_, rfl⟩, ?_⟩
    rintro all ⟨⟩
    refine ⟨rfl, ?_⟩
    intro e₁ he₁
    rcases List.mem_cons.mp he₁ with rfl | he₁
    · exact hm₂.holds hdistinct.1 hholds
    · exact hothers e₁ he₁

end StaticMachine

end VirtualMemory
