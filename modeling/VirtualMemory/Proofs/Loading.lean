import VirtualMemory.Proofs.Process

/-!
# Loading a program

A program is loaded in three steps: its space is planned, which does not depend on the machine; the
machine prepares the space; and the arguments are written into it as any other write. On a machine
that serves the process the last step ends as on flat memory.
-/

namespace VirtualMemory

variable {σ ε α β : Type}

/-! ## Planning -/

/-- The operation ends alike from every state, and changes none. -/
def Op.Stateless (x : Op σ ε α) : Prop :=
  ∃ r, ∀ s, x.Ends s fun r' s' => r' = r ∧ s' = s

namespace Op.Stateless

theorem pure (a : α) : (pure a : Op σ ε α).Stateless := ⟨.ok a, fun _ => ⟨rfl, rfl⟩⟩

theorem throw (e : ε) : (throw e : Op σ ε α).Stateless := ⟨.error e, fun _ => ⟨rfl, rfl⟩⟩

theorem notify (n : Notice) : (notify n : Op σ ε Unit).Stateless := ⟨.ok (), fun _ => ⟨rfl, rfl⟩⟩

theorem bind {x : Op σ ε α} {f : α → Op σ ε β} (hx : x.Stateless) (hf : ∀ a, (f a).Stateless) :
    (x >>= f).Stateless := by
  obtain ⟨r | a, hr⟩ := hx
  · refine ⟨.error r, ?_⟩
    intro s
    rw [ends_bind]
    refine (hr s).imp ?_
    rintro r s' ⟨rfl, rfl⟩
    exact ⟨rfl, rfl⟩
  · obtain ⟨r, hr'⟩ := hf a
    refine ⟨r, ?_⟩
    intro s
    rw [ends_bind]
    refine (hr s).imp ?_
    rintro r' s' ⟨rfl, rfl⟩
    exact hr' s'

end Op.Stateless

theorem ImageIndex.stateless_collect (sectionIndex : Nat) (next : Vpn)
    (sections : List Section) :
    (collect sectionIndex next sections : Op σ MemoryError (List ImagePage)).Stateless := by
  induction sections generalizing sectionIndex next with
  | nil => exact .pure _
  | cons s rest ih =>
    rw [collect]
    split
    · exact .bind (.notify _) fun _ => .bind (.throw _) fun _ => .bind (ih _ _) fun _ => .pure _
    · exact .bind (ih _ _) fun _ => .pure _

namespace Loader

theorem stateless_plan (image : Image) (args : List Bytes) (stackPages pageSize : Nat) :
    (plan image args stackPages pageSize : Op σ MemoryError Layout).Stateless := by
  refine .bind (.bind (ImageIndex.stateless_collect 0 0 _) fun _ => .pure _) ?_
  intro index
  split
  next =>
    split
    · exact .bind (.notify _) fun _ => .bind (.throw _) fun _ => .pure _
    · exact .pure _
  next =>
    split
    · exact .bind (.notify _) fun _ => .bind (.throw _) fun _ => .bind (.notify _) fun _ => .throw _
    · exact .bind (.notify _) fun _ => .throw _

end Loader

/-! ## The pages of the plan -/

def Image.Readable (image : Image) (pageSize : Nat) : Prop :=
  ∀ i s, image.sections[i]? = some s → ∀ page < s.numPages,
    ∃ data, image.readPage i page pageSize = .ok data

def Image.pagesOf (sections : List Section) : Nat :=
  sections.foldr (fun sec count => sec.numPages + count) 0

def Image.pageCount (image : Image) : Nat := pagesOf image.sections

/-- The pages as a word counts them. -/
def Image.countedPages (image : Image) : Nat := image.pageCount.toUInt32.toNat

theorem Image.countedPages_le (image : Image) : image.countedPages ≤ image.pageCount := by
  rw [countedPages, Nat.toUInt32_eq, UInt32.toNat_ofNat']
  exact Nat.mod_le _ _

theorem Image.countedPages_eq {image : Image} (h : image.pageCount < 0x100000000) :
    image.countedPages = image.pageCount := toNat_word h

theorem ImageIndex.collect_ends (sectionIndex : Nat) (next : Vpn) (sections : List Section)
    (s : σ) :
    (collect sectionIndex next sections).Ends s fun r _ => ∀ pages, r = .ok pages →
      pages.length = Image.pagesOf sections ∧
      ∀ page ∈ pages, ∃ i sec, sections[i]? = some sec ∧ page.sectionIndex = sectionIndex + i ∧
        page.page < sec.numPages := by
  induction sections generalizing sectionIndex next with
  | nil =>
    rintro pages ⟨⟩
    exact ⟨rfl, nofun⟩
  | cons sec rest ih =>
    simp only [collect, Op.ends_bind, Op.ends_ite, Op.ends_notify, Op.ends_throw]
    split
    · nofun
    · refine (ih (sectionIndex + 1) (next + sec.numPages.toUInt32)).imp ?_
      rintro (e | pages) s' hpages
      · nofun
      obtain ⟨hlength, hmem⟩ := hpages pages rfl
      rintro all ⟨⟩
      constructor
      · simp [Section.pageList, Image.pagesOf, hlength]
      · intro page hpage
        rcases List.mem_append.mp hpage with hhere | hlater
        · obtain ⟨n, hn, rfl⟩ := List.mem_map.mp hhere
          exact ⟨0, sec, rfl, rfl, List.mem_range.mp hn⟩
        · obtain ⟨i, sec', hi, hindex, hlt⟩ := hmem page hlater
          exact ⟨i + 1, sec', hi, by omega, hlt⟩

/-- A plan has a page for each counted page of the image, for the stack and for the arguments, and
the address space has room for them. -/
theorem Loader.plan_ends (image : Image) (args : List Bytes) (stackPages pageSize : Nat) (s : σ) :
    (plan image args stackPages pageSize).Ends s fun r _ => ∀ layout, r = .ok layout →
      layout.numPages = image.countedPages + stackPages + 1 ∧
      layout.numPages * pageSize ≤ 0x100000000 ∧
      (image.Readable pageSize → ∀ vpn, (layout.index.locate vpn).isSome = true →
        ∃ found, layout.index.load vpn pageSize = .ok found) := by
  simp only [plan, ImageIndex.ofImage, Op.ends_bind]
  refine (ImageIndex.collect_ends 0 0 image.sections s).imp ?_
  rintro (e | pages) s' hpages
  · rintro layout ⟨⟩
  obtain ⟨hlength, hmem⟩ := hpages pages rfl
  simp only [Op.ends_pure, Op.ends_ite, Op.ends_bind, Op.ends_notify, Op.ends_throw]
  split
  · rintro layout ⟨⟩
  · split
    next numPages hfits =>
      rintro layout ⟨⟩
      simp only [layoutPages, Option.ite_none_right_eq_some, Option.some.injEq, Bool.and_eq_true,
        fitsAddressSpace, decide_eq_true_eq] at hfits
      obtain ⟨⟨-, hroom⟩, rfl⟩ := hfits
      refine ⟨?_, hroom, ?_⟩
      · rw [Image.countedPages, Image.pageCount, ← hlength]
        rfl
      · intro hread vpn hlocate
        obtain ⟨page, hpage⟩ := Option.isSome_iff_exists.mp hlocate
        obtain ⟨i, sec, hi, hindex, hlt⟩ := hmem page (List.mem_of_getElem? hpage)
        obtain ⟨data, hdata⟩ := hread i sec hi page.page hlt
        rw [Nat.zero_add] at hindex
        refine ⟨(data, page.readOnly), ?_⟩
        rw [ImageIndex.load, hpage]
        simp only [hindex, hdata]
        rfl
    next => rintro layout ⟨⟩

/-! ## Entering the space -/

/-- Where the pages of the image can be read, a space of so many pages is prepared, and is a new
flat memory. -/
def Prepares [Mmu σ] (R : Nat → FlatSpace → σ → Prop) (G : σ → Prop) (number : Nat) (pages : Nat)
    (m : σ) : Prop :=
  ∀ layout : Layout, layout.numPages = pages →
    (∀ vpn, (layout.index.locate vpn).isSome = true →
      ∃ found, layout.index.load vpn (Mmu.pageSize m) = .ok found) →
    (Mmu.load number layout : Op σ MemoryError Unit).Ends m fun r m' =>
      r = .ok () ∧ (G m' → G m) ∧ R layout.numPages (.ofLayout (Mmu.pageSize m) layout) m'

variable [Mmu σ] {R : FlatSpace → σ → Prop} {G : σ → Prop} {Ready : VirtAddr → σ → Prop}
  {number : Nat} {pageSize numPages : Nat}

/-- A process that is ended was unspoiled if its machine is afterwards. -/
theorem Hosted.exit_ends (hs : Serves number pageSize numPages R G Ready) {t : Hosted FlatSpace}
    {s : Hosted σ} (h : Hosted.Alike number pageSize numPages R t s) (status : Int) :
    (Hosted.exit status : Op (Hosted σ) Empty Unit).Ends s fun _ s' =>
      G s'.machine → G s.machine := by
  obtain rfl := h.number
  simp only [exit, Op.ends_bind, Op.ends_get, Op.ends_ite]
  split
  · rw [Op.ends_on]
    refine (hs.teardown _ _ h.machine).imp ?_
    rintro (e | u) m hg
    · exact e.elim
    · exact hg
  · exact id

namespace Loader

/-- What the arguments of a process do to flat memory. -/
def enterFlat (process : Process) (args : List Bytes) (f : FlatSpace) :
    Outcome (Hosted FlatSpace) MemoryError Unit :=
  Hosted.writeArguments process.initialSp.value
    (process.initialSp.value + (args.length * argumentPointerSize).toUInt32) args ⟨process, f⟩

/-- A process enters once its arguments were written, and is ended if they cannot be. -/
theorem enter_of_written {process : Process} {args : List Bytes} {m : σ}
    {Q : Except MemoryError Process → σ → Prop}
    (hwritten : (Hosted.writeArguments process.initialSp.value
        (process.initialSp.value + (args.length * argumentPointerSize).toUInt32) args).Ends
      ⟨process, m⟩ fun r s =>
        match r with
        | .ok _ => Q (.ok process) s.machine
        | .error e => (Hosted.exit (-1) : Op (Hosted σ) Empty Unit).Ends s fun _ s' =>
            Q (.error e) s'.machine) :
    (enter process args).Ends m Q := by
  simp only [enter, Op.ends_bind, Op.ends_get, Op.ends_apart, Op.ends_attempt]
  refine hwritten.imp ?_
  rintro (e | u) s hs
  · simp only [Op.ends_bind, Op.ends_apart, Op.ends_total, Op.ends_set, Op.ends_throw]
    refine hs.imp ?_
    rintro (e' | u) s' hq
    · exact e'.elim
    · exact hq
  · simp only [Op.ends_bind, Op.ends_set, Op.ends_notify, Op.ends_pure]
    exact hs

theorem enter_ends {process q : Process} {f : FlatSpace} {m : σ}
    (hs : Serves number pageSize numPages R G Ready)
    (halike : Hosted.Alike number pageSize numPages R ⟨q, f⟩ ⟨process, m⟩)
    (hsp : q.initialSp = process.initialSp) (args : List Bytes) :
    (enter process args).Ends m fun r m' =>
      (∀ entered, r = .ok entered → entered = process ∧ ∃ f, R f m') ∧
      (G m' → G m ∧
        match (enterFlat q args f).result with
        | .ok _ => r = .ok process ∧ R (enterFlat q args f).state.machine m'
        | .error e => r = .error e) := by
  refine enter_of_written (Op.Ends.imp (Hosted.simulates_writeArguments hs process.initialSp.value
    (process.initialSp.value + (args.length * argumentPointerSize).toUInt32) args _ _ halike) ?_)
  rintro (e | u) s ⟨⟨t, ht⟩, hgood⟩
  · refine (Hosted.exit_ends hs ht (-1)).imp ?_
    intro _ s' hexit
    refine ⟨nofun, ?_⟩
    intro hg
    obtain ⟨hm, hr, -⟩ := hgood (hexit hg)
    have hflat : (enterFlat q args f).result = .error e := by
      rw [enterFlat, hsp]
      exact hr.symm
    rw [hflat]
    exact ⟨hm, rfl⟩
  · refine ⟨fun entered hentered => ⟨(Except.ok.inj hentered).symm, _, ht.machine⟩, ?_⟩
    intro hg
    obtain ⟨hm, hr, hR'⟩ := hgood hg
    have hflat : (enterFlat q args f).result = .ok u := by
      rw [enterFlat, hsp]
      exact hr.symm
    rw [hflat]
    refine ⟨hm, rfl, ?_⟩
    rw [enterFlat, hsp]
    exact hR'.machine

/-! ## The whole of it -/

/-- A process that was loaded has the space that was planned for it. -/
theorem load_newProcess (number : Nat) (name : String) (image : Image) (args : List String)
    (stackPages : Nat) (m : σ) :
    (load number name image args stackPages).Ends m fun r _ => ∀ process, r = .ok process →
      ∃ layout,
        (plan image (args.map textBytes) stackPages (Mmu.pageSize m) m).result = .ok layout ∧
        process = newProcess number name layout (args.map textBytes).length (Mmu.pageSize m) := by
  simp only [load, Op.ends_bind, Op.ends_get]
  refine (Op.ends_self (plan image _ stackPages _) m).imp ?_
  rintro (e | layout) m₁ ⟨hplan, -⟩
  · rintro _ ⟨⟩
  refine (Op.ends_self (Mmu.load number layout) m₁).imp ?_
  rintro (e | u) m₂ -
  · rintro _ ⟨⟩
  refine enter_of_written ((Op.ends_self (Hosted.writeArguments _ _ _) _).imp ?_)
  rintro (e | u) s -
  · refine (Op.ends_self (Hosted.exit (-1)) s).imp ?_
    rintro _ s' - _ ⟨⟩
  · rintro _ ⟨⟩
    exact ⟨layout, hplan.symm, rfl⟩

/-- The layout and the flat memory of a new process, after its arguments were written. -/
def flat (pageSize : Nat) (args : List Bytes) (planned : Except MemoryError Layout) :
    Except MemoryError (Layout × FlatSpace) := do
  let layout ← planned
  let entered := enterFlat (newProcess 0 "" layout args.length pageSize) args
    (.ofLayout pageSize layout)
  let _ ← entered.result
  return (layout, entered.state.machine)

/-- Where a machine fails, flat memory fails with the same error. -/
theorem eq_error_of_failed {flat : Except MemoryError (Layout × FlatSpace)} {e : MemoryError}
    {made : Layout → Process} {P : Layout → FlatSpace → Prop}
    (h : match flat with
      | .error e' => (Except.error e : Except MemoryError Process) = .error e'
      | .ok (layout, f) => Except.error e = Except.ok (made layout) ∧ P layout f) :
    flat = .error e := by
  cases flat with
  | error e' => exact congrArg Except.error (Except.error.inj h).symm
  | ok found => cases h.1

/-- Without arguments a process is there once its space is. -/
theorem load_bare {m : σ} {P : σ → Prop} (name : String) {image : Image} {stackPages : Nat}
    {layout : Layout} (hsize : Mmu.pageSize m = pageSize)
    (hplan : (plan image [] stackPages pageSize).Ends m fun r m' => r = .ok layout ∧ m' = m)
    (hload : (Mmu.load number layout : Op σ MemoryError Unit).Ends m fun r m' =>
      r = .ok () ∧ P m') :
    (load number name image [] stackPages).Ends m fun r m' =>
      r = .ok (newProcess number name layout 0 pageSize) ∧ P m' := by
  simp only [load, Op.ends_bind, Op.ends_get, hsize, List.map_nil]
  refine hplan.imp ?_
  rintro r m₁ ⟨rfl, rfl⟩
  refine hload.imp ?_
  rintro r m₂ ⟨rfl, hP⟩
  exact enter_of_written ⟨rfl, hP⟩

/-- A machine that serves processes and prepares the space of this one loads it as flat memory
does. -/
theorem load_ends {R : Nat → FlatSpace → σ → Prop} {m : σ} (name : String) {image : Image}
    (args : List String) {stackPages : Nat} {planned : Except MemoryError Layout}
    (hs : ∀ numPages, Serves number pageSize numPages (R numPages) G Ready)
    (hprepares : Prepares R G number (image.countedPages + stackPages + 1) m)
    (hsize : Mmu.pageSize m = pageSize) (hread : image.Readable pageSize)
    (hplan : (plan image (args.map textBytes) stackPages pageSize).Ends m
      fun r m' => r = planned ∧ m' = m) :
    (load number name image args stackPages).Ends m fun r m' =>
      (∀ process, r = .ok process → ∃ layout,
        process = newProcess number name layout (args.map textBytes).length pageSize ∧
          ∃ f, R layout.numPages f m') ∧
      (G m' → G m ∧
        match flat pageSize (args.map textBytes) planned with
        | .error e => r = .error e
        | .ok (layout, f) =>
          r = .ok (newProcess number name layout (args.map textBytes).length pageSize) ∧
            R layout.numPages f m') := by
  subst hsize
  have hpages := plan_ends image (args.map textBytes) stackPages (Mmu.pageSize m) m
  simp only [load, Op.ends_bind, Op.ends_get]
  refine (hplan.and hpages).imp ?_
  rintro r m₁ ⟨⟨rfl, rfl⟩, hlayout⟩
  cases r with
  | error e => exact ⟨nofun, fun hg => ⟨hg, rfl⟩⟩
  | ok layout =>
    obtain ⟨hnum, -, hindex⟩ := hlayout layout rfl
    refine (hprepares layout hnum (hindex hread)).imp ?_
    rintro r m₂ ⟨rfl, hg₁, hR⟩
    have halike : Hosted.Alike number (Mmu.pageSize m₁) layout.numPages (R layout.numPages)
        ⟨newProcess 0 "" layout (args.map textBytes).length (Mmu.pageSize m₁),
          .ofLayout (Mmu.pageSize m₁) layout⟩
        ⟨newProcess number name layout (args.map textBytes).length (Mmu.pageSize m₁), m₂⟩ :=
      ⟨hR, rfl, ⟨rfl, rfl⟩, ⟨rfl, rfl⟩, rfl⟩
    refine (enter_ends (hs layout.numPages) halike rfl (args.map textBytes)).imp ?_
    rintro r m' ⟨hmade, hr⟩
    refine ⟨fun process hprocess => ⟨layout, hmade process hprocess⟩, ?_⟩
    intro hg
    obtain ⟨hg₂, hr⟩ := hr hg
    refine ⟨hg₁ hg₂, ?_⟩
    simp only [flat, bind, Except.bind]
    cases hwritten : (enterFlat
      (newProcess 0 "" layout (args.map textBytes).length (Mmu.pageSize m₁)) (args.map textBytes)
      (.ofLayout (Mmu.pageSize m₁) layout)).result with
    | error e =>
      rw [hwritten] at hr
      exact hr
    | ok _ =>
      rw [hwritten] at hr
      exact hr

end Loader

end VirtualMemory
