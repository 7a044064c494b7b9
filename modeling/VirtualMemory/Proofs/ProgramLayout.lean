import VirtualMemory.Proofs.ArgumentPage
import VirtualMemory.Proofs.Loading

/-!
# The layout of a program

A program is accepted if its sections follow each other from page zero, its arguments fit a page and
all its pages fit the address space. The memory of an accepted program is the pages of its image,
zeros for its stack, and its arguments. Page numbers are words, but the count of the pages is not:
sections that are contiguous only because their page numbers wrapped do not fit the address space.
-/

namespace VirtualMemory

variable {σ : Type} {image : Image} {sections : List Section} {sec : Section}
  {next sectionIndex stackPages pageSize : Nat} {args : List Bytes}

/-! ## Contiguous sections -/

/-- The sections follow each other from page `next` on. -/
def Image.ContiguousFrom (next : Nat) : List Section → Prop
  | [] => True
  | s :: rest => s.firstVpn.toNat = next ∧ ContiguousFrom (next + s.numPages) rest

/-- The sections follow each other from page zero on. -/
def Image.Contiguous (image : Image) : Prop := ContiguousFrom 0 image.sections

instance Image.decidableContiguousFrom (next : Nat) : (sections : List Section) →
    Decidable (ContiguousFrom next sections)
  | [] => isTrue trivial
  | s :: rest =>
    haveI := decidableContiguousFrom (next + s.numPages) rest
    inferInstanceAs (Decidable (_ ∧ _))

instance (image : Image) : Decidable image.Contiguous :=
  inferInstanceAs (Decidable (Image.ContiguousFrom 0 image.sections))

/-- Each section starts at the word that counts the pages before it, which are `next` before the
first. Past `2 ^ 32` pages the word wraps. -/
def Image.AlignedFrom (next : Nat) : List Section → Prop
  | [] => True
  | s :: rest => s.firstVpn = next.toUInt32 ∧ AlignedFrom (next + s.numPages) rest

theorem Image.ContiguousFrom.aligned (h : ContiguousFrom next sections) :
    AlignedFrom next sections := by
  induction sections generalizing next with
  | nil => trivial
  | cons s rest ih =>
    obtain ⟨rfl, hrest⟩ := h
    exact ⟨by simp, ih hrest⟩

theorem Image.AlignedFrom.contiguous (h : AlignedFrom next sections)
    (hfits : next + pagesOf sections < 0x100000000) : ContiguousFrom next sections := by
  induction sections generalizing next with
  | nil => trivial
  | cons s rest ih =>
    obtain ⟨hfirst, hrest⟩ := h
    have hpages : pagesOf (s :: rest) = s.numPages + pagesOf rest := rfl
    rw [hpages] at hfits
    exact ⟨by rw [hfirst, toNat_word (by omega)], ih hrest (by omega)⟩

/-- The pages of sections from number `sectionIndex` on. -/
def ImageIndex.listed (sectionIndex : Nat) : List Section → List ImagePage
  | [] => []
  | s :: rest => s.pageList sectionIndex ++ listed (sectionIndex + 1) rest

theorem length_pageList (sec : Section) (sectionIndex : Nat) :
    (sec.pageList sectionIndex).length = sec.numPages := by
  simp [Section.pageList]

theorem ImageIndex.length_listed (sectionIndex : Nat) (sections : List Section) :
    (listed sectionIndex sections).length = Image.pagesOf sections := by
  induction sections generalizing sectionIndex with
  | nil => rfl
  | cons s rest ih =>
    rw [listed, List.length_append, length_pageList, ih]
    rfl

theorem Image.ContiguousFrom.le (h : ContiguousFrom next sections) {i : Nat}
    (hi : sections[i]? = some sec) : next ≤ sec.firstVpn.toNat := by
  induction sections generalizing next i with
  | nil => cases hi
  | cons s rest ih =>
    obtain ⟨hfirst, hrest⟩ := h
    cases i with
    | zero =>
      obtain rfl := Option.some.inj hi
      omega
    | succ i => exact Nat.le_trans (Nat.le_add_right next s.numPages) (ih hrest hi)

/-- Each page is where its section says. -/
theorem Image.ContiguousFrom.getElem? (h : ContiguousFrom next sections) (sectionIndex : Nat)
    {i page k : Nat}
    (hi : sections[i]? = some sec) (hpage : page < sec.numPages)
    (hk : next + k = sec.firstVpn.toNat + page) :
    (ImageIndex.listed sectionIndex sections)[k]? =
      some ⟨sectionIndex + i, page, sec.readOnly⟩ := by
  induction sections generalizing next sectionIndex i k with
  | nil => cases hi
  | cons s rest ih =>
    obtain ⟨hfirst, hrest⟩ := h
    rw [ImageIndex.listed]
    cases i with
    | zero =>
      obtain rfl := Option.some.inj hi
      obtain rfl : k = page := by omega
      rw [List.getElem?_append_left (by rwa [length_pageList])]
      simp [Section.pageList, hpage]
    | succ i =>
      have hle := hrest.le hi
      rw [List.getElem?_append_right (by rw [length_pageList]; omega), length_pageList,
        ih hrest (sectionIndex + 1) hi (by omega)]
      simp only [Nat.add_assoc, Nat.add_comm 1 i]

theorem Image.Contiguous.lt (h : image.Contiguous) {i page : Nat}
    (hi : image.sections[i]? = some sec) (hpage : page < sec.numPages) :
    sec.firstVpn.toNat + page < image.pageCount := by
  have hlisted := h.getElem? 0 hi hpage (Nat.zero_add _)
  obtain ⟨hlt, -⟩ := List.getElem?_eq_some_iff.mp hlisted
  rwa [ImageIndex.length_listed] at hlt

/-! ## Planning -/

namespace ImageIndex

/-- Sections are indexed exactly if each starts at the word of the pages before it. -/
theorem collect_aligned (sectionIndex next : Nat) (sections : List Section) (s : σ) :
    (collect sectionIndex next.toUInt32 sections).Ends s fun r s' => s' = s ∧
      (¬ Image.AlignedFrom next sections ∧ r = .error .invalidImage ∨
        Image.AlignedFrom next sections ∧ r = .ok (listed sectionIndex sections)) := by
  induction sections generalizing sectionIndex next with
  | nil => exact ⟨rfl, .inr ⟨trivial, rfl⟩⟩
  | cons sec rest ih =>
    rw [collect]
    split
    next hvpn => exact ⟨rfl, .inl ⟨fun h => hvpn h.1, rfl⟩⟩
    next hvpn =>
      have hnext : next.toUInt32 + sec.numPages.toUInt32 = (next + sec.numPages).toUInt32 :=
        (UInt32.ofNat_add next sec.numPages).symm
      simp only [hnext, Op.ends_bind, Op.ends_pure]
      refine (ih (sectionIndex + 1) (next + sec.numPages)).imp ?_
      rintro _ _ ⟨rfl, ⟨hrest, rfl⟩ | ⟨hrest, rfl⟩⟩
      · exact ⟨rfl, .inl ⟨fun h => hrest h.2, rfl⟩⟩
      · exact ⟨rfl, .inr ⟨⟨not_not.mp hvpn, hrest⟩, rfl⟩⟩

end ImageIndex

/-- The layout of a program whose sections are contiguous. -/
def Image.layout (image : Image) (stackPages : Nat) : Layout :=
  ⟨image.pageCount + stackPages + 1, ⟨image, ImageIndex.listed 0 image.sections⟩⟩

theorem Image.length_layout (image : Image) (stackPages : Nat) :
    (image.layout stackPages).index.pages.length = image.pageCount :=
  ImageIndex.length_listed 0 image.sections

theorem Image.numPages_layout (image : Image) (stackPages : Nat) :
    (image.layout stackPages).index.numPages = image.countedPages := by
  rw [ImageIndex.numPages, length_layout]
  rfl

namespace Loader

/-- The sections of the program are contiguous, its arguments fit a page, and its pages fit the
address space. -/
structure Accepts (image : Image) (args : List Bytes) (stackPages pageSize : Nat) : Prop where
  contiguous : image.Contiguous
  arguments : argumentsSize args ≤ pageSize
  fits : (image.pageCount + stackPages + 1) * pageSize ≤ 0x100000000

/-- The limit on the count of the pages is never the first to be reached. -/
theorem layoutPages_eq (hpos : 0 < pageSize) (imagePages stackPages : Nat) :
    layoutPages imagePages stackPages pageSize =
      if (imagePages + stackPages + 1) * pageSize ≤ 0x100000000 then
        some (imagePages + stackPages + 1)
      else none := by
  have hle : imagePages + stackPages + 1 ≤ (imagePages + stackPages + 1) * pageSize :=
    Nat.le_mul_of_pos_right _ hpos
  have hlimit : pageCountLimit = 0x10000000000000000 := by decide
  have hspace : addressSpaceSize = 0x100000000 := by decide
  simp only [layoutPages, fitsAddressSpace, hlimit, hspace, Bool.and_eq_true, decide_eq_true_eq]
  by_cases hfits : (imagePages + stackPages + 1) * pageSize ≤ 0x100000000
  · rw [if_pos ⟨by omega, hfits⟩, if_pos hfits]
  · rw [if_neg fun h => hfits h.2, if_neg hfits]

theorem Accepts.counted (hpos : 0 < pageSize) (h : Accepts image args stackPages pageSize) :
    image.pageCount < 0x100000000 := by
  have hle := Nat.le_mul_of_pos_right (image.pageCount + stackPages + 1) hpos
  have hfits := h.fits
  omega

theorem plan_accepts (hpos : 0 < pageSize) (h : Accepts image args stackPages pageSize) (s : σ) :
    (plan image args stackPages pageSize).Ends s fun r s' =>
      r = .ok (image.layout stackPages) ∧ s' = s := by
  simp only [plan, ImageIndex.ofImage, Op.ends_bind]
  refine (ImageIndex.collect_aligned 0 0 image.sections s).imp ?_
  rintro _ _ ⟨rfl, ⟨hgap, -⟩ | ⟨-, rfl⟩⟩
  · exact absurd h.contiguous.aligned hgap
  have hcount := image.numPages_layout stackPages
  rw [Image.countedPages_eq (h.counted hpos), Image.layout] at hcount
  rw [Image.layout]
  simp only [Op.ends_pure]
  rw [if_neg (Nat.not_lt.mpr h.arguments)]
  simp only [hcount, layoutPages_eq hpos, if_pos h.fits]
  exact ⟨rfl, rfl⟩

/-- A program that is not accepted is refused. Where a word does not count its pages, only the sum
of its arguments is sure to be found too large. -/
theorem plan_refuses (hpos : 0 < pageSize)
    (h : pageSize < argumentsSize args ∨
      image.pageCount < 0x100000000 ∧ ¬ Accepts image args stackPages pageSize) (s : σ) :
    (plan image args stackPages pageSize).Ends s fun r s' =>
      r = .error .invalidImage ∧ s' = s := by
  simp only [plan, ImageIndex.ofImage, Op.ends_bind]
  refine (ImageIndex.collect_aligned 0 0 image.sections s).imp ?_
  rintro _ _ ⟨rfl, ⟨-, rfl⟩ | ⟨haligned, rfl⟩⟩
  · exact ⟨rfl, rfl⟩
  have hcount := image.numPages_layout stackPages
  rw [Image.layout] at hcount
  simp only [Op.ends_pure]
  split
  next => exact ⟨rfl, rfl⟩
  next hargs =>
    obtain ⟨hcounted, hbad⟩ := h.resolve_left hargs
    rw [Image.countedPages_eq hcounted] at hcount
    by_cases hfits : (image.pageCount + stackPages + 1) * pageSize ≤ 0x100000000
    · have hcontig := haligned.contiguous (by rwa [Nat.zero_add])
      exact absurd ⟨hcontig, Nat.not_lt.mp hargs, hfits⟩ hbad
    · simp only [hcount, layoutPages_eq hpos, if_neg hfits]
      exact ⟨rfl, rfl⟩

end Loader

/-! ## The memory of a new program -/

/-- The memory of a program before it runs. -/
structure Image.LaidOut (image : Image) (args : List Bytes) (stackPages pageSize : Nat)
    (f : FlatSpace) : Prop where
  size : f.pageSize = pageSize
  numPages : f.numPages = image.pageCount + stackPages + 1
  /-- Each page of each section is in its place. -/
  contents : ∀ i sec, image.sections[i]? = some sec → ∀ page < sec.numPages,
    image.readPage i page pageSize =
      .ok (f.bytes ((sec.firstVpn.toNat + page) * pageSize) pageSize)
  stack : f.bytes (image.pageCount * pageSize) (stackPages * pageSize) =
    Bytes.zeros (stackPages * pageSize)
  /-- The last page: the table, the texts and zeros. -/
  arguments : f.bytes ((image.pageCount + stackPages) * pageSize) pageSize =
    Bytes.fit pageSize (argumentBlock ((image.pageCount + stackPages) * pageSize) args)

theorem Image.LaidOut.size_eq {f : FlatSpace} (h : image.LaidOut args stackPages pageSize f) :
    f.size = (image.pageCount + stackPages) * pageSize + pageSize := by
  rw [FlatSpace.size, h.size, h.numPages]
  exact Nat.succ_mul _ _

namespace FlatSpace

variable {layout : Layout} {a start length : Nat}

/-- Past the pages of the image there is nothing of it. -/
theorem locate_past (hpos : 0 < pageSize) (ha : layout.index.pages.length * pageSize ≤ a)
    (hword : a < 0x100000000) : layout.index.locate (a / pageSize).toUInt32 = none := by
  rw [← Option.not_isSome_iff_eq_none, ImageIndex.isSome_locate,
    toNat_word (Nat.lt_of_le_of_lt (Nat.div_le_self a pageSize) hword), Nat.not_lt]
  exact (Nat.le_div_iff_mul_le hpos).mpr ha

theorem zeros_ofLayout (hpos : 0 < pageSize)
    (hstart : layout.index.pages.length * pageSize ≤ start)
    (hend : start + length ≤ 0x100000000) :
    (ofLayout pageSize layout).bytes start length = Bytes.zeros length := by
  have hzero : ∀ i < length, (ofLayout pageSize layout).byte (start + i) = 0 := by
    intro i hi
    simp only [ofLayout, ImageIndex.initialByte,
      locate_past hpos (Nat.le_trans hstart (Nat.le_add_right start i)) (by omega)]
  rw [bytes, List.map_congr_left fun i hi => hzero i (List.mem_range.mp hi), List.map_const',
    List.length_range, Bytes.zeros]

theorem writable_ofLayout (hpos : 0 < pageSize) (ha : layout.index.pages.length * pageSize ≤ a)
    (hword : a < 0x100000000) (hend : a < layout.numPages * pageSize) :
    (ofLayout pageSize layout).Writable a := by
  refine ⟨hend, ?_⟩
  simp only [ofLayout, locate_past hpos ha hword, Option.any_none]

theorem page_ofLayout {page : Nat} {found : ImagePage} {data : Bytes}
    (hfits : layout.index.pages.length ≤ 0x100000000)
    (hlocate : layout.index.pages[page]? = some found)
    (hread : layout.index.image.readPage found.sectionIndex found.page pageSize = .ok data) :
    (ofLayout pageSize layout).bytes (page * pageSize) pageSize = data := by
  have hlt := (List.getElem?_eq_some_iff.mp hlocate).choose
  have hvpn := toNat_word (Nat.lt_of_lt_of_le hlt hfits)
  have hload : layout.index.load page.toUInt32 pageSize = .ok (data, found.readOnly) := by
    rw [ImageIndex.load, ImageIndex.locate_eq hfits, hvpn, hlocate]
    simp only [hread]
    rfl
  obtain ⟨-, hlength, hbytes⟩ := ImageIndex.load_ok hload
  apply List.ext_getElem
  · rw [length_bytes, hlength]
  · intro i hi hdata
    rw [length_bytes] at hi
    have hbyte := byte_ofLayout layout hi page.toUInt32
    rw [hvpn, ← hbytes i hi] at hbyte
    simp [bytes, hbyte, hdata]

/-- A block at the start of zeros fills them up from there. -/
theorem bytes_block (f : FlatSpace) {block : Bytes}
    (hzeros : f.bytes start length = Bytes.zeros length) (hfit : block.length ≤ length) :
    (f.overwritten start block).bytes start length = Bytes.fit length block := by
  obtain ⟨more, rfl⟩ := Nat.exists_eq_add_of_le hfit
  have hsplit : Bytes.zeros (block.length + more) = Bytes.zeros block.length ++ Bytes.zeros more :=
    List.replicate_append_replicate.symm
  rw [hsplit] at hzeros
  obtain ⟨-, hmore⟩ := bytes_eq_append (Bytes.length_zeros _) hzeros
  rw [← bytes_append, bytes_overwritten, bytes_overwritten_apart _ (.inr (Nat.le_refl _)), hmore,
    Bytes.fit, Nat.add_sub_cancel_left, List.take_of_length_le (Nat.le_add_right _ _)]

end FlatSpace

/-- Arguments that fit into the space are written as one block. -/
theorem Loader.enterFlat_writes {p : Process} {f : FlatSpace} {a : Nat}
    (hg : Geometry f.numPages f.pageSize) (hspans : Hosted.Spans p f.pageSize f.numPages)
    (halive : p.terminated = false) (hsp : p.initialSp = ⟨a.toUInt32⟩)
    (hend : a + (argumentBlock a args).length < 0x100000000)
    (hwritable : ∀ b, a ≤ b → b < a + (argumentBlock a args).length → f.Writable b) :
    (enterFlat p args f).result = .ok () ∧
      (enterFlat p args f).state.machine = f.overwritten a (argumentBlock a args) := by
  have hlength := length_argumentBlock a args
  have htext : a.toUInt32 + (args.length * argumentPointerSize).toUInt32 =
      (a + 4 * args.length).toUInt32 := by
    rw [argumentPointerSize, Nat.mul_comm]
    simp
  have hblock : argumentBlock a args =
      pointerTable (a + 4 * args.length) args ++ terminated args := rfl
  have hjoin := f.overwritten_append a (pointerTable (a + 4 * args.length) args) (terminated args)
  rw [length_pointerTable, ← hblock] at hjoin
  obtain ⟨hr, hstate⟩ := Hosted.writeArguments_flat hg hspans halive
    (Nat.le_refl (a + 4 * args.length)) (by omega) fun b hb hb' => hwritable b hb (by omega)
  rw [hjoin] at hstate
  rw [enterFlat, hsp]
  dsimp only
  rw [htext, hr, hstate]
  exact ⟨rfl, rfl⟩

namespace Loader.Accepts

variable (h : Accepts image args stackPages pageSize) (hpower : pageSize.isPowerOfTwo)
  (hread : image.Readable pageSize)

include h

theorem block_le (argv : Nat) : (argumentBlock argv args).length ≤ pageSize := by
  rw [← argumentsSize_block]
  exact h.arguments

/-- The argument page ends where the address space does, or before. -/
theorem end_le : (image.pageCount + stackPages) * pageSize + pageSize ≤ 0x100000000 := by
  rw [← Nat.succ_mul]
  exact h.fits

include hpower hread

/-- The image and the block of the arguments are the memory of the program. -/
theorem laidOut : image.LaidOut args stackPages pageSize
    ((FlatSpace.ofLayout pageSize (image.layout stackPages)).overwritten
      ((image.pageCount + stackPages) * pageSize)
      (argumentBlock ((image.pageCount + stackPages) * pageSize) args)) := by
  have hpos : 0 < pageSize := Nat.pos_of_isPowerOfTwo hpower
  have hcount := image.length_layout stackPages
  have hend := h.end_le
  have hstack : (image.pageCount + stackPages) * pageSize =
      image.pageCount * pageSize + stackPages * pageSize := Nat.add_mul _ _ _
  refine ⟨rfl, rfl, ?_, ?_, ?_⟩
  · intro i sec hi page hpage
    have hlisted := h.contiguous.getElem? 0 hi hpage (Nat.zero_add _)
    rw [Nat.zero_add] at hlisted
    obtain ⟨data, hdata⟩ := hread i sec hi page hpage
    have hbefore := VirtualMemory.block_le (h.contiguous.lt hi hpage) pageSize
    have hfits : (image.layout stackPages).index.pages.length ≤ 0x100000000 :=
      hcount ▸ Nat.le_of_lt (h.counted hpos)
    rw [FlatSpace.bytes_overwritten_apart _ (.inl (by omega)),
      FlatSpace.page_ofLayout hfits hlisted hdata, hdata]
  · rw [FlatSpace.bytes_overwritten_apart _ (.inl (Nat.le_of_eq hstack.symm)),
      FlatSpace.zeros_ofLayout hpos (Nat.le_of_eq (by rw [hcount])) (by omega)]
  · have hzeros := FlatSpace.zeros_ofLayout hpos (by rw [hcount]; omega) hend
    exact FlatSpace.bytes_block _ hzeros (h.block_le _)

/-- The arguments of a program that is accepted are written after its stack, as long as no address
past them wraps. -/
theorem flat_ok (hfits : (image.pageCount + stackPages + 1) * pageSize < 0x100000000) :
    ∃ f, flat pageSize args (.ok (image.layout stackPages)) = .ok (image.layout stackPages, f) ∧
      image.LaidOut args stackPages pageSize f := by
  have hpos : 0 < pageSize := Nat.pos_of_isPowerOfTwo hpower
  have hend : (image.pageCount + stackPages + 1) * pageSize =
      (image.pageCount + stackPages) * pageSize + pageSize := Nat.succ_mul _ _
  have hblock := h.block_le ((image.pageCount + stackPages) * pageSize)
  have hpast : (image.layout stackPages).index.pages.length * pageSize ≤
      (image.pageCount + stackPages) * pageSize := by
    rw [image.length_layout]
    exact Nat.mul_le_mul_right pageSize (Nat.le_add_right _ _)
  have hwritable : ∀ b, (image.pageCount + stackPages) * pageSize ≤ b →
      b < (image.pageCount + stackPages) * pageSize +
        (argumentBlock ((image.pageCount + stackPages) * pageSize) args).length →
      (FlatSpace.ofLayout pageSize (image.layout stackPages)).Writable b := by
    intro b hb hb'
    have hlast : b < (image.layout stackPages).numPages * pageSize :=
      show b < (image.pageCount + stackPages + 1) * pageSize by omega
    exact FlatSpace.writable_ofLayout hpos (Nat.le_trans hpast hb) (by omega) hlast
  obtain ⟨hr, hstate⟩ := enterFlat_writes
    (p := newProcess 0 "" (image.layout stackPages) args.length pageSize)
    (f := .ofLayout pageSize (image.layout stackPages))
    (a := (image.pageCount + stackPages) * pageSize)
    ⟨hpower, Nat.succ_pos _, Nat.le_of_lt hfits⟩ ⟨rfl, rfl⟩ rfl rfl (by omega) hwritable
  refine ⟨_, ?_, hstate ▸ h.laidOut hpower hread⟩
  simp only [flat, bind, Except.bind, hr]
  rfl

end Loader.Accepts

/-- Where the process follows a pointer, it finds its argument. -/
theorem Image.LaidOut.argument {f : FlatSpace} (h : image.LaidOut args stackPages pageSize f)
    (haccepts : Loader.Accepts image args stackPages pageSize) {i : Nat} {arg : Bytes}
    (hi : args[i]? = some arg) :
    f.word ((image.pageCount + stackPages) * pageSize + 4 * i) + arg.length + 1 ≤ f.size ∧
      f.bytes (f.word ((image.pageCount + stackPages) * pageSize + 4 * i)) (arg.length + 1) =
        arg ++ [0] := by
  have hend := haccepts.end_le
  have harguments := h.arguments
  rw [h.size_eq]
  generalize (image.pageCount + stackPages) * pageSize = argv at *
  have hlength := length_argumentBlock argv args
  obtain ⟨more, rfl⟩ := Nat.exists_eq_add_of_le (haccepts.block_le argv)
  rw [Bytes.fit, List.take_of_length_le (Nat.le_add_right _ _), hlength] at harguments
  obtain ⟨hused, -⟩ := FlatSpace.bytes_eq_append hlength harguments
  obtain ⟨htable, htexts⟩ := FlatSpace.bytes_eq_append (length_pointerTable _ _) hused
  obtain ⟨hlast, hfound⟩ := FlatSpace.argument_found hi (by omega) htable htexts
  exact ⟨by omega, hfound⟩

end VirtualMemory
