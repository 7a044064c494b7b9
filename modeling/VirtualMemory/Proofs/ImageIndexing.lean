import VirtualMemory.Proofs.ImageContents
import VirtualMemory.Proofs.ProgramLayout
import Mathlib.Data.List.Nodup

/-!
# The index of an image is exact

The layout of an image is computed twice: when its sections are put together, and when they are
indexed. Sections are indexed exactly if each starts after the pages of those before it, and then
every page is located in one section, at one place (`Image.ContiguousFrom.listed_iff`). Parts that
are put together one after the other are such sections, with empty parts among them or not
(`aligned_layFrom`), and each byte of a part is found where its number says.
-/

namespace VirtualMemory

variable {σ : Type} {image : Image} {sections : List Section} {sec : Section} {next pageSize : Nat}

/-! ## Contiguous sections -/

namespace Image

/-- Each section starts after the pages of those before it. -/
def StartsExact (sections : List Section) : Prop :=
  ∀ i sec, sections[i]? = some sec → sec.firstVpn.toNat = pagesOf (sections.take i)

theorem contiguousFrom_iff :
    ContiguousFrom next sections ↔
      ∀ i sec, sections[i]? = some sec → sec.firstVpn.toNat = next + pagesOf (sections.take i) := by
  induction sections generalizing next with
  | nil => simp [ContiguousFrom]
  | cons s rest ih =>
    rw [ContiguousFrom, ih]
    constructor
    · rintro ⟨hfirst, hrest⟩ i sec hi
      cases i with
      | zero =>
        obtain rfl := Option.some.inj hi
        exact hfirst
      | succ i =>
        have hsec := hrest i sec hi
        have htake : pagesOf ((s :: rest).take (i + 1)) = s.numPages + pagesOf (rest.take i) := rfl
        omega
    · intro h
      refine ⟨h 0 s rfl, fun i sec hi => ?_⟩
      have hsec := h (i + 1) sec hi
      have htake : pagesOf ((s :: rest).take (i + 1)) = s.numPages + pagesOf (rest.take i) := rfl
      omega

theorem startsExact_iff : StartsExact sections ↔ ContiguousFrom 0 sections := by
  rw [contiguousFrom_iff]
  simp only [Nat.zero_add, StartsExact]

/-- Contiguous sections leave no page out. -/
theorem ContiguousFrom.exists_section (h : ContiguousFrom next sections) {k : Nat}
    (hk : k < pagesOf sections) :
    ∃ (i : Nat) (sec : Section) (page : Nat), sections[i]? = some sec ∧ page < sec.numPages ∧
      next + k = sec.firstVpn.toNat + page := by
  induction sections generalizing next k with
  | nil => exact absurd hk (Nat.not_lt_zero k)
  | cons s rest ih =>
    obtain ⟨hfirst, hrest⟩ := h
    have hpages : pagesOf (s :: rest) = s.numPages + pagesOf rest := rfl
    by_cases hhere : k < s.numPages
    · exact ⟨0, s, k, rfl, hhere, by omega⟩
    · obtain ⟨i, sec, page, hi, hpage, hat⟩ := ih hrest (k := k - s.numPages) (by omega)
      exact ⟨i + 1, sec, page, hi, hpage, by omega⟩

/-- What is listed for a page is the section and the page of it that are there, and nothing else. -/
theorem ContiguousFrom.listed_iff (h : ContiguousFrom 0 sections) {k : Nat} {found : ImagePage} :
    (ImageIndex.listed 0 sections)[k]? = some found ↔
      ∃ sec, sections[found.sectionIndex]? = some sec ∧ found.page < sec.numPages ∧
        k = sec.firstVpn.toNat + found.page ∧ found.readOnly = sec.readOnly := by
  constructor
  · intro hfound
    obtain ⟨hk, -⟩ := List.getElem?_eq_some_iff.mp hfound
    rw [ImageIndex.length_listed] at hk
    obtain ⟨i, sec, page, hi, hpage, hat⟩ := h.exists_section hk
    have hlisted := h.getElem? 0 hi hpage hat
    rw [hfound, Nat.zero_add] at hlisted
    obtain rfl := Option.some.inj hlisted
    exact ⟨sec, hi, hpage, (Nat.zero_add k).symm.trans hat, rfl⟩
  · rintro ⟨sec, hi, hpage, hk, hro⟩
    rw [h.getElem? 0 hi hpage (by omega), Nat.zero_add, ← hro]

end Image

/-! ## The index -/

namespace ImageIndex

/-- The index has the pages of all sections, and locates each page in its section. -/
structure Covers (index : ImageIndex) (image : Image) : Prop where
  image_eq : index.image = image
  numPages : index.numPages = image.pageCount
  nodup_vpns : index.vpns.Nodup
  mem_vpns : ∀ vpn, vpn ∈ index.vpns ↔ vpn.toNat < index.numPages
  located : ∀ vpn, (index.locate vpn).isSome = true ↔ vpn ∈ index.vpns
  /-- A page is located at the one place that has it. -/
  locate_iff : ∀ vpn found, index.locate vpn = some found ↔
    ∃ sec, image.sections[found.sectionIndex]? = some sec ∧ found.page < sec.numPages ∧
      vpn.toNat = sec.firstVpn.toNat + found.page ∧ found.readOnly = sec.readOnly

theorem covers_listed (h : image.Contiguous) (hfits : image.pageCount < 0x100000000) :
    Covers ⟨image, listed 0 image.sections⟩ image := by
  have hlength : (listed 0 image.sections).length < 0x100000000 :=
    (length_listed 0 image.sections).symm ▸ hfits
  constructor
  case image_eq => rfl
  case numPages => exact (numPages_eq hlength).trans (length_listed 0 image.sections)
  case nodup_vpns => exact nodup_words (Nat.min_le_right _ _)
  case mem_vpns =>
    intro vpn
    rw [ImageIndex.mem_vpns, isSome_locate, numPages_eq hlength]
  case located => exact fun vpn => (ImageIndex.mem_vpns _ vpn).symm
  case locate_iff =>
    intro vpn found
    rw [locate_eq (Nat.le_of_lt hlength)]
    exact h.listed_iff

/-- Below `2 ^ 32` pages the index is made exactly if each section starts after the pages of those
before it. -/
theorem ofImage_exact (hfits : image.pageCount < 0x100000000) (s : σ) :
    (ofImage image).Ends s fun r _ =>
      match r with
      | .ok index => Image.StartsExact image.sections ∧ index.Covers image
      | .error e => ¬ Image.StartsExact image.sections ∧ e = .invalidImage := by
  simp only [ofImage, Op.ends_bind]
  refine (collect_aligned 0 0 image.sections s).imp ?_
  rintro _ _ ⟨rfl, ⟨hgap, rfl⟩ | ⟨haligned, rfl⟩⟩
  · exact ⟨fun hexact => hgap (Image.startsExact_iff.mp hexact).aligned, rfl⟩
  · have hcontig := haligned.contiguous (by rw [Nat.zero_add]; exact hfits)
    exact ⟨Image.startsExact_iff.mpr hcontig, covers_listed hcontig hfits⟩

end ImageIndex

/-! ## Parts in a row -/

namespace Image

structure Part where
  name : String
  readOnly : Bool
  data : Bytes

/-- The piece that a part makes when it starts at page `next`. -/
def Part.piece (pageSize next : Nat) (part : Part) : Piece :=
  ⟨⟨part.name, next.toUInt32, pagesFor part.data.length pageSize, part.readOnly⟩, part.data⟩

/-- The pieces of parts that are added one after the other. -/
def assemble (pageSize : Nat) (parts : List Part) : List Piece :=
  parts.foldl (fun pieces part => append pageSize pieces part.name part.readOnly part.data) []

def assembled (pageSize : Nat) (parts : List Part) (entryPoint : VirtAddr) : Image :=
  ofPieces pageSize (assemble pageSize parts) entryPoint

/-- The pieces of parts from page `next` on. -/
def layFrom (pageSize next : Nat) : List Part → List Piece
  | [] => []
  | part :: rest =>
    part.piece pageSize next ::
      layFrom pageSize (next + pagesFor part.data.length pageSize) rest

variable {parts : List Part} {part : Part} {pieces : List Piece}

/-- The last piece tells the next one where to start, also if it is empty. -/
theorem nextVpn_concat (pieces : List Piece) (part : Part) :
    nextVpn (pieces ++ [part.piece pageSize next]) =
      (next + pagesFor part.data.length pageSize).toUInt32 := by
  simp [nextVpn, Part.piece, UInt32.ofNat_add]

theorem foldl_append (h : nextVpn pieces = next.toUInt32) :
    parts.foldl (fun pieces part => append pageSize pieces part.name part.readOnly part.data)
      pieces = pieces ++ layFrom pageSize next parts := by
  induction parts generalizing pieces next with
  | nil => simp [layFrom]
  | cons part rest ih =>
    have hpiece : append pageSize pieces part.name part.readOnly part.data =
        pieces ++ [part.piece pageSize next] := by
      rw [append, h]
      rfl
    rw [List.foldl_cons, hpiece, ih (nextVpn_concat pieces part), layFrom, List.append_assoc]
    rfl

theorem assemble_eq (pageSize : Nat) (parts : List Part) :
    assemble pageSize parts = layFrom pageSize 0 parts := by
  have hstart : nextVpn [] = (0 : Nat).toUInt32 := rfl
  rw [assemble, foldl_append hstart, List.nil_append]

theorem aligned_layFrom (pageSize next : Nat) (parts : List Part) :
    AlignedFrom next ((layFrom pageSize next parts).map (·.header)) := by
  induction parts generalizing next with
  | nil => trivial
  | cons part rest ih => exact ⟨rfl, ih _⟩

theorem getElem?_layFrom (pageSize next : Nat) {i : Nat} (hi : parts[i]? = some part) :
    ∃ start, (layFrom pageSize next parts)[i]? = some (part.piece pageSize start) := by
  induction parts generalizing next i with
  | nil => cases hi
  | cons first rest ih =>
    cases i with
    | zero =>
      obtain rfl := Option.some.inj hi
      exact ⟨next, rfl⟩
    | succ i => exact ih _ hi

theorem length_layFrom (pageSize next : Nat) (parts : List Part) :
    (layFrom pageSize next parts).length = parts.length := by
  induction parts generalizing next with
  | nil => rfl
  | cons part rest ih => rw [layFrom, List.length_cons, ih, List.length_cons]

structure Part.Makes (pageSize : Nat) (part : Part) (sec : Section) : Prop where
  name : sec.name = part.name
  readOnly : sec.readOnly = part.readOnly
  numPages : sec.numPages = pagesFor part.data.length pageSize

/-- Each part makes the section of its number. -/
theorem exists_section_of_part (pageSize : Nat) (entryPoint : VirtAddr) {i : Nat}
    (hi : parts[i]? = some part) :
    ∃ sec, (assemble pageSize parts)[i]? = some ⟨sec, part.data⟩ ∧ part.Makes pageSize sec ∧
      (assembled pageSize parts entryPoint).sections[i]? = some sec := by
  obtain ⟨start, hpiece⟩ := getElem?_layFrom pageSize 0 hi
  rw [← assemble_eq] at hpiece
  refine ⟨(part.piece pageSize start).header, hpiece, ⟨rfl, rfl, rfl⟩, ?_⟩
  rw [assembled, ofPieces, List.getElem?_map, hpiece]
  rfl

/-- There are no other sections. -/
theorem exists_part_of_section {entryPoint : VirtAddr} {i : Nat}
    (hi : (assembled pageSize parts entryPoint).sections[i]? = some sec) :
    ∃ part, parts[i]? = some part := by
  obtain ⟨hlt, -⟩ := List.getElem?_eq_some_iff.mp hi
  have hlength : (assembled pageSize parts entryPoint).sections.length = parts.length := by
    rw [assembled, ofPieces, List.length_map, assemble_eq, length_layFrom]
  exact ⟨_, List.getElem?_eq_getElem (hlength ▸ hlt)⟩

theorem aligned_assembled (pageSize : Nat) (parts : List Part) (entryPoint : VirtAddr) :
    AlignedFrom 0 (assembled pageSize parts entryPoint).sections := by
  rw [assembled, ofPieces, assemble_eq]
  exact aligned_layFrom pageSize 0 parts

/-! ## The bytes of the parts -/

theorem lt_pagesFor_iff (hpos : 0 < pageSize) {length page : Nat} :
    page < pagesFor length pageSize ↔ page * pageSize < length := by
  rw [pagesFor, Nat.lt_iff_add_one_le, Nat.le_div_iff_mul_le hpos, Nat.succ_mul]
  omega

/-- Page `page` of piece `i` has the bytes of the piece from there on, and then zeros. -/
theorem readPage_ofPieces (pageSize : Nat) {i page : Nat} {piece : Piece}
    (hi : pieces[i]? = some piece) (hpage : page < piece.header.numPages)
    (entryPoint : VirtAddr) :
    (ofPieces pageSize pieces entryPoint).readPage i page pageSize =
      .ok (Bytes.fit pageSize (piece.data.drop (page * pageSize))) := by
  have hread : readPiece pageSize pieces i page pageSize =
      .ok (piece.data.drop (page * pageSize)) := by
    rw [readPiece, hi]
    exact if_neg (by omega)
  simp only [readPage, fault?, ofPieces, hread]
  rfl

end Image

namespace ImageIndex

variable {index : ImageIndex} {parts : List Image.Part} {part : Image.Part} {vpn : Vpn}
  {entryPoint : VirtAddr}

theorem Covers.load_eq (h : index.Covers image) {i page : Nat}
    (hi : image.sections[i]? = some sec) (hpage : page < sec.numPages)
    (hvpn : vpn.toNat = sec.firstVpn.toNat + page) (length : Nat) :
    index.load vpn length =
      (image.readPage i page length).map fun data => (data, sec.readOnly) := by
  have hfound := (h.locate_iff vpn ⟨i, page, sec.readOnly⟩).mpr ⟨sec, hi, hpage, hvpn, rfl⟩
  rw [load, hfound, h.image_eq]
  rfl

/-- What is loaded for a page of a part: the bytes of the part from there on, and then zeros. -/
theorem Covers.load_part (h : index.Covers (Image.assembled pageSize parts entryPoint))
    {s page : Nat} (hs : parts[s]? = some part)
    (hsec : (Image.assembled pageSize parts entryPoint).sections[s]? = some sec)
    (hpage : page < sec.numPages) (hvpn : vpn.toNat = sec.firstVpn.toNat + page) :
    index.load vpn pageSize =
      .ok (Bytes.fit pageSize (part.data.drop (page * pageSize)), part.readOnly) := by
  obtain ⟨sec', hpiece, hmakes, hsec'⟩ :=
    Image.exists_section_of_part pageSize entryPoint hs
  obtain rfl := Option.some.inj (hsec'.symm.trans hsec)
  have hread := Image.readPage_ofPieces pageSize hpiece hpage entryPoint
  rw [h.load_eq hsec hpage hvpn, Image.assembled, hread, hmakes.readOnly]
  rfl

/-- Byte `i` of part `s` has its place at this page and offset. -/
def Kept (image : Image) (parts : List Image.Part) (pageSize s i : Nat) (vpn : Vpn)
    (offset : Nat) : Prop :=
  ∃ part sec, parts[s]? = some part ∧ image.sections[s]? = some sec ∧ i < part.data.length ∧
    vpn.toNat = sec.firstVpn.toNat + i / pageSize ∧ offset = i % pageSize

/-- The parts come back byte for byte, and the rest of each page is zero. -/
structure Returns (index : ImageIndex) (pageSize : Nat) (parts : List Image.Part) : Prop where
  made : ∀ (s : Nat) (part : Image.Part), parts[s]? = some part →
    ∃ sec, index.image.sections[s]? = some sec ∧ part.Makes pageSize sec
  byte : ∀ (s : Nat) (part : Image.Part) (sec : Section), parts[s]? = some part →
    index.image.sections[s]? = some sec → ∀ i b, part.data[i]? = some b → ∃ data,
      index.load (sec.firstVpn + (i / pageSize).toUInt32) pageSize = .ok (data, part.readOnly) ∧
        data[i % pageSize]? = some b
  loads : ∀ vpn ∈ index.vpns, ∃ data readOnly, index.load vpn pageSize = .ok (data, readOnly)
  zero : ∀ vpn data readOnly, index.load vpn pageSize = .ok (data, readOnly) →
    data.length = pageSize ∧ ∀ offset < pageSize,
      (∀ s i, ¬ Kept index.image parts pageSize s i vpn offset) → data[offset]? = some 0

theorem getElem?_fit {length offset : Nat} (h : offset < length) (data : Bytes) :
    (Bytes.fit length data)[offset]? = some (data.getD offset 0) := by
  have hlength : offset < (Bytes.fit length data).length := by rwa [Bytes.length_fit]
  rw [List.getElem?_eq_getElem hlength, Bytes.getElem_fit]

/-- A page is loaded from a part. -/
theorem Covers.exists_part (h : index.Covers (Image.assembled pageSize parts entryPoint))
    (hvpn : vpn ∈ index.vpns) :
    ∃ (s : Nat) (part : Image.Part) (sec : Section) (page : Nat), parts[s]? = some part ∧
      (Image.assembled pageSize parts entryPoint).sections[s]? = some sec ∧ page < sec.numPages ∧
      vpn.toNat = sec.firstVpn.toNat + page := by
  obtain ⟨found, hfound⟩ := Option.isSome_iff_exists.mp ((h.located vpn).mpr hvpn)
  obtain ⟨sec, hsec, hpage, hat, -⟩ := (h.locate_iff vpn found).mp hfound
  obtain ⟨part, hs⟩ := Image.exists_part_of_section hsec
  exact ⟨found.sectionIndex, part, sec, found.page, hs, hsec, hpage, hat⟩

theorem Covers.byte (hpos : 0 < pageSize)
    (hcontig : (Image.assembled pageSize parts entryPoint).Contiguous)
    (hfits : (Image.assembled pageSize parts entryPoint).pageCount < 0x100000000)
    (h : index.Covers (Image.assembled pageSize parts entryPoint)) {s i : Nat} {b : UInt8}
    (hs : parts[s]? = some part)
    (hsec : (Image.assembled pageSize parts entryPoint).sections[s]? = some sec)
    (hb : part.data[i]? = some b) :
    ∃ data, index.load (sec.firstVpn + (i / pageSize).toUInt32) pageSize =
      .ok (data, part.readOnly) ∧ data[i % pageSize]? = some b := by
  obtain ⟨sec', -, hmakes, hsec'⟩ :=
    Image.exists_section_of_part pageSize entryPoint hs
  obtain rfl := Option.some.inj (hsec'.symm.trans hsec)
  obtain ⟨hi, rfl⟩ := List.getElem?_eq_some_iff.mp hb
  have hpage : i / pageSize < sec'.numPages := by
    rw [hmakes.numPages, Image.lt_pagesFor_iff hpos]
    exact Nat.lt_of_le_of_lt (Nat.div_mul_le_self i pageSize) hi
  have hlt := hcontig.lt hsec hpage
  have hvpn : (sec'.firstVpn + (i / pageSize).toUInt32).toNat =
      sec'.firstVpn.toNat + i / pageSize := by
    rw [UInt32.toNat_add, toNat_word (by omega), Nat.mod_eq_of_lt (by omega)]
  refine ⟨_, h.load_part hs hsec hpage hvpn, ?_⟩
  rw [getElem?_fit (Nat.mod_lt i hpos), List.getD_eq_getElem?_getD, List.getElem?_drop,
    Nat.div_add_mod', hb]
  rfl

theorem Covers.zero
    (h : index.Covers (Image.assembled pageSize parts entryPoint)) {data : Bytes} {readOnly : Bool}
    (hload : index.load vpn pageSize = .ok (data, readOnly)) {offset : Nat}
    (ho : offset < pageSize)
    (hrest : ∀ s i, ¬ Kept index.image parts pageSize s i vpn offset) : data[offset]? = some 0 := by
  obtain ⟨⟨found, hlocate, -⟩, -, -⟩ := load_ok hload
  have hvpn := (h.located vpn).mp (Option.isSome_of_eq_some hlocate)
  obtain ⟨s, part, sec, page, hs, hsec, hpage, hat⟩ := h.exists_part hvpn
  rw [h.load_part hs hsec hpage hat] at hload
  obtain ⟨rfl, -⟩ := Prod.mk.inj (Except.ok.inj hload)
  have hpast : part.data.length ≤ page * pageSize + offset := by
    by_contra hin
    refine hrest s (page * pageSize + offset) ⟨part, sec, hs, ?_, Nat.not_le.mp hin, ?_, ?_⟩
    · rw [h.image_eq, hsec]
    · rw [hat, block_div ho]
    · rw [block_mod ho]
  rw [getElem?_fit ho, List.getD_eq_getElem?_getD, List.getElem?_drop,
    List.getElem?_eq_none hpast]
  rfl

theorem Covers.returns (hpos : 0 < pageSize)
    (hcontig : (Image.assembled pageSize parts entryPoint).Contiguous)
    (hfits : (Image.assembled pageSize parts entryPoint).pageCount < 0x100000000)
    (h : index.Covers (Image.assembled pageSize parts entryPoint)) :
    index.Returns pageSize parts where
  made s part hs := by
    obtain ⟨sec, -, hmakes, hsec⟩ :=
      Image.exists_section_of_part pageSize entryPoint hs
    exact ⟨sec, by rw [h.image_eq, hsec], hmakes⟩
  byte s part sec hs hsec i b hb := by
    rw [h.image_eq] at hsec
    exact h.byte hpos hcontig hfits hs hsec hb
  loads vpn hvpn := by
    obtain ⟨s, part, sec, page, hs, hsec, hpage, hat⟩ := h.exists_part hvpn
    exact ⟨_, _, h.load_part hs hsec hpage hat⟩
  zero vpn data readOnly hload :=
    ⟨(load_ok hload).2.1, fun _ ho hrest => h.zero hload ho hrest⟩

/-- Parts that are added one after the other are indexed, however many there are; and if the address
space can number their pages, they come back. -/
theorem ofImage_assembled (hpos : 0 < pageSize) (parts : List Image.Part) (entryPoint : VirtAddr)
    (s : σ) :
    (ofImage (Image.assembled pageSize parts entryPoint)).Ends s fun r _ =>
      ∃ index, r = .ok index ∧
        ((Image.assembled pageSize parts entryPoint).pageCount < 0x100000000 →
          index.Covers (Image.assembled pageSize parts entryPoint) ∧
            index.Returns pageSize parts) := by
  have haligned := Image.aligned_assembled pageSize parts entryPoint
  simp only [ofImage, Op.ends_bind]
  refine (collect_aligned 0 0 _ s).imp ?_
  rintro _ _ ⟨rfl, ⟨hgap, rfl⟩ | ⟨-, rfl⟩⟩
  · exact absurd haligned hgap
  · refine ⟨_, rfl, fun hfits => ?_⟩
    have hcontig := haligned.contiguous (by rw [Nat.zero_add]; exact hfits)
    have hcovers := covers_listed hcontig hfits
    exact ⟨hcovers, hcovers.returns hpos hcontig hfits⟩

/-- Images of fewer than `2 ^ 32` pages are indexed exactly if each section starts after the pages
of those before it, and then each page is located where it is; and parts that are added one after
the other are found again in the pages of the index. -/
theorem indexing_exact (s : σ) :
    (∀ image : Image, image.pageCount < 0x100000000 →
      (ofImage image).Ends s fun r _ =>
        match r with
        | .ok index => Image.StartsExact image.sections ∧ index.Covers image
        | .error e => ¬ Image.StartsExact image.sections ∧ e = .invalidImage) ∧
      ∀ pageSize, 0 < pageSize → ∀ (parts : List Image.Part) (entryPoint : VirtAddr),
        (ofImage (Image.assembled pageSize parts entryPoint)).Ends s fun r _ =>
          ∃ index, r = .ok index ∧
            ((Image.assembled pageSize parts entryPoint).pageCount < 0x100000000 →
              index.Covers (Image.assembled pageSize parts entryPoint) ∧
                index.Returns pageSize parts) :=
  ⟨fun _ hfits => ofImage_exact hfits s, fun _ hpos parts entryPoint =>
    ofImage_assembled hpos parts entryPoint s⟩

/-- A part that fills a page and begins another, an empty part, and one that just fills a page. -/
def threeParts : List Image.Part :=
  [⟨".text", true, [1, 2, 3, 4, 5]⟩, ⟨".bss", false, []⟩, ⟨".data", false, [6, 7, 8, 9]⟩]

/-- The second section starts one page too late. -/
def gapped : Image := .scripted [⟨".text", 0, 1, true⟩, ⟨".data", 2, 1, false⟩] [] ⟨0⟩

theorem indexing_exact_threeParts :
    (gapped.pageCount < 0x100000000 ∧ ¬ Image.StartsExact gapped.sections ∧
      ((ofImage gapped : Op Unit MemoryError ImageIndex) ()).result = .error .invalidImage) ∧
    (0 < 4 ∧ (Image.assembled 4 threeParts ⟨0⟩).pageCount < 0x100000000 ∧
      ∃ index, ((ofImage (Image.assembled 4 threeParts ⟨0⟩) : Op Unit MemoryError ImageIndex)
          ()).result = .ok index ∧
        index.numPages = 3 ∧ index.locate 2 = some ⟨2, 0, false⟩ ∧
        ∃ data, index.load 1 4 = .ok (data, true) ∧ data[0]? = some 5) := by
  have hgapped : gapped.pageCount < 0x100000000 := by decide
  have hrefused := (indexing_exact (σ := Unit) ()).1 gapped hgapped
  have hexact : ¬ Image.StartsExact gapped.sections := by
    rw [Image.startsExact_iff]
    decide
  have hfits : (Image.assembled 4 threeParts ⟨0⟩).pageCount < 0x100000000 := by decide
  obtain ⟨index, hok, hindexed⟩ :=
    (indexing_exact (σ := Unit) ()).2 4 (by decide) threeParts ⟨0⟩
  obtain ⟨hcovers, hreturns⟩ := hindexed hfits
  refine ⟨⟨hgapped, hexact, ?_⟩, by decide, hfits, index, hok, ?_, ?_, ?_⟩
  · cases hr : (ofImage gapped ()).result with
    | ok found =>
      simp only [Op.Ends, hr] at hrefused
      exact absurd hrefused.1 hexact
    | error e =>
      simp only [Op.Ends, hr] at hrefused
      rw [hrefused.2]
  · rw [hcovers.numPages]
    decide
  · rw [hcovers.locate_iff]
    exact ⟨⟨".data", 2, 1, false⟩, rfl, by decide, rfl, rfl⟩
  · obtain ⟨data, hload, hbyte⟩ := hreturns.byte 0 ⟨".text", true, [1, 2, 3, 4, 5]⟩
      ⟨".text", 0, 2, true⟩ rfl (by rw [hcovers.image_eq]; rfl) 4 5 rfl
    exact ⟨data, hload, hbyte⟩

end ImageIndex

end VirtualMemory
