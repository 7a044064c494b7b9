import VirtualMemory.Bytes
import VirtualMemory.Op

/-!
# Program images

An image is a list of sections, each a run of pages, and a way to read a page of a section, which
may fail. A page that can be read fills the buffer that it is read into. Before a program is loaded
its sections are indexed: they must follow each other from page zero without gaps, and then entry
`vpn` of the index says which page of which section is page `vpn`. Pages are counted in a 32-bit
word. Of an image that has more of them, the count is what is left over, and a later page takes the
number of an earlier one.
-/

namespace VirtualMemory

structure Section where
  name : String
  firstVpn : Vpn
  numPages : Nat
  readOnly : Bool
  deriving DecidableEq

structure Image where
  sections : List Section
  entryPoint : VirtAddr
  /-- The bytes of a page of a section, for a buffer of so many bytes. -/
  contents : (sectionIndex page length : Nat) → Except MemoryError Bytes
  /-- The pages, by section and number, that cannot be read, and why. Of two entries for a page
  the later counts. -/
  faults : List ((Nat × Nat) × MemoryError) := []

namespace Image

def fault? (image : Image) (sectionIndex page : Nat) : Option MemoryError :=
  image.faults.reverse.lookup (sectionIndex, page)

/-- Reads a page of a section into a buffer of `length` bytes. -/
def readPage (image : Image) (sectionIndex page length : Nat) : Except MemoryError Bytes :=
  match image.fault? sectionIndex page with
  | some e => .error e
  | none => (image.contents sectionIndex page length).map (Bytes.fit length)

theorem length_readPage {image : Image} {sectionIndex page length : Nat} {data : Bytes}
    (h : image.readPage sectionIndex page length = .ok data) : data.length = length := by
  unfold readPage at h
  split at h
  · exact absurd h (by simp)
  · cases hc : image.contents sectionIndex page length with
    | error e => rw [hc] at h; exact absurd h (by simp [Except.map])
    | ok bytes =>
      rw [hc] at h
      rw [← Except.ok.inj h]
      exact Bytes.length_fit length bytes

def isReadOnly (image : Image) (sectionIndex : Nat) : Bool :=
  (image.sections[sectionIndex]?).any (·.readOnly)

/-! ## Images in memory -/

structure Piece where
  header : Section
  data : Bytes
  deriving DecidableEq

def pagesFor (length pageSize : Nat) : Nat := (length + pageSize - 1) / pageSize

def nextVpn (pieces : List Piece) : Vpn :=
  match pieces.getLast? with
  | some p => p.header.firstVpn + p.header.numPages.toUInt32
  | none => 0

/-- Adds a section at page `firstVpn`. -/
def appendAt (pageSize : Nat) (pieces : List Piece) (name : String) (firstVpn : Vpn)
    (readOnly : Bool) (data : Bytes) : List Piece :=
  pieces ++ [⟨⟨name, firstVpn, pagesFor data.length pageSize, readOnly⟩, data⟩]

def append (pageSize : Nat) (pieces : List Piece) (name : String) (readOnly : Bool)
    (data : Bytes) : List Piece :=
  appendAt pageSize pieces name (nextVpn pieces) readOnly data

/-- The bytes of a section from a page on. A buffer that is longer than what is left of the section
is filled up with zeros. -/
def readPiece (pageSize : Nat) (pieces : List Piece) (sectionIndex page length : Nat) :
    Except MemoryError Bytes :=
  match pieces[sectionIndex]? with
  | none => .error .outOfBounds
  | some piece =>
    if length ≠ pageSize ∨ piece.header.numPages ≤ page then .error .invalidParameter
    else .ok (piece.data.drop (page * pageSize))

/-- The image that holds its pieces in memory. -/
def ofPieces (pageSize : Nat) (pieces : List Piece) (entryPoint : VirtAddr) : Image where
  sections := pieces.map (·.header)
  entryPoint := entryPoint
  contents := readPiece pageSize pieces

/-! ## Scripted images -/

/-- An image whose page `p` of section `s` is full of the byte `16 * s + p`. -/
def scripted (sections : List Section) (faults : List ((Nat × Nat) × MemoryError))
    (entryPoint : VirtAddr) : Image where
  sections := sections
  entryPoint := entryPoint
  contents := fun sectionIndex page length =>
    .ok (List.replicate length (16 * sectionIndex + page).toUInt8)
  faults := faults

end Image

/-! ## The index of an image -/

/-- Where a page of the address space comes from. -/
structure ImagePage where
  sectionIndex : Nat
  page : Nat
  readOnly : Bool
  deriving DecidableEq

structure ImageIndex where
  image : Image
  /-- From page zero on. -/
  pages : List ImagePage

def Section.pageList (s : Section) (sectionIndex : Nat) : List ImagePage :=
  (List.range s.numPages).map fun page => ⟨sectionIndex, page, s.readOnly⟩

namespace ImageIndex

/-- The pages of sections from number `sectionIndex` on; `next` is the page where the next one has
to start. -/
def collect {σ : Type} (sectionIndex : Nat) (next : Vpn) :
    List Section → Op σ MemoryError (List ImagePage)
  | [] => return []
  | s :: rest => do
    if s.firstVpn ≠ next then
      Op.notify (.imageFragmented next s.firstVpn)
      throw .invalidImage
    let pages ← collect (sectionIndex + 1) (next + s.numPages.toUInt32) rest
    return s.pageList sectionIndex ++ pages

/-- Indexes an image whose sections are contiguous from page zero. -/
def ofImage {σ : Type} (image : Image) : Op σ MemoryError ImageIndex := do
  let pages ← collect 0 0 image.sections
  return ⟨image, pages⟩

def numPages (index : ImageIndex) : Nat := index.pages.length.toUInt32.toNat

/-- The origin of page `vpn`: the last of the pages with this number. -/
def locate (index : ImageIndex) (vpn : Vpn) : Option ImagePage :=
  let rounds := (index.pages.length - 1 - vpn.toNat) / UInt32.size
  index.pages[vpn.toNat + rounds * UInt32.size]?

/-- The pages that the image covers, in ascending order. -/
def vpns (index : ImageIndex) : List Vpn :=
  (List.range (min index.pages.length UInt32.size)).map Nat.toUInt32

def entryPoint (index : ImageIndex) : VirtAddr := index.image.entryPoint

/-- The contents of page `vpn`, for a buffer of `length` bytes, and whether it is read-only. -/
def load (index : ImageIndex) (vpn : Vpn) (length : Nat) : Except MemoryError (Bytes × Bool) := do
  let some page := index.locate vpn | throw .invalidAddress
  let data ← index.image.readPage page.sectionIndex page.page length
  return (data, page.readOnly)

end ImageIndex

end VirtualMemory
