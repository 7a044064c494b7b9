import VirtualMemory.Image
import VirtualMemory.Proofs.AddressArithmetic
import VirtualMemory.Proofs.BackingStore

/-!
# The contents of an image

`initialByte` is what a page of an image holds before anything is written to it, whether or not the
page can be read at the moment. A page that can be read has just these bytes.
-/

namespace VirtualMemory.ImageIndex

/-- Byte `offset` of page `vpn` of an image; zero where the image has none. -/
def initialByte (index : ImageIndex) (vpn : Vpn) (pageSize offset : Nat) : UInt8 :=
  match index.locate vpn with
  | some page =>
    match index.image.contents page.sectionIndex page.page pageSize with
    | .ok data => data.getD offset 0
    | .error _ => 0
  | none => 0

theorem load_ok {index : ImageIndex} {vpn : Vpn} {length : Nat} {data : Bytes}
    {readOnly : Bool} (h : index.load vpn length = .ok (data, readOnly)) :
    (∃ page, index.locate vpn = some page ∧ readOnly = page.readOnly) ∧ data.length = length ∧
      ∀ o < length, data.getD o 0 = index.initialByte vpn length o := by
  unfold load at h
  cases hl : index.locate vpn with
  | none =>
    rw [hl] at h
    cases h
  | some page =>
    rw [hl] at h
    cases hr : index.image.readPage page.sectionIndex page.page length with
    | error e =>
      simp only [hr] at h
      cases h
    | ok bytes =>
      simp only [hr] at h
      obtain ⟨rfl, rfl⟩ := Prod.mk.inj (Except.ok.inj h)
      refine ⟨⟨page, rfl, rfl⟩, Image.length_readPage hr, ?_⟩
      intro o ho
      unfold Image.readPage at hr
      split at hr
      · cases hr
      · cases hc : index.image.contents page.sectionIndex page.page length with
        | error e =>
          rw [hc] at hr
          cases hr
        | ok contents =>
          rw [hc] at hr
          obtain rfl := Except.ok.inj hr
          simp only [initialByte, hl, hc]
          exact ByteStore.getD_fit length contents o ho

/-- A page that the image has fails to load with the error that reading it answered. -/
theorem readPage_of_load_error {index : ImageIndex} {vpn : Vpn} {length : Nat} {page : ImagePage}
    {cause : MemoryError} (hpage : index.locate vpn = some page)
    (h : index.load vpn length = .error cause) :
    index.image.readPage page.sectionIndex page.page length = .error cause := by
  rw [load, hpage] at h
  cases hr : index.image.readPage page.sectionIndex page.page length with
  | ok bytes =>
    simp only [hr] at h
    cases h
  | error e =>
    simp only [hr] at h
    cases h
    rfl

theorem isSome_locate (index : ImageIndex) (vpn : Vpn) :
    (index.locate vpn).isSome = true ↔ vpn.toNat < index.pages.length := by
  rw [locate, Option.isSome_iff_ne_none, ne_eq, List.getElem?_eq_none_iff, Nat.not_le]
  have hle := Nat.div_mul_le_self (index.pages.length - 1 - vpn.toNat) UInt32.size
  omega

/-- As long as a word can number the pages, each has a number of its own. -/
theorem locate_eq {index : ImageIndex} (h : index.pages.length ≤ 0x100000000) (vpn : Vpn) :
    index.locate vpn = index.pages[vpn.toNat]? := by
  have hrounds : (index.pages.length - 1 - vpn.toNat) / UInt32.size = 0 :=
    Nat.div_eq_of_lt (by simp only [UInt32.size]; omega)
  simp only [locate, hrounds, Nat.zero_mul, Nat.add_zero]

theorem numPages_eq {index : ImageIndex} (h : index.pages.length < 0x100000000) :
    index.numPages = index.pages.length := toNat_word h

theorem mem_vpns (index : ImageIndex) (vpn : Vpn) :
    vpn ∈ index.vpns ↔ (index.locate vpn).isSome = true := by
  rw [isSome_locate, vpns, mem_words (Nat.min_le_right _ _), Nat.lt_min]
  exact and_iff_left vpn.toNat_lt

end VirtualMemory.ImageIndex
