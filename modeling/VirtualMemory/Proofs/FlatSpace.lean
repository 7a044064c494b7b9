import VirtualMemory.Mmu.Basic
import VirtualMemory.Proofs.AddressArithmetic
import VirtualMemory.Proofs.ImageContents
import VirtualMemory.Proofs.Simulation

/-!
# What a machine owes to a process

To a process its memory is flat: a number of pages that hold a byte at each address, some of them
read-only. `FlatSpace` is the machine that has just that, and never misses. Another machine `Serves`
a process if it answers every access as the flat space does. It may miss at first; then it has to
make the page `Ready`, so that the access can be tried again.
-/

namespace VirtualMemory

structure FlatSpace where
  pageSize : Nat
  numPages : Nat
  readOnly : Vpn → Bool
  /-- By address. -/
  byte : Nat → UInt8

namespace FlatSpace

/-- A new space: the pages of the image, and zeros. -/
def ofLayout (pageSize : Nat) (layout : Layout) : FlatSpace where
  pageSize := pageSize
  numPages := layout.numPages
  readOnly vpn := (layout.index.locate vpn).any (·.readOnly)
  byte a := layout.index.initialByte (a / pageSize).toUInt32 pageSize (a % pageSize)

def bytes (f : FlatSpace) (start length : Nat) : Bytes :=
  (List.range length).map fun i => f.byte (start + i)

def overwritten (f : FlatSpace) (start : Nat) (data : Bytes) : FlatSpace :=
  { f with byte := fun a =>
      if start ≤ a ∧ a < start + data.length then data.getD (a - start) 0 else f.byte a }

/-- An access inside the space, and no write to a read-only page. -/
def check (vaddr : VirtAddr) (access : Access) : Op FlatSpace Exception Unit := do
  let f ← get
  if f.numPages ≤ (vaddr.vpn f.pageSize).toNat then throw .addressError
  if access = .write && f.readOnly (vaddr.vpn f.pageSize) then throw .readOnly

def read (vaddr : VirtAddr) (length : Nat) : Op FlatSpace Exception Bytes := do
  check vaddr .read
  return (← get).bytes vaddr.value.toNat length

def write (vaddr : VirtAddr) (data : Bytes) : Op FlatSpace Exception Nat := do
  check vaddr .write
  modifyGet fun f => (data.length, f.overwritten vaddr.value.toNat data)

instance : Mmu FlatSpace where
  pageSize := pageSize
  load _ layout := modify fun f => .ofLayout f.pageSize layout
  translate _ vaddr access := do
    check vaddr access
    return ⟨vaddr.value⟩
  read _ := read
  write _ := write
  handleFault _ _ e := return .ofException e
  saveContext _ := return
  restoreContext _ := return
  teardown _ := modify fun f => { f with numPages := 0 }

variable {f : FlatSpace} {vaddr : VirtAddr}

theorem byte_ofLayout (layout : Layout) {pageSize o : Nat} (ho : o < pageSize) (vpn : Vpn) :
    (ofLayout pageSize layout).byte (vpn.toNat * pageSize + o) =
      layout.index.initialByte vpn pageSize o := by
  simp [ofLayout, block_div ho, block_mod ho]

/-- A write that stays inside a page changes the bytes of that page only. -/
theorem byte_overwritten (f : FlatSpace) {size start o : Nat} {data : Bytes}
    (hin : start + data.length ≤ size) (ho : o < size) (vpn page : Vpn) :
    (f.overwritten (page.toNat * size + start) data).byte (vpn.toNat * size + o) =
      if vpn = page ∧ start ≤ o ∧ o < start + data.length then data.getD (o - start) 0
      else f.byte (vpn.toNat * size + o) := by
  simp only [overwritten]
  by_cases hp : vpn = page
  · subst hp
    have hsub : vpn.toNat * size + o - (vpn.toNat * size + start) = o - start := by omega
    rw [hsub]
    congr 1
    simp only [true_and, eq_iff_iff]
    omega
  · have hapart := frame_apart hp size o ho
    rw [if_neg (by omega), if_neg fun h => hp h.1]

theorem read_inside (hin : (vaddr.vpn f.pageSize).toNat < f.numPages) (length : Nat) :
    (read vaddr length).Ends f fun r f' =>
      r = .ok (f.bytes vaddr.value.toNat length) ∧ f' = f := by
  simp only [read, check, Op.ends_bind, Op.ends_get, Op.ends_ite, Nat.not_le.mpr hin, if_false,
    reduceCtorEq, decide_false, Bool.false_and, Bool.false_eq_true, Op.ends_pure]
  exact ⟨trivial, trivial⟩

theorem write_inside (hin : (vaddr.vpn f.pageSize).toNat < f.numPages) (data : Bytes) :
    (write vaddr data).Ends f fun r f' =>
      if f.readOnly (vaddr.vpn f.pageSize) then r = .error .readOnly ∧ f' = f
      else r = .ok data.length ∧ f' = f.overwritten vaddr.value.toNat data := by
  simp only [write, check, Op.ends_bind, Op.ends_get, Op.ends_ite, Nat.not_le.mpr hin, if_false,
    decide_true, Bool.true_and, Op.ends_throw, Op.ends_pure, Op.ends_modifyGet]
  split
  · exact ⟨trivial, trivial⟩
  · exact ⟨trivial, trivial⟩

theorem not_tlbMiss_of_check {access : Access} {e : Exception}
    (h : (check vaddr access f).result = .error e) : e ≠ .tlbMiss := by
  have hends : (check vaddr access).Ends f fun r _ => ∀ e, r = .error e → e ≠ .tlbMiss := by
    simp only [check, Op.ends_bind, Op.ends_get, Op.ends_ite, Op.ends_throw, Op.ends_pure]
    split
    · rintro e ⟨⟩
      decide
    · split
      · rintro e ⟨⟩
        decide
      · rintro e ⟨⟩
  exact hends e h

end FlatSpace

end VirtualMemory
