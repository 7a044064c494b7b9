import VirtualMemory.Kernel
import VirtualMemory.SelfTest.Suite

/-!
# Fixtures of the self tests

Small machines: pages of 64 bytes, a stack of two pages, swap in memory and a fixed seed.
-/

namespace VirtualMemory.SelfTest

def testPageSize : Nat := 64

def testSeed : UInt64 := 0x5eedf00d

def anyPath (_path : String) : HostPath := .writable

def demandConfig (physPages tlbSize : Nat) : Config :=
  { pageSize := testPageSize, physPages := physPages, tlbSize := tlbSize, stackPages := 2,
    swap := .memory, seed := some testSeed }

def newPager (physPages tlbSize : Nat) : Op Unit MemoryError Pager :=
  let c := demandConfig physPages tlbSize
  Pager.create anyPath c 0 (.new c.tlbSize c.pageSize) (.zeroed c.physPages c.pageSize)

def bootKernel (c : Config) : Op Unit MemoryError Kernel := Kernel.boot anyPath c 0

/-- `count` pages, page `i` full of the byte `first + i`. -/
def pagesOf (count : Nat) (first : UInt8) : Bytes :=
  (List.range count).flatMap fun i => List.replicate testPageSize (first + i.toUInt8)

/-- An image of read-only pages (bytes from 0x10 on) and writable pages (bytes from 0x80 on). -/
def sampleImage (textPages dataPages : Nat) : Image :=
  let pieces := Image.append testPageSize [] ".text" true (pagesOf textPages 0x10)
  let pieces := Image.append testPageSize pieces ".data" false (pagesOf dataPages 0x80)
  .ofPieces testPageSize pieces ⟨0⟩

def address (vpn : Vpn) (offset : Nat) : VirtAddr := .ofPage vpn offset testPageSize

def firstPages (n : Nat) : List Vpn := (List.range n).map Nat.toUInt32

end VirtualMemory.SelfTest
