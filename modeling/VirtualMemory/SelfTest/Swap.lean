import VirtualMemory.SelfTest.Fixture

/-!
# Self tests of the swap
-/

namespace VirtualMemory.SelfTest

def swapRoundTrip : Check Swapper Unit := do
  let key : PageKey := ⟨1, 4⟩
  let page : Bytes := (List.range testPageSize).map Nat.toUInt8
  let slot ← Check.require (Swapper.write key page) "(SWAP) write"
  Check.expect ((← get).slot? key = some slot) "(SWAP) slot não registrado"
  let back ← Check.require (Swapper.read key) "(SWAP) read"
  Check.expect (back = page) "(SWAP) conteúdo divergente"
  let short ← Check.errorOf (Swapper.write key (page.take 8))
  Check.expect (short = some .invalidParameter) "(SWAP) página parcial aceita"
  Check.require (← get).audit "(SWAP) consistência"

def untrackedRead : Check Swapper Unit := do
  let found ← Check.require (Swapper.readInto ⟨3, 3⟩ testPageSize) "(SWAP) read_into"
  let zeroFilled := match found with
    | .zeroFilled _ => true
    | .loaded _ _ => false
  Check.expect zeroFilled "(SWAP) leitura sem slot não zerou"
  Check.expect (found.data.all (· == 0)) "(SWAP) buffer sujo"
  Check.expect ((← get).capacity = 0) "(SWAP) leitura cresceu o arquivo"

def freedSlotReused : Check Swapper Unit := do
  let page : Bytes := List.replicate testPageSize 1
  let slotA ← Check.require (Swapper.write ⟨1, 0⟩ page) "(SWAP) write a"
  let _ ← Check.require (Swapper.write ⟨1, 1⟩ page) "(SWAP) write b"
  Check.expect ((← get).capacity = 2) "(SWAP) capacidade após dois writes"
  modify fun s => (s.freeSlot ⟨1, 0⟩).freeSlot ⟨1, 0⟩
  Check.expect ((← get).freeSlots.length = 1) "(SWAP) free_slot não idempotente"
  let slotC ← Check.require (Swapper.write ⟨2, 0⟩ page) "(SWAP) write c"
  Check.expect (slotC = slotA) "(SWAP) slot livre não reusado"
  Check.expect ((← get).capacity = 2) "(SWAP) arquivo cresceu com slot livre"
  Check.require (← get).audit "(SWAP) consistência"

def pendingAccounting : Check Swapper Unit := do
  let key : PageKey := ⟨5, 2⟩
  modify (·.markPending key)
  Check.expect ((← get).isPending key) "(SWAP) mark_pending"
  let first ← modifyGet (·.allocateSlot key)
  let second ← modifyGet (·.allocateSlot key)
  Check.expect (first = second) "(SWAP) allocate_slot não idempotente"
  Check.expect (!(← get).isPending key) "(SWAP) página com slot continua pending"
  modify (·.markPending key)
  Check.expect (!(← get).isPending key) "(SWAP) página com slot voltou a pending"
  Check.require (← get).audit "(SWAP) consistência"

def processReleased : Check Swapper Unit := do
  let page : Bytes := List.replicate testPageSize 9
  (firstPages 3).forM fun vpn => do
    let _ ← Check.require (Swapper.write ⟨1, vpn⟩ page) "(SWAP) write pid 1"
  let _ ← Check.require (Swapper.write ⟨2, 0⟩ page) "(SWAP) write pid 2"
  modify fun s => (s.markPending ⟨1, 9⟩).releaseProcess 1
  let s ← get
  Check.expect (s.slots.size = 1) "(SWAP) slots do pid 1 sobraram"
  Check.expect (s.freeSlots.length = 3) "(SWAP) slots não voltaram à lista livre"
  Check.expect s.pending.isEmpty "(SWAP) pending do pid 1 sobrou"
  Check.expect (s.slot? ⟨2, 0⟩).isSome "(SWAP) slot de outro pid perdido"
  Check.require s.audit "(SWAP) consistência"

def diskLength (s : Swapper) : Nat := (((s.file.bind (·.onDisk)).map List.length)).getD 0

def closeRemovesFile : Check Swapper Unit := do
  let page : Bytes := List.replicate testPageSize 3
  let _ ← Check.require (Swapper.write ⟨1, 1⟩ page) "(SWAP) write"
  let length := diskLength (← get)
  Check.expectWith (length = testPageSize) "(SWAP) tamanho do arquivo=" [length]
  Op.total Swapper.close
  Check.expect ((← get).file.bind (·.onDisk)).isNone "(SWAP) arquivo sobreviveu ao close"
  Check.expect (!(← get).isOpen) "(SWAP) swapper continua aberto"
  let after ← Check.errorOf (Swapper.write ⟨1, 1⟩ page)
  Check.expect (after = some .swapClosed) "(SWAP) write depois do close"

def memorySwap : Check Unit Swapper := pure (.ofFile (.memory {}) testPageSize)

def hostSwap : Check Unit Swapper :=
  Check.require (Swapper.openBacking anyPath (.file "self-test.swap") testPageSize)
    "(SWAP) open"

def swapTests : List TestCase :=
  [ Check.toCase "swap_round_trip" memorySwap swapRoundTrip,
    Check.toCase "swap_untracked_read_zero_fills" memorySwap untrackedRead,
    Check.toCase "swap_freed_slot_reused_first" memorySwap freedSlotReused,
    Check.toCase "swap_pending_accounting" memorySwap pendingAccounting,
    Check.toCase "swap_release_process" memorySwap processReleased,
    Check.toCase "swap_close_removes_file" hostSwap closeRemovesFile ]

end VirtualMemory.SelfTest
