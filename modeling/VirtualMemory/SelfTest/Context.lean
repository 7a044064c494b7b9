import VirtualMemory.SelfTest.Fault

/-!
# Self tests of context switches
-/

namespace VirtualMemory.SelfTest

/-- Saving tells the table what the cache saw and frees the slots of the process. -/
def saveFlushesDirty : Check Pager Unit := do
  registerBare 1 2
  let written ← accessWrite 1 (address 0 0) [7, 7, 7, 7]
  Check.expect (countOf written = some 4) "(CTX) escrita"
  Check.expect (!(entryOf (← get) 1 0).dirty) "(CTX) tabela já dirty antes do flush"
  Op.total (Pager.saveContext 1)
  let entry := entryOf (← get) 1 0
  Check.expect (entry.dirty && entry.used) "(CTX) DIRTY/USED não chegaram à tabela"
  Check.expect ((← get).tlb.find 1 0).isNone "(CTX) slot sobreviveu ao save"
  auditPager

def restoreReinstalls : Check Pager Unit := do
  registerBare 1 3
  (firstPages 3).forM fun vpn => do
    let _ ← miss 1 vpn "(CTX) miss"
  Op.total (Pager.saveContext 1)
  Op.total (Pager.restoreContext 1)
  let p ← get
  (firstPages 3).forM fun vpn =>
    Check.expectWith (p.tlb.find 1 vpn).isSome "(CTX) slot não reinstalado vpn=" [vpn.toNat]
  let read ← accessRead 1 (address 2 0) 1
  Check.expect (bytesOf read).isSome "(CTX) leitura"
  Check.expect ((← get).stats.tlbMisses = p.stats.tlbMisses) "(CTX) miss depois do restore"

/-- A page that was evicted in the meantime is not cached again. -/
def restoreSkipsEvicted : Check Pager Unit := do
  registerBare 1 2
  let data : Bytes := List.replicate 8 0x33
  let written ← accessWrite 1 (address 0 0) data
  Check.expect (countOf written = some 8) "(CTX) escrita vpn 0"
  let _ ← miss 1 1 "(CTX) miss vpn 1"
  Op.total (Pager.saveContext 1)
  let _ ← Check.require (Pager.evictPage ⟨1, 0⟩) "(CTX) evict vpn 0"
  Op.total (Pager.restoreContext 1)
  Check.expect ((← get).tlb.find 1 0).isNone "(CTX) entrada evictada restaurada"
  Check.expect ((← get).tlb.find 1 1).isSome "(CTX) entrada residente perdida"
  auditPager
  let back ← accessRead 1 (address 0 0) 8
  Check.expect (bytesOf back).isSome "(CTX) releitura"
  Check.expect (bytesOf back = some data) "(CTX) conteúdo perdido na eviction"

/-- A slot that is overwritten tells the table what it saw. -/
def refillFlushesReplacedSlot : Check Pager Unit := do
  registerBare 1 2
  let written ← accessWrite 1 (address 0 0) [1, 1]
  Check.expect (countOf written = some 2) "(CTX) escrita"
  let _ ← miss 1 1 "(CTX) miss vpn 1"
  Check.expect ((← get).tlb.find 1 0).isNone "(CTX) TLB de um slot com duas páginas"
  Check.expect (entryOf (← get) 1 0).dirty "(CTX) DIRTY perdido no refill"

def contextTests : List TestCase :=
  [ pagerCase "context_save_flushes_dirty" 4 4 saveFlushesDirty,
    pagerCase "context_restore_reinstalls" 4 4 restoreReinstalls,
    pagerCase "context_restore_skips_evicted" 4 4 restoreSkipsEvicted,
    pagerCase "context_refill_flushes_replaced_slot" 4 1 refillFlushesReplacedSlot ]

end VirtualMemory.SelfTest
