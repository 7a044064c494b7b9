import VirtualMemory.SelfTest.Process

/-!
# Self test of processes that take turns

Several workers write and check patterns in all their pages while they compete for the frames of
one kernel. They take turns after each round.
-/

namespace VirtualMemory.SelfTest

def workerCount : Nat := 3

def workerRounds : Nat := 4

def workerPattern (id round : Nat) (vpn : Vpn) : Bytes :=
  List.replicate 16 (id.toUInt8 * 0x20 + round.toUInt8 + vpn.toUInt8)

/-- One round of a worker: write every page, check every page, leave the processor and return. -/
def workerRound (p : Process) (id round : Nat) : Check Kernel Unit := do
  (firstPages p.numPages).forM fun vpn => do
    let n ← writeMemory p.number (address vpn 16) (workerPattern id round vpn)
    Check.expectWith (n = 16) "(SMP) escrita falhou id/vpn=" [id, vpn.toNat]
  (firstPages p.numPages).forM fun vpn => do
    let data ← readMemory p.number (address vpn 16) 16
    Check.expectWith (data = workerPattern id round vpn) "(SMP) conteúdo divergente id/vpn="
      [id, vpn.toNat]
  Op.total (Kernel.contextSwitch (some p.number) p.number)

def parallelProcesses : Check Kernel Unit := do
  let workers ← (List.range workerCount).mapM fun id => do
    let p ← Check.require (Kernel.spawn "worker" (sampleImage 0 1) []) "(SMP) worker falhou"
    Op.total (Kernel.contextSwitch none p.number)
    return (id, p)
  (List.range workerRounds).forM fun round =>
    workers.forM fun (id, p) => workerRound p id round
  workers.forM fun (_, p) => exit p.number 0
  let some p := (← get).pager? | throw .failed
  Check.require p.audit "(SMP) invariantes"
  Check.expect ((← get).freePages = 6) "(SMP) páginas vazaram"
  Check.expect p.swap.slots.isEmpty "(SMP) slots vazaram"

def concurrencyTests : List TestCase :=
  [ kernelCase "concurrency_parallel_processes" (demandConfig 6 4) parallelProcesses ]

end VirtualMemory.SelfTest
