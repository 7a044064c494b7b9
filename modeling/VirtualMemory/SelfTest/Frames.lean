import VirtualMemory.SelfTest.Fixture

/-!
# Self tests of frames and memory
-/

namespace VirtualMemory.SelfTest

def acquireFrame : Check Frames (Option Ppn) := modifyGet Frames.acquire

/-- Takes frames for the numbered requests; each is then in use. -/
def acquireFrames : List Nat → Check Frames (List Ppn)
  | [] => return []
  | i :: rest => do
    let some ppn ← acquireFrame
      | Op.notify (.report .error "(PMM) OOM ao alocar índice=" [i])
        throw .failed
    Check.expectWith (!(← get).isFree ppn) "(PMM) ppn alocado continua livre=" [ppn.toNat]
    return ppn :: (← acquireFrames rest)

def acquireAndRelease : Check Frames Unit := do
  let ppns ← acquireFrames (List.range 10)
  Check.expect (ppns.eraseDups.length = 10) "(PMM) ppn entregue duas vezes"
  ppns.forM fun ppn => Check.require (Frames.release ppn) "(PMM) release"
  Check.expect ((← get).freeCount = 10) "(PMM) páginas perdidas"
  Check.expect ((← get).used = 0) "(PMM) contador de uso"

def exhaustion : Check Frames Unit := do
  let a ← acquireFrame
  let b ← acquireFrame
  Check.expect (a.isSome && b.isSome) "(PMM) alocação inicial"
  Check.expect (← acquireFrame).isNone "(PMM) alocou além do total"
  let ppn := a.getD 0
  Check.require (Frames.release ppn) "(PMM) release"
  let again ← Check.errorOf (Frames.release ppn)
  Check.expect (again = some .doubleFree) "(PMM) double free aceito"
  let outside ← Check.errorOf (Frames.release 9)
  Check.expect (outside = some .outOfBounds) "(PMM) ppn fora do range aceito"
  Check.expect ((← acquireFrame) = some ppn) "(PMM) página devolvida não reusada"

def releaseKeepsContents : Check Frames Unit := do
  let ppn := (← acquireFrame).getD 0
  let page : Bytes := List.replicate 32 0xab
  let memory ← Check.require (Op.ofExcept ((PhysicalMemory.zeroed 1 32).writePage ppn page))
    "(PMM) write_page"
  Check.require (Frames.release ppn) "(PMM) release"
  let back ← Check.require (Op.ofExcept (memory.readPage ppn 32)) "(PMM) read_page"
  Check.expect (back = page) "(PMM) página zerada na devolução"

def framesTests : List TestCase :=
  [ Check.toCase "pmm_alloc_dealloc" (pure (.ofTotal 10)) acquireAndRelease,
    Check.toCase "pmm_exhaustion" (pure (.ofTotal 2)) exhaustion,
    Check.toCase "pmm_release_keeps_contents" (pure (.ofTotal 1)) releaseKeepsContents ]

end VirtualMemory.SelfTest
