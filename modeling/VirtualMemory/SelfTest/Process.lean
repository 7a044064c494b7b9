import VirtualMemory.SelfTest.Fixture

/-!
# Self tests of the loader, of copies and of the kernel
-/

namespace VirtualMemory.SelfTest

def spawn (name : String) (image : Image) (args : List String) : Check Kernel Process :=
  Check.require (Kernel.spawn name image args) "(PROC) spawn"

def spawnError (name : String) (image : Image) (args : List String) :
    Check Kernel (Option MemoryError) :=
  Check.errorOf (Kernel.spawn name image args)

def readMemory (number : Nat) (vaddr : VirtAddr) (length : Nat) : Check Kernel Bytes := do
  return (← Op.total (Kernel.onProcess number (Hosted.readMemory vaddr length))).getD []

def writeMemory (number : Nat) (vaddr : VirtAddr) (data : Bytes) : Check Kernel Nat := do
  return (← Op.total (Kernel.onProcess number (Hosted.writeMemory vaddr data))).getD 0

def readText (number : Nat) (vaddr : VirtAddr) (maxLength : Nat) :
    Check Kernel (Option String) := do
  return (← Op.total (Kernel.onProcess number (Hosted.readText vaddr maxLength))).join

def exit (number : Nat) (status : Int) : Check Kernel Unit := do
  let _ ← Op.total (Kernel.onProcess number (Hosted.exit status))

def processOf (k : Kernel) (number : Nat) : Option Process := k.processes.get? number

def auditKernel : Check Kernel Unit := do
  if let some p := (← get).pager? then
    Check.require p.audit "(PROC) invariantes"

def wordAt (data : Bytes) (offset : Nat) : Nat :=
  (data.drop offset).take 4 |>.foldr (fun b n => n * 256 + b.toNat) 0

/-- Three image pages, two of stack, one of arguments: the stack begins at the top. -/
def layoutAndArguments : Check Kernel Unit := do
  let p ← spawn "prog" (sampleImage 2 1) ["prog", "-v"]
  Check.expectWith (p.numPages = 6) "(PROC) num_pages=" [p.numPages]
  Check.expectWith (p.initialSp.value = 320) "(PROC) sp=" [p.initialSp.value.toNat]
  Check.expect (p.argc = 2) "(PROC) argc"
  Check.expect (p.argv = p.initialSp) "(PROC) argv fora da última página"
  let pointers ← readMemory p.number p.argv 8
  Check.expect (pointers.length = 8) "(PROC) leitura argv"
  let first := wordAt pointers 0
  let second := wordAt pointers 4
  Check.expectWith (first = 328 && second = 333) "(PROC) ponteiros=" [first, second]
  Check.expect ((← readText p.number ⟨first.toUInt32⟩ 16) = some "prog") "(PROC) argv[0]"
  Check.expect ((← readText p.number ⟨second.toUInt32⟩ 16) = some "-v") "(PROC) argv[1]"
  let text ← readMemory p.number (address 1 5) 1
  Check.expect (text.length = 1) "(PROC) leitura text"
  Check.expect (text = [0x11]) "(PROC) conteúdo da imagem="

/-- Sections with a hole are refused and touch no memory. -/
def fragmentedImageRefused : Check Kernel Unit := do
  let page : Bytes := List.replicate testPageSize 0xaa
  let pieces := Image.append testPageSize [] ".text" true page
  let pieces := Image.appendAt testPageSize pieces ".data" 5 false page
  let failure ← spawnError "frag" (.ofPieces testPageSize pieces ⟨0⟩) []
  Check.expect (failure = some .invalidImage) "(PROC) imagem fragmentada aceita"
  Check.expect ((← get).freePages = 4) "(PROC) páginas vazaram"
  if let some p := (← get).pager? then
    Check.expect p.swap.pending.isEmpty "(PROC) pending vazou"

def oversizedArgumentsRefused : Check Kernel Unit := do
  let big := String.ofList (List.replicate testPageSize 'x')
  let failure ← spawnError "big" (sampleImage 1 0) [big]
  Check.expect (failure = some .invalidImage) "(PROC) argv grande aceito"
  Check.expect ((← get).freePages = 4) "(PROC) páginas vazaram"

/-- A stack that moves the top past 32 bits is refused. -/
def oversizedLayoutRefused : Check Kernel Unit := do
  let pieces := Image.append testPageSize [] ".data" false (List.replicate testPageSize 0xaa)
  let failure ← spawnError "wrap" (.ofPieces testPageSize pieces ⟨0⟩) ["hi"]
  Check.expect (failure = some .invalidImage) "(PROC) layout de 32 bits aceito"
  Check.expect ((← get).freePages = 4) "(PROC) páginas vazaram"
  let some p := (← get).pager? | throw .failed
  Check.expect p.spaces.isEmpty "(PROC) espaço registrado"
  Check.require p.audit "(PROC) invariantes"

def oversizedMemoryRefused : Check Unit Unit := do
  let large := { demandConfig (1 <<< 20) 2 with pageSize := 1 <<< 13 }
  let refused ← Check.errorOf large.validate
  Check.expect (refused = some .invalidParameter) "(PROC) memória de 33 bits aceita"
  let boot ← Check.errorOf (bootKernel large)
  Check.expect (boot = some .invalidParameter) "(PROC) boot aceitou"
  let limit := { demandConfig (1 <<< 19) 2 with pageSize := 1 <<< 13 }
  Check.require limit.validate "(PROC) 4 GiB exatos recusados"

/-- A copy across three pages with four frames and two cache slots. -/
def crossPageCopy : Check Kernel Unit := do
  let p ← spawn "copy" (sampleImage 1 1) []
  let data : Bytes := (List.range 100).map Nat.toUInt8
  let written ← writeMemory p.number (address 2 30) data
  Check.expect (written = 100) "(PROC) escrita cruzando páginas"
  let back ← readMemory p.number (address 2 30) 100
  Check.expect (back.length = 100) "(PROC) leitura cruzando páginas"
  Check.expect (back = data) "(PROC) conteúdo divergente"
  auditKernel

def readOnlyStopsCopy : Check Kernel Unit := do
  let p ← spawn "ro" (sampleImage 1 1) []
  Check.expect ((← writeMemory p.number (address 0 0) [1, 2, 3]) = 0) "(PROC) escreveu no text"
  let alive := (processOf (← get) p.number).any (!·.terminated)
  Check.expect alive "(PROC) processo morto pela cópia"
  let byte ← readMemory p.number (address 0 0) 1
  Check.expect (byte.length = 1) "(PROC) leitura text"
  Check.expect (byte = [0x10]) "(PROC) text alterado"

def partialReadAtEnd : Check Kernel Unit := do
  let p ← spawn "end" (sampleImage 1 1) []
  let top := p.numPages * testPageSize
  let tail ← readMemory p.number ⟨(top - 20).toUInt32⟩ 32
  Check.expectWith (tail.length = 20) "(PROC) bytes lidos=" [tail.length]
  let outside ← readMemory p.number ⟨top.toUInt32⟩ 32
  Check.expect outside.isEmpty "(PROC) leitura fora"

/-- Static mode takes all frames at the load, and has none for a second process. -/
def staticMode : Check Kernel Unit := do
  Check.expect (← get).pager?.isNone "(PROC) pager no modo estático"
  let p ← spawn "a" (sampleImage 1 1) ["a"]
  let free := (← get).freePages
  Check.expectWith (free = 1) "(PROC) livres=" [free]
  let byte ← readMemory p.number (address 1 0) 1
  Check.expect (byte.length = 1) "(PROC) leitura data"
  Check.expect (byte = [0x80]) "(PROC) data="
  Check.expect ((← writeMemory p.number (address 1 0) [9]) = 1) "(PROC) escrita data"
  Check.expect ((← writeMemory p.number (address 0 0) [9]) = 0) "(PROC) escrita text"
  let argument ← readText p.number ⟨p.argv.value + 4⟩ 8
  Check.expect (argument = some "a") "(PROC) argv"
  let second ← spawnError "b" (sampleImage 1 1) []
  Check.expect (second = some .outOfMemory) "(PROC) segundo processo coube"
  Check.expect ((← get).freePages = 1) "(PROC) OOM vazou páginas"
  exit p.number 0
  Check.expect ((← get).freePages = 6) "(PROC) exit não liberou"

def roundPattern (first : UInt8) (vpn : Vpn) (round : Nat) : Bytes :=
  List.replicate 8 (first + vpn.toUInt8 + round.toUInt8)

def fillPages (p : Process) (first : UInt8) (round : Nat) : Check Kernel Unit :=
  (firstPages p.numPages).forM fun vpn => do
    let n ← writeMemory p.number (address vpn 8) (roundPattern first vpn round)
    Check.expect (n = 8) "(PROC) escrita"

def verifyPages (p : Process) (first : UInt8) (round : Nat) : Check Kernel Unit :=
  (firstPages p.numPages).forM fun vpn => do
    let data ← readMemory p.number (address vpn 8) 8
    Check.expect (data.length = 8) "(PROC) leitura"
    Check.expectWith (data = roundPattern first vpn round) "(PROC) corrompido vpn=" [vpn.toNat]

/-- Two processes compete for three frames. -/
def switchUnderEviction : Check Kernel Unit := do
  let a ← spawn "a" (sampleImage 0 1) []
  let b ← spawn "b" (sampleImage 0 1) []
  Op.total (Kernel.contextSwitch none a.number)
  (List.range 3).forM fun round => do
    fillPages a 0x40 round
    Op.total (Kernel.contextSwitch (some a.number) b.number)
    fillPages b 0xc0 round
    Op.total (Kernel.contextSwitch (some b.number) a.number)
    verifyPages a 0x40 round
    verifyPages b 0xc0 round
  let some p := (← get).pager? | throw .failed
  Check.require p.audit "(PROC) invariantes"
  Check.expect (p.stats.evictions > 0) "(PROC) nenhuma eviction"
  Check.expect (p.stats.swapOuts > 0) "(PROC) nenhum swap-out"
  exit a.number 0
  exit b.number 0
  Check.expect ((← get).freePages = 3) "(PROC) páginas vazaram"
  let some p := (← get).pager? | throw .failed
  Check.expect p.swap.slots.isEmpty "(PROC) slots vazaram"
  Check.expect p.swap.pending.isEmpty "(PROC) pending vazou"
  Check.expect p.spaces.isEmpty "(PROC) espaços vazaram"

def pidsIncrement : Check Kernel Unit := do
  let first ← spawn "a" (sampleImage 1 0) []
  let second ← spawn "b" (sampleImage 1 0) []
  Check.expectWith (second.pid = first.pid + 1) "(PROC) pids=" [first.pid.toNat, second.pid.toNat]

def addressErrorTerminates : Check Kernel Unit := do
  let p ← spawn "bad" (sampleImage 1 1) []
  let byte ← readMemory p.number (address 1 0) 1
  Check.expect (byte.length = 1) "(PROC) leitura"
  let outcome ← Op.total
    (Kernel.onProcess p.number (Hosted.handleException .addressError (address 1 0)))
  Check.expect (outcome ≠ some .success) "(PROC) exceção resolvida"
  let dead := processOf (← get) p.number
  Check.expect (dead.any (·.terminated)) "(PROC) processo vivo"
  Check.expect (dead.any (·.exitStatus = some (-1))) "(PROC) status de saída"
  Check.expect ((← get).freePages = 4) "(PROC) páginas vazaram"
  let after ← readMemory p.number (address 1 0) 1
  Check.expect after.isEmpty "(PROC) leitura pós-exit"

def swapOnDisk (k : Kernel) : Bool := k.pager?.any fun p => (p.swap.file.bind (·.onDisk)).isSome

def shutdownRemovesSwap : Check Kernel Unit := do
  Check.expect (swapOnDisk (← get)) "(PROC) arquivo de swap não criado"
  let p ← spawn "swap" (sampleImage 0 1) []
  (firstPages p.numPages).forM fun vpn => do
    let n ← writeMemory p.number (address vpn 0) (List.replicate 4 (vpn.toUInt8 + 1))
    Check.expect (n = 4) "(PROC) escrita"
  (firstPages p.numPages).forM fun vpn => do
    let data ← readMemory p.number (address vpn 0) 4
    Check.expect (data.length = 4) "(PROC) leitura"
    Check.expectWith (data = List.replicate 4 (vpn.toUInt8 + 1)) "(PROC) swap corrompeu vpn="
      [vpn.toNat]
  let _ ← Op.total (Kernel.discard p.number)
  Op.total Kernel.shutdown
  Check.expect (!swapOnDisk (← get)) "(PROC) arquivo de swap sobreviveu ao shutdown"

def kernelCase (name : String) (c : Config) (check : Check Kernel Unit) : TestCase :=
  Check.toCase name (Check.require (bootKernel c) "(PROC) boot") check

def processTests : List TestCase :=
  [ kernelCase "process_layout_and_argv" (demandConfig 4 2) layoutAndArguments,
    kernelCase "process_fragmented_image_rejected" (demandConfig 4 2) fragmentedImageRefused,
    kernelCase "process_oversized_argv_rejected" (demandConfig 4 2) oversizedArgumentsRefused,
    kernelCase "process_oversized_layout_rejected"
      { demandConfig 4 2 with stackPages := (1 <<< 26) - 1 } oversizedLayoutRefused,
    Check.toCase "process_oversized_memory_rejected" (pure ()) oversizedMemoryRefused,
    kernelCase "process_cross_page_copy" (demandConfig 4 2) crossPageCopy,
    kernelCase "process_readonly_write_stops_copy" (demandConfig 4 2) readOnlyStopsCopy,
    kernelCase "process_partial_read_at_end" (demandConfig 4 2) partialReadAtEnd,
    kernelCase "process_static_mode" { demandConfig 6 2 with mode := .static } staticMode,
    kernelCase "process_switch_under_eviction" (demandConfig 3 2) switchUnderEviction,
    kernelCase "process_pids_increment" (demandConfig 4 2) pidsIncrement,
    kernelCase "process_address_error_terminates" (demandConfig 4 2) addressErrorTerminates,
    kernelCase "process_shutdown_removes_swap"
      { demandConfig 2 2 with swap := .file "self-test.swap" } shutdownRemovesSwap ]

end VirtualMemory.SelfTest
