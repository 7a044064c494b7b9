import VirtualMemory.Address
import VirtualMemory.Error
import VirtualMemory.Text.Lines

/-!
# Notices

What the machine reports while it works. A notice names its cause; `Notice.level`, `Notice.text`
and `Notice.values` are its wording, and `Notice.line` what is written for it: the coloured tag of
the level, the text, and the values in hexadecimal with one blank between them. A text may have
line feeds of its own; `Notice.lines` are the lines that a console shows.

A division by zero, or a buffer that is too large for any memory, stops the program. Here that is a
notice too, so that no operation needs a third way to end: an outcome with such a notice is that of
a program that has stopped, and nobody sees its result and its state.
-/

namespace VirtualMemory

inductive Level
  | error
  | warning
  | info
  | ok
  | failure
  deriving DecidableEq, Repr

/-- The coloured tag that opens a line. -/
def Level.tag : Level → String
  | .error => "\x1b[1;31m[ERRO]\x1b[0m "
  | .warning => "\x1b[1;33m[WARN]\x1b[0m "
  | .info => "\x1b[32m[INFO]\x1b[0m "
  | .ok => "\x1b[32m[OK]\x1b[0m "
  | .failure => "\x1b[1;31m[FAIL]\x1b[0m "

def consoleLine (tag text : String) (values : List Nat) : String :=
  tag ++ text ++ " ".intercalate (values.map hexText)

inductive Halt
  | divisionByZero
  | bufferTooLarge
  deriving DecidableEq

def Halt.text : Halt → String
  | .divisionByZero => "attempt to divide by zero"
  | .bufferTooLarge => "capacity overflow"

inductive Notice
  | halted (reason : Halt)
  -- configuration
  | pageSizeRejected (pageSize : Nat)
  | noFrames
  | noTlbSlots
  | memoryTooLarge (pages : Nat)
  -- page table and frames
  | frameOwned (ppn : Ppn) (owner : Pid)
  | insertDuplicated (key : PageKey)
  | updateOntoOwnedFrame (key : PageKey) (ppn : Ppn)
  | ownerMismatch (key : PageKey) (ppn : Ppn)
  | reverseMapDiverges (valid resident : Nat)
  | frameReleasedTwice (ppn : Ppn)
  -- swap
  | swapFileCreation
  | swapFileNotCreated
  | untrackedSwapRead (key : PageKey)
  | swapReadFailed (slot : Nat)
  | swapWriteFailed (slot : Nat)
  | swapFileNotRemoved
  | swapShut (slotsUsed : Nat)
  | swapSlotMisused (slot : Nat)
  | pendingPageWithSlot (key : PageKey)
  | freeSlotReferenced (slot : Nat)
  -- loader
  | imageFragmented (expected found : Vpn)
  | argumentsTooLarge (bytes : Nat)
  | addressSpaceTooLarge (stackPages : Nat)
  -- pager
  | processorMismatch (tlbSize pageSize : Nat)
  | memoryMismatch (pages : Nat)
  | pagerReady (pages tlbSize : Nat)
  | spaceRegistered (pid : Pid)
  | teardownInconsistent (ppn : Ppn)
  | partitionBroken (free resident : Nat)
  | frameNeitherFreeNorResident (ppn : Ppn)
  | tlbSlotOrphaned (index : Nat) (asid : Pid) (vpn : Vpn)
  | addressOutsideSpace (pid : Pid) (vaddr : VirtAddr)
  | releaseInconsistent (ppn : Ppn)
  | faultUnresolved
  | refillWithoutSlots (key : PageKey)
  | replacedSlotUnmapped (key : PageKey)
  | nothingToEvict
  | savedSlotUnmapped (key : PageKey)
  -- static mapping
  | framesInsufficient (pid : Pid) (pages : Nat)
  | missWithoutTlb (pid : Pid) (vaddr : VirtAddr)
  | staticReleaseInconsistent (ppn : Ppn)
  -- processes
  | processLoaded (pid : Pid) (pages : Nat)
  | exceptionUnhandled (pid : Pid) (vaddr : VirtAddr)
  | faultsExhausted (pid : Pid) (vaddr : VirtAddr)
  | processTerminated (pid : Pid)
  -- kernel
  | bootStarted
  | staticMode
  | demandMode
  | memoryReady
  | shutdownComplete
  /-- The wording of an error, as a line of its own. -/
  | cause (error : MemoryError)
  /-- A line of a test suite, of the statistics or of a program. -/
  | report (level : Level) (text : String) (values : List Nat)
  deriving DecidableEq

namespace Notice

def parts : Notice → Level × String × List Nat
  | halted reason => (.error, reason.text, [])
  | pageSizeRejected n => (.error, "(MM) page_size precisa ser potência de 2:", [n])
  | noFrames => (.error, "(MM) Memória física vazia", [])
  | noTlbSlots => (.error, "(MM) TLB sem slots", [])
  | memoryTooLarge n => (.error, "(MM) Memória física maior que 32 bits páginas=", [n])
  | frameOwned ppn owner =>
    (.error, "(RMAP) ppn já tem outro dono ppn/pid=", [ppn.toNat, owner.toNat])
  | insertDuplicated key =>
    (.warning, "(PT) insert duplicado pid/vpn=", [key.pid.toNat, key.vpn.toNat])
  | updateOntoOwnedFrame key ppn =>
    (.error, "(PT) update para ppn de outro dono pid/vpn/ppn=",
      [key.pid.toNat, key.vpn.toNat, ppn.toNat])
  | ownerMismatch key ppn =>
    (.error, "(PT) ppn sem dono correto pid/vpn/ppn=", [key.pid.toNat, key.vpn.toNat, ppn.toNat])
  | reverseMapDiverges valid resident =>
    (.error, "(PT) reverse map diverge valid/resident=", [valid, resident])
  | frameReleasedTwice ppn => (.error, "(PMM) Double free ppn=", [ppn.toNat])
  | swapFileCreation => (.info, "(SWAP) Criando arquivo de swap", [])
  | swapFileNotCreated => (.error, "(SWAP) Falha ao criar arquivo de swap", [])
  | untrackedSwapRead key =>
    (.warning, "(SWAP) Leitura de página sem slot pid/vpn=", [key.pid.toNat, key.vpn.toNat])
  | swapReadFailed slot => (.error, "(SWAP) Falha de leitura slot=", [slot])
  | swapWriteFailed slot => (.error, "(SWAP) Falha de escrita slot=", [slot])
  | swapFileNotRemoved => (.warning, "(SWAP) Falha ao remover arquivo de swap", [])
  | swapShut n => (.info, "(SWAP) Fechado, slots usados=", [n])
  | swapSlotMisused slot => (.error, "(SWAP) slot duplicado ou fora do arquivo=", [slot])
  | pendingPageWithSlot key =>
    (.error, "(SWAP) página pending com slot pid/vpn=", [key.pid.toNat, key.vpn.toNat])
  | freeSlotReferenced slot => (.error, "(SWAP) slot livre ainda referenciado=", [slot])
  | imageFragmented expected found =>
    (.error, "(LOADER) Executável fragmentado, vpn esperada/achada=",
      [expected.toNat, found.toNat])
  | argumentsTooLarge n => (.error, "(LOADER) Argumentos maiores que uma página bytes=", [n])
  | addressSpaceTooLarge n =>
    (.error, "(LOADER) Espaço de endereçamento maior que 32 bits pilha=", [n])
  | processorMismatch tlbSize pageSize =>
    (.error, "(PAGER) Processador incompatível tlb/page_size=", [tlbSize, pageSize])
  | memoryMismatch n => (.error, "(PAGER) Memória incompatível páginas=", [n])
  | pagerReady pages tlbSize => (.info, "(PAGER) Inicializado, páginas/tlb=", [pages, tlbSize])
  | spaceRegistered pid => (.warning, "(PAGER) Espaço já registrado pid=", [pid.toNat])
  | teardownInconsistent ppn => (.error, "(PAGER) teardown com ppn inconsistente=", [ppn.toNat])
  | partitionBroken free resident =>
    (.error, "(PAGER) partição quebrada livres/residentes=", [free, resident])
  | frameNeitherFreeNorResident ppn =>
    (.error, "(PAGER) ppn livre e residente (ou nenhum)=", [ppn.toNat])
  | tlbSlotOrphaned index asid vpn =>
    (.error, "(PAGER) slot de TLB órfão slot/asid/vpn=", [index, asid.toNat, vpn.toNat])
  | addressOutsideSpace pid vaddr =>
    (.warning, "(FAULT) Endereço fora do espaço pid/vaddr=", [pid.toNat, vaddr.value.toNat])
  | releaseInconsistent ppn => (.error, "(FAULT) release inconsistente ppn=", [ppn.toNat])
  | faultUnresolved => (.error, "(FAULT) Fault irrecuperável", [])
  | refillWithoutSlots key =>
    (.error, "(TLB) TLB sem slots, refill ignorado pid/vpn=", [key.pid.toNat, key.vpn.toNat])
  | replacedSlotUnmapped key =>
    (.warning, "(TLB) slot sem entrada na tabela asid/vpn=", [key.pid.toNat, key.vpn.toNat])
  | nothingToEvict => (.error, "(EVICT) OOM: nenhuma página residente para evictar", [])
  | savedSlotUnmapped key =>
    (.warning, "(CTX) entrada de TLB sem tabela pid/vpn=", [key.pid.toNat, key.vpn.toNat])
  | framesInsufficient pid pages =>
    (.error, "(STATIC) Memória insuficiente pid/páginas=", [pid.toNat, pages])
  | missWithoutTlb pid vaddr =>
    (.error, "(STATIC) miss de TLB sem TLB pid/vaddr=", [pid.toNat, vaddr.value.toNat])
  | staticReleaseInconsistent ppn => (.error, "(STATIC) ppn inconsistente=", [ppn.toNat])
  | processLoaded pid pages => (.info, "(PROC) Carregado pid/páginas=", [pid.toNat, pages])
  | exceptionUnhandled pid vaddr =>
    (.warning, "(PROC) Exceção não tratada pid/vaddr=", [pid.toNat, vaddr.value.toNat])
  | faultsExhausted pid vaddr =>
    (.error, "(PROC) Faults demais na mesma página pid/vaddr=", [pid.toNat, vaddr.value.toNat])
  | processTerminated pid => (.info, "(PROC) Terminado pid=", [pid.toNat])
  | bootStarted => (.info, "(BOOT) Inicializando máquina simulada...", [])
  | staticMode => (.info, "(BOOT) Modo: mapeamento estático", [])
  | demandMode => (.info, "(BOOT) Modo: paginação sob demanda", [])
  | memoryReady => (.ok, "(BOOT) Memória pronta", [])
  | shutdownComplete => (.info, "(BOOT) Shutdown completo", [])
  | cause error => (.error, error.message, [])
  | report level text values => (level, text, values)

def level (n : Notice) : Level := n.parts.1

def text (n : Notice) : String := n.parts.2.1

def values (n : Notice) : List Nat := n.parts.2.2

/-- What is written for a notice, before its line break. -/
def line (n : Notice) : String := consoleLine n.level.tag n.text n.values

def lines (n : Notice) : List String := Lines.ofText n.line

def isHalt : Notice → Bool
  | halted _ => true
  | _ => false

end Notice

end VirtualMemory
