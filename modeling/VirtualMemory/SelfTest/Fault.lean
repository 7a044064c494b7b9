import VirtualMemory.SelfTest.Fixture

/-!
# Self tests of faults and eviction
-/

namespace VirtualMemory.SelfTest

def brokenImage : Image := .scripted [⟨".data", 0, 1, false⟩] [((0, 0), .invalidImage)] ⟨0⟩

def registerImage (pid : Pid) (numPages : Nat) (image : Image) : Check Pager Unit := do
  let index ← Check.require (ImageIndex.ofImage image) "(FAULT) imagem"
  Check.require (Pager.registerSpace pid numPages (some index)) "(FAULT) register_space"

def registerBare (pid : Pid) (numPages : Nat) : Check Pager Unit :=
  Check.require (Pager.registerSpace pid numPages none) "(FAULT) register_space"

def miss (pid : Pid) (vpn : Vpn) (text : String) : Check Pager Entry :=
  Check.require (Pager.handleMiss pid (address vpn 0)) text

def accessRead (pid : Pid) (vaddr : VirtAddr) (length : Nat) :
    Check Pager (Except FaultResult Bytes) :=
  Op.attempt (Pager.accessRead pid vaddr length)

def accessWrite (pid : Pid) (vaddr : VirtAddr) (data : Bytes) :
    Check Pager (Except FaultResult Nat) :=
  Op.attempt (Pager.accessWrite pid vaddr data)

def countOf (answer : Except FaultResult Nat) : Option Nat := answer.toOption

def bytesOf (answer : Except FaultResult Bytes) : Option Bytes := answer.toOption

def entryOf (p : Pager) (pid : Pid) (vpn : Vpn) : Entry := (p.table.lookup ⟨pid, vpn⟩).getD .invalid

def auditPager : Check Pager Unit := do Check.require (← get).audit "(FAULT) invariantes"

/-- The first touch of an image page brings its contents, clean. -/
def firstTouchFromImage : Check Pager Unit := do
  registerImage 1 4 (sampleImage 1 1)
  let text ← miss 1 0 "(FAULT) miss .text"
  Check.expect (text.valid && text.readOnly) "(FAULT) .text sem READ_ONLY"
  Check.expect (!text.dirty) "(FAULT) página da imagem nasceu dirty"
  let data ← miss 1 1 "(FAULT) miss .data"
  Check.expect (!data.readOnly && !data.dirty) "(FAULT) .data com flags erradas"
  let page ← Check.require (Op.ofExcept ((← get).memory.readPage data.ppn testPageSize))
    "(FAULT) read_page"
  Check.expect (page.all (· == 0x80)) "(FAULT) conteúdo da imagem errado"
  let stats := (← get).stats
  Check.expectWith (stats.imageLoads = 2) "(FAULT) image_loads=" [stats.imageLoads]
  Check.expect (stats.swapIns = 0) "(FAULT) swap_ins no primeiro toque"
  auditPager

/-- With all frames taken, one more fault evicts one page. -/
def onePageTooMany : Check Pager Unit := do
  registerBare 1 5
  (firstPages 4).forM fun vpn => do
    let _ ← miss 1 vpn "(FAULT) miss"
  Check.expect ((← get).freePages = 0) "(FAULT) páginas livres sobrando"
  Check.expect ((← get).stats.evictions = 0) "(FAULT) eviction antes de esgotar"
  let _ ← miss 1 4 "(FAULT) miss N+1"
  let p ← get
  Check.expectWith (p.stats.evictions = 1) "(FAULT) evictions=" [p.stats.evictions]
  Check.expectWith (p.residentPages = 4) "(FAULT) residentes=" [p.residentPages]
  Check.expect (p.stats.swapOuts = 0) "(FAULT) página limpa foi para o swap"
  auditPager

/-- A dirty page comes back with what was written; a clean page is not written out. -/
def dirtyRoundTrip : Check Pager Unit := do
  registerBare 1 2
  let pattern : Bytes := (List.range 16).map fun i => i.toUInt8 ^^^ 0x5a
  let written ← accessWrite 1 (address 0 8) pattern
  Check.expect (countOf written = some 16) "(FAULT) escrita inicial"
  let _ ← miss 1 1 "(FAULT) miss vpn 1"
  Check.expect ((← get).stats.swapOuts = 1) "(FAULT) dirty não foi para o swap"
  Check.expect ((← get).table.lookup ⟨1, 0⟩).isNone "(FAULT) vítima continua na tabela"
  let back ← accessRead 1 (address 0 8) 16
  Check.expect ((bytesOf back).isSome) "(FAULT) releitura"
  Check.expect (bytesOf back = some pattern) "(FAULT) conteúdo perdido no swap"
  let stats := (← get).stats
  Check.expectWith (stats.swapOuts = 1) "(FAULT) página limpa gravada, swap_outs=" [stats.swapOuts]
  Check.expectWith (stats.swapIns = 1) "(FAULT) swap_ins=" [stats.swapIns]
  Check.expectWith (stats.evictions = 2) "(FAULT) evictions=" [stats.evictions]
  auditPager

def evictedPageLeavesTlb : Check Pager Unit := do
  registerBare 1 3
  registerBare 2 3
  let _ ← miss 1 0 "(FAULT) miss pid 1"
  let _ ← miss 2 0 "(FAULT) miss pid 2"
  Check.expect ((← get).tlb.find 1 0).isSome "(FAULT) refill pid 1"
  let _ ← Check.require (Pager.evictPage ⟨1, 0⟩) "(FAULT) evict"
  Check.expect ((← get).tlb.find 1 0).isNone "(FAULT) TLB com página evictada"
  Check.expect ((← get).tlb.find 2 0).isSome "(FAULT) eviction tocou outro pid"
  let again ← Op.attempt (Pager.translate 1 (address 0 0) .read)
  let missed := match again with
    | .error .tlbMiss => true
    | _ => false
  Check.expect missed "(FAULT) tradução sem miss após eviction"
  auditPager

def readOnlyWrite : Check Pager Unit := do
  let index ← Check.require (ImageIndex.ofImage (sampleImage 1 0)) "(FAULT) imagem"
  Check.require (Pager.load 1 ⟨2, index⟩) "(FAULT) load"
  let read ← accessRead 1 (address 0 0) 1
  Check.expect (bytesOf read = some [0x10]) "(FAULT) leitura de .text"
  let refused := match ← accessWrite 1 (address 0 0) [0x10] with
    | .error .protectionViolation => true
    | _ => false
  Check.expect refused "(FAULT) escrita em .text aceita"
  let handled ← Op.total (Pager.handleFault 1 (address 0 0) .readOnly)
  Check.expect (handled = .protectionViolation) "(FAULT) handle_fault ReadOnly"
  Check.expect (!(entryOf (← get) 1 0).dirty) "(FAULT) escrita rejeitada sujou a página"

def outOfBounds : Check Pager Unit := do
  registerBare 1 2
  let outside ← Check.errorOf (Pager.handleMiss 1 (address 2 0))
  Check.expect (outside = some .invalidAddress) "(FAULT) miss fora do espaço"
  let unknown ← Check.errorOf (Pager.handleMiss 9 (address 0 0))
  Check.expect (unknown = some .invalidAddress) "(FAULT) miss de pid desconhecido"
  let raised := match ← Op.attempt (Pager.translate 1 (address 7 0) .read) with
    | .error .addressError => true
    | _ => false
  Check.expect raised "(FAULT) tradução fora do espaço"
  Check.expect ((← get).freePages = 2) "(FAULT) página alocada para endereço inválido"

def noVictim : Check Pager Unit := do
  let taken ← Pager.takeFrame
  Check.expect taken.isSome "(FAULT) página inicial"
  let evicted ← Check.errorOf Pager.evictOne
  Check.expect (evicted = some .outOfMemory) "(FAULT) eviction sem residentes"
  let acquired ← Check.errorOf Pager.acquireFrame
  Check.expect (acquired = some .outOfMemory) "(FAULT) acquire sem vítima"

/-- A clean image page comes back from the image, not from swap. -/
def cleanImagePageReloads : Check Pager Unit := do
  registerImage 1 2 (sampleImage 0 2)
  let first ← accessRead 1 (address 0 5) 1
  Check.expect (bytesOf first).isSome "(FAULT) leitura vpn 0"
  let second ← accessRead 1 (address 1 5) 1
  Check.expect (bytesOf second).isSome "(FAULT) leitura vpn 1"
  let again ← accessRead 1 (address 0 5) 1
  Check.expect (bytesOf again).isSome "(FAULT) releitura vpn 0"
  Check.expect (bytesOf again = some [0x80]) "(FAULT) conteúdo recarregado="
  let stats := (← get).stats
  Check.expectWith (stats.imageLoads = 3) "(FAULT) image_loads=" [stats.imageLoads]
  Check.expect (stats.swapOuts = 0 && stats.swapIns = 0) "(FAULT) swap usado para página limpa"

def imageErrorReleasesFrame : Check Pager Unit := do
  registerImage 1 2 brokenImage
  (List.range 3).forM fun _ => do
    let failure ← Check.errorOf (Pager.handleMiss 1 (address 0 0))
    Check.expect (failure = some .invalidImage) "(FAULT) leitura quebrada aceita"
    let free := (← get).freePages
    Check.expectWith (free = 2) "(FAULT) página vazou livres=" [free]
  Check.expect ((← get).table.lookup ⟨1, 0⟩).isNone "(FAULT) entrada inserida"
  auditPager
  let stack ← Check.errorOf (Pager.handleMiss 1 (address 1 0))
  Check.expect stack.isNone "(FAULT) pilha não carregou"

/-- The failure, if any, of making a pager over a fresh swap in memory. -/
def pagerRefused (c : Config) (tlbSize : Nat) : Check Unit (Option MemoryError) := do
  let swap ← Check.require (Swapper.openBacking anyPath .memory testPageSize) "(FAULT) swap"
  Check.errorOf (Pager.ofSwap c 0 (.new tlbSize testPageSize) (.zeroed 2 testPageSize) swap)

def badProcessorRefused : Check Unit Unit := do
  let empty ← pagerRefused (demandConfig 2 2) 0
  Check.expect (empty = some .invalidParameter) "(FAULT) TLB vazio aceito"
  let invalid ← pagerRefused (demandConfig 2 0) 2
  Check.expect (invalid = some .invalidParameter) "(FAULT) config inválida aceita"
  let valid ← pagerRefused (demandConfig 2 2) 2
  Check.expect valid.isNone "(FAULT) pager válido"

def pagerCase (name : String) (physPages tlbSize : Nat) (check : Check Pager Unit) : TestCase :=
  Check.toCase name (Check.require (newPager physPages tlbSize) "(FAULT) pager") check

def faultTests : List TestCase :=
  [ pagerCase "fault_first_touch_from_image_is_clean" 4 2 firstTouchFromImage,
    pagerCase "fault_n_plus_one_evicts_once" 4 2 onePageTooMany,
    pagerCase "fault_dirty_evict_round_trip" 1 2 dirtyRoundTrip,
    pagerCase "fault_evicted_page_leaves_tlb" 2 4 evictedPageLeavesTlb,
    pagerCase "fault_readonly_write_rejected" 4 2 readOnlyWrite,
    pagerCase "fault_out_of_bounds" 2 2 outOfBounds,
    pagerCase "fault_no_victim_is_oom" 1 1 noVictim,
    pagerCase "fault_clean_image_page_reloads" 1 1 cleanImagePageReloads,
    pagerCase "fault_image_error_releases_page" 2 2 imageErrorReleasesFrame,
    Check.toCase "fault_pager_rejects_bad_processor" (pure ()) badProcessorRefused ]

end VirtualMemory.SelfTest
