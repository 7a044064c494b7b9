import VirtualMemory.Kernel

/-!
# A demonstration

Two processes compete for a few frames, so that pages are evicted and come back, while the kernel
switches between them; each finds what it wrote, and both give all memory back.
-/

namespace VirtualMemory.Demo

/-- Fewer frames than the two processes have pages. -/
def physPages : Nat := 6

def dataPages : Nat := 3

def config : Config := { physPages := physPages, swap := .file "demo.swap" }

/-- A program with one page of text, and data pages full of `tag`. -/
def program (pageSize : Nat) (tag : UInt8) : Image :=
  let text : Bytes := List.replicate pageSize 0x90
  let data : Bytes := List.replicate (dataPages * pageSize) tag
  let pieces := Image.append pageSize [] ".text" true text
  .ofPieces pageSize (Image.append pageSize pieces ".data" false data) ⟨0⟩

/-- The byte that a process writes all over one of its data pages. -/
def pattern (p : Process) (vpn : Nat) : UInt8 := p.pid.toUInt8 * 0x10 + vpn.toUInt8

/-- Does `step` for the data pages, until one fails; answers whether none did. -/
def everyPage (step : Nat → Op Kernel Empty Bool) : List Nat → Op Kernel Empty Bool
  | [] => return true
  | vpn :: rest => do
    if ← step vpn then everyPage step rest else return false

def dataVpns : List Nat := List.range' 1 dataPages

def fill (p : Process) : Op Kernel Empty Bool :=
  everyPage (fun vpn => do
    let data : Bytes := List.replicate p.pageSize (pattern p vpn)
    let n ← Kernel.onProcess p.number (Hosted.writeMemory ⟨(vpn * p.pageSize).toUInt32⟩ data)
    if n = some p.pageSize then return true
    Op.notify (.report .error "(DEMO) escrita incompleta pid/vpn=" [p.pid.toNat, vpn])
    return false) dataVpns

def verify (p : Process) : Op Kernel Empty Bool :=
  everyPage (fun vpn => do
    let expected : Bytes := List.replicate p.pageSize (pattern p vpn)
    let data ← Kernel.onProcess p.number
      (Hosted.readMemory ⟨(vpn * p.pageSize).toUInt32⟩ p.pageSize)
    if data = some expected then return true
    Op.notify (.report .error "(DEMO) conteúdo divergente pid/vpn=" [p.pid.toNat, vpn])
    return false) dataVpns

def terminated (k : Kernel) (number : Nat) : Bool := (k.processes.get? number).any (·.terminated)

def workload : Op Kernel MemoryError Bool := do
  let pageSize := (← get).config.pageSize
  let init ← Kernel.spawn "init" (program pageSize 0xa0) ["init"]
  let shell ← Kernel.spawn "shell" (program pageSize 0xb0) ["shell", "-i"]
  Op.total (Kernel.contextSwitch none init.number)
  let initFilled ← Op.total (fill init)
  Op.total (Kernel.contextSwitch (some init.number) shell.number)
  let shellFilled ← Op.total (fill shell)
  Op.total (Kernel.contextSwitch (some shell.number) init.number)
  let initIntact ← Op.total (verify init)
  Op.total (Kernel.contextSwitch (some init.number) shell.number)
  let shellIntact ← Op.total (verify shell)
  let argument ← Op.total
    (Kernel.onProcess shell.number (Hosted.readText ⟨shell.argv.value + 8⟩ 16))
  let named := argument.join = some "shell"
  if !named then
    Op.notify (.report .error "(DEMO) argv[0] ilegível" [])
  if let some snapshot := (← get).stats? then
    snapshot.report.forM Op.notify
  let _ ← Op.total (Kernel.onProcess init.number (Hosted.exit 0))
  let _ ← Op.total (Kernel.onProcess shell.number (Hosted.exit 0))
  let k ← get
  let released := terminated k init.number && terminated k shell.number && k.freePages == physPages
  return initFilled && shellFilled && initIntact && shellIntact && named && released

def runAndShutdown : Op Kernel Empty Bool := do
  let ok ← match ← Op.attempt workload with
    | .ok ok => pure ok
    | .error e => do
      Op.notify (.report .error "(DEMO) Falha ao criar processo" [])
      Op.notify (.cause e)
      pure false
  Kernel.shutdown
  if ok then
    Op.notify (.report .ok "(DEMO) Workload concluído" [])
  else
    Op.notify (.report .error "(DEMO) Workload falhou" [])
  return ok

/-- Boots a machine and runs the demonstration on it; answers whether all went well. -/
def run (host : String → HostPath) (entropy : UInt64) : Op Unit Empty Bool := do
  match ← Op.attempt (Kernel.boot host config entropy) with
  | .error e =>
    Op.notify (.report .error "(BOOT) Falha no boot" [])
    Op.notify (.cause e)
    return false
  | .ok k =>
    let (ok, _) ← Op.apart k runAndShutdown
    return ok

end VirtualMemory.Demo
