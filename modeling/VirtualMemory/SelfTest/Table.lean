import VirtualMemory.SelfTest.Fixture

/-!
# Self tests of the page table
-/

namespace VirtualMemory.SelfTest

def validEntry (vpn : Vpn) (ppn : Ppn) : Entry := ⟨vpn, ppn, { valid := true }⟩

def singleOwner : Check PageTable Unit := do
  Check.require (PageTable.insert ⟨1, 0⟩ (validEntry 0 2)) "(PT) insert inicial"
  let second ← Check.errorOf (PageTable.insert ⟨2, 7⟩ (validEntry 7 2))
  Check.expect (second = some .alreadyMapped) "(PT) ppn aceitou segundo dono"
  Check.expect ((← get).lookup ⟨2, 7⟩).isNone "(PT) entrada rejeitada ficou na tabela"
  Check.require (PageTable.insert ⟨2, 7⟩ (validEntry 7 3)) "(PT) insert em ppn livre"
  let moved ← Check.errorOf (PageTable.update ⟨2, 7⟩ (validEntry 7 2))
  Check.expect (moved = some .alreadyMapped) "(PT) update roubou ppn"
  Check.expect ((← get).owner? 3 = some ⟨2, 7⟩) "(PT) dono original perdido"
  Check.require (← get).audit "(PT) consistência"

/-- Draws a victim so many times; it is always resident, under its owner. -/
def drawVictims (t : PageTable) : Nat → Draws → Check PageTable Unit
  | 0, _ => return
  | n + 1, draws => do
    let (victim, draws) := t.pickVictim draws
    let some (key, entry) := victim
      | Op.notify (.report .error "(PT) sem vítima com residentes" [])
        throw .failed
    Check.expect entry.valid "(PT) vítima inválida"
    Check.expectWith (key.vpn != 1 && key.vpn != 4 && key.vpn != 6)
      "(PT) vítima removida vpn=" [key.vpn.toNat]
    Check.expect (t.owner? entry.ppn = some key) "(PT) dono divergente"
    drawVictims t n draws

def victimIsResident : Check PageTable Unit := do
  let draws := Draws.seeded testSeed
  Check.expect ((← get).pickVictim draws).1.isNone "(PT) vítima numa tabela vazia"
  (firstPages 8).forM fun ppn =>
    Check.require (PageTable.insert ⟨ppn % 3, ppn⟩ (validEntry ppn ppn)) "(PT) insert"
  [1, 4, 6].forM fun vpn => do
    let _ ← Check.require (PageTable.remove ⟨vpn % 3, vpn⟩) "(PT) remove"
  drawVictims (← get) 64 draws

def updateMergesHardwareBits : Check PageTable Unit := do
  Check.require (PageTable.insert ⟨1, 0⟩ (validEntry 0 1).setDirty) "(PT) insert"
  Check.require (PageTable.update ⟨1, 0⟩ (validEntry 0 1)) "(PT) update limpo"
  let entry := ((← get).lookup ⟨1, 0⟩).getD .invalid
  Check.expect entry.dirty "(PT) update apagou DIRTY"
  Check.expect (!entry.used) "(PT) USED surgiu do nada"

def tableTests : List TestCase :=
  [ Check.toCase "table_single_owner" (pure (.empty 4)) singleOwner,
    Check.toCase "table_victim_is_resident" (pure (.empty 8)) victimIsResident,
    Check.toCase "table_update_merges_hw_bits" (pure (.empty 2)) updateMergesHardwareBits ]

end VirtualMemory.SelfTest
