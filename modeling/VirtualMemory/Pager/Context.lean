import VirtualMemory.Pager.Fault

/-!
# Context switches

When a process leaves the processor its cached entries are kept aside and the table learns
what they saw. When it comes back, those whose page still has the same frame are cached again.
-/

namespace VirtualMemory.Pager

/-- Sets the entries kept aside for a process that has a space. -/
def setSnapshot (p : Pager) (pid : Pid) (entries : List Entry) : Pager :=
  { p with spaces := p.spaces.modify pid fun space => { space with snapshot := entries } }

/-- Takes the entries of a process out of the cache and keeps them aside. -/
def saveContext (pid : Pid) : Op Pager Empty Unit := do
  let flushed ← modifyGet fun p =>
    let (flushed, t) := p.tlb.invalidateAsid pid
    (flushed, p.setTlb t.countContextFlush)
  flushed.forM fun entry => mergeBack ⟨pid, entry.vpn⟩ entry (.savedSlotUnmapped ⟨pid, entry.vpn⟩)
  modify fun p => p.setSnapshot pid flushed
  count .contextSaves

/-- Caches a kept entry again if its page still has that frame. -/
def reinstall (pid : Pid) (saved : Entry) : Op Pager Empty Unit := do
  if let some current := (← get).table.lookupValid ⟨pid, saved.vpn⟩ then
    if current.ppn = saved.ppn then
      refill pid current

/-- Puts the entries that were kept aside for a process back into the cache. -/
def restoreContext (pid : Pid) : Op Pager Empty Unit := do
  let some space := (← get).spaces.get? pid | return
  modify fun p => p.setSnapshot pid []
  space.snapshot.forM (reinstall pid)

end VirtualMemory.Pager
