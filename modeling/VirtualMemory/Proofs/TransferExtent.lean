import VirtualMemory.Proofs.Pager.Translation
import VirtualMemory.Proofs.StaticOwnership

/-!
# How far a transfer reaches

A transfer starts in the frame of its page and goes on through memory until the buffer is used up or
memory ends. It is not cut at the end of the page: it stays inside exactly if the page has room for
the buffer, or no frame follows. Whoever owns the next frame is read or overwritten otherwise.
-/

namespace VirtualMemory

namespace Pager

variable {p : Pager} {c : Config} {pid : Pid} {vaddr : VirtAddr}

structure Transfers (p : Pager) (pid : Pid) (vaddr : VirtAddr) : Prop where
  pageSize : p.memory.pageSize = p.pageSize
  reads : ∀ length, (read pid vaddr length).Ends p fun r p' => p'.memory = p.memory ∧
    ∀ data, r = .ok data → ∃ e, p.table.lookupValid (p.pageOf pid vaddr) = some e ∧
      p.memory.ReadFrom e.ppn (vaddr.offset p.pageSize) length data
  writes : ∀ data, (write pid vaddr data).Ends p fun r p' =>
    match r with
    | .ok n => ∃ e, p.table.lookupValid (p.pageOf pid vaddr) = some e ∧
        p.memory.WrittenFrom p'.memory e.ppn (vaddr.offset p.pageSize) data n ∧
        (n ≤ p.pageSize - vaddr.offset p.pageSize → ∀ k, k ≠ p.pageOf pid vaddr →
          ∀ o < p.pageSize, p'.byte k o = p.byte k o)
    | .error _ => p'.memory = p.memory

/-- A write that stays inside its frame changes no other page, wherever that is. -/
theorem byte_written_other (h : p.WellFormed none) {key k : PageKey} {ppn : Ppn} {offset n : Nat}
    {data : Bytes} {m : PhysicalMemory} (hf : p.frame? key = some ppn)
    (hw : p.memory.WrittenFrom m ppn offset data n) (ho : offset < p.memory.pageSize)
    (hin : n ≤ p.memory.pageSize - offset) (hk : k ≠ key) {o : Nat} (hlt : o < p.pageSize) :
    byte { p with memory := m } k o = p.byte k o := by
  have hmoved : ({ p with memory := m } : Pager).frame? k = p.frame? k := rfl
  rw [byte, byte, hmoved]
  cases hframe : p.frame? k with
  | none => rfl
  | some q =>
    have hne : q ≠ ppn := by
      rintro rfl
      have howner := h.owner_of_frame? hframe
      rw [h.owner_of_frame? hf] at howner
      exact hk (Option.some.inj howner).symm
    have hother := hw.other hin ho hne (h.sized.memory.symm ▸ hlt)
    rw [h.sized.memory] at hother
    exact hother

theorem WellFormed.transfers (h : p.WellFormed none) (pid : Pid) (vaddr : VirtAddr) :
    p.Transfers pid vaddr := by
  have ho : vaddr.offset p.pageSize < p.memory.pageSize :=
    h.sized.memory ▸ h.sized.geometry.offset_lt vaddr
  have hends := fun access => (translate_ends h).and (translate_locates h pid vaddr access)
  refine ⟨h.sized.memory, ?_, ?_⟩
  · intro length
    simp only [read, Op.ends_bind]
    refine (hends .read).imp ?_
    rintro r p' ⟨⟨cause, rfl, hsame⟩ | ⟨cached, hc, -, rfl, rfl⟩, hlocates⟩
    · refine ⟨hsame.memory, ?_⟩
      rintro data ⟨⟩
    · obtain ⟨e, hl⟩ := hlocates _ rfl
      simp only [Op.ends_get, Op.ends_pure]
      refine ⟨rfl, ?_⟩
      rintro data ⟨⟩
      exact ⟨e, hl.entry, PhysicalMemory.readFrom_read h.sized.whole (hl.lt h) ho
        (hl.address_eq h) length⟩
  · intro data
    simp only [write, Op.ends_bind]
    refine (hends .write).imp ?_
    rintro r p' ⟨⟨cause, rfl, hsame⟩ | ⟨cached, hc, hro, rfl, rfl⟩, hlocates⟩
    · exact hsame.memory
    · obtain ⟨e, hl⟩ := hlocates _ rfl
      have hwritten := PhysicalMemory.writtenFrom_write h.sized.whole (hl.lt h) ho
        (hl.address_eq h) data
      have hframe := frame?_of_cached h hc
      simp only [Op.ends_modifyGet]
      refine ⟨e, hl.entry, hwritten, ?_⟩
      intro hin k hk o hlt
      refine byte_written_other (h.touched hc hro) hl.frame? hwritten ho ?_ hk hlt
      exact h.sized.memory.symm ▸ hin

end Pager

namespace StaticMachine

variable {m : StaticMachine} {c : Config} {mapping : Nat} {vaddr : VirtAddr}

structure Transfers (m : StaticMachine) (mapping : Nat) (vaddr : VirtAddr) : Prop where
  reads : ∀ length, (read mapping vaddr length).Ends m fun r m' => m'.memory = m.memory ∧
    ∀ data, r = .ok data →
      ∃ e, m.entry? mapping (vaddr.vpn m.memory.pageSize) = some e ∧ e.valid = true ∧
        m.memory.ReadFrom e.ppn (vaddr.offset m.memory.pageSize) length data
  writes : ∀ data, (write mapping vaddr data).Ends m fun r m' =>
    match r with
    | .ok n => ∃ e, m.entry? mapping (vaddr.vpn m.memory.pageSize) = some e ∧ e.valid = true ∧
        m.memory.WrittenFrom m'.memory e.ppn (vaddr.offset m.memory.pageSize) data n ∧
        (n ≤ m.memory.pageSize - vaddr.offset m.memory.pageSize →
          ∀ other vpn e', m.entry? other vpn = some e' →
            (other, vpn) ≠ (mapping, vaddr.vpn m.memory.pageSize) →
            ∀ o < m.memory.pageSize, m'.frameByte e'.ppn o = m.frameByte e'.ppn o)
    | .error _ => m'.memory = m.memory

theorem Apart.transfers (ha : m.Apart) (h : m.WellFormed) (mapping : Nat) (vaddr : VirtAddr) :
    m.Transfers mapping vaddr := by
  have ho := h.geometry.offset_lt vaddr
  constructor
  · intro length
    simp only [read, Op.ends_bind]
    refine (translate_cases m mapping vaddr .read).imp ?_
    rintro r m' (⟨cause, rfl, rfl⟩ | ⟨e, he, hv, rfl, rfl⟩)
    · refine ⟨rfl, ?_⟩
      rintro data ⟨⟩
    · simp only [Op.ends_get, Op.ends_pure]
      refine ⟨rfl, ?_⟩
      rintro data ⟨⟩
      exact ⟨e, he, hv, PhysicalMemory.readFrom_read h.whole (ha.lt h he) ho
        (ha.address_eq h he vaddr) length⟩
  · intro data
    simp only [write, Op.ends_bind]
    refine (translate_cases m mapping vaddr .write).imp ?_
    rintro r m' (⟨cause, rfl, rfl⟩ | ⟨e, he, hv, rfl, rfl⟩)
    · rfl
    · have hwritten := PhysicalMemory.writtenFrom_write h.whole (ha.lt h he) ho
        (ha.address_eq h he vaddr) data
      simp only [Op.ends_modifyGet]
      refine ⟨e, he, hv, hwritten, ?_⟩
      intro hin other vpn e' he' hpage o hlt
      refine hwritten.other hin ho ?_ hlt
      intro hppn
      obtain ⟨rfl, rfl⟩ := ha.unique he' he hppn
      exact hpage rfl

/-- Two mappings of one page each, in the only two frames of memory. -/
def adjacent : StaticMachine :=
  let single : Layout := ⟨1, ⟨.scripted [] [] ⟨0⟩, []⟩⟩
  (load 1 1 single (load 0 0 single (ofSizes 2 4)).state).state

theorem reached_adjacent : Reached Pager.pairConfig adjacent :=
  .loaded 1 1 _ (.loaded 0 0 _ (.booted rfl))

end StaticMachine

/-- A transfer reaches from its address to the end of the buffer or of memory, and an access that is
refused reaches nothing. It is inside its page, and leaves all others alone, exactly if the page has
room for the buffer, or its frame is the last one. -/
theorem transfer_extent {p : Pager} {m : StaticMachine} {c c' : Config} (hp : Pager.Reached c p)
    (hm : StaticMachine.Reached c' m) :
    (∀ pid vaddr, p.Transfers pid vaddr) ∧ ∀ mapping vaddr, m.Transfers mapping vaddr :=
  ⟨hp.wellFormed.transfers, hm.apart.transfers hm.wellFormed.1⟩

theorem transfer_extent_adjacent :
    (Pager.write 1 ⟨6⟩ [9, 9] (Pager.pair.after Pager.neighbours)).result = .ok 2 ∧
      (Pager.pair.after Pager.neighbours).Transfers 1 ⟨6⟩ ∧
      (StaticMachine.write 0 ⟨2⟩ [9, 9] StaticMachine.adjacent).result = .ok 2 ∧
      StaticMachine.adjacent.Transfers 0 ⟨2⟩ := by
  have hreached : Pager.Reached Pager.pairConfig (Pager.pair.after Pager.neighbours) :=
    (Pager.Reached.created Pager.created_pair).after Pager.neighbours
  obtain ⟨hpager, hstatic⟩ := transfer_extent hreached StaticMachine.reached_adjacent
  exact ⟨by decide +kernel, hpager 1 ⟨6⟩, by decide +kernel, hstatic 0 ⟨2⟩⟩

/-- A buffer of more than the two bytes that its page has left is not cut there: its tail is read
from the next frame and written to it, which belongs to another page, or to another mapping. -/
theorem transfer_leaves_page :
    (Pager.read 1 ⟨6⟩ 6 (Pager.pair.after Pager.neighbours)).result = .ok [16, 16, 0, 0, 0, 0] ∧
      (Pager.write 1 ⟨6⟩ [9, 9, 9, 9] (Pager.pair.after Pager.neighbours)).result = .ok 4 ∧
      (Pager.pair.after Pager.neighbours).byte ⟨1, 0⟩ 0 = 0 ∧
      (Pager.write 1 ⟨6⟩ [9, 9, 9, 9] (Pager.pair.after Pager.neighbours)).state.byte ⟨1, 0⟩ 0 = 9 ∧
      (StaticMachine.write 0 ⟨2⟩ [9, 9, 9, 9] StaticMachine.adjacent).result = .ok 4 ∧
      (StaticMachine.read 1 ⟨0⟩ 2
        (StaticMachine.write 0 ⟨2⟩ [9, 9, 9, 9] StaticMachine.adjacent).state).result =
          .ok [9, 9] := by
  decide +kernel

end VirtualMemory
