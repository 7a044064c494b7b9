import VirtualMemory.Proofs.SwapSlots

/-!
# The audit of the swap

The audit looks at the slot of each page and then at the free slots, and remembers those it has
seen. In a well formed swap it meets each slot once, so it finds nothing.
-/

namespace VirtualMemory.Swapper

variable {σ : Type} {s : Swapper}

/-- The slots are in the file, not marked, and new at every step of the check. -/
theorem auditSlots_ends {pairs : List (PageKey × Nat)} {seen : List Nat}
    (hlt : ∀ pair ∈ pairs, pair.2 < s.capacity)
    (hpending : ∀ pair ∈ pairs, s.isPending pair.1 = false)
    (hnodup : ((pairs.map Prod.snd).reverse ++ seen).Nodup) (x : σ) :
    (s.auditSlots seen pairs).Ends x fun r _ =>
      r = .ok ((pairs.map Prod.snd).reverse ++ seen) := by
  induction pairs generalizing seen with
  | nil => exact rfl
  | cons pair rest ih =>
    obtain ⟨key, slot⟩ := pair
    have hslot : slot < s.capacity := hlt (key, slot) List.mem_cons_self
    have hkey : s.isPending key = false := hpending (key, slot) List.mem_cons_self
    rw [List.map_cons, List.reverse_cons, List.append_assoc, List.singleton_append] at hnodup
    have hnew : slot ∉ seen := (List.nodup_cons.mp (List.nodup_append.mp hnodup).2.1).1
    have hpass : (decide (s.capacity ≤ slot) || seen.contains slot) = false := by
      rw [Bool.or_eq_false_iff, decide_eq_false_iff_not, Nat.not_le]
      exact ⟨hslot, by simpa using hnew⟩
    simp only [auditSlots, hpass, hkey, Bool.false_eq_true, if_false]
    refine (ih (fun p hp => hlt p (List.mem_cons_of_mem _ hp))
      (fun p hp => hpending p (List.mem_cons_of_mem _ hp)) hnodup).imp ?_
    rintro r x' rfl
    simp

theorem auditFree_ends {seen free : List Nat} (hnodup : (free.reverse ++ seen).Nodup) (x : σ) :
    (auditFree seen free : Op σ MemoryError Unit).Ends x fun r _ => r = .ok () := by
  induction free generalizing seen with
  | nil => exact rfl
  | cons slot rest ih =>
    rw [List.reverse_cons, List.append_assoc, List.singleton_append] at hnodup
    have hnew : slot ∉ seen := (List.nodup_cons.mp (List.nodup_append.mp hnodup).2.1).1
    have hpass : seen.contains slot = false := by simpa using hnew
    simp only [auditFree, hpass, Bool.false_eq_true, if_false]
    exact ih hnodup

/-- The check of the swapper finds nothing wrong with a well-formed one. -/
theorem audit_ends (h : s.WellFormed) (x : σ) :
    (s.audit : Op σ MemoryError Unit).Ends x fun r _ => r = .ok () := by
  have hslot : ∀ pair ∈ s.slots.toList, s.slot? pair.1 = some pair.2 :=
    fun pair hp => (OrderedMap.mem_toList_iff _ _ _).mp hp
  have hpending : ∀ pair ∈ s.slots.toList, s.isPending pair.1 = false := by
    intro pair hp
    rw [Bool.eq_false_iff]
    intro hpend
    have hnone := h.pending_slotless pair.1 hpend
    rw [hslot pair hp] at hnone
    cases hnone
  have hused : ((s.slots.toList.map Prod.snd).reverse ++ []).Nodup := by
    rw [List.append_nil, List.nodup_reverse]
    exact h.nodup_slots
  have hall : (s.freeSlots.reverse ++ ((s.slots.toList.map Prod.snd).reverse ++ [])).Nodup := by
    refine List.Nodup.append (List.nodup_reverse.mpr h.free_nodup) hused ?_
    intro i hfree hi
    rw [List.append_nil, List.mem_reverse, List.mem_map] at hi
    obtain ⟨pair, hp, rfl⟩ := hi
    exact h.free_unused _ (List.mem_reverse.mp hfree) pair.1 (hslot pair hp)
  simp only [audit, Op.ends_bind]
  refine (auditSlots_ends (fun pair hp => h.slot_lt _ _ (hslot pair hp)) hpending hused x).imp ?_
  rintro r x' rfl
  exact auditFree_ends hall x'

end VirtualMemory.Swapper
