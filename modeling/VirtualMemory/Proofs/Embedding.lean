import VirtualMemory.Proofs.Loading

/-!
# Machines of several kinds

A kernel has one of several machines, and hands every operation on to the one that it has. Where a
machine of one kind serves a process, the kernel's machine does too, as long as it is of that kind;
and it stays of that kind.
-/

namespace VirtualMemory

variable {σ τ ε α : Type} {embed : σ → τ} {R : FlatSpace → σ → Prop} {G : σ → Prop}
  {Ready : VirtAddr → σ → Prop} {number : Nat} {pageSize numPages : Nat}

/-- On a machine that comes from `σ`, `x` ends as `y` does there. -/
def Op.Mirrors (embed : σ → τ) (x : Op τ ε α) (y : Op σ ε α) : Prop :=
  ∀ m Q, x.Ends (embed m) Q ↔ y.Ends m fun r m' => Q r (embed m')

/-- Machines `τ` do on those that come from `σ` what they do there. -/
structure Embeds [Mmu σ] [Mmu τ] (embed : σ → τ) : Prop where
  injective : ∀ m m', embed m = embed m' → m = m'
  pageSize : ∀ m, Mmu.pageSize (embed m) = Mmu.pageSize m
  load : ∀ number layout, (Mmu.load number layout : Op τ MemoryError Unit).Mirrors embed
    (Mmu.load number layout)
  read : ∀ number vaddr length, (Mmu.read number vaddr length : Op τ Exception Bytes).Mirrors embed
    (Mmu.read number vaddr length)
  write : ∀ number vaddr data, (Mmu.write number vaddr data : Op τ Exception Nat).Mirrors embed
    (Mmu.write number vaddr data)
  handleFault : ∀ number vaddr e,
    (Mmu.handleFault number vaddr e : Op τ Empty FaultResult).Mirrors embed
      (Mmu.handleFault number vaddr e)
  saveContext : ∀ number,
    (Mmu.saveContext number : Op τ Empty Unit).Mirrors embed (Mmu.saveContext number)
  restoreContext : ∀ number, (Mmu.restoreContext number : Op τ Empty Unit).Mirrors embed
    (Mmu.restoreContext number)
  teardown : ∀ number, (Mmu.teardown number : Op τ Empty Unit).Mirrors embed (Mmu.teardown number)

/-- The machine comes from one that holds flat memory `f`. -/
def Holding (embed : σ → τ) (R : FlatSpace → σ → Prop) (f : FlatSpace) (b : τ) : Prop :=
  ∃ m, b = embed m ∧ R f m

/-- If the machine comes from `σ` then it comes from a good one. -/
def Unspoiled (embed : σ → τ) (G : σ → Prop) (b : τ) : Prop := ∀ m, b = embed m → G m

variable [Mmu σ] [Mmu τ]

theorem Embeds.unspoiled_iff (he : Embeds embed) {m : σ} : Unspoiled embed G (embed m) ↔ G m := by
  constructor
  · exact fun h => h m rfl
  · intro h m' hm
    exact he.injective m m' hm ▸ h

/-- A machine that is made ready in its own kind. -/
def ReadyIn (embed : σ → τ) (Ready : VirtAddr → σ → Prop) (vaddr : VirtAddr) (b : τ) : Prop :=
  ∃ m, b = embed m ∧ Ready vaddr m

theorem Embeds.readyIn_iff (he : Embeds embed) {vaddr : VirtAddr} {m : σ} :
    ReadyIn embed Ready vaddr (embed m) ↔ Ready vaddr m := by
  constructor
  · rintro ⟨m', hm, h⟩
    exact he.injective m m' hm ▸ h
  · exact fun h => ⟨m, rfl, h⟩

theorem Answers.lift (he : Embeds embed) {vaddr : VirtAddr} {x : Op σ Exception α}
    {x' : Op τ Exception α} {y : Op FlatSpace Exception α} (hx : x'.Mirrors embed x)
    (h : Answers R G Ready vaddr x y) :
    Answers (Holding embed R) (Unspoiled embed G) (ReadyIn embed Ready) vaddr x' y where
  ready := by
    rintro f b ⟨m, rfl, hR⟩ hready
    rw [hx]
    refine (h.ready f m hR (he.readyIn_iff.mp hready)).imp ?_
    rintro r m' ⟨hg, hr, hR'⟩
    rw [he.unspoiled_iff, he.unspoiled_iff]
    exact ⟨hg, hr, m', rfl, hR'⟩
  miss := by
    rintro f b ⟨m, rfl, hR⟩ hready
    rw [hx]
    refine (h.miss f m hR (mt he.readyIn_iff.mpr hready)).imp ?_
    rintro r m' ⟨hg, hr, hR', hmiss⟩
    rw [he.unspoiled_iff, he.unspoiled_iff]
    exact ⟨hg, hr, ⟨m', rfl, hR'⟩, mt he.readyIn_iff.mp hmiss⟩

/-- What one kind of machine does for a process, its embedding does too. -/
theorem Serves.lift (he : Embeds embed) (hs : Serves number pageSize numPages R G Ready) :
    Serves number pageSize numPages (Holding embed R) (Unspoiled embed G)
      (ReadyIn embed Ready) where
  read := fun vaddr length hin hlen => (hs.read vaddr length hin hlen).lift he (he.read _ _ _)
  write := fun vaddr data hin hlen => (hs.write vaddr data hin hlen).lift he (he.write _ _ _)
  resolves := by
    rintro f b vaddr hin ⟨m, rfl, hR⟩ hready
    rw [he.handleFault]
    refine (hs.resolves f m vaddr hin hR (mt he.readyIn_iff.mpr hready)).imp ?_
    rintro r m' ⟨hR', hready', hg⟩
    rw [he.unspoiled_iff, he.unspoiled_iff, he.readyIn_iff]
    exact ⟨⟨m', rfl, hR'⟩, hready', hg⟩
  refuses := by
    rintro f b vaddr e hmiss ⟨m, rfl, hR⟩
    rw [he.handleFault]
    refine (hs.refuses f m vaddr e hmiss hR).imp ?_
    rintro r m' ⟨hg, hr, hR'⟩
    rw [he.unspoiled_iff, he.unspoiled_iff]
    exact ⟨hg, hr, m', rfl, hR'⟩
  save := by
    rintro f b ⟨m, rfl, hR⟩
    rw [he.saveContext]
    refine (hs.save f m hR).imp ?_
    rintro r m' ⟨hg, hr, hR'⟩
    rw [he.unspoiled_iff, he.unspoiled_iff]
    exact ⟨hg, hr, m', rfl, hR'⟩
  restore := by
    rintro f b ⟨m, rfl, hR⟩
    rw [he.restoreContext]
    refine (hs.restore f m hR).imp ?_
    rintro r m' ⟨hg, hr, hR'⟩
    rw [he.unspoiled_iff, he.unspoiled_iff]
    exact ⟨hg, hr, m', rfl, hR'⟩
  teardown := by
    rintro f b ⟨m, rfl, hR⟩
    rw [he.teardown]
    refine (hs.teardown f m hR).imp ?_
    intro r m' hg
    rwa [he.unspoiled_iff, he.unspoiled_iff]

theorem Prepares.lift (he : Embeds embed) {R : Nat → FlatSpace → σ → Prop} {pages : Nat} {m : σ}
    (h : Prepares R G number pages m) :
    Prepares (fun n => Holding embed (R n)) (Unspoiled embed G) number pages (embed m) := by
  intro layout hpages hread
  rw [he.pageSize] at hread
  rw [he.load]
  refine (h layout hpages hread).imp ?_
  rintro r m' ⟨hr, hg, hR⟩
  rw [he.unspoiled_iff, he.unspoiled_iff, he.pageSize]
  exact ⟨hr, hg, m', rfl, hR⟩

end VirtualMemory
