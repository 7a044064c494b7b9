import VirtualMemory.Proofs.KernelRuns

/-!
# A failed spawn leaves no trace

A spawn can fail before the space exists, while its frames are filled, or while its arguments are
written and the pages of others are moved for them. In each case nothing is left under its number,
and all that the others have is as it was. In static mode the free frames are the same, in demand
mode they are not fewer.
-/

namespace VirtualMemory

/-- Nothing is left of a mapping: the free frames are as before, and so are the tables of the other
mappings and the bytes of their frames. -/
structure StaticMachine.Traceless (m m' : StaticMachine) (mapping : Nat) : Prop where
  table : m'.table mapping = []
  free : ∀ ppn, ppn ∈ m'.frames.free ↔ ppn ∈ m.frames.free
  others : ∀ k, k ≠ mapping → m'.table k = m.table k
  contents : ∀ k, k ≠ mapping → ∀ ppn ∈ m.ppns k, ∀ o < m.memory.pageSize,
    m'.frameByte ppn o = m.frameByte ppn o

theorem StaticMachine.Respects.traceless {m m' : StaticMachine} {mapping : Nat}
    (h : Respects mapping m m') (hwf : m.WellFormed) (hnew : m.ppns mapping = [])
    (hgone : m'.ppns mapping = []) : m.Traceless m' mapping where
  table := List.map_eq_nil_iff.mp hgone
  free := by
    intro ppn
    have hframes := h.frames ppn
    rw [hnew, hgone] at hframes
    have hword : m'.frames.InWord ↔ m.frames.InWord := by
      rw [Frames.InWord, Frames.InWord, h.total]
    rw [hwf.frames.mem_free, h.wellFormed.frames.mem_free, hword]
    simp only [List.not_mem_nil, or_false] at hframes
    rw [hframes]
  others := h.others
  contents := h.bytes

/-- Nothing is left of process `number`, and the others have what they had. -/
inductive Backend.Traceless (c : Config) (number : Nat) : Backend → Backend → Prop
  | static {m m' : StaticMachine} (h : m.Traceless m' number) :
      Traceless c number (.static m) (.static m')
  | paged {p p' : Pager} (h : p.Traceless p' number.toUInt32 c.physPages) :
      Traceless c number (.paged p) (.paged p')

theorem Backend.Respects.traceless {c : Config} {number : Nat} {b b' : Backend}
    (h : Respects number b b') (hs : b.Sound c) (hnew : b.NoSpace number)
    (hgone : b'.NoSpace number) : b.Traceless c number b' := by
  cases h with
  | static h => exact .static (h.traceless (StaticMachine.Sound.wellFormed hs) hnew hgone)
  | paged h =>
    obtain ⟨hwf, -, -, htotal, -⟩ := hs
    exact .paged (htotal ▸ h.traceless hwf hgone)

namespace Kernel

variable {c : Config} {n : Nat} {k : Kernel}

/-- Whatever the kernel has done before and for whatever cause a spawn fails, nothing is left of
it, as long as the numbers of the processes have not run out. -/
theorem failed_spawn_traceless (h : Reached c n k) (hfew : n < 0x100000000) (name : String)
    (image : Image) (args : List String) {cause : MemoryError}
    (hfail : (spawn name image args k).result = .error cause) :
    k.backend.Traceless c k.next (spawn name image args k).state.backend ∧
      (spawn name image args k).state.processes = k.processes := by
  have hsound := h.sound
  have hvacant := hsound.vacant _ (hsound.next ▸ new_succ (.inl hfew))
  obtain ⟨-, hrespects, hr⟩ := hsound.spawn name image args
  rw [hfail] at hr
  obtain ⟨hgone, hprocesses⟩ := hr
  exact ⟨hrespects.traceless hsound.backend hvacant (hgone hvacant), hprocesses⟩

/-! ## Two small kernels -/

def roomyConfig : Config := { staticConfig with physPages := 8 }

/-- Room for two processes of four pages, and one of them is there. -/
def sharedStatic : Kernel :=
  (spawn "first" smallImage ["a"]
    { config := roomyConfig, backend := .static (.ofSizes 8 8) }).state

/-- The page of data cannot be read, after the page of text was. -/
def brokenImage : Image :=
  .scripted [⟨"text", 0, 1, true⟩, ⟨"data", 1, 1, false⟩] [((1, 0), .invalidImage)] ⟨0⟩

/-- The arguments of a process are in the only frame, and cannot be written out. -/
def crowdedDemand : Kernel :=
  disturb [.swapFaults { write := some .closed }] (spawn "first" smallImage ["a"] smallDemand).state

theorem reached_sharedStatic : Reached roomyConfig 1 sharedStatic :=
  have hboot : ((boot (fun _ => .writable) roomyConfig 0 : Op Unit MemoryError Kernel) ()).result =
      .ok { config := roomyConfig, backend := .static (.ofSizes 8 8) } := rfl
  .spawned _ _ _ (.booted hboot)

theorem reached_crowdedDemand : Reached demandConfig 1 crowdedDemand := by
  have hboot : ((boot (fun _ => .writable) demandConfig 0 : Op Unit MemoryError Kernel) ()).result =
      .ok { config := demandConfig, backend := .paged smallPager } := rfl
  have hdraw : ∀ event ∈ [Pager.Event.draw (.ofWords [])],
      event.InPage demandConfig.pageSize ∧ event.Settled :=
    List.forall_mem_singleton.mpr ⟨trivial, trivial⟩
  have hsmall : Reached demandConfig 0 smallDemand := .disturbed hdraw (.booted hboot)
  apply Reached.disturbed _ (.spawned _ _ _ hsmall)
  exact List.forall_mem_singleton.mpr ⟨trivial, trivial⟩

theorem failed_spawn_traceless_small :
    ((spawn "second" brokenImage [] sharedStatic).result = .error .invalidImage ∧
      sharedStatic.backend.Traceless roomyConfig sharedStatic.next
        (spawn "second" brokenImage [] sharedStatic).state.backend) ∧
    (spawn "second" smallImage ["b"] crowdedDemand).result = .error .swapFailure ∧
      crowdedDemand.backend.Traceless demandConfig crowdedDemand.next
        (spawn "second" smallImage ["b"] crowdedDemand).state.backend := by
  have hstatic : (spawn "second" brokenImage [] sharedStatic).result = .error .invalidImage := by
    decide +kernel
  have hdemand : (spawn "second" smallImage ["b"] crowdedDemand).result = .error .swapFailure := by
    decide +kernel
  have hleft := failed_spawn_traceless reached_sharedStatic (by decide) "second" brokenImage []
    hstatic
  have hright := failed_spawn_traceless reached_crowdedDemand (by decide) "second" smallImage ["b"]
    hdemand
  exact ⟨⟨hstatic, hleft.1⟩, hdemand, hright.1⟩

/-- The only section does not start at page zero. -/
def scatteredImage : Image := .scripted [⟨"text", 1, 1, true⟩] [] ⟨0⟩

/-- Of as many frames as an address can name, none is free and none is resident after a spawn was
refused. -/
theorem no_frame_after_refusal :
    Reached Pager.countlessConfig 0 countlessDemand ∧
      (spawn "scattered" scatteredImage [] countlessDemand).result = .error .invalidImage ∧
      ∃ p, (spawn "scattered" scatteredImage [] countlessDemand).state.backend = .paged p ∧
        ¬ (p.frames.free ++ p.table.resident.dense.toList).Perm
          ((List.range 0x100000000).map Nat.toUInt32) := by
  have hboot : ((boot (fun _ => .writable) Pager.countlessConfig 0 :
      Op Unit MemoryError Kernel) ()).result = .ok countlessDemand := rfl
  refine ⟨.booted hboot, by decide +kernel, Pager.countless, rfl, ?_⟩
  intro hperm
  have hlength := hperm.length_eq
  rw [List.length_map, List.length_range] at hlength
  cases hlength

end Kernel

end VirtualMemory
