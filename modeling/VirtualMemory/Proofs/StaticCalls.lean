import VirtualMemory.Proofs.Notices
import VirtualMemory.Proofs.StaticConfinement

/-!
# Calls of static mappings

A run is a list of calls through any number of mappings. `Call.Effect` says what a call can do to
tables and frames. No call reports a frame that cannot be given back, since the frames that a load
or a teardown gives back are allocated and distinct; only a load that finds too few frames reports
that.
-/

namespace VirtualMemory.StaticMachine

variable {m m' : StaticMachine} {P : Notice → Prop}

inductive Call
  | load (mapping : Nat) (pid : Pid) (layout : Layout)
  | translate (mapping : Nat) (vaddr : VirtAddr) (access : Access)
  | read (mapping : Nat) (vaddr : VirtAddr) (length : Nat)
  | write (mapping : Nat) (vaddr : VirtAddr) (data : Bytes)
  | teardown (mapping : Nat)

namespace Call

def run : Call → Op StaticMachine Empty Unit
  | load mapping pid layout => do let _ ← Op.attempt (StaticMachine.load mapping pid layout)
  | translate mapping vaddr access => do
    let _ ← Op.attempt (StaticMachine.translate mapping vaddr access)
  | read mapping vaddr length => do let _ ← Op.attempt (StaticMachine.read mapping vaddr length)
  | write mapping vaddr data => do let _ ← Op.attempt (StaticMachine.write mapping vaddr data)
  | teardown mapping => StaticMachine.teardown mapping

def mapping : Call → Nat
  | load mapping .. => mapping
  | translate mapping .. => mapping
  | read mapping .. => mapping
  | write mapping .. => mapping
  | teardown mapping => mapping

end Call

/-- The machine after these calls, the latest of which comes first. -/
def after (m : StaticMachine) : List Call → StaticMachine
  | [] => m
  | call :: past => (call.run (m.after past)).state

theorem Reached.after {c : Config} (h : Reached c m) (calls : List Call) :
    Reached c (m.after calls) := by
  induction calls with
  | nil => exact h
  | cons call past ih =>
    cases call with
    | load mapping pid layout => exact .loaded mapping pid layout ih
    | translate mapping vaddr access => exact .translated mapping vaddr access ih
    | read mapping vaddr length => exact .read mapping vaddr length ih
    | write mapping vaddr data => exact .written mapping vaddr data ih
    | teardown mapping => exact .tornDown mapping ih

/-! ## What a call can do -/

/-- The frames are the same, and so are the tables but for the marks of one entry. -/
structure Accessed (mapping : Nat) (m m' : StaticMachine) : Prop where
  frames : m'.frames = m.frames
  tables : m'.tables = m.tables ∨ ∃ vpn e access, m.entry? mapping vpn = some e ∧
    m'.tables =
      (m.setTable mapping ((m.table mapping).set vpn.toNat (e.touched access))).tables

theorem translate_accessed (m : StaticMachine) (mapping : Nat) (vaddr : VirtAddr)
    (access : Access) :
    (translate mapping vaddr access).Ends m fun _ m' => Accessed mapping m m' := by
  refine (translate_cases m mapping vaddr access).imp ?_
  rintro r m' (⟨cause, -, rfl⟩ | ⟨e, he, -, -, rfl⟩)
  · exact ⟨rfl, .inl rfl⟩
  · exact ⟨rfl, .inr ⟨_, e, access, he, rfl⟩⟩

theorem read_accessed (m : StaticMachine) (mapping : Nat) (vaddr : VirtAddr) (length : Nat) :
    (read mapping vaddr length).Ends m fun _ m' => Accessed mapping m m' := by
  simp only [StaticMachine.read, Op.ends_bind]
  refine (translate_accessed m mapping vaddr .read).imp ?_
  rintro (e | paddr) m' h
  · exact h
  · exact h

theorem write_accessed (m : StaticMachine) (mapping : Nat) (vaddr : VirtAddr) (data : Bytes) :
    (write mapping vaddr data).Ends m fun _ m' => Accessed mapping m m' := by
  simp only [StaticMachine.write, Op.ends_bind]
  refine (translate_accessed m mapping vaddr .write).imp ?_
  rintro (e | paddr) m' h
  · exact h
  · exact ⟨h.frames, h.tables⟩

inductive Call.Effect (m : StaticMachine) (mapping : Nat) (m' : StaticMachine) : Prop
  | load {layout : Layout} {r : Except MemoryError Unit} (h : LoadEffect m mapping layout r m')
  | access (h : Accessed mapping m m')
  | teardown (h : Returned (m.table mapping) { m with tables := m.tables.erase mapping } m')

theorem Call.run_effect (h : m.WellFormed) (call : Call) :
    call.run.Ends m fun _ m' => Effect m call.mapping m' := by
  cases call with
  | load mapping pid layout => exact .load (load_effect h mapping pid layout)
  | translate mapping vaddr access => exact .access (translate_accessed m mapping vaddr access)
  | read mapping vaddr length => exact .access (read_accessed m mapping vaddr length)
  | write mapping vaddr data => exact .access (write_accessed m mapping vaddr data)
  | teardown mapping => exact .teardown (releaseAll_ends (h.retable _) _)

/-- The number of frames stays the same. -/
theorem Call.Effect.total {mapping : Nat} (h : Effect m mapping m') :
    m'.frames.total = m.frames.total := by
  cases h with
  | @load _ r h =>
    cases r with
    | error cause => exact h.untouched.total
    | ok u => exact h.remapped.total
  | access h => rw [h.frames]
  | teardown h => exact h.reframed.total

/-- The frames of a mapping are the same. -/
theorem Accessed.ppns {mapping : Nat} (h : Accessed mapping m m') (k : Nat) :
    m'.ppns k = m.ppns k := by
  rcases h.tables with htables | ⟨vpn, e, access, he, htables⟩
  · exact ppns_congr htables k
  · exact (ppns_congr htables k).trans (ppns_touch m he access k)

/-! ## What a call reports -/

/-- Frames that are allocated and distinct can all be given back. -/
theorem releaseAll_issues (h : m.WellFormed) {entries : List Entry}
    (hdistinct : (entries.map (·.ppn)).Nodup)
    (hused : ∀ e ∈ entries, e.ppn.toNat < m.frames.total ∧ m.frames.isFree e.ppn = false) :
    (releaseAll entries).Issues m P := by
  simp only [releaseAll]
  induction entries generalizing m with
  | nil => exact Op.issues_pure _ _
  | cons e rest ih =>
    rw [List.map_cons, List.nodup_cons] at hdistinct
    obtain ⟨hlt, hfalse⟩ := hused e List.mem_cons_self
    have hends := Frames.release_of_used hlt hfalse
    simp only [List.forM, Op.issues_bind, Op.issues_attempt, Op.issues_on, Op.ends_bind,
      Op.ends_attempt, Op.ends_on]
    refine ⟨⟨(Frames.discreet_release e.ppn).issues ?_, ?_⟩, ?_⟩
    · exact hends.imp fun _ _ hr => ⟨(), hr.1⟩
    · refine hends.imp ?_
      rintro r f ⟨rfl, rfl⟩
      exact Op.issues_pure _ _
    · refine hends.imp ?_
      rintro r f ⟨rfl, rfl⟩
      have htotal := Frames.total_withFree m.frames e.ppn
      refine ih (h.reframe (h.frames.withFree hlt hfalse) htotal) hdistinct.2 ?_
      intro e' he'
      obtain ⟨hlt', hfalse'⟩ := hused e' (List.mem_cons_of_mem _ he')
      refine ⟨htotal.symm ▸ hlt', ?_⟩
      rw [Bool.eq_false_iff]
      intro hfree
      rcases (Frames.isFree_withFree hlt e'.ppn).mp hfree with heq | hfree
      · exact hdistinct.1 (heq ▸ List.mem_map_of_mem he')
      · rw [hfalse'] at hfree
        cases hfree

theorem acquireAll_issues (m : StaticMachine) (vpns : List Vpn) :
    (acquireAll vpns).Issues m P := by
  refine Op.issues_mapM ?_ vpns m
  intro vpn m
  refine (Op.issues_modifyGet _ _).bind ?_
  rintro (_ | ppn) m'
  · exact Op.issues_throw _ _
  · exact Op.issues_pure _ _

theorem fillPage_issues (index : ImageIndex) (e : Entry) (m : StaticMachine) :
    (fillPage index e).Issues m P := by
  refine (Op.issues_get m).bind fun m _ => ?_
  dsimp only
  split
  · refine (Op.issues_ofExcept _ _).bind fun found _ => ?_
    refine (Op.issues_ofExcept _ _).bind fun memory _ => ?_
    exact (Op.issues_set _ _).bind fun _ _ => Op.issues_pure _ _
  · refine (Op.issues_ofExcept _ _).bind fun memory _ => ?_
    exact (Op.issues_set _ _).bind fun _ _ => Op.issues_pure _ _

/-- A load that fails after it has taken its frames can give all of them back. -/
theorem load_issues (h : m.WellFormed) (mapping : Nat) (pid : Pid) (layout : Layout)
    (hP : P (.framesInsufficient pid layout.numPages)) :
    (load mapping pid layout).Issues m P := by
  simp only [load, Op.issues_bind, Op.issues_get, Op.ends_get, true_and]
  split
  · simp only [Op.issues_bind, Op.issues_notify, Op.ends_notify]
    exact ⟨hP, Op.issues_throw _ _, trivial⟩
  · simp only [Op.issues_bind]
    refine ⟨acquireAll_issues m _, (acquireAll_ends h _).imp ?_⟩
    rintro (e | entries) m₁ ⟨-, hall⟩
    · trivial
    have htaken := hall entries rfl
    have ha := htaken.acquired
    have hlt : ∀ e ∈ entries, e.ppn.toNat < m₁.frames.total := fun e he =>
      htaken.reframed.total ▸ Frames.lt_total_of_isFree (ha.free e he)
    simp only [Op.issues_attempt, Op.ends_attempt]
    refine ⟨Op.issues_mapM (fillPage_issues layout.index) entries m₁, ?_⟩
    refine (fillAll_ends htaken.reframed.wellFormed layout.index hlt ha.flags ha.distinct).imp ?_
    rintro (e | all) m₂ ⟨hm₂, -⟩
    · simp only [Op.issues_bind, Op.issues_liftM]
      refine ⟨releaseAll_issues hm₂.wellFormed ha.distinct ?_, ?_⟩
      · intro e he
        rw [hm₂.frames]
        exact ⟨hlt e he, htaken.used e he⟩
      · refine (Op.ends_self _ _).imp ?_
        rintro (e' | u) m₃ -
        · trivial
        · exact Op.issues_throw _ _
    · exact Op.issues_modify _ _

section

variable (hP : m.memory.pageSize.toUInt32 = 0 → P (.halted .divisionByZero))

include hP

theorem translate_issues (mapping : Nat) (vaddr : VirtAddr) (access : Access) :
    (translate mapping vaddr access).Issues m P := by
  simp only [translate, Op.issues_bind, Op.issues_get, Op.ends_get, Op.issues_checkDivisor,
    Op.ends_checkDivisor, true_and]
  refine ⟨hP, ?_⟩
  split
  · split
    · exact (Op.issues_throw _ _).bind fun _ _ =>
        (Op.issues_set _ _).bind fun _ _ => Op.issues_pure _ _
    · exact (Op.issues_set _ _).bind fun _ _ => Op.issues_pure _ _
  · exact Op.issues_throw _ _

theorem read_issues (mapping : Nat) (vaddr : VirtAddr) (length : Nat) :
    (read mapping vaddr length).Issues m P :=
  (translate_issues hP mapping vaddr .read).bind fun _ m' =>
    (Op.issues_get m').bind fun _ _ => Op.issues_pure _ _

theorem write_issues (mapping : Nat) (vaddr : VirtAddr) (data : Bytes) :
    (write mapping vaddr data).Issues m P :=
  (translate_issues hP mapping vaddr .write).bind fun _ _ => Op.issues_modifyGet _ _

end

/-- The frames of a mapping can be given back. -/
theorem teardown_issues (h : m.WellFormed) (ha : m.Apart) (mapping : Nat) :
    (teardown mapping).Issues m P := by
  simp only [StaticMachine.teardown, Op.issues_bind, Op.issues_get, Op.ends_get, true_and,
    Op.issues_modify, Op.ends_modify]
  refine releaseAll_issues (h.retable _) (ha.distinct mapping) ?_
  exact fun e he => ha.used mapping e.ppn (List.mem_map_of_mem he)

/-- A call reports at most that there are not frames enough, unless a page is the whole address
space: then it stops where it divides by the size. -/
theorem Call.run_issues (h : m.WellFormed) (ha : m.Apart) (call : Call) :
    call.run.Issues m fun n => (∃ pid pages, n = .framesInsufficient pid pages) ∨
      m.memory.pageSize = 0x100000000 ∧ n = .halted .divisionByZero := by
  have hdiv : m.memory.pageSize.toUInt32 = 0 →
      (∃ pid pages, (.halted .divisionByZero : Notice) = .framesInsufficient pid pages) ∨
        m.memory.pageSize = 0x100000000 ∧
          (.halted .divisionByZero : Notice) = .halted .divisionByZero :=
    fun hzero => Or.inr ⟨h.geometry.pageSize_eq hzero, rfl⟩
  cases call with
  | load mapping pid layout =>
    exact Op.Issues.bind (load_issues h mapping pid layout (Or.inl ⟨pid, _, rfl⟩)) fun _ _ =>
      Op.issues_pure _ _
  | translate mapping vaddr access =>
    exact Op.Issues.bind (translate_issues hdiv mapping vaddr access) fun _ _ =>
      Op.issues_pure _ _
  | read mapping vaddr length =>
    exact Op.Issues.bind (read_issues hdiv mapping vaddr length) fun _ _ => Op.issues_pure _ _
  | write mapping vaddr data =>
    exact Op.Issues.bind (write_issues hdiv mapping vaddr data) fun _ _ => Op.issues_pure _ _
  | teardown mapping => exact teardown_issues h ha mapping

end VirtualMemory.StaticMachine
