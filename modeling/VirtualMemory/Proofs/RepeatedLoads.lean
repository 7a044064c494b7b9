import VirtualMemory.Proofs.Pager.Confinement
import VirtualMemory.Proofs.StaticCalls

/-!
# Loads in a row

A mapping may be loaded when it is loaded already. The pager refuses that, so that whatever a
process did, all frames that it had at any time are free once it is taken down. A static mapping
takes new frames and forgets the frames of the table that it replaces: `dropped` lists them. They
are never free again, and all the others that it had are.
-/

namespace VirtualMemory

namespace StaticMachine

variable {m m₀ m' : StaticMachine} {mapping : Nat} {lost : List Ppn}

/-- The frames that a call takes out of the table of its mapping and does not give back. -/
def Call.drops (m : StaticMachine) : Call → List Ppn
  | load mapping pid layout =>
    match (StaticMachine.load mapping pid layout m).result with
    | .ok _ => m.ppns mapping
    | .error _ => []
  | _ => []

def dropped (m : StaticMachine) : List Call → List Ppn
  | [] => []
  | call :: past => call.drops (m.after past) ++ m.dropped past

/-- The frames that were free or those of the mapping at `m₀` are so at `m`, apart from the ones
that were lost. -/
structure Tracked (m₀ m : StaticMachine) (mapping : Nat) (lost : List Ppn) : Prop where
  all : ∀ ppn, (m.frames.isFree ppn = true ∨ ppn ∈ m.ppns mapping) ∨ ppn ∈ lost ↔
    m₀.frames.isFree ppn = true ∨ ppn ∈ m₀.ppns mapping
  lost : ∀ ppn ∈ lost, m.frames.isFree ppn = false ∧ ppn ∉ m.ppns mapping

theorem Tracked.start (m : StaticMachine) (mapping : Nat) : Tracked m m mapping [] :=
  ⟨fun ppn => by simp, nofun⟩

/-- Frames go to and fro between the free ones and the mapping. -/
theorem Tracked.moved (ht : Tracked m₀ m mapping lost)
    (h : ∀ ppn, m'.frames.isFree ppn = true ∨ ppn ∈ m'.ppns mapping ↔
      m.frames.isFree ppn = true ∨ ppn ∈ m.ppns mapping) : Tracked m₀ m' mapping lost where
  all := by
    intro ppn
    rw [h, ht.all]
  lost := by
    intro ppn hppn
    have hgone := ht.lost ppn hppn
    rw [← Bool.not_eq_true, ← not_or, h, not_or, Bool.not_eq_true]
    exact hgone

/-- The mapping gets free frames and loses those that it had. -/
theorem Tracked.remapped (ht : Tracked m₀ m mapping lost) (ha : m.Apart)
    (h : Remapped mapping m m') : Tracked m₀ m' mapping (m.ppns mapping ++ lost) where
  all := by
    intro ppn
    have htaken := h.taken ppn
    rw [← ht.all, h.free, List.mem_append]
    tauto
  lost := by
    have hkept : ∀ ppn, m.frames.isFree ppn = false →
        m'.frames.isFree ppn = false ∧ ppn ∉ m'.ppns mapping := by
      intro ppn hused
      refine ⟨h.used (.inl hused), ?_⟩
      intro hppn
      rw [h.taken ppn hppn] at hused
      cases hused
    intro ppn hppn
    rcases List.mem_append.mp hppn with hold | hlost
    · exact hkept ppn (ha.used mapping ppn hold).2
    · exact hkept ppn (ht.lost ppn hlost).1

theorem Tracked.accessed (ht : Tracked m₀ m mapping lost) {k : Nat} (h : Accessed k m m') :
    Tracked m₀ m' mapping lost :=
  ht.moved fun ppn => by rw [h.frames, h.ppns]

/-- One call through the mapping. -/
theorem Tracked.run (ht : Tracked m₀ m mapping lost) (h : m.WellFormed) (ha : m.Apart)
    {call : Call} (hcall : call.mapping = mapping) :
    Tracked m₀ (call.run m).state mapping (call.drops m ++ lost) := by
  obtain rfl := hcall
  cases call with
  | load mapping pid layout =>
    have heffect : LoadEffect m mapping layout (load mapping pid layout m).result
        (load mapping pid layout m).state := load_effect h mapping pid layout
    show Tracked m₀ (load mapping pid layout m).state mapping _
    rw [Call.drops]
    cases hr : (load mapping pid layout m).result with
    | ok u =>
      rw [hr] at heffect
      exact ht.remapped ha heffect.remapped
    | error cause =>
      rw [hr] at heffect
      have hsame := heffect.untouched
      exact ht.moved fun ppn => by rw [hsame.free, ppns_congr hsame.tables]
  | translate mapping vaddr access => exact ht.accessed (translate_accessed m mapping vaddr access)
  | read mapping vaddr length => exact ht.accessed (read_accessed m mapping vaddr length)
  | write mapping vaddr data => exact ht.accessed (write_accessed m mapping vaddr data)
  | teardown mapping => exact ht.moved (teardown_respects h ha mapping).1.frames

theorem Tracked.after {c : Config} (hreached : Reached c m) {calls : List Call}
    (hcalls : ∀ call ∈ calls, call.mapping = mapping) :
    Tracked m (m.after calls) mapping (m.dropped calls) := by
  induction calls with
  | nil => exact .start m mapping
  | cons call past ih =>
    obtain ⟨hcall, hpast⟩ := List.forall_mem_cons.mp hcalls
    have hr := hreached.after past
    exact (ih hpast).run hr.wellFormed.1 hr.apart hcall

/-- What the mapping had comes back with its teardown, apart from what was dropped. -/
theorem Tracked.tornDown (ht : Tracked m₀ m mapping lost) (h : m.WellFormed) (ha : m.Apart)
    (ppn : Ppn) : (teardown mapping m).state.frames.isFree ppn = true ↔
      (m₀.frames.isFree ppn = true ∨ ppn ∈ m₀.ppns mapping) ∧ ppn ∉ lost := by
  obtain ⟨hr, hnone⟩ := teardown_respects h ha mapping
  have hframes := hr.frames ppn
  rw [hnone, List.mem_nil_iff, or_false] at hframes
  have hlost : ppn ∈ lost → ¬ (m.frames.isFree ppn = true ∨ ppn ∈ m.ppns mapping) := by
    intro hppn
    simp [ht.lost ppn hppn]
  rw [hframes, ← ht.all]
  tauto

theorem mem_dropped {calls : List Call} (hcalls : ∀ call ∈ calls, call.mapping = mapping)
    {ppn : Ppn} (hppn : ppn ∈ m.dropped calls) :
    ∃ past, past <:+ calls ∧ ppn ∈ (m.after past).ppns mapping := by
  induction calls with
  | nil => cases hppn
  | cons call past ih =>
    obtain ⟨hcall, hpast⟩ := List.forall_mem_cons.mp hcalls
    rcases List.mem_append.mp hppn with hnow | hbefore
    · refine ⟨past, List.suffix_cons call past, ?_⟩
      obtain rfl := hcall
      unfold Call.drops at hnow
      split at hnow
      · split at hnow
        · exact hnow
        · cases hnow
      · cases hnow
    · obtain ⟨before, hsuffix, hmem⟩ := ih hpast hbefore
      exact ⟨before, hsuffix.trans (List.suffix_cons call past), hmem⟩

end StaticMachine

namespace Pager

variable {p : Pager} {pid : Pid} {key : PageKey} {ppn : Ppn} {events : List Event}

/-- Another process has had the frames that it has all along. -/
theorem frame?_of_after (h : p.WellFormed none) (hby : ∀ event ∈ events, event.By pid)
    (hk : key.pid ≠ pid) (hf : (p.after events).frame? key = some ppn) :
    p.frame? key = some ppn := by
  induction events with
  | nil => exact hf
  | cons event past ih =>
    obtain ⟨hevent, hpast⟩ := List.forall_mem_cons.mp hby
    exact ih hpast (((h.after past).stepOf event).2.frame_other hevent hk hf)

theorem after_append (p : Pager) (events past : List Event) :
    p.after (events ++ past) = (p.after past).after events := by
  induction events with
  | nil => rfl
  | cons event rest ih => rw [List.cons_append, after, after, ih]

theorem extent_after_teardown (h : p.WellFormed none) (pid : Pid) (events : List Event) :
    (p.after (.teardown pid :: events)).extent pid = none := by
  have hspace := ((h.after events).stepOf (.teardown pid)).2.hasSpace pid
  rw [hasSpaceAfter, bne_self_eq_false, Bool.false_and, Option.isSome_eq_false_iff,
    Option.isNone_iff_eq_none] at hspace
  exact hspace

/-- A frame that is not free after the teardown of a process belonged to another one throughout. -/
theorem used_after_teardown (h : p.WellFormed none) (hby : ∀ event ∈ events, event.By pid)
    (hlt : ppn.toNat < p.frames.total)
    (hused : (p.after (.teardown pid :: events)).frames.isFree ppn = false) :
    ∃ key : PageKey, key.pid ≠ pid ∧
      ∀ past, past <:+ .teardown pid :: events → (p.after past).frame? key = some ppn := by
  have hby' : ∀ event ∈ Event.teardown pid :: events, event.By pid :=
    List.forall_mem_cons.mpr ⟨rfl, hby⟩
  have hend := h.after (.teardown pid :: events)
  have hgone := extent_after_teardown h pid events
  have hnot : ¬ ((p.after (.teardown pid :: events)).frames.isFree ppn = true) := by simp [hused]
  rw [hend.isFree_iff, (lasting_after h _).total, not_and, not_forall] at hnot
  obtain ⟨key, hkey⟩ := hnot hlt
  rw [not_not] at hkey
  have hk : key.pid ≠ pid := by
    intro hpid
    rw [hend.frame?_none (hpid.symm ▸ hgone)] at hkey
    cases hkey
  refine ⟨key, hk, ?_⟩
  rintro past ⟨recent, hsplit⟩
  rw [← hsplit] at hkey hby'
  rw [after_append] at hkey
  exact frame?_of_after (h.after past)
    (fun event hevent => hby' event (List.mem_append_left _ hevent)) hk hkey

/-- What a process had at any time is free after its teardown. -/
theorem free_after_teardown (h : p.WellFormed none) (hby : ∀ event ∈ events, event.By pid)
    {past : List Event} (hpast : past <:+ events) {vpn : Vpn}
    (hheld : (p.after past).frame? ⟨pid, vpn⟩ = some ppn) :
    (p.after (.teardown pid :: events)).frames.isFree ppn = true := by
  have hlt := (h.after past).lt_of_frame? hheld
  rw [(lasting_after h past).total] at hlt
  rw [← Bool.not_eq_false]
  intro hused
  obtain ⟨key, hk, hall⟩ := used_after_teardown h hby hlt hused
  have howner := (h.after past).owner_of_frame?
    (hall past (hpast.trans (List.suffix_cons _ _)))
  rw [(h.after past).owner_of_frame? hheld] at howner
  exact hk (congrArg PageKey.pid (Option.some.inj howner)).symm

/-- A process that has a space cannot be loaded again. -/
theorem load_refused (hspace : p.extent pid ≠ none) (layout : Layout) :
    (load pid layout).Ends p fun r p' => r = .error .alreadyMapped ∧ p' = p := by
  have hknown : p.spaces.contains pid = true := by
    rw [ne_eq, extent_eq_none_iff, Bool.not_eq_false] at hspace
    exact hspace
  simp only [load, registerSpace, Op.ends_bind, Op.ends_get, hknown, if_true, Op.ends_notify,
    Op.ends_throw]
  exact ⟨trivial, trivial⟩

end Pager

/-- What becomes of the frames of a static mapping, and of those of a process of the pager, with any
calls and a teardown. A static mapping gives back what it had, apart from the frames of tables that
a load replaced; so all that it had is free if no load replaced any, and only then. With the pager
a frame that is not free has belonged to another process all along, all frames of the process are
free, and a load that would replace its pages is refused. -/
theorem frames_after_reloads {c c' : Config} {m : StaticMachine} {p : Pager}
    (hm : StaticMachine.Reached c m) (hp : Pager.Reached c' p) {mapping : Nat}
    {calls : List StaticMachine.Call} (hcalls : ∀ call ∈ calls, call.mapping = mapping) {pid : Pid}
    {events : List Pager.Event} (hevents : ∀ event ∈ events, event.By pid) :
    ((∀ ppn, (m.after (.teardown mapping :: calls)).frames.isFree ppn = true ↔
        (m.frames.isFree ppn = true ∨ ppn ∈ m.ppns mapping) ∧ ppn ∉ m.dropped calls) ∧
      ((∀ past, past <:+ calls → ∀ ppn ∈ (m.after past).ppns mapping,
        (m.after (.teardown mapping :: calls)).frames.isFree ppn = true) ↔
          m.dropped calls = [])) ∧
    (∀ ppn, ppn.toNat < p.frames.total →
      (p.after (.teardown pid :: events)).frames.isFree ppn = false →
      ∃ key : PageKey, key.pid ≠ pid ∧
        ∀ past, past <:+ .teardown pid :: events → (p.after past).frame? key = some ppn) ∧
    ∀ past, past <:+ events →
      (∀ vpn ppn, (p.after past).frame? ⟨pid, vpn⟩ = some ppn →
        (p.after (.teardown pid :: events)).frames.isFree ppn = true) ∧
      ((p.after past).extent pid ≠ none → ∀ layout,
        (Pager.load pid layout (p.after past)).result = .error .alreadyMapped ∧
          (Pager.load pid layout (p.after past)).state = p.after past) := by
  have hafter := hm.after calls
  have hfree := (StaticMachine.Tracked.after hm hcalls).tornDown hafter.wellFormed.1 hafter.apart
  refine ⟨⟨hfree, ?_, ?_⟩, ?_, ?_⟩
  · intro hall
    rw [List.eq_nil_iff_forall_not_mem]
    intro ppn hppn
    obtain ⟨past, hsuffix, hmem⟩ := StaticMachine.mem_dropped hcalls hppn
    exact ((hfree ppn).mp (hall past hsuffix ppn hmem)).2 hppn
  · intro hnone past hsuffix ppn hppn
    have hpast : ∀ call ∈ past, call.mapping = mapping :=
      fun call hcall => hcalls call (hsuffix.subset hcall)
    refine (hfree ppn).mpr ⟨?_, hnone ▸ List.not_mem_nil⟩
    exact ((StaticMachine.Tracked.after hm hpast).all ppn).mp (Or.inl (Or.inr hppn))
  · exact fun ppn hlt hused => Pager.used_after_teardown hp.wellFormed hevents hlt hused
  · intro past hsuffix
    refine ⟨fun vpn ppn hheld => Pager.free_after_teardown hp.wellFormed hevents hsuffix hheld, ?_⟩
    exact fun hspace layout => Pager.load_refused hspace layout

def blankPage : Layout := ⟨1, ⟨.scripted [] [] ⟨0⟩, []⟩⟩

/-- A mapping of one page is loaded again, after a load of too many pages. -/
def StaticMachine.reloads : List StaticMachine.Call :=
  [.load 0 0 blankPage, .load 0 0 { blankPage with numPages := 3 }, .load 0 0 blankPage]

/-- A process with a page in a frame asks for a space again. -/
def Pager.reloads : List Pager.Event :=
  [.register 1 2 none, .miss 1 ⟨0⟩, .register 1 1 none]

theorem frames_after_reloads_once :
    (StaticMachine.ofSizes 2 4).dropped StaticMachine.reloads = [0] ∧
    ((StaticMachine.ofSizes 2 4).after
      (.teardown 0 :: StaticMachine.reloads)).frames.isFree 1 = true ∧
    (Pager.pair.after Pager.reloads).frame? ⟨1, 0⟩ = some 0 ∧
    (Pager.pair.after (.teardown 1 :: Pager.reloads)).frames.isFree 0 = true ∧
    (Pager.load 1 blankPage (Pager.pair.after Pager.reloads)).result = .error .alreadyMapped := by
  obtain ⟨⟨hfree, -⟩, -, hpager⟩ := frames_after_reloads (c := Pager.pairConfig)
    (m := .ofSizes 2 4) (p := Pager.pair) (.booted rfl) (.created Pager.created_pair)
    (show ∀ call ∈ StaticMachine.reloads, call.mapping = 0 by decide)
    (show ∀ event ∈ Pager.reloads, event.By 1 by simp [Pager.reloads, Pager.Event.By])
  obtain ⟨hreturned, hrefused⟩ := hpager Pager.reloads (List.suffix_refl _)
  have hdropped : (StaticMachine.ofSizes 2 4).dropped StaticMachine.reloads = [0] := by
    decide +kernel
  have hframe : (Pager.pair.after Pager.reloads).frame? ⟨1, 0⟩ = some 0 := by decide +kernel
  refine ⟨hdropped, (hfree 1).mpr ?_, hframe, hreturned 0 0 hframe,
    (hrefused ?_ blankPage).1⟩
  · rw [hdropped]
    decide +kernel
  · decide +kernel

/-- The frame of the first load is not given back, although the teardown empties the table. -/
theorem StaticMachine.reload_loses_frame :
    (load 0 0 blankPage (ofSizes 2 4)).result = .ok () ∧
      ((ofSizes 2 4).after [.load 0 0 blankPage]).ppns 0 = [0] ∧
      (load 0 0 blankPage ((ofSizes 2 4).after [.load 0 0 blankPage])).result = .ok () ∧
      ((ofSizes 2 4).after
        [.teardown 0, .load 0 0 blankPage, .load 0 0 blankPage]).table 0 = [] ∧
      ((ofSizes 2 4).after
        [.teardown 0, .load 0 0 blankPage, .load 0 0 blankPage]).frames.isFree 0 = false := by
  decide +kernel

end VirtualMemory
