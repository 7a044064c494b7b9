import VirtualMemory.Proofs.Pager.Run

/-!
# Memory is coherent

A byte of a page is where the page is: in its frame, in its swap slot, in its image, or nowhere
while it is zero. Whatever happens, and whatever fails on the way, the pager delivers the value that
was written last. The invariant behind it is `Backed`: a clean frame agrees with what is kept for
its page, so that a page may leave its frame, or come back from a failed write, without losing a
byte.
-/

namespace VirtualMemory.Pager

variable {p p' : Pager} {key : PageKey} {event : Event} {answer : Answer}

/-- Byte `offset` of page `key` after an event, if it was `old` before. -/
def replaced (pageSize : Nat) (key : PageKey) (offset : Nat) (old : UInt8) : Event → Answer → UInt8
  | .register pid _ image, .registered (.ok _) =>
    if key.pid = pid then (image.map (·.initialByte key.vpn pageSize offset)).getD 0 else old
  | .write pid vaddr data, .written (.ok _) =>
    if key = ⟨pid, vaddr.vpn pageSize⟩ ∧ vaddr.offset pageSize ≤ offset ∧
        offset < vaddr.offset pageSize + data.length
    then data.getD (offset - vaddr.offset pageSize) 0 else old
  | _, _ => old

/-- What byte `offset` of page `key` has to be after these steps, the latest first: the value that
was written last since its space was registered, or else the first one. -/
def expected (pageSize : Nat) (key : PageKey) (offset : Nat) : List Step → UInt8
  | [] => 0
  | s :: past =>
    replaced pageSize key offset (expected pageSize key offset past) s.event s.answer

/-- A write that the event makes stays inside the page of its address. -/
def Event.InPage (pageSize : Nat) : Event → Prop
  | .write _ vaddr data => vaddr.offset pageSize + data.length ≤ pageSize
  | _ => True

/-! ## Steps that write nothing -/

theorem Undisturbed.byte (h : Undisturbed p p') (hsize : p.swap.pageSize = p.pageSize)
    (key : PageKey) {o : Nat} (ho : o < p.pageSize) : p'.byte key o = p.byte key o :=
  (h.kept key).byte (h.image key o) hsize ho

theorem Undisturbed.backed (h : Undisturbed p p') (hsize : p.swap.pageSize = p.pageSize)
    (hb : p.Backed) : p'.Backed := by
  intro key ppn hf hd o ho
  exact (h.kept key).backed (h.image key o) h.pageSize hsize hb hf hd ho

theorem Elsewhere.backed {pid : Pid} (h : Elsewhere p p' pid)
    (hsize : p.swap.pageSize = p.pageSize) (hb : p.Backed)
    (hnone : ∀ key : PageKey, key.pid = pid → p'.frame? key = none) : p'.Backed := by
  intro key ppn hf hd o ho
  have hk : key.pid ≠ pid := by
    intro hk
    rw [hnone key hk] at hf
    cases hf
  exact (h.kept key hk).backed (imageByte_congr (h.extent key.pid hk) h.pageSize o) h.pageSize hsize
    hb hf hd ho

/-! ## Accesses -/

variable {access : Access}

theorem Accessed.storedByte (h : Accessed p p' key access) (k : PageKey) (o : Nat) :
    p'.storedByte k o = p.storedByte k o := by
  simp only [Pager.storedByte, h.swap, h.steady.imageByte k o]

theorem Accessed.clean (h : Accessed p p' key access) {k : PageKey} (hd : p'.isDirty k = false) :
    p.isDirty k = false ∧ (access = .write → k ≠ key) := by
  rw [h.dirty, Bool.or_eq_false_iff, Bool.and_eq_false_iff, decide_eq_false_iff_not,
    decide_eq_false_iff_not] at hd
  obtain ⟨hd, hk | hk⟩ := hd
  · exact ⟨hd, fun _ => hk⟩
  · exact ⟨hd, fun hwrite => absurd hwrite hk⟩

theorem Accessed.byte (h : Accessed p p' key access) (hmem : p'.memory = p.memory) (k : PageKey)
    (o : Nat) : p'.byte k o = p.byte k o := by
  simp only [Pager.byte, h.frame, frameByte, hmem, h.steady.pageSize, h.storedByte]

theorem Accessed.backed (h : Accessed p p' key access) (hmem : p'.memory = p.memory)
    (hb : p.Backed) : p'.Backed := by
  intro k ppn hf hd o ho
  rw [h.frame] at hf
  rw [h.storedByte, frameByte, hmem, h.steady.pageSize]
  exact hb k ppn hf (h.clean hd).1 o (h.steady.pageSize ▸ ho)

theorem Accessed.byte_written {start : Nat} {data : Bytes} (h : Accessed p p' key access)
    (hover : Overwrote p p' key start data) (k : PageKey) {o : Nat} (ho : o < p.pageSize) :
    p'.byte k o =
      if k = key ∧ start ≤ o ∧ o < start + data.length then data.getD (o - start) 0
      else p.byte k o := by
  rw [Pager.byte, Pager.byte, h.frame]
  cases hf : p.frame? k with
  | some ppn => exact hover k ppn hf o ho
  | none =>
    have hk : k ≠ key := by
      rintro rfl
      have hres := h.resident
      rw [hf] at hres
      cases hres
    rw [if_neg fun hin => hk hin.1]
    exact h.storedByte k o

theorem Accessed.backed_written {start : Nat} {data : Bytes} (h : Accessed p p' key .write)
    (hover : Overwrote p p' key start data) (hb : p.Backed) : p'.Backed := by
  intro k ppn hf hd o ho
  rw [h.frame] at hf
  have ho := h.steady.pageSize ▸ ho
  obtain ⟨hclean, hk⟩ := h.clean hd
  rw [h.storedByte, hover k ppn hf o ho, if_neg fun hin => hk rfl hin.1]
  exact hb k ppn hf hclean o ho

/-! ## One step -/

/-- The pages of a new space hold what the image has for them, or zeros. -/
theorem byte_registered (h : p.WellFormed none) {pid : Pid} (hnew : p.extent pid = none)
    (numPages : Nat) (image : Option ImageIndex) (hk : key.pid = pid) (o : Nat) :
    (p.registered pid numPages image).byte key o =
      (image.map (·.initialByte key.vpn p.pageSize o)).getD 0 := by
  subst hk
  have hext := (extent_registered p key.pid numPages image key.pid).trans (if_pos rfl)
  have hframe : (p.registered key.pid numPages image).frame? key = none := h.frame?_none hnew
  have hslot : (p.registered key.pid numPages image).swap.slot? key = none :=
    ((Swapper.sameSlots_markAll p.swap _).slot? key).trans (h.slot?_none hnew)
  have himage : (p.registered key.pid numPages image).imageByte key o =
      (image.map (·.initialByte key.vpn p.pageSize o)).getD 0 := by
    rw [imageByte_eq, hext]
    cases image <;> rfl
  rw [byte, hframe]
  simp only [storedByte, hslot]
  split
  next => exact himage
  next hpending =>
    have hnone : image.bind (·.locate key.vpn) = none := by
      rw [← Option.not_isSome_iff_eq_none]
      intro horigin
      exact hpending ((Swapper.isPending_markAll p.swap _ key).mpr
        (Or.inr ⟨(mem_covered key.pid image key).mpr ⟨rfl, horigin⟩, h.slot?_none hnew⟩))
    cases image with
    | none => rfl
    | some index =>
      rw [Option.bind_some] at hnone
      rw [Option.map_some, Option.getD_some, ImageIndex.initialByte, hnone]

theorem replaced_of_idle (hidle : event.Idle answer) (pageSize : Nat) (key : PageKey)
    (offset : Nat) (old : UInt8) : replaced pageSize key offset old event answer = old := by
  unfold replaced
  split
  · exact hidle.elim
  · exact hidle.elim
  · rfl

/-- No step loses the only copy of a byte. -/
theorem Effect.backed (he : Effect p event answer p') (h : p.WellFormed none)
    (h' : p'.WellFormed none) (hin : event.InPage p.pageSize) (hb : p.Backed) : p'.Backed := by
  have hsize := h.sized.swap
  cases he with
  | idle _ hs => exact hs.backed hsize hb
  | registered hnew =>
    refine (elsewhere_registered p _ _ _).backed hsize hb ?_
    rintro key rfl
    exact h.frame?_none hnew
  | loaded _ hroom hl =>
    exact hl.backed (hroom.steady.swapSize.trans (hsize.trans hroom.steady.pageSize.symm))
      (hroom.backed hsize hb)
  | unresolved hroom => exact hroom.backed hsize hb
  | translated ha hmem => exact ha.backed hmem hb
  | read ha hmem => exact ha.backed hmem hb
  | written ha hover => exact ha.backed_written (hover hin) hb
  | evicted hev => exact hev.backed hsize hb
  | tornDown hel hgone =>
    refine hel.backed hsize hb ?_
    rintro key rfl
    exact h'.frame?_none hgone
  | swapFaults => exact (undisturbed_withSwapFaults p _).backed hsize hb
  | imageFaults => exact (undisturbed_withImageFaults p _ _).backed hsize hb

/-- A step changes the bytes that it names, and no others, of a page that is backed or in memory
after it. -/
theorem Effect.byteAt (he : Effect p event answer p') (h : p.WellFormed none)
    (hin : event.InPage p.pageSize) (hb : p'.frame? key = none → p.BackedAt key)
    (hspace : (p'.extent key.pid).isSome = true) {o : Nat} (ho : o < p.pageSize) :
    p'.byte key o = replaced p.pageSize key o (p.byte key o) event answer := by
  have hsize := h.sized.swap
  cases he with
  | idle hidle hs => rw [replaced_of_idle hidle, hs.byte hsize key ho]
  | registered hnew =>
    simp only [replaced]
    split
    next hk => exact byte_registered h hnew _ _ hk o
    next hk => exact (elsewhere_registered p _ _ _).byte hsize hk ho
  | @loaded pid vaddr _ p₁ _ habsent hroom hl =>
    have hsize₁ := hroom.steady.swapSize.trans (hsize.trans hroom.steady.pageSize.symm)
    have hb₁ : p₁.frame? key = none → p.BackedAt key := by
      intro hnone
      by_cases hk : key = p.pageOf pid vaddr
      · intro ppn hf
        rw [hk, habsent] at hf
        cases hf
      · exact hb ((hl.others key hk).frame.trans hnone)
    rw [hl.byte hsize₁ key (hroom.steady.pageSize ▸ ho), hroom.byteAt hsize key hb₁ ho]
    rfl
  | unresolved hroom => exact hroom.byteAt hsize key hb ho
  | translated ha hmem => exact ha.byte hmem key o
  | read ha hmem => exact ha.byte hmem key o
  | written ha hover => exact ha.byte_written (hover hin) key ho
  | evicted hev => exact hev.byte hsize key hb ho
  | tornDown hel hgone =>
    refine hel.byte hsize ?_ ho
    rintro rfl
    rw [hgone] at hspace
    cases hspace
  | swapFaults => exact (undisturbed_withSwapFaults p _).byte hsize key ho
  | imageFaults => exact (undisturbed_withImageFaults p _ _).byte hsize key ho

/-- A step changes the bytes that it names, and no others. -/
theorem Effect.byte (he : Effect p event answer p') (h : p.WellFormed none)
    (hin : event.InPage p.pageSize) (hb : p.Backed) (hspace : (p'.extent key.pid).isSome = true)
    {o : Nat} (ho : o < p.pageSize) :
    p'.byte key o = replaced p.pageSize key o (p.byte key o) event answer :=
  he.byteAt h hin (fun _ => hb key) hspace ho

/-- A space that is there now was there before, or is new. -/
theorem Effect.space (he : Effect p event answer p') {pid : Pid}
    (hspace : (p'.extent pid).isSome = true) :
    (p.extent pid).isSome = true ∨
      ∃ numPages image, event = .register pid numPages image ∧ answer = .registered (.ok ()) := by
  cases he.outline with
  | steady _ h => exact Or.inl (h.extent pid ▸ hspace)
  | @registered q numPages image =>
    by_cases hq : pid = q
    · subst hq
      exact Or.inr ⟨numPages, image, rfl, rfl⟩
    · rw [extent_registered, if_neg hq] at hspace
      exact Or.inl hspace
  | @tornDown q _ h hgone =>
    have hq : pid ≠ q := by
      rintro rfl
      rw [hgone] at hspace
      cases hspace
    exact Or.inl (h.extent pid hq ▸ hspace)
  | swapFaults => exact Or.inl hspace
  | imageFaults => exact Or.inl ((undisturbed_withImageFaults p _ _).spaces pid ▸ hspace)

/-! ## Runs -/

/-- Every byte of every space is what it has to be after these steps. -/
structure Coherent (past : List Step) (p : Pager) : Prop where
  backed : p.Backed
  bytes : ∀ key, (p.extent key.pid).isSome = true → ∀ o < p.pageSize,
    p.byte key o = expected p.pageSize key o past

theorem Coherent.created {c : Config} (h : Created c p) : Coherent [] p := by
  obtain ⟨-, hext, hframe, -⟩ := h.wellFormed
  constructor
  · intro key ppn hf
    rw [hframe] at hf
    cases hf
  · intro key hspace
    rw [hext] at hspace
    cases hspace

theorem Coherent.stepOf {past : List Step} (hc : Coherent past p) (h : p.WellFormed none)
    (event : Event) (hin : event.InPage p.pageSize) :
    Coherent (p.stepOf event :: past) (p.stepOf event).after := by
  obtain ⟨h', he⟩ := h.stepOf event
  refine ⟨he.backed h h' hin hc.backed, ?_⟩
  intro key hspace o ho
  rw [he.lasting.pageSize] at ho ⊢
  have hevent : (p.stepOf event).event = event := rfl
  rw [he.byte h hin hc.backed hspace ho, expected, hevent]
  rcases he.space hspace with hold | ⟨numPages, image, rfl, hanswer⟩
  · rw [hc.bytes key hold o ho]
  · rw [hanswer]
    simp only [replaced, if_true]

theorem Coherent.after (h : p.WellFormed none) (hc : Coherent [] p) (events : List Event)
    (hin : ∀ event ∈ events, event.InPage p.pageSize) :
    Coherent (p.history events) (p.after events) := by
  induction events with
  | nil => exact hc
  | cons event past ih =>
    refine (ih fun e he => hin e (List.mem_cons_of_mem _ he)).stepOf (h.after past) event ?_
    rw [(lasting_after h past).pageSize]
    exact hin event List.mem_cons_self

/-- A read inside a page that succeeds delivers the values that were written last, whatever happened
in between and whatever failed. -/
theorem read_coherent {c : Config} (hc : Created c p) (events : List Event)
    (hin : ∀ event ∈ events, event.InPage p.pageSize) (pid : Pid) (vaddr : VirtAddr) (length : Nat)
    (hlen : vaddr.offset p.pageSize + length ≤ p.pageSize) (data : Bytes)
    (hread : (read pid vaddr length (p.after events)).result = .ok data) :
    data = (List.range length).map fun i =>
      expected p.pageSize ⟨pid, vaddr.vpn p.pageSize⟩ (vaddr.offset p.pageSize + i)
        (p.history events) := by
  obtain ⟨h, -⟩ := hc.wellFormed
  have hsize := (lasting_after h events).pageSize
  have hcoherent := Coherent.after h (.created hc) events hin
  obtain ⟨-, hr⟩ := read_ends (h.after events) pid vaddr length
  rw [hread] at hr
  obtain ⟨haccessed, -, hdata⟩ := hr
  rw [pageOf, hsize] at haccessed hdata
  obtain ⟨hlength, hbytes⟩ := hdata hlen
  obtain ⟨ppn, hframe⟩ := Option.isSome_iff_exists.mp haccessed.resident
  have hspace := (h.after events).space_of_frame? hframe
  refine Bytes.eq_map_range hlength ?_
  intro i hi
  have hcoh := hcoherent.bytes _ hspace (vaddr.offset p.pageSize + i)
  rw [hsize] at hcoh
  rw [hbytes i hi, hcoh (by omega)]

theorem inPage_roundTrip : ∀ event ∈ roundTrip, event.InPage small.pageSize := by
  intro event hevent
  simp only [roundTrip, firstWrite, List.mem_cons, List.not_mem_nil, or_false] at hevent
  rcases hevent with rfl | rfl | rfl | rfl | rfl | rfl
  · trivial
  · trivial
  · trivial
  · show 2 ≤ 4
    decide
  · trivial
  · trivial

theorem read_coherent_roundTrip :
    (read 1 ⟨1⟩ 1 (small.after roundTrip)).result = .ok [7] ∧
      [7] = (List.range 1).map fun i =>
        expected small.pageSize ⟨1, VirtAddr.vpn ⟨1⟩ small.pageSize⟩
          (VirtAddr.offset ⟨1⟩ small.pageSize + i) (small.history roundTrip) := by
  have hread : (read 1 ⟨1⟩ 1 (small.after roundTrip)).result = .ok [7] := by decide +kernel
  exact ⟨hread, read_coherent created_small roundTrip inPage_roundTrip 1 ⟨1⟩ 1 (by decide) [7]
    hread⟩

end VirtualMemory.Pager
