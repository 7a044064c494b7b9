import VirtualMemory.Process.Load
import VirtualMemory.Proofs.FlatSpace

/-!
# A process on any machine

A process reads and writes its memory in pieces, page by page, and tries each piece again after
every miss. On a machine that serves it, all of this ends as on flat memory. The pieces are the same
on both sides, so the proofs follow the loops of the copy; only the retries differ, and two rounds
are enough.
-/

namespace VirtualMemory

variable {σ ε α : Type} [Mmu σ] {R : FlatSpace → σ → Prop} {G : σ → Prop}
  {Ready : VirtAddr → σ → Prop} {number : Nat} {pageSize numPages : Nat} {vaddr : VirtAddr}
  {f : FlatSpace} {m : σ}

/-! ## Serving a process -/

/-- An access of a machine against that of flat memory: it does the same where the page of the
address is ready, and else misses and leaves everything as it is. -/
structure Answers (R : FlatSpace → σ → Prop) (G : σ → Prop) (Ready : VirtAddr → σ → Prop)
    (vaddr : VirtAddr) (x : Op σ Exception α) (y : Op FlatSpace Exception α) : Prop where
  ready : ∀ f m, R f m → Ready vaddr m → x.Ends m fun r m' =>
    (G m' → G m) ∧ r = (y f).result ∧ R (y f).state m'
  miss : ∀ f m, R f m → ¬ Ready vaddr m → x.Ends m fun r m' =>
    (G m' → G m) ∧ r = .error .tlbMiss ∧ R f m' ∧ ¬ Ready vaddr m'

/-- The machine does for process `number` what flat memory does. -/
structure Serves (number : Nat) (pageSize numPages : Nat) (R : FlatSpace → σ → Prop) (G : σ → Prop)
    (Ready : VirtAddr → σ → Prop) : Prop where
  read : ∀ vaddr length, (vaddr.vpn pageSize).toNat < numPages →
    vaddr.offset pageSize + length ≤ pageSize →
    Answers R G Ready vaddr (Mmu.read number vaddr length) (Mmu.read number vaddr length)
  write : ∀ vaddr data, (vaddr.vpn pageSize).toNat < numPages →
    vaddr.offset pageSize + data.length ≤ pageSize →
    Answers R G Ready vaddr (Mmu.write number vaddr data) (Mmu.write number vaddr data)
  /-- A miss that is resolved leaves the page ready; it is resolved unless something fails. -/
  resolves : ∀ f m vaddr, (vaddr.vpn pageSize).toNat < numPages → R f m → ¬ Ready vaddr m →
    (Mmu.handleFault number vaddr .tlbMiss).Ends m fun r m' =>
      R f m' ∧ (r = .ok .success → Ready vaddr m') ∧ (G m' → G m ∧ r = .ok .success)
  refuses : ∀ f m vaddr e, e ≠ .tlbMiss → R f m →
    (Mmu.handleFault number vaddr e).Ends m fun r m' =>
      (G m' → G m) ∧ r = .ok (.ofException e) ∧ R f m'
  save : ∀ f m, R f m → (Mmu.saveContext number).Ends m fun r m' =>
    (G m' → G m) ∧ r = .ok () ∧ R f m'
  restore : ∀ f m, R f m → (Mmu.restoreContext number).Ends m fun r m' =>
    (G m' → G m) ∧ r = .ok () ∧ R f m'
  teardown : ∀ f m, R f m → (Mmu.teardown number).Ends m fun _ m' => G m' → G m

/-! ## An access and its misses -/

def Hits (y : Op FlatSpace Exception α) : Prop :=
  ∀ f e, (y f).result = .error e → e ≠ .tlbMiss

theorem FlatSpace.hits_of_check {vaddr : VirtAddr} {access : Access}
    {y : Unit → Op FlatSpace Exception α} (hy : ∀ f e, (y () f).result ≠ .error e) :
    Hits (check vaddr access >>= y) := by
  intro f
  have hends : (check vaddr access >>= y).Ends f fun r _ => ∀ e, r = .error e → e ≠ .tlbMiss := by
    rw [Op.ends_bind]
    refine Op.Ends.imp (Q := fun r _ => ∀ e, r = .error e → e ≠ .tlbMiss)
      (fun e he => FlatSpace.not_tlbMiss_of_check he) ?_
    rintro (e | u) f' hr
    · exact fun e' he' => hr e' (by rw [Except.error.inj he'])
    · exact fun e he => absurd he (hy f' e)
  exact hends

theorem FlatSpace.hits_read (number : Nat) (vaddr : VirtAddr) (length : Nat) :
    Hits (Mmu.read number vaddr length : Op FlatSpace Exception Bytes) :=
  hits_of_check fun _ _ => nofun

theorem FlatSpace.hits_write (number : Nat) (vaddr : VirtAddr) (data : Bytes) :
    Hits (Mmu.write number vaddr data : Op FlatSpace Exception Nat) :=
  hits_of_check fun _ _ => nofun

/-- An exception that is only passed on is not a success. -/
theorem ofException_ne_success (e : Exception) : FaultResult.ofException e ≠ .success := by
  cases e <;> decide

theorem FlatSpace.handleFault_ends (number : Nat) (vaddr : VirtAddr) (e : Exception)
    (f : FlatSpace) :
    (Mmu.handleFault number vaddr e : Op FlatSpace Empty FaultResult).Ends f fun r f' =>
      r = .ok (.ofException e) ∧ f' = f := ⟨rfl, rfl⟩

/-- Flat memory needs one round. -/
theorem FlatSpace.withFaults_ends (number : Nat) (vaddr : VirtAddr) (y : Op FlatSpace Exception α)
    (exhausted : Op FlatSpace FaultResult α) (rounds : Nat) (f : FlatSpace) :
    (withFaults number vaddr y exhausted (rounds + 1)).Ends f fun r f' =>
      r = (y f).result.mapError .ofException ∧ f' = (y f).state := by
  simp only [withFaults, Op.ends_bind, Op.ends_attempt]
  rw [Op.Ends]
  rcases (y f).result with e | a
  · simp only [Op.ends_bind, Op.ends_total]
    refine (handleFault_ends number vaddr e _).imp ?_
    rintro r f' ⟨rfl, rfl⟩
    simp only [if_neg (ofException_ne_success e), Op.ends_throw]
    exact ⟨rfl, trivial⟩
  · exact ⟨rfl, rfl⟩

/-- Where the page is ready, the machine needs one round too. -/
theorem Answers.hit (hs : Serves number pageSize numPages R G Ready) {x : Op σ Exception α}
    {y : Op FlatSpace Exception α} (ha : Answers R G Ready vaddr x y) (hy : Hits y) (hR : R f m)
    (hready : Ready vaddr m) (exhausted : Op σ FaultResult α) (rounds : Nat) :
    (withFaults number vaddr x exhausted (rounds + 1)).Ends m fun r m' =>
      (G m' → G m) ∧ r = (y f).result.mapError .ofException ∧ R (y f).state m' := by
  simp only [withFaults, Op.ends_bind, Op.ends_attempt]
  refine (ha.ready f m hR hready).imp ?_
  rintro r m₁ ⟨hg, rfl, hR₁⟩
  cases hr : (y f).result with
  | ok a =>
    simp only [Op.ends_pure]
    exact ⟨hg, rfl, hR₁⟩
  | error e =>
    simp only [Op.ends_bind, Op.ends_total]
    refine (hs.refuses _ m₁ vaddr e (hy f e hr) hR₁).imp ?_
    rintro r m₂ ⟨hg', rfl, hR₂⟩
    simp only [if_neg (ofException_ne_success e), Op.ends_throw]
    exact ⟨fun h => hg (hg' h), rfl, hR₂⟩

/-- An access that is tried again after a miss ends as on flat memory. -/
theorem Answers.simulates (hs : Serves number pageSize numPages R G Ready) {x : Op σ Exception α}
    {y : Op FlatSpace Exception α} (ha : Answers R G Ready vaddr x y) (hy : Hits y)
    (hin : (vaddr.vpn pageSize).toNat < numPages) (q : Nat) (exhausted : Op σ FaultResult α)
    (exhausted' : Op FlatSpace FaultResult α) (rounds : Nat) :
    (withFaults number vaddr x exhausted (rounds + 2)).Simulates R G
      (withFaults q vaddr y exhausted' (rounds + 2)) := by
  intro f m hR
  obtain ⟨hflat, hstate⟩ := FlatSpace.withFaults_ends q vaddr y exhausted' (rounds + 1) f
  rw [Op.SimulatesAt, hflat, hstate]
  by_cases hready : Ready vaddr m
  · refine (ha.hit hs hy hR hready exhausted (rounds + 1)).imp ?_
    rintro r m' ⟨hg, hr, hR'⟩
    exact ⟨⟨_, hR'⟩, fun h => ⟨hg h, hr, hR'⟩⟩
  · rw [withFaults, Op.ends_bind, Op.ends_attempt]
    refine (ha.miss f m hR hready).imp ?_
    rintro r m₁ ⟨hg₁, rfl, hR₁, hmiss⟩
    simp only [Op.ends_bind, Op.ends_total]
    refine (hs.resolves f m₁ vaddr hin hR₁ hmiss).imp ?_
    rintro (e | outcome) m₂ ⟨hR₂, hready₂, hg₂⟩
    · exact e.elim
    by_cases hout : outcome = .success
    · subst hout
      simp only [if_true]
      refine (ha.hit hs hy hR₂ (hready₂ rfl) exhausted rounds).imp ?_
      rintro r m' ⟨hg, hr, hR'⟩
      exact ⟨⟨_, hR'⟩, fun h => ⟨hg₁ (hg₂ (hg h)).1, hr, hR'⟩⟩
    · simp only [if_neg hout, Op.ends_throw]
      refine ⟨⟨f, hR₂⟩, ?_⟩
      intro h
      exact absurd (Except.ok.inj (hg₂ h).2) hout

/-! ## Copies -/

namespace Hosted

def Spans (p : Process) (pageSize numPages : Nat) : Prop :=
  p.pageSize = pageSize ∧ p.numPages = numPages

/-- Two processes of the same extent cut a copy into the same pieces. -/
theorem nextPiece_congr {p q : Process} (hp : Spans p pageSize numPages)
    (hq : Spans q pageSize numPages) (vaddr : VirtAddr) (done : Nat) :
    nextPiece q vaddr done = nextPiece p vaddr done := by
  have hpage : q.pageSize = p.pageSize := hq.1.trans hp.1.symm
  have hin : q.inBounds = p.inBounds := by
    funext a
    rw [Process.inBounds, Process.inBounds, hp.1, hp.2, hq.1, hq.2]
  unfold nextPiece
  rw [hpage, hin]

theorem offset_le (vaddr : VirtAddr) (pageSize : Nat) : vaddr.offset pageSize ≤ pageSize :=
  Nat.le_trans Nat.and_le_right (Nat.sub_le pageSize 1)

/-- A piece is in one page of the process. -/
theorem nextPiece_some {p : Process} (hp : Spans p pageSize numPages) {done room : Nat}
    {address : VirtAddr} (h : nextPiece p vaddr done = some (address, room)) :
    (address.vpn pageSize).toNat < numPages ∧ address.offset pageSize + room = pageSize := by
  obtain ⟨a, -, h⟩ := Option.bind_eq_some_iff.mp h
  obtain ⟨u, hin, h⟩ := Option.bind_eq_some_iff.mp h
  rw [hp.1] at h
  obtain ⟨rfl, rfl⟩ := Prod.mk.inj (Option.some.inj h)
  have hle := offset_le a pageSize
  have hbounds : p.inBounds a = true := by
    cases hout : p.inBounds a with
    | true => rfl
    | false =>
      rw [hout] at hin
      cases hin
  rw [Process.inBounds, hp.1, hp.2] at hbounds
  exact ⟨of_decide_eq_true hbounds, by omega⟩

variable {p q : Process}

omit [Mmu σ] in
theorem checkPiece_ends (p : Process) (vaddr : VirtAddr) (done : Nat) (s : σ) :
    (checkPiece p vaddr done : Op σ ε Unit).Ends s fun r s' => r = .ok () ∧ s' = s := by
  unfold checkPiece
  split
  · exact ⟨rfl, rfl⟩
  · exact ⟨rfl, rfl⟩

omit [Mmu σ] in
theorem simulates_checkPiece (vaddr : VirtAddr) (done : Nat) :
    (checkPiece p vaddr done : Op σ ε Unit).Simulates R G (checkPiece q vaddr done) := by
  unfold checkPiece
  split
  · exact .checkDivisor _ _
  · exact .pure _

/-- Piece by piece the copy sees what the flat space holds, up to the first page that is refused. -/
theorem simulates_readPieces (hs : Serves p.number pageSize numPages R G Ready)
    (hp : Spans p pageSize numPages) (hq : Spans q pageSize numPages) (vaddr : VirtAddr)
    (done missing pieces : Nat) :
    (readPieces p vaddr done missing pieces : Op σ Empty (Copied Bytes)).Simulates R G
      (readPieces q vaddr done missing pieces) := by
  induction pieces generalizing done missing with
  | zero => exact .pure _
  | succ pieces ih =>
    simp only [readPieces, nextPiece_congr hp hq]
    split
    next => exact .pure _
    next =>
      refine .bind (simulates_checkPiece vaddr done) fun _ => ?_
      cases hn : nextPiece p vaddr done with
      | none => exact .pure _
      | some piece =>
        obtain ⟨address, room⟩ := piece
        obtain ⟨hin, hroom⟩ := nextPiece_some hp hn
        have hread := hs.read address (min room missing) hin (by omega)
        refine .bind (.attempt
          (hread.simulates hs (FlatSpace.hits_read _ _ _) hin q.number _ _ 30)) ?_
        rintro (fault | data)
        · exact .pure _
        · simp only
          split
          · exact .pure _
          · exact .bind (ih _ _) fun rest => .pure _

/-- Piece by piece the flat space takes what the machine takes. -/
theorem simulates_writePieces (hs : Serves p.number pageSize numPages R G Ready)
    (hp : Spans p pageSize numPages) (hq : Spans q pageSize numPages) (vaddr : VirtAddr)
    (done : Nat) (rest : Bytes) (pieces : Nat) :
    (writePieces p vaddr done rest pieces : Op σ Empty (Copied Nat)).Simulates R G
      (writePieces q vaddr done rest pieces) := by
  induction pieces generalizing done rest with
  | zero => exact .pure _
  | succ pieces ih =>
    simp only [writePieces, nextPiece_congr hp hq]
    split
    next => exact .pure _
    next =>
      refine .bind (simulates_checkPiece vaddr done) fun _ => ?_
      cases hn : nextPiece p vaddr done with
      | none => exact .pure _
      | some piece =>
        obtain ⟨address, room⟩ := piece
        obtain ⟨hin, hroom⟩ := nextPiece_some hp hn
        have hlength : (rest.take room).length ≤ room := List.length_take_le _ _
        have hwrite := hs.write address (rest.take room) hin (by omega)
        refine .bind (.attempt
          (hwrite.simulates hs (FlatSpace.hits_write _ _ _) hin q.number _ _ 30)) ?_
        rintro (fault | n)
        · exact .pure _
        · simp only
          split
          · exact ih _ _
          · exact .pure _

/-! ## Processes on their machines -/

section

omit [Mmu σ]

/-- Process `number` on its machine, and a process of the same size and state on flat memory. -/
structure Alike (number : Nat) (pageSize numPages : Nat) (R : FlatSpace → σ → Prop)
    (t : Hosted FlatSpace) (s : Hosted σ) : Prop where
  machine : R t.machine s.machine
  number : s.process.number = number
  spans : Spans s.process pageSize numPages
  flat : Spans t.process pageSize numPages
  state : t.process.state = s.process.state

variable {t : Hosted FlatSpace} {s : Hosted σ}

theorem Alike.terminated (h : Alike number pageSize numPages R t s) :
    t.process.terminated = s.process.terminated := by
  rw [Process.terminated, Process.terminated, h.state]

/-- What a machine and the flat space do alike, they do alike below a process. -/
theorem Alike.on (h : Alike number pageSize numPages R t s) {x : Op σ ε α} {y : Op FlatSpace ε α}
    (hx : x.Simulates R G y) :
    Op.SimulatesAt (Alike number pageSize numPages R) (fun s => G s.machine) (Op.on machinePart x)
      (Op.on machinePart y) t s :=
  (hx _ _ h.machine).on (fun _ _ hR => ⟨hR, h.number, h.spans, h.flat, h.state⟩) fun _ => rfl

theorem simulates_setState (state : ProcessState) :
    (modify (setState state) : Op (Hosted σ) ε PUnit).Simulates (Alike number pageSize numPages R)
      (fun s => G s.machine) (modify (setState state)) :=
  fun _ _ h => .modify ⟨h.machine, h.number, h.spans, h.flat, rfl⟩ id

end

variable (hs : Serves number pageSize numPages R G Ready)

include hs

theorem simulates_copyOut (vaddr : VirtAddr) (length : Nat) :
    (copyOut vaddr length : Op (Hosted σ) Empty (Copied Bytes)).Simulates
      (Alike number pageSize numPages R) (fun s => G s.machine) (copyOut vaddr length) := by
  intro t s h
  refine .get ?_
  simp only [h.terminated]
  split
  · exact Op.Simulates.pure _ t s h
  · obtain rfl := h.number
    exact h.on (simulates_readPieces hs h.spans h.flat vaddr 0 length length)

theorem simulates_copyIn (vaddr : VirtAddr) (data : Bytes) :
    (copyIn vaddr data : Op (Hosted σ) Empty (Copied Nat)).Simulates
      (Alike number pageSize numPages R) (fun s => G s.machine) (copyIn vaddr data) := by
  intro t s h
  refine .get ?_
  simp only [h.terminated]
  split
  · exact Op.Simulates.pure _ t s h
  · obtain rfl := h.number
    exact h.on (simulates_writePieces hs h.spans h.flat vaddr 0 data data.length)

theorem simulates_readMemory (vaddr : VirtAddr) (length : Nat) :
    (readMemory vaddr length : Op (Hosted σ) Empty Bytes).Simulates
      (Alike number pageSize numPages R) (fun s => G s.machine) (readMemory vaddr length) :=
  .bind (simulates_copyOut hs vaddr length) fun _ => .pure _

theorem simulates_writeMemory (vaddr : VirtAddr) (data : Bytes) :
    (writeMemory vaddr data : Op (Hosted σ) Empty Nat).Simulates
      (Alike number pageSize numPages R) (fun s => G s.machine) (writeMemory vaddr data) :=
  .bind (simulates_copyIn hs vaddr data) fun _ => .pure _

/-- The text is cut at its first zero, which is the same one on both sides. -/
theorem simulates_readText (vaddr : VirtAddr) (maxLength : Nat) :
    (readText vaddr maxLength : Op (Hosted σ) Empty (Option String)).Simulates
      (Alike number pageSize numPages R) (fun s => G s.machine) (readText vaddr maxLength) := by
  refine .bind (.checkBuffer _ _) fun _ => .bind (simulates_readMemory hs vaddr _) ?_
  intro data
  split
  · exact .pure _
  · exact .pure _

/-- A flat space has no context to save, and the machine shows none. -/
theorem simulates_saveContext (q : Nat) :
    (Mmu.saveContext number : Op σ Empty Unit).Simulates R G
      (Mmu.saveContext q : Op FlatSpace Empty Unit) := by
  intro f m hR
  refine (hs.save f m hR).imp ?_
  rintro r m' ⟨hg, rfl, hR'⟩
  exact ⟨⟨f, hR'⟩, fun h => ⟨hg h, rfl, hR'⟩⟩

theorem simulates_restoreContext (q : Nat) :
    (Mmu.restoreContext number : Op σ Empty Unit).Simulates R G
      (Mmu.restoreContext q : Op FlatSpace Empty Unit) := by
  intro f m hR
  refine (hs.restore f m hR).imp ?_
  rintro r m' ⟨hg, rfl, hR'⟩
  exact ⟨⟨f, hR'⟩, fun h => ⟨hg h, rfl, hR'⟩⟩

theorem simulates_switchOut :
    (switchOut : Op (Hosted σ) Empty Unit).Simulates (Alike number pageSize numPages R)
      (fun s => G s.machine) switchOut := by
  intro t s h
  refine .get ?_
  simp only [h.terminated]
  split
  · obtain rfl := h.number
    exact (h.on (simulates_saveContext hs t.process.number)).bind fun _ => simulates_setState .ready
  · exact Op.Simulates.pure _ t s h

theorem simulates_switchIn :
    (switchIn : Op (Hosted σ) Empty Unit).Simulates (Alike number pageSize numPages R)
      (fun s => G s.machine) switchIn := by
  intro t s h
  refine .get ?_
  simp only [h.terminated]
  split
  · obtain rfl := h.number
    exact (h.on (simulates_restoreContext hs t.process.number)).bind fun _ =>
      simulates_setState .running
  · exact Op.Simulates.pure _ t s h

/-! ## Arguments -/

theorem simulates_writeAll (vaddr : VirtAddr) (data : Bytes) :
    (writeAll vaddr data : Op (Hosted σ) MemoryError Unit).Simulates
      (Alike number pageSize numPages R) (fun s => G s.machine) (writeAll vaddr data) := by
  refine .bind (.total (simulates_copyIn hs vaddr data)) ?_
  intro copied
  split
  · exact .throw _
  · exact .pure _

theorem simulates_writeArguments (pointer text : UInt32) (args : List Bytes) :
    (writeArguments pointer text args : Op (Hosted σ) MemoryError Unit).Simulates
      (Alike number pageSize numPages R) (fun s => G s.machine)
      (writeArguments pointer text args) := by
  induction args generalizing pointer text with
  | nil => exact .pure _
  | cons arg rest ih =>
    exact .bind (simulates_writeAll hs _ _) fun _ => .bind (simulates_writeAll hs _ _) fun _ =>
      .bind (simulates_writeAll hs _ _) fun _ => ih _ _

end Hosted

end VirtualMemory
