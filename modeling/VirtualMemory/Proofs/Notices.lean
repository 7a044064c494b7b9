import VirtualMemory.Frames
import VirtualMemory.PageTable
import VirtualMemory.Proofs.Outcome

/-!
# What operations report

`Op.Issues x s P`: all notices that `x` issues from `s` satisfy `P`. It moves to the parts of an
operation as `Op.Ends` does, by which the states in between are known. Most operations of table and
frames are `Discreet`: they report nothing unless they fail, so that whoever shows that they succeed
has shown that they are silent.
-/

namespace VirtualMemory

/-- The operation has come back with this result, and the program has not stopped. -/
structure Outcome.Returns {σ ε α : Type} (y : Outcome σ ε α) (r : Except ε α) : Prop where
  result : y.result = r
  running : y.halted = false

namespace Op

variable {σ τ ε ε' α β : Type} {x : Op σ ε α} {s : σ} {P : Notice → Prop}

/-- All notices of `x` from `s` satisfy `P`. -/
def Issues (x : Op σ ε α) (s : σ) (P : Notice → Prop) : Prop := ∀ n ∈ (x s).notices, P n

theorem issues_pure (a : α) (s : σ) : (pure a : Op σ ε α).Issues s P := nofun

theorem issues_throw (e : ε) (s : σ) : (throw e : Op σ ε α).Issues s P := nofun

theorem issues_get (s : σ) : (get : Op σ ε σ).Issues s P := nofun

theorem issues_set (s' s : σ) : (set s' : Op σ ε PUnit).Issues s P := nofun

theorem issues_modify (f : σ → σ) (s : σ) : (modify f : Op σ ε PUnit).Issues s P := nofun

theorem issues_modifyGet (f : σ → α × σ) (s : σ) : (modifyGet f : Op σ ε α).Issues s P := nofun

theorem issues_ofExcept (r : Except ε α) (s : σ) : (ofExcept r : Op σ ε α).Issues s P := nofun

theorem issues_notify (n : Notice) (s : σ) : (notify n : Op σ ε Unit).Issues s P ↔ P n :=
  List.forall_mem_singleton

theorem issues_checkDivisor (pageSize : Nat) (s : σ) :
    (checkDivisor pageSize : Op σ ε Unit).Issues s P ↔
      (pageSize.toUInt32 = 0 → P (.halted .divisionByZero)) := by
  by_cases h : pageSize.toUInt32 = 0 <;> simp [Issues, checkDivisor, h]

theorem issues_checkBuffer (size : Nat) (s : σ) :
    (checkBuffer size : Op σ ε Unit).Issues s P ↔
      (¬ size < 0x8000000000000000 → P (.halted .bufferTooLarge)) := by
  by_cases h : size < 0x8000000000000000 <;> simp [Issues, checkBuffer, h]

theorem issues_on (part : Part σ τ) (x : Op τ ε α) (s : σ) :
    (on part x).Issues s P ↔ x.Issues (part.get s) P := Iff.rfl

theorem issues_apart (t : τ) (x : Op τ ε α) (s : σ) :
    (apart t x : Op σ ε (α × τ)).Issues s P ↔ x.Issues t P := by
  simp only [Issues, apart]
  rcases x t with ⟨_ | _, _, _⟩ <;> exact Iff.rfl

theorem issues_attempt (x : Op σ ε α) (s : σ) :
    (attempt x : Op σ ε' (Except ε α)).Issues s P ↔ x.Issues s P := Iff.rfl

theorem issues_liftM (x : Op σ Empty α) (s : σ) :
    (liftM x : Op σ ε α).Issues s P ↔ x.Issues s P := by
  show (total x).Issues s P ↔ x.Issues s P
  simp only [Issues, total]
  rcases x s with ⟨e | _, _, _⟩
  · exact e.elim
  · exact Iff.rfl

/-- The rest of an operation has the say where its first part has succeeded. -/
theorem issues_bind (x : Op σ ε α) (f : α → Op σ ε β) (s : σ) :
    (x >>= f).Issues s P ↔ x.Issues s P ∧ x.Ends s fun r s' =>
      match r with
      | .ok a => (f a).Issues s' P
      | .error _ => True := by
  simp only [Issues, Ends, bind_apply]
  rcases x s with ⟨_ | _, _, _⟩
  · exact (and_iff_left trivial).symm
  · exact List.forall_mem_append

theorem issues_return (x : Op σ ε α) (f : α → β) (s : σ) :
    (do return f (← x) : Op σ ε β).Issues s P ↔ x.Issues s P := by
  rw [issues_bind, and_iff_left]
  refine (ends_self x s).imp ?_
  rintro (e | a) s' -
  · trivial
  · exact issues_pure _ _

theorem Issues.bind {f : α → Op σ ε β} (hx : x.Issues s P) (hf : ∀ a s', (f a).Issues s' P) :
    (x >>= f).Issues s P := by
  rw [issues_bind]
  refine ⟨hx, (ends_self x s).imp ?_⟩
  rintro (e | a) s' -
  · trivial
  · exact hf a s'

theorem issues_mapM {f : α → Op σ ε β} (hf : ∀ a s', (f a).Issues s' P) (l : List α) (s : σ) :
    (l.mapM f).Issues s P := by
  induction l generalizing s with
  | nil => exact issues_pure _ _
  | cons a l ih =>
    rw [List.mapM_cons]
    exact (hf a s).bind fun _ s' => (ih s').bind fun _ _ => issues_pure _ _

/-! ## Programs that stop -/

theorem halted_eq_false_iff : (x s).halted = false ↔ x.Issues s (·.isHalt = false) := by
  simp [Outcome.halted, Issues]

/-! ## Operations that report their failures alone -/

/-- Nothing is reported by a run that succeeds. -/
def Discreet (x : Op σ ε α) : Prop := ∀ s a, (x s).result = .ok a → (x s).notices = []

theorem Discreet.issues (hx : x.Discreet) (h : x.Ends s fun r _ => ∃ a, r = .ok a) :
    x.Issues s P := by
  obtain ⟨a, ha⟩ := h
  intro n hn
  rw [hx s a ha] at hn
  cases hn

theorem discreet_pure (a : α) : (pure a : Op σ ε α).Discreet := fun _ _ _ => rfl

theorem discreet_throw (e : ε) : (throw e : Op σ ε α).Discreet := fun _ _ _ => rfl

theorem discreet_get : (get : Op σ ε σ).Discreet := fun _ _ _ => rfl

theorem discreet_set (s : σ) : (set s : Op σ ε PUnit).Discreet := fun _ _ _ => rfl

theorem discreet_modify (f : σ → σ) : (modify f : Op σ ε PUnit).Discreet := fun _ _ _ => rfl

theorem discreet_modifyGet (f : σ → α × σ) : (modifyGet f : Op σ ε α).Discreet :=
  fun _ _ _ => rfl

/-- A failure that is reported, whatever was to come after it. -/
theorem discreet_refusal (n : Notice) (e : ε) (f : α → Op σ ε β) :
    (do notify n; let a ← throw e; f a : Op σ ε β).Discreet := nofun

theorem Discreet.bind {f : α → Op σ ε β} (hx : x.Discreet) (hf : ∀ a, (f a).Discreet) :
    (x >>= f).Discreet := by
  intro s b hb
  rw [bind_apply] at hb ⊢
  have hquiet := hx s
  revert hb hquiet
  rcases x s with ⟨_ | a, s', notices⟩
  · exact nofun
  · intro hb hquiet
    rw [show notices = [] from hquiet a rfl]
    exact hf a s' b hb

theorem Discreet.on {x : Op τ ε α} (hx : x.Discreet) (part : Part σ τ) : (on part x).Discreet :=
  fun s a ha => hx (part.get s) a ha

end Op

/-! ## Table and frames -/

theorem ResidentIndex.discreet_register (ppn : Ppn) (key : PageKey) :
    (register ppn key).Discreet := by
  refine Op.discreet_get.bind fun r => ?_
  split
  · exact Op.discreet_throw _
  · exact Op.discreet_set _
  · split
    · exact nofun
    · exact Op.discreet_pure _

namespace PageTable

variable {key : PageKey} {entry : Entry}

theorem discreet_insert (key : PageKey) (entry : Entry) : (insert key entry).Discreet := by
  refine Op.discreet_get.bind fun t => ?_
  dsimp only
  split
  · exact Op.discreet_refusal _ _ _
  split
  · apply Op.Discreet.bind
    · exact (ResidentIndex.discreet_register _ _).on _
    · exact fun _ => Op.discreet_modify _
  · exact Op.discreet_modify _

theorem discreet_update (key : PageKey) (entry : Entry) : (update key entry).Discreet := by
  refine Op.discreet_get.bind fun t => ?_
  dsimp only
  split
  next old _ =>
    have hstore : (do
        Op.on residentPart (ResidentIndex.register entry.ppn key)
        modify fun t => { t with entries := t.entries.insert key (entry.absorb old) } :
          Op PageTable MemoryError Unit).Discreet := by
      apply Op.Discreet.bind
      · exact (ResidentIndex.discreet_register _ _).on _
      · exact fun _ => Op.discreet_modify _
    have hmove : ∀ moves : Bool, (if moves then do
          set { t with resident := (t.resident.unregister old.ppn).2 }
          Op.on residentPart (ResidentIndex.register entry.ppn key)
          modify fun t => { t with entries := t.entries.insert key (entry.absorb old) }
        else do
          Op.on residentPart (ResidentIndex.register entry.ppn key)
          modify fun t => { t with entries := t.entries.insert key (entry.absorb old) } :
            Op PageTable MemoryError Unit).Discreet := by
      intro moves
      split
      · exact (Op.discreet_set _).bind fun _ => hstore
      · exact hstore
    split
    · split
      · split
        · exact Op.discreet_refusal _ _ _
        · exact hmove _
      · exact hmove _
    · exact Op.discreet_pure _
  · exact Op.discreet_throw _

theorem remove_issues (t : PageTable) (key : PageKey) {P : Notice → Prop} :
    (remove key).Issues t P := by
  simp only [remove, Op.issues_bind, Op.issues_get, Op.ends_get, true_and]
  split
  · simp only [Op.issues_bind]
    exact ⟨Op.issues_set _ _, Op.issues_pure _ _⟩
  · exact Op.issues_throw _ _

end PageTable

theorem Frames.discreet_release (ppn : Ppn) : (release ppn).Discreet := by
  refine Op.discreet_get.bind fun f => ?_
  split
  · exact Op.discreet_throw _
  · exact nofun
  · exact Op.discreet_set _

end VirtualMemory
