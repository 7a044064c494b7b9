import VirtualMemory.Proofs.Outcome

/-!
# What operations maintain

`x.Maintains I A`: wherever `I` holds, it holds after `x` too, whether `x` fails or not, and an
answer satisfies `A`. An invariant that each part of an operation maintains is maintained by the
whole; in between nothing has to be known but the invariant and what was answered.
-/

namespace VirtualMemory.Op

variable {σ τ ε ε' α β ι : Type} {I : σ → Prop} {A : α → Prop} {B : β → Prop}

/-- `x` keeps `I`, and what it answers satisfies `A`. -/
def Maintains (I : σ → Prop) (A : α → Prop) (x : Op σ ε α) : Prop :=
  ∀ s, I s → x.Ends s fun r s' => I s' ∧ ∀ a, r = .ok a → A a

theorem Maintains.state {x : Op σ ε α} (h : Maintains I A x) {s : σ} (hs : I s) :
    I (x s).state := (h s hs).1

theorem Maintains.pure {a : α} (h : A a) : Maintains I A (pure a : Op σ ε α) := by
  intro s hs
  refine ⟨hs, ?_⟩
  rintro b ⟨⟩
  exact h

theorem Maintains.throw (e : ε) : Maintains I A (throw e : Op σ ε α) :=
  fun _ hs => ⟨hs, nofun⟩

theorem Maintains.notify (n : Notice) : Maintains I (fun _ => True) (notify n : Op σ ε Unit) :=
  fun _ hs => ⟨hs, fun _ _ => trivial⟩

theorem Maintains.checkDivisor (pageSize : Nat) :
    Maintains I (fun _ => True) (checkDivisor pageSize : Op σ ε Unit) :=
  fun _ hs => ⟨hs, fun _ _ => trivial⟩

theorem Maintains.checkBuffer (size : Nat) :
    Maintains I (fun _ => True) (checkBuffer size : Op σ ε Unit) :=
  fun _ hs => ⟨hs, fun _ _ => trivial⟩

theorem Maintains.ofExcept {r : Except ε α} (h : ∀ a, r = .ok a → A a) :
    Maintains I A (ofExcept r : Op σ ε α) :=
  fun _ hs => ⟨hs, h⟩

theorem Maintains.set {s' : σ} (h : I s') : Maintains I (fun _ => True) (set s' : Op σ ε PUnit) :=
  fun _ _ => ⟨h, fun _ _ => trivial⟩

theorem Maintains.modify {f : σ → σ} (h : ∀ s, I s → I (f s)) :
    Maintains I (fun _ => True) (modify f : Op σ ε PUnit) :=
  fun s hs => ⟨h s hs, fun _ _ => trivial⟩

theorem Maintains.modifyGet {f : σ → α × σ} (h : ∀ s, I s → I (f s).2 ∧ A (f s).1) :
    Maintains I A (modifyGet f : Op σ ε α) := by
  intro s hs
  obtain ⟨hs', ha⟩ := h s hs
  refine ⟨hs', ?_⟩
  rintro b ⟨⟩
  exact ha

/-- What the first operation guarantees of its value is what the second may rely on. -/
theorem Maintains.bind {x : Op σ ε α} {f : α → Op σ ε β} (hx : Maintains I A x)
    (hf : ∀ a, A a → Maintains I B (f a)) : Maintains I B (x >>= f) := by
  intro s hs
  rw [ends_bind]
  refine (hx s hs).imp ?_
  rintro (e | a) s' ⟨hs', ha⟩
  · exact ⟨hs', nofun⟩
  · exact hf a (ha a rfl) s' hs'

/-- The state that is looked at satisfies the invariant, and is the one that the rest runs from. -/
theorem Maintains.get {f : σ → Op σ ε α} (h : ∀ s, I s → Maintains I A (f s)) :
    Maintains I A (MonadState.get >>= f) :=
  fun s hs => h s hs s hs

/-- An error that is caught has kept the invariant too. -/
theorem Maintains.attempt {x : Op σ ε α} (h : Maintains I A x) :
    Maintains I (fun r => ∀ a, r = .ok a → A a) (attempt x : Op σ ε' (Except ε α)) := by
  intro s hs
  obtain ⟨hs', ha⟩ := h s hs
  refine ⟨hs', ?_⟩
  rintro r ⟨⟩
  exact ha

theorem Maintains.liftM {x : Op σ Empty α} (h : Maintains I A x) :
    Maintains I A (liftM x : Op σ ε α) := by
  intro s hs
  rw [ends_liftM]
  refine (h s hs).imp ?_
  rintro (e | a) s' ⟨hs', ha⟩
  · exact e.elim
  · refine ⟨hs', ?_⟩
    rintro b ⟨⟩
    exact ha a rfl

/-- An operation of a part maintains what its part does not matter for. -/
theorem Maintains.on {J : τ → Prop} {part : Part σ τ} {x : Op τ ε α} (h : Maintains J A x)
    (hget : ∀ s, I s → J (part.get s)) (hput : ∀ s t, I s → J t → I (part.put t s)) :
    Maintains I A (on part x) := by
  intro s hs
  obtain ⟨ht, ha⟩ := h _ (hget s hs)
  exact ⟨hput s _ hs ht, ha⟩

/-- A loop keeps what each of its rounds keeps. -/
theorem Maintains.forM {x : ι → Op σ ε PUnit} {items : List ι}
    (h : ∀ i ∈ items, Maintains I (fun _ => True) (x i)) :
    Maintains I (fun _ => True) (items.forM x : Op σ ε PUnit) := by
  induction items with
  | nil => exact .pure trivial
  | cons i rest ih =>
    show Maintains I (fun _ => True) (x i >>= fun _ => rest.forM x)
    refine .bind (h i List.mem_cons_self) fun _ _ => ih fun j hj => ?_
    exact h j (List.mem_cons_of_mem _ hj)

end VirtualMemory.Op
