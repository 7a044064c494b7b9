import VirtualMemory.Op

/-!
# How operations end

`Op.Ends x s Q` says that `x`, run from `s`, ends with a result and a state that satisfy `Q`;
notices are left aside. Each way to build an operation has a lemma that moves `Ends` to its parts,
so that `simp only [ends]` walks through a `do` block up to the operations that have a
specification of their own. Those are used by `Ends.imp`.
-/

namespace VirtualMemory.Op

variable {σ τ ε ε' α β : Type}

/-- `x` run from `s` ends with a result and a state that satisfy `Q`. -/
def Ends (x : Op σ ε α) (s : σ) (Q : Except ε α → σ → Prop) : Prop := Q (x s).result (x s).state

theorem Ends.imp {x : Op σ ε α} {s : σ} {Q R : Except ε α → σ → Prop} (h : x.Ends s Q)
    (hqr : ∀ r s', Q r s' → R r s') : x.Ends s R := hqr _ _ h

/-- What is known of an outcome may be put together from two proofs about it. -/
theorem Ends.and {x : Op σ ε α} {s : σ} {Q R : Except ε α → σ → Prop} (hq : x.Ends s Q)
    (hr : x.Ends s R) : x.Ends s fun r s' => Q r s' ∧ R r s' := ⟨hq, hr⟩

/-- Every operation ends in its own outcome; the start of an argument by symbolic execution. -/
theorem ends_self (x : Op σ ε α) (s : σ) :
    x.Ends s fun r s' => r = (x s).result ∧ s' = (x s).state := ⟨rfl, rfl⟩

theorem ends_pure (a : α) (s : σ) (Q : Except ε α → σ → Prop) :
    (pure a : Op σ ε α).Ends s Q ↔ Q (.ok a) s := Iff.rfl

theorem ends_throw (e : ε) (s : σ) (Q : Except ε α → σ → Prop) :
    (throw e : Op σ ε α).Ends s Q ↔ Q (.error e) s := Iff.rfl

theorem ends_get (s : σ) (Q : Except ε σ → σ → Prop) :
    (get : Op σ ε σ).Ends s Q ↔ Q (.ok s) s := Iff.rfl

theorem ends_set (s' s : σ) (Q : Except ε PUnit → σ → Prop) :
    (set s' : Op σ ε PUnit).Ends s Q ↔ Q (.ok ⟨⟩) s' := Iff.rfl

theorem ends_modify (f : σ → σ) (s : σ) (Q : Except ε PUnit → σ → Prop) :
    (modify f : Op σ ε PUnit).Ends s Q ↔ Q (.ok ⟨⟩) (f s) := Iff.rfl

theorem ends_modifyGet (f : σ → α × σ) (s : σ) (Q : Except ε α → σ → Prop) :
    (modifyGet f : Op σ ε α).Ends s Q ↔ Q (.ok (f s).1) (f s).2 := Iff.rfl

theorem ends_notify (n : Notice) (s : σ) (Q : Except ε Unit → σ → Prop) :
    (notify n : Op σ ε Unit).Ends s Q ↔ Q (.ok ()) s := Iff.rfl

theorem ends_checkDivisor (pageSize : Nat) (s : σ) (Q : Except ε Unit → σ → Prop) :
    (checkDivisor pageSize : Op σ ε Unit).Ends s Q ↔ Q (.ok ()) s := Iff.rfl

theorem ends_checkBuffer (size : Nat) (s : σ) (Q : Except ε Unit → σ → Prop) :
    (checkBuffer size : Op σ ε Unit).Ends s Q ↔ Q (.ok ()) s := Iff.rfl

theorem ends_ofExcept (r : Except ε α) (s : σ) (Q : Except ε α → σ → Prop) :
    (ofExcept r : Op σ ε α).Ends s Q ↔ Q r s := Iff.rfl

/-- The rule of composition: the second operation starts where the first one ended, and an error
skips it. -/
theorem ends_bind (x : Op σ ε α) (f : α → Op σ ε β) (s : σ) (Q : Except ε β → σ → Prop) :
    (x >>= f).Ends s Q ↔ x.Ends s fun r s' =>
      match r with
      | .ok a => (f a).Ends s' Q
      | .error e => Q (.error e) s' := by
  simp only [Ends, bind_apply]
  rcases x s with ⟨_ | _, _, _⟩ <;> rfl

/-- A function that is applied to the result changes neither the state nor the error. -/
theorem bind_return (x : Op σ ε α) (f : α → β) (s : σ) :
    ((do return f (← x)) s : Outcome σ ε β).result = (x s).result.map f ∧
      ((do return f (← x)) s : Outcome σ ε β).state = (x s).state := by
  rw [bind_apply]
  rcases x s with ⟨_ | _, _, _⟩
  · exact ⟨rfl, rfl⟩
  · exact ⟨rfl, rfl⟩

/-- What goes on after `x` matters only for what `x` answers. -/
theorem bind_congr {x : Op σ ε α} {f g : α → Op σ ε β} {s : σ}
    (h : ∀ a, (x s).result = .ok a → f a (x s).state = g a (x s).state) :
    (x >>= f) s = (x >>= g) s := by
  rw [bind_apply, bind_apply]
  rcases hx : x s with ⟨e | a, s', notices⟩
  · rfl
  · rw [hx] at h
    simp only [h a rfl]

/-- What cannot fail has a value. -/
theorem result_eq_value (y : Outcome σ Empty α) : y.result = .ok (value y) := by
  rcases y with ⟨e | _, _, _⟩
  · exact e.elim
  · rfl

/-- An operation on a part is judged on the part, and put back. -/
theorem ends_on (part : Part σ τ) (x : Op τ ε α) (s : σ) (Q : Except ε α → σ → Prop) :
    (on part x).Ends s Q ↔ x.Ends (part.get s) fun r t => Q r (part.put t s) := Iff.rfl

/-- A caught error is a value. -/
theorem ends_attempt (x : Op σ ε α) (s : σ) (Q : Except ε' (Except ε α) → σ → Prop) :
    (attempt x).Ends s Q ↔ x.Ends s fun r s' => Q (.ok r) s' := Iff.rfl

/-- What cannot fail may stand anywhere. -/
theorem ends_total (x : Op σ Empty α) (s : σ) (Q : Except ε α → σ → Prop) :
    (total x).Ends s Q ↔ x.Ends s fun r s' =>
      match r with
      | .ok a => Q (.ok a) s'
      | .error e => e.elim := by
  simp only [Ends, total]
  rcases x s with ⟨e | _, _, _⟩
  · exact e.elim
  · rfl

theorem total_ok {x : Op σ Empty α} {s : σ} {a : α}
    (h : (total x s : Outcome σ ε α).result = .ok a) :
    (x s).result = .ok a ∧ (total x s : Outcome σ ε α).state = (x s).state := by
  rcases hx : x s with ⟨e | b, s', notices⟩
  · exact e.elim
  · simp only [total, hx] at h ⊢
    exact ⟨congrArg Except.ok (Except.ok.inj h), trivial⟩

theorem ends_liftM (x : Op σ Empty α) (s : σ) (Q : Except ε α → σ → Prop) :
    (liftM x : Op σ ε α).Ends s Q ↔ x.Ends s fun r s' =>
      match r with
      | .ok a => Q (.ok a) s'
      | .error e => e.elim := ends_total x s Q

/-- An operation on a copy leaves the state as it was, and hands the copy over. -/
theorem ends_apart (t : τ) (x : Op τ ε α) (s : σ) (Q : Except ε (α × τ) → σ → Prop) :
    (apart t x).Ends s Q ↔ x.Ends t fun r t' =>
      match r with
      | .ok a => Q (.ok (a, t')) s
      | .error e => Q (.error e) s := by
  simp only [Ends, apart]
  rcases x t with ⟨_ | _, _, _⟩ <;> rfl

theorem ends_ite (c : Prop) [Decidable c] (x y : Op σ ε α) (s : σ) (Q : Except ε α → σ → Prop) :
    (if c then x else y).Ends s Q ↔ if c then x.Ends s Q else y.Ends s Q := by
  split <;> rfl

end VirtualMemory.Op
