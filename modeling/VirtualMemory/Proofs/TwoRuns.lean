import VirtualMemory.Proofs.Outcome

/-!
# Two runs side by side

`x.Agree R A y` compares two operations from states that are related by `R`: they end both with the
same error or both with values that are related by `A`, they report the same, and their states are
related by `R` again. Nothing is said of single runs, so that what the two have in common needs no
invariant to carry over; only what they may differ in has to be kept apart.
-/

namespace VirtualMemory.Op

variable {σ τ σ' τ' ε ε' α β γ δ : Type} {R : σ → τ → Prop} {A : α → β → Prop} {B : γ → δ → Prop}

/-- Values that are related by `A`, or one error. -/
inductive Corresponds (A : α → β → Prop) : Except ε α → Except ε β → Prop
  | ok {a : α} {b : β} (h : A a b) : Corresponds A (.ok a) (.ok b)
  | error (e : ε) : Corresponds A (.error e) (.error e)

theorem corresponds_eq_iff {r r' : Except ε α} : Corresponds (· = ·) r r' ↔ r = r' := by
  constructor
  · rintro (rfl | e)
    · rfl
    · rfl
  · rintro rfl
    cases r with
    | ok a => exact .ok rfl
    | error e => exact .error e

/-- `x` from every state and `y` from every related one agree in how they end and what they
report. -/
def Agree (R : σ → τ → Prop) (A : α → β → Prop) (x : Op σ ε α) (y : Op τ ε β) : Prop :=
  ∀ s t, R s t →
    Corresponds A (x s).result (y t).result ∧ (x s).notices = (y t).notices ∧
      R (x s).state (y t).state

theorem Agree.pure {a : α} {b : β} (h : A a b) : Agree R A (pure a : Op σ ε α) (pure b) :=
  fun _ _ hR => ⟨.ok h, rfl, hR⟩

theorem Agree.throw (e : ε) : Agree R A (throw e : Op σ ε α) (throw e) :=
  fun _ _ hR => ⟨.error e, rfl, hR⟩

theorem Agree.notify (n : Notice) : Agree R (· = ·) (notify n : Op σ ε Unit) (notify n) :=
  fun _ _ hR => ⟨.ok rfl, rfl, hR⟩

theorem Agree.checkDivisor (pageSize : Nat) :
    Agree R (· = ·) (checkDivisor pageSize : Op σ ε Unit) (checkDivisor pageSize) :=
  fun _ _ hR => ⟨.ok rfl, rfl, hR⟩

theorem Agree.ofExcept {r : Except ε α} {r' : Except ε β} (h : Corresponds A r r') :
    Agree R A (ofExcept r : Op σ ε α) (ofExcept r') :=
  fun _ _ hR => ⟨h, rfl, hR⟩

theorem Agree.modify {f : σ → σ} {g : τ → τ} (h : ∀ s t, R s t → R (f s) (g t)) :
    Agree R (· = ·) (modify f : Op σ ε PUnit) (modify g) :=
  fun s t hR => ⟨.ok rfl, rfl, h s t hR⟩

theorem Agree.modifyGet {f : σ → α × σ} {g : τ → β × τ}
    (h : ∀ s t, R s t → A (f s).1 (g t).1 ∧ R (f s).2 (g t).2) :
    Agree R A (modifyGet f : Op σ ε α) (modifyGet g) :=
  fun s t hR => ⟨.ok (h s t hR).1, rfl, (h s t hR).2⟩

theorem Agree.set {s' : σ} {t' : τ} (h : R s' t') :
    Agree R (· = ·) (set s' : Op σ ε PUnit) (set t') :=
  fun _ _ _ => ⟨.ok rfl, rfl, h⟩

theorem Agree.bind {x : Op σ ε α} {y : Op τ ε β} {f : α → Op σ ε γ} {g : β → Op τ ε δ}
    (hx : Agree R A x y) (hf : ∀ a b, A a b → Agree R B (f a) (g b)) :
    Agree R B (x >>= f) (y >>= g) := by
  intro s t hR
  obtain ⟨hr, hn, hR'⟩ := hx s t hR
  rw [bind_apply, bind_apply]
  rcases hxs : x s with ⟨r, s', notices⟩
  rcases hyt : y t with ⟨r', t', notices'⟩
  rw [hxs, hyt] at hr hn hR'
  cases hr with
  | ok hA =>
    obtain ⟨hr, hn', hR''⟩ := hf _ _ hA s' t' hR'
    refine ⟨hr, ?_, hR''⟩
    show notices ++ _ = notices' ++ _
    rw [show notices = notices' from hn, hn']
  | error e => exact ⟨.error e, hn, hR'⟩

/-- The state that is looked at is the one that the rest runs from. -/
theorem Agree.get {f : σ → Op σ ε α} {g : τ → Op τ ε β}
    (h : ∀ s t, R s t → Agree R A (f s) (g t)) :
    Agree R A (MonadState.get >>= f) (MonadState.get >>= g) := by
  intro s t hR
  exact h s t hR s t hR

theorem Agree.attempt {x : Op σ ε α} {y : Op τ ε β} (h : Agree R A x y) :
    Agree R (Corresponds A) (attempt x : Op σ ε' (Except ε α)) (attempt y) := by
  intro s t hR
  obtain ⟨hr, hn, hR'⟩ := h s t hR
  exact ⟨.ok hr, hn, hR'⟩

theorem Agree.liftM {x : Op σ Empty α} {y : Op τ Empty β} (h : Agree R A x y) :
    Agree R A (liftM x : Op σ ε α) (liftM y) := by
  show Agree R A (total x) (total y)
  intro s t hR
  obtain ⟨hr, hn, hR'⟩ := h s t hR
  simp only [total]
  rcases hxs : x s with ⟨r, s', notices⟩
  rcases hyt : y t with ⟨r', t', notices'⟩
  rw [hxs, hyt] at hr hn hR'
  cases hr with
  | ok hA => exact ⟨.ok hA, hn, hR'⟩
  | error e => exact e.elim

theorem Agree.on {R' : σ' → τ' → Prop} {part : Part σ' σ} {part' : Part τ' τ} {x : Op σ ε α}
    {y : Op τ ε β} (h : Agree R A x y) (hget : ∀ s t, R' s t → R (part.get s) (part'.get t))
    (hput : ∀ s t u v, R' s t → R u v → R' (part.put u s) (part'.put v t)) :
    Agree R' A (on part x) (on part' y) := by
  intro s t hR
  obtain ⟨hr, hn, hR'⟩ := h _ _ (hget s t hR)
  exact ⟨hr, hn, hput s t _ _ hR hR'⟩

/-- A component that both states have in common. -/
theorem Agree.onCommon {R : σ' → σ' → Prop} {part : Part σ' σ} (x : Op σ ε α)
    (hget : ∀ s t, R s t → part.get s = part.get t)
    (hput : ∀ s t u, R s t → R (part.put u s) (part.put u t)) :
    Agree R (· = ·) (Op.on part x) (Op.on part x) := by
  intro s t hR
  rw [on_apply, on_apply, hget s t hR]
  exact ⟨corresponds_eq_iff.mpr rfl, rfl, hput s t _ hR⟩

theorem Agree.forM {ι : Type} {x : ι → Op σ ε PUnit} {y : ι → Op τ ε PUnit} {items : List ι}
    (h : ∀ i ∈ items, Agree R (· = ·) (x i) (y i)) :
    Agree R (· = ·) (items.forM x : Op σ ε PUnit) (items.forM y) := by
  induction items with
  | nil => exact .pure rfl
  | cons i rest ih =>
    show Agree R (· = ·) (x i >>= fun _ => rest.forM x) (y i >>= fun _ => rest.forM y)
    exact .bind (h i List.mem_cons_self) fun _ _ _ => ih fun j hj => h j (List.mem_cons_of_mem _ hj)

end VirtualMemory.Op
