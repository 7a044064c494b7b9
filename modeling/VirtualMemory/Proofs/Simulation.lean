import VirtualMemory.Proofs.Outcome

/-!
# Simulations

`x.Simulates R G y` compares two operations on different states, those of a machine and those of its
specification, that are related by `R`. Some runs of the machine are spoiled by failures from
outside; `G` holds of the states of a run that is not. Failures are noticed after the fact only, so
the comparison starts from the end: if the state at the end is good then so was the one at the
start, and both operations end alike. In any case the end is related to some state of the
specification, so that what comes next has something to start from.
-/

namespace VirtualMemory.Op

variable {σ τ σ' τ' ε ε' α β : Type} {R : τ → σ → Prop} {G : σ → Prop}

/-- `x` run from `s` does what `y` does from `t`, unless it is spoiled. -/
def SimulatesAt (R : τ → σ → Prop) (G : σ → Prop) (x : Op σ ε α) (y : Op τ ε α) (t : τ) (s : σ) :
    Prop :=
  x.Ends s fun r s' => (∃ t', R t' s') ∧ (G s' → G s ∧ r = (y t).result ∧ R (y t).state s')

/-- `x` does what `y` does from every related state, unless it is spoiled. -/
def Simulates (R : τ → σ → Prop) (G : σ → Prop) (x : Op σ ε α) (y : Op τ ε α) : Prop :=
  ∀ t s, R t s → SimulatesAt R G x y t s

theorem Simulates.pure (a : α) : (pure a : Op σ ε α).Simulates R G (pure a) := by
  intro t s h
  exact ⟨⟨t, h⟩, fun hg => ⟨hg, rfl, h⟩⟩

theorem Simulates.throw (e : ε) : (throw e : Op σ ε α).Simulates R G (throw e) := by
  intro t s h
  exact ⟨⟨t, h⟩, fun hg => ⟨hg, rfl, h⟩⟩

theorem Simulates.checkDivisor (m n : Nat) :
    (checkDivisor m : Op σ ε Unit).Simulates R G (checkDivisor n) := by
  intro t s h
  exact ⟨⟨t, h⟩, fun hg => ⟨hg, rfl, h⟩⟩

theorem Simulates.checkBuffer (m n : Nat) :
    (checkBuffer m : Op σ ε Unit).Simulates R G (checkBuffer n) := by
  intro t s h
  exact ⟨⟨t, h⟩, fun hg => ⟨hg, rfl, h⟩⟩

theorem SimulatesAt.bind {x : Op σ ε α} {y : Op τ ε α} {f : α → Op σ ε β} {g : α → Op τ ε β} {t : τ}
    {s : σ} (hx : SimulatesAt R G x y t s) (hf : ∀ a, (f a).Simulates R G (g a)) :
    SimulatesAt R G (x >>= f) (y >>= g) t s := by
  obtain ⟨⟨t', ht'⟩, hgood⟩ := hx
  rw [SimulatesAt, Ends, bind_apply, bind_apply]
  rcases hxs : x s with ⟨e | a, s', _⟩
  · rw [hxs] at ht' hgood
    refine ⟨⟨t', ht'⟩, ?_⟩
    intro hg
    obtain ⟨hs, hr, hR⟩ := hgood hg
    rcases hyt : y t with ⟨e' | b, _, _⟩
    · rw [hyt] at hr hR
      exact ⟨hs, by simpa using hr, hR⟩
    · rw [hyt] at hr
      cases hr
  · rw [hxs] at ht' hgood
    obtain ⟨hrel, hnext⟩ := hf a t' s' ht'
    refine ⟨hrel, ?_⟩
    intro hg
    obtain ⟨hs, hr, hR⟩ := hgood (hnext hg).1
    rcases hyt : y t with ⟨e' | b, t₁, _⟩
    · rw [hyt] at hr
      cases hr
    · rw [hyt] at hr hR
      obtain rfl : a = b := Except.ok.inj hr
      obtain ⟨-, hend⟩ := hf a t₁ s' hR
      obtain ⟨-, hr', hR'⟩ := hend hg
      exact ⟨hs, hr', hR'⟩

theorem Simulates.bind {x : Op σ ε α} {y : Op τ ε α} {f : α → Op σ ε β} {g : α → Op τ ε β}
    (hx : x.Simulates R G y) (hf : ∀ a, (f a).Simulates R G (g a)) :
    (x >>= f).Simulates R G (y >>= g) :=
  fun t s h => (hx t s h).bind hf

theorem SimulatesAt.get {f : σ → Op σ ε α} {g : τ → Op τ ε α} {t : τ} {s : σ}
    (h : SimulatesAt R G (f s) (g t) t s) :
    SimulatesAt R G (MonadState.get >>= f) (MonadState.get >>= g) t s := h

theorem SimulatesAt.modify {f : σ → σ} {g : τ → τ} {t : τ} {s : σ} (h : R (g t) (f s))
    (hg : G (f s) → G s) :
    SimulatesAt R G (modify f : Op σ ε PUnit) (modify g) t s :=
  ⟨⟨_, h⟩, fun h' => ⟨hg h', rfl, h⟩⟩

theorem Simulates.attempt {x : Op σ ε α} {y : Op τ ε α} (h : x.Simulates R G y) :
    (attempt x : Op σ ε' (Except ε α)).Simulates R G (attempt y) := by
  intro t s hR
  obtain ⟨hrel, hgood⟩ := h t s hR
  refine ⟨hrel, ?_⟩
  intro hg
  obtain ⟨hs, hr, hR'⟩ := hgood hg
  exact ⟨hs, congrArg Except.ok hr, hR'⟩

theorem Simulates.total {x : Op σ Empty α} {y : Op τ Empty α} (h : x.Simulates R G y) :
    (total x : Op σ ε α).Simulates R G (total y) := by
  intro t s hR
  obtain ⟨hrel, hgood⟩ := h t s hR
  rw [SimulatesAt, Ends]
  unfold Op.total
  rcases hxs : x s with ⟨e | a, s', _⟩
  · exact e.elim
  rcases hyt : y t with ⟨e | b, t', _⟩
  · exact e.elim
  rw [hxs] at hrel hgood
  rw [hyt] at hgood
  refine ⟨hrel, ?_⟩
  intro hg
  obtain ⟨hs, hr, hR'⟩ := hgood hg
  exact ⟨hs, congrArg Except.ok (Except.ok.inj hr), hR'⟩

theorem Simulates.mapM {ι : Type} {x : ι → Op σ ε α} {y : ι → Op τ ε α} {items : List ι}
    (h : ∀ i ∈ items, (x i).Simulates R G (y i)) : (items.mapM x).Simulates R G (items.mapM y) := by
  induction items with
  | nil => exact .pure _
  | cons i rest ih =>
    rw [List.mapM_cons, List.mapM_cons]
    exact .bind (h i List.mem_cons_self) fun _ =>
      .bind (ih fun j hj => h j (List.mem_cons_of_mem _ hj)) fun _ => .pure _

/-- A simulation of components, where the wholes are related through them. -/
theorem SimulatesAt.on {R' : τ' → σ' → Prop} {part : Part σ' σ} {part' : Part τ' τ}
    {x : Op σ ε α} {y : Op τ ε α} {t : τ'} {s : σ'}
    (h : SimulatesAt R G x y (part'.get t) (part.get s))
    (hput : ∀ t' s', R t' s' → R' (part'.put t' t) (part.put s' s))
    (hget : ∀ s', part.get (part.put s' s) = s') :
    SimulatesAt R' (fun s => G (part.get s)) (on part x) (on part' y) t s := by
  obtain ⟨⟨t', ht'⟩, hgood⟩ := h
  refine ⟨⟨_, hput t' _ ht'⟩, ?_⟩
  intro hg
  have hg : G (part.get (part.put (x (part.get s)).state s)) := hg
  rw [hget] at hg
  obtain ⟨hs, hr, hR⟩ := hgood hg
  exact ⟨hs, hr, hput _ _ hR⟩

end VirtualMemory.Op
