import VirtualMemory.ResidentIndex
import VirtualMemory.Proofs.Outcome
import Mathlib.Data.List.Nodup
import Mathlib.Data.List.Perm.Basic

/-!
# The index of resident frames is consistent

An index is well formed when each resident frame knows its place in the dense list and the list
holds nothing else. Registering a frame without owner and unregistering one keep this, and through
the view `owner?` they are insertion into and deletion from a partial map.
-/

namespace VirtualMemory.ResidentIndex

/-- Each resident frame stands at its place, and whoever stands in the list is resident. -/
structure WellFormed (r : ResidentIndex) : Prop where
  listed : ∀ ppn home, r.residence? ppn = some home → r.dense[home.place]? = some ppn
  resident : ∀ i ppn, r.dense[i]? = some ppn → ∃ key, r.residence? ppn = some ⟨key, i⟩

theorem owner?_eq_some_iff {r : ResidentIndex} {ppn : Ppn} {key : PageKey} :
    r.owner? ppn = some key ↔ ∃ place, r.residence? ppn = some ⟨key, place⟩ := by
  simp only [owner?, Option.map_eq_some_iff]
  constructor
  · rintro ⟨⟨owner, place⟩, hr, rfl⟩
    exact ⟨place, hr⟩
  · rintro ⟨place, hr⟩
    exact ⟨_, hr, rfl⟩

theorem owner?_eq_none_iff {r : ResidentIndex} {ppn : Ppn} :
    r.owner? ppn = none ↔ r.residence? ppn = none := by
  simp [owner?]

theorem residence?_eq_some_iff {r : ResidentIndex} {ppn : Ppn} {home : Residence} :
    r.residence? ppn = some home ↔ r.residences[ppn.toNat]? = some (some home) := by
  simp [residence?, Option.join_eq_some_iff]

theorem lt_of_residence? {r : ResidentIndex} {ppn : Ppn} {home : Residence}
    (h : r.residence? ppn = some home) : ppn.toNat < r.residences.size :=
  (Array.getElem?_eq_some_iff.mp (residence?_eq_some_iff.mp h)).1

theorem lt_of_owner? {r : ResidentIndex} {ppn : Ppn} {key : PageKey}
    (h : r.owner? ppn = some key) : ppn.toNat < r.residences.size := by
  obtain ⟨place, hr⟩ := owner?_eq_some_iff.mp h
  exact lt_of_residence? hr

theorem residence?_empty (pages : Nat) (ppn : Ppn) : (empty pages).residence? ppn = none := by
  simp only [residence?, empty, Array.getElem?_replicate]
  split <;> rfl

theorem wellFormed_empty (pages : Nat) : (empty pages).WellFormed := by
  constructor
  · intro ppn home h
    simp [residence?_empty] at h
  · intro i ppn h
    simp [empty] at h

/-! ## Registering -/

/-- A page added last stands at the end of the dense list. -/
theorem residence?_add {r : ResidentIndex} {ppn : Ppn} (key : PageKey)
    (hlt : ppn.toNat < r.residences.size) (q : Ppn) :
    (r.add ppn key).residence? q =
      if q = ppn then some ⟨key, r.dense.size⟩ else r.residence? q := by
  simp only [residence?, add, Array.getElem?_setIfInBounds, hlt, if_true, UInt32.toNat_inj]
  by_cases h : q = ppn
  · simp [h]
  · simp [h, Ne.symm h]

theorem WellFormed.add {r : ResidentIndex} (h : r.WellFormed) {ppn : Ppn} (key : PageKey)
    (hlt : ppn.toNat < r.residences.size) (hfree : r.owner? ppn = none) :
    (r.add ppn key).WellFormed := by
  have hnone := owner?_eq_none_iff.mp hfree
  constructor
  · intro q home hq
    rw [residence?_add key hlt] at hq
    simp only [ResidentIndex.add, Array.getElem?_push]
    by_cases hqp : q = ppn
    · rw [if_pos hqp] at hq
      obtain rfl := Option.some.inj hq
      simp [hqp]
    · rw [if_neg hqp] at hq
      have hplace := h.listed q home hq
      have hbound := (Array.getElem?_eq_some_iff.mp hplace).1
      rw [if_neg (Nat.ne_of_lt hbound)]
      exact hplace
  · intro i q hi
    simp only [ResidentIndex.add, Array.getElem?_push] at hi
    rw [residence?_add key hlt]
    by_cases hend : i = r.dense.size
    · rw [if_pos hend] at hi
      exact ⟨key, by rw [if_pos (Option.some.inj hi).symm, hend]⟩
    · rw [if_neg hend] at hi
      obtain ⟨owner, ho⟩ := h.resident i q hi
      have hqp : q ≠ ppn := by
        rintro rfl
        rw [hnone] at ho
        cases ho
      exact ⟨owner, by rw [if_neg hqp, ho]⟩

theorem owner?_add {r : ResidentIndex} {ppn : Ppn} (key : PageKey)
    (hlt : ppn.toNat < r.residences.size) (q : Ppn) :
    (r.add ppn key).owner? q = if q = ppn then some key else r.owner? q := by
  rw [owner?, residence?_add key hlt]
  split <;> rfl

theorem register_of_free {r : ResidentIndex} {ppn : Ppn} (key : PageKey)
    (hlt : ppn.toNat < r.residences.size) (hfree : r.owner? ppn = none) :
    (register ppn key).Ends r fun result r' => result = .ok () ∧ r' = r.add ppn key := by
  have hnone : r.residences[ppn.toNat]? = some none := by
    have hr := owner?_eq_none_iff.mp hfree
    rw [residence?, Array.getElem?_eq_getElem hlt] at hr
    rw [Array.getElem?_eq_getElem hlt, show r.residences[ppn.toNat] = none from hr]
  simp only [register, Op.ends_bind, Op.ends_get, hnone, Op.ends_set, and_self]

/-- A page may be registered twice for its own frame. -/
theorem register_of_owner {r : ResidentIndex} {ppn : Ppn} {key : PageKey}
    (h : r.owner? ppn = some key) :
    (register ppn key).Ends r fun result r' => result = .ok () ∧ r' = r := by
  obtain ⟨place, hr⟩ := owner?_eq_some_iff.mp h
  have hsome := residence?_eq_some_iff.mp hr
  simp only [register, Op.ends_bind, Op.ends_get, hsome, ne_eq, not_true_eq_false, if_false,
    Op.ends_pure]
  exact ⟨trivial, trivial⟩

theorem register_out_of_bounds {r : ResidentIndex} {ppn : Ppn} (key : PageKey)
    (hlt : r.residences.size ≤ ppn.toNat) :
    (register ppn key).Ends r fun result r' => result = .error .outOfBounds ∧ r' = r := by
  have hnone : r.residences[ppn.toNat]? = none := Array.getElem?_eq_none hlt
  simp only [register, Op.ends_bind, Op.ends_get, hnone, Op.ends_throw]
  exact ⟨trivial, trivial⟩

/-- A frame of another page is refused, and nothing is changed. -/
theorem register_of_other {r : ResidentIndex} {ppn : Ppn} {key other : PageKey}
    (h : r.owner? ppn = some other) (hne : other ≠ key) :
    (register ppn key).Ends r fun result r' => result = .error .alreadyMapped ∧ r' = r := by
  obtain ⟨place, hr⟩ := owner?_eq_some_iff.mp h
  have hsome := residence?_eq_some_iff.mp hr
  simp only [register, Op.ends_bind, Op.ends_get, hsome, if_pos hne, Op.ends_notify, Op.ends_throw]
  exact ⟨trivial, trivial⟩

/-! ## Unregistering -/

/-- The last frame of the dense list moves into the gap. -/
theorem getElem?_closeGap {dense : Array Ppn} {place : Nat} {last : Ppn}
    (hlast : dense.back? = some last) (j : Nat) :
    (closeGap dense place)[j]? =
      if j < dense.size - 1 then (if j = place then some last else dense[j]?) else none := by
  simp only [closeGap, hlast, Array.getElem?_pop, Array.size_setIfInBounds,
    Array.getElem?_setIfInBounds]
  by_cases hj : j < dense.size - 1
  · have hp : j = place → place < dense.size := by omega
    by_cases he : j = place
    · simp [he, hp he]
    · simp [hj, he, Ne.symm he]
  · simp [hj]

/-- The frame that fills the gap moves there; the others stay where they are. -/
theorem residence?_unregister {r : ResidentIndex} (h : r.WellFormed) {ppn : Ppn}
    {home : Residence} (hr : r.residence? ppn = some home) {last : Ppn}
    (hlast : r.dense.back? = some last) (q : Ppn) :
    (r.unregister ppn).2.residence? q =
      if q = ppn then none
      else if q = last then (r.residence? q).map (Residence.moveTo home.place)
      else r.residence? q := by
  have hlt := lt_of_residence? hr
  have hplace := h.listed ppn home hr
  have hbound := (Array.getElem?_eq_some_iff.mp hplace).1
  have hback : r.dense[r.dense.size - 1]? = some last := by
    rw [← Array.back?_eq_getElem?, hlast]
  simp only [unregister, hr, getElem?_closeGap hlast]
  by_cases hend : home.place < r.dense.size - 1
  · simp only [hend, if_true, residence?, Array.getElem?_setIfInBounds, Array.size_modify, hlt,
      Array.getElem?_modify, UInt32.toNat_inj]
    by_cases hqp : q = ppn
    · simp [hqp]
    · by_cases hql : q = last
      · subst hql
        simp only [hqp, Ne.symm hqp, if_true, if_false]
        cases r.residences[q.toNat]? with
        | none => rfl
        | some home' => cases home' <;> rfl
      · simp [hqp, hql, Ne.symm hqp, Ne.symm hql]
  · have hfinal : home.place = r.dense.size - 1 := by omega
    have hpl : ppn = last := by
      rw [hfinal, hback] at hplace
      exact (Option.some.inj hplace).symm
    simp only [hend, if_false, residence?, Array.getElem?_setIfInBounds, hlt, UInt32.toNat_inj]
    by_cases hqp : q = ppn
    · simp [hqp]
    · have hql : q ≠ last := hpl ▸ hqp
      simp [hqp, hql, Ne.symm hqp]

/-- A frame that is owned is in the dense list, so the list has a last one. -/
theorem exists_back? {r : ResidentIndex} (h : r.WellFormed) {ppn : Ppn} {home : Residence}
    (hr : r.residence? ppn = some home) : ∃ last, r.dense.back? = some last := by
  have hbound := (Array.getElem?_eq_some_iff.mp (h.listed ppn home hr)).1
  have hlt : r.dense.size - 1 < r.dense.size := by omega
  exact ⟨r.dense[r.dense.size - 1], by rw [Array.back?_eq_getElem?, Array.getElem?_eq_getElem hlt]⟩

theorem dense_unregister {r : ResidentIndex} {ppn : Ppn} {home : Residence}
    (hr : r.residence? ppn = some home) :
    (r.unregister ppn).2.dense = closeGap r.dense home.place := by
  simp [unregister, hr]

theorem residences_size_unregister (r : ResidentIndex) (ppn : Ppn) :
    (r.unregister ppn).2.residences.size = r.residences.size := by
  unfold unregister
  cases r.residence? ppn with
  | none => rfl
  | some home =>
    simp only [Array.size_setIfInBounds]
    split <;> simp

/-- No frame is listed twice. -/
theorem WellFormed.place_unique {r : ResidentIndex} (h : r.WellFormed) {i j : Nat} {ppn : Ppn}
    (hi : r.dense[i]? = some ppn) (hj : r.dense[j]? = some ppn) : i = j := by
  obtain ⟨key, hk⟩ := h.resident i ppn hi
  obtain ⟨key', hk'⟩ := h.resident j ppn hj
  rw [hk] at hk'
  exact (Residence.mk.injEq _ _ _ _ ▸ Option.some.inj hk').2

theorem unregister_of_free {r : ResidentIndex} {ppn : Ppn} (hr : r.residence? ppn = none) :
    (r.unregister ppn).2 = r := by
  simp [ResidentIndex.unregister, hr]

theorem WellFormed.unregister {r : ResidentIndex} (h : r.WellFormed) (ppn : Ppn) :
    (r.unregister ppn).2.WellFormed := by
  cases hr : r.residence? ppn with
  | none =>
    rw [unregister_of_free hr]
    exact h
  | some home =>
    obtain ⟨last, hlast⟩ := exists_back? h hr
    have hplace := h.listed ppn home hr
    have hback : r.dense[r.dense.size - 1]? = some last := by
      rw [← Array.back?_eq_getElem?, hlast]
    have hres := residence?_unregister h hr hlast
    have hdense := dense_unregister hr
    have hsize := (Array.getElem?_eq_some_iff.mp hplace).1
    constructor
    · intro q home' hq
      rw [hres] at hq
      rw [hdense, getElem?_closeGap hlast]
      split at hq
      · cases hq
      next hqp =>
      split at hq
      next hql =>
        obtain ⟨old, hold, rfl⟩ := Option.map_eq_some_iff.mp hq
        have hat := h.listed q old hold
        have hne : home.place ≠ r.dense.size - 1 := by
          intro he
          rw [he, hback] at hplace
          exact hqp (hql.trans (Option.some.inj hplace))
        have hmoved : (Residence.moveTo home.place old).place = home.place := rfl
        rw [hmoved, if_pos (by omega), if_pos rfl, hql]
      next hql =>
        have hat := h.listed q home' hq
        have hb := (Array.getElem?_eq_some_iff.mp hat).1
        have hne : home'.place ≠ r.dense.size - 1 := by
          intro he
          rw [he, hback] at hat
          exact hql (Option.some.inj hat).symm
        have hne' : home'.place ≠ home.place := by
          intro he
          rw [he, hplace] at hat
          exact hqp (Option.some.inj hat).symm
        rw [if_pos (by omega), if_neg hne', hat]
    · intro i q hi
      rw [hdense, getElem?_closeGap hlast] at hi
      rw [hres]
      split at hi
      next hilt =>
        split at hi
        next hip =>
          obtain rfl := Option.some.inj hi
          obtain ⟨key, hk⟩ := h.resident _ _ hback
          have hne : last ≠ ppn := by
            rintro rfl
            have := h.place_unique hback hplace
            omega
          exact ⟨key, by rw [if_neg hne, if_pos rfl, hk, hip]; rfl⟩
        next hip =>
          obtain ⟨key, hk⟩ := h.resident i q hi
          have hne : q ≠ ppn := by
            rintro rfl
            exact hip (h.place_unique hi hplace)
          have hne' : q ≠ last := by
            rintro rfl
            have := h.place_unique hi hback
            omega
          exact ⟨key, by rw [if_neg hne, if_neg hne', hk]⟩
      next => cases hi

/-- Unregistering a frame takes its owner away, and no other. -/
theorem owner?_unregister {r : ResidentIndex} (h : r.WellFormed) (ppn q : Ppn) :
    (r.unregister ppn).2.owner? q = if q = ppn then none else r.owner? q := by
  cases hr : r.residence? ppn with
  | none =>
    rw [unregister_of_free hr]
    split
    next hq => rw [hq, owner?_eq_none_iff, hr]
    next => rfl
  | some home =>
    obtain ⟨last, hlast⟩ := exists_back? h hr
    rw [owner?, residence?_unregister h hr hlast]
    split
    · rfl
    · split
      · rw [owner?]
        cases r.residence? q <;> rfl
      · rfl

/-! ## Drawing a frame -/

/-- A draw finds a resident frame if there is one. -/
theorem pick_spec {r : ResidentIndex} (h : r.WellFormed) (draws : Draws) :
    (∃ ppn key, (r.pick draws).1 = some (ppn, key) ∧ r.owner? ppn = some key) ∨
      ((r.pick draws).1 = none ∧ ∀ ppn, r.owner? ppn = none) := by
  unfold pick
  split
  next hempty =>
    refine Or.inr ⟨rfl, ?_⟩
    intro ppn
    rw [owner?_eq_none_iff]
    cases hr : r.residence? ppn with
    | none => rfl
    | some home =>
      have hplace := h.listed ppn home hr
      rw [Array.isEmpty_iff.mp hempty] at hplace
      cases hplace
  next hempty =>
    have hpos : 0 < r.dense.size := by
      rw [Array.isEmpty_iff_size_eq_zero] at hempty
      exact Nat.pos_of_ne_zero hempty
    have hlt := Draws.below_lt hpos draws
    obtain ⟨key, hkey⟩ := h.resident _ _ (Array.getElem?_eq_getElem hlt)
    have howner := owner?_eq_some_iff.mpr ⟨_, hkey⟩
    refine Or.inl ⟨_, key, ?_, howner⟩
    show (r.dense[(draws.below r.dense.size).1]?).bind r.pair? = _
    rw [Array.getElem?_eq_getElem hlt, Option.bind_some, pair?, howner, Option.map_some]

end VirtualMemory.ResidentIndex
