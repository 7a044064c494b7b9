import VirtualMemory.Proofs.TableAudit
import Mathlib.Data.Set.Function

/-!
# The index of resident frames as a partial map

A list of calls is run twice: on an index, and on the plain function that says which page owns
which frame. `Follows` ties the index to the function, and each call keeps the tie with the answer
that the function gives (`Follows.run`). What is known of the index is then read off the tie: the
list without gaps and the places in it are inverse to each other, and the number that is drawn is a
bijection onto the resident pairs (`index_refines_map`).
-/

namespace VirtualMemory.ResidentIndex

abbrev Owners : Type := Ppn → Option PageKey

inductive Call
  | register (ppn : Ppn) (key : PageKey)
  | unregister (ppn : Ppn)

inductive Answer
  | registered (result : Except MemoryError Unit)
  | unregistered (owner : Option PageKey)

namespace Call

def run : Call → Op ResidentIndex Empty Answer
  | register ppn key => do return .registered (← Op.attempt (ResidentIndex.register ppn key))
  | unregister ppn => do return .unregistered (← modifyGet (·.unregister ppn))

/-- The call on a partial map from the frames below `pages`. -/
def onMap (pages : Nat) (owners : Owners) : Call → Answer × Owners
  | register ppn key =>
    if ppn.toNat < pages then
      match owners ppn with
      | none => (.registered (.ok ()), Function.update owners ppn (some key))
      | some owner => (.registered (if owner = key then .ok () else .error .alreadyMapped), owners)
    else (.registered (.error .outOfBounds), owners)
  | unregister ppn => (.unregistered (owners ppn), Function.update owners ppn none)

end Call

/-- An index of `pages` frames after these calls, the latest of which comes first. -/
def after (pages : Nat) : List Call → ResidentIndex
  | [] => empty pages
  | call :: past => (call.run (after pages past)).state

def mapAfter (pages : Nat) : List Call → Owners
  | [] => fun _ => none
  | call :: past => (call.onMap pages (mapAfter pages past)).2

/-- The resident pair that is found at a drawn number. -/
def drawn (r : ResidentIndex) (i : Nat) : Option (Ppn × PageKey) := r.dense[i]?.bind r.pair?

/-! ## One call -/

variable {pages : Nat} {owners : Owners} {r : ResidentIndex}

/-- The index is consistent, and its owners are those of the map. -/
structure Follows (pages : Nat) (owners : Owners) (r : ResidentIndex) : Prop where
  wellFormed : r.WellFormed
  size : r.residences.size = pages
  owner : ∀ ppn, r.owner? ppn = owners ppn

theorem follows_empty (pages : Nat) : Follows pages (fun _ => none) (empty pages) where
  wellFormed := wellFormed_empty pages
  size := by simp [empty]
  owner ppn := owner?_eq_none_iff.mpr (residence?_empty pages ppn)

/-- The answer is that of the map, the index follows the map, and it stays as it is when the map
does. -/
def Call.Refined (pages : Nat) (owners : Owners) (r : ResidentIndex) (call : Call)
    (result : Except Empty Answer) (r' : ResidentIndex) : Prop :=
  result = .ok (call.onMap pages owners).1 ∧ Follows pages (call.onMap pages owners).2 r' ∧
    ((call.onMap pages owners).2 = owners → r' = r)

theorem Follows.add (h : Follows pages owners r) {ppn : Ppn} (key : PageKey)
    (hlt : ppn.toNat < pages) (hfree : owners ppn = none) :
    Follows pages (Function.update owners ppn (some key)) (r.add ppn key) := by
  have hlt' : ppn.toNat < r.residences.size := h.size ▸ hlt
  refine ⟨h.wellFormed.add key hlt' ((h.owner ppn).trans hfree), ?_, fun q => ?_⟩
  · simp [ResidentIndex.add, h.size]
  · rw [owner?_add key hlt', Function.update_apply, h.owner]

theorem Follows.register (h : Follows pages owners r) (ppn : Ppn) (key : PageKey) :
    (Call.register ppn key).run.Ends r
      (Call.Refined pages owners r (.register ppn key)) := by
  simp only [Call.run, Op.ends_bind, Op.ends_attempt, Op.ends_pure, Call.Refined, Call.onMap]
  by_cases hlt : ppn.toNat < pages
  · have hlt' : ppn.toNat < r.residences.size := h.size ▸ hlt
    simp only [if_pos hlt]
    cases howner : owners ppn with
    | none =>
      refine (register_of_free key hlt' ((h.owner ppn).trans howner)).imp ?_
      rintro _ _ ⟨rfl, rfl⟩
      refine ⟨rfl, h.add key hlt howner, fun hsame => ?_⟩
      -- the map has changed at the frame
      have hat : Function.update owners ppn (some key) ppn = owners ppn := congrFun hsame ppn
      rw [Function.update_self, howner] at hat
      cases hat
    | some other =>
      by_cases heq : other = key
      · subst heq
        refine (register_of_owner ((h.owner ppn).trans howner)).imp ?_
        rintro _ _ ⟨rfl, rfl⟩
        exact ⟨by simp, h, fun _ => rfl⟩
      · refine (register_of_other ((h.owner ppn).trans howner) heq).imp ?_
        rintro _ _ ⟨rfl, rfl⟩
        exact ⟨by simp [heq], h, fun _ => rfl⟩
  · simp only [if_neg hlt]
    have hout : r.residences.size ≤ ppn.toNat := h.size ▸ Nat.not_lt.mp hlt
    refine (register_out_of_bounds key hout).imp ?_
    rintro _ _ ⟨rfl, rfl⟩
    exact ⟨rfl, h, fun _ => rfl⟩

theorem unregister_owner (r : ResidentIndex) (ppn : Ppn) :
    (r.unregister ppn).1 = r.owner? ppn := by
  unfold ResidentIndex.unregister owner?
  cases r.residence? ppn <;> rfl

theorem Follows.unregister (h : Follows pages owners r) (ppn : Ppn) :
    (Call.unregister ppn).run.Ends r (Call.Refined pages owners r (.unregister ppn)) := by
  simp only [Call.run, Op.ends_bind, Op.ends_modifyGet, Op.ends_pure, Call.Refined, Call.onMap]
  refine ⟨by rw [unregister_owner, h.owner], ⟨h.wellFormed.unregister ppn, ?_, fun q => ?_⟩, ?_⟩
  · rw [residences_size_unregister, h.size]
  · rw [owner?_unregister h.wellFormed, Function.update_apply, h.owner]
  · intro hsame
    have hat := congrFun hsame ppn
    rw [Function.update_self] at hat
    exact unregister_of_free (owner?_eq_none_iff.mp ((h.owner ppn).trans hat.symm))

theorem Follows.run (h : Follows pages owners r) (call : Call) :
    call.run.Ends r (Call.Refined pages owners r call) := by
  cases call with
  | register ppn key => exact h.register ppn key
  | unregister ppn => exact h.unregister ppn

theorem follows_after (pages : Nat) (calls : List Call) :
    Follows pages (mapAfter pages calls) (after pages calls) := by
  induction calls with
  | nil => exact follows_empty pages
  | cons call past ih => exact (ih.run call).2.1

/-! ## The pairs and their numbers -/

theorem WellFormed.dense_iff (h : r.WellFormed) (i : Nat) (ppn : Ppn) :
    r.dense[i]? = some ppn ↔ ∃ key, r.residence? ppn = some ⟨key, i⟩ :=
  ⟨h.resident i ppn, fun ⟨_, hk⟩ => h.listed ppn _ hk⟩

theorem pair?_eq_some_iff {q ppn : Ppn} {key : PageKey} :
    r.pair? q = some (ppn, key) ↔ q = ppn ∧ r.owner? ppn = some key := by
  simp only [pair?, Option.map_eq_some_iff, Prod.mk.injEq]
  constructor
  · rintro ⟨key', hk, rfl, rfl⟩
    exact ⟨rfl, hk⟩
  · rintro ⟨rfl, hk⟩
    exact ⟨key, hk, rfl, rfl⟩

theorem nodup_toList (h : r.WellFormed) : r.toList.Nodup := by
  refine h.nodup_dense.filterMap ?_
  rintro q q' ⟨ppn, key⟩ hq hq'
  rw [Option.mem_def, pair?_eq_some_iff] at hq hq'
  rw [hq.1, hq'.1]

theorem mem_toList (h : r.WellFormed) {ppn : Ppn} {key : PageKey} :
    (ppn, key) ∈ r.toList ↔ r.owner? ppn = some key := by
  simp only [toList, List.mem_filterMap, pair?_eq_some_iff]
  constructor
  · rintro ⟨_, -, rfl, hk⟩
    exact hk
  · intro hk
    exact ⟨ppn, (h.mem_dense ppn).mpr (Option.isSome_of_eq_some hk), rfl, hk⟩

/-- A pair is found at the place of its frame, and nowhere else. -/
theorem drawn_eq_some_iff (h : r.WellFormed) {i : Nat} {ppn : Ppn} {key : PageKey} :
    r.drawn i = some (ppn, key) ↔ r.residence? ppn = some ⟨key, i⟩ := by
  simp only [drawn, Option.bind_eq_some_iff, pair?_eq_some_iff]
  constructor
  · rintro ⟨_, hi, rfl, hk⟩
    obtain ⟨key', hr⟩ := h.resident i _ hi
    rw [owner?, hr] at hk
    obtain rfl := Option.some.inj hk
    exact hr
  · intro hr
    exact ⟨ppn, h.listed ppn _ hr, rfl, owner?_eq_some_iff.mpr ⟨i, hr⟩⟩

/-- Below the number of resident frames, numbers and resident pairs correspond. -/
theorem WellFormed.bijOn_drawn (h : r.WellFormed) :
    Set.BijOn r.drawn {i | i < r.size} (some '' {pair | r.owner? pair.1 = some pair.2}) := by
  refine ⟨fun i hi => ?_, fun i hi j hj heq => ?_, ?_⟩
  · obtain ⟨key, hr⟩ := h.resident i _ (Array.getElem?_eq_getElem hi)
    exact ⟨(_, key), owner?_eq_some_iff.mpr ⟨i, hr⟩, ((drawn_eq_some_iff h).mpr hr).symm⟩
  · obtain ⟨key, hr⟩ := h.resident i _ (Array.getElem?_eq_getElem hi)
    have hfound := (drawn_eq_some_iff h).mpr hr
    have hr' := (drawn_eq_some_iff h).mp (heq ▸ hfound)
    rw [hr] at hr'
    exact congrArg Residence.place (Option.some.inj hr')
  · rintro _ ⟨⟨ppn, key⟩, howner, rfl⟩
    obtain ⟨i, hr⟩ := owner?_eq_some_iff.mp howner
    exact ⟨i, (Array.getElem?_eq_some_iff.mp (h.listed ppn _ hr)).1, (drawn_eq_some_iff h).mpr hr⟩

theorem pick_of_empty (h : r.size = 0) (draws : Draws) : r.pick draws = (none, draws) := by
  rw [pick, if_pos (Array.isEmpty_iff_size_eq_zero.mpr h)]

theorem pick_of_pos (h : 0 < r.size) (draws : Draws) :
    r.pick draws = (r.drawn (draws.below r.size).1, (draws.below r.size).2) := by
  have hfull : ¬ r.dense.isEmpty = true := by
    rw [Array.isEmpty_iff_size_eq_zero]
    exact Nat.pos_iff_ne_zero.mp h
  rw [pick, if_neg hfull]
  rfl

/-! ## Every run -/

/-- The index is the partial map: whatever is called next is answered as by the map and changes
nothing where the map does not change; the list without gaps and the places are inverse; and a draw
chooses among the pairs of the map. -/
structure Represents (pages : Nat) (owners : Owners) (r : ResidentIndex) : Prop where
  owner : ∀ ppn, r.owner? ppn = owners ppn
  bounded : ∀ ppn key, owners ppn = some key → ppn.toNat < pages
  answer : ∀ call : Call, (call.run r).result = .ok (call.onMap pages owners).1
  unchanged : ∀ call : Call, (call.onMap pages owners).2 = owners → (call.run r).state = r
  nodup_dense : r.dense.toList.Nodup
  mem_dense : ∀ ppn, ppn ∈ r.dense.toList ↔ (owners ppn).isSome = true
  place : ∀ i ppn, r.dense[i]? = some ppn ↔ ∃ key, r.residence? ppn = some ⟨key, i⟩
  nodup_pairs : r.toList.Nodup
  mem_pairs : ∀ ppn key, (ppn, key) ∈ r.toList ↔ owners ppn = some key
  no_draw : r.size = 0 → ∀ draws, r.pick draws = (none, draws)
  one_draw : 0 < r.size → ∀ draws, (draws.below r.size).1 < r.size ∧
    r.pick draws = (r.drawn (draws.below r.size).1, (draws.below r.size).2)
  bijection : Set.BijOn r.drawn {i | i < r.size} (some '' {pair | owners pair.1 = some pair.2})

theorem Follows.represents (h : Follows pages owners r) : Represents pages owners r where
  owner := h.owner
  bounded ppn key hk := h.size ▸ lt_of_owner? ((h.owner ppn).trans hk)
  answer call := (h.run call).1
  unchanged call := (h.run call).2.2
  nodup_dense := h.wellFormed.nodup_dense
  mem_dense ppn := by rw [h.wellFormed.mem_dense, h.owner]
  place := h.wellFormed.dense_iff
  nodup_pairs := nodup_toList h.wellFormed
  mem_pairs ppn key := by rw [mem_toList h.wellFormed, h.owner]
  no_draw := pick_of_empty
  one_draw hpos draws := ⟨Draws.below_lt hpos draws, pick_of_pos hpos draws⟩
  bijection := by
    have hbij := h.wellFormed.bijOn_drawn
    simp only [h.owner] at hbij
    exact hbij

/-- After any calls, registering and unregistering any frames, in range or not, an index is the
partial map that the same calls make. -/
theorem index_refines_map (pages : Nat) (calls : List Call) :
    Represents pages (mapAfter pages calls) (after pages calls) :=
  (follows_after pages calls).represents

-- the last frame of the list fills the gap
example : (after 4 [.unregister 0, .register 3 ⟨1, 13⟩, .register 9 ⟨1, 19⟩, .register 1 ⟨1, 11⟩,
    .register 0 ⟨1, 10⟩]).dense = #[3, 1] := by decide

end VirtualMemory.ResidentIndex
