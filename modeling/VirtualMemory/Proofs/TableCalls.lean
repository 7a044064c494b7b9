import VirtualMemory.Proofs.TableAudit

/-!
# Calls of the table

A call inserts an entry, updates one or takes one out; it may fail. `Effect` says once what each
call does to a well formed table. Two results are read off there:

* `owners_match_entries`: after any calls, failed ones among them, owners and valid entries match
  one to one, the audit passes and a victim is drawn whenever there is one;
* `failed_call_atomic`: a failing call changes nothing, except an update that moves a resident page
  to a frame that does not exist. That update gives up the old frame first, and the page is left
  with a valid entry and no frame.
-/

namespace VirtualMemory

theorem OrderedMap.insert_erase {κ ν : Type} [Ranked κ] [DecidableEq κ] (m : OrderedMap κ ν)
    (k : κ) (v : ν) : (m.erase k).insert k v = m.insert k v := by
  apply OrderedMap.ext_get?
  intro k'
  rw [OrderedMap.get?_insert, OrderedMap.get?_insert, OrderedMap.get?_erase]
  by_cases hk : k' = k
  · rw [if_pos hk, if_pos hk]
  · rw [if_neg hk, if_neg hk, if_neg hk]

namespace PageTable

variable {t : PageTable} {pages : Nat}

/-! ## Changes of a table -/

/-- The table without the entry of a page, whose frame is left alone. -/
def forgetting (t : PageTable) (key : PageKey) : PageTable :=
  { t with entries := t.entries.erase key }

/-- The table with a frame taken from its owner, whose entry is left alone. -/
def vacating (t : PageTable) (ppn : Ppn) : PageTable :=
  { t with resident := (t.resident.unregister ppn).2 }

theorem lookup_forgetting (t : PageTable) (key k : PageKey) :
    (t.forgetting key).lookup k = if k = key then none else t.lookup k :=
  OrderedMap.get?_erase t.entries key k

theorem holding_forgetting (t : PageTable) (key : PageKey) (e : Entry) :
    (t.forgetting key).holding key e = t.holding key e := by
  simp only [holding, forgetting, OrderedMap.insert_erase]

theorem holding_vacating (t : PageTable) (key : PageKey) (ppn : Ppn) (e : Entry) :
    (t.without key ppn).holding key e = (t.vacating ppn).holding key e := by
  simp only [holding, without, vacating, OrderedMap.insert_erase]

/-- A change of entries alone, after which each page maps the frame it has mapped before. -/
theorem WellFormed.of_same_frames {t' : PageTable} (h : t.WellFormed)
    (hr : t'.resident = t.resident)
    (hm : ∀ ppn key, (∃ e, t'.lookup key = some e ∧ e.valid = true ∧ e.ppn = ppn) ↔
      ∃ e, t.lookup key = some e ∧ e.valid = true ∧ e.ppn = ppn) : t'.WellFormed := by
  constructor
  · rw [hr]
    exact h.index
  · intro ppn key
    rw [hm, ← h.owner_iff, owner?, owner?, hr]

theorem WellFormed.noting (h : t.WellFormed) {key : PageKey} {e : Entry}
    (hnew : t.lookup key = none) (hv : e.valid = false) : (t.learning key e).WellFormed := by
  apply WellFormed.of_same_frames h
  · rfl
  intro ppn k
  rw [lookup_learning]
  by_cases hk : k = key
  · simp [hk, hnew, hv]
  · rw [if_neg hk]

theorem WellFormed.confirming (h : t.WellFormed) {key : PageKey} {e old : Entry}
    (hold : t.lookup key = some old) (hv : e.valid = old.valid) (hp : e.ppn = old.ppn) :
    (t.learning key e).WellFormed := by
  apply WellFormed.of_same_frames h
  · rfl
  intro ppn k
  rw [lookup_learning]
  by_cases hk : k = key
  · simp [hk, hold, hv, hp]
  · rw [if_neg hk]

theorem WellFormed.forgetting (h : t.WellFormed) {key : PageKey} {old : Entry}
    (hold : t.lookup key = some old) (hv : old.valid = false) : (t.forgetting key).WellFormed := by
  apply WellFormed.of_same_frames h
  · rfl
  intro ppn k
  rw [lookup_forgetting]
  by_cases hk : k = key
  · simp [hk, hold, hv]
  · rw [if_neg hk]

/-! ## Calls -/

inductive Call
  | insert (key : PageKey) (entry : Entry)
  | update (key : PageKey) (entry : Entry)
  | remove (key : PageKey)
  deriving DecidableEq

def Call.run : Call → Op PageTable MemoryError Unit
  | .insert key entry => PageTable.insert key entry
  | .update key entry => PageTable.update key entry
  | .remove key => do let _ ← PageTable.remove key

/-- The table over `pages` frames after these calls, the latest of which comes first. -/
def after (pages : Nat) : List Call → PageTable
  | [] => empty pages
  | c :: past => (c.run (after pages past)).state

/-- An update that maps a page does so to a frame that exists. -/
def Call.Within (pages : Nat) : Call → Prop
  | .update _ entry => entry.valid = true → entry.ppn.toNat < pages
  | _ => True

instance (pages : Nat) : (c : Call) → Decidable (c.Within pages)
  | .insert _ _ => isTrue trivial
  | .update _ entry => inferInstanceAs (Decidable (entry.valid = true → entry.ppn.toNat < pages))
  | .remove _ => isTrue trivial

/-- An update that moves a page from the frame it is in to one that does not exist. -/
def Call.Strays (t : PageTable) : Call → Prop
  | .update key entry => entry.valid = true ∧ t.resident.residences.size ≤ entry.ppn.toNat ∧
      ∃ old, t.lookup key = some old ∧ old.valid = true
  | _ => False

/-- What a call does to a well formed table, with the result it answers. -/
inductive Effect (t : PageTable) : Call → Except MemoryError Unit → PageTable → Prop
  | refused {c : Call} (error : MemoryError) (hstays : ¬ c.Strays t) : Effect t c (.error error) t
  /-- An invalid entry maps nothing. -/
  | noted {key : PageKey} {e : Entry} (hnew : t.lookup key = none) (hv : e.valid = false) :
      Effect t (.insert key e) (.ok ()) (t.learning key e)
  | installed {key : PageKey} {e : Entry} (hnew : t.lookup key = none) (hv : e.valid = true)
      (hlt : e.ppn.toNat < t.resident.residences.size) (hfree : t.owner? e.ppn = none) :
      Effect t (.insert key e) (.ok ()) (t.holding key e)
  | ignored {key : PageKey} {e : Entry} (hv : e.valid = false) :
      Effect t (.update key e) (.ok ()) t
  /-- The page stays in its frame. -/
  | confirmed {key : PageKey} {e old : Entry} (hold : t.lookup key = some old)
      (hov : old.valid = true) (hv : e.valid = true) (hp : e.ppn = old.ppn) :
      Effect t (.update key e) (.ok ()) (t.learning key (e.absorb old))
  /-- A page that was in no frame comes into one. -/
  | validated {key : PageKey} {e old : Entry} (hold : t.lookup key = some old)
      (hov : old.valid = false) (hv : e.valid = true)
      (hlt : e.ppn.toNat < t.resident.residences.size) (hfree : t.owner? e.ppn = none) :
      Effect t (.update key e) (.ok ()) ((t.forgetting key).holding key (e.absorb old))
  | moved {key : PageKey} {e old : Entry} (hold : t.lookup key = some old)
      (hov : old.valid = true) (hv : e.valid = true)
      (hlt : e.ppn.toNat < t.resident.residences.size) (hfree : t.owner? e.ppn = none) :
      Effect t (.update key e) (.ok ()) ((t.without key old.ppn).holding key (e.absorb old))
  /-- A page is to move to a frame that does not exist, and loses the one it has. -/
  | strayed {key : PageKey} {e old : Entry} (hold : t.lookup key = some old)
      (hov : old.valid = true) (hv : e.valid = true)
      (hout : t.resident.residences.size ≤ e.ppn.toNat) :
      Effect t (.update key e) (.error .outOfBounds) (t.vacating old.ppn)
  | forgotten {key : PageKey} {old : Entry} (hold : t.lookup key = some old)
      (hov : old.valid = false) : Effect t (.remove key) (.ok ()) (t.forgetting key)
  | removed {key : PageKey} {old : Entry} (hold : t.lookup key = some old)
      (hov : old.valid = true) : Effect t (.remove key) (.ok ()) (t.without key old.ppn)

/-! ## What each call does -/

theorem insert_effect (h : t.WellFormed) (key : PageKey) (e : Entry) :
    (insert key e).Ends t fun r t' => t.Effect (.insert key e) r t' := by
  simp only [insert, Op.ends_bind, Op.ends_get]
  cases hl : t.lookup key with
  | some old =>
    have hc : t.entries.contains key = true := by
      rw [OrderedMap.contains, show t.entries.get? key = some old from hl]
      rfl
    simp only [hc, if_true, Op.ends_bind, Op.ends_notify, Op.ends_throw]
    exact .refused _ not_false
  | none =>
    have hc : t.entries.contains key = false := by
      rw [OrderedMap.contains, show t.entries.get? key = none from hl]
      rfl
    simp only [hc, Bool.false_eq_true, if_false]
    cases hv : e.valid with
    | false =>
      simp only [Bool.false_eq_true, if_false]
      exact .noted hl hv
    | true =>
      simp only [if_true, Op.ends_bind, Op.ends_on, residentPart]
      rcases Nat.lt_or_ge e.ppn.toNat t.resident.residences.size with hlt | hge
      · cases ho : t.resident.owner? e.ppn with
        | none =>
          refine (ResidentIndex.register_of_free key hlt ho).imp ?_
          rintro r r' ⟨rfl, rfl⟩
          exact .installed hl hv hlt ho
        | some other =>
          -- `key` has no entry yet, so it owns no frame.
          have hne : other ≠ key := by
            rintro rfl
            obtain ⟨e', he', -⟩ := (h.owner_iff e.ppn other).mp ho
            rw [hl] at he'
            cases he'
          refine (ResidentIndex.register_of_other ho hne).imp ?_
          rintro r r' ⟨rfl, rfl⟩
          exact .refused _ not_false
      · refine (ResidentIndex.register_out_of_bounds key hge).imp ?_
        rintro r r' ⟨rfl, rfl⟩
        exact .refused _ not_false

/-- An update to a frame that has an owner: it is the page, which stays there, or another one. -/
theorem update_effect_owned (h : t.WellFormed) {key other : PageKey} {e old : Entry}
    (hl : t.lookup key = some old) (hv : e.valid = true) (ho : t.owner? e.ppn = some other) :
    (update key e).Ends t fun r t' => t.Effect (.update key e) r t' := by
  simp only [update, Op.ends_bind, Op.ends_get, hl, hv, if_true, ho]
  by_cases hother : other = key
  · subst hother
    obtain ⟨e', he', hov, hp⟩ := (h.owner_iff e.ppn other).mp ho
    rw [hl] at he'
    obtain rfl := Option.some.inj he'
    simp only [ne_eq, not_true_eq_false, if_false, hp, bne_self_eq_false, Bool.and_false,
      Bool.false_eq_true, Op.ends_on, residentPart, Op.ends_bind]
    refine (ResidentIndex.register_of_owner ho).imp ?_
    rintro r r' ⟨rfl, rfl⟩
    exact .confirmed hl hov hv hp.symm
  · simp only [ne_eq, hother, not_false_eq_true, if_true, Op.ends_bind, Op.ends_notify,
      Op.ends_throw]
    have hstays : ¬ (Call.update key e).Strays t := by
      rintro ⟨-, hout, -⟩
      exact absurd (ResidentIndex.lt_of_owner? ho) (Nat.not_lt.mpr hout)
    exact .refused _ hstays

/-- An update that brings a page to a frame without an owner. -/
theorem update_effect_invalid {key : PageKey} {e old : Entry} (hl : t.lookup key = some old)
    (hov : old.valid = false) (hv : e.valid = true) (ho : t.owner? e.ppn = none) :
    (update key e).Ends t fun r t' => t.Effect (.update key e) r t' := by
  simp only [update, Op.ends_bind, Op.ends_get, hl, hv, if_true, ho, hov, Bool.false_and,
    Bool.false_eq_true, if_false, Op.ends_on, residentPart]
  rcases Nat.lt_or_ge e.ppn.toNat t.resident.residences.size with hlt | hge
  · refine (ResidentIndex.register_of_free key hlt ho).imp ?_
    rintro r r' ⟨rfl, rfl⟩
    have heffect := Effect.validated hl hov hv hlt ho
    rw [holding_forgetting] at heffect
    exact heffect
  · have hstays : ¬ (Call.update key e).Strays t := by
      rintro ⟨-, -, old', hold, hov'⟩
      rw [hl] at hold
      obtain rfl := Option.some.inj hold
      rw [hov] at hov'
      cases hov'
    refine (ResidentIndex.register_out_of_bounds key hge).imp ?_
    rintro r r' ⟨rfl, rfl⟩
    exact .refused _ hstays

/-- An update that moves a page to a frame without an owner. -/
theorem update_effect_resident (h : t.WellFormed) {key : PageKey} {e old : Entry}
    (hl : t.lookup key = some old) (hov : old.valid = true) (hv : e.valid = true)
    (ho : t.owner? e.ppn = none) :
    (update key e).Ends t fun r t' => t.Effect (.update key e) r t' := by
  have hp : old.ppn ≠ e.ppn := by
    intro hp
    have hown := h.owner hl hov
    rw [hp, ho] at hown
    cases hown
  have hsize := ResidentIndex.residences_size_unregister t.resident old.ppn
  simp only [update, Op.ends_bind, Op.ends_get, hl, hv, if_true, ho, hov, Bool.true_and,
    bne_iff_ne, ne_eq, hp, not_false_eq_true, Op.ends_set, Op.ends_on, residentPart]
  rcases Nat.lt_or_ge e.ppn.toNat t.resident.residences.size with hlt | hge
  · have hfree : (t.resident.unregister old.ppn).2.owner? e.ppn = none := by
      rw [ResidentIndex.owner?_unregister h.index, if_neg (Ne.symm hp)]
      exact ho
    refine (ResidentIndex.register_of_free key (hsize.symm ▸ hlt) hfree).imp ?_
    rintro r r' ⟨rfl, rfl⟩
    have heffect := Effect.moved hl hov hv hlt ho
    rw [holding_vacating] at heffect
    exact heffect
  · refine (ResidentIndex.register_out_of_bounds key (hsize.symm ▸ hge)).imp ?_
    rintro r r' ⟨rfl, rfl⟩
    exact .strayed hl hov hv hge

theorem update_effect (h : t.WellFormed) (key : PageKey) (e : Entry) :
    (update key e).Ends t fun r t' => t.Effect (.update key e) r t' := by
  cases hl : t.lookup key with
  | none =>
    simp only [update, Op.ends_bind, Op.ends_get, hl]
    have hstays : ¬ (Call.update key e).Strays t := by
      rintro ⟨-, -, old, hold, -⟩
      rw [hl] at hold
      cases hold
    exact .refused _ hstays
  | some old =>
    cases hv : e.valid with
    | false =>
      simp only [update, Op.ends_bind, Op.ends_get, hl, hv, Bool.false_eq_true, if_false]
      exact .ignored hv
    | true =>
      cases ho : t.owner? e.ppn with
      | some other => exact update_effect_owned h hl hv ho
      | none =>
        cases hov : old.valid with
        | false => exact update_effect_invalid hl hov hv ho
        | true => exact update_effect_resident h hl hov hv ho

theorem remove_effect (t : PageTable) (key : PageKey) :
    (Call.remove key).run.Ends t fun r t' => t.Effect (.remove key) r t' := by
  simp only [Call.run, remove, Op.ends_bind, Op.ends_get]
  cases hl : t.lookup key with
  | none => exact .refused _ not_false
  | some old =>
    simp only [Op.ends_set, Op.ends_pure, Op.ends_bind]
    cases hv : old.valid with
    | false => exact .forgotten hl hv
    | true => exact .removed hl hv

theorem call_effect (h : t.WellFormed) (c : Call) : c.run.Ends t fun r t' => t.Effect c r t' := by
  cases c with
  | insert key e => exact insert_effect h key e
  | update key e => exact update_effect h key e
  | remove key => exact remove_effect t key

/-! ## Calls in a row -/

structure Sound (pages : Nat) (t : PageTable) : Prop where
  wellFormed : t.WellFormed
  frames : t.resident.residences.size = pages

theorem sound_empty (pages : Nat) : (empty pages).Sound pages :=
  ⟨wellFormed_empty pages, Array.size_replicate⟩

theorem Sound.holding (h : t.Sound pages) {key : PageKey} {e : Entry} (hv : e.valid = true)
    (hnew : t.lookup key = none) (hlt : e.ppn.toNat < t.resident.residences.size)
    (hfree : t.owner? e.ppn = none) : (t.holding key e).Sound pages :=
  ⟨h.wellFormed.holding hv hnew hlt hfree, Array.size_setIfInBounds.trans h.frames⟩

theorem Sound.without (h : t.Sound pages) {key : PageKey} {e : Entry}
    (he : t.lookup key = some e) (hv : e.valid = true) : (t.without key e.ppn).Sound pages :=
  ⟨h.wellFormed.without he hv,
    (ResidentIndex.residences_size_unregister t.resident e.ppn).trans h.frames⟩

/-- A call keeps a table sound, unless it fails because a frame does not exist. -/
theorem Effect.sound {t' : PageTable} {c : Call} {r : Except MemoryError Unit}
    (heffect : t.Effect c r t') (h : t.Sound pages) (hc : c.Within pages ∨ r = .ok ()) :
    t'.Sound pages := by
  cases heffect with
  | refused error hstays => exact h
  | ignored hv => exact h
  | noted hnew hv => exact ⟨h.wellFormed.noting hnew hv, h.frames⟩
  | installed hnew hv hlt hfree => exact h.holding hv hnew hlt hfree
  | confirmed hold hov hv hp =>
    exact ⟨h.wellFormed.confirming hold (hv.trans hov.symm) hp, h.frames⟩
  | @validated key e old hold hov hv hlt hfree =>
    have hout : (t.forgetting key).Sound pages := ⟨h.wellFormed.forgetting hold hov, h.frames⟩
    have hnew : (t.forgetting key).lookup key = none := by rw [lookup_forgetting, if_pos rfl]
    exact hout.holding hv hnew hlt hfree
  | @moved key e old hold hov hv hlt hfree =>
    have hout := h.without hold hov
    have hnew : (t.without key old.ppn).lookup key = none := by rw [lookup_without, if_pos rfl]
    have hfree' : (t.without key old.ppn).owner? e.ppn = none := by
      rw [owner?_without h.wellFormed, hfree, ite_self]
    have hlt' : e.ppn.toNat < (t.without key old.ppn).resident.residences.size := by
      rw [hout.frames, ← h.frames]
      exact hlt
    exact hout.holding hv hnew hlt' hfree'
  | strayed hold hov hv hout =>
    rcases hc with hc | hc
    · have hlt := hc hv
      have hframes := h.frames
      omega
    · cases hc
  | forgotten hold hov => exact ⟨h.wellFormed.forgetting hold hov, h.frames⟩
  | removed hold hov => exact h.without hold hov

theorem sound_after {calls : List Call} (h : ∀ c ∈ calls, c.Within pages) :
    (after pages calls).Sound pages := by
  induction calls with
  | nil => exact sound_empty pages
  | cons c past ih =>
    obtain ⟨hc, hpast⟩ := List.forall_mem_cons.mp h
    have hsound := ih hpast
    exact (call_effect hsound.wellFormed c).sound hsound (.inl hc)

/-- Owners and valid entries of a table are one matching of frames with pages. -/
structure OwnersMatch (t : PageTable) : Prop where
  owner_iff : ∀ ppn key, t.owner? ppn = some key ↔
    ∃ e, t.lookup key = some e ∧ e.valid = true ∧ e.ppn = ppn
  owner_unique : ∀ key key' e e', t.lookup key = some e → t.lookup key' = some e' →
    e.valid = true → e'.valid = true → e.ppn = e'.ppn → key = key'
  count : t.residentCount = t.validCount
  audited : ∀ {σ : Type} (s : σ), ((t.audit : Op σ MemoryError Unit) s).result = .ok ()
  victim_iff : ∀ draws, (t.pickVictim draws).1.isSome = true ↔
    ∃ key e, t.lookup key = some e ∧ e.valid = true
  victim : ∀ draws key e, (t.pickVictim draws).1 = some (key, e) →
    t.lookup key = some e ∧ e.valid = true

theorem WellFormed.ownersMatch (h : t.WellFormed) : t.OwnersMatch where
  owner_iff := h.owner_iff
  owner_unique := fun _ _ _ _ he he' hv hv' hp => h.page_unique he he' hv hv' hp
  count := h.residentCount_eq
  audited := audit_ends h
  victim_iff := by
    intro draws
    rcases h.pickVictim_spec draws with ⟨key, e, hpick, he, hv⟩ | ⟨hpick, hnone⟩
    · rw [hpick]
      exact ⟨fun _ => ⟨key, e, he, hv⟩, fun _ => rfl⟩
    · rw [hpick]
      constructor
      · intro hsome
        cases hsome
      · rintro ⟨key, e, he, hv⟩
        have ho := h.owner he hv
        rw [hnone] at ho
        cases ho
  victim := by
    intro draws key e hsome
    rcases h.pickVictim_spec draws with ⟨key', e', hpick, he, hv⟩ | ⟨hpick, -⟩
    · rw [hpick] at hsome
      obtain ⟨rfl, rfl⟩ := Prod.mk.inj (Option.some.inj hsome)
      exact ⟨he, hv⟩
    · rw [hpick] at hsome
      cases hsome

/-- Whatever is called, and whether it succeeds or fails, each frame with an owner is the frame of
its owner's valid entry, and each valid entry owns its frame. -/
theorem owners_match_entries (pages : Nat) (calls : List Call)
    (h : ∀ c ∈ calls, c.Within pages) : (after pages calls).OwnersMatch :=
  (sound_after h).wellFormed.ownersMatch

/-- Entries valid and invalid, a frame that is taken, one that does not exist, an invalid entry that
comes into a frame, a page that moves, one that leaves. -/
def mixedCalls : List Call :=
  [.remove ⟨1, 3⟩, .remove ⟨2, 0⟩, .update ⟨1, 0⟩ ⟨0, 2, { valid := true }⟩,
    .update ⟨1, 1⟩ ⟨1, 0, { valid := true }⟩, .update ⟨1, 1⟩ ⟨1, 1, { valid := true }⟩,
    .update ⟨2, 0⟩ ⟨0, 7, {}⟩, .insert ⟨2, 1⟩ ⟨1, 9, { valid := true }⟩,
    .insert ⟨2, 0⟩ ⟨0, 3, { valid := true }⟩, .insert ⟨1, 1⟩ ⟨1, 0, {}⟩,
    .insert ⟨1, 0⟩ ⟨0, 0, { valid := true, dirty := true }⟩]

theorem owners_match_entries_mixed :
    (∀ c ∈ mixedCalls, c.Within 4) ∧ (after 4 mixedCalls).OwnersMatch ∧
      (after 4 mixedCalls).owner? 2 = some ⟨1, 0⟩ ∧ (after 4 mixedCalls).residentCount = 2 := by
  have hwithin : ∀ c ∈ mixedCalls, c.Within 4 := by decide
  exact ⟨hwithin, owners_match_entries 4 mixedCalls hwithin, by decide, by decide⟩

/-! ## Calls that fail -/

/-- The tables over `pages` frames that calls build all of which succeed. -/
inductive Built (pages : Nat) : PageTable → Prop
  | empty : Built pages (empty pages)
  | call {t : PageTable} (c : Call) (h : Built pages t) (hok : (c.run t).result = .ok ()) :
      Built pages (c.run t).state

theorem Built.sound (h : Built pages t) : t.Sound pages := by
  induction h with
  | empty => exact sound_empty pages
  | call c _ hok ih => exact (call_effect ih.wellFormed c).sound ih (.inr hok)

/-- The page is left with its valid entry, but without its frame. -/
structure Unhoused (t t' : PageTable) (key : PageKey) : Prop where
  lookup : ∀ k, t'.lookup k = t.lookup k
  owner? : ∀ ppn, t'.owner? ppn = if t.owner? ppn = some key then none else t.owner? ppn
  audited : ∀ {σ : Type} (s : σ),
    ((t'.audit : Op σ MemoryError Unit) s).result = .error .invariantViolation

theorem WellFormed.unhoused (h : t.WellFormed) {key : PageKey} {e : Entry}
    (he : t.lookup key = some e) (hv : e.valid = true) : Unhoused t (t.vacating e.ppn) key := by
  have howner : ∀ ppn, (t.vacating e.ppn).owner? ppn = if ppn = e.ppn then none else t.owner? ppn :=
    ResidentIndex.owner?_unregister h.index e.ppn
  refine ⟨fun _ => rfl, ?_, ?_⟩
  · intro ppn
    rw [howner]
    by_cases hp : ppn = e.ppn
    · rw [if_pos hp, hp, h.owner he hv, if_pos rfl]
    · have hne : t.owner? ppn ≠ some key := by
        intro ho
        obtain ⟨e', he', -, hp'⟩ := (h.owner_iff ppn key).mp ho
        rw [he] at he'
        obtain rfl := Option.some.inj he'
        exact hp hp'.symm
      rw [if_neg hp, if_neg hne]
  · intro σ s
    have he' : (t.vacating e.ppn).lookup key = some e := he
    have hlost : (t.vacating e.ppn).owner? e.ppn ≠ some key := by
      rw [howner, if_pos rfl]
      exact nofun
    exact audit_fails he' hv hlost s

/-- A failing call leaves the table as it was, unless it is to move a resident page to a frame that
does not exist. -/
theorem failed_call_atomic (h : Built pages t) {c : Call} {error : MemoryError}
    (hfails : (c.run t).result = .error error) :
    (¬ c.Strays t → (c.run t).state = t ∧
      ∀ {σ : Type} (s : σ), (((c.run t).state.audit : Op σ MemoryError Unit) s).result = .ok ()) ∧
    (∀ key e, c = .update key e → c.Strays t →
      error = .outOfBounds ∧ Unhoused t (c.run t).state key) := by
  have hw := h.sound.wellFormed
  have heffect : t.Effect c (c.run t).result (c.run t).state := call_effect hw c
  rw [hfails] at heffect
  generalize (c.run t).state = t' at heffect
  cases heffect with
  | refused error hstays =>
    refine ⟨fun _ => ⟨rfl, audit_ends hw⟩, ?_⟩
    intro key e _ hstrays
    exact absurd hstrays hstays
  | @strayed key e old hold hov hv hout =>
    constructor
    · intro hstays
      exact absurd ⟨hv, hout, old, hold, hov⟩ hstays
    · rintro key' e' heq -
      obtain ⟨rfl, rfl⟩ := Call.update.inj heq
      exact ⟨rfl, hw.unhoused hold hov⟩

def fullTable : PageTable :=
  after 2 [.insert ⟨2, 0⟩ ⟨0, 1, { valid := true }⟩, .insert ⟨1, 0⟩ ⟨0, 0, { valid := true }⟩]

theorem built_fullTable : Built 2 fullTable := .call _ (.call _ .empty rfl) rfl

/-- An update to the frame of another page, which changes nothing. -/
theorem failed_call_atomic_foreign :
    ((Call.update ⟨1, 0⟩ ⟨0, 1, { valid := true }⟩).run fullTable).result = .error .alreadyMapped ∧
      ((Call.update ⟨1, 0⟩ ⟨0, 1, { valid := true }⟩).run fullTable).state = fullTable := by
  have hfails : ((Call.update ⟨1, 0⟩ ⟨0, 1, { valid := true }⟩).run fullTable).result =
    .error .alreadyMapped := rfl
  have hstays : ¬ (Call.update ⟨1, 0⟩ ⟨0, 1, { valid := true }⟩).Strays fullTable := by
    rintro ⟨-, hout, -⟩
    exact absurd hout (by decide)
  exact ⟨hfails, ((failed_call_atomic built_fullTable hfails).1 hstays).1⟩

/-- An update to a frame that does not exist: it fails, and the frame of the page has no owner. -/
theorem failed_update_loses_owner :
    Built 2 fullTable ∧
      ((Call.update ⟨1, 0⟩ ⟨0, 5, { valid := true }⟩).run fullTable).result = .error .outOfBounds ∧
      fullTable.owner? 0 = some ⟨1, 0⟩ ∧
      ((Call.update ⟨1, 0⟩ ⟨0, 5, { valid := true }⟩).run fullTable).state.owner? 0 = none ∧
      ((((Call.update ⟨1, 0⟩ ⟨0, 5, { valid := true }⟩).run fullTable).state.audit :
        Op Unit MemoryError Unit) ()).result = .error .invariantViolation :=
  ⟨built_fullTable, rfl, rfl, rfl, rfl⟩

end PageTable

end VirtualMemory
