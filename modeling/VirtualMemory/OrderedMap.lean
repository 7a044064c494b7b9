/-!
# Finite maps in key order

A map is its list of pairs, in strictly ascending order of a rank of the keys. So two maps with
the same entries are equal (`ext_get?`), and listing a map needs no sorting.

* `get?_insert`, `get?_modify`, `get?_erase`, `get?_filter`: what each operation does to the view
  `get?`;
* `mem_toList_iff`: the list holds exactly the entries.
-/

namespace VirtualMemory

/-- Keys that are told apart, and ordered, by a natural number. -/
class Ranked (κ : Type) where
  rank : κ → Nat
  rank_injective : ∀ a b, rank a = rank b → a = b

export Ranked (rank)

instance : Ranked Nat := ⟨id, fun _ _ h => h⟩

instance : Ranked UInt32 := ⟨UInt32.toNat, fun _ _ h => UInt32.toNat_inj.mp h⟩

theorem rank_eq_iff {κ : Type} [Ranked κ] {a b : κ} : rank a = rank b ↔ a = b :=
  ⟨Ranked.rank_injective a b, fun h => h ▸ rfl⟩

structure OrderedMap (κ ν : Type) [Ranked κ] where
  toList : List (κ × ν)
  ascending : toList.Pairwise fun a b => rank a.1 < rank b.1

namespace OrderedMap

variable {κ ν : Type} [Ranked κ]

def empty : OrderedMap κ ν := ⟨[], .nil⟩

instance : EmptyCollection (OrderedMap κ ν) := ⟨empty⟩

/-- The value of the first pair with key `k`. -/
def search (k : κ) : List (κ × ν) → Option ν
  | [] => none
  | (k', v) :: rest => if rank k' = rank k then some v else search k rest

def get? (m : OrderedMap κ ν) (k : κ) : Option ν := search k m.toList

def contains (m : OrderedMap κ ν) (k : κ) : Bool := (m.get? k).isSome

def size (m : OrderedMap κ ν) : Nat := m.toList.length

def isEmpty (m : OrderedMap κ ν) : Bool := m.toList.isEmpty

def keys (m : OrderedMap κ ν) : List κ := m.toList.map Prod.fst

def values (m : OrderedMap κ ν) : List ν := m.toList.map Prod.snd

/-- Puts a pair at its place, over a pair with the same key. -/
def place (k : κ) (v : ν) : List (κ × ν) → List (κ × ν)
  | [] => [(k, v)]
  | (k', v') :: rest =>
    if rank k < rank k' then (k, v) :: (k', v') :: rest
    else if rank k = rank k' then (k, v) :: rest
    else (k', v') :: place k v rest

/-- Placing a pair brings in no other one. -/
theorem rank_of_mem_place {k : κ} {v : ν} {l : List (κ × ν)} {p : κ × ν}
    (h : p ∈ place k v l) : p = (k, v) ∨ p ∈ l := by
  induction l with
  | nil => simpa [place] using h
  | cons q rest ih =>
    obtain ⟨k', v'⟩ := q
    rw [place] at h
    split at h
    · simpa using h
    · split at h
      · rcases List.mem_cons.1 h with h | h
        · exact .inl h
        · exact .inr (List.mem_cons_of_mem _ h)
      · rcases List.mem_cons.1 h with h | h
        · exact .inr (h ▸ List.mem_cons_self)
        · exact (ih h).imp_right (List.mem_cons_of_mem _)

/-- A pair is placed in order. -/
theorem ascending_place (k : κ) (v : ν) {l : List (κ × ν)}
    (h : l.Pairwise fun a b => rank a.1 < rank b.1) :
    (place k v l).Pairwise fun a b => rank a.1 < rank b.1 := by
  induction l with
  | nil => simp [place]
  | cons q rest ih =>
    obtain ⟨k', v'⟩ := q
    obtain ⟨hq, hr⟩ := List.pairwise_cons.1 h
    rw [place]
    split
    · next hlt =>
      refine List.pairwise_cons.2 ⟨fun p hp => ?_, h⟩
      rcases List.mem_cons.1 hp with rfl | hp
      · exact hlt
      · exact Nat.lt_trans hlt (hq p hp)
    · split
      · next heq => exact List.pairwise_cons.2 ⟨fun p hp => heq ▸ hq p hp, hr⟩
      · next hlt hne =>
        refine List.pairwise_cons.2 ⟨fun p hp => ?_, ih hr⟩
        rcases rank_of_mem_place hp with rfl | hp
        · show rank k' < rank k
          omega
        · exact hq p hp

def insert (m : OrderedMap κ ν) (k : κ) (v : ν) : OrderedMap κ ν :=
  ⟨place k v m.toList, ascending_place k v m.ascending⟩

def filter (m : OrderedMap κ ν) (p : κ → Bool) : OrderedMap κ ν :=
  ⟨m.toList.filter fun e => p e.1, m.ascending.filter _⟩

def erase (m : OrderedMap κ ν) (k : κ) : OrderedMap κ ν := m.filter fun k' => rank k' != rank k

def modify (m : OrderedMap κ ν) (k : κ) (f : ν → ν) : OrderedMap κ ν :=
  match m.get? k with
  | some v => m.insert k (f v)
  | none => m

section Lookup

variable [DecidableEq κ]

/-- The placed value is the one that is found, and the rest is found as before. -/
theorem search_place (k k' : κ) (v : ν) (l : List (κ × ν)) :
    search k' (place k v l) = if k' = k then some v else search k' l := by
  induction l with
  | nil => simp only [place, search, rank_eq_iff, eq_comm]
  | cons q rest ih =>
    obtain ⟨k₁, v₁⟩ := q
    by_cases hlt : rank k < rank k₁
    · simp only [place, hlt, if_true, search, rank_eq_iff, eq_comm (a := k) (b := k')]
    · by_cases heq : rank k = rank k₁
      · obtain rfl := rank_eq_iff.1 heq
        by_cases hk : k' = k
        · simp [place, search, hk]
        · simp [place, search, rank_eq_iff, Ne.symm hk, hk]
      · have hne : k₁ ≠ k := fun h => heq (h ▸ rfl)
        simp only [place, hlt, heq, if_false, search, ih, rank_eq_iff]
        by_cases hk : k' = k
        · subst hk; simp [hne]
        · simp [hk]

theorem get?_insert (m : OrderedMap κ ν) (k k' : κ) (v : ν) :
    (m.insert k v).get? k' = if k' = k then some v else m.get? k' :=
  search_place k k' v m.toList

theorem get?_insert_eq_some {m : OrderedMap κ ν} {k k' : κ} {v v' : ν} :
    (m.insert k v).get? k' = some v' ↔ k' = k ∧ v' = v ∨ k' ≠ k ∧ m.get? k' = some v' := by
  rw [get?_insert]
  by_cases h : k' = k
  · simp [h, eq_comm]
  · simp [h]

/-- A key that is not there stays away. -/
theorem get?_modify (m : OrderedMap κ ν) (k k' : κ) (f : ν → ν) :
    (m.modify k f).get? k' = if k' = k then (m.get? k).map f else m.get? k' := by
  unfold modify
  split
  next v hv => rw [get?_insert, hv, Option.map_some]
  next hv =>
    rw [hv, Option.map_none]
    split
    next hk => rw [hk, hv]
    next => rfl

/-- A search only meets the entries that the filter lets through. -/
theorem search_filter (p : κ → Bool) (k : κ) (l : List (κ × ν)) :
    search k (l.filter fun e => p e.1) = if p k then search k l else none := by
  induction l with
  | nil => simp [search]
  | cons q rest ih =>
    obtain ⟨k₁, v₁⟩ := q
    by_cases hk : k₁ = k
    · subst hk
      cases hp : p k₁
      · simp only [List.filter_cons, hp, ih, Bool.false_eq_true, if_false]
      · simp only [List.filter_cons, hp, if_true, search]
    · cases hp : p k₁
      · simp only [List.filter_cons, hp, ih, search, rank_eq_iff, hk, Bool.false_eq_true, if_false]
      · simp only [List.filter_cons, hp, ih, if_true, search, rank_eq_iff, hk, if_false]

theorem get?_filter (m : OrderedMap κ ν) (p : κ → Bool) (k : κ) :
    (m.filter p).get? k = if p k then m.get? k else none :=
  search_filter p k m.toList

theorem get?_erase (m : OrderedMap κ ν) (k k' : κ) :
    (m.erase k).get? k' = if k' = k then none else m.get? k' := by
  rw [erase, get?_filter]
  by_cases h : k' = k <;> simp [h, rank_eq_iff]

theorem get?_erase_eq_some {m : OrderedMap κ ν} {k k' : κ} {v : ν} :
    (m.erase k).get? k' = some v ↔ k' ≠ k ∧ m.get? k' = some v := by
  rw [get?_erase]
  by_cases h : k' = k <;> simp [h]

end Lookup

/-- The list of a map holds what the map says, each key once. -/
theorem mem_toList_iff (m : OrderedMap κ ν) (k : κ) (v : ν) :
    (k, v) ∈ m.toList ↔ m.get? k = some v := by
  obtain ⟨l, hl⟩ := m
  simp only [get?]
  induction l with
  | nil => simp [search]
  | cons q rest ih =>
    obtain ⟨k', v'⟩ := q
    obtain ⟨hq, hr⟩ := List.pairwise_cons.1 hl
    simp only [List.mem_cons, Prod.mk.injEq, search, ih hr]
    by_cases h : k' = k
    · subst h
      simp only [true_and, if_true, Option.some.injEq]
      refine ⟨fun h => ?_, fun h => .inl h.symm⟩
      rcases h with h | h
      · exact h.symm
      · exact absurd (hq _ ((ih hr).2 h)) (Nat.lt_irrefl _)
    · simp [Ne.symm h, mt rank_eq_iff.1 h]

theorem get?_eq_some_of_mem {m : OrderedMap κ ν} {e : κ × ν} (h : e ∈ m.toList) :
    m.get? e.1 = some e.2 :=
  (m.mem_toList_iff e.1 e.2).1 h

/-- A map is determined by its entries. -/
theorem ext_get? {m₁ m₂ : OrderedMap κ ν} (h : ∀ k, m₁.get? k = m₂.get? k) : m₁ = m₂ := by
  have hmem : ∀ e, e ∈ m₁.toList ↔ e ∈ m₂.toList := fun ⟨k, v⟩ => by
    rw [mem_toList_iff, mem_toList_iff, h]
  obtain ⟨l₁, h₁⟩ := m₁
  obtain ⟨l₂, h₂⟩ := m₂
  suffices l₁ = l₂ by subst this; rfl
  clear h
  simp only at hmem
  induction l₁ generalizing l₂ with
  | nil =>
    cases l₂ with
    | nil => rfl
    | cons q r => exact absurd ((hmem q).2 List.mem_cons_self) List.not_mem_nil
  | cons p rest ih =>
    cases l₂ with
    | nil => exact absurd ((hmem p).1 List.mem_cons_self) List.not_mem_nil
    | cons q r =>
      obtain ⟨hp, hrest⟩ := List.pairwise_cons.1 h₁
      obtain ⟨hq, hr⟩ := List.pairwise_cons.1 h₂
      have hpq : p = q := by
        rcases List.mem_cons.1 ((hmem p).1 List.mem_cons_self) with h | h
        · exact h
        rcases List.mem_cons.1 ((hmem q).2 List.mem_cons_self) with h' | h'
        · exact h'.symm
        · exact absurd (hp q h') (Nat.not_lt.2 (Nat.le_of_lt (hq p h)))
      subst hpq
      congr 1
      refine ih hrest r hr fun e => ?_
      have he := hmem e
      simp only [List.mem_cons] at he
      refine ⟨fun h => ?_, fun h => ?_⟩
      · rcases he.1 (.inr h) with rfl | h'
        · exact absurd (hp _ h) (Nat.lt_irrefl _)
        · exact h'
      · rcases he.2 (.inr h) with rfl | h'
        · exact absurd (hq _ h) (Nat.lt_irrefl _)
        · exact h'

/-- What is written over itself stays as it was. -/
theorem insert_eq_self [DecidableEq κ] {m : OrderedMap κ ν} {k : κ} {v : ν}
    (h : m.get? k = some v) : m.insert k v = m := by
  apply ext_get?
  intro k'
  rw [get?_insert]
  split
  next heq => rw [heq, h]
  next => rfl

end OrderedMap

abbrev OrderedSet (κ : Type) [Ranked κ] := OrderedMap κ Unit

end VirtualMemory
