import VirtualMemory.Random.ChaCha

/-!
# Random choices

A source of choices is a sequence of 64-bit words and a position in it: either the output of a
seeded generator or words given in advance. `Draws.below` turns words into a number below a bound
without bias; `below_lt` says that it is below the bound.
-/

namespace VirtualMemory

/-- A sequence of words, and how many of them are used up. -/
structure Draws where
  word : Nat → UInt64
  position : Nat

namespace Draws

/-- One step of the linear congruential generator that spreads a seed over a key. -/
def seedStep (state : UInt64) : UInt64 :=
  state * 6364136223846793005 + 11634580027462260723

/-- The key word of a generator state: its high bits, mixed and rotated. -/
def seedWord (state : UInt64) : UInt32 :=
  let x := (((state >>> 18) ^^^ state) >>> 27).toUInt32
  let turn := (state >>> 59).toUInt32
  x >>> turn ||| x <<< ((32 - turn) % 32)

/-- The key words of the `n` states that follow `state`. -/
def seedWords : Nat → UInt64 → List UInt32
  | 0, _ => []
  | n + 1, state => seedWord (seedStep state) :: seedWords n (seedStep state)

theorem length_seedWords (n : Nat) (state : UInt64) : (seedWords n state).length = n := by
  induction n generalizing state with
  | zero => rfl
  | succ n ih => simp [seedWords, ih]

def keyOfSeed (seed : UInt64) : ChaCha.Key :=
  ⟨(seedWords 8 seed).toArray, by simp [length_seedWords]⟩

def seeded (seed : UInt64) : Draws := ⟨ChaCha.word64 (keyOfSeed seed), 0⟩

/-- The given words, then zeros. -/
def ofWords (words : List UInt64) : Draws := ⟨fun i => words.getD i 0, 0⟩

def next (d : Draws) : Draws := { d with position := d.position + 1 }

/-- The largest low half of a product that is accepted. Up to it, every number below `n` is
reached by equally many words. -/
def zone (n : Nat) : Nat := (n <<< (63 - n.log2)) - 1

/-- Draws words until one is accepted; the number is the high half of its product with `n`. At
least half of all words are accepted, so the bound on the number of tries is never met. -/
def tryBelow (n : Nat) : Nat → Draws → Nat × Draws
  | 0, d => (0, d)
  | tries + 1, d =>
    let product := (d.word d.position).toNat * n
    if product % UInt64.size ≤ zone n then (product / UInt64.size, d.next)
    else tryBelow n tries d.next

/-- More tries than there are words to reject. -/
def maxTries : Nat := UInt64.size

def below (n : Nat) (d : Draws) : Nat × Draws := tryBelow n maxTries d

theorem tryBelow_lt {n : Nat} (hn : 0 < n) (tries : Nat) (d : Draws) :
    (tryBelow n tries d).1 < n := by
  induction tries generalizing d with
  | zero => exact hn
  | succ tries ih =>
    simp only [tryBelow]
    split
    · have hw : (d.word d.position).toNat < UInt64.size := UInt64.toNat_lt_size _
      refine Nat.div_lt_of_lt_mul ?_
      exact Nat.mul_lt_mul_of_pos_right hw hn
    · exact ih d.next

theorem below_lt {n : Nat} (hn : 0 < n) (d : Draws) : (below n d).1 < n := tryBelow_lt hn _ d

end Draws

end VirtualMemory
