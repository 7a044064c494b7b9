import VirtualMemory.OrderedMap
import VirtualMemory.Op
import VirtualMemory.Random.Draws

/-!
# Resident frames

The reverse map from frames to the pages they hold. Resident frames are also listed without gaps,
so that a uniform choice among them takes one draw; each resident frame knows its place in that
list. Leaving the list moves its last frame into the gap.
-/

namespace VirtualMemory

/-- A page as one word, with its process in the high half. -/
def PageKey.word (k : PageKey) : UInt64 := k.pid.toUInt64 * 0x100000000 + k.vpn.toUInt64

theorem PageKey.toNat_word (k : PageKey) :
    k.word.toNat = k.pid.toNat * 0x100000000 + k.vpn.toNat := by
  have hp : k.pid.toNat < 2 ^ 32 := UInt32.toNat_lt k.pid
  have hv : k.vpn.toNat < 2 ^ 32 := UInt32.toNat_lt k.vpn
  simp only [word, UInt64.toNat_add, UInt64.toNat_mul, UInt32.toNat_toUInt64, UInt64.reduceToNat]
  omega

instance : Ranked PageKey where
  rank k := k.word.toNat
  rank_injective := by
    rintro ⟨p, v⟩ ⟨p', v'⟩ h
    have hv : v.toNat < 2 ^ 32 := UInt32.toNat_lt v
    have hv' : v'.toNat < 2 ^ 32 := UInt32.toNat_lt v'
    simp only [PageKey.toNat_word] at h
    simp only [PageKey.mk.injEq, ← UInt32.toNat_inj]
    omega

/-- The page that a frame holds, and the place of the frame in the list of resident frames. -/
structure Residence where
  owner : PageKey
  place : Nat
  deriving DecidableEq

def Residence.moveTo (place : Nat) (home : Residence) : Residence := { home with place := place }

structure ResidentIndex where
  /-- By frame. -/
  residences : Array (Option Residence)
  /-- The resident frames, without gaps. -/
  dense : Array Ppn
  deriving DecidableEq

namespace ResidentIndex

def empty (pages : Nat) : ResidentIndex := ⟨Array.replicate pages none, #[]⟩

def residence? (r : ResidentIndex) (ppn : Ppn) : Option Residence :=
  (r.residences[ppn.toNat]?).join

def owner? (r : ResidentIndex) (ppn : Ppn) : Option PageKey := (r.residence? ppn).map (·.owner)

def contains (r : ResidentIndex) (ppn : Ppn) : Bool := (r.owner? ppn).isSome

def size (r : ResidentIndex) : Nat := r.dense.size

/-- A frame with its owner, if it is resident. -/
def pair? (r : ResidentIndex) (ppn : Ppn) : Option (Ppn × PageKey) :=
  (r.owner? ppn).map fun key => (ppn, key)

/-- The resident frames with their owners, in list order. -/
def toList (r : ResidentIndex) : List (Ppn × PageKey) := r.dense.toList.filterMap r.pair?

/-- The resident frames with their owners, by frame number. -/
def byFrame (r : ResidentIndex) : List (Ppn × PageKey) :=
  ((List.range r.residences.size).map Nat.toUInt32).filterMap r.pair?

def add (r : ResidentIndex) (ppn : Ppn) (key : PageKey) : ResidentIndex :=
  { residences := r.residences.setIfInBounds ppn.toNat (some ⟨key, r.dense.size⟩)
    dense := r.dense.push ppn }

/-- Makes `key` the owner of frame `ppn`. A frame keeps the owner it has. -/
def register (ppn : Ppn) (key : PageKey) : Op ResidentIndex MemoryError Unit := do
  let r ← get
  match r.residences[ppn.toNat]? with
  | none => throw .outOfBounds
  | some none => set (r.add ppn key)
  | some (some home) =>
    if home.owner ≠ key then
      Op.notify (.frameOwned ppn home.owner.pid)
      throw .alreadyMapped

/-- The list without the element at `place`, whose gap the last element fills. -/
def closeGap (dense : Array Ppn) (place : Nat) : Array Ppn :=
  match dense.back? with
  | some last => (dense.setIfInBounds place last).pop
  | none => dense

def unregister (r : ResidentIndex) (ppn : Ppn) : Option PageKey × ResidentIndex :=
  match r.residence? ppn with
  | none => (none, r)
  | some home =>
    let dense := closeGap r.dense home.place
    let residences := match dense[home.place]? with
      | some moved =>
        r.residences.modify moved.toNat (Option.map (Residence.moveTo home.place))
      | none => r.residences
    (some home.owner, ⟨residences.setIfInBounds ppn.toNat none, dense⟩)

/-- Draws a resident frame, each with the same chance; nothing is drawn if there is none. -/
def pick (r : ResidentIndex) (draws : Draws) : Option (Ppn × PageKey) × Draws :=
  if r.dense.isEmpty then (none, draws)
  else
    let (i, draws) := draws.below r.dense.size
    (r.dense[i]?.bind r.pair?, draws)

def picks (r : ResidentIndex) (draws : Draws) : Nat → List (Option (Ppn × PageKey))
  | 0 => []
  | n + 1 => (r.pick draws).1 :: r.picks (r.pick draws).2 n

end ResidentIndex

end VirtualMemory
