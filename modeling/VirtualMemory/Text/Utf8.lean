/-!
# Reading bytes as UTF-8

Well-formed sequences read as their characters. Elsewhere each maximal part that could begin a
well-formed sequence, or else a single byte, reads as one U+FFFD.
-/

namespace VirtualMemory.Utf8

/-- What stands for bytes that are not well-formed. -/
def replacement : Char := '\ufffd'

def isContinuation (b : UInt8) : Bool := 0x80 ≤ b && b ≤ 0xbf

/-- Length of the sequence that a first byte announces, and the bounds of its second byte. The
bounds exclude overlong forms, surrogates and numbers past the last character. -/
def leadInfo (b : UInt8) : Option (Nat × UInt8 × UInt8) :=
  if 0xc2 ≤ b && b ≤ 0xdf then some (2, 0x80, 0xbf)
  else if b = 0xe0 then some (3, 0xa0, 0xbf)
  else if b = 0xed then some (3, 0x80, 0x9f)
  else if 0xe1 ≤ b && b ≤ 0xef then some (3, 0x80, 0xbf)
  else if b = 0xf0 then some (4, 0x90, 0xbf)
  else if 0xf1 ≤ b && b ≤ 0xf3 then some (4, 0x80, 0xbf)
  else if b = 0xf4 then some (4, 0x80, 0x8f)
  else none

/-- The longest start of `rest` that continues a sequence of `missing` more bytes, the first of
them between `low` and `high`. -/
def continuation (missing : Nat) (low high : UInt8) : List UInt8 → List UInt8
  | [] => []
  | b :: rest =>
    match missing with
    | 0 => []
    | missing + 1 =>
      if low ≤ b && b ≤ high then b :: continuation missing 0x80 0xbf rest else []

def codePoint (size : Nat) (lead : UInt8) (tail : List UInt8) : Nat :=
  tail.foldl (fun n b => n * 64 + (b &&& 0x3f).toNat) (lead.toNat % (1 <<< (7 - size)))

/-- The first character, and the number of bytes that it takes. -/
def decodeFirst (b : UInt8) (rest : List UInt8) : Char × Nat :=
  if b < 0x80 then (Char.ofNat b.toNat, 1)
  else
    match leadInfo b with
    | none => (replacement, 1)
    | some (size, low, high) =>
      let tail := continuation (size - 1) low high rest
      if tail.length + 1 = size then (Char.ofNat (codePoint size b tail), size)
      else (replacement, tail.length + 1)

/-- Decodes with as many steps as there are bytes. -/
def decodeSteps : Nat → List UInt8 → List Char
  | 0, _ => []
  | _, [] => []
  | steps + 1, b :: rest =>
    let (c, size) := decodeFirst b rest
    c :: decodeSteps steps (rest.drop (size - 1))

def decode (bytes : List UInt8) : String := String.ofList (decodeSteps bytes.length bytes)

end VirtualMemory.Utf8
