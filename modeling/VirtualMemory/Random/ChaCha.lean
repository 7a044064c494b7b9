/-!
# ChaCha with twelve rounds

The block function of ChaCha, and its output as a sequence of 64-bit words: word `n` is a function
of the key and `n` alone. The counter has 64 bits and starts at zero; the nonce is zero.
-/

namespace VirtualMemory.ChaCha

abbrev Block := Vector UInt32 16

abbrev Key := Vector UInt32 8

def rotateLeft (x n : UInt32) : UInt32 := x <<< n ||| x >>> (32 - n)

/-- One quarter round on the words `a`, `b`, `c`, `d` of a block. -/
def quarterRound (s : Block) (a b c d : Fin 16) : Block :=
  let s := s.set a (s[a] + s[b])
  let s := s.set d (rotateLeft (s[d] ^^^ s[a]) 16)
  let s := s.set c (s[c] + s[d])
  let s := s.set b (rotateLeft (s[b] ^^^ s[c]) 12)
  let s := s.set a (s[a] + s[b])
  let s := s.set d (rotateLeft (s[d] ^^^ s[a]) 8)
  let s := s.set c (s[c] + s[d])
  s.set b (rotateLeft (s[b] ^^^ s[c]) 7)

/-- A round on the columns, then one on the diagonals. -/
def doubleRound (s : Block) : Block :=
  let s := quarterRound s 0 4 8 12
  let s := quarterRound s 1 5 9 13
  let s := quarterRound s 2 6 10 14
  let s := quarterRound s 3 7 11 15
  let s := quarterRound s 0 5 10 15
  let s := quarterRound s 1 6 11 12
  let s := quarterRound s 2 7 8 13
  quarterRound s 3 4 9 14

/-- The block before the rounds: constants, key, counter, nonce. -/
def initialBlock (key : Key) (counter : UInt64) : Block :=
  #v[0x61707865, 0x3320646e, 0x79622d32, 0x6b206574,
    key[0], key[1], key[2], key[3], key[4], key[5], key[6], key[7],
    counter.toUInt32, (counter >>> 32).toUInt32, 0, 0]

def rounds : Nat → Block → Block
  | 0, s => s
  | n + 1, s => rounds n (doubleRound s)

/-- The output block: the block after twelve rounds plus the block before them. -/
def block (key : Key) (counter : UInt64) : Block :=
  let start := initialBlock key counter
  start.zipWith (· + ·) (rounds 6 start)

/-- Word `n` of the output, the low half first. -/
def word64 (key : Key) (n : Nat) : UInt64 :=
  let b := block key (n / 8).toUInt64
  let i := 2 * (n % 8)
  let low := b.get ⟨i, by omega⟩
  let high := b.get ⟨i + 1, by omega⟩
  high.toUInt64 <<< 32 ||| low.toUInt64

end VirtualMemory.ChaCha
