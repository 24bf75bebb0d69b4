import LiquidStaking.Text.Bytes

/-!
# SHA-256

The hash of FIPS 180-4.  A message is padded to blocks of sixteen words; each
block mixes its schedule of sixty-four words into the eight words of the state.
-/

namespace LiquidStaking.Sha256

abbrev Word := UInt32

structure State where
  a : Word
  b : Word
  c : Word
  d : Word
  e : Word
  f : Word
  g : Word
  h : Word
  deriving DecidableEq, Repr

def rotateRight (x : Word) (n : UInt32) : Word := (x >>> n) ||| (x <<< (32 - n))

def initial : State :=
  ⟨0x6a09e667, 0xbb67ae85, 0x3c6ef372, 0xa54ff53a, 0x510e527f, 0x9b05688c, 0x1f83d9ab, 0x5be0cd19⟩

/-- The round constants: the first 32 fractional bits of the cube roots of the
first sixty-four primes. -/
def roundConstants : List Word := [
  0x428a2f98, 0x71374491, 0xb5c0fbcf, 0xe9b5dba5, 0x3956c25b, 0x59f111f1, 0x923f82a4, 0xab1c5ed5,
  0xd807aa98, 0x12835b01, 0x243185be, 0x550c7dc3, 0x72be5d74, 0x80deb1fe, 0x9bdc06a7, 0xc19bf174,
  0xe49b69c1, 0xefbe4786, 0x0fc19dc6, 0x240ca1cc, 0x2de92c6f, 0x4a7484aa, 0x5cb0a9dc, 0x76f988da,
  0x983e5152, 0xa831c66d, 0xb00327c8, 0xbf597fc7, 0xc6e00bf3, 0xd5a79147, 0x06ca6351, 0x14292967,
  0x27b70a85, 0x2e1b2138, 0x4d2c6dfc, 0x53380d13, 0x650a7354, 0x766a0abb, 0x81c2c92e, 0x92722c85,
  0xa2bfe8a1, 0xa81a664b, 0xc24b8b70, 0xc76c51a3, 0xd192e819, 0xd6990624, 0xf40e3585, 0x106aa070,
  0x19a4c116, 0x1e376c08, 0x2748774c, 0x34b0bcb5, 0x391c0cb3, 0x4ed8aa4a, 0x5b9cca4f, 0x682e6ff3,
  0x748f82ee, 0x78a5636f, 0x84c87814, 0x8cc70208, 0x90befffa, 0xa4506ceb, 0xbef9a3f7, 0xc67178f2]

/-- One more word of a schedule written latest word first. -/
def nextWord (latestFirst : List Word) : Word :=
  let w (back : Nat) : Word := latestFirst.getD (back - 1) 0
  let s0 := rotateRight (w 15) 7 ^^^ rotateRight (w 15) 18 ^^^ (w 15 >>> 3)
  let s1 := rotateRight (w 2) 17 ^^^ rotateRight (w 2) 19 ^^^ (w 2 >>> 10)
  w 16 + s0 + w 7 + s1

def extend : Nat → List Word → List Word
  | 0, latestFirst => latestFirst
  | more + 1, latestFirst => extend more (nextWord latestFirst :: latestFirst)

def schedule (block : List Word) : List Word := (extend 48 block.reverse).reverse

def mix (s : State) (constant word : Word) : State :=
  let s1 := rotateRight s.e 6 ^^^ rotateRight s.e 11 ^^^ rotateRight s.e 25
  let choice := (s.e &&& s.f) ^^^ (~~~s.e &&& s.g)
  let t1 := s.h + s1 + choice + constant + word
  let s0 := rotateRight s.a 2 ^^^ rotateRight s.a 13 ^^^ rotateRight s.a 22
  let majority := (s.a &&& s.b) ^^^ (s.a &&& s.c) ^^^ (s.b &&& s.c)
  ⟨t1 + s0 + majority, s.a, s.b, s.c, s.d + t1, s.e, s.f, s.g⟩

def absorb (s : State) (block : List Word) : State :=
  let t := (List.zip roundConstants (schedule block)).foldl (fun t (k, w) => mix t k w) s
  ⟨s.a + t.a, s.b + t.b, s.c + t.c, s.d + t.d, s.e + t.e, s.f + t.f, s.g + t.g, s.h + t.h⟩

/-- A one bit, zeros up to eight bytes short of a block, and the length in bits. -/
def pad (message : Bytes) : Bytes :=
  let zeros := (119 - message.length % 64) % 64
  message ++ 0x80 :: List.replicate zeros 0 ++ Bytes.bigEndian 8 (8 * message.length)

def words : Bytes → List Word
  | a :: b :: c :: d :: rest =>
      UInt32.ofNat (Bytes.ofBigEndian [a, b, c, d]) :: words rest
  | _ => []

def absorbAll (s : State) : Nat → List Word → State
  | 0, _ => s
  | blocks + 1, ws => absorbAll (absorb s (ws.take 16)) blocks (ws.drop 16)

def hash (message : Bytes) : Bytes :=
  let ws := words (pad message)
  let s := absorbAll initial (ws.length / 16) ws
  [s.a, s.b, s.c, s.d, s.e, s.f, s.g, s.h].flatMap fun w => Bytes.bigEndian 4 w.toNat

end LiquidStaking.Sha256
