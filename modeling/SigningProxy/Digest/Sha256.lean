/-!
# SHA-256

The message is filled up to whole blocks of 64 bytes, and every block stirs the state of eight words
through 64 rounds. The words of the message schedule are kept in a window of sixteen: each round
uses the first and appends the next.
-/

namespace SigningProxy.Sha256

/-- The round constants. -/
def constants : List UInt32 :=
  [0x428a2f98, 0x71374491, 0xb5c0fbcf, 0xe9b5dba5, 0x3956c25b, 0x59f111f1, 0x923f82a4, 0xab1c5ed5,
    0xd807aa98, 0x12835b01, 0x243185be, 0x550c7dc3, 0x72be5d74, 0x80deb1fe, 0x9bdc06a7, 0xc19bf174,
    0xe49b69c1, 0xefbe4786, 0x0fc19dc6, 0x240ca1cc, 0x2de92c6f, 0x4a7484aa, 0x5cb0a9dc, 0x76f988da,
    0x983e5152, 0xa831c66d, 0xb00327c8, 0xbf597fc7, 0xc6e00bf3, 0xd5a79147, 0x06ca6351, 0x14292967,
    0x27b70a85, 0x2e1b2138, 0x4d2c6dfc, 0x53380d13, 0x650a7354, 0x766a0abb, 0x81c2c92e, 0x92722c85,
    0xa2bfe8a1, 0xa81a664b, 0xc24b8b70, 0xc76c51a3, 0xd192e819, 0xd6990624, 0xf40e3585, 0x106aa070,
    0x19a4c116, 0x1e376c08, 0x2748774c, 0x34b0bcb5, 0x391c0cb3, 0x4ed8aa4a, 0x5b9cca4f, 0x682e6ff3,
    0x748f82ee, 0x78a5636f, 0x84c87814, 0x8cc70208, 0x90befffa, 0xa4506ceb, 0xbef9a3f7, 0xc67178f2]

/-- The eight words that the blocks are stirred into. -/
structure State where
  a : UInt32
  b : UInt32
  c : UInt32
  d : UInt32
  e : UInt32
  f : UInt32
  g : UInt32
  h : UInt32
  deriving DecidableEq, Repr

def initial : State :=
  ⟨0x6a09e667, 0xbb67ae85, 0x3c6ef372, 0xa54ff53a, 0x510e527f, 0x9b05688c, 0x1f83d9ab, 0x5be0cd19⟩

def rotateRight (x : UInt32) (n : UInt32) : UInt32 := (x >>> n) ||| (x <<< (32 - n))

private def bigSigma0 (x : UInt32) : UInt32 := rotateRight x 2 ^^^ rotateRight x 13 ^^^ rotateRight x 22
private def bigSigma1 (x : UInt32) : UInt32 := rotateRight x 6 ^^^ rotateRight x 11 ^^^ rotateRight x 25
private def smallSigma0 (x : UInt32) : UInt32 := rotateRight x 7 ^^^ rotateRight x 18 ^^^ (x >>> 3)
private def smallSigma1 (x : UInt32) : UInt32 := rotateRight x 17 ^^^ rotateRight x 19 ^^^ (x >>> 10)

/-- One round with the constant `k` and the schedule's word `w`. -/
def round (s : State) (k w : UInt32) : State :=
  let choice := (s.e &&& s.f) ^^^ (~~~s.e &&& s.g)
  let majority := (s.a &&& s.b) ^^^ (s.a &&& s.c) ^^^ (s.b &&& s.c)
  let t := s.h + bigSigma1 s.e + choice + k + w
  ⟨t + bigSigma0 s.a + majority, s.a, s.b, s.c, s.d + t, s.e, s.f, s.g⟩

/-- The window one word further. -/
def slide (window : List UInt32) : List UInt32 :=
  let next := smallSigma1 (window.getD 14 0) + window.getD 9 0 + smallSigma0 (window.getD 1 0) +
    window.getD 0 0
  window.drop 1 ++ [next]

/-- Four bytes, the highest first. -/
def wordBytes (w : UInt32) : List UInt8 :=
  [(w >>> 24).toUInt8, (w >>> 16).toUInt8, (w >>> 8).toUInt8, w.toUInt8]

/-- The words that these bytes make up. -/
def words : List UInt8 → List UInt32
  | x :: y :: z :: w :: rest =>
    ((x.toUInt32 <<< 24) ||| (y.toUInt32 <<< 16) ||| (z.toUInt32 <<< 8) ||| w.toUInt32) ::
      words rest
  | _ => []

/-- Stir one block of sixteen words into the state. -/
def compress (s : State) (block : List UInt32) : State :=
  let (t, _) := constants.foldl
    (fun (t, window) k => (round t k (window.headD 0), slide window)) (s, block)
  ⟨s.a + t.a, s.b + t.b, s.c + t.c, s.d + t.d, s.e + t.e, s.f + t.f, s.g + t.g, s.h + t.h⟩

/-- What follows a message of `n` bytes: a one bit, zeros, and the number of bits in eight bytes. -/
def padding (n : Nat) : List UInt8 :=
  let bits := n * 8
  0x80 :: List.replicate ((119 - n % 64) % 64) 0 ++
    (List.range 8).map fun i => (bits / Nat.pow 256 (7 - i)).toUInt8

/-- Stir in whole blocks of sixteen words, `count` of them. -/
def absorb : (count : Nat) → State → List UInt32 → State
  | 0, s, _ => s
  | count + 1, s, ws => absorb count (compress s (ws.take 16)) (ws.drop 16)

/-- The digest of a message: 32 bytes. -/
def digest (message : List UInt8) : List UInt8 :=
  let padded := message ++ padding message.length
  let s := absorb (padded.length / 64) initial (words padded)
  [s.a, s.b, s.c, s.d, s.e, s.f, s.g, s.h].flatMap wordBytes

@[simp] theorem length_digest (message : List UInt8) : (digest message).length = 32 := rfl

end SigningProxy.Sha256
