import ScriptWasm.Text.Hex

/-!
# SHA-256

The digest that ties a module to the source it was built from. The message is padded to whole blocks
of sixty-four bytes; every block is spread into a schedule of sixty-four words and folded into a
state of eight words.
-/

namespace ScriptWasm.Sha256

/-! ## Words -/

def rotateRight (x n : UInt32) : UInt32 := (x >>> n) ||| (x <<< (32 - n))

def bigSigma0 (x : UInt32) : UInt32 := rotateRight x 2 ^^^ rotateRight x 13 ^^^ rotateRight x 22

def bigSigma1 (x : UInt32) : UInt32 := rotateRight x 6 ^^^ rotateRight x 11 ^^^ rotateRight x 25

def smallSigma0 (x : UInt32) : UInt32 := rotateRight x 7 ^^^ rotateRight x 18 ^^^ (x >>> 3)

def smallSigma1 (x : UInt32) : UInt32 := rotateRight x 17 ^^^ rotateRight x 19 ^^^ (x >>> 10)

def choose (x y z : UInt32) : UInt32 := (x &&& y) ^^^ (x.complement &&& z)

def majority (x y z : UInt32) : UInt32 := (x &&& y) ^^^ (x &&& z) ^^^ (y &&& z)

/-- One constant for each round. -/
def roundConstants : List UInt32 :=
  [0x428a2f98, 0x71374491, 0xb5c0fbcf, 0xe9b5dba5, 0x3956c25b, 0x59f111f1, 0x923f82a4, 0xab1c5ed5,
    0xd807aa98, 0x12835b01, 0x243185be, 0x550c7dc3, 0x72be5d74, 0x80deb1fe, 0x9bdc06a7, 0xc19bf174,
    0xe49b69c1, 0xefbe4786, 0x0fc19dc6, 0x240ca1cc, 0x2de92c6f, 0x4a7484aa, 0x5cb0a9dc, 0x76f988da,
    0x983e5152, 0xa831c66d, 0xb00327c8, 0xbf597fc7, 0xc6e00bf3, 0xd5a79147, 0x06ca6351, 0x14292967,
    0x27b70a85, 0x2e1b2138, 0x4d2c6dfc, 0x53380d13, 0x650a7354, 0x766a0abb, 0x81c2c92e, 0x92722c85,
    0xa2bfe8a1, 0xa81a664b, 0xc24b8b70, 0xc76c51a3, 0xd192e819, 0xd6990624, 0xf40e3585, 0x106aa070,
    0x19a4c116, 0x1e376c08, 0x2748774c, 0x34b0bcb5, 0x391c0cb3, 0x4ed8aa4a, 0x5b9cca4f, 0x682e6ff3,
    0x748f82ee, 0x78a5636f, 0x84c87814, 0x8cc70208, 0x90befffa, 0xa4506ceb, 0xbef9a3f7, 0xc67178f2]

/-! ## Blocks -/

/-- Big-endian words of four bytes. -/
def words : List UInt8 → List UInt32
  | a :: b :: c :: d :: rest =>
    ((a.toUInt32 <<< 24) ||| (b.toUInt32 <<< 16) ||| (c.toUInt32 <<< 8) ||| d.toUInt32) ::
      words rest
  | _ => []

/-- The big-endian bytes of a word. -/
def wordBytes (w : UInt32) : List UInt8 :=
  [(w >>> 24).toUInt8, (w >>> 16).toUInt8, (w >>> 8).toUInt8, w.toUInt8]

/-- The big-endian bytes of a 64-bit length. -/
def lengthBytes (n : Nat) : List UInt8 :=
  (List.range 8).map fun i ↦ UInt8.ofNat (n / Nat.pow 256 (7 - i) % 256)

/-- The message, a marker byte, zeros up to a block boundary, and the length in bits. -/
def pad (message : List UInt8) : List UInt8 :=
  let n := message.length
  message ++ 0x80 :: List.replicate ((119 - n % 64) % 64) 0 ++ lengthBytes (8 * n)

/-- The sixteen words of a block and the forty-eight that follow from them. -/
def schedule (block : List UInt32) : List UInt32 :=
  let extend (w : Array UInt32) (i : Nat) : Array UInt32 :=
    w.push (smallSigma1 (w.getD (i + 14) 0) + w.getD (i + 9) 0 + smallSigma0 (w.getD (i + 1) 0)
      + w.getD i 0)
  ((List.range 48).foldl extend block.toArray).toList

/-- The chaining state. -/
structure State where
  a : UInt32
  b : UInt32
  c : UInt32
  d : UInt32
  e : UInt32
  f : UInt32
  g : UInt32
  h : UInt32

def State.initial : State :=
  ⟨0x6a09e667, 0xbb67ae85, 0x3c6ef372, 0xa54ff53a, 0x510e527f, 0x9b05688c, 0x1f83d9ab, 0x5be0cd19⟩

/-- One round, with the schedule word and the constant that belong to it. -/
def State.round (s : State) (w : UInt32 × UInt32) : State :=
  let t₁ := s.h + bigSigma1 s.e + choose s.e s.f s.g + w.2 + w.1
  let t₂ := bigSigma0 s.a + majority s.a s.b s.c
  ⟨t₁ + t₂, s.a, s.b, s.c, s.d + t₁, s.e, s.f, s.g⟩

/-- Folds one block into the state. -/
def State.absorb (s : State) (block : List UInt32) : State :=
  let t := ((schedule block).zip roundConstants).foldl State.round s
  ⟨s.a + t.a, s.b + t.b, s.c + t.c, s.d + t.d, s.e + t.e, s.f + t.f, s.g + t.g, s.h + t.h⟩

/-- Absorbs `count` blocks of sixteen words. -/
def absorbAll : Nat → State → List UInt32 → State
  | 0, s, _ => s
  | count + 1, s, ws => absorbAll count (s.absorb (ws.take 16)) (ws.drop 16)

/-- The thirty-two bytes of the digest. -/
def digest (message : List UInt8) : List UInt8 :=
  let ws := words (pad message)
  let s := absorbAll (ws.length / 16) State.initial ws
  [s.a, s.b, s.c, s.d, s.e, s.f, s.g, s.h].flatMap wordBytes

/-- The digest as hexadecimal text. -/
def hexDigest (message : List UInt8) : String := Hex.encode (digest message)

end ScriptWasm.Sha256
