import Stencil.Text.Quoted

/-!
# SHA-256

The digest of a sequence of bytes, written in hexadecimal.

The message is padded to whole blocks of sixty-four bytes. Each block is
expanded to a schedule of sixty-four words, and sixty-four rounds mix the
schedule into eight words of state.

## Main definitions

* `Sha256.pad`: The padded message.
* `Sha256.compress`: One block mixed into the state.
* `Sha256.hexDigest`: The digest in hexadecimal.
-/

namespace Stencil

namespace Sha256

/-- The round constants: fractional parts of the cube roots of the first
sixty-four primes. -/
def roundConstants : Array UInt32 := #[
  0x428a2f98, 0x71374491, 0xb5c0fbcf, 0xe9b5dba5, 0x3956c25b, 0x59f111f1, 0x923f82a4, 0xab1c5ed5,
  0xd807aa98, 0x12835b01, 0x243185be, 0x550c7dc3, 0x72be5d74, 0x80deb1fe, 0x9bdc06a7, 0xc19bf174,
  0xe49b69c1, 0xefbe4786, 0x0fc19dc6, 0x240ca1cc, 0x2de92c6f, 0x4a7484aa, 0x5cb0a9dc, 0x76f988da,
  0x983e5152, 0xa831c66d, 0xb00327c8, 0xbf597fc7, 0xc6e00bf3, 0xd5a79147, 0x06ca6351, 0x14292967,
  0x27b70a85, 0x2e1b2138, 0x4d2c6dfc, 0x53380d13, 0x650a7354, 0x766a0abb, 0x81c2c92e, 0x92722c85,
  0xa2bfe8a1, 0xa81a664b, 0xc24b8b70, 0xc76c51a3, 0xd192e819, 0xd6990624, 0xf40e3585, 0x106aa070,
  0x19a4c116, 0x1e376c08, 0x2748774c, 0x34b0bcb5, 0x391c0cb3, 0x4ed8aa4a, 0x5b9cca4f, 0x682e6ff3,
  0x748f82ee, 0x78a5636f, 0x84c87814, 0x8cc70208, 0x90befffa, 0xa4506ceb, 0xbef9a3f7, 0xc67178f2]

/-- The eight words of state. -/
structure State where
  /-- First word. -/
  a : UInt32
  /-- Second word. -/
  b : UInt32
  /-- Third word. -/
  c : UInt32
  /-- Fourth word. -/
  d : UInt32
  /-- Fifth word. -/
  e : UInt32
  /-- Sixth word. -/
  f : UInt32
  /-- Seventh word. -/
  g : UInt32
  /-- Eighth word. -/
  h : UInt32

/-- The first state: fractional parts of the square roots of eight primes. -/
def State.first : State :=
  ⟨0x6a09e667, 0xbb67ae85, 0x3c6ef372, 0xa54ff53a, 0x510e527f, 0x9b05688c, 0x1f83d9ab, 0x5be0cd19⟩

/-- The word turned right by some bits. -/
def rotateRight (x : UInt32) (n : UInt32) : UInt32 :=
  (x >>> n) ||| (x <<< (32 - n))

/-- The bytes of a number, most significant first. -/
def bigEndian : Nat → Nat → List UInt8
  | 0, _ => []
  | width + 1, n => bigEndian width (n / 256) ++ [UInt8.ofNat (n % 256)]

/-- The message with a single one bit, zeros up to eight bytes before the end
of a block, and its length in bits. -/
def pad (message : ByteArray) : ByteArray :=
  let zeros := (119 - message.size % 64) % 64
  let tail := 0x80 :: List.replicate zeros 0 ++ bigEndian 8 (8 * message.size)
  tail.foldl ByteArray.push message

/-- The byte at a position; positions outside the message do not occur. -/
def byteAt (m : ByteArray) (i : Nat) : UInt8 :=
  if h : i < m.size then m[i] else 0

/-- The big-endian word at a position. -/
def wordAt (m : ByteArray) (i : Nat) : UInt32 :=
  ((byteAt m i).toUInt32 <<< 24) ||| ((byteAt m (i + 1)).toUInt32 <<< 16) |||
    ((byteAt m (i + 2)).toUInt32 <<< 8) ||| (byteAt m (i + 3)).toUInt32

/-- The schedule of a block that starts at `i`. -/
def schedule (m : ByteArray) (i : Nat) : Array UInt32 :=
  let start := (Array.range 16).map fun k => wordAt m (i + 4 * k)
  (List.range 48).foldl (fun w k =>
    let x := w.getD (k + 1) 0
    let y := w.getD (k + 14) 0
    let s₀ := rotateRight x 7 ^^^ rotateRight x 18 ^^^ (x >>> 3)
    let s₁ := rotateRight y 17 ^^^ rotateRight y 19 ^^^ (y >>> 10)
    w.push (w.getD k 0 + s₀ + w.getD (k + 9) 0 + s₁)) start

/-- One round: a word of the schedule and a constant mixed into the state. -/
def round (s : State) (word constant : UInt32) : State :=
  let s₁ := rotateRight s.e 6 ^^^ rotateRight s.e 11 ^^^ rotateRight s.e 25
  let choice := (s.e &&& s.f) ^^^ ((s.e ^^^ 0xFFFFFFFF) &&& s.g)
  let t₁ := s.h + s₁ + choice + constant + word
  let s₀ := rotateRight s.a 2 ^^^ rotateRight s.a 13 ^^^ rotateRight s.a 22
  let majority := (s.a &&& s.b) ^^^ (s.a &&& s.c) ^^^ (s.b &&& s.c)
  ⟨t₁ + (s₀ + majority), s.a, s.b, s.c, s.d + t₁, s.e, s.f, s.g⟩

/-- The block that starts at `i` mixed into the state. -/
def compress (m : ByteArray) (s : State) (i : Nat) : State :=
  let w := schedule m i
  let t := (List.range 64).foldl
    (fun t k => round t (w.getD k 0) (roundConstants.getD k 0)) s
  ⟨s.a + t.a, s.b + t.b, s.c + t.c, s.d + t.d, s.e + t.e, s.f + t.f, s.g + t.g, s.h + t.h⟩

/-- The digest of a message, in hexadecimal. -/
def hexDigest (message : ByteArray) : String :=
  let m := pad message
  let s := (List.range (m.size / 64)).foldl (fun s k => compress m s (64 * k)) State.first
  String.ofList ([s.a, s.b, s.c, s.d, s.e, s.f, s.g, s.h].flatMap fun w =>
    Text.hexDigits 8 w.toNat)

end Sha256

end Stencil
