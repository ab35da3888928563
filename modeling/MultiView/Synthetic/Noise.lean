import MultiView.Geometry.Vector

/-!
# Pixel noise by key

Noise that depends on nothing but a seed, an image and a point: the three are mixed into a 64-bit key, the key is
hashed, and the upper 53 bits of the hash are read as a fraction of one. All arithmetic on keys is modulo `2 ^ 64`.
-/

namespace MultiView

namespace SampleKey

/-- The key of a seed and two indices. -/
def mix (seed : UInt64) (a b : Nat) : UInt64 :=
  seed ^^^ (a.toUInt64 * 0x9E3779B97F4A7C15) ^^^ (b.toUInt64 * 0xBF58476D1CE4E5B9)

/-- One multiply-and-shift round of the hash. -/
def scramble (shift factor z : UInt64) : UInt64 := (z ^^^ (z >>> shift)) * factor

/-- The hash of a key: three invertible rounds. -/
def hash (key : UInt64) : UInt64 :=
  let z := scramble 27 0x94D049BB133111EB (scramble 30 0xBF58476D1CE4E5B9 (key + 0x9E3779B97F4A7C15))
  z ^^^ (z >>> 31)

/-- The numerator, below `2 ^ 53`, of the sample of a key. -/
def numerator (key : UInt64) : Nat := (hash key >>> 11).toNat

/-- The sample of a key: at least zero and below one. -/
def sample {α : Type} [Scalar α] (key : UInt64) : α :=
  Scalar.ofNat (numerator key) * (1 / Scalar.ofNat (Nat.pow 2 53))

/-- The key of the second coordinate of a pixel, from that of the first. -/
def second (key : UInt64) : UInt64 := key ^^^ 0x94D049BB133111EB

end SampleKey

/-- Uniform noise of at most `maxAbs` pixels along each axis. -/
structure PixelNoise (α : Type) where
  seed : UInt64
  maxAbs : α

namespace PixelNoise

variable {α : Type} [Scalar α]

/-- The noise of a point seen in an image. -/
def sample (noise : PixelNoise α) (image point : Nat) : Vec2 α :=
  let bound := Scalar.abs noise.maxAbs
  if bound == 0 then ⟨0, 0⟩
  else
    let key := SampleKey.mix noise.seed image point
    let spread (key : UInt64) : α := (SampleKey.sample key - Scalar.half) * Scalar.two * bound
    ⟨spread key, spread (SampleKey.second key)⟩

/-- A pixel with the noise of its point and image. -/
def apply (noise : PixelNoise α) (image point : Nat) (uv : Vec2 α) : Vec2 α := uv + noise.sample image point

end PixelNoise

end MultiView
