import SchemaSampler.Random.Choice

namespace SchemaSampler

/-!
# Streams — choices from a seed

The words of a stream are a scrambled counter: word `i` is a mixture of the bits of the seed plus
`i` times an odd constant.  A question with few answers is answered from one word, one with many
from as many words as make the remainder even.
-/

namespace Choices

/-- Scrambles the bits of a word. -/
def scramble (z : UInt64) : UInt64 :=
  let z := (z ^^^ (z >>> 30)) * 0xbf58476d1ce4e5b9
  let z := (z ^^^ (z >>> 27)) * 0x94d049bb133111eb
  z ^^^ (z >>> 31)

/-- The word of a stream with a number. -/
def word (seed : UInt64) (i : UInt64) : UInt64 :=
  scramble (seed + (i + 1) * 0x9e3779b97f4a7c15)

/-- A number of `count` words, all different from those of other questions. -/
def wide (seed : UInt64) (question : Nat) : (count : Nat) → Nat
  | 0 => 0
  | count + 1 =>
    wide seed question count * Nat.pow 2 64 +
      (word (scramble (seed + UInt64.ofNat (count + 1))) (UInt64.ofNat question)).toNat

/-- The choices of a stream. -/
def ofSeed (seed : Nat) : Choices := fun question last =>
  let n :=
    if last < Nat.pow 2 32 then (word (UInt64.ofNat seed) (UInt64.ofNat question)).toNat
    else wide (UInt64.ofNat seed) question (last.log2 / 64 + 2)
  ⟨n % (last + 1), Nat.mod_lt n (Nat.succ_pos last)⟩

end Choices

end SchemaSampler
