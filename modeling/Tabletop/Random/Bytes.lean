import Tabletop.Random.Supply

/-!
# Longer and shorter pieces of randomness

Double words and bytes, made of whole words. What a run of bytes leaves over of its last word is
lost.
-/

namespace Tabletop

/-- The four bytes of a word, the lowest first. -/
def Word.bytes (w : Word) : List UInt8 :=
  [w.toUInt8, (w >>> 8).toUInt8, (w >>> 16).toUInt8, (w >>> 24).toUInt8]

namespace Draw

/-- Two words, the upper one first. -/
def doubleWord : Draw UInt64 := do
  let upper ← word
  let lower ← word
  pure (upper.toUInt64 <<< 32 ||| lower.toUInt64)

/-- A run of `n` bytes takes a word for each four of them that it begins. -/
def bytes (n : Nat) : Draw (List UInt8) := do
  let ws ← word.times ((n + 3) / 4)
  pure ((ws.flatMap Word.bytes).take n)

end Draw

end Tabletop
