/-!
# Binary fractions

A fraction below one with 53 binary places, and the 32-bit word at its front.
-/

namespace Tabletop

/-- A supply of randomness is counted in 32-bit words. -/
abbrev Word := UInt32

/-- The fraction `numerator / 2 ^ 53`. -/
structure BinaryFraction where
  numerator : Nat
  numerator_lt : numerator < 0x20000000000000

namespace BinaryFraction

def ofNumerator? (numerator : Nat) : Option BinaryFraction :=
  if h : numerator < 0x20000000000000 then some ⟨numerator, h⟩ else none

/-- The fraction times `2 ^ 32`, cut to a whole number. -/
def word (k : BinaryFraction) : Word :=
  UInt32.ofNat (k.numerator * 0x100000000 / 0x20000000000000)

end BinaryFraction

end Tabletop
