import Lexing.Decimal

/-! Nonnegative numbers of the 64-bit binary format, given by their bits. The least of them above
zero is 2^-1074, and every other is a multiple of it. Read as a natural number, the bits grow with
the value: the top ones tell which power of two the lower 52 count in. -/
namespace Lexing

structure Binary64 where
  bits : UInt64
deriving DecidableEq, Repr

namespace Binary64

def infinity : Binary64 := ⟨0x7FF0000000000000⟩

def divNearest (n d : Nat) : Nat :=
  if 2 * (n % d) < d ∨ (2 * (n % d) = d ∧ n / d % 2 = 0) then n / d else n / d + 1

/-- The number nearest to `n / d`, of two equally near the one whose last bit is zero, and
infinity if that would be beyond the largest. The quotient is taken in units of 2^-1074 and cut to
53 bits; a quotient that rounds up to the next power of two carries into the exponent by itself.
-/
def ofRatio (n d : Nat) : Binary64 :=
  let scaled := n * Nat.pow 2 1074
  let exponent := (scaled / d).log2 - 52
  let bits := exponent * Nat.pow 2 52 + divNearest scaled (d * Nat.pow 2 exponent)
  if bits < infinity.bits.toNat then ⟨.ofNat bits⟩ else infinity

def ofDecimal (x : Decimal) : Binary64 := ofRatio x.digits (Nat.pow 10 x.places)

end Binary64

end Lexing
