/-! Plain decimals: digits with at most one point. The value is exact, a natural number divided by
a power of ten. -/
namespace Lexing

structure Decimal where
  /-- All digits, those after the point included, read as one number. -/
  digits : Nat
  /-- How many of them stand after the point. -/
  places : Nat
deriving DecidableEq, Repr

namespace Decimal

def digitsValue (ds : List Char) : Nat := ds.foldl (fun n d => 10 * n + (d.toNat - '0'.toNat)) 0

/-- Reads digits with at most one point among, before or after them. There has to be a digit. -/
def ofText? (s : String) : Option Decimal :=
  let whole := s.toList.takeWhile Char.isDigit
  match s.toList.dropWhile Char.isDigit with
  | [] => if whole.isEmpty then none else some ⟨digitsValue whole, 0⟩
  | c :: fraction =>
    if c = '.' ∧ fraction.all Char.isDigit ∧ ¬ (whole ++ fraction).isEmpty then
      some ⟨digitsValue (whole ++ fraction), fraction.length⟩
    else none

end Decimal

end Lexing
