/-! Sets of code points, written as the first and the last of each range, in rising order. -/
namespace Lexing.Unicode

abbrev Ranges := List (Nat × Nat)

namespace Ranges

def contains (rs : Ranges) (c : Char) : Bool := rs.any fun r => r.1 ≤ c.toNat && c.toNat ≤ r.2

end Ranges

end Lexing.Unicode
