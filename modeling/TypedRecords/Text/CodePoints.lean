/-!
# Sets of code points

A set of characters as ranges of code points, first and last included, in rising order and with a gap between
any two, so that a set has one spelling.
-/

namespace TypedRecords

abbrev CodePoints := List (Nat × Nat)

namespace CodePoints

def contains (s : CodePoints) (c : Char) : Bool := s.any fun r => r.1 ≤ c.toNat && c.toNat ≤ r.2

/-- Every range starts beyond the number after `last`, and ends no earlier than it starts. -/
def risesFrom (last : Nat) : CodePoints → Bool
  | [] => true
  | r :: rest => last + 1 < r.1 && r.1 ≤ r.2 && risesFrom r.2 rest

def isSpelledOut : CodePoints → Bool
  | [] => true
  | r :: rest => r.1 ≤ r.2 && risesFrom r.2 rest

end CodePoints

end TypedRecords
