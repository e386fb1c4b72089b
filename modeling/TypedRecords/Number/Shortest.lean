import TypedRecords.Number.Binary

/-!
# Shortest decimals

The decimal with the fewest digits that reads back as a given number. The numbers that round to a word
form an interval; its widest decimal grid with a point inside gives the digits, and of the two neighbours
of the word's value on that grid the nearer is taken, the upper one from halfway.
-/

namespace TypedRecords

structure Decimal where
  digits : Nat
  exponent : Int
  deriving DecidableEq, Repr

/-- The numbers that round to the word `m * 2 ^ e` lie between `lo * 2 ^ (e - 2)` and `hi * 2 ^ (e - 2)`.
The gap below a power of two is half as wide, and the ends count when `m` is even. -/
structure Span where
  lo : Nat
  mid : Nat
  hi : Nat
  closed : Bool

def roundingSpan (F : Format) (m : Nat) (e : Int) : Span where
  lo := if m = 1 <<< F.fractionBits ∧ F.minExponent < e then 4 * m - 1 else 4 * m - 2
  mid := 4 * m
  hi := 4 * m + 2
  closed := m % 2 == 0

def onGrid (i : Span) (e k : Int) : Option Decimal :=
  let step := Nat.pow 10 k.toNat <<< (2 - e).toNat
  let scale := Nat.pow 10 (-k).toNat <<< (e - 2).toNat
  let below := i.mid * scale / step
  let inside (d : Nat) :=
    if i.closed then i.lo * scale ≤ d * step ∧ d * step ≤ i.hi * scale
    else i.lo * scale < d * step ∧ d * step < i.hi * scale
  let nearerAbove := step ≤ 2 * (i.mid * scale - below * step)
  if inside below ∧ ¬(inside (below + 1) ∧ nearerAbove) then some ⟨below, k⟩
  else if inside (below + 1) then some ⟨below + 1, k⟩
  else none

/-- The grids are tried from one wider than the number down. The number of binary digits bounds the number
of decimal ones. -/
def shortest (F : Format) (m : Nat) (e : Int) : Decimal :=
  let top := (e + Binary.bitLength m) * 30103 / 100000 + 2
  let grids := (List.range (F.fractionBits + 4)).map fun i : Nat => top - (i : Int)
  (grids.findSome? (onGrid (roundingSpan F m e) e)).getD ⟨0, 0⟩

end TypedRecords
