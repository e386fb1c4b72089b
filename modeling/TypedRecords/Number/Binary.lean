/-!
# Binary floating point

Words of the interchange formats, read as exact dyadic numbers and written by rounding to the nearest word
with ties to the even one. Every conversion between formats is a reading followed by a rounding.
-/

namespace TypedRecords

/-- An interchange format has a sign bit, `exponentBits` bits of biased exponent and `fractionBits` bits
of fraction. -/
structure Format where
  exponentBits : Nat
  fractionBits : Nat

namespace Format

abbrev single : Format := ⟨8, 23⟩
abbrev double : Format := ⟨11, 52⟩

abbrev width (F : Format) : Nat := 1 + F.exponentBits + F.fractionBits

def bias (F : Format) : Nat := 1 <<< (F.exponentBits - 1) - 1

/-- The exponent field of infinities and NaNs. -/
def topExponent (F : Format) : Nat := 1 <<< F.exponentBits - 1

/-- The exponent of the last place of the subnormal numbers. -/
def minExponent (F : Format) : Int := 1 - F.bias - F.fractionBits

end Format

abbrev Binary (F : Format) := BitVec F.width

/-- What a word stands for: `finite neg m e` is `m * 2 ^ e`, with its sign. -/
inductive Reading
  | nan
  | infinite (neg : Bool)
  | finite (neg : Bool) (m : Nat) (e : Int)
  deriving DecidableEq, Repr

namespace Binary

variable {F G : Format}

def sign (x : Binary F) : Bool := x.msb

def exponent (x : Binary F) : Nat := (x.extractLsb' F.fractionBits F.exponentBits).toNat

def fraction (x : Binary F) : Nat := (x.extractLsb' 0 F.fractionBits).toNat

/-- The word with the given sign whose exponent and fraction fields together read `magnitude`. -/
def pack (F : Format) (neg : Bool) (magnitude : Nat) : Binary F :=
  BitVec.ofNat _ ((if neg then 1 <<< (F.exponentBits + F.fractionBits) else 0) + magnitude)

def nan (F : Format) : Binary F := pack F false (F.topExponent <<< F.fractionBits + 1 <<< (F.fractionBits - 1))

def infinity (F : Format) (neg : Bool) : Binary F := pack F neg (F.topExponent <<< F.fractionBits)

def read (x : Binary F) : Reading :=
  if x.exponent = F.topExponent then
    if x.fraction = 0 then .infinite x.sign else .nan
  else if x.exponent = 0 then .finite x.sign x.fraction F.minExponent
  else .finite x.sign (1 <<< F.fractionBits + x.fraction) (F.minExponent + (x.exponent - 1 : Int))

def isNaN (x : Binary F) : Bool := x.read == .nan

/-- The quotient of `m` by `2 ^ s`, rounded to the nearest integer and from halfway to the even one. -/
def shiftRound (m s : Nat) : Nat :=
  let q := m >>> s
  let twice := 2 * (m - q <<< s)
  if twice < 1 <<< s then q else if 1 <<< s < twice then q + 1 else q + q % 2

def bitLength (m : Nat) : Nat := if m = 0 then 0 else m.log2 + 1

/-- The word of format `F` nearest to `m * 2 ^ e`. The last place is the larger of the least exponent and
the one that leaves `fractionBits + 1` digits. A carry out of the fraction runs into the exponent field,
so that rounding up past the largest finite number gives infinity. -/
def round (F : Format) (neg : Bool) (m : Nat) (e : Int) : Binary F :=
  let place := max F.minExponent (e + bitLength m - (F.fractionBits + 1))
  let digits := if place ≤ e then m <<< (e - place).toNat else shiftRound m (place - e).toNat
  let field := (place - F.minExponent).toNat
  let magnitude := field <<< F.fractionBits + digits
  if m = 0 then pack F neg 0
  else pack F neg (min magnitude (F.topExponent <<< F.fractionBits))

def ofReading (F : Format) : Reading → Binary F
  | .nan => nan F
  | .infinite neg => infinity F neg
  | .finite neg m e => round F neg m e

def convert (G : Format) (x : Binary F) : Binary G := ofReading G x.read

/-- Equality of numbers: zeros of either sign are equal, and a NaN equals nothing. -/
def numEq (x y : Binary F) : Bool :=
  match x.read, y.read with
  | .nan, _ => false
  | _, .nan => false
  | .finite _ 0 _, .finite _ 0 _ => true
  | _, _ => x == y

end Binary

abbrev Single := Binary .single
abbrev Double := Binary .double

def Single.widen (x : Single) : Double := x.convert .double

def Double.narrow (x : Double) : Single := x.convert .single

def Double.isSingle (x : Double) : Bool := x.isNaN || (x.narrow.widen).numEq x

end TypedRecords
