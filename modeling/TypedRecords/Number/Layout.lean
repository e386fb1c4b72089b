import TypedRecords.Number.Shortest

/-!
# Number texts

How a binary number is written: its shortest decimal, laid out with a point or with an exponent. A layout
says which decimal exponents are written out and whether whole numbers keep a point.
-/

namespace TypedRecords

structure Layout where
  writtenOut : Int → Bool
  keepPoint : Bool

namespace Layout

/-- All digits are written out, and whole numbers have no point. -/
def plain : Layout := ⟨fun _ => true, false⟩

/-- Exponents from -4 to 15 are written out, and whole numbers have a point. -/
def pointed : Layout := ⟨fun e => -4 ≤ e && e < 16, true⟩

def zeros (n : Nat) : List Char := List.replicate n '0'

def spread (L : Layout) (digits : List Char) (exponent : Int) : List Char :=
  let point := digits.length + exponent
  if 0 ≤ exponent then digits ++ zeros exponent.toNat ++ (if L.keepPoint then ['.', '0'] else [])
  else if 0 < point then digits.take point.toNat ++ '.' :: digits.drop point.toNat
  else '0' :: '.' :: zeros (-point).toNat ++ digits

def scientific (digits : List Char) (exponent : Int) : List Char :=
  let rest := digits.drop 1
  digits.take 1 ++ (if rest.isEmpty then [] else '.' :: rest) ++ 'e' :: (toString exponent).toList

def write (L : Layout) (d : Decimal) : List Char :=
  let digits := Nat.toDigits 10 d.digits
  let exponent := d.exponent + digits.length - 1
  if L.writtenOut exponent then L.spread digits d.exponent else scientific digits exponent

def text {F : Format} (L : Layout) (x : Binary F) : String :=
  let signed (neg : Bool) (s : String) := if neg then "-" ++ s else s
  match x.read with
  | .nan => "NaN"
  | .infinite neg => signed neg "inf"
  | .finite neg 0 _ => signed neg (if L.keepPoint then "0.0" else "0")
  | .finite neg m e => signed neg (String.ofList (L.write (shortest F m e)))

example : plain.text (F := .double) 0x3fb999999999999a#64 = "0.1" := by rfl

example : plain.text (F := .double) 0x4310000000000001#64 = "1125899906842624.3" := by rfl

example : pointed.text (F := .double) 0xbff0000000000000#64 = "-1.0" := by rfl

example : pointed.text (F := .single) 0x5a0e1bca#32 = "1e16" := by rfl

end Layout

end TypedRecords
