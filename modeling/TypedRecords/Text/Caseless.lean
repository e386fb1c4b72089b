/-!
# Names up to ASCII case

Property names are equal when they differ only in the case of ASCII letters. All other characters are
compared as they are, so `caseless` is the equality of a key and hence an equivalence.
-/

namespace TypedRecords

def caseKey (name : String) : List Char := name.toList.map Char.toLower

def caseless (a b : String) : Bool := caseKey a == caseKey b

theorem caseless_iff {a b : String} : caseless a b = true ↔ caseKey a = caseKey b := by
  simp [caseless]

@[simp] theorem caseless_refl (a : String) : caseless a a = true := caseless_iff.mpr rfl

theorem caseless_comm (a b : String) : caseless a b = caseless b a := by
  rw [Bool.eq_iff_iff, caseless_iff, caseless_iff, eq_comm]

theorem caseless_trans {a b c : String} (hab : caseless a b = true) (hbc : caseless b c = true) :
    caseless a c = true :=
  caseless_iff.mpr ((caseless_iff.mp hab).trans (caseless_iff.mp hbc))

theorem caseless_congr {a b : String} (h : caseless a b = true) (n : String) : caseless a n = caseless b n := by
  simp only [caseless, caseless_iff.mp h]

end TypedRecords
