/-!
# Digit groups

Numbers in fixed-width decimal groups, padded with zeros on the left. Writing a number below `10 ^ w` in
`w` places and reading the group back gives the number again.
-/

namespace TypedRecords

def digit (n : Nat) : Char := Char.ofNat (48 + n % 10)

/-- The last `w` decimal digits of `n`. -/
def padded : (w n : Nat) → List Char
  | 0, _ => []
  | w + 1, n => padded w (n / 10) ++ [digit n]

def groupValue (cs : List Char) : Nat := cs.foldl (fun n c => 10 * n + (c.toNat - 48)) 0

@[simp] theorem length_padded (w n : Nat) : (padded w n).length = w := by
  induction w generalizing n with
  | zero => rfl
  | succ w ih => simp [padded, ih]

theorem toNat_digit (n : Nat) : (digit n).toNat = 48 + n % 10 := by
  have h : n % 10 < 10 := Nat.mod_lt _ (by decide)
  generalize hd : n % 10 = d at h
  simp only [digit, hd]
  match d, h with
  | 0, _ | 1, _ | 2, _ | 3, _ | 4, _ | 5, _ | 6, _ | 7, _ | 8, _ | 9, _ => rfl

theorem isDigit_digit (n : Nat) : (digit n).isDigit = true := by
  have h : n % 10 < 10 := Nat.mod_lt _ (by decide)
  generalize hd : n % 10 = d at h
  simp only [digit, hd]
  match d, h with
  | 0, _ | 1, _ | 2, _ | 3, _ | 4, _ | 5, _ | 6, _ | 7, _ | 8, _ | 9, _ => rfl

theorem groupValue_concat (cs : List Char) (c : Char) :
    groupValue (cs ++ [c]) = 10 * groupValue cs + (c.toNat - 48) := by
  simp [groupValue]

theorem tens_succ (w : Nat) : Nat.pow 10 (w + 1) = 10 * Nat.pow 10 w := Nat.mul_comm ..

theorem groupValue_lt {cs : List Char} (h : cs.all Char.isDigit = true) : groupValue cs < Nat.pow 10 cs.length := by
  have key : ∀ (cs : List Char) (n : Nat), cs.all Char.isDigit = true →
      cs.foldl (fun n c => 10 * n + (c.toNat - 48)) n < (n + 1) * Nat.pow 10 cs.length := by
    intro cs
    induction cs with
    | nil => intro n _; simp
    | cons c cs ih =>
      intro n h
      rw [List.all_cons, Bool.and_eq_true] at h
      have hc : c.toNat - 48 ≤ 9 := by
        have := h.1
        simp only [Char.isDigit, Bool.and_eq_true, decide_eq_true_eq, ge_iff_le, UInt32.le_iff_toNat_le] at this
        change c.val.toNat - 48 ≤ 9
        have h9 : c.val.toNat ≤ 57 := this.2
        omega
      refine Nat.lt_of_lt_of_le (ih _ h.2) ?_
      rw [List.length_cons, tens_succ, ← Nat.mul_assoc]
      exact Nat.mul_le_mul_right _ (show 10 * n + (c.toNat - 48) + 1 ≤ (n + 1) * 10 by omega)
  simpa [groupValue] using key cs 0 h

theorem groupValue_padded (w n : Nat) : groupValue (padded w n) = n % Nat.pow 10 w := by
  induction w generalizing n with
  | zero => simp [padded, groupValue, Nat.pow, Nat.mod_one]
  | succ w ih =>
    rw [padded, groupValue_concat, ih, toNat_digit, tens_succ, Nat.mod_mul]
    omega

end TypedRecords
