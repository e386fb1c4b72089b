import Mathlib.Algebra.Order.Field.Power
import Mathlib.Tactic.NormNum
import TypedRecords.Number.Binary

/-!
# Exact rounding

A word is its sign, exponent and fraction fields. The finite words stand for the numbers with few enough digits whose
last place is not too low or too high, and rounding such a number, however it is given, leads to the word that stands
for it.
-/

namespace TypedRecords

theorem Format.topExponent_lt (F : Format) : F.topExponent < 2 ^ F.exponentBits := by
  rw [topExponent, Nat.one_shiftLeft]
  exact Nat.sub_lt (Nat.two_pow_pos _) Nat.one_pos

namespace Binary

variable {F : Format}

/-! ## Fields -/

theorem toNat_pack {neg : Bool} {magnitude : Nat} (h : magnitude < 2 ^ F.exponentBits * 2 ^ F.fractionBits) :
    (pack F neg magnitude).toNat =
      (if neg then 2 ^ F.exponentBits * 2 ^ F.fractionBits else 0) + magnitude := by
  rw [pack, BitVec.toNat_ofNat, Nat.one_shiftLeft, Nat.pow_add]
  apply Nat.mod_eq_of_lt
  rw [Nat.pow_add, Nat.pow_add, Nat.pow_one, Nat.mul_assoc]
  split <;> omega

theorem sign_eq (x : Binary F) : x.sign = decide (2 ^ F.exponentBits * 2 ^ F.fractionBits ≤ x.toNat) := by
  have hwidth : F.width - 1 = F.exponentBits + F.fractionBits := by
    unfold Format.width
    omega
  rw [sign, BitVec.msb_eq_decide, hwidth, Nat.pow_add]

theorem exponent_eq (x : Binary F) : x.exponent = x.toNat / 2 ^ F.fractionBits % 2 ^ F.exponentBits := by
  rw [exponent, BitVec.extractLsb'_toNat, Nat.shiftRight_eq_div_pow]

theorem fraction_eq (x : Binary F) : x.fraction = x.toNat % 2 ^ F.fractionBits := by
  rw [fraction, BitVec.extractLsb'_toNat, Nat.shiftRight_zero]

theorem exponent_lt (x : Binary F) : x.exponent < 2 ^ F.exponentBits := BitVec.isLt _

theorem fraction_lt (x : Binary F) : x.fraction < 2 ^ F.fractionBits := BitVec.isLt _

theorem exponent_lt_top {x : Binary F} (h : x.exponent ≠ F.topExponent) : x.exponent < F.topExponent := by
  have hlt := x.exponent_lt
  rw [Format.topExponent, Nat.one_shiftLeft] at *
  omega

theorem fields_lt {E f b : Nat} (hE : E < b) (hf : f < 2 ^ F.fractionBits) :
    E * 2 ^ F.fractionBits + f < b * 2 ^ F.fractionBits := by
  have h := Nat.mul_le_mul_right (2 ^ F.fractionBits) (Nat.succ_le_of_lt hE)
  rw [Nat.succ_mul] at h
  omega

section
variable {neg : Bool} {E f : Nat} (hE : E < 2 ^ F.exponentBits) (hf : f < 2 ^ F.fractionBits)
include hE hf

theorem sign_pack : (pack F neg (E * 2 ^ F.fractionBits + f)).sign = neg := by
  have hlt := fields_lt hE hf
  rw [sign_eq, toNat_pack hlt]
  cases neg with
  | false => simpa using hlt
  | true => simp

theorem exponent_pack : (pack F neg (E * 2 ^ F.fractionBits + f)).exponent = E := by
  have hpos : 0 < 2 ^ F.fractionBits := Nat.two_pow_pos _
  rw [exponent_eq, toNat_pack (fields_lt hE hf)]
  cases neg with
  | false =>
    rw [if_neg (by decide), Nat.zero_add, Nat.mul_comm, Nat.mul_add_div hpos, Nat.div_eq_of_lt hf, Nat.add_zero,
      Nat.mod_eq_of_lt hE]
  | true =>
    rw [if_pos rfl, ← Nat.add_assoc, ← Nat.add_mul, Nat.mul_comm, Nat.mul_add_div hpos, Nat.div_eq_of_lt hf,
      Nat.add_zero, Nat.add_mod_left, Nat.mod_eq_of_lt hE]

theorem fraction_pack : (pack F neg (E * 2 ^ F.fractionBits + f)).fraction = f := by
  rw [fraction_eq, toNat_pack (fields_lt hE hf)]
  cases neg with
  | false => rw [if_neg (by decide), Nat.zero_add, Nat.mul_add_mod_self_right, Nat.mod_eq_of_lt hf]
  | true => rw [if_pos rfl, ← Nat.add_assoc, ← Nat.add_mul, Nat.mul_add_mod_self_right, Nat.mod_eq_of_lt hf]

end

theorem pack_fields (x : Binary F) : pack F x.sign (x.exponent * 2 ^ F.fractionBits + x.fraction) = x := by
  have hpos : 0 < 2 ^ F.fractionBits := Nat.two_pow_pos _
  apply BitVec.eq_of_toNat_eq
  rw [toNat_pack (fields_lt x.exponent_lt x.fraction_lt), sign_eq, exponent_eq, fraction_eq]
  have hlt : x.toNat < 2 * 2 ^ F.exponentBits * 2 ^ F.fractionBits := by
    have h := x.isLt
    rwa [Nat.pow_add, Nat.pow_add, Nat.pow_one] at h
  generalize x.toNat = t at hlt ⊢
  have hsplit : t / 2 ^ F.fractionBits * 2 ^ F.fractionBits + t % 2 ^ F.fractionBits = t := Nat.div_add_mod' ..
  by_cases h : 2 ^ F.exponentBits * 2 ^ F.fractionBits ≤ t
  · have hle : 2 ^ F.exponentBits ≤ t / 2 ^ F.fractionBits := (Nat.le_div_iff_mul_le hpos).mpr h
    have hdiv : t / 2 ^ F.fractionBits < 2 * 2 ^ F.exponentBits := (Nat.div_lt_iff_lt_mul hpos).mpr hlt
    rw [if_pos (decide_eq_true h), ← Nat.add_assoc, ← Nat.add_mul, Nat.mod_eq_sub_mod hle,
      Nat.mod_eq_of_lt (by omega), Nat.add_sub_cancel' hle, hsplit]
  · have hdiv : t / 2 ^ F.fractionBits < 2 ^ F.exponentBits :=
      (Nat.div_lt_iff_lt_mul hpos).mpr (Nat.lt_of_not_le h)
    rw [if_neg (by simpa using h), Nat.zero_add, Nat.mod_eq_of_lt hdiv, hsplit]

/-! ## Finite words -/

/-- The fields of a finite word with digits `n` and last place `k`, read as one number. -/
def magnitude (F : Format) (n : Nat) (k : Int) : Nat := (k - F.minExponent).toNat * 2 ^ F.fractionBits + n

/-- The digits and the last places of finite words: all digits are used, or the last place is the least. -/
structure Fits (F : Format) (n : Nat) (k : Int) : Prop where
  digits : n < 2 ^ (F.fractionBits + 1)
  place : F.minExponent ≤ k
  normal : k = F.minExponent ∨ 2 ^ F.fractionBits ≤ n
  finite : magnitude F n k < F.topExponent * 2 ^ F.fractionBits

variable {neg : Bool} {n : Nat} {k : Int}

theorem read_eq_finite {x : Binary F} (h : x.read = .finite neg n k) :
    Fits F n k ∧ x = pack F neg (magnitude F n k) := by
  have hf := x.fraction_lt
  have hx := x.pack_fields
  unfold read at h
  by_cases htop : x.exponent = F.topExponent
  · rw [if_pos htop] at h
    split at h <;> cases h
  have hfinite := fields_lt (exponent_lt_top htop) hf
  rw [if_neg htop] at h
  by_cases hzero : x.exponent = 0
  · rw [if_pos hzero] at h
    cases h
    have hm : magnitude F x.fraction F.minExponent = x.exponent * 2 ^ F.fractionBits + x.fraction := by
      simp [magnitude, hzero]
    refine ⟨⟨?_, Int.le_refl _, .inl rfl, hm ▸ hfinite⟩, by rw [hm, hx]⟩
    rw [Nat.pow_succ]
    omega
  · rw [if_neg hzero, Nat.one_shiftLeft] at h
    cases h
    have hm : magnitude F (2 ^ F.fractionBits + x.fraction) (F.minExponent + (x.exponent - 1 : Int)) =
        x.exponent * 2 ^ F.fractionBits + x.fraction := by
      have hplace : (F.minExponent + (x.exponent - 1 : Int) - F.minExponent).toNat + 1 = x.exponent := by omega
      rw [magnitude, ← Nat.add_assoc, ← Nat.succ_mul, Nat.succ_eq_add_one, hplace]
    refine ⟨⟨?_, by omega, .inr (by omega), hm ▸ hfinite⟩, by rw [hm, hx]⟩
    rw [Nat.pow_succ]
    omega

theorem read_pack (h : Fits F n k) : (pack F neg (magnitude F n k)).read = .finite neg n k := by
  have htop := F.topExponent_lt
  have hfinite := h.finite
  rcases Nat.lt_or_ge n (2 ^ F.fractionBits) with hn | hn
  · -- no digit before the fraction: the exponent field is zero
    have hk : k = F.minExponent := h.normal.resolve_right (by omega)
    have hm : magnitude F n k = 0 * 2 ^ F.fractionBits + n := by simp [magnitude, hk]
    have hpos : F.topExponent ≠ 0 := by
      intro hz
      rw [hz] at hfinite
      omega
    rw [hm, read, sign_pack (by omega) hn, exponent_pack (by omega) hn, fraction_pack (by omega) hn, if_neg hpos.symm,
      if_pos rfl, hk]
  · obtain ⟨f, rfl⟩ := Nat.exists_eq_add_of_le hn
    have hf : f < 2 ^ F.fractionBits := by
      have hdigits := h.digits
      rw [Nat.pow_succ] at hdigits
      omega
    have hm : magnitude F (2 ^ F.fractionBits + f) k =
        ((k - F.minExponent).toNat + 1) * 2 ^ F.fractionBits + f := by
      rw [magnitude, ← Nat.add_assoc, Nat.succ_mul]
    have hE : (k - F.minExponent).toNat + 1 < F.topExponent := by
      rw [hm] at hfinite
      exact Nat.lt_of_mul_lt_mul_right (Nat.lt_of_le_of_lt (Nat.le_add_right _ f) hfinite)
    have hplace := h.place
    have hk : F.minExponent + (((k - F.minExponent).toNat + 1 : Nat) - 1 : Int) = k := by omega
    rw [hm, read, sign_pack (by omega) hf, exponent_pack (by omega) hf, fraction_pack (by omega) hf,
      if_neg (by omega), if_neg (by omega), Nat.one_shiftLeft, hk]

/-! ## Infinities -/

theorem read_infinity (F : Format) (neg : Bool) : (infinity F neg).read = .infinite neg := by
  have htop := F.topExponent_lt
  have hpos : 0 < 2 ^ F.fractionBits := Nat.two_pow_pos _
  have hm : F.topExponent <<< F.fractionBits = F.topExponent * 2 ^ F.fractionBits + 0 := Nat.shiftLeft_eq ..
  rw [infinity, hm, read, sign_pack htop hpos, exponent_pack htop hpos, fraction_pack htop hpos, if_pos rfl, if_pos rfl]

theorem read_eq_infinite {x : Binary F} (h : x.read = .infinite neg) : x = infinity F neg := by
  have hx := x.pack_fields
  unfold read at h
  by_cases htop : x.exponent = F.topExponent
  · rw [if_pos htop] at h
    by_cases hzero : x.fraction = 0
    · rw [if_pos hzero] at h
      cases h
      rw [htop, hzero, Nat.add_zero] at hx
      rw [infinity, Nat.shiftLeft_eq, hx]
    · rw [if_neg hzero] at h
      cases h
  · rw [if_neg htop] at h
    split at h <;> cases h

/-! ## Rounding -/

theorem bitLength_le {n j : Nat} : bitLength n ≤ j ↔ n < 2 ^ j := by
  unfold bitLength
  by_cases h : n = 0
  · simp [h]
  · rw [if_neg h, Nat.add_one_le_iff, Nat.log2_lt h]

theorem bitLength_mul_two_pow {m : Nat} (hm : m ≠ 0) (s : Nat) : bitLength (m * 2 ^ s) = bitLength m + s := by
  have hpos : 0 < 2 ^ s := Nat.two_pow_pos s
  have hms : m * 2 ^ s ≠ 0 := Nat.mul_ne_zero hm hpos.ne'
  have hlog : (m * 2 ^ s).log2 = m.log2 + s := by
    rw [Nat.log2_eq_iff hms, Nat.pow_add, Nat.add_right_comm, Nat.pow_add]
    exact ⟨Nat.mul_le_mul_right _ (Nat.log2_self_le hm), Nat.mul_lt_mul_of_pos_right Nat.lt_log2_self hpos⟩
  rw [bitLength, bitLength, if_neg hms, if_neg hm, hlog]
  omega

theorem shiftRound_mul_two_pow (n s : Nat) : shiftRound (n * 2 ^ s) s = n := by
  have hpos : 0 < 2 ^ s := Nat.two_pow_pos s
  have hq : (n * 2 ^ s) >>> s = n := by rw [Nat.shiftRight_eq_div_pow, Nat.mul_div_cancel _ hpos]
  simp only [shiftRound, hq, Nat.shiftLeft_eq, Nat.sub_self, Nat.mul_zero, Nat.one_mul, if_pos hpos]

theorem two_zpow_eq {e k : Int} (hk : k ≤ e) : (2 : ℚ) ^ e = 2 ^ (e - k).toNat * 2 ^ k := by
  rw [← zpow_natCast, ← zpow_add₀ two_ne_zero, Int.toNat_of_nonneg (by omega), Int.sub_add_cancel]

section
variable {m : Nat} {e : Int} (hv : (m * 2 ^ e : ℚ) = n * 2 ^ k)
include hv

theorem eq_mul_of_le (hk : k ≤ e) : n = m * 2 ^ (e - k).toNat := by
  rw [two_zpow_eq hk, ← mul_assoc] at hv
  exact_mod_cast (mul_right_cancel₀ (zpow_ne_zero k two_ne_zero) hv).symm

theorem bitLength_of_le (hm : m ≠ 0) (hk : k ≤ e) : e + bitLength m = k + bitLength n := by
  rw [eq_mul_of_le hv hk, bitLength_mul_two_pow hm]
  omega

theorem eq_zero_iff_of_eq : m = 0 ↔ n = 0 := by
  have htwo : ∀ j : Int, (2 : ℚ) ^ j ≠ 0 := fun j => zpow_ne_zero j two_ne_zero
  refine ⟨?_, ?_⟩
  · rintro rfl
    simpa [htwo] using hv.symm
  · rintro rfl
    simpa [htwo] using hv

end

theorem place_of_fits (h : Fits F n k) : max F.minExponent (k + bitLength n - (F.fractionBits + 1)) = k := by
  have hdigits : bitLength n ≤ F.fractionBits + 1 := bitLength_le.mpr h.digits
  have hplace := h.place
  rcases h.normal with hk | hnormal
  · omega
  · have hlong : ¬ bitLength n ≤ F.fractionBits := fun hle => absurd (bitLength_le.mp hle) (by omega)
    omega

/-- A number that has a finite word rounds to that word. -/
theorem round_of_fits (h : Fits F n k) {m : Nat} {e : Int} (hv : (m * 2 ^ e : ℚ) = n * 2 ^ k) :
    round F neg m e = pack F neg (magnitude F n k) := by
  by_cases hm : m = 0
  · have hn : n = 0 := (eq_zero_iff_of_eq hv).mp hm
    have hpos : 0 < 2 ^ F.fractionBits := Nat.two_pow_pos _
    have hk : k = F.minExponent := h.normal.resolve_right (by omega)
    rw [round, if_pos hm, hn, hk, magnitude, Int.sub_self, Int.toNat_zero, Nat.zero_mul]
  have hn : n ≠ 0 := fun hn => hm ((eq_zero_iff_of_eq hv).mpr hn)
  -- the last place is that of the word, so its digits are all that is left of `m`
  obtain ⟨hplace, hdigits⟩ : max F.minExponent (e + bitLength m - (F.fractionBits + 1)) = k ∧
      (if k ≤ e then m <<< (e - k).toNat else shiftRound m (k - e).toNat) = n := by
    rcases Int.le_total k e with hke | hek
    · rw [bitLength_of_le hv hm hke, place_of_fits h, if_pos hke, Nat.shiftLeft_eq, ← eq_mul_of_le hv hke]
      exact ⟨rfl, rfl⟩
    · have hmn := eq_mul_of_le hv.symm hek
      rw [← bitLength_of_le hv.symm hn hek, place_of_fits h]
      refine ⟨rfl, ?_⟩
      by_cases hke : k ≤ e
      · obtain rfl : k = e := Int.le_antisymm hke hek
        simpa using hmn
      · rw [if_neg hke, hmn, shiftRound_mul_two_pow]
  simp only [round, hplace, hdigits, if_neg hm]
  rw [Nat.shiftLeft_eq, Nat.shiftLeft_eq]
  exact congrArg (pack F neg) (Nat.min_eq_left h.finite.le)

theorem exists_fits {m : Nat} {e : Int} (hm : m < 2 ^ (F.fractionBits + 1)) (he : F.minExponent ≤ e)
    (htop : (e - F.minExponent).toNat + 2 ≤ F.topExponent) : ∃ n k, Fits F n k ∧ (m * 2 ^ e : ℚ) = n * 2 ^ k := by
  by_cases hzero : m = 0
  · refine ⟨0, F.minExponent, ⟨Nat.two_pow_pos _, Int.le_refl _, .inl rfl, ?_⟩, by simp [hzero]⟩
    rw [magnitude, Int.sub_self, Int.toNat_zero, Nat.zero_mul]
    exact Nat.mul_pos (by omega) (Nat.two_pow_pos _)
  have hlen : bitLength m ≤ F.fractionBits + 1 := bitLength_le.mpr hm
  obtain ⟨k, hk⟩ : ∃ k, k = max F.minExponent (e + bitLength m - (F.fractionBits + 1)) := ⟨_, rfl⟩
  have hke : k ≤ e := by omega
  have hnlen := bitLength_mul_two_pow hzero (e - k).toNat
  have hdigits : m * 2 ^ (e - k).toNat < 2 ^ (F.fractionBits + 1) := bitLength_le.mp (by omega)
  refine ⟨m * 2 ^ (e - k).toNat, k, ⟨hdigits, by omega, ?_, ?_⟩, ?_⟩
  · rcases Int.lt_or_le F.minExponent k with hlt | hle
    · right
      have hlong : ¬ bitLength (m * 2 ^ (e - k).toNat) ≤ F.fractionBits := by omega
      rwa [bitLength_le, Nat.not_lt] at hlong
    · left
      omega
  · have hle : ((k - F.minExponent).toNat + 2) * 2 ^ F.fractionBits ≤ F.topExponent * 2 ^ F.fractionBits :=
      Nat.mul_le_mul_right _ (by omega)
    rw [Nat.add_mul] at hle
    rw [Nat.pow_succ] at hdigits
    rw [magnitude]
    omega
  · rw [two_zpow_eq hke, Nat.cast_mul, Nat.cast_pow, Nat.cast_ofNat, mul_assoc]

end Binary

end TypedRecords
