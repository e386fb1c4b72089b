import TypedRecords.Proofs.Lossless
import TypedRecords.Proofs.Rounding

/-!
# Numbers of the narrow and the wide format

Two words hold the same number if they have one sign and one exact value. Conversion keeps every number that the other
format has, and every single is the same number as a double. So a double is coerced to a single exactly if a single is
the same number, and the result is that single.
-/

namespace TypedRecords

/-! ## The same number -/

namespace Reading

/-- Infinities of one sign, or finite numbers of one sign and one exact value. -/
inductive Same : Reading → Reading → Prop
  | infinite (neg : Bool) : Same (.infinite neg) (.infinite neg)
  | finite (neg : Bool) {m n : Nat} {e k : Int} : (m * 2 ^ e : ℚ) = n * 2 ^ k →
      Same (.finite neg m e) (.finite neg n k)

variable {r s t : Reading}

theorem Same.symm (h : Same r s) : Same s r := by
  cases h with
  | infinite neg => exact .infinite neg
  | finite neg hv => exact .finite neg hv.symm

theorem Same.trans (h : Same r s) (h' : Same s t) : Same r t := by
  cases h with
  | infinite neg => exact h'
  | finite neg hv =>
    cases h' with
    | finite _ hv' => exact .finite neg (hv.trans hv')

theorem Same.ne_nan (h : Same r s) : r ≠ .nan := by
  cases h <;> exact nofun

theorem same_self (h : r ≠ .nan) : Same r r := by
  cases r with
  | nan => exact absurd rfl h
  | infinite neg => exact .infinite neg
  | finite neg m e => exact .finite neg rfl

end Reading

namespace Binary

variable {F G : Format} {neg : Bool}

theorem isNaN_eq_true {x : Binary F} : x.isNaN = true ↔ x.read = .nan := by
  simp [isNaN]

theorem isNaN_eq_false {x : Binary F} : x.isNaN = false ↔ x.read ≠ .nan := by
  simp [isNaN]

theorem convert_eq_of_same {x : Binary F} {y : Binary G} (h : y.read.Same x.read) : x.convert G = y := by
  generalize hy : y.read = r at h
  generalize hx : x.read = s at h
  rw [convert, hx]
  cases h with
  | infinite neg => exact (read_eq_infinite hy).symm
  | finite neg hv =>
    obtain ⟨hfits, hword⟩ := read_eq_finite hy
    rw [ofReading, round_of_fits hfits hv.symm, hword]

theorem eq_of_same {x y : Binary F} (h : x.read.Same y.read) : x = y :=
  (convert_eq_of_same (Reading.same_self h.ne_nan)).symm.trans (convert_eq_of_same h.symm)

theorem same_convert_of_infinite {x : Binary F} (hx : x.read = .infinite neg) : (x.convert G).read.Same x.read := by
  rw [convert, hx, ofReading, read_infinity]
  exact .infinite neg

theorem same_convert_of_fits {x : Binary F} {m : Nat} {e : Int} (hx : x.read = .finite neg m e) {n : Nat} {k : Int}
    (h : Fits G n k) (hv : (m * 2 ^ e : ℚ) = n * 2 ^ k) : (x.convert G).read.Same x.read := by
  rw [convert, hx, ofReading, round_of_fits h hv, read_pack h]
  exact .finite neg hv.symm

theorem eq_of_numEq {x y : Binary F} (h : x.numEq y = true) (hy : ∀ neg e, y.read ≠ .finite neg 0 e) : x = y := by
  unfold numEq at h
  split at h
  · cases h
  · cases h
  · rename_i hzero
    exact absurd hzero (hy _ _)
  · exact eq_of_beq h

end Binary

/-! ## Widening and narrowing -/

theorem Single.isNaN_widen {y : Single} (hy : y.isNaN = true) : y.widen.isNaN = true := by
  rw [widen, Binary.convert, Binary.isNaN_eq_true.mp hy]
  decide

theorem Single.same_widen {y : Single} (hy : y.isNaN = false) : y.widen.read.Same y.read := by
  cases hr : y.read with
  | nan => exact absurd hr (Binary.isNaN_eq_false.mp hy)
  | infinite neg =>
    rw [← hr]
    exact Binary.same_convert_of_infinite hr
  | finite neg m e =>
    have hfits := (Binary.read_eq_finite hr).1
    have hdigits : m < 2 ^ 24 := hfits.digits
    have hplace : -149 ≤ e := hfits.place
    have hfinite : (e + 149).toNat * 2 ^ 23 + m < 255 * 2 ^ 23 := hfits.finite
    obtain ⟨n, k, hwide, hv⟩ := Binary.exists_fits (F := .double) (m := m) (e := e)
      (Nat.lt_of_lt_of_le hdigits (Nat.pow_le_pow_right (by decide) (by decide)))
      (show -1074 ≤ e by omega) (show (e + 1074).toNat + 2 ≤ 2047 by omega)
    rw [← hr]
    exact Binary.same_convert_of_fits hr hwide hv

namespace Double

variable {x : Double} {neg : Bool}

theorem isNaN_narrow (hx : x.isNaN = true) : x.narrow.isNaN = true := by
  rw [narrow, Binary.convert, Binary.isNaN_eq_true.mp hx]
  decide

theorem narrow_eq_of_same {y : Single} (h : y.read.Same x.read) : x.narrow = y := Binary.convert_eq_of_same h

theorem same_narrow_of_zero {e : Int} (h : x.read = .finite neg 0 e) : x.narrow.read.Same x.read := by
  have hfits : Binary.Fits .single 0 (Format.minExponent .single) := ⟨by decide, by decide, .inl rfl, by decide⟩
  exact Binary.same_convert_of_fits h hfits (by simp)

theorem same_narrow_of_numEq (hx : x.isNaN = false) (h : x.narrow.widen.numEq x = true) :
    x.narrow.read.Same x.read := by
  by_cases hinf : ∃ neg, x.read = .infinite neg
  · obtain ⟨neg, hr⟩ := hinf
    exact Binary.same_convert_of_infinite hr
  by_cases hzero : ∃ neg e, x.read = .finite neg 0 e
  · obtain ⟨neg, e, hr⟩ := hzero
    exact same_narrow_of_zero hr
  -- other numbers are equal only if their words are
  have hback : x.narrow.widen = x := Binary.eq_of_numEq h fun neg e hr => hzero ⟨neg, e, hr⟩
  have hnarrow : x.narrow.isNaN = false := by
    cases hn : x.narrow.isNaN with
    | false => rfl
    | true =>
      rw [← hback, Single.isNaN_widen hn] at hx
      cases hx
  have hsame := Single.same_widen hnarrow
  rw [hback] at hsame
  exact hsame.symm

/-- Narrowing and widening again gives the number back exactly if the narrow format has it. -/
theorem isSingle_iff (hx : x.isNaN = false) : x.isSingle = true ↔ x.narrow.read.Same x.read := by
  rw [isSingle, hx, Bool.false_or]
  refine ⟨same_narrow_of_numEq hx, ?_⟩
  intro h
  have hnarrow : x.narrow.isNaN = false := Binary.isNaN_eq_false.mpr h.ne_nan
  rw [Binary.eq_of_same ((Single.same_widen hnarrow).trans h)]
  exact Binary.numEq_self hx

/-! ## Coercion -/

theorem coerceSingle_of_isNaN (hx : x.isNaN = true) :
    ∃ y : Single, coerceSingle (.double x) = .ok y ∧ y.isNaN = true := by
  have hs : x.isSingle = true := by rw [isSingle, hx, Bool.true_or]
  exact ⟨x.narrow, by rw [coerceSingle, if_pos hs], isNaN_narrow hx⟩

theorem coerceSingle_eq_ok (hx : x.isNaN = false) {y : Single} :
    coerceSingle (.double x) = .ok y ↔ y.read.Same x.read := by
  rw [coerceSingle]
  by_cases h : x.isSingle = true
  · rw [if_pos h, Except.ok.injEq]
    refine ⟨?_, narrow_eq_of_same⟩
    rintro rfl
    exact (isSingle_iff hx).mp h
  · rw [if_neg h]
    refine ⟨?_, ?_⟩
    · intro hne
      cases hne
    · intro hy
      apply absurd _ h
      rw [isSingle_iff hx, narrow_eq_of_same hy]
      exact hy

theorem coerceSingle_eq_error (hx : x.isNaN = false) (h : ∀ y : Single, ¬ y.read.Same x.read) :
    coerceSingle (.double x) = .error (.outOfRange (.double x) ⟨"f32"⟩) := by
  rw [coerceSingle, if_neg]
  · rfl
  · intro hs
    exact h _ ((isSingle_iff hx).mp hs)

theorem not_same_of_lost {m : Nat} {e : Int} (hr : x.read = .finite neg m e) (hm : m ≠ 0)
    (hlost : ∀ n k, x.narrow.read = .finite neg n k → n = 0) (y : Single) : ¬ y.read.Same x.read := by
  intro hy
  rw [narrow_eq_of_same hy] at hlost
  generalize y.read = r at hy hlost
  rw [hr] at hy
  cases hy with
  | finite _ hv => exact hm ((Binary.eq_zero_iff_of_eq hv).mp (hlost _ _ rfl))

end Double

/-- A double becomes a single exactly if it is a NaN or a single is the same number, with its sign. That single is the
result, and all other doubles are out of range, also those that would become an infinity or a zero. So a single that is
widened comes back as the word that it was. -/
theorem Target.coerce_single_exact [CustomTypes] (x : Double) :
    ((∃ y, Target.single.coerce (.double x) = .ok y) ↔ x.isNaN = true ∨ ∃ y : Single, y.read.Same x.read) ∧
    (x.isNaN = true → ∃ y : Single, Target.single.coerce (.double x) = .ok y ∧ y.isNaN = true) ∧
    (x.isNaN = false → ∀ y : Single, Target.single.coerce (.double x) = .ok y ↔ y.read.Same x.read) ∧
    (x.isNaN = false → (∀ y : Single, ¬ y.read.Same x.read) →
      Target.single.coerce (.double x) = .error (.outOfRange (.double x) ⟨"f32"⟩)) ∧
    (∀ neg m e, x.read = .finite neg m e → m ≠ 0 → (∀ n k, x.narrow.read = .finite neg n k → n = 0) →
      Target.single.coerce (.double x) = .error (.outOfRange (.double x) ⟨"f32"⟩)) ∧
    ∀ y : Single, y.isNaN = false → ∃ z : Double, Target.double.coerce (.single y) = .ok z ∧ z.read.Same y.read ∧
      Target.single.coerce (.double z) = .ok y := by
  refine ⟨?_, Double.coerceSingle_of_isNaN, fun hx _ => Double.coerceSingle_eq_ok hx, Double.coerceSingle_eq_error,
    ?_, ?_⟩
  · cases hx : x.isNaN with
    | true =>
      obtain ⟨y, hy, -⟩ := Double.coerceSingle_of_isNaN hx
      exact iff_of_true ⟨y, hy⟩ (.inl rfl)
    | false =>
      simp only [Bool.false_eq_true, false_or]
      exact exists_congr fun y => Double.coerceSingle_eq_ok hx
  · intro neg m e hr hm hlost
    have hx : x.isNaN = false := Binary.isNaN_eq_false.mpr (by simp [hr])
    exact Double.coerceSingle_eq_error hx (Double.not_same_of_lost hr hm hlost)
  · intro y hy
    have hsame := Single.same_widen hy
    have hz : y.widen.isNaN = false := Binary.isNaN_eq_false.mpr hsame.ne_nan
    exact ⟨y.widen, rfl, hsame, (Double.coerceSingle_eq_ok hz).mpr hsame.symm⟩

theorem Target.coerce_single_exact_ends :
    Target.single.coerce (.double 0x36a0000000000000#64) = .ok 0x00000001#32 ∧
    Target.single.coerce (.double 0x8000000000000000#64) = .ok 0x80000000#32 ∧
    (∃ y : Single, Target.single.coerce (.double 0x7ff8000000000001#64) = .ok y ∧ y.isNaN = true) ∧
    Double.narrow 0x47f0000000000000#64 = 0x7f800000#32 ∧
    Target.single.coerce (.double 0x47f0000000000000#64) =
      .error (.outOfRange (.double 0x47f0000000000000#64) ⟨"f32"⟩) ∧
    Double.narrow 0x0000000000000001#64 = 0x00000000#32 ∧
    Target.single.coerce (.double 0x0000000000000001#64) =
      .error (.outOfRange (.double 0x0000000000000001#64) ⟨"f32"⟩) ∧
    ∃ z : Double, Target.double.coerce (.single 0x00000001#32) = .ok z ∧
      Target.single.coerce (.double z) = .ok 0x00000001#32 := by
  obtain ⟨-, -, hleast, -⟩ := coerce_single_exact 0x36a0000000000000#64
  obtain ⟨-, -, hzero, -⟩ := coerce_single_exact 0x8000000000000000#64
  obtain ⟨-, hnan, -⟩ := coerce_single_exact 0x7ff8000000000001#64
  obtain ⟨-, -, -, -, hhuge, -⟩ := coerce_single_exact 0x47f0000000000000#64
  obtain ⟨-, -, -, -, htiny, hback⟩ := coerce_single_exact 0x0000000000000001#64
  have hover : Double.narrow 0x47f0000000000000#64 = 0x7f800000#32 := rfl
  have hunder : Double.narrow 0x0000000000000001#64 = 0x00000000#32 := rfl
  have hsame : (Reading.finite false 1 (-149)).Same (.finite false 4503599627370496 (-201)) :=
    .finite false (by norm_num)
  have hsign : (Reading.finite true 0 (-149)).Same (.finite true 0 (-1074)) := .finite true (by norm_num)
  refine ⟨(hleast rfl _).mpr hsame, (hzero rfl _).mpr hsign, hnan rfl, hover, ?_, hunder, ?_, ?_⟩
  · refine hhuge false 4503599627370496 76 rfl (by decide) ?_
    intro n k h
    rw [hover] at h
    cases h
  · refine htiny false 1 (-1074) rfl (by decide) ?_
    intro n k h
    rw [hunder] at h
    cases h
    rfl
  · obtain ⟨z, hz, -, hy⟩ := hback 0x00000001#32 rfl
    exact ⟨z, hz, hy⟩

end TypedRecords
