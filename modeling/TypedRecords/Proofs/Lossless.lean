import TypedRecords.Catalog
import TypedRecords.Plain
import TypedRecords.Proofs.Conforming

/-!
# Coercion loses nothing

A value that is coerced to a plain type and written again is the value it came from, up to the width of its numbers:
integers and floating-point numbers may be held by another kind, but they are the same numbers in the same places.
-/

namespace TypedRecords

/-! ## Numbers -/

theorem Binary.numEq_self {F : Format} {x : Binary F} (h : x.isNaN = false) : x.numEq x = true := by
  have hn : x.read ≠ .nan := by simpa [isNaN] using h
  unfold numEq
  cases hx : x.read with
  | nan => exact absurd hx hn
  | infinite neg => simp
  | finite neg m e => cases m <;> simp

theorem Double.isNaN_widen_narrow {x : Double} (h : x.isNaN = true) : x.narrow.widen.isNaN = true := by
  have hx : x.read = .nan := by simpa [Binary.isNaN] using h
  have hnarrow : x.narrow = Binary.nan .single := by rw [narrow, Binary.convert, hx]; rfl
  rw [hnarrow]
  decide

namespace Value

def toDouble? : Value → Option Double
  | .single x => some x.widen
  | .double x => some x
  | _ => none

/-- Values that are equal up to the width of their numbers. Integers are the same integer; floating-point numbers are
equal as doubles, or both are NaN. -/
inductive Alike : Value → Value → Prop
  | null : Alike .null .null
  | bool (b : Bool) : Alike (.bool b) (.bool b)
  | string (s : String) : Alike (.string s) (.string s)
  | int {v w : Value} {n : Int} : v.toInt? = some n → w.toInt? = some n → Alike v w
  | float {v w : Value} {x y : Double} : v.toDouble? = some x → w.toDouble? = some y →
      x.numEq y = true ∨ (x.isNaN = true ∧ y.isNaN = true) → Alike v w
  | array {vs ws : List Value} : vs.length = ws.length → (∀ p ∈ vs.zip ws, Alike p.1 p.2) →
      Alike (.array vs) (.array ws)

theorem alike_of_toDouble? {v w : Value} {x : Double} (hv : v.toDouble? = some x) (hw : w.toDouble? = some x) :
    Alike v w := by
  refine .float hv hw ?_
  cases h : x.isNaN with
  | true => exact .inr ⟨rfl, rfl⟩
  | false => exact .inl (Binary.numEq_self h)

end Value

/-! ## Coerced values -/

theorem alike_of_coerceSingle {v : Value} {x : Single} (h : coerceSingle v = .ok x) :
    Value.Alike (.single x) v := by
  cases v with
  | single y =>
    cases h
    exact Value.alike_of_toDouble? rfl rfl
  | double y =>
    obtain ⟨hy, hx⟩ : y.isSingle = true ∧ y.narrow = x := by
      simp only [coerceSingle] at h
      split at h
      · rename_i hy
        exact ⟨hy, by injection h⟩
      · cases h
    subst hx
    refine .float rfl rfl ?_
    rcases Bool.or_eq_true_iff.mp hy with hn | heq
    · exact .inr ⟨Double.isNaN_widen_narrow hn, hn⟩
    · exact .inl heq
  | _ => cases h

theorem alike_of_coerceDouble {v : Value} {x : Double} (h : coerceDouble v = .ok x) :
    Value.Alike (.double x) v := by
  cases v with
  | single y | double y =>
    cases h
    exact Value.alike_of_toDouble? rfl rfl
  | _ => cases h

theorem alike_array {f : Value → Coerced α} {g : α → Value} (h : ∀ v x, f v = .ok x → Value.Alike (g x) v)
    {vs : List Value} {xs : List α} (hxs : vs.map f = xs.map .ok) : Value.Alike (.array (xs.map g)) (.array vs) := by
  have hlength : vs.length = xs.length := by simpa using congrArg List.length hxs
  refine .array (by rw [List.length_map, hlength]) ?_
  clear hlength
  induction vs generalizing xs with
  | nil => simp
  | cons v vs ih =>
    cases xs with
    | nil => cases hxs
    | cons x xs =>
      rw [List.map_cons, List.map_cons, List.cons.injEq] at hxs
      rw [List.map_cons, List.zip_cons_cons, List.forall_mem_cons]
      exact ⟨h v x hxs.1, ih hxs.2⟩

/-- A value that coerces to a plain type is written again as it was, up to the width of its numbers. -/
theorem Plain.encode_coerce_alike [CustomTypes] (p : Plain) {v : Value} {x : p.target.El}
    (h : p.target.coerce v = .ok x) : Value.Alike (p.encode x) v := by
  induction p generalizing v with
  | bool =>
    cases v with
    | bool b =>
      cases h
      exact .bool _
    | _ => cases h
  | string =>
    cases v with
    | string s =>
      cases h
      exact .string _
    | _ => cases h
  | int k => exact .int rfl (coerceBetween_eq_ok.mp h)
  | single => exact alike_of_coerceSingle h
  | double => exact alike_of_coerceDouble h
  | option p ih =>
    rcases v.eq_null_or_isNull_eq_false with rfl | hv
    · cases h
      exact .null
    · obtain ⟨y, hy, rfl⟩ := map_eq_ok.mp ((coerce_option hv).symm.trans h)
      exact ih hy
  | list p ih =>
    cases v with
    | array vs => exact alike_array (fun v x => ih) (coerceElements_eq_ok.mp h)
    | _ => cases h

theorem Plain.encode_coerce_alike_halves :
    let p : Plain := .list (.list (.option .single))
    let v : Value := .array [.array [.double 0x3ff8000000000000#64, .null], .array [.double 0x7ff8000000000001#64],
      .array [.single 0x80000000#32]]
    ∃ x, p.target.coerce v = .ok x ∧
      p.encode x = .array [.array [.single 0x3fc00000#32, .null], .array [.single 0x7fc00000#32],
        .array [.single 0x80000000#32]] ∧ Value.Alike (p.encode x) v := by
  intro p v
  have h : p.target.coerce v = .ok [[some 0x3fc00000#32, none], [some 0x7fc00000#32], [some 0x80000000#32]] := rfl
  exact ⟨_, h, rfl, encode_coerce_alike p h⟩

end TypedRecords
