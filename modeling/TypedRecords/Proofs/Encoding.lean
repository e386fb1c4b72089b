import TypedRecords.Plain
import TypedRecords.Proofs.Conforming

/-!
# Plain values read back

A value of a plain type is coerced back from the dynamic value that it is written as. What is lost is how deep in
optional values an absence lies: all chains of presences that end in one are written alike and read as the absence
itself. A value without such chains comes back as it was.
-/

namespace TypedRecords

namespace Plain

variable [CustomTypes]

def absent : (p : Plain) → p.target.El → Bool
  | .option _, none => true
  | _, _ => false

/-- A value without an absence inside an optional value, at any depth. -/
def definite : (p : Plain) → p.target.El → Bool
  | .option _, none => true
  | .option p, some x => !p.absent x && p.definite x
  | .list p, xs => xs.all p.definite
  | _, _ => true

/-- An absence, or a chain of presences that ends in one. -/
def hollow : (p : Plain) → p.target.El → Bool
  | .option _, none => true
  | .option p, some x => p.hollow x
  | _, _ => false

/-- The value with the absence itself in place of every chain of presences that ends in one, at any depth. -/
def collapse : (p : Plain) → p.target.El → p.target.El
  | .option _, none => none
  | .option p, some x => if p.hollow x then none else some (p.collapse x)
  | .list p, xs => xs.map p.collapse
  | _, x => x

theorem definite_some {p : Plain} {x : p.target.El} :
    (Plain.option p).definite (some x) = true ↔ p.absent x = false ∧ p.definite x = true := by
  simp [definite]

theorem definite_list {p : Plain} {xs : List p.target.El} :
    (Plain.list p).definite xs = true ↔ ∀ x ∈ xs, p.definite x = true :=
  List.all_eq_true

theorem collapse_some_of_hollow {p : Plain} {x : p.target.El} (h : p.hollow x = true) :
    (Plain.option p).collapse (some x) = none :=
  if_pos h

theorem collapse_some {p : Plain} {x : p.target.El} (h : p.hollow x = false) :
    (Plain.option p).collapse (some x) = some (p.collapse x) :=
  if_neg (by simp [h])

theorem optional_of_absent {p : Plain} {x : p.target.El} (h : p.absent x = true) : p.target.optional = true := by
  cases p with
  | option p => rfl
  | _ => cases h

theorem hollow_of_absent {p : Plain} {x : p.target.El} (h : p.absent x = true) : p.hollow x = true := by
  cases p with
  | option p =>
    cases x with
    | none => rfl
    | some x => cases h
  | _ => cases h

theorem hollow_of_definite {p : Plain} {x : p.target.El} (hd : p.definite x = true) (h : p.absent x = false) :
    p.hollow x = false := by
  induction p with
  | option p ih =>
    cases x with
    | none => cases h
    | some x => exact ih (definite_some.mp hd).2 (definite_some.mp hd).1
  | _ => rfl

theorem isNull_encode_eq (p : Plain) (x : p.target.El) : (p.encode x).isNull = p.hollow x := by
  induction p with
  | option p ih =>
    cases x with
    | none => rfl
    | some x => exact ih x
  | _ => rfl

theorem encode_of_hollow {p : Plain} {x : p.target.El} (h : p.hollow x = true) : p.encode x = .null := by
  rw [← isNull_encode_eq] at h
  rcases (p.encode x).eq_null_or_isNull_eq_false with hv | hv
  · exact hv
  · rw [hv] at h
    cases h

theorem encode_of_absent {p : Plain} {x : p.target.El} (h : p.absent x = true) : p.encode x = .null :=
  encode_of_hollow (hollow_of_absent h)

theorem isNull_encode {p : Plain} {x : p.target.El} (hd : p.definite x = true) (h : p.absent x = false) :
    (p.encode x).isNull = false :=
  (isNull_encode_eq p x).trans (hollow_of_definite hd h)

/-! ## Collapsed values -/

theorem encode_collapse (p : Plain) (x : p.target.El) : p.encode (p.collapse x) = p.encode x := by
  induction p with
  | option p ih =>
    cases x with
    | none => rfl
    | some x =>
      cases h : p.hollow x with
      | true =>
        rw [collapse_some_of_hollow h]
        exact (encode_of_hollow h).symm
      | false =>
        rw [collapse_some h]
        exact ih x
  | list p ih =>
    exact congrArg Value.array ((List.map_map ..).trans (List.map_congr_left fun y _ => ih y))
  | _ => rfl

theorem hollow_collapse (p : Plain) (x : p.target.El) : p.hollow (p.collapse x) = p.hollow x := by
  rw [← isNull_encode_eq, encode_collapse, isNull_encode_eq]

theorem definite_collapse (p : Plain) (x : p.target.El) : p.definite (p.collapse x) = true := by
  induction p with
  | option p ih =>
    cases x with
    | none => rfl
    | some x =>
      cases h : p.hollow x with
      | true =>
        rw [collapse_some_of_hollow h]
        rfl
      | false =>
        rw [collapse_some h]
        refine definite_some.mpr ⟨?_, ih x⟩
        cases ha : p.absent (p.collapse x) with
        | false => rfl
        | true =>
          rw [← hollow_collapse, hollow_of_absent ha] at h
          cases h
  | list p ih =>
    refine definite_list.mpr ?_
    intro y hy
    obtain ⟨z, -, rfl⟩ := List.mem_map.mp hy
    exact ih z
  | _ => rfl

theorem collapse_of_definite {p : Plain} {x : p.target.El} (h : p.definite x = true) : p.collapse x = x := by
  induction p with
  | option p ih =>
    cases x with
    | none => rfl
    | some x =>
      obtain ⟨ha, hd⟩ := definite_some.mp h
      rw [collapse_some (hollow_of_definite hd ha), ih hd]
  | list p ih => exact (List.map_congr_left fun y hy => ih (definite_list.mp h y hy)).trans (List.map_id x)
  | _ => rfl

theorem collapse_eq_self_iff {p : Plain} {x : p.target.El} : p.collapse x = x ↔ p.definite x = true :=
  ⟨fun h => h ▸ definite_collapse p x, collapse_of_definite⟩

/-! ## Reading back -/

theorem coerce_encode_eq (p : Plain) (x : p.target.El) : p.target.coerce (p.encode x) = .ok (p.collapse x) := by
  induction p with
  | int k => exact dif_pos x.2
  | option p ih =>
    cases x with
    | none => rfl
    | some x =>
      show (Target.option p.target).coerce (p.encode x) = _
      cases h : p.hollow x with
      | true =>
        rw [encode_of_hollow h, collapse_some_of_hollow h]
        rfl
      | false =>
        rw [coerce_option ((isNull_encode_eq p x).trans h), ih x, collapse_some h]
        rfl
  | list p ih =>
    have hmap : ∀ xs : List p.target.El, (xs.map p.encode).map p.target.coerce = (xs.map p.collapse).map .ok := by
      intro xs
      rw [List.map_map, List.map_map]
      exact List.map_congr_left fun y _ => ih y
    exact coerceElements_eq_ok.mpr (hmap x)
  | _ => rfl

theorem coerce_encode {p : Plain} {x : p.target.El} (h : p.definite x = true) :
    p.target.coerce (p.encode x) = .ok x := by
  rw [coerce_encode_eq, collapse_of_definite h]

/-- Every value of a plain type is read back collapsed, which is as it was exactly if it is definite. The collapsed
value is the definite one among those that are written alike. -/
theorem coerce_encode_collapse (p : Plain) (x : p.target.El) :
    p.target.coerce (p.encode x) = .ok (p.collapse x) ∧
    (p.collapse x = x ↔ p.definite x = true) ∧
    p.definite (p.collapse x) = true ∧ p.encode (p.collapse x) = p.encode x :=
  ⟨coerce_encode_eq p x, collapse_eq_self_iff, definite_collapse p x, encode_collapse p x⟩

example : (Plain.list (.option (.option .bool))).collapse [some none, some (some true)] = [none, some (some true)] :=
  rfl

end Plain

end TypedRecords
