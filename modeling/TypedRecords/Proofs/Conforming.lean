import TypedRecords.Coercion
import TypedRecords.Proofs.Folding

/-!
# Conforming values

Coercion succeeds on the values that conform to the type and on no others. In any other value there is, from the
left, a first part that its type refuses; the error leads to that part and says why it is refused.
-/

namespace TypedRecords

/-! ## Elements -/

section
variable {f : Value → Coerced α} {vs : List Value} {i : Nat}

theorem coerceElements_eq_ok {xs : List α} : coerceElements f i vs = .ok xs ↔ vs.map f = xs.map .ok := by
  induction vs generalizing i xs with
  | nil => cases xs <;> simp [coerceElements]
  | cons v vs ih =>
    simp only [coerceElements, List.map_cons]
    cases hv : f v with
    | error e => cases xs <;> simp
    | ok x =>
      refine map_eq_ok.trans ⟨?_, ?_⟩
      · intro h
        obtain ⟨xs', h, rfl⟩ := h
        rw [List.map_cons, ih.mp h]
      · intro h
        cases xs with
        | nil => cases h
        | cons y ys =>
          rw [List.map_cons, List.cons.injEq, Except.ok.injEq] at h
          obtain ⟨rfl, h⟩ := h
          exact ⟨ys, ih.mpr h, rfl⟩

theorem exists_coerceElements_ok : (∃ xs, coerceElements f i vs = .ok xs) ↔ ∀ v ∈ vs, ∃ x, f v = .ok x := by
  simp only [coerceElements_eq_ok]
  exact exists_map_ok f

theorem coerceElements_first_error {before after : List Value} {v : Value} {e : CoercionError}
    (hok : ∀ v' ∈ before, ∃ x, f v' = .ok x) (he : f v = .error e) :
    coerceElements f i (before ++ v :: after) = .error (.element (i + before.length) e) := by
  induction before generalizing i with
  | nil => simp only [List.nil_append, coerceElements, he, List.length_nil, Nat.add_zero]
  | cons w before ih =>
    rw [List.forall_mem_cons] at hok
    obtain ⟨⟨x, hx⟩, hok⟩ := hok
    simp only [List.cons_append, coerceElements, hx, ih hok, List.length_cons]
    rw [Nat.add_right_comm, Nat.add_assoc]
    rfl

end

/-! ## Single values -/

theorem Value.eq_null_or_isNull_eq_false (v : Value) : v = .null ∨ v.isNull = false := by
  cases v with
  | null => exact .inl rfl
  | _ => exact .inr rfl

theorem coerce_option [CustomTypes] {τ : Target} {v : Value} (h : v.isNull = false) :
    (Target.option τ).coerce v = (τ.coerce v).map some := by
  cases v with
  | null => cases h
  | _ => rfl

theorem coerceBetween_eq_ok {lo hi : Int} {target : Kind} {v : Value} {m : Between lo hi} :
    coerceBetween lo hi target v = .ok m ↔ v.toInt? = some m.val := by
  unfold coerceBetween
  cases v.toInt? with
  | none => simp [Value.mismatch]
  | some n =>
    by_cases h : lo ≤ n ∧ n ≤ hi
    · simp [h, Subtype.ext_iff]
    · have hm : n ≠ m.val := fun hn => h (hn ▸ m.2)
      simp [h, hm]

namespace Target

variable [CustomTypes]

/-! ## Values that conform -/

inductive Conforms : Target → Value → Prop
  | bool (b : Bool) : Conforms .bool (.bool b)
  | int {t : IntType} {k : IntKind} {n : k.El} : t.range.lo ≤ n.val → n.val ≤ t.range.hi → Conforms (.int t) (.int k n)
  | single (x : Single) : Conforms .single (.single x)
  | narrowed {x : Double} : x.isSingle = true → Conforms .single (.double x)
  | double (x : Double) : Conforms .double (.double x)
  | widened (x : Single) : Conforms .double (.single x)
  | string (s : String) : Conforms .string (.string s)
  | datetime {text : String} {t : Timestamp} : Timestamp.read text = .ok t → Conforms .datetime (.datetime text)
  | utc {text : String} {t : Timestamp} : Timestamp.read text = .ok t → Conforms .utc (.datetime text)
  | duration {text : String} {d : Duration} : Duration.read text = .ok d → Conforms .duration (.datetime text)
  | custom {c : CustomTypes.Name} {v : Value} {x : CustomTypes.El c} : (CustomTypes.conversion c).coerce v = .ok x →
      Conforms (.custom c) v
  | absent (τ : Target) : Conforms (.option τ) .null
  | present {τ : Target} {v : Value} : Conforms τ v → Conforms (.option τ) v
  | list {τ : Target} {vs : List Value} : (∀ v ∈ vs, Conforms τ v) → Conforms (.list τ) (.array vs)

theorem coerce_of_conforms {τ : Target} {v : Value} (h : τ.Conforms v) : ∃ x, τ.coerce v = .ok x := by
  induction h with
  | int hlo hhi => exact ⟨⟨_, hlo, hhi⟩, coerceBetween_eq_ok.mpr rfl⟩
  | custom hx => exact ⟨_, hx⟩
  | narrowed hx => exact ⟨_, if_pos hx⟩
  | datetime ht => exact ⟨_, mapError_eq_ok.mpr ht⟩
  | utc ht => exact ⟨_, map_eq_ok.mpr ⟨_, mapError_eq_ok.mpr ht, rfl⟩⟩
  | duration hd => exact ⟨_, mapError_eq_ok.mpr hd⟩
  | absent τ => exact ⟨none, rfl⟩
  | @present τ v _ ih =>
    -- null conforms to `τ` too if that is an option, and is still read as the outer absence
    rcases v.eq_null_or_isNull_eq_false with rfl | hv
    · exact ⟨none, rfl⟩
    · obtain ⟨x, hx⟩ := ih
      exact ⟨some x, by rw [coerce_option hv, hx]; rfl⟩
  | list _ ih => exact exists_coerceElements_ok.mpr ih
  | _ => exact ⟨_, rfl⟩

/-! ## Values that are refused -/

def takes : Target → ValueKind → Bool
  | .bool, .bool => true
  | .int _, .int _ => true
  | .single, .single | .single, .double => true
  | .double, .single | .double, .double => true
  | .string, .string => true
  | .datetime, .datetime | .utc, .datetime | .duration, .datetime => true
  | .custom _, _ => true
  | .option τ, k => k == .null || τ.takes k
  | .list _, .array => true
  | _, _ => false

/-- Why a type refuses a value itself and not one of its elements: it takes no values of that kind, the number is
outside of the type, or the text does not read. A type that is not built in has reasons of its own. -/
inductive Refuses : Target → Value → CoercionError → Prop
  | kind {τ : Target} {v : Value} : τ.takes v.kind = false → Refuses τ v (.mismatch v.kind.label τ.kind.label)
  | int {t : IntType} {k : IntKind} {n : k.El} : ¬ (t.range.lo ≤ n.val ∧ n.val ≤ t.range.hi) →
      Refuses (.int t) (.int k n) (.outOfRange (.int n.val) (Kind.int t).label)
  | single {x : Double} : x.isSingle = false → Refuses .single (.double x) (.outOfRange (.double x) Kind.single.label)
  | datetime {text : String} {fault : TimeFault} : Timestamp.read text = .error fault →
      Refuses .datetime (.datetime text) (.timestamp text ⟨fault.text⟩)
  | utc {text : String} {fault : TimeFault} : Timestamp.read text = .error fault →
      Refuses .utc (.datetime text) (.timestamp text ⟨fault.text⟩)
  | duration {text : String} {fault : TimeFault} : Duration.read text = .error fault →
      Refuses .duration (.datetime text) (.timestamp text ⟨fault.text⟩)
  | custom {c : CustomTypes.Name} {v : Value} {e : CoercionError} : (CustomTypes.conversion c).coerce v = .error e →
      Refuses (.custom c) v e

/-- Positions, outermost first, lead through lists and past options to a part of a value and the type it is to have.
All elements before those on the way conform. -/
inductive Leads : Target → Value → List Nat → Target → Value → Prop
  | here {τ : Target} {v : Value} : (∀ σ, τ ≠ .option σ) → Leads τ v [] τ v
  | option {τ δ : Target} {v u : Value} {path : List Nat} : v.isNull = false → Leads τ v path δ u →
      Leads (.option τ) v path δ u
  | element {τ δ : Target} {before after : List Value} {v u : Value} {path : List Nat} :
      (∀ v' ∈ before, τ.Conforms v') → Leads τ v path δ u →
      Leads (.list τ) (.array (before ++ v :: after)) (before.length :: path) δ u

end Target

def CoercionError.under (path : List Nat) (cause : CoercionError) : CoercionError := path.foldr .element cause

namespace Target

variable [CustomTypes]

theorem coerce_of_not_takes {τ : Target} {v : Value} (hopt : ∀ σ, τ ≠ .option σ) (h : τ.takes v.kind = false) :
    τ.coerce v = .error (.mismatch v.kind.label τ.kind.label) := by
  cases τ with
  | option τ => exact absurd rfl (hopt τ)
  | custom c => cases h
  | bool =>
    cases v with
    | bool b => cases h
    | _ => rfl
  | string =>
    cases v with
    | string s => cases h
    | _ => rfl
  | int =>
    cases v with
    | int k n => cases h
    | _ => rfl
  | single | double =>
    cases v with
    | single x | double x => cases h
    | _ => rfl
  | datetime | utc | duration =>
    cases v with
    | datetime text => cases h
    | _ => rfl
  | list τ =>
    cases v with
    | array vs => cases h
    | _ => rfl

theorem coerce_of_refuses {τ : Target} {v : Value} {cause : CoercionError} (hopt : ∀ σ, τ ≠ .option σ)
    (h : τ.Refuses v cause) : τ.coerce v = .error cause := by
  cases h with
  | kind hk => exact coerce_of_not_takes hopt hk
  | int hn => exact dif_neg hn
  | single hx => exact if_neg (by simp [hx])
  | datetime ht => exact mapError_eq_error.mpr ⟨_, ht, rfl⟩
  | utc ht => exact map_eq_error.mpr (mapError_eq_error.mpr ⟨_, ht, rfl⟩)
  | duration hd => exact mapError_eq_error.mpr ⟨_, hd, rfl⟩
  | custom he => exact he

theorem Leads.ne_option {τ δ : Target} {v u : Value} {path : List Nat} (h : τ.Leads v path δ u) (σ : Target) :
    δ ≠ .option σ := by
  induction h with
  | here hopt => exact hopt σ
  | option _ _ ih | element _ _ ih => exact ih

theorem Leads.customs_eq {τ δ : Target} {v u : Value} {path : List Nat} (h : τ.Leads v path δ u) :
    δ.customs = τ.customs := by
  induction h with
  | here _ => rfl
  | option _ _ ih | element _ _ ih => exact ih

/-- The error of a part is the error of the whole, inside of the positions that lead to the part. -/
theorem coerce_of_leads {τ δ : Target} {v u : Value} {path : List Nat} {cause : CoercionError}
    (h : τ.Leads v path δ u) (hu : δ.coerce u = .error cause) : τ.coerce v = .error (cause.under path) := by
  induction h with
  | here _ => exact hu
  | option hv _ ih => rw [coerce_option hv, ih hu]; rfl
  | @element τ δ before after v u path hbefore _ ih =>
    have hok : ∀ v' ∈ before, ∃ x, τ.coerce v' = .ok x := fun v' hv' => coerce_of_conforms (hbefore v' hv')
    exact (coerceElements_first_error hok (ih hu)).trans (by rw [Nat.zero_add]; rfl)

theorem not_conforms_of_refuses {τ : Target} {v : Value} {cause : CoercionError} (hopt : ∀ σ, τ ≠ .option σ)
    (h : τ.Refuses v cause) : ¬ τ.Conforms v := by
  intro hc
  obtain ⟨x, hx⟩ := coerce_of_conforms hc
  rw [coerce_of_refuses hopt h] at hx
  cases hx

theorem Refuses.exists_custom {τ : Target} {v : Value} {i : Nat} {e : CoercionError}
    (h : τ.Refuses v (.element i e)) : ∃ c, τ = .custom c := by
  cases h with
  | custom _ => exact ⟨_, rfl⟩

/-! ## One or the other -/

theorem conforms_or_refuses {τ : Target} (hopt : ∀ σ, τ ≠ .option σ) (hlist : ∀ σ, τ ≠ .list σ) (v : Value) :
    τ.Conforms v ∨ ∃ cause, τ.Refuses v cause := by
  cases ht : τ.takes v.kind with
  | false => exact .inr ⟨_, .kind ht⟩
  | true =>
    cases τ with
    | option σ => exact absurd rfl (hopt σ)
    | list σ => exact absurd rfl (hlist σ)
    | custom c =>
      cases hx : (CustomTypes.conversion c).coerce v with
      | ok x => exact .inl (.custom hx)
      | error e => exact .inr ⟨e, .custom hx⟩
    | bool =>
      cases v with
      | bool b => exact .inl (.bool b)
      | _ => cases ht
    | string =>
      cases v with
      | string s => exact .inl (.string s)
      | _ => cases ht
    | double =>
      cases v with
      | single x => exact .inl (.widened x)
      | double x => exact .inl (.double x)
      | _ => cases ht
    | single =>
      cases v with
      | single x => exact .inl (.single x)
      | double x =>
        cases hx : x.isSingle with
        | true => exact .inl (.narrowed hx)
        | false => exact .inr ⟨_, .single hx⟩
      | _ => cases ht
    | int t =>
      cases v with
      | int k n =>
        by_cases hn : t.range.lo ≤ n.val ∧ n.val ≤ t.range.hi
        · exact .inl (.int hn.1 hn.2)
        · exact .inr ⟨_, .int hn⟩
      | _ => cases ht
    | datetime =>
      cases v with
      | datetime text =>
        cases hr : Timestamp.read text with
        | ok t => exact .inl (.datetime hr)
        | error fault => exact .inr ⟨_, .datetime hr⟩
      | _ => cases ht
    | utc =>
      cases v with
      | datetime text =>
        cases hr : Timestamp.read text with
        | ok t => exact .inl (.utc hr)
        | error fault => exact .inr ⟨_, .utc hr⟩
      | _ => cases ht
    | duration =>
      cases v with
      | datetime text =>
        cases hr : Duration.read text with
        | ok d => exact .inl (.duration hr)
        | error fault => exact .inr ⟨_, .duration hr⟩
      | _ => cases ht

theorem conforms_or_leads (τ : Target) (v : Value) :
    τ.Conforms v ∨ ∃ path δ u cause, τ.Leads v path δ u ∧ δ.Refuses u cause := by
  have hwhole : ∀ {τ : Target} {v : Value} {cause}, (∀ σ, τ ≠ .option σ) → τ.Refuses v cause →
      ∃ path δ u cause, τ.Leads v path δ u ∧ δ.Refuses u cause := fun hopt hr => ⟨[], _, _, _, .here hopt, hr⟩
  induction τ generalizing v with
  | option τ ih =>
    rcases v.eq_null_or_isNull_eq_false with rfl | hv
    · exact .inl (.absent τ)
    · rcases ih v with h | ⟨path, δ, u, cause, hl, hr⟩
      · exact .inl (.present h)
      · exact .inr ⟨path, δ, u, cause, .option hv hl, hr⟩
  | list τ ih =>
    cases v with
    | array vs =>
      rcases all_or_first ih vs with h | ⟨before, v, after, rfl, hbefore, path, δ, u, cause, hl, hr⟩
      · exact .inl (.list h)
      · exact .inr ⟨_, δ, u, cause, .element hbefore hl, hr⟩
    | _ => exact .inr (hwhole (by exact nofun) (.kind rfl))
  | _ =>
    exact (conforms_or_refuses (by exact nofun) (by exact nofun) v).imp_right fun ⟨_, hr⟩ => hwhole (by exact nofun) hr

/-- Coercion succeeds on the values that conform. On any other, the error leads past conforming elements to the first
part that its type refuses, and is the reason for that. The reason is about an element only if a type that is not built
in gives it. -/
theorem coerce_exact (τ : Target) (v : Value) :
    ((∃ x, τ.coerce v = .ok x) ↔ τ.Conforms v) ∧
    ∀ err, τ.coerce v = .error err ↔
      ∃ path δ u cause, err = cause.under path ∧ (∀ i e, cause = .element i e → ∃ c ∈ τ.customs, δ = .custom c) ∧
        τ.Leads v path δ u ∧ ¬ δ.Conforms u ∧ δ.Refuses u cause := by
  have hfail : ∀ {path δ u cause}, τ.Leads v path δ u → δ.Refuses u cause →
      τ.coerce v = .error (cause.under path) := fun hl hr =>
    coerce_of_leads hl (coerce_of_refuses hl.ne_option hr)
  refine ⟨⟨?_, coerce_of_conforms⟩, ?_⟩
  · intro h
    obtain ⟨x, hx⟩ := h
    rcases conforms_or_leads τ v with hc | ⟨path, δ, u, cause, hl, hr⟩
    · exact hc
    · rw [hfail hl hr] at hx
      cases hx
  intro err
  refine ⟨?_, ?_⟩
  · intro herr
    rcases conforms_or_leads τ v with hc | ⟨path, δ, u, cause, hl, hr⟩
    · obtain ⟨x, hx⟩ := coerce_of_conforms hc
      rw [hx] at herr
      cases herr
    · rw [hfail hl hr] at herr
      cases herr
      refine ⟨path, δ, u, cause, rfl, ?_, hl, not_conforms_of_refuses hl.ne_option hr, hr⟩
      rintro i e rfl
      obtain ⟨c, rfl⟩ := hr.exists_custom
      exact ⟨c, hl.customs_eq ▸ List.mem_singleton_self c, rfl⟩
  · intro h
    obtain ⟨path, δ, u, cause, rfl, -, hl, -, hr⟩ := h
    exact hfail hl hr

example : (Target.list (.option (.list (.int (.fixed .u8))))).coerce
    (.array [.null, .array [.int .i64 ⟨255, by decide⟩, .int .i64 ⟨256, by decide⟩]]) =
      .error ((CoercionError.outOfRange ⟨"256"⟩ ⟨"u8"⟩).under [1, 1]) := rfl

end Target

end TypedRecords
