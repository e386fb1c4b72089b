import TypedRecords.Proofs.Caching
import TypedRecords.Proofs.Fieldwise

/-!
# Strict and lenient decoding

Strict decoding reports a field that gets no value, and lenient decoding leaves it at its default. The two run
in lock step up to the first such gap. From there on only the lenient one goes on, so what it reports comes
later, and it never reports a gap.
-/

namespace TypedRecords

/-- The error of a field without a value: its property is missing, or null where null is refused. Null inside
of an array is no gap. -/
def DecodeError.gap : DecodeError → Bool
  | .missing .. => true
  | .coercion _ _ _ (.mismatch source _) => source.name == "null"
  | _ => false

theorem gap_coercion_eq_false {record : Nat} {property field : String} {source : CoercionError} :
    (DecodeError.coercion record property field source).gap = false ↔ ∀ k, source ≠ .mismatch ⟨"null"⟩ k := by
  cases source with
  | mismatch kind target =>
    obtain ⟨name⟩ := kind
    simp [DecodeError.gap]
  | _ => simp [DecodeError.gap]

/-! ## Conversions -/

namespace Conversion

/-- The conversions of fields: those of the destination types, any other that refuses null as a mismatch and takes
nothing else for null, and the options and lists of all these. The types that are not built in have to be of this
sort too where a destination type uses them. -/
inductive Supported : {α : Type} → Conversion α → Prop
  | typed [CustomTypes] {τ : Target} : (∀ c ∈ τ.customs, Supported (CustomTypes.conversion c)) → Supported τ.conversion
  | custom {α : Type} {c : Conversion α} : c.type.optional = false →
      (∀ v, (∃ k, c.coerce v = .error (.mismatch ⟨"null"⟩ k)) ↔ v = .null) → Supported c
  | option {α : Type} {c : Conversion α} : Supported c → Supported c.option
  | list {α : Type} {c : Conversion α} : Supported c → Supported c.list

/-- Null is accepted if the type is optional and refused if not, and a mismatch with null is about null. -/
structure Honest (c : Conversion α) : Prop where
  accepts : c.type.optional = true → ∃ x, c.coerce .null = .ok x
  refuses : c.type.optional = false → ∃ k, c.coerce .null = .error (.mismatch ⟨"null"⟩ k)
  eq_null : ∀ v k, c.coerce v = .error (.mismatch ⟨"null"⟩ k) → v = .null

theorem eq_null_of_label {kind : ValueKind} (h : kind.label = ⟨"null"⟩) : kind = .null := by
  cases kind with
  | null => rfl
  | int k => cases k <;> exact absurd h (by decide)
  | _ => exact absurd h (by decide)

theorem eq_null_of_mismatch {v : Value} {target : Kind} {k : Label}
    (h : v.mismatch target = (.error (.mismatch ⟨"null"⟩ k) : Coerced α)) : v = .null := by
  rw [Value.mismatch, Except.error.injEq, CoercionError.mismatch.injEq] at h
  have hkind := eq_null_of_label h.1
  cases v with
  | null => rfl
  | _ => cases hkind

theorem supported_switch : Catalog.switch.Supported := by
  refine .custom rfl ?_
  intro v
  refine ⟨?_, ?_⟩
  · intro h
    obtain ⟨k, hk⟩ := h
    cases v with
    | bool on => cases hk
    | _ => exact eq_null_of_mismatch hk
  · rintro rfl
    exact ⟨_, rfl⟩

theorem eq_null_of_coerceBetween {lo hi : Int} {target : Kind} {k : Label} {v : Value}
    (h : coerceBetween lo hi target v = .error (.mismatch ⟨"null"⟩ k)) : v = .null := by
  unfold coerceBetween at h
  split at h
  · exact eq_null_of_mismatch h
  · split at h <;> cases h

theorem eq_null_of_coerceSingle {k : Label} {v : Value} (h : coerceSingle v = .error (.mismatch ⟨"null"⟩ k)) :
    v = .null := by
  unfold coerceSingle at h
  split at h
  · cases h
  · split at h <;> cases h
  · exact eq_null_of_mismatch h

theorem eq_null_of_coerceText {read : String → Except TimeFault α} {target : Kind} {k : Label} {v : Value}
    (h : coerceText read target v = .error (.mismatch ⟨"null"⟩ k)) : v = .null := by
  unfold coerceText at h
  split at h
  · obtain ⟨fault, -, hf⟩ := mapError_eq_error.mp h
    cases hf
  · exact eq_null_of_mismatch h

theorem eq_null_of_coerceDouble {k : Label} {v : Value} (h : coerceDouble v = .error (.mismatch ⟨"null"⟩ k)) :
    v = .null := by
  unfold coerceDouble at h
  split at h
  · cases h
  · cases h
  · exact eq_null_of_mismatch h

theorem coerceElements_ne_mismatch {coerce : Value → Coerced α} {i : Nat} {vs : List Value} {source k : Label} :
    coerceElements coerce i vs ≠ .error (.mismatch source k) := by
  induction vs generalizing i with
  | nil => exact nofun
  | cons v vs ih =>
    intro h
    simp only [coerceElements] at h
    cases hv : coerce v with
    | error e =>
      rw [hv] at h
      cases h
    | ok x =>
      rw [hv] at h
      exact ih (map_eq_error.mp h)

theorem Honest.option {c : Conversion α} (h : c.Honest) : c.option.Honest where
  accepts _ := ⟨none, rfl⟩
  refuses := nofun
  eq_null v k hv := by
    cases v with
    | null => rfl
    | _ => exact h.eq_null _ k (map_eq_error.mp hv)

theorem honest_list (c : Conversion α) : c.list.Honest where
  accepts := nofun
  refuses _ := ⟨_, rfl⟩
  eq_null v k hv := by
    cases v with
    | array vs => exact absurd hv coerceElements_ne_mismatch
    | _ => exact eq_null_of_mismatch hv

theorem honest_typed [CustomTypes] {τ : Target} (h : ∀ c ∈ τ.customs, (CustomTypes.conversion c).Honest) :
    τ.conversion.Honest := by
  induction τ with
  | custom c => exact h c (List.mem_singleton_self c)
  | option τ ih => exact (ih h).option
  | list τ => exact honest_list τ.conversion
  | bool | string =>
    refine ⟨nofun, fun _ => ⟨_, rfl⟩, ?_⟩
    intro v k h
    simp only [Target.conversion, Target.coerce] at h
    split at h
    · cases h
    · exact eq_null_of_mismatch h
  | double => exact ⟨nofun, fun _ => ⟨_, rfl⟩, fun _ _ => eq_null_of_coerceDouble⟩
  | single => exact ⟨nofun, fun _ => ⟨_, rfl⟩, fun _ _ => eq_null_of_coerceSingle⟩
  | int => exact ⟨nofun, fun _ => ⟨_, rfl⟩, fun _ _ => eq_null_of_coerceBetween⟩
  | datetime | duration => exact ⟨nofun, fun _ => ⟨_, rfl⟩, fun _ _ => eq_null_of_coerceText⟩
  | utc => exact ⟨nofun, fun _ => ⟨_, rfl⟩, fun _ _ h => eq_null_of_coerceText (map_eq_error.mp h)⟩

theorem Supported.honest {c : Conversion α} (h : c.Supported) : c.Honest := by
  induction h with
  | typed _ ih => exact honest_typed ih
  | custom hopt hnull =>
    refine ⟨?_, fun _ => (hnull .null).mpr rfl, fun v k hv => (hnull v).mp ⟨k, hv⟩⟩
    rw [hopt]
    exact nofun
  | option _ ih => exact ih.option
  | list => exact honest_list _

end Conversion

def Slot.Converts (slot : Slot R) : Prop :=
  ∃ (α : Type) (c : Conversion α) (set : α → R → R), c.Supported ∧ slot = c.slot set

theorem Slot.converts_typed [CustomTypes] {τ : Target}
    (h : ∀ c ∈ τ.customs, (CustomTypes.conversion c).Supported) (set : τ.El → R → R) : (Slot.typed τ set).Converts :=
  ⟨τ.El, τ.conversion, set, .typed h, rfl⟩

namespace Slot.Converts

variable {slot : Slot R} (h : slot.Converts)
include h

theorem assign_null (hopt : slot.type.optional = false) (r : R) :
    ∃ k, slot.assign .null r = .error (.mismatch ⟨"null"⟩ k) := by
  obtain ⟨α, c, set, hc, rfl⟩ := h
  obtain ⟨k, hk⟩ := hc.honest.refuses hopt
  exact ⟨k, map_eq_error.mpr hk⟩

theorem assign_ne_mismatch {v : Value} (hv : v = .null → slot.type.optional = true) {r : R} {k : Label} :
    slot.assign v r ≠ .error (.mismatch ⟨"null"⟩ k) := by
  obtain ⟨α, c, set, hc, rfl⟩ := h
  intro ha
  have hmismatch := map_eq_error.mp ha
  cases hc.honest.eq_null v k hmismatch
  obtain ⟨x, hx⟩ := hc.honest.accepts (hv rfl)
  rw [hx] at hmismatch
  cases hmismatch

end Slot.Converts

def FieldDecl.Converting (decls : List (FieldDecl R)) : Prop :=
  ∀ d ∈ decls, ∀ slot, d.slot = some slot → slot.Converts

/-! ## Two results -/

inductive Relaxed (later : DecodeError → DecodeError → Prop) : Decoded α → Decoded α → Prop
  | ok (a : α) : Relaxed later (.ok a) (.ok a)
  | error {e : DecodeError} : e.gap = false → Relaxed later (.error e) (.error e)
  | filled {e : DecodeError} (a : α) : e.gap = true → Relaxed later (.error e) (.ok a)
  | later {e e' : DecodeError} : e.gap = true → e'.gap = false → later e e' → Relaxed later (.error e) (.error e')

section
variable {later later' : DecodeError → DecodeError → Prop} {strict lenient : Decoded α}

theorem Relaxed.mono (hl : ∀ e e', later e e' → later' e e') (h : Relaxed later strict lenient) :
    Relaxed later' strict lenient := by
  cases h with
  | ok a => exact .ok a
  | error hg => exact .error hg
  | filled a hg => exact .filled a hg
  | later hg hg' he => exact .later hg hg' (hl _ _ he)

theorem Relaxed.map (f : α → β) (h : Relaxed later strict lenient) :
    Relaxed later (strict.map f) (lenient.map f) := by
  cases h with
  | ok a => exact .ok (f a)
  | error hg => exact .error hg
  | filled a hg => exact .filled (f a) hg
  | later hg hg' he => exact .later hg hg' he

theorem Relaxed.gap_eq_false {e : DecodeError} (h : Relaxed later strict (.error e)) : e.gap = false := by
  cases h with
  | error hg => exact hg
  | later _ hg' _ => exact hg'

theorem Relaxed.eq_ok {a : α} (h : Relaxed later (.ok a) lenient) : lenient = .ok a := by
  cases h with
  | ok => rfl

theorem Relaxed.eq_error {e : DecodeError} (h : Relaxed later (.error e) lenient) (hg : e.gap = false) :
    lenient = .error e := by
  cases h with
  | error => rfl
  | filled a hg' | later hg' => simp [hg] at hg'

theorem Relaxed.later_of_gap {e e' : DecodeError} (h : Relaxed later (.error e : Decoded α) (.error e'))
    (hg : e.gap = true) : later e e' := by
  cases h with
  | error hg' => simp [hg] at hg'
  | later _ _ he => exact he

theorem relaxed_self (h : ∀ e, strict = .error e → e.gap = false) : Relaxed later strict strict := by
  cases strict with
  | ok a => exact .ok a
  | error e => exact .error (h e rfl)

theorem relaxed_of_gap {e : DecodeError} (hg : e.gap = true)
    (hl : ∀ e', lenient = .error e' → e'.gap = false ∧ later e e') : Relaxed later (.error e) lenient := by
  cases lenient with
  | ok a => exact .filled a hg
  | error e' => exact .later hg (hl e' rfl).1 (hl e' rfl).2

end

/-! ## One field -/

section
variable {record : Nat} {e : Entry R} {slot : Slot R} {options : Options}

theorem received_names {answer : Answer} {err : DecodeError}
    (h : received options record e slot answer = .error err) : e.Names record err := by
  unfold received at h
  split at h
  · cases h
    exact ⟨rfl, rfl⟩
  · split at h
    · cases h
    · split at h
      · cases h
      · cases h
        exact ⟨rfl, rfl, rfl⟩
  · split at h <;> cases h

theorem fill_names {answer : Answer} {r : R} {err : DecodeError}
    (h : fill options record e slot answer r = .error err) : e.Names record err := by
  unfold fill at h
  split at h
  · rename_i hr
    cases h
    exact received_names hr
  · cases h
  · obtain ⟨source, -, rfl⟩ := mapError_eq_error.mp h
    exact ⟨rfl, rfl, rfl⟩

/-- Lenient decoding fills a field as strict decoding does, or else strict decoding reports a gap and the field
is left as it is. -/
theorem fill_lenient (h : slot.Converts) (record : Nat) (e : Entry R) (answer : Answer) (r : R) :
    (fill ⟨true⟩ record e slot answer r = fill ⟨false⟩ record e slot answer r ∧
      ∀ err, fill ⟨false⟩ record e slot answer r = .error err → err.gap = false) ∨
    ∃ err, fill ⟨false⟩ record e slot answer r = .error err ∧ err.gap = true ∧
      fill ⟨true⟩ record e slot answer r = .ok r := by
  -- a value that both modes give the field is refused with a gap in neither
  have hgiven : ∀ answer v, (v = .null → slot.type.optional = true) →
      (∀ options, received options record e slot answer = .ok (some v)) →
      fill ⟨true⟩ record e slot answer r = fill ⟨false⟩ record e slot answer r ∧
        ∀ err, fill ⟨false⟩ record e slot answer r = .error err → err.gap = false := by
    intro answer v hv hr
    simp only [fill, hr, true_and]
    intro err herr
    obtain ⟨source, hs, rfl⟩ := mapError_eq_error.mp herr
    rw [gap_coercion_eq_false]
    rintro k rfl
    exact h.assign_ne_mismatch hv hs
  rcases answer with fault | _ | v
  · refine .inl ⟨rfl, ?_⟩
    intro err herr
    cases herr
    rfl
  · cases hopt : slot.type.optional with
    | true => exact .inl (hgiven _ .null (fun _ => hopt) fun options => by simp [received, hopt])
    | false => exact .inr ⟨.missing record e.property e.field, by simp [fill, received, hopt, DecodeError.gap]⟩
  · by_cases hv : v = .null → slot.type.optional = true
    · refine .inl (hgiven _ v hv fun options => ?_)
      cases v with
      | null => simp [received, hv rfl]
      | _ => rfl
    · obtain ⟨rfl, hopt⟩ := Classical.not_imp.mp hv
      rw [Bool.not_eq_true] at hopt
      obtain ⟨k, hk⟩ := h.assign_null hopt r
      refine .inr ⟨.coercion record e.property e.field (.mismatch ⟨"null"⟩ k), ?_, rfl, ?_⟩
      · simp [fill, received, hk]
      · simp [fill, received, hopt, Value.isNull]

end

/-! ## One record -/

section
variable {record : Nat} {o : Object}

theorem decodeEntries_names {options : Options} {ps : List (Entry R × Slot R)} {r : R} {err : DecodeError}
    (h : (decodeEntries options record ps r).result o = .error err) : ∃ p ∈ ps, p.1.Names record err := by
  induction ps generalizing r with
  | nil => cases h
  | cons p ps ih =>
    simp only [decodeEntries, Inquiry.result] at h
    cases hf : fill options record p.1 p.2 (o p.1.property) r with
    | error err' =>
      rw [hf] at h
      cases h
      exact ⟨p, List.mem_cons_self .., fill_names hf⟩
    | ok r₁ =>
      rw [hf] at h
      obtain ⟨q, hq, hn⟩ := ih h
      exact ⟨q, List.mem_cons_of_mem _ hq, hn⟩

def InOrder (record : Nat) (es : List (Entry R)) (err err' : DecodeError) : Prop :=
  ∃ e e', [e, e'].Sublist es ∧ e.Names record err ∧ e'.Names record err'

theorem decodeEntries_relaxed {ps : List (Entry R × Slot R)} (hc : ∀ p ∈ ps, p.2.Converts) (r : R) :
    Relaxed (InOrder record (ps.map (·.1))) ((decodeEntries ⟨false⟩ record ps r).result o)
      ((decodeEntries ⟨true⟩ record ps r).result o) := by
  induction ps generalizing r with
  | nil => exact .ok r
  | cons p ps ih =>
    rw [List.forall_mem_cons] at hc
    simp only [decodeEntries, Inquiry.result]
    rcases fill_lenient hc.1 record p.1 (o p.1.property) r with ⟨hsame, hg⟩ | ⟨err, hs, hg, hl⟩
    · rw [hsame]
      cases hf : fill ⟨false⟩ record p.1 p.2 (o p.1.property) r with
      | error err => exact .error (hg err hf)
      | ok r₁ =>
        refine (ih hc.2 r₁).mono ?_
        intro err err' h
        obtain ⟨e, e', hsub, hn, hn'⟩ := h
        exact ⟨e, e', hsub.cons _, hn, hn'⟩
    · rw [hs, hl]
      refine relaxed_of_gap hg ?_
      intro err' herr'
      have hrest := ih hc.2 r
      rw [herr'] at hrest
      obtain ⟨q, hq, hn⟩ := decodeEntries_names herr'
      have hmem : q.1 ∈ ps.map (·.1) := List.mem_map_of_mem hq
      exact ⟨hrest.gap_eq_false, p.1, q.1, (List.singleton_sublist.mpr hmem).cons_cons _, fill_names hs, hn⟩

end

/-! ## Points of decoding -/

namespace Schema

/-- Where decoding stops with an error: the record, and the entry of the property in the order of entries. -/
def point? (s : Schema R) : DecodeError → Option (Nat × Nat)
  | .coercion record property _ _ | .missing record property _ | .fetch record property _ =>
    (s.entries.findIdx? (·.property == property)).map (record, ·)
  | .schema _ | .hook .. => none

/-- The first error comes from an earlier record than the second, or from an earlier entry of the same record. -/
def Before (s : Schema R) (err err' : DecodeError) : Prop :=
  ∃ p p', s.point? err = some p ∧ s.point? err' = some p' ∧ Prod.Lex (· < ·) (· < ·) p p'

section
variable {s : Schema R} (hs : s.entries.Pairwise fun e e' => caseless e.property e'.property = false)
include hs

theorem point?_of_names {i n : Nat} {e : Entry R} {err : DecodeError} (hi : s.entries[i]? = some e)
    (h : e.Names n err) : s.point? err = some (n, i) := by
  have hidx : s.entries.findIdx? (·.property == e.property) = some i := by
    obtain ⟨hlt, rfl⟩ := List.getElem?_eq_some_iff.mp hi
    refine List.findIdx?_eq_some_iff_getElem.mpr ⟨hlt, by simp, ?_⟩
    intro j hj heq
    have hne := List.pairwise_iff_getElem.mp hs j i (Nat.lt_trans hj hlt) hlt hj
    rw [beq_iff_eq.mp heq, caseless_refl] at hne
    cases hne
  cases err with
  | coercion m property field source | missing m property field =>
    obtain ⟨rfl, rfl, rfl⟩ := h
    simp [point?, hidx]
  | fetch m property source =>
    obtain ⟨rfl, rfl⟩ := h
    simp [point?, hidx]
  | schema source | hook m source => cases h

theorem before_of_inOrder {n : Nat} {err err' : DecodeError} (h : InOrder n s.entries err err') :
    s.Before err err' := by
  obtain ⟨e, e', hsub, hn, hn'⟩ := h
  have hpairs : s.entries.Pairwise fun e e' => ∃ i j, i < j ∧ s.entries[i]? = some e ∧ s.entries[j]? = some e' :=
    List.pairwise_iff_getElem.mpr fun i j hi hj hij =>
      ⟨i, j, hij, List.getElem?_eq_getElem hi, List.getElem?_eq_getElem hj⟩
  obtain ⟨i, j, hij, hi, hj⟩ := List.pairwise_iff_forall_sublist.mp hpairs hsub
  exact ⟨_, _, point?_of_names hs hi hn, point?_of_names hs hj hn', .right n hij⟩

theorem before_of_lt {n n' : Nat} (hlt : n < n') {e e' : Entry R} (he : e ∈ s.entries) (he' : e' ∈ s.entries)
    {err err' : DecodeError} (hn : e.Names n err) (hn' : e'.Names n' err') : s.Before err err' := by
  obtain ⟨i, hi⟩ := List.mem_iff_getElem?.mp he
  obtain ⟨j, hj⟩ := List.mem_iff_getElem?.mp he'
  exact ⟨_, _, point?_of_names hs hi hn, point?_of_names hs hj hn', .left _ _ hlt⟩

end

end Schema

/-! ## Many records -/

section
variable {schema : Schema R} {fresh : R} {record : Nat} {os : List Object}

theorem decodeFrom_names {options : Options} {err : DecodeError}
    (h : (decodeFrom options fresh (.fields schema) record os).result = .error err) :
    ∃ n e, record ≤ n ∧ e ∈ schema.entries ∧ e.Names n err := by
  obtain ⟨n, hn, o, -, he⟩ := exists_of_decodeFrom_error options fresh (.fields schema) h
  obtain ⟨p, hp, hnames⟩ := decodeEntries_names he
  exact ⟨n, p.1, hn, (mem_decodedOf.mp hp).1, hnames⟩

theorem decodeFrom_relaxed (hs : schema.entries.Pairwise fun e e' => caseless e.property e'.property = false)
    (hc : ∀ p ∈ schema.decoded, p.2.Converts) :
    Relaxed schema.Before (decodeFrom ⟨false⟩ fresh (.fields schema) record os).result
      (decodeFrom ⟨true⟩ fresh (.fields schema) record os).result := by
  induction os generalizing record with
  | nil => exact .ok []
  | cons o os ih =>
    have hone : Relaxed schema.Before (((Route.fields schema).decodeRecord ⟨false⟩ fresh record).result o)
        (((Route.fields schema).decodeRecord ⟨true⟩ fresh record).result o) := by
      refine (decodeEntries_relaxed hc fresh).mono ?_
      intro err err' h
      obtain ⟨e, e', hsub, hn, hn'⟩ := h
      exact Schema.before_of_inOrder hs ⟨e, e', hsub.trans (decodedOf_sublist _), hn, hn'⟩
    have hlater : Relaxed schema.Before (decodeFrom ⟨false⟩ fresh (.fields schema) (record + 1) os).result
        (decodeFrom ⟨true⟩ fresh (.fields schema) (record + 1) os).result := ih
    simp only [decodeFrom]
    generalize hstrict : ((Route.fields schema).decodeRecord ⟨false⟩ fresh record).result o = strict at hone ⊢
    generalize ((Route.fields schema).decodeRecord ⟨true⟩ fresh record).result o = lenient at hone ⊢
    cases hone with
    | ok r => exact hlater.map (r :: ·)
    | error hg => exact .error hg
    | later hg hg' hb => exact .later hg hg' hb
    | @filled err r hg =>
      -- only lenient decoding goes on to the records that follow
      refine relaxed_of_gap hg ?_
      intro err' herr'
      have herr := map_eq_error.mp herr'
      rw [herr] at hlater
      obtain ⟨p, hp, hn⟩ := decodeEntries_names hstrict
      obtain ⟨n, e, hle, he, hn'⟩ := decodeFrom_names herr
      exact ⟨hlater.gap_eq_false, Schema.before_of_lt hs hle (mem_decodedOf.mp hp).1 he hn hn'⟩

end

theorem decodeFrom_hook (options options' : Options) (fresh : R) (hook : Hook R) (record : Nat) (os : List Object) :
    decodeFrom options fresh (.hook hook) record os = decodeFrom options' fresh (.hook hook) record os := by
  induction os generalizing record with
  | nil => rfl
  | cons o os ih =>
    simp only [decodeFrom, Route.decodeRecord, ih]

theorem gap_of_hook {options : Options} {fresh : R} {hook : Hook R} {record : Nat} {os : List Object}
    {err : DecodeError} (h : (decodeFrom options fresh (.hook hook) record os).result = .error err) :
    err.gap = false := by
  obtain ⟨n, -, o, -, he⟩ := exists_of_decodeFrom_error options fresh (.hook hook) h
  simp only [Route.decodeRecord, Inquiry.result_bind, Inquiry.result] at he
  obtain ⟨source, -, rfl⟩ := mapError_eq_error.mp he
  rfl

/-! ## Sessions -/

namespace Schema

theorem converts_of_build {typeName : String} {decls : List (FieldDecl R)} {s : Schema R}
    (hb : build typeName decls = .ok s) (hc : FieldDecl.Converting decls) : ∀ p ∈ s.decoded, p.2.Converts := by
  obtain ⟨-, rfl⟩ := build_eq_ok.mp hb
  intro p hp
  obtain ⟨he, hd⟩ := mem_decodedOf.mp hp
  obtain ⟨d, hmem, hres⟩ := List.mem_map.mp he
  rw [← hres] at hd
  exact hc d hmem p.2 (decoded?_eq_some.mp hd).2

end Schema

namespace Session

variable {s : Session R} {key : String}

/-- The fields of the type convert, and so do those that its schema was built from if one is kept. -/
def Converting (s : Session R) (key : String) : Prop :=
  ∀ decls, (s.types key).declaration = .fields decls → FieldDecl.Converting decls ∧
    ∀ schema, s.schemas key = some schema →
      ∃ name kept, Schema.build name kept = .ok schema ∧ FieldDecl.Converting kept

theorem resolve_setOptions (options : Options) :
    ((s.setOptions options).resolve key).result = (s.resolve key).result := by
  cases hr : (s.resolve key).result with
  | error e =>
    have h := resolve_eq_error.mp hr
    exact resolve_eq_error.mpr h
  | ok schema =>
    have h := resolve_eq_ok.mp hr
    exact resolve_eq_ok.mpr h

theorem route_setOptions (options : Options) : ((s.setOptions options).route key).result = (s.route key).result := by
  cases hd : (s.types key).declaration with
  | fields decls =>
    rw [(route_of_fields hd).1, (route_of_fields (s := s.setOptions options) hd).1, resolve_setOptions]
  | selfDecoding hook =>
    rw [(route_of_selfDecoding hd).1, (route_of_selfDecoding (s := s.setOptions options) hd).1]

theorem decode_setOptions {route : Route R} (hr : (s.route key).result = .ok route) (options : Options)
    (os : List Object) : ((s.setOptions options).decode key os).result.result =
      (decodeFrom options (s.types key).fresh route 0 os).result :=
  congrArg Fetched.result (decode_of_route ((route_setOptions options).trans hr) os)

theorem decode_of_hook {hook : Hook R} (hd : (s.types key).declaration = .selfDecoding hook)
    (options options' : Options) (os : List Object) :
    ((s.setOptions options).decode key os).result.result = ((s.setOptions options').decode key os).result.result := by
  have hr := (route_of_selfDecoding hd).1
  rw [decode_setOptions hr, decode_setOptions hr, decodeFrom_hook options options']

theorem exists_build_of_resolve (hc : s.Converting key) {decls : List (FieldDecl R)}
    (hd : (s.types key).declaration = .fields decls) {schema : Schema R} (hr : (s.resolve key).result = .ok schema) :
    ∃ name decls, Schema.build name decls = .ok schema ∧ FieldDecl.Converting decls := by
  obtain ⟨hdecls, hkept⟩ := hc decls hd
  rcases resolve_eq_ok.mp hr with h | ⟨-, h⟩
  · exact hkept schema h
  · simp only [RecordType.schema, hd] at h
    exact ⟨_, decls, h, hdecls⟩

theorem decode_relaxed (hc : s.Converting key) (os : List Object) :
    Relaxed (fun e e' => ∃ schema, (s.resolve key).result = .ok schema ∧ schema.Before e e')
      ((s.setOptions ⟨false⟩).decode key os).result.result ((s.setOptions ⟨true⟩).decode key os).result.result := by
  cases hd : (s.types key).declaration with
  | selfDecoding hook =>
    rw [decode_of_hook hd ⟨true⟩ ⟨false⟩]
    refine relaxed_self ?_
    intro e h
    rw [decode_setOptions (route_of_selfDecoding hd).1] at h
    exact gap_of_hook h
  | fields decls =>
    have hroute := (route_of_fields hd).1
    cases hr : (s.resolve key).result with
    | error e =>
      rw [hr] at hroute
      simp only [decode, route_setOptions, hroute]
      exact .error rfl
    | ok schema =>
      rw [hr] at hroute
      rw [decode_setOptions hroute, decode_setOptions hroute]
      obtain ⟨name, kept, hb, hk⟩ := exists_build_of_resolve hc hd hr
      refine (decodeFrom_relaxed (Schema.pairwise_properties hb) (Schema.converts_of_build hb hk)).mono ?_
      intro e e' h
      exact ⟨schema, rfl, h⟩

/-- The same objects decoded in both modes, from any session in which the fields of the type convert. Records that
strict decoding gives, and errors of it that are no gap, lenient decoding gives as well. In place of a gap it gives
records or an error that comes later. It never reports a gap. A type that decodes itself is decoded the same in
both modes. -/
theorem decode_strict_lenient (hc : s.Converting key) (os : List Object) :
    let strict := ((s.setOptions ⟨false⟩).decode key os).result.result
    let lenient := ((s.setOptions ⟨true⟩).decode key os).result.result
    (∀ rs, strict = .ok rs → lenient = .ok rs) ∧
    (∀ e, strict = .error e → e.gap = false → lenient = .error e) ∧
    (∀ e e', strict = .error e → e.gap = true → lenient = .error e' →
      ∃ schema, (s.resolve key).result = .ok schema ∧ schema.Before e e') ∧
    (∀ e, lenient = .error e → e.gap = false) ∧
    ∀ hook, (s.types key).declaration = .selfDecoding hook → strict = lenient := by
  intro strict lenient
  have hrelaxed : Relaxed _ strict lenient := decode_relaxed hc os
  refine ⟨?_, ?_, ?_, ?_, ?_⟩
  · intro rs h
    rw [h] at hrelaxed
    exact hrelaxed.eq_ok
  · intro e h hg
    rw [h] at hrelaxed
    exact hrelaxed.eq_error hg
  · intro e e' h hg h'
    rw [h, h'] at hrelaxed
    exact hrelaxed.later_of_gap hg
  · intro e h
    rw [h] at hrelaxed
    exact hrelaxed.gap_eq_false
  · intro hook hd
    exact decode_of_hook hd ⟨false⟩ ⟨true⟩ os

theorem decode_strict_lenient_lamp :
    let lamp : RecordType (Int × Bool) := ⟨"Lamp", (0, false), .fields
      [.typed "level" (.int (.fixed .u8)) fun x r => (x.val, r.2),
        .ofSlot "on" (Catalog.switch.option.slot fun on r => (r.1, on.getD true))]⟩
    let s := start (fun _ => lamp) .strict
    let o := (Bag.ofList [("on", .string "yes")]).object
    let missing := DecodeError.missing 0 "level" "level"
    let mismatch := DecodeError.coercion 0 "on" "on" (.mismatch ⟨"string"⟩ ⟨"switch"⟩)
    ((s.setOptions ⟨false⟩).decode "L" [o]).result.result = .error missing ∧
    ((s.setOptions ⟨true⟩).decode "L" [o]).result.result = .error mismatch ∧
    ∃ schema, (s.resolve "L").result = .ok schema ∧ schema.Before missing mismatch := by
  intro lamp s o missing mismatch
  have hc : s.Converting "L" := by
    intro decls hd
    cases hd
    refine ⟨List.forall_mem_cons.mpr ⟨?_, List.forall_mem_singleton.mpr ?_⟩, nofun⟩
    · intro slot hslot
      cases hslot
      exact Slot.converts_typed (List.forall_mem_nil _) _
    · intro slot hslot
      cases hslot
      exact ⟨_, Catalog.switch.option, _, Conversion.supported_switch.option, rfl⟩
  have hstrict : ((s.setOptions ⟨false⟩).decode "L" [o]).result.result = .error missing := rfl
  have hlenient : ((s.setOptions ⟨true⟩).decode "L" [o]).result.result = .error mismatch := rfl
  exact ⟨hstrict, hlenient, (decode_strict_lenient hc [o]).2.2.1 _ _ hstrict rfl hlenient⟩

/-- Conversions that refuse null without being supported. A span passes on that one of its ends is null, and lenient
decoding reports this gap as strict decoding does. A stamp refuses null as an empty text: strict decoding then reports
no gap, and lenient decoding has no error. A gauge is described as optional, and lenient decoding reports the gap of an
absent value. -/
theorem decode_strict_lenient_unsupported :
    let spans := start (fun _ => Catalog.reading Catalog.span) .strict
    let ends := (Bag.ofList [("value", .array [.null, .int .u8 ⟨1, by decide⟩])]).object
    let stamps := start (fun _ => Catalog.reading Catalog.stamp) .strict
    let null := (Bag.ofList [("value", .null)]).object
    let gauges := start (fun _ => Catalog.reading Catalog.gauge) .strict
    let gap := DecodeError.coercion 0 "value" "value" (.mismatch ⟨"null"⟩ ⟨"u8"⟩)
    let empty := DecodeError.coercion 0 "value" "value" (.timestamp "" ⟨"expected 25 characters, got 0"⟩)
    (Catalog.span.type.optional = false ∧ Catalog.span.coerce .null = .error (.mismatch ⟨"null"⟩ ⟨"span"⟩) ∧
      ((spans.setOptions ⟨false⟩).decode "R" [ends]).result.result = .error gap ∧
      ((spans.setOptions ⟨true⟩).decode "R" [ends]).result.result = .error gap ∧ gap.gap = true) ∧
    (Catalog.stamp.type.optional = false ∧
      Catalog.stamp.coerce .null = .error (.timestamp "" ⟨"expected 25 characters, got 0"⟩) ∧
      ((stamps.setOptions ⟨false⟩).decode "R" [null]).result.result = .error empty ∧ empty.gap = false ∧
      ((stamps.setOptions ⟨true⟩).decode "R" [null]).result.result = .ok [none]) ∧
    Catalog.gauge.type.optional = true ∧ Catalog.gauge.coerce .null = .error (.mismatch ⟨"null"⟩ ⟨"u8"⟩) ∧
      ((gauges.setOptions ⟨false⟩).decode "R" [Bag.empty.object]).result.result = .error gap ∧
      ((gauges.setOptions ⟨true⟩).decode "R" [Bag.empty.object]).result.result = .error gap := by
  intro spans ends stamps null gauges gap empty
  exact ⟨⟨rfl, rfl, rfl, rfl, rfl⟩, ⟨rfl, rfl, rfl, rfl, rfl⟩, rfl, rfl, rfl, rfl⟩

end Session

end TypedRecords
