import TypedRecords.Catalog
import TypedRecords.Decoding
import TypedRecords.Proofs.Building

/-!
# Decoding field by field

What a decoded record holds in a field depends on the entry of that field and the answer for its property
alone. Decoding fails if that of some entry fails, and then with the error of the first such entry.
-/

namespace TypedRecords

structure Slot.Stores (slot : Slot R) (get : R → α) (coerce : Value → Coerced α) : Prop where
  ok : ∀ v r x, coerce v = .ok x → ∃ r', slot.assign v r = .ok r' ∧ get r' = x
  error : ∀ v r e, coerce v = .error e → slot.assign v r = .error e

def Slot.Leaves (slot : Slot R) (view : R → α) : Prop :=
  ∀ v r r', slot.assign v r = .ok r' → view r' = view r

/-- The slots that decoding fills each store what `coerce` makes of a value in their own field, as `get` reads
it, and change no other field. -/
def WriteOwn {Val : String → Type} (get : (field : String) → R → Val field)
    (coerce : (field : String) → Value → Coerced (Val field)) (es : List (Entry R)) : Prop :=
  ∀ e ∈ es, ∀ slot, e.decoded? = some slot →
    slot.Stores (get e.field) (coerce e.field) ∧ ∀ g, g ≠ e.field → slot.Leaves (get g)

namespace Entry

def assigned (e : Entry R) (record : Nat) (coerce : Value → Coerced α) (v : Value) : Decoded (Option α) :=
  ((coerce v).map some).mapError (.coercion record e.property e.field)

/-- What becomes of the field of an entry: a value, or nothing if the field keeps its default, or an error. -/
def outcome (e : Entry R) (options : Options) (record : Nat) (coerce : Value → Coerced α) (o : Object) :
    Decoded (Option α) :=
  if e.skip then .ok none
  else
    match o e.property, e.isOptional, options.allowMissing with
    | .error fault, _, _ => .error (.fetch record e.property fault)
    | .ok none, true, _ => e.assigned record coerce .null
    | .ok none, false, true => .ok none
    | .ok none, false, false => .error (.missing record e.property e.field)
    | .ok (some .null), true, _ => e.assigned record coerce .null
    | .ok (some .null), false, true => .ok none
    | .ok (some .null), false, false => e.assigned record coerce .null
    | .ok (some v), _, _ => e.assigned record coerce v

/-- The errors that an entry can give name the record, the property and, unless the object itself failed, the
field. -/
def Names (e : Entry R) (record : Nat) : DecodeError → Prop
  | .coercion n property field _ | .missing n property field => n = record ∧ property = e.property ∧ field = e.field
  | .fetch n property _ => n = record ∧ property = e.property
  | .schema _ | .hook .. => False

end Entry

/-! ## One entry -/

section
variable {options : Options} {record : Nat} {e : Entry R} {slot : Slot R} {coerce : Value → Coerced α}

theorem decoded?_eq_some : e.decoded? = some slot ↔ e.skip = false ∧ e.slot = some slot := by
  unfold Entry.decoded?
  cases e.skip <;> simp

theorem skip_of_decoded?_eq_none (hk : e.skip = false → e.slot ≠ none) (hd : e.decoded? = none) : e.skip = true := by
  by_cases hs : e.skip = true
  · exact hs
  · have hne := hk (by simpa using hs)
    simp [Entry.decoded?, hs, hne] at hd

theorem outcome_of_skip (h : e.skip = true) (o : Object) : e.outcome options record coerce o = .ok none := by
  simp [Entry.outcome, h]

theorem outcome_eq_received (hd : e.decoded? = some slot) (o : Object) :
    e.outcome options record coerce o =
      (received options record e slot (o e.property)).bind fun
        | none => .ok none
        | some v => e.assigned record coerce v := by
  obtain ⟨hk, hs⟩ := decoded?_eq_some.mp hd
  have ho : e.isOptional = slot.type.optional := by simp [Entry.isOptional, Entry.type?, hs]
  unfold Entry.outcome received
  rw [if_neg (by simp [hk]), ho]
  cases o e.property with
  | error fault => rfl
  | ok v? =>
    cases slot.type.optional <;> cases options.allowMissing <;> rcases v? with _ | (_ | _) <;> rfl

theorem outcome_names {o : Object} {err : DecodeError} (h : e.outcome options record coerce o = .error err) :
    e.Names record err := by
  have ha : ∀ v, e.assigned record coerce v = .error err → e.Names record err := by
    intro v hv
    obtain ⟨source, _, rfl⟩ := mapError_eq_error.mp hv
    exact ⟨rfl, rfl, rfl⟩
  unfold Entry.outcome at h
  split at h
  · cases h
  · split at h
    · cases h
      exact ⟨rfl, rfl⟩
    · exact ha _ h
    · cases h
    · cases h
      exact ⟨rfl, rfl, rfl⟩
    · exact ha _ h
    · cases h
    · exact ha _ h
    · exact ha _ h

theorem fill_of_outcome_ok {get : R → α} (hd : e.decoded? = some slot) (hs : slot.Stores get coerce) {o : Object}
    {x : Option α} (h : e.outcome options record coerce o = .ok x) (r : R) :
    ∃ r', fill options record e slot (o e.property) r = .ok r' ∧ get r' = x.getD (get r) := by
  rw [outcome_eq_received hd] at h
  obtain ⟨v?, hv, ha⟩ := bind_eq_ok.mp h
  unfold fill
  rw [hv]
  cases v? with
  | none =>
    cases ha
    exact ⟨r, rfl, rfl⟩
  | some v =>
    obtain ⟨y, hy, rfl⟩ := map_eq_ok.mp (mapError_eq_ok.mp ha)
    obtain ⟨r', hr', hg⟩ := hs.ok v r y hy
    exact ⟨r', mapError_eq_ok.mpr hr', hg⟩

theorem fill_of_outcome_error {get : R → α} (hd : e.decoded? = some slot) (hs : slot.Stores get coerce) {o : Object}
    {err : DecodeError} (h : e.outcome options record coerce o = .error err) (r : R) :
    fill options record e slot (o e.property) r = .error err := by
  rw [outcome_eq_received hd] at h
  unfold fill
  rcases bind_eq_error.mp h with hv | ⟨v?, hv, ha⟩
  · rw [hv]
  · rw [hv]
    cases v? with
    | none => cases ha
    | some v =>
      obtain ⟨source, hc, rfl⟩ := mapError_eq_error.mp ha
      exact mapError_eq_error.mpr ⟨source, hs.error v r source (map_eq_error.mp hc), rfl⟩

theorem fill_leaves {view : R → α} (hl : slot.Leaves view) {answer : Answer} {r r' : R}
    (h : fill options record e slot answer r = .ok r') : view r' = view r := by
  unfold fill at h
  split at h
  · cases h
  · cases h
    rfl
  · exact hl _ _ _ (mapError_eq_ok.mp h)

end

/-! ## All entries -/

section
variable {α : Type} {options : Options} {record : Nat} {o : Object}

theorem decodeEntries_leaves {view : R → α} {ps : List (Entry R × Slot R)} (hl : ∀ p ∈ ps, p.2.Leaves view)
    {r r' : R} (h : (decodeEntries options record ps r).result o = .ok r') : view r' = view r := by
  induction ps generalizing r with
  | nil =>
    cases h
    rfl
  | cons p ps ih =>
    rw [List.forall_mem_cons] at hl
    simp only [decodeEntries, Inquiry.result] at h
    cases hf : fill options record p.1 p.2 (o p.1.property) r with
    | error err =>
      rw [hf] at h
      cases h
    | ok r₁ =>
      rw [hf] at h
      exact (ih hl.2 h).trans (fill_leaves hl.1 hf)

def decodedOf (es : List (Entry R)) : List (Entry R × Slot R) := es.filterMap fun e => e.decoded?.map (e, ·)

theorem decodedOf_cons_none {e : Entry R} (h : e.decoded? = none) (es : List (Entry R)) :
    decodedOf (e :: es) = decodedOf es := by
  simp [decodedOf, h]

theorem decodedOf_cons_some {e : Entry R} {slot : Slot R} (h : e.decoded? = some slot) (es : List (Entry R)) :
    decodedOf (e :: es) = (e, slot) :: decodedOf es := by
  simp [decodedOf, h]

theorem mem_decodedOf {es : List (Entry R)} {p : Entry R × Slot R} :
    p ∈ decodedOf es ↔ p.1 ∈ es ∧ p.1.decoded? = some p.2 := by
  obtain ⟨e, slot⟩ := p
  simp only [decodedOf, List.mem_filterMap, Option.map_eq_some_iff, Prod.mk.injEq]
  refine ⟨?_, ?_⟩
  · intro h
    obtain ⟨e', he', slot', hs, rfl, rfl⟩ := h
    exact ⟨he', hs⟩
  · intro h
    obtain ⟨he, hs⟩ := h
    exact ⟨e, he, slot, hs, rfl, rfl⟩

theorem decodedOf_sublist (es : List (Entry R)) : ((decodedOf es).map (·.1)).Sublist es := by
  induction es with
  | nil => exact .slnil
  | cons e es ih =>
    cases hd : e.decoded? with
    | none =>
      rw [decodedOf_cons_none hd]
      exact ih.cons _
    | some slot =>
      rw [decodedOf_cons_some hd]
      exact ih.cons_cons _

variable {Val : String → Type} {get : (field : String) → R → Val field}
  {coerce : (field : String) → Value → Coerced (Val field)}

theorem decodedOf_leaves {es : List (Entry R)} (hw : WriteOwn get coerce es) {field : String}
    (hf : ∀ e ∈ es, e.skip = false → e.field ≠ field) {r r' : R}
    (h : (decodeEntries options record (decodedOf es) r).result o = .ok r') : get field r' = get field r := by
  refine decodeEntries_leaves ?_ h
  intro p hp
  obtain ⟨he, hd⟩ := mem_decodedOf.mp hp
  have hne := hf p.1 he (decoded?_eq_some.mp hd).1
  exact (hw p.1 he p.2 hd).2 field hne.symm

theorem decodeEntries_ok {es : List (Entry R)} (hn : (es.map (·.field)).Nodup)
    (hk : ∀ e ∈ es, e.skip = false → e.slot ≠ none) (hw : WriteOwn get coerce es)
    (hok : ∀ e ∈ es, ∃ x, e.outcome options record (coerce e.field) o = .ok x) (r : R) :
    ∃ r', (decodeEntries options record (decodedOf es) r).result o = .ok r' ∧
      ∀ e ∈ es, ∀ x, e.outcome options record (coerce e.field) o = .ok x →
        get e.field r' = x.getD (get e.field r) := by
  induction es generalizing r with
  | nil => exact ⟨r, rfl, nofun⟩
  | cons e es ih =>
    rw [List.map_cons, List.nodup_cons] at hn
    rw [List.forall_mem_cons] at hk hok
    have hw' : WriteOwn get coerce es := fun e' he' => hw e' (List.mem_cons_of_mem _ he')
    have hne : ∀ e' ∈ es, e'.field ≠ e.field := fun e' he' h => hn.1 (h ▸ List.mem_map_of_mem he')
    -- the entries after the first leave its field as it was filled
    have hkeep : ∀ {r₁ r'}, (decodeEntries options record (decodedOf es) r₁).result o = .ok r' →
        get e.field r' = get e.field r₁ := decodedOf_leaves hw' fun e' he' _ => hne e' he'
    obtain ⟨x, hx⟩ := hok.1
    cases hd : e.decoded? with
    | none =>
      have hskip := skip_of_decoded?_eq_none hk.1 hd
      obtain ⟨r', hr', hg⟩ := ih hn.2 hk.2 hw' hok.2 r
      refine ⟨r', by rw [decodedOf_cons_none hd, hr'], ?_⟩
      rw [List.forall_mem_cons]
      refine ⟨?_, hg⟩
      intro y hy
      rw [outcome_of_skip hskip] at hy
      cases hy
      exact hkeep hr'
    | some slot =>
      obtain ⟨hs, hl⟩ := hw e (List.mem_cons_self ..) slot hd
      obtain ⟨r₁, hr₁, hg₁⟩ := fill_of_outcome_ok hd hs hx r
      obtain ⟨r', hr', hg⟩ := ih hn.2 hk.2 hw' hok.2 r₁
      refine ⟨r', ?_, ?_⟩
      · rw [decodedOf_cons_some hd]
        simp only [decodeEntries, Inquiry.result]
        rw [hr₁]
        exact hr'
      rw [List.forall_mem_cons]
      refine ⟨?_, ?_⟩
      · intro y hy
        rw [hx] at hy
        cases hy
        rw [← hg₁]
        exact hkeep hr'
      · intro e' he' y hy
        rw [hg e' he' y hy, fill_leaves (hl _ (hne e' he')) hr₁]

theorem decodeEntries_append (ps qs : List (Entry R × Slot R)) (r : R) :
    (decodeEntries options record (ps ++ qs) r).result o =
      ((decodeEntries options record ps r).result o).bind fun r₁ =>
        (decodeEntries options record qs r₁).result o := by
  induction ps generalizing r with
  | nil => rfl
  | cons p ps ih =>
    simp only [List.cons_append, decodeEntries, Inquiry.result]
    cases fill options record p.1 p.2 (o p.1.property) r with
    | error err => rfl
    | ok r₁ => exact ih r₁

theorem skip_of_outcome_error {e : Entry R} {err : DecodeError} {c : Value → Coerced α}
    (h : e.outcome options record c o = .error err) : e.skip = false := by
  by_cases hs : e.skip = true
  · rw [outcome_of_skip hs] at h
    cases h
  · simpa using hs

theorem decodeEntries_first_error {before after : List (Entry R)} {e : Entry R} {err : DecodeError}
    (hn : (before.map (·.field)).Nodup) (hk : ∀ e' ∈ before, e'.skip = false → e'.slot ≠ none)
    (hke : e.skip = false → e.slot ≠ none) (hw : WriteOwn get coerce (before ++ e :: after))
    (hok : ∀ e' ∈ before, ∃ x, e'.outcome options record (coerce e'.field) o = .ok x)
    (he : e.outcome options record (coerce e.field) o = .error err) (r : R) :
    (decodeEntries options record (decodedOf (before ++ e :: after)) r).result o = .error err := by
  have hskip := skip_of_outcome_error he
  obtain ⟨slot, hslot⟩ := Option.ne_none_iff_exists'.mp (hke hskip)
  have hd : e.decoded? = some slot := decoded?_eq_some.mpr ⟨hskip, hslot⟩
  obtain ⟨r₁, hr₁, -⟩ := decodeEntries_ok hn hk (fun e' he' => hw e' (List.mem_append_left _ he')) hok r
  have hs := (hw e (by simp) slot hd).1
  have happ : decodedOf (before ++ e :: after) = decodedOf before ++ (e, slot) :: decodedOf after := by
    rw [← decodedOf_cons_some hd]
    exact List.filterMap_append
  rw [happ, decodeEntries_append, hr₁]
  simp only [Except.bind, decodeEntries, Inquiry.result]
  rw [fill_of_outcome_error hd hs he]
  rfl

section
variable {es : List (Entry R)} (hn : (es.map (·.field)).Nodup)
  (hk : ∀ e ∈ es, e.skip = false → e.slot ≠ none) (hw : WriteOwn get coerce es)
include hn hk hw

theorem decodeEntries_eq_error {r : R} {err : DecodeError} :
    (decodeEntries options record (decodedOf es) r).result o = .error err ↔
      ∃ before e after, es = before ++ e :: after ∧
        (∀ e' ∈ before, ∃ x, e'.outcome options record (coerce e'.field) o = .ok x) ∧
        e.outcome options record (coerce e.field) o = .error err := by
  have hfail : ∀ before e after err, es = before ++ e :: after →
      (∀ e' ∈ before, ∃ x, e'.outcome options record (coerce e'.field) o = .ok x) →
      e.outcome options record (coerce e.field) o = .error err →
        (decodeEntries options record (decodedOf es) r).result o = .error err := by
    intro before e after err hes hok he
    subst hes
    rw [List.map_append, List.nodup_append] at hn
    have hk' : ∀ e' ∈ before, e'.skip = false → e'.slot ≠ none := fun e' he' => hk e' (List.mem_append_left _ he')
    exact decodeEntries_first_error hn.1 hk' (hk e (by simp)) hw hok he r
  refine ⟨?_, ?_⟩
  · intro h
    rcases all_ok_or_first_error (fun e : Entry R => e.outcome options record (coerce e.field) o) es with
      hall | ⟨before, e, after, err', hes, hok, he⟩
    · obtain ⟨r', hr', -⟩ := decodeEntries_ok hn hk hw hall r
      rw [hr'] at h
      cases h
    · rw [hfail before e after err' hes hok he] at h
      cases h
      exact ⟨before, e, after, hes, hok, he⟩
  · intro h
    obtain ⟨before, e, after, hes, hok, he⟩ := h
    exact hfail before e after err hes hok he

theorem exists_decodeEntries_ok {r : R} :
    (∃ r', (decodeEntries options record (decodedOf es) r).result o = .ok r') ↔
      ∀ e ∈ es, ∃ x, e.outcome options record (coerce e.field) o = .ok x := by
  refine ⟨?_, ?_⟩
  · intro h
    obtain ⟨r', hr'⟩ := h
    rcases all_ok_or_first_error (fun e : Entry R => e.outcome options record (coerce e.field) o) es with
      hall | ⟨before, e, after, err, hes, hok, he⟩
    · exact hall
    · rw [(decodeEntries_eq_error hn hk hw).mpr ⟨before, e, after, hes, hok, he⟩] at hr'
      cases hr'
  · intro hall
    obtain ⟨r', hr', -⟩ := decodeEntries_ok hn hk hw hall r
    exact ⟨r', hr'⟩

end
end

/-! ## Built schemas -/

/-- Decoding by a built schema whose slots write their own fields, over every object, default record and
option: it succeeds when no entry gives an error, each field then holds what its own entry gives or its
default, and otherwise the error is that of the first entry that gives one. -/
theorem decode_fieldwise {Val : String → Type} (get : (field : String) → R → Val field)
    (coerce : (field : String) → Value → Coerced (Val field)) {typeName : String} {decls : List (FieldDecl R)}
    {schema : Schema R} (hb : Schema.build typeName decls = .ok schema) (hw : WriteOwn get coerce schema.entries)
    (options : Options) (fresh : R) (record : Nat) (o : Object) :
    ((∃ r, ((Route.fields schema).decodeRecord options fresh record).result o = .ok r) ↔
      ∀ e ∈ schema.entries, e.skip = false → ∃ x, e.outcome options record (coerce e.field) o = .ok x) ∧
    (∀ r, ((Route.fields schema).decodeRecord options fresh record).result o = .ok r →
      (∀ e ∈ schema.entries, ∀ x, e.outcome options record (coerce e.field) o = .ok x →
        get e.field r = x.getD (get e.field fresh)) ∧
      ∀ field, (∀ e ∈ schema.entries, e.skip = false → e.field ≠ field) → get field r = get field fresh) ∧
    (∀ err, ((Route.fields schema).decodeRecord options fresh record).result o = .error err ↔
      ∃ before e after, schema.entries = before ++ e :: after ∧ e.skip = false ∧
        (∀ e' ∈ before, ∃ x, e'.outcome options record (coerce e'.field) o = .ok x) ∧
        e.outcome options record (coerce e.field) o = .error err ∧ e.Names record err) := by
  have hn := Schema.nodup_fields hb
  have hk := Schema.slot_ne_none hb
  have hrun : ((Route.fields schema).decodeRecord options fresh record).result o =
      (decodeEntries options record (decodedOf schema.entries) fresh).result o := rfl
  rw [hrun, exists_decodeEntries_ok hn hk hw]
  refine ⟨⟨fun h e he _ => h e he, ?_⟩, ?_, ?_⟩
  · intro h e he
    by_cases hs : e.skip = true
    · exact ⟨none, outcome_of_skip hs o⟩
    · exact h e he (by simpa using hs)
  · intro r hr
    obtain ⟨r', hr', hg⟩ := decodeEntries_ok hn hk hw ((exists_decodeEntries_ok hn hk hw).mp ⟨r, hr⟩) fresh
    rw [hr] at hr'
    cases hr'
    exact ⟨hg, fun field hf => decodedOf_leaves hw hf hr⟩
  · intro err
    rw [decodeEntries_eq_error hn hk hw]
    refine ⟨?_, ?_⟩
    · intro h
      obtain ⟨before, e, after, hes, hok, he⟩ := h
      exact ⟨before, e, after, hes, skip_of_outcome_error he, hok, he, outcome_names he⟩
    · intro h
      obtain ⟨before, e, after, hes, -, hok, he, -⟩ := h
      exact ⟨before, e, after, hes, hok, he⟩

/-! ## Tables -/

theorem slot_stores [CustomTypes] (field : String) (τ : Target) (optional : Option Bool) :
    (FieldSpec.slot field τ optional).Stores (·.get? field) fun v => (τ.coerce v).map fun x => some (.typed τ x) where
  ok v r x h := by
    obtain ⟨y, hy, rfl⟩ := map_eq_ok.mp h
    exact ⟨r.put field (.typed τ y), map_eq_ok.mpr ⟨y, hy, rfl⟩, by simp⟩
  error v r e h := map_eq_error.mpr (map_eq_error.mp h)

theorem slot_leaves [CustomTypes] {field g : String} (h : g ≠ field) (τ : Target) (optional : Option Bool) :
    (FieldSpec.slot field τ optional).Leaves (·.get? g) := by
  intro v r r' hr
  obtain ⟨y, _, rfl⟩ := map_eq_ok.mp hr
  simp [h]

theorem writeOwn_table [CustomTypes] (type : String → Target) {es : List (Entry Record)}
    (h : ∀ e ∈ es, ∀ slot, e.decoded? = some slot → ∃ optional, slot = FieldSpec.slot e.field (type e.field) optional) :
    WriteOwn (fun field r => r.get? field)
      (fun field v => ((type field).coerce v).map fun x => some (.typed (type field) x)) es := by
  intro e he slot hd
  obtain ⟨optional, rfl⟩ := h e he slot hd
  exact ⟨slot_stores e.field _ optional, fun g hg => slot_leaves hg _ optional⟩

theorem decode_fieldwise_presets :
    ∃ schema r, Schema.build "PresetOptionals"
        [(Catalog.preset "Description" (.option .string) (.string "preset")).decl,
          (Catalog.preset "Count" Catalog.u16 (.int .u16 ⟨7, by decide⟩)).decl] = .ok schema ∧
      ((Route.fields schema).decodeRecord ⟨true⟩ Catalog.presetOptionals.fresh 0).result Bag.empty.object = .ok r ∧
      r.get? "Description" = some (.typed (.option .string) (none : Option String)) ∧
      r.get? "Count" = some (.typed Catalog.u16 ⟨7, by decide⟩) := by
  have hb : Schema.build "PresetOptionals"
      [(Catalog.preset "Description" (.option .string) (.string "preset")).decl,
        (Catalog.preset "Count" Catalog.u16 (.int .u16 ⟨7, by decide⟩)).decl] =
      .ok ⟨"PresetOptionals",
        [⟨"Description", "Description", false, some (FieldSpec.slot "Description" (.option .string) none)⟩,
          ⟨"Count", "Count", false, some (FieldSpec.slot "Count" Catalog.u16 none)⟩]⟩ := rfl
  obtain ⟨hok, hval, -⟩ := decode_fieldwise _ _ hb
    (writeOwn_table (fun f => if f = "Count" then Catalog.u16 else .option .string) (by
      refine List.forall_mem_cons.mpr ⟨?_, List.forall_mem_singleton.mpr ?_⟩
      · intro slot hd
        cases hd
        exact ⟨none, rfl⟩
      · intro slot hd
        cases hd
        exact ⟨none, rfl⟩)) ⟨true⟩ Catalog.presetOptionals.fresh 0 Bag.empty.object
  obtain ⟨r, hr⟩ := hok.mpr
    (List.forall_mem_cons.mpr ⟨fun _ => ⟨_, rfl⟩, List.forall_mem_singleton.mpr fun _ => ⟨_, rfl⟩⟩)
  refine ⟨_, r, hb, hr, ?_, ?_⟩
  · exact (hval r hr).1 _ (List.mem_cons_self ..) _ rfl
  · exact (hval r hr).1 _ (List.mem_cons_of_mem _ (List.mem_cons_self ..)) _ rfl

end TypedRecords
